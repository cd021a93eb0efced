import Pausepoint.Proofs.Language.Writing

/-!
# Pausepoint.Proofs.Language.Nesting

What becomes of the lines of a source.

Functions lie inside each other, and each ends at an end of its own. `Nested` says so of lines, without
the parser, and `Covers` says which statements stand on which lines. The main result is
`parse_keeps_every_line`: a source is read exactly if each of its lines can be read and their functions are
nested; no line is lost, doubled or moved then, and otherwise the first line that cannot stay is reported.

Proof shape: the parser reads line by line and keeps the functions that are open.

* `assemble_covers` — statements that cover the next lines are read from them, whatever is open;
* `Pending` — what the lines read so far have left open; one more line keeps it (`Pending.extend`,
  `Pending.head`, `Pending.close`) or is at fault;
* `Verdict` — so all lines are covered, or there is a first one at fault, or a function has no end; by
  induction on the lines that remain (`verdict_assemble`).
-/

namespace Pausepoint.Language

open Pausepoint.Text

/-! ### Lines -/

/-- Is the line the head of a function? -/
def isHead (l : NumberedLine) : Bool :=
  match Header.read l.2 with
  | .ok (.function _) => true
  | _ => false

/-- Is the line the end of a function? -/
def isEnd (l : NumberedLine) : Bool :=
  match Header.read l.2 with
  | .ok .close => true
  | _ => false

section

variable {l : NumberedLine} {name : String} {action : Action} {fault : SyntaxFault}

theorem isHead_iff : isHead l = true ↔ ∃ name, Header.read l.2 = .ok (.function name) := by
  unfold isHead
  split
  · next name h => simp [h]
  · next h =>
      constructor
      · intro hfalse
        cases hfalse
      · rintro ⟨name, hname⟩
        exact absurd hname (h name)

theorem isEnd_iff : isEnd l = true ↔ Header.read l.2 = .ok .close := by
  unfold isEnd
  split
  · next h => simp [h]
  · next h =>
      constructor
      · intro hfalse
        cases hfalse
      · intro hclose
        exact absurd hclose h

theorem isHead_function (h : Header.read l.2 = .ok (.function name)) : isHead l = true ∧ isEnd l = false := by
  simp [isHead, isEnd, h]

theorem isHead_close (h : Header.read l.2 = .ok .close) : isHead l = false ∧ isEnd l = true := by
  simp [isHead, isEnd, h]

theorem isHead_action (h : Header.read l.2 = .ok (.action action)) : isHead l = false ∧ isEnd l = false := by
  simp [isHead, isEnd, h]

end

/-- The functions among some lines lie inside each other, and each has its end. -/
inductive Nested : List NumberedLine → Prop
  | nil : Nested []
  /-- A line that neither begins nor ends a function. -/
  | other {l : NumberedLine} {rest : List NumberedLine} (hhead : isHead l = false) (hend : isEnd l = false)
      (hrest : Nested rest) : Nested (l :: rest)
  /-- A function from its head to the end that matches it. -/
  | function {head close : NumberedLine} {inside rest : List NumberedLine} (hhead : isHead head = true)
      (hinside : Nested inside) (hclose : isEnd close = true) (hrest : Nested rest) :
      Nested (head :: (inside ++ close :: rest))

/-- Some lines end inside a function: all that was begun after its head is ended. -/
def HasOpen (lines : List NumberedLine) : Prop :=
  ∃ outer head inside, lines = outer ++ head :: inside ∧ isHead head = true ∧ Nested inside

/-- How many functions more are begun than ended. -/
def excess (lines : List NumberedLine) : Int :=
  lines.countP isHead - lines.countP isEnd

@[simp] theorem excess_nil : excess [] = 0 := rfl

@[simp] theorem excess_append (lines rest : List NumberedLine) :
    excess (lines ++ rest) = excess lines + excess rest := by
  simp only [excess, List.countP_append]
  omega

theorem excess_cons_other {l : NumberedLine} (rest : List NumberedLine) (hhead : isHead l = false)
    (hend : isEnd l = false) : excess (l :: rest) = excess rest := by
  simp [excess, hhead, hend]

theorem isEnd_of_isHead {l : NumberedLine} (h : isHead l = true) : isEnd l = false := by
  obtain ⟨name, hname⟩ := isHead_iff.mp h
  exact (isHead_function hname).2

theorem isHead_of_isEnd {l : NumberedLine} (h : isEnd l = true) : isHead l = false :=
  (isHead_close (isEnd_iff.mp h)).1

theorem excess_cons_head {l : NumberedLine} (rest : List NumberedLine) (h : isHead l = true) :
    excess (l :: rest) = excess rest + 1 := by
  simp only [excess, List.countP_cons, h, isEnd_of_isHead h]
  simp
  omega

theorem excess_cons_end {l : NumberedLine} (rest : List NumberedLine) (h : isEnd l = true) :
    excess (l :: rest) = excess rest - 1 := by
  simp only [excess, List.countP_cons, h, isHead_of_isEnd h]
  simp
  omega

namespace Nested

variable {lines : List NumberedLine}

/-- As many functions are ended as begun. -/
theorem excess_eq (h : Nested lines) : excess lines = 0 := by
  induction h with
  | nil => rfl
  | other hhead hend hrest ih => rw [excess_cons_other _ hhead hend, ih]
  | function hhead hinside hclose hrest ihinside ihrest =>
      rw [excess_cons_head _ hhead, excess_append, excess_cons_end _ hclose, ihinside, ihrest]
      rfl

/-- Seen from behind there are never more heads than ends. -/
theorem excess_tail_le (h : Nested lines) {front tail : List NumberedLine} (heq : lines = front ++ tail) :
    excess tail ≤ 0 := by
  induction h generalizing front tail with
  | nil =>
      obtain ⟨-, rfl⟩ := List.nil_eq_append_iff.mp heq
      simp
  | @other l rest hhead hend hrest ih =>
      cases front with
      | nil =>
          have hwhole := (Nested.other hhead hend hrest).excess_eq
          rw [heq, List.nil_append] at hwhole
          omega
      | cons first front => exact ih (List.cons.inj heq).2
  | @function head close inside rest hhead hinside hclose hrest ihinside ihrest =>
      cases front with
      | nil =>
          have hwhole := (Nested.function hhead hinside hclose hrest).excess_eq
          rw [heq, List.nil_append] at hwhole
          omega
      | cons first front =>
          have hend := excess_cons_end rest hclose
          have hrest := hrest.excess_eq
          -- The tail begins behind the function or at its end, or else inside it.
          rcases List.append_eq_append_iff.mp (List.cons.inj heq).2 with
            ⟨middle, -, hbehind⟩ | ⟨middle, hfront, htail⟩
          · cases middle with
            | nil =>
                rw [List.nil_append] at hbehind
                rw [← hbehind]
                omega
            | cons first middle => exact ihrest (List.cons.inj hbehind).2
          · have hmiddle := ihinside hfront
            rw [htail, excess_append]
            omega

/-- **No function is left open** by nested lines. -/
theorem not_hasOpen (h : Nested lines) : ¬ HasOpen lines := by
  rintro ⟨outer, head, inside, rfl, hhead, hinside⟩
  have hle := h.excess_tail_le rfl
  rw [excess_cons_head _ hhead, hinside.excess_eq] at hle
  omega

end Nested

/-! ### Trees -/

mutual

/-- A statement and all that are inside it, a function before its body. -/
def Statement.preorder : Statement → List Statement
  | .simple line action => [.simple line action]
  | .function line name body => .function line name body :: preorder body

/-- All statements of a block, from the top. -/
def preorder : List Statement → List Statement
  | [] => []
  | s :: rest => s.preorder ++ preorder rest

end

section

variable (line : Nat) (action : Action) (name : String) (body rest : List Statement) (s : Statement)

@[simp] theorem Statement.line_simple : (simple line action).line = line := rfl

@[simp] theorem Statement.line_function : (function line name body).line = line := rfl

@[simp] theorem Statement.header_simple : (simple line action).header = .action action := rfl

@[simp] theorem Statement.header_function : (function line name body).header = .function name := rfl

@[simp] theorem Statement.preorder_simple : (simple line action).preorder = [.simple line action] := by
  rw [Statement.preorder]

@[simp] theorem Statement.preorder_function :
    (function line name body).preorder = .function line name body :: Language.preorder body := by
  rw [Statement.preorder]

@[simp] theorem preorder_nil : preorder [] = [] := by
  rw [preorder]

@[simp] theorem preorder_cons : preorder (s :: rest) = s.preorder ++ preorder rest := by
  rw [preorder]

end

/-- Statements stand on lines: each on its own, and a function up to the end that matches its head. -/
inductive Covers : List Statement → List NumberedLine → Prop
  | nil : Covers [] []
  | simple {line : Nat} {text : List Char} {action : Action} {body : List Statement}
      {rest : List NumberedLine} (hread : Header.read text = .ok (.action action))
      (hrest : Covers body rest) : Covers (.simple line action :: body) ((line, text) :: rest)
  | function {line : Nat} {text : List Char} {name : String} {inner body : List Statement}
      {close : NumberedLine} {inside rest : List NumberedLine}
      (hread : Header.read text = .ok (.function name)) (hinner : Covers inner inside)
      (hclose : Header.read close.2 = .ok .close) (hrest : Covers body rest) :
      Covers (.function line name inner :: body) ((line, text) :: (inside ++ close :: rest))

/-- Walking through statements gives just the lines that are no ends, with their numbers and what they
read as. -/
def Lists (body : List Statement) (lines : List NumberedLine) : Prop :=
  (preorder body).map (fun s => (s.line, Except.ok s.header)) =
    (lines.filter fun l => !isEnd l).map fun l => (l.1, Header.read l.2)

namespace Covers

variable {body : List Statement} {lines : List NumberedLine}

theorem append {body' : List Statement} {lines' : List NumberedLine} (h : Covers body lines)
    (h' : Covers body' lines') : Covers (body ++ body') (lines ++ lines') := by
  induction h with
  | nil => exact h'
  | simple hread hrest ih => exact .simple hread ih
  | function hread hinner hclose hrest ihinner ih =>
      simp only [List.cons_append, List.append_assoc]
      exact .function hread hinner hclose ih

/-- Every line can be read. -/
theorem reads (h : Covers body lines) : ∀ l ∈ lines, ∃ header, Header.read l.2 = .ok header := by
  induction h with
  | nil => simp
  | simple hread hrest ih => exact List.forall_mem_cons.mpr ⟨⟨_, hread⟩, ih⟩
  | function hread hinner hclose hrest ihinner ih =>
      have hbehind := List.forall_mem_cons.mpr ⟨⟨_, hclose⟩, ih⟩
      exact List.forall_mem_cons.mpr ⟨⟨_, hread⟩, List.forall_mem_append.mpr ⟨ihinner, hbehind⟩⟩

theorem nested (h : Covers body lines) : Nested lines := by
  induction h with
  | nil => exact .nil
  | @simple line text action body rest hread hrest ih =>
      have hl := isHead_action (l := (line, text)) hread
      exact .other hl.1 hl.2 ih
  | @function line text name inner body close inside rest hread hinner hclose hrest ihinner ih =>
      have hhead := isHead_function (l := (line, text)) hread
      exact .function hhead.1 ihinner (isHead_close hclose).2 ih

/-- **The walk through a tree** passes the lines that it stands on, but for the ends. -/
theorem lists (h : Covers body lines) : Lists body lines := by
  unfold Lists
  induction h with
  | nil => rfl
  | @simple line text action body rest hread hrest ih =>
      have hl := isHead_action (l := (line, text)) hread
      simp [hl.2, hread, ih]
  | @function line text name inner body close inside rest hread hinner hclose hrest ihinner ih =>
      have hhead := isHead_function (l := (line, text)) hread
      have hend := isHead_close hclose
      simp [hhead.2, hend.2, hread, ihinner, ih]

/-- **The body of a function** covers the lines between its head and the end that matches it. -/
theorem function_mem (h : Covers body lines) {line : Nat} {name : String} {inner : List Statement}
    (hmem : .function line name inner ∈ preorder body) :
    ∃ before text inside close after, lines = before ++ (line, text) :: (inside ++ close :: after) ∧
      Header.read text = .ok (.function name) ∧ isEnd close = true ∧ Covers inner inside := by
  induction h with
  | nil => simp at hmem
  | @simple line' text action body rest hread hrest ih =>
      simp only [preorder_cons, Statement.preorder_simple, List.cons_append, List.nil_append, List.mem_cons,
        reduceCtorEq, false_or] at hmem
      obtain ⟨before, head, inside, close, after, rfl, hfound⟩ := ih hmem
      exact ⟨(line', text) :: before, head, inside, close, after, rfl, hfound⟩
  | @function line' text name' inner' body close rest rest' hread hinner hclose hrest ihinner ih =>
      simp only [preorder_cons, Statement.preorder_function, List.cons_append, List.mem_cons,
        List.mem_append] at hmem
      rcases hmem with hself | hinside | hbehind
      · cases hself
        exact ⟨[], text, rest, close, rest', rfl, hread, (isHead_close hclose).2, hinner⟩
      · obtain ⟨before, head, inside, close', after, rfl, hfound⟩ := ihinner hinside
        refine ⟨(line', text) :: before, head, inside, close', after ++ close :: rest', ?_, hfound⟩
        simp
      · obtain ⟨before, head, inside, close', after, rfl, hfound⟩ := ih hbehind
        refine ⟨(line', text) :: (rest ++ close :: before), head, inside, close', after, ?_, hfound⟩
        simp

end Covers

/-- **Nested lines that can be read** have statements that stand on them. -/
theorem exists_covers {lines : List NumberedLine} (h : Nested lines)
    (hreads : ∀ l ∈ lines, ∃ header, Header.read l.2 = .ok header) : ∃ body, Covers body lines := by
  induction h with
  | nil => exact ⟨[], .nil⟩
  | @other l rest hhead hend hrest ih =>
      obtain ⟨⟨header, hl⟩, hreads⟩ := List.forall_mem_cons.mp hreads
      obtain ⟨body, hbody⟩ := ih hreads
      cases header with
      | action action => exact ⟨.simple l.1 action :: body, .simple hl hbody⟩
      | function name => simp [(isHead_function hl).1] at hhead
      | close => simp [(isHead_close hl).2] at hend
  | @function head close inside rest hhead hinside hclose hrest ihinside ih =>
      obtain ⟨name, hname⟩ := isHead_iff.mp hhead
      obtain ⟨-, hreads⟩ := List.forall_mem_cons.mp hreads
      obtain ⟨hreadsInside, hreads⟩ := List.forall_mem_append.mp hreads
      obtain ⟨inner, hinner⟩ := ihinside hreadsInside
      obtain ⟨body, hbody⟩ := ih (List.forall_mem_cons.mp hreads).2
      exact ⟨.function head.1 name inner :: body, .function hname hinner (isEnd_iff.mp hclose) hbody⟩

/-! ### Reading -/

/-- **Statements are read from the lines that they stand on**, whatever functions are open around them. -/
theorem assemble_covers {body : List Statement} {lines : List NumberedLine} (h : Covers body lines)
    (enclosing : List OpenFunction) (done : List Statement) (rest : List NumberedLine) :
    assemble enclosing done (lines ++ rest) = assemble enclosing (body.reverse ++ done) rest := by
  induction h generalizing enclosing done rest with
  | nil => rfl
  | simple hread hrest ih =>
      rw [List.cons_append, assemble_cons, hread]
      simp [ih]
  | function hread hinner hclose hrest ihinner ih =>
      rw [List.cons_append, assemble_cons, hread]
      simp only [List.append_assoc, List.cons_append]
      rw [ihinner, assemble_cons, hclose]
      simp [ih]

/-- What the lines that were read have left open: around each function that is open, the statements before
it are finished, and inside it those that were read since. -/
inductive Pending : List OpenFunction → List Statement → List NumberedLine → Prop
  | outside {done : List Statement} {lines : List NumberedLine} (h : Covers done.reverse lines) :
      Pending [] done lines
  | inside {f : OpenFunction} {outer : List OpenFunction} {done : List Statement} {text : List Char}
      {before inside : List NumberedLine} (hbefore : Pending outer f.before before)
      (hread : Header.read text = .ok (.function f.name)) (h : Covers done.reverse inside) :
      Pending (f :: outer) done (before ++ (f.line, text) :: inside)

namespace Pending

variable {enclosing outer : List OpenFunction} {f : OpenFunction} {done : List Statement}
  {before : List NumberedLine}

/-- Whole statements follow. -/
theorem extend (h : Pending enclosing done before) {body : List Statement} {lines : List NumberedLine}
    (hbody : Covers body lines) : Pending enclosing (body.reverse ++ done) (before ++ lines) := by
  cases h with
  | outside h =>
      refine .outside ?_
      simp only [List.reverse_append, List.reverse_reverse]
      exact h.append hbody
  | inside hbefore hread h =>
      rw [List.append_assoc, List.cons_append]
      refine .inside hbefore hread ?_
      simp only [List.reverse_append, List.reverse_reverse]
      exact h.append hbody

/-- A function begins. -/
theorem head (h : Pending enclosing done before) {line : Nat} {text : List Char} {name : String}
    (hread : Header.read text = .ok (.function name)) :
    Pending (⟨line, name, done⟩ :: enclosing) [] (before ++ [(line, text)]) :=
  .inside h hread .nil

/-- The innermost function ends, and is a statement of what was around it. -/
theorem close (h : Pending (f :: outer) done before) {l : NumberedLine}
    (hclose : Header.read l.2 = .ok .close) :
    Pending outer (.function f.line f.name done.reverse :: f.before) (before ++ [l]) := by
  cases h with
  | @inside _ _ _ text front inside hbefore hread h =>
      have hwhole : Covers [.function f.line f.name done.reverse] ((f.line, text) :: (inside ++ [l])) :=
        .function hread h hclose .nil
      have hextended := hbefore.extend hwhole
      simpa using hextended

/-- **A function is open** exactly if the parser keeps one. -/
theorem hasOpen_iff (h : Pending enclosing done before) : HasOpen before ↔ enclosing ≠ [] := by
  cases h with
  | outside h => simpa using h.nested.not_hasOpen
  | @inside f outer _ text front inside hbefore hread h =>
      have hhead := isHead_function (l := (f.line, text)) hread
      simp only [ne_eq, reduceCtorEq, not_false_eq_true, iff_true]
      exact ⟨front, (f.line, text), inside, rfl, hhead.1, h.nested⟩

end Pending

/-! ### Faults -/

/-- What is wrong with a line, given those before it: it cannot be read, or it is an end and no function is
open. -/
inductive FaultAt (before : List NumberedLine) (l : NumberedLine) : SyntaxFault → Prop
  | malformed {fault : SyntaxFault} (h : Header.read l.2 = .error fault) : FaultAt before l fault
  | unmatched (h : isEnd l = true) (hopen : ¬ HasOpen before) : FaultAt before l .strayEnd

/-- No line is at fault. -/
def Faultless (lines : List NumberedLine) : Prop :=
  ∀ before l after, lines = before ++ l :: after → ∀ fault, ¬ FaultAt before l fault

theorem faultless_nil : Faultless [] := by
  intro before l after heq
  simp at heq

/-- One line more. -/
theorem Faultless.snoc {lines : List NumberedLine} {l : NumberedLine} (h : Faultless lines)
    (hl : ∀ fault, ¬ FaultAt lines l fault) : Faultless (lines ++ [l]) := by
  intro before m after heq
  rcases List.eq_nil_or_concat after with rfl | ⟨after, last, rfl⟩
  · obtain ⟨rfl, hsame⟩ := List.append_inj' heq rfl
    cases hsame
    exact hl
  · rw [List.concat_eq_append, ← List.cons_append, ← List.append_assoc] at heq
    exact h before m after (List.append_inj' heq rfl).1

/-- A line that can be read is not at fault, unless it is an end and no function is open. -/
theorem not_faultAt {before : List NumberedLine} {l : NumberedLine} {header : Header}
    (hread : Header.read l.2 = .ok header) (hfine : isEnd l = true → HasOpen before) (fault : SyntaxFault) :
    ¬ FaultAt before l fault := by
  intro h
  cases h with
  | malformed hmalformed =>
      rw [hread] at hmalformed
      cases hmalformed
  | unmatched hend hopen => exact hopen (hfine hend)

/-- What is to be said of the lines of a source. -/
inductive Verdict (lines : List NumberedLine) : Except LineFault (List Statement) → Prop
  /-- There are statements that stand on them. -/
  | covered {body : List Statement} (h : Covers body lines) : Verdict lines (.ok body)
  /-- A line is at fault, and none before it. -/
  | faulty {before after : List NumberedLine} {l : NumberedLine} {fault : SyntaxFault}
      (heq : lines = before ++ l :: after) (hbefore : Faultless before) (h : FaultAt before l fault) :
      Verdict lines (.error (l.1, fault))
  /-- No line is at fault, but a function has no end. -/
  | unfinished (hlines : Faultless lines) (hopen : HasOpen lines) : Verdict lines (.error (0, .missingEnd))

/-- **The verdict on all lines** is found whichever of them were read already, by induction on the
others. -/
theorem verdict_assemble {enclosing : List OpenFunction} {done : List Statement}
    {before : List NumberedLine} (h : Pending enclosing done before) (hbefore : Faultless before)
    (rest : List NumberedLine) : Verdict (before ++ rest) (assemble enclosing done rest) := by
  induction rest generalizing enclosing done before with
  | nil =>
      rw [List.append_nil]
      have hopen := h.hasOpen_iff
      cases h with
      | outside h => exact .covered h
      | inside hfront hread h => exact .unfinished hbefore (hopen.mpr (by simp))
  | cons l rest ih =>
      obtain ⟨line, text⟩ := l
      rw [assemble_cons]
      cases hread : Header.read text with
      | error fault => exact .faulty rfl hbefore (.malformed hread)
      | ok header =>
          cases header with
          | action action =>
              have hl := isHead_action (l := (line, text)) hread
              have hcovers : Covers [.simple line action] [(line, text)] := .simple hread .nil
              rw [List.append_cons]
              exact ih (h.extend hcovers) (hbefore.snoc (not_faultAt hread (by simp [hl.2])))
          | function name =>
              have hl := isHead_function (l := (line, text)) hread
              rw [List.append_cons]
              exact ih (h.head hread) (hbefore.snoc (not_faultAt hread (by simp [hl.2])))
          | close =>
              have hl := isHead_close (l := (line, text)) hread
              have hopen := h.hasOpen_iff
              -- The innermost open function ends here, or there is none.
              cases enclosing with
              | nil => exact .faulty rfl hbefore (.unmatched hl.2 (by simp [hopen]))
              | cons f outer =>
                  rw [List.append_cons]
                  exact ih (h.close hread) (hbefore.snoc (not_faultAt hread (by simp [hopen])))

theorem verdict_parse (source : String) : Verdict (significant source) (parse source) := by
  have hnone : Pending [] [] [] := .outside .nil
  exact verdict_assemble hnone faultless_nil (significant source)

/-- **A source is read** as the statements that stand on its lines. -/
theorem parse_eq_ok_iff {source : String} {body : List Statement} :
    parse source = .ok body ↔ Covers body (significant source) := by
  constructor
  · intro h
    have hverdict := verdict_parse source
    rw [h] at hverdict
    cases hverdict with
    | covered h => exact h
  · intro h
    have hall := assemble_covers h [] [] []
    rw [List.append_nil, List.append_nil, assemble, List.reverse_reverse] at hall
    exact hall

/-! ### Sources -/

/-- The significant lines are those lines that say something, without the blanks around them. -/
theorem mem_significantFrom {first : Nat} {lines : List (List Char)} {l : NumberedLine} :
    l ∈ significantFrom first lines ↔ ∃ place line, lines[place]? = some line ∧
      isSignificant (trim line) = true ∧ l = (first + place, trim line) := by
  induction lines generalizing first with
  | nil => simp [significantFrom]
  | cons line rest ih =>
      have hlater : l ∈ significantFrom (first + 1) rest ↔ ∃ place other,
          (line :: rest)[place + 1]? = some other ∧ isSignificant (trim other) = true ∧
            l = (first + (place + 1), trim other) := by
        rw [ih]
        simp [Nat.add_assoc, Nat.add_comm 1]
      have hfirst : l ∈ significantFrom first (line :: rest) ↔
          (isSignificant (trim line) = true ∧ l = (first, trim line)) ∨
            l ∈ significantFrom (first + 1) rest := by
        by_cases hline : isSignificant (trim line) = true
        · simp [significantFrom, hline]
        · simp [significantFrom, hline]
      rw [hfirst, hlater]
      constructor
      · rintro (⟨hline, rfl⟩ | ⟨place, other, hother⟩)
        · exact ⟨0, line, rfl, hline, rfl⟩
        · exact ⟨place + 1, other, hother⟩
      · rintro ⟨place, other, hother, hline, rfl⟩
        cases place with
        | zero =>
            cases hother
            exact .inl ⟨hline, rfl⟩
        | succ place => exact .inr ⟨place, other, hother, hline, rfl⟩

/-- Lines are counted from the top. -/
theorem ascending_significantFrom (first : Nat) (lines : List (List Char)) :
    (significantFrom first lines).Pairwise fun l m => l.1 < m.1 := by
  induction lines generalizing first with
  | nil => exact .nil
  | cons line rest ih =>
      unfold significantFrom
      dsimp only
      split
      · refine List.pairwise_cons.mpr ⟨fun m hm => ?_, ih (first + 1)⟩
        obtain ⟨place, other, -, -, rfl⟩ := mem_significantFrom.mp hm
        show first < first + 1 + place
        omega
      · exact ih (first + 1)

theorem mem_significant {source : String} {l : NumberedLine} :
    l ∈ significant source ↔ isSignificant l.2 = true ∧
      ∃ line, line? source l.1 = some line ∧ trim line.toList = l.2 := by
  obtain ⟨number, text⟩ := l
  rw [significant, mem_significantFrom]
  constructor
  · rintro ⟨place, line, hline, hsignificant, heq⟩
    cases heq
    refine ⟨hsignificant, String.ofList line, ?_, by simp⟩
    simp [line?, hline]
  · rintro ⟨hsignificant, line, hline, rfl⟩
    unfold line? at hline
    split at hline
    · cases hline
    · next hpos =>
        obtain ⟨chars, hchars, rfl⟩ := Option.map_eq_some_iff.mp hline
        rw [String.toList_ofList] at hsignificant ⊢
        exact ⟨number - 1, chars, hchars, hsignificant, by rw [show 1 + (number - 1) = number by omega]⟩

/-- The order of the statements is that of their lines. -/
theorem Lists.ascending {body : List Statement} {lines : List NumberedLine} (h : Lists body lines)
    (hlines : lines.Pairwise fun l m => l.1 < m.1) : (preorder body).Pairwise fun s t => s.line < t.line := by
  have hnumbers : (preorder body).map Statement.line = (lines.filter fun l => !isEnd l).map Prod.fst := by
    have hfirst := congrArg (List.map Prod.fst) h
    simpa [Function.comp_def] using hfirst
  have hsorted : ((preorder body).map Statement.line).Pairwise (· < ·) := by
    rw [hnumbers]
    exact List.pairwise_map.mpr (hlines.sublist List.filter_sublist)
  exact List.pairwise_map.mp hsorted

/-- **Reading a source loses, doubles and moves nothing.** The significant lines are those of the source
that say something, from the top. The source is read exactly if each of them can be read by itself and
their functions are nested. Then the walk through the statements, a function before its body, gives the
lines that are no ends, each with its number, and the body of a function is what stands between its head
and the end that matches it. Otherwise the first line is reported that cannot be read or is an end where no
function is open, or no line, if nothing else is wrong and a function has no end. -/
theorem parse_keeps_every_line (source : String) :
    (∀ l : NumberedLine, l ∈ significant source ↔ isSignificant l.2 = true ∧
      ∃ line, line? source l.1 = some line ∧ trim line.toList = l.2) ∧
    ((significant source).Pairwise fun l m => l.1 < m.1) ∧
    ((∃ body, parse source = .ok body) ↔
      (∀ l ∈ significant source, ∃ header, Header.read l.2 = .ok header) ∧ Nested (significant source)) ∧
    (∀ body, parse source = .ok body →
      Lists body (significant source) ∧ ((preorder body).Pairwise fun s t => s.line < t.line) ∧
        ∀ line name inner, .function line name inner ∈ preorder body →
          ∃ before text inside close after,
            significant source = before ++ (line, text) :: (inside ++ close :: after) ∧
              Header.read text = .ok (.function name) ∧ Nested inside ∧ isEnd close = true ∧
              Lists inner inside) ∧
    ∀ line fault, parse source = .error (line, fault) →
      (∃ before l after, significant source = before ++ l :: after ∧ Faultless before ∧
        FaultAt before l fault ∧ line = l.1) ∨
      line = 0 ∧ fault = .missingEnd ∧ Faultless (significant source) ∧ HasOpen (significant source) := by
  -- All is read off the tree that covers the lines, or off the first line at fault.
  have hascending : (significant source).Pairwise fun l m => l.1 < m.1 := ascending_significantFrom 1 _
  refine ⟨fun l => mem_significant, hascending, ?_, ?_, ?_⟩
  · constructor
    · rintro ⟨body, hbody⟩
      have hcovers := parse_eq_ok_iff.mp hbody
      exact ⟨hcovers.reads, hcovers.nested⟩
    · rintro ⟨hreads, hnested⟩
      obtain ⟨body, hcovers⟩ := exists_covers hnested hreads
      exact ⟨body, parse_eq_ok_iff.mpr hcovers⟩
  · intro body hbody
    have hcovers := parse_eq_ok_iff.mp hbody
    refine ⟨hcovers.lists, hcovers.lists.ascending hascending, fun line name inner hmem => ?_⟩
    obtain ⟨before, text, inside, close, after, hlines, hread, hclose, hinner⟩ := hcovers.function_mem hmem
    exact ⟨before, text, inside, close, after, hlines, hread, hinner.nested, hclose, hinner.lists⟩
  · intro line fault hfault
    have hverdict := verdict_parse source
    rw [hfault] at hverdict
    cases hverdict with
    | faulty heq hbefore h => exact .inl ⟨_, _, _, heq, hbefore, h, rfl⟩
    | unfinished hlines hopen => exact .inr ⟨rfl, rfl, hlines, hopen⟩

end Pausepoint.Language
