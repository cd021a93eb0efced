import Mathlib.Data.List.Basic
import Pausepoint.Proofs.Language.Nesting

/-!
# Pausepoint.Proofs.Language.Splicing

Lines of one source in place of a line of another.

A source that is read can be spliced into one that is read as well, in place of a line outside of all
functions: the result is read as the statements of both, except that those behind the line have moved
(`Splices.exists_parse`). What is left of a statement without the number of its line is
`Statement.unnumbered`.

* `Splices` — a text has the lines of both, whatever the line endings are; `splice` makes one
  (`splices_splice`);
* `Covers.exists_split` — the lines before and behind a statement are covered by the statements there;
* `Covers.renumber` — which statements stand on lines depends on their texts only, up to the numbers.
-/

namespace Pausepoint

/-! ### Lines -/

namespace Text

/-- The text with the given lines. -/
def unlines (ls : List (List Char)) : List Char :=
  ls.flatMap (· ++ ['\n'])

theorem isBlank_carriageReturn : isBlank '\r' = true := by
  decide

/-- A carriage return at the end of a line goes with the blanks. -/
theorem trim_append_carriageReturn (line : List Char) : trim (line ++ ['\r']) = trim line := by
  have hend (rest : List Char) : trimEnd (rest ++ ['\r']) = trimEnd rest := by
    simp [trimEnd, isBlank_carriageReturn]
  unfold trim trimStart
  rw [List.dropWhile_append]
  split
  · next hempty =>
      rw [List.isEmpty_iff.mp hempty]
      simp [isBlank_carriageReturn]
  · exact hend _

/-- An ordinary character belongs to the first line. -/
theorem lines_cons {c : Char} {rest : List Char} (hc : c ≠ '\n')
    (hr : c = '\r' → ∀ after, rest ≠ '\n' :: after) : lines (c :: rest) = consFirst c (lines rest) := by
  rw [lines]
  · exact hc
  · exact fun after hreturn hrest => hr hreturn after hrest

/-- **A line of a text** is one of its lines, but for a carriage return at its end. -/
theorem lines_append {line : List Char} (h : '\n' ∉ line) (rest : List Char) :
    ∃ first, lines (line ++ '\n' :: rest) = first :: lines rest ∧ (line = first ∨ line = first ++ ['\r']) := by
  induction line with
  | nil => exact ⟨[], by rw [List.nil_append, lines], .inl rfl⟩
  | cons c line ih =>
      simp only [List.mem_cons, not_or] at h
      obtain ⟨hc, hline⟩ := h
      -- A return just before the line feed is part of it; any other character is part of the line.
      by_cases hreturn : c = '\r' ∧ line = []
      · obtain ⟨rfl, rfl⟩ := hreturn
        exact ⟨[], by rw [List.cons_append, List.nil_append, lines], .inr rfl⟩
      · have hcons : lines (c :: (line ++ '\n' :: rest)) = consFirst c (lines (line ++ '\n' :: rest)) := by
          refine lines_cons (Ne.symm hc) fun hr after heq => ?_
          cases line with
          | nil => exact hreturn ⟨hr, rfl⟩
          | cons d line =>
              rw [List.cons_append] at heq
              simp [(List.cons.inj heq).1] at hline
        obtain ⟨first, hfirst, hsame⟩ := ih hline
        refine ⟨c :: first, by rw [List.cons_append, hcons, hfirst, consFirst], ?_⟩
        rcases hsame with rfl | rfl
        · exact .inl rfl
        · exact .inr rfl

/-- **The lines of a text that is made of lines** are these, without the blanks around them. -/
theorem trim_lines_unlines {ls : List (List Char)} (h : ∀ line ∈ ls, '\n' ∉ line) :
    (lines (unlines ls)).map trim = ls.map trim := by
  induction ls with
  | nil => rfl
  | cons line ls ih =>
      obtain ⟨hline, hls⟩ := List.forall_mem_cons.mp h
      obtain ⟨first, hfirst, hsame⟩ := lines_append hline (unlines ls)
      have htrim : trim first = trim line := by
        rcases hsame with rfl | rfl
        · rfl
        · exact (trim_append_carriageReturn first).symm
      have htext : unlines (line :: ls) = line ++ '\n' :: unlines ls := by
        simp [unlines]
      rw [htext, hfirst, List.map_cons, List.map_cons, ih hls, htrim]

/-- No line goes over its end. -/
theorem lineFeed_not_mem_lines {text line : List Char} (h : line ∈ lines text) : '\n' ∉ line := by
  fun_induction lines text generalizing line with
  | case1 => simp at h
  | case2 rest ih =>
      rcases List.mem_cons.mp h with rfl | h
      · simp
      · exact ih h
  | case3 rest ih =>
      rcases List.mem_cons.mp h with rfl | h
      · simp
      · exact ih h
  | case4 c rest hc hr ih =>
      cases hlines : lines rest with
      | nil =>
          rw [hlines, consFirst, List.mem_singleton] at h
          subst h
          simpa [eq_comm] using hc
      | cons first others =>
          rw [hlines, consFirst] at h
          rw [hlines] at ih
          rcases List.mem_cons.mp h with rfl | h
          · have hfirst : '\n' ∉ first := ih (by simp)
            simp only [List.mem_cons, not_or]
            exact ⟨Ne.symm hc, hfirst⟩
          · exact ih (by simp [h])

end Text

namespace Language

open Pausepoint.Text

/-! ### Statements without their numbers -/

mutual

/-- A statement without the numbers of its lines. -/
def Statement.unnumbered : Statement → Statement
  | .simple _ action => .simple 0 action
  | .function _ name body => .function 0 name (unnumbered body)

/-- Statements without the numbers of their lines. -/
def unnumbered : List Statement → List Statement
  | [] => []
  | s :: rest => s.unnumbered :: unnumbered rest

end

section

variable (line : Nat) (action : Action) (name : String) (body rest : List Statement) (s : Statement)

@[simp] theorem Statement.unnumbered_simple : (simple line action).unnumbered = .simple 0 action := by
  rw [Statement.unnumbered]

@[simp] theorem Statement.unnumbered_function :
    (function line name body).unnumbered = .function 0 name (Language.unnumbered body) := by
  rw [Statement.unnumbered]

@[simp] theorem unnumbered_nil : unnumbered [] = [] := by
  rw [unnumbered]

@[simp] theorem unnumbered_cons : unnumbered (s :: rest) = s.unnumbered :: unnumbered rest := by
  rw [unnumbered]

end

namespace Covers

variable {body : List Statement} {lines : List NumberedLine}

/-- **Other numbers** of the lines make other numbers of the statements, and nothing else. -/
theorem renumber (h : Covers body lines) {lines' : List NumberedLine}
    (hsame : lines'.map Prod.snd = lines.map Prod.snd) :
    ∃ body', Covers body' lines' ∧ unnumbered body' = unnumbered body := by
  induction h generalizing lines' with
  | nil =>
      obtain rfl := List.map_eq_nil_iff.mp hsame
      exact ⟨[], .nil, rfl⟩
  | simple hread hrest ih =>
      obtain ⟨⟨line, text⟩, rest, rfl, rfl, hlines⟩ := List.map_eq_cons_iff.mp hsame
      obtain ⟨body', hcovers, hbody⟩ := ih hlines
      exact ⟨_, .simple hread hcovers, by simp [hbody]⟩
  | function hread hinner hclose hrest ihinner ih =>
      rw [List.map_cons, List.map_append, List.map_cons] at hsame
      obtain ⟨⟨line, text⟩, rest, rfl, rfl, hlines⟩ := List.map_eq_cons_iff.mp hsame
      obtain ⟨inside, behind, rfl, hinside, hbehind⟩ := List.map_eq_append_iff.mp hlines
      obtain ⟨close, after, rfl, hend, hafter⟩ := List.map_eq_cons_iff.mp hbehind
      obtain ⟨inner', hcoversInner, hinner'⟩ := ihinner hinside
      obtain ⟨body', hcovers, hbody⟩ := ih hafter
      exact ⟨_, .function hread hcoversInner (hend ▸ hclose) hcovers, by simp [hinner', hbody]⟩

/-- **A line outside of all functions** parts the lines and the statements alike. -/
theorem exists_split (h : Covers body lines) {line : Nat} {action : Action}
    (hmem : .simple line action ∈ body) :
    ∃ front back before text after, body = front ++ .simple line action :: back ∧
      lines = before ++ (line, text) :: after ∧ Covers front before ∧ Covers back after := by
  induction h with
  | nil => cases hmem
  | @simple line' text action' body rest hread hrest ih =>
      rcases List.mem_cons.mp hmem with hself | hmem
      · cases hself
        exact ⟨[], body, [], text, rest, rfl, rfl, .nil, hrest⟩
      · obtain ⟨front, back, before, found, after, rfl, rfl, hfront, hback⟩ := ih hmem
        exact ⟨_ :: front, back, _ :: before, found, after, rfl, rfl, .simple hread hfront, hback⟩
  | @function line' text name inner body close inside rest hread hinner hclose hrest ihinner ih =>
      rcases List.mem_cons.mp hmem with hself | hmem
      · cases hself
      · obtain ⟨front, back, before, found, after, rfl, rfl, hfront, hback⟩ := ih hmem
        refine ⟨_ :: front, back, (line', text) :: (inside ++ close :: before), found, after, rfl, ?_,
          .function hread hinner hclose hfront, hback⟩
        simp

end Covers

/-! ### Splicing -/

/-- The texts of the significant lines, whatever number the first line has. -/
theorem texts_significantFrom (first : Nat) (lines : List (List Char)) :
    (significantFrom first lines).map Prod.snd = (lines.map trim).filter isSignificant := by
  induction lines generalizing first with
  | nil => rfl
  | cons line rest ih =>
      unfold significantFrom
      dsimp only
      by_cases hline : isSignificant (trim line) = true
      · simp [hline, ih]
      · simp [hline, ih]

theorem significantFrom_append (first : Nat) (front back : List (List Char)) :
    significantFrom first (front ++ back) =
      significantFrom first front ++ significantFrom (first + front.length) back := by
  induction front generalizing first with
  | nil => rfl
  | cons line front ih =>
      simp only [List.cons_append, significantFrom, ih, List.length_cons,
        show first + 1 + front.length = first + (front.length + 1) by omega]
      split <;> rfl

/-- A text has the lines of a source, but with those of another one in place of a line, up to the blanks
around each of them. -/
def Splices (line : Nat) (included source text : String) : Prop :=
  (lines text.toList).map trim =
    ((lines source.toList).take (line - 1) ++ lines included.toList ++ (lines source.toList).drop line).map trim

/-- The lines of a source, each with a line feed, but with those of another one in place of a line. -/
def splice (line : Nat) (included source : String) : String :=
  String.ofList (unlines
    ((lines source.toList).take (line - 1) ++ lines included.toList ++ (lines source.toList).drop line))

theorem splices_splice (line : Nat) (included source : String) :
    Splices line included source (splice line included source) := by
  unfold Splices splice
  rw [String.toList_ofList]
  refine trim_lines_unlines fun l hl => ?_
  rcases List.mem_append.mp hl with hl | hl
  · rcases List.mem_append.mp hl with hl | hl
    · exact lineFeed_not_mem_lines (List.mem_of_mem_take hl)
    · exact lineFeed_not_mem_lines hl
  · exact lineFeed_not_mem_lines (List.mem_of_mem_drop hl)

/-- The lines before and behind a significant line are those of the source before and behind it. -/
theorem texts_of_significant {source : String} {line : Nat} {text : List Char}
    {before after : List NumberedLine} (h : significant source = before ++ (line, text) :: after) :
    before.map Prod.snd = (((lines source.toList).take (line - 1)).map trim).filter isSignificant ∧
      after.map Prod.snd = (((lines source.toList).drop line).map trim).filter isSignificant := by
  have hmem : (line, text) ∈ significant source := by simp [h]
  obtain ⟨place, found, hfound, hsignificant, heq⟩ := mem_significantFrom.mp hmem
  obtain ⟨rfl, rfl⟩ := Prod.mk.inj heq
  -- The source is cut at the line, and so are its significant lines.
  have hcut : lines source.toList =
      (lines source.toList).take place ++ found :: (lines source.toList).drop (place + 1) := by
    obtain ⟨hplace, hget⟩ := List.getElem?_eq_some_iff.mp hfound
    rw [← hget, List.getElem_cons_drop, List.take_append_drop]
  have hlength : ((lines source.toList).take place).length = place := by
    obtain ⟨hplace, -⟩ := List.getElem?_eq_some_iff.mp hfound
    simp only [List.length_take]
    omega
  have hparts : significant source = significantFrom 1 ((lines source.toList).take place) ++
      (1 + place, trim found) :: significantFrom (1 + place + 1) ((lines source.toList).drop (place + 1)) := by
    refine (congrArg (significantFrom 1) hcut).trans ?_
    rw [significantFrom_append, hlength, significantFrom]
    simp [hsignificant]
  -- The line occurs once, so that both ways to cut are the same.
  have hascending : (significant source).Pairwise fun l m => l.1 < m.1 := ascending_significantFrom 1 _
  rw [h, List.pairwise_append, List.pairwise_cons] at hascending
  obtain ⟨-, ⟨hbehind, -⟩, hahead⟩ := hascending
  have hbefore : (1 + place, trim found) ∉ before := fun hin =>
    Nat.lt_irrefl _ (hahead _ hin _ List.mem_cons_self)
  have hafter : (1 + place, trim found) ∉ after := fun hin => Nat.lt_irrefl _ (hbehind _ hin)
  obtain ⟨rfl, -, rfl⟩ := (List.append_cons_inj_of_notMem hbefore hafter).mp (h.symm.trans hparts)
  rw [texts_significantFrom, texts_significantFrom, Nat.add_sub_cancel_left, Nat.add_comm 1 place]
  exact ⟨rfl, rfl⟩

/-- **A source that is spliced into another** is read as the statements of both: those before the line,
those of the included source, and those behind the line, except for their numbers. -/
theorem Splices.exists_parse {line : Nat} {included source text : String} {action : Action}
    {body inner : List Statement} (h : Splices line included source text) (hbody : parse source = .ok body)
    (hline : .simple line action ∈ body) (hinner : parse included = .ok inner) :
    ∃ front back body', body = front ++ .simple line action :: back ∧ parse text = .ok body' ∧
      unnumbered body' = unnumbered (front ++ inner ++ back) := by
  obtain ⟨front, back, before, found, after, rfl, hlines, hfront, hback⟩ :=
    (parse_eq_ok_iff.mp hbody).exists_split hline
  obtain ⟨hbefore, hafter⟩ := texts_of_significant hlines
  have hall : Covers (front ++ inner ++ back) (before ++ significant included ++ after) :=
    (hfront.append (parse_eq_ok_iff.mp hinner)).append hback
  have htexts : (significant text).map Prod.snd =
      (before ++ significant included ++ after).map Prod.snd := by
    rw [List.map_append, List.map_append, hbefore, hafter, significant, significant, texts_significantFrom,
      texts_significantFrom, h]
    simp
  obtain ⟨body', hcovers, hsame⟩ := hall.renumber htexts
  exact ⟨front, back, body', rfl, parse_eq_ok_iff.mpr hcovers, hsame⟩

end Language

end Pausepoint
