import Pausepoint.Language.Statement

/-!
# Pausepoint.Proofs.Language.Writing

Where the statements of a script are written.

The parser numbers the lines of a source while it reads them and keeps the number of a statement; a
debugger looks that line up again later. `Statement.WrittenIn` says that it finds the statement there,
and those inside a function on theirs. `written_parse` is the result for whole sources.
-/

namespace Pausepoint.Language

open Pausepoint.Text

/-! ### Lines of a source -/

/-- A numbered line is one of a source, without the blanks around it. -/
def IsLineOf (source : String) (l : NumberedLine) : Prop :=
  ∃ text, line? source l.1 = some text ∧ trim text.toList = l.2

/-- Lines are numbered one after another, also those that say nothing. -/
theorem exists_line_of_significantFrom {first : Nat} {lines : List (List Char)} {l : NumberedLine}
    (h : l ∈ significantFrom first lines) :
    ∃ place text, lines[place]? = some text ∧ l = (first + place, trim text) := by
  induction lines generalizing first with
  | nil => cases h
  | cons line rest ih =>
      unfold significantFrom at h
      dsimp only at h
      have hlater (h : l ∈ significantFrom (first + 1) rest) :
          ∃ place text, (line :: rest)[place]? = some text ∧ l = (first + place, trim text) := by
        obtain ⟨place, text, htext, hl⟩ := ih h
        exact ⟨place + 1, text, htext, by rw [hl, Nat.add_assoc, Nat.add_comm 1 place]⟩
      split at h
      · rcases List.mem_cons.mp h with rfl | h
        · exact ⟨0, line, rfl, rfl⟩
        · exact hlater h
      · exact hlater h

/-- **The significant lines** of a source are found again by their numbers. -/
theorem isLineOf_of_significant {source : String} {l : NumberedLine} (h : l ∈ significant source) :
    IsLineOf source l := by
  obtain ⟨place, text, htext, rfl⟩ := exists_line_of_significantFrom h
  refine ⟨String.ofList text, ?_, by rw [String.toList_ofList]⟩
  rw [line?, if_neg (by omega), Nat.add_sub_cancel_left, htext]
  rfl

/-! ### Statements -/

/-- What the line on which a statement begins reads as. -/
def Statement.header : Statement → Header
  | .simple _ action => .action action
  | .function _ name _ => .function name

/-- The line of a statement is there, and the statement is what it says without the blanks around it. -/
def Statement.StandsIn (source : String) (s : Statement) : Prop :=
  ∃ text, line? source s.line = some text ∧ Header.read (trim text.toList) = .ok s.header

/-- No line has the number 0. -/
theorem Statement.StandsIn.pos {source : String} {s : Statement} (h : s.StandsIn source) : 0 < s.line := by
  obtain ⟨text, hline, -⟩ := h
  unfold line? at hline
  split at hline
  · cases hline
  · omega

/-- A statement is written in a source, with those inside it. -/
inductive Statement.WrittenIn (source : String) : Statement → Prop
  | simple {line : Nat} {action : Action} (h : (Statement.simple line action).StandsIn source) :
      WrittenIn source (.simple line action)
  | function {line : Nat} {name : String} {body : List Statement}
      (h : (Statement.function line name body).StandsIn source) (hbody : ∀ s ∈ body, s.WrittenIn source) :
      WrittenIn source (.function line name body)

theorem Statement.WrittenIn.standsIn {source : String} {s : Statement} (h : s.WrittenIn source) :
    s.StandsIn source := by
  cases h with
  | simple h => exact h
  | function h hbody => exact h

/-- A line reads as something and belongs to a source. -/
theorem Statement.standsIn_of_read {source : String} {line : Nat} {text : List Char} {s : Statement}
    (h : IsLineOf source (line, text)) (hline : s.line = line) (hread : Header.read text = .ok s.header) :
    s.StandsIn source := by
  obtain ⟨whole, hwhole, htrim⟩ := h
  subst hline
  exact ⟨whole, hwhole, htrim ▸ hread⟩

/-! ### All lines -/

/-- The head of an open function is written in a source, and so are the statements before it. -/
structure OpenFunction.WrittenIn (f : OpenFunction) (source : String) : Prop where
  head : ∀ body, (Statement.function f.line f.name body).StandsIn source
  before : ∀ s ∈ f.before, s.WrittenIn source

/-- One line more, whatever functions are open. -/
theorem assemble_cons (enclosing : List OpenFunction) (done : List Statement) (line : Nat)
    (text : List Char) (rest : List NumberedLine) :
    assemble enclosing done ((line, text) :: rest) =
      match Header.read text with
      | .error fault => .error (line, fault)
      | .ok (.action a) => assemble enclosing (.simple line a :: done) rest
      | .ok (.function name) => assemble (⟨line, name, done⟩ :: enclosing) [] rest
      | .ok .close =>
          match enclosing with
          | [] => .error (line, .strayEnd)
          | f :: outer => assemble outer (.function f.line f.name done.reverse :: f.before) rest := by
  cases enclosing with
  | nil => rfl
  | cons f outer => rfl

/-- Every statement is put together from lines of the source. -/
theorem written_assemble {source : String} {enclosing : List OpenFunction} {done : List Statement}
    {lines : List NumberedLine} {body : List Statement}
    (henclosing : ∀ f ∈ enclosing, f.WrittenIn source) (hdone : ∀ s ∈ done, s.WrittenIn source)
    (hlines : ∀ l ∈ lines, IsLineOf source l) (h : assemble enclosing done lines = .ok body) :
    ∀ s ∈ body, s.WrittenIn source := by
  induction lines generalizing enclosing done with
  | nil =>
      cases enclosing with
      | nil =>
          unfold assemble at h
          obtain rfl := Except.ok.inj h
          exact fun s hs => hdone s (List.mem_reverse.mp hs)
      | cons f outer => cases h
  | cons l rest ih =>
      obtain ⟨line, text⟩ := l
      obtain ⟨hline, hrest⟩ := List.forall_mem_cons.mp hlines
      rw [assemble_cons] at h
      cases hread : Header.read text with
      | error fault =>
          rw [hread] at h
          cases h
      | ok header =>
          rw [hread] at h
          -- Each header extends the block that is open, opens one, or closes the innermost.
          cases header with
          | action action =>
              have hnew : (Statement.simple line action).StandsIn source :=
                Statement.standsIn_of_read hline rfl hread
              exact ih henclosing (List.forall_mem_cons.mpr ⟨.simple hnew, hdone⟩) hrest h
          | function name =>
              have hhead (body : List Statement) : (Statement.function line name body).StandsIn source :=
                Statement.standsIn_of_read hline rfl hread
              exact ih (List.forall_mem_cons.mpr ⟨⟨hhead, hdone⟩, henclosing⟩)
                (fun s hs => absurd hs List.not_mem_nil) hrest h
          | close =>
              cases enclosing with
              | nil => cases h
              | cons f outer =>
                  obtain ⟨hf, houter⟩ := List.forall_mem_cons.mp henclosing
                  have hnew : (Statement.function f.line f.name done.reverse).WrittenIn source :=
                    .function (hf.head _) fun s hs => hdone s (List.mem_reverse.mp hs)
                  exact ih houter (List.forall_mem_cons.mpr ⟨hnew, hf.before⟩) hrest h

/-- **The statements of a source are written in it.** -/
theorem written_parse {source : String} {body : List Statement} (h : parse source = .ok body) :
    ∀ s ∈ body, s.WrittenIn source :=
  written_assemble (fun _ hf => absurd hf List.not_mem_nil) (fun _ hs => absurd hs List.not_mem_nil)
    (fun _ => isLineOf_of_significant) h

end Pausepoint.Language
