import Mathlib.Logic.Function.Basic
import Pausepoint.Proofs.Execution
import Pausepoint.Proofs.Session.Display
import Pausepoint.Proofs.Session.Roster

/-!
# Pausepoint.Proofs.Session.Freshness

How old the variables are that a frame serves.

A client may keep a frame for as long as it likes, and read it at any time. What it reads is cached until
the frame is marked dirty, which a change of the stack does to the frames that it finds on the stack. So
two things decide what a later reading gives: when the frame was first read since it was dirty, and
whether it was still on the stack then.

* `Exhibit.Step` — what happens to a thread and to the scopes that its frames show;
* `Exhibit.Recalls` — a clean frame goes back to one reading; if the stack has changed since, the frame
  had left the stack before that reading;
* `Exhibit.served_is_fresh` — the variables of every frame are those of a moment since the stack changed
  last, unless the frame was read between the change that took it off the stack and a later one;
* `Exhibit.served_is_stale` — such a reading is served again after the later change.

Proof shape: `Step.kinds` says once what a step can be. From it, only a change of the stack moves the stack
(`Step.stack_eq`), and each step makes a frame dirty, reads it, or leaves it as it is
(`Step.published_cases`). `Recalls` is carried over a step by these two, and over a run by induction.
-/

namespace Pausepoint

/-! ### Threads -/

namespace DebugThread

variable {t next : DebugThread} {slot : Nat} {p : PublishedFrame}

/-- The thread stops, goes on or ends. -/
inductive Turns (t : DebugThread) : DebugThread → Prop
  | suspend {reason : Reason} {next : DebugThread} (h : t.suspend reason = .ok next) : Turns t next
  | resume {mode : Mode} {next : DebugThread} (h : t.applyResume mode = .ok next) : Turns t next
  | proceed {mode : Mode} {next : DebugThread} (h : t.noteResumed mode = .ok next) : Turns t next
  | terminate : Turns t t.terminate

/-- Its frames stay as they are. -/
theorem Turns.frames (h : t.Turns next) : next.published = t.published ∧ next.stack = t.stack := by
  cases h with
  | suspend h =>
      unfold DebugThread.suspend at h
      split at h <;> cases h <;> exact ⟨rfl, rfl⟩
  | resume h =>
      unfold applyResume at h
      split at h <;> cases h
      exact ⟨rfl, rfl⟩
  | proceed h =>
      unfold noteResumed at h
      split at h <;> cases h <;> exact ⟨rfl, rfl⟩
  | terminate => exact ⟨rfl, rfl⟩

/-- Another stack is published above the frames there were, which are marked if they were on the stack. -/
theorem eq_of_replaceFrames {frames : List Frame} (h : t.replaceFrames frames = .ok next) :
    next = t.markStackDirty.publish frames [] := by
  unfold replaceFrames at h
  split at h <;> cases h
  rfl

/-- So is one frame more. -/
theorem eq_of_pushFrame {frame : Frame} (h : t.pushFrame frame = .ok next) :
    next = t.markStackDirty.publish [frame] t.stack := by
  unfold pushFrame at h
  split at h <;> cases h
  rfl

/-- **A change of the stack marks the frames that it finds there**, and no others. -/
theorem getElem?_markStackDirty (t : DebugThread) (slot : Nat) :
    t.markStackDirty.published[slot]? =
      t.published[slot]?.map fun p => if slot ∈ t.stack then p.markDirty else p := by
  have key : ∀ (slots : List Nat) (published : Array PublishedFrame),
      (slots.foldl (fun published slot => published.modify slot PublishedFrame.markDirty)
          published)[slot]? =
        published[slot]?.map fun p => if slot ∈ slots then p.markDirty else p := by
    intro slots
    induction slots with
    | nil => simp
    | cons first rest ih =>
        intro published
        rw [List.foldl_cons, ih, Array.getElem?_modify]
        cases published[slot]? with
        | none => simp
        | some p =>
            by_cases hfirst : first = slot
            · -- Marking twice is marking once.
              by_cases hrest : slot ∈ rest <;> simp [hfirst, hrest, PublishedFrame.markDirty]
            · simp [hfirst, Ne.symm hfirst]
  exact key t.stack t.published

/-- A frame that is there once the stack has changed is dirty, or it was there and off the stack. -/
theorem published_of_publish {frames : List Frame} {below : List Nat}
    (hp : (t.markStackDirty.publish frames below).published[slot]? = some p) :
    p.dirty = true ∨ t.published[slot]? = some p ∧ slot ∉ t.stack := by
  unfold publish at hp
  rw [Array.getElem?_append] at hp
  split at hp
  · rw [getElem?_markStackDirty, Option.map_eq_some_iff] at hp
    obtain ⟨old, hold, hmarked⟩ := hp
    split at hmarked
    · exact .inl (by rw [← hmarked, PublishedFrame.markDirty])
    · next hoff => exact .inr ⟨hmarked ▸ hold, hoff⟩
  · obtain ⟨frame, -, rfl⟩ : ∃ frame, _ ∧ ({ frame } : PublishedFrame) = p := by simpa using hp
    exact .inl rfl

/-- A frame that is off the stack is left alone by a change of the stack, and does not come back. -/
theorem publish_of_off {frames : List Frame} {below : List Nat} (hp : t.published[slot]? = some p)
    (hoff : slot ∉ t.stack) (hbelow : slot ∉ below) :
    (t.markStackDirty.publish frames below).published[slot]? = some p ∧
      slot ∉ (t.markStackDirty.publish frames below).stack := by
  have hmarked : t.markStackDirty.published[slot]? = some p := by
    rw [getElem?_markStackDirty, hp, Option.map_some, if_neg hoff]
  have hthere : slot < t.markStackDirty.published.size := (Array.getElem?_eq_some_iff.mp hmarked).1
  constructor
  · rw [publish, Array.getElem?_append_left hthere, hmarked]
  · intro hmem
    rcases List.mem_append.mp hmem with hnew | hmem
    · obtain ⟨place, -, rfl⟩ := List.mem_map.mp hnew
      omega
    · exact hbelow hmem

/-- A frame that is there once a frame was read was there before, or it is the one that was read. -/
theorem published_of_readVariables {scopes : ScopeId → Entries} {other : Nat}
    (hp : (t.readVariables scopes other).2.published[slot]? = some p) :
    t.published[slot]? = some p ∨ other = slot ∧ p.cache = p.frame.variables scopes := by
  unfold readVariables at hp
  split at hp
  · exact .inl hp
  · next old hold =>
      rw [Array.getElem?_modify] at hp
      split at hp
      · next heq =>
          subst heq
          rw [hold, Option.map_some, Option.some.injEq] at hp
          unfold PublishedFrame.readVariables at hp
          split at hp
          · subst hp
            exact .inr ⟨rfl, rfl⟩
          · exact .inl (hp ▸ hold)
      · exact .inl hp

/-- Reading leaves a clean frame as it is. -/
theorem readVariables_of_clean {scopes : ScopeId → Entries} (hp : t.published[slot]? = some p)
    (hclean : p.dirty = false) (other : Nat) :
    (t.readVariables scopes other).2.published[slot]? = some p := by
  unfold readVariables
  split
  · exact hp
  · next old hold =>
      by_cases heq : other = slot
      · subst heq
        obtain rfl := Option.some.inj (hold.symm.trans hp)
        simp [Array.getElem?_modify, hp, PublishedFrame.readVariables, hclean]
      · simp [Array.getElem?_modify, heq, hp]

end DebugThread

/-! ### Exhibits -/

/-- A thread, and what is in the scopes that its frames show. -/
structure Exhibit where
  /-- The thread, with every frame that it published. -/
  thread : DebugThread
  /-- The contents of the scopes. -/
  scopes : ScopeId → Entries

namespace Exhibit

/-- What may happen to a thread and to the scopes of its frames. -/
inductive Act
  /-- The thread has another stack. -/
  | replaced (frames : List Frame)
  /-- The thread has one frame more. -/
  | pushed (frame : Frame)
  /-- A client reads the variables of the frame at a place. -/
  | read (slot : Nat)
  /-- A name is bound in a scope. -/
  | wrote (scope : ScopeId) (name : String) (value : Value)
  /-- The thread stops, goes on or ends. -/
  | turned
  /-- Another stack, or one frame more, was refused. -/
  | refused

/-- Is the stack another one afterwards? -/
def Act.restacks : Act → Bool
  | .replaced _ | .pushed _ => true
  | .read _ | .wrote .. | .turned | .refused => false

/-- A thread that nothing is known of yet, among scopes. -/
def start (id : ThreadId) (scopes : ScopeId → Entries) : Exhibit :=
  ⟨{ id }, scopes⟩

/-- What a client is given that reads the frame at a place now. -/
def served (x : Exhibit) (slot : Nat) : List Variable :=
  (x.thread.readVariables x.scopes slot).1

/-- One thing happens to a thread or to a scope. -/
inductive Step (x : Exhibit) : Act → Exhibit → Prop
  | replace {frames : List Frame} {next : DebugThread} (h : x.thread.replaceFrames frames = .ok next) :
      Step x (.replaced frames) ⟨next, x.scopes⟩
  | push {frame : Frame} {next : DebugThread} (h : x.thread.pushFrame frame = .ok next) :
      Step x (.pushed frame) ⟨next, x.scopes⟩
  | read (slot : Nat) : Step x (.read slot) ⟨(x.thread.readVariables x.scopes slot).2, x.scopes⟩
  | write (scope : ScopeId) (name : String) (value : Value) :
      Step x (.wrote scope name value)
        ⟨x.thread, Function.update x.scopes scope (Entries.insert name value (x.scopes scope))⟩
  | turn {next : DebugThread} (h : x.thread.Turns next) : Step x .turned ⟨next, x.scopes⟩
  | refuseReplace {frames : List Frame} {cause : Refusal}
      (h : x.thread.replaceFrames frames = .error cause) : Step x .refused x
  | refusePush {frame : Frame} {cause : Refusal} (h : x.thread.pushFrame frame = .error cause) :
      Step x .refused x

variable {x y : Exhibit} {act : Act} {slot : Nat} {p : PublishedFrame}

/-- **What a step can be**: a change of the stack, a reading, or something that leaves the frames alone. -/
theorem Step.kinds (h : Step x act y) :
    (act.restacks = true ∧ ∃ frames below, (below = [] ∨ below = x.thread.stack) ∧
      y.thread = x.thread.markStackDirty.publish frames below) ∨
    (∃ slot, act = .read slot ∧ y.thread = (x.thread.readVariables x.scopes slot).2) ∨
    (act.restacks = false ∧ y.thread.published = x.thread.published ∧ y.thread.stack = x.thread.stack) := by
  cases h with
  | replace h => exact .inl ⟨rfl, _, _, .inl rfl, DebugThread.eq_of_replaceFrames h⟩
  | push h => exact .inl ⟨rfl, _, _, .inr rfl, DebugThread.eq_of_pushFrame h⟩
  | read slot => exact .inr (.inl ⟨slot, rfl, rfl⟩)
  | turn h => exact .inr (.inr ⟨rfl, h.frames⟩)
  | write | refuseReplace | refusePush => exact .inr (.inr ⟨rfl, rfl, rfl⟩)

/-- **A frame that was published stays published**: the frames grow at the end. -/
theorem Step.published_prefix (h : Step x act y) : x.thread.sheets.1 <+: y.thread.sheets.1 := by
  rcases h.kinds with ⟨-, frames, below, -, hy⟩ | ⟨slot, -, hy⟩ | ⟨-, hpublished, -⟩
  · rw [hy, DebugThread.sheets_publish]
    exact List.prefix_append _ _
  · have hsame : y.thread.sheets = x.thread.sheets := by rw [hy, DebugThread.sheets_readVariables]
    exact hsame ▸ List.prefix_rfl
  · have hsame : y.thread.sheets.1 = x.thread.sheets.1 := by
      rw [DebugThread.sheets, DebugThread.sheets, hpublished]
    exact hsame ▸ List.prefix_rfl

/-- Nothing else than a change of the stack moves the stack. -/
theorem Step.stack_eq (h : Step x act y) (hact : act.restacks = false) : y.thread.stack = x.thread.stack := by
  rcases h.kinds with ⟨hrestacks, -⟩ | ⟨slot, -, hy⟩ | ⟨-, -, hstack⟩
  · rw [hact] at hrestacks
    cases hrestacks
  · rw [hy]
    exact congrArg Prod.snd (x.thread.sheets_readVariables x.scopes slot)
  · exact hstack

/-- **What a step does to a frame.** It is dirty afterwards, or it is as it was, in which case a change
of the stack did not find it on the stack, or it was read in this step. -/
theorem Step.published_cases (h : Step x act y) (hp : y.thread.published[slot]? = some p) :
    p.dirty = true ∨
      x.thread.published[slot]? = some p ∧ (act.restacks = true → slot ∉ x.thread.stack) ∨
      act = .read slot ∧ p.cache = p.frame.variables x.scopes := by
  rcases h.kinds with ⟨-, frames, below, -, hy⟩ | ⟨other, rfl, hy⟩ | ⟨hquiet, hpublished, -⟩
  · rw [hy] at hp
    rcases DebugThread.published_of_publish hp with hdirty | ⟨hold, hoff⟩
    · exact .inl hdirty
    · exact .inr (.inl ⟨hold, fun _ => hoff⟩)
  · rw [hy] at hp
    rcases DebugThread.published_of_readVariables hp with hold | ⟨rfl, hcache⟩
    · exact .inr (.inl ⟨hold, fun hact => by cases hact⟩)
    · exact .inr (.inr ⟨rfl, hcache⟩)
  · exact .inr (.inl ⟨hpublished ▸ hp, fun hact => by simp [hquiet] at hact⟩)

/-! ### Runs -/

variable {first : Exhibit} {trace early later : List Act}

/-- A frame that was handed out is still there, whatever was read of it since. -/
theorem exists_published_of_execution (hp : x.thread.published[slot]? = some p)
    (h : Execution Step x later y) : ∃ q, y.thread.published[slot]? = some q ∧ q.frame = p.frame := by
  obtain ⟨rest, hrest⟩ : x.thread.sheets.1 <+: y.thread.sheets.1 :=
    h.state_invariant (P := fun z => x.thread.sheets.1 <+: z.thread.sheets.1) List.prefix_rfl
      fun ih last => ih.trans last.published_prefix
  have hframe : x.thread.sheets.1[slot]? = some p.frame := by
    simp [DebugThread.sheets, hp]
  have hkept : y.thread.sheets.1[slot]? = some p.frame := by
    rw [← hrest, List.getElem?_append_left (List.getElem?_eq_some_iff.mp hframe).1, hframe]
  simpa [DebugThread.sheets] using hkept

/-- As long as the stack does not change, it stays where it is. -/
theorem stack_eq_of_execution (h : Execution Step x later y)
    (hquiet : ∀ act ∈ later, act.restacks = false) : y.thread.stack = x.thread.stack := by
  induction h with
  | start => rfl
  | next before last ih =>
      rw [last.stack_eq (hquiet _ (by simp)), ih fun act hact => hquiet act (List.mem_append_left _ hact)]

/-! ### What a frame recalls -/

/-- What was read of a frame was read at one moment of the run. If the stack has changed since, the frame
was off the stack at that moment. -/
structure Recalls (first : Exhibit) (trace : List Act) (x : Exhibit) (slot : Nat) (p : PublishedFrame)
    (before after : List Act) (m : Exhibit) : Prop where
  trace : trace = before ++ .read slot :: after
  reached : Execution Step first before m
  since : Execution Step m (.read slot :: after) x
  cache : p.cache = p.frame.variables m.scopes
  off : (∃ act ∈ after, act.restacks = true) → slot ∉ m.thread.stack

/-- The frame that a step reads recalls this moment. -/
theorem recalls_of_read (h : Execution Step first trace x) (last : Step x (.read slot) y)
    (hcache : p.cache = p.frame.variables x.scopes) :
    Recalls first (trace ++ [.read slot]) y slot p trace [] x where
  trace := rfl
  reached := h
  since := .single last
  cache := hcache
  off := by simp

/-- A frame that a step leaves as it is goes on recalling the same moment. -/
theorem Recalls.next {before after : List Act} {m : Exhibit}
    (h : Recalls first trace x slot p before after m) (last : Step x act y)
    (hoff : act.restacks = true → slot ∉ x.thread.stack) :
    Recalls first (trace ++ [act]) y slot p before (after ++ [act]) m where
  trace := by rw [h.trace, List.append_assoc, List.cons_append]
  reached := h.reached
  since := h.since.next last
  cache := h.cache
  off := by
    intro hany hon
    by_cases hafter : ∃ act ∈ after, act.restacks = true
    · exact h.off hafter hon
    · -- The stack is still the one of the reading, so this step would have found the frame on it.
      obtain ⟨other, hmem, hother⟩ := hany
      rcases List.mem_append.mp hmem with hmem | hmem
      · exact hafter ⟨other, hmem, hother⟩
      · obtain rfl := List.mem_singleton.mp hmem
        refine hoff hother ?_
        rw [stack_eq_of_execution h.since (List.forall_mem_cons.mpr ⟨rfl, by simpa using hafter⟩)]
        exact hon

/-- **Every frame is dirty, or recalls a reading.** -/
theorem dirty_or_recalls {id : ThreadId} {scopes : ScopeId → Entries}
    (h : Execution Step (start id scopes) trace x) :
    ∀ {slot p}, x.thread.published[slot]? = some p →
      p.dirty = true ∨ ∃ before after m, Recalls (start id scopes) trace x slot p before after m := by
  refine h.invariant (P := fun trace x => ∀ {slot p}, x.thread.published[slot]? = some p →
    p.dirty = true ∨ ∃ before after m, Recalls (start id scopes) trace x slot p before after m) ?_ ?_
  · intro slot p hp
    simp [start] at hp
  · intro trace x act y hrun ih last slot p hp
    rcases last.published_cases hp with hdirty | ⟨hold, hoff⟩ | ⟨rfl, hcache⟩
    · exact .inl hdirty
    · rcases ih hold with hdirty | ⟨before, after, m, hm⟩
      · exact .inl hdirty
      · exact .inr ⟨before, _, m, hm.next last hoff⟩
    · exact .inr ⟨trace, [], x, recalls_of_read hrun last hcache⟩

/-- A clean frame that is off the stack stays as it is, and stays off the stack. -/
theorem Step.frozen (h : Step x act y) (hp : x.thread.published[slot]? = some p)
    (hoff : slot ∉ x.thread.stack) (hclean : p.dirty = false) :
    y.thread.published[slot]? = some p ∧ slot ∉ y.thread.stack := by
  rcases h.kinds with ⟨-, frames, below, hbelow, hy⟩ | ⟨other, rfl, hy⟩ | ⟨-, hpublished, hstack⟩
  · rw [hy]
    refine DebugThread.publish_of_off hp hoff ?_
    rcases hbelow with rfl | rfl
    · exact List.not_mem_nil
    · exact hoff
  · refine ⟨?_, by rwa [h.stack_eq rfl]⟩
    rw [hy]
    exact DebugThread.readVariables_of_clean hp hclean other
  · exact ⟨by rwa [hpublished], by rwa [hstack]⟩

/-! ### Freshness -/

/-- What is served of a place are the variables that a frame had at some moment of the run since the
stack changed last. -/
def Fresh (first : Exhibit) (trace : List Act) (x : Exhibit) (slot : Nat) (frame : Frame) : Prop :=
  ∃ before after m, trace = before ++ after ∧ Execution Step first before m ∧ Execution Step m after x ∧
    (∀ act ∈ after, act.restacks = false) ∧ x.served slot = frame.variables m.scopes

/-- The frame at a place was not read after it had left the stack and before the stack changed again. -/
def ReadInTime (first : Exhibit) (trace : List Act) (x : Exhibit) (slot : Nat) : Prop :=
  ∀ before after m, trace = before ++ .read slot :: after → Execution Step first before m →
    Execution Step m (.read slot :: after) x → slot ∉ m.thread.stack →
      ∀ act ∈ after, act.restacks = false

/-- If the stack has just changed, nothing but what the scope contains now is fresh. -/
theorem Fresh.of_restacked {frame : Frame} (h : Fresh first trace x slot frame)
    (hlast : trace.getLast? = some act) (hact : act.restacks = true) :
    x.served slot = frame.variables x.scopes := by
  obtain ⟨before, after, m, rfl, -, hsince, hquiet, hserved⟩ := h
  rcases List.eq_nil_or_concat' after with rfl | ⟨rest, last, rfl⟩
  · obtain rfl := hsince.eq_of_nil
    exact hserved
  · -- The change is the last thing that happened, hence among what came after that moment.
    obtain rfl : last = act := by simpa [← List.append_assoc] using hlast
    exact absurd (hquiet last (by simp)) (by simp [hact])

/-- A dirty frame serves what its scope contains. -/
theorem served_of_dirty (hp : x.thread.published[slot]? = some p) (hdirty : p.dirty = true) :
    x.served slot = p.frame.variables x.scopes := by
  simp only [served, DebugThread.readVariables, hp, PublishedFrame.readVariables, hdirty, if_true]
  rfl

/-- A clean frame serves what was read of it before. -/
theorem served_of_clean (hp : x.thread.published[slot]? = some p) (hclean : p.dirty = false) :
    x.served slot = p.cache := by
  simp only [served, DebugThread.readVariables, hp, PublishedFrame.readVariables, hclean]
  rfl

/-- **The variables of a frame are fresh**, however long ago it was handed out: they are those of a moment
since the stack of its thread changed last, provided that it was not read between the change that took it
off the stack and a later one. -/
theorem served_is_fresh {id : ThreadId} {scopes : ScopeId → Entries}
    (hout : Execution Step (start id scopes) early x) (hp : x.thread.published[slot]? = some p)
    (hkept : Execution Step x later y) (hread : ReadInTime (start id scopes) (early ++ later) y slot) :
    Fresh (start id scopes) (early ++ later) y slot p.frame := by
  obtain ⟨q, hq, hframe⟩ := exists_published_of_execution hp hkept
  have hrun := hout.append hkept
  rw [← hframe]
  cases hdirty : q.dirty with
  | true => exact ⟨_, [], y, (List.append_nil _).symm, hrun, .start, by simp, served_of_dirty hq hdirty⟩
  | false =>
      obtain ⟨before, after, m, hm⟩ := (dirty_or_recalls hrun hq).resolve_left (by simp [hdirty])
      have hquiet : ∀ act ∈ after, act.restacks = false := by
        by_cases hon : slot ∈ m.thread.stack
        · intro act hact
          by_contra hrestacks
          exact hm.off ⟨act, hact, by simpa using hrestacks⟩ hon
        · exact hread before after m hm.trace hm.reached hm.since hon
      exact ⟨before, .read slot :: after, m, hm.trace, hm.reached, hm.since,
        List.forall_mem_cons.mpr ⟨rfl, hquiet⟩, (served_of_clean hq hdirty).trans hm.cache⟩

/-- **A frame that is read once it has left the stack is frozen**: it serves the same variables ever after,
whatever is written to its scope and however often the stack changes. -/
theorem served_of_frozen (hp : x.thread.published[slot]? = some p) (hoff : slot ∉ x.thread.stack)
    (hclean : p.dirty = false) (h : Execution Step x later y) : y.served slot = p.cache := by
  have hfrozen : y.thread.published[slot]? = some p ∧ slot ∉ y.thread.stack :=
    h.state_invariant (P := fun z => z.thread.published[slot]? = some p ∧ slot ∉ z.thread.stack)
      ⟨hp, hoff⟩ fun ih last => last.frozen ih.1 ih.2 hclean
  exact served_of_clean hfrozen.1 hclean

/-- The frame of a script at its first line, with a scope. -/
def shownFrame : Frame :=
  .capture { id := ⟨1⟩, title := "main", source := "let x = 1", resource := some "main" } 1 .call
    (some ⟨0, 0⟩)

/-- A thread with this frame on its stack, among empty scopes. -/
def shownExhibit : Exhibit :=
  ⟨{ id := ⟨1⟩, published := #[{ frame := shownFrame }], stack := [0] }, fun _ => []⟩

theorem served_is_fresh_replaced :
    ∃ y, Execution Step (start ⟨1⟩ fun _ => []) [.replaced [shownFrame]] shownExhibit ∧
      shownExhibit.thread.published[0]? = some { frame := shownFrame } ∧
      Execution Step shownExhibit [.read 0, .wrote ⟨0, 0⟩ "x" (.int 1), .replaced []] y ∧
      ReadInTime (start ⟨1⟩ fun _ => [])
        [.replaced [shownFrame], .read 0, .wrote ⟨0, 0⟩ "x" (.int 1), .replaced []] y 0 ∧
      Fresh (start ⟨1⟩ fun _ => [])
        [.replaced [shownFrame], .read 0, .wrote ⟨0, 0⟩ "x" (.int 1), .replaced []] y 0 shownFrame := by
  have hout : Execution Step (start ⟨1⟩ fun _ => []) [.replaced [shownFrame]] shownExhibit :=
    .single (.replace rfl)
  obtain ⟨y, hkept⟩ :
      ∃ y, Execution Step shownExhibit [.read 0, .wrote ⟨0, 0⟩ "x" (.int 1), .replaced []] y :=
    ⟨_, .next (.next (.single (.read 0)) (.write ⟨0, 0⟩ "x" (.int 1))) (.replace rfl)⟩
  have hread : ReadInTime (start ⟨1⟩ fun _ => [])
      [.replaced [shownFrame], .read 0, .wrote ⟨0, 0⟩ "x" (.int 1), .replaced []] y 0 := by
    intro before after m htrace hreached _ hoff
    rcases before with _ | ⟨_, _ | ⟨_, _ | ⟨_, _ | ⟨_, before⟩⟩⟩⟩ <;> simp at htrace
    obtain ⟨rfl, -⟩ := htrace
    have hreached : Execution Step _ ([] ++ [.replaced [shownFrame]]) m := hreached
    obtain ⟨x, hstart, hlast⟩ := hreached.exists_of_concat
    obtain rfl := hstart.eq_of_nil
    cases hlast with
    | replace h =>
        obtain rfl := Except.ok.inj h
        exact absurd (List.mem_singleton.mpr rfl) hoff
  have hp : shownExhibit.thread.published[0]? = some { frame := shownFrame } := rfl
  exact ⟨y, hout, hp, hkept, hread, served_is_fresh hout hp hkept hread⟩

/-- A frame that is read once it has left the stack serves what was read then, although its scope has been
written to and the stack has changed since. -/
theorem served_is_stale :
    ∃ y, Execution Step (start ⟨1⟩ fun _ => [])
        [.replaced [shownFrame], .replaced [], .read 0, .wrote ⟨0, 0⟩ "x" (.int 1), .replaced []] y ∧
      y.thread.published[0]?.map PublishedFrame.frame = some shownFrame ∧
      ¬ Fresh (start ⟨1⟩ fun _ => [])
        [.replaced [shownFrame], .replaced [], .read 0, .wrote ⟨0, 0⟩ "x" (.int 1), .replaced []] y 0
        shownFrame := by
  obtain ⟨y, hrun, hframe, hserved, hscope⟩ :
      ∃ y, Execution Step (start ⟨1⟩ fun _ => [])
          [.replaced [shownFrame], .replaced [], .read 0, .wrote ⟨0, 0⟩ "x" (.int 1), .replaced []] y ∧
        y.thread.published[0]?.map PublishedFrame.frame = some shownFrame ∧
        y.served 0 = [] ∧ shownFrame.variables y.scopes = [⟨"x", .int 1⟩] :=
    ⟨_, .next (.next (.next (.next (.single (.replace rfl)) (.replace rfl)) (.read 0))
      (.write ⟨0, 0⟩ "x" (.int 1))) (.replace rfl), rfl, rfl, rfl⟩
  refine ⟨y, hrun, hframe, fun hfresh => ?_⟩
  have hnow := hfresh.of_restacked rfl rfl
  rw [hserved, hscope] at hnow
  cases hnow

end Exhibit

end Pausepoint
