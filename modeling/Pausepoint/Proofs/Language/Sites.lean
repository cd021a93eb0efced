import Pausepoint.Proofs.Language.Trail
import Pausepoint.Proofs.Language.Writing
import Pausepoint.Proofs.Scope

/-!
# Pausepoint.Proofs.Language.Sites

What an interpreter is doing when a debugger looks at a line.

A run is a tree of checkpoints, and its interpreter is hidden in the branches. At a line a debugger is
shown activations. `Interpreter.StandsAt` says that they are what the run is about: it goes on by running
the statement of the innermost activation, then the rest of its block, then takes the activation off the
stack, and so on outwards (`unwind`).

* `Site` — an activation with its place in its block;
* `Activation.On` — how an activation came to be on the stack: each site below it runs the statement that
  entered the next one, and is at the line on which that statement is written;
* `stands_run` — so it is at every line of every script, whatever was replied before, by recursion on the
  room on the stack and the statements of a block.
-/

namespace Pausepoint.Language

/-! ### All courses of a run -/

namespace Run

variable {α β γ : Type}

/-- What holds of a run at every checkpoint and at its end, whatever is replied. -/
def Always (P : Run α → Prop) : Run α → Prop
  | .done a => P (.done a)
  | .ask point heap resume => P (.ask point heap resume) ∧ ∀ reply, (resume reply).Always P

theorem bind_assoc (r : Run α) (f : α → Run β) (g : β → Run γ) :
    (r.bind f).bind g = r.bind fun a => (f a).bind g := by
  induction r with
  | done a => rfl
  | ask point heap resume ih =>
      show Run.ask point heap _ = Run.ask point heap _
      congr 1
      exact funext ih

theorem Always.mono {P Q : Run α → Prop} {r : Run α} (h : r.Always P) (hpq : ∀ r, P r → Q r) :
    r.Always Q := by
  induction r with
  | done a => exact hpq _ h
  | ask point heap resume ih => exact ⟨hpq _ h.1, fun reply => ih reply (h.2 reply)⟩

/-- One run after another, if the first succeeds, and something after both. -/
theorem andThen_bind (r : Run Outcome) (next : Interpreter → Run Outcome) (g : Outcome → Run β) :
    (r.andThen next).bind g = r.bind fun outcome => ((Run.done outcome).andThen next).bind g :=
  bind_assoc r _ g

end Run

/-! ### Sites -/

/-- An activation, the statement that it runs, and those after it in its block. -/
structure Site where
  activation : Activation
  statement : Statement
  rest : List Statement

namespace Site

/-- The activation is at the line of its statement, which is written there in its script. -/
structure Placed (s : Site) : Prop where
  line : s.activation.line = s.statement.line
  statement : s.statement.WrittenIn s.activation.script.source
  rest : ∀ t ∈ s.rest, t.WrittenIn s.activation.script.source

/-- The statement of a site is one that puts the given activation on the stack. -/
def Enters (s : Site) (a : Activation) : Prop :=
  match s.statement with
  | .simple _ (.call name) => a.kind = .call ∧ a.function = some name
  | .simple _ (.includeResource resource) =>
      a.kind = .included ∧ a.function = none ∧ a.script.resource = some resource ∧
        a.scope = s.activation.scope
  | .simple _ (.eval code) =>
      a.kind = .dynamic ∧ a.function = none ∧ a.script.resource = none ∧ a.script.source = code ∧
        a.scope = s.activation.scope
  | .simple _ (.assign ..) | .simple _ (.print _) | .function .. => False

end Site

/-- An activation on top of sites, innermost first: the one below it has entered it, and the last one is
that of the root script. -/
def Activation.On (root : Snapshot) (a : Activation) : List Site → Prop
  | [] => a.script = root ∧ a.kind = .call ∧ a.function = none ∧ a.scope = globalScope
  | site :: outer => site.Enters a ∧ site.Placed ∧ site.activation.On root outer

/-- The line that an activation is at is no matter of how it came to be there. -/
theorem Activation.On.of_same {root : Snapshot} {a b : Activation} {outer : List Site} (h : a.On root outer)
    (hscript : b.script = a.script) (hkind : b.kind = a.kind) (hfunction : b.function = a.function)
    (hscope : b.scope = a.scope) : b.On root outer := by
  cases outer with
  | nil =>
      unfold On at h ⊢
      rwa [hscript, hkind, hfunction, hscope]
  | cons site outer =>
      refine ⟨?_, h.2⟩
      have henters := h.1
      unfold Site.Enters at henters ⊢
      rwa [hscript, hkind, hfunction, hscope]

/-- Every site below an activation is at the line of its statement. -/
theorem Activation.On.placed {root : Snapshot} {a : Activation} {outer : List Site} (h : a.On root outer) :
    ∀ s ∈ outer, s.Placed := by
  induction outer generalizing a with
  | nil => exact fun s hs => absurd hs List.not_mem_nil
  | cons site outer ih =>
      obtain ⟨-, hplaced, hon⟩ := h
      exact List.forall_mem_cons.mpr ⟨hplaced, ih hon⟩

/-- What is left of a run once the statement of the innermost site is over: the rest of its block, and the
same for the sites around it; then the stack is emptied, and the engine ends. -/
def unwind : List Site → Outcome → Run Outcome
  | [], (i, result) => .ask .ended i.heap fun _ => .done ({ i with stack := [] }, result)
  | site :: outer, outcome =>
      ((Run.done outcome).andThen (runBlock (enter (maxFrames - (outer.length + 1))) site.rest)).bind
        fun (i, result) => unwind outer (i.pop, result)

/-- **An interpreter stands at a site.** A debugger is shown its stack and its scopes; its activations are
those of the site and of the sites around it; and once it may go on, it runs the statement of the site and
then what is left. -/
structure Interpreter.StandsAt (i : Interpreter) (root : Snapshot) (site : Site) (outer : List Site)
    (r : Run Outcome) : Prop where
  stack : i.stack = site.activation :: outer.map Site.activation
  placed : site.Placed
  on : site.activation.On root outer
  sorted : i.heap.Sorted
  run : r = .ask
    (.line site.activation.script site.activation.line (outer.length + 1) i.frames) i.heap fun reply =>
      ((heed i reply).andThen fun i =>
        runStatement (enter (maxFrames - (outer.length + 1))) i site.statement).bind (unwind (site :: outer))

/-- What a frame of an activation refers to. -/
theorem Activation.scope_frame (a : Activation) (number : Nat) :
    (a.frame number).scope = some ⟨number, a.scope⟩ := by
  unfold Activation.frame
  dsimp only
  split <;> rfl

/-- Is an activation one of dynamic code, by its kind or by its script? -/
def Activation.isDynamic (a : Activation) : Bool :=
  a.kind == .dynamic || a.script.isDynamic

theorem Activation.isDynamic_frame (a : Activation) (number : Nat) :
    (a.frame number).isDynamic = a.isDynamic := by
  unfold Activation.frame
  dsimp only
  split <;> rfl

/-- Only scripts of dynamic code are entered as such. -/
theorem Activation.On.isDynamic_eq {root : Snapshot} {a : Activation} {outer : List Site}
    (h : a.On root outer) : a.isDynamic = a.script.isDynamic := by
  unfold isDynamic
  cases outer with
  | nil =>
      obtain ⟨-, hkind, -⟩ := h
      rw [hkind]
      rfl
  | cons site outer =>
      have henters := h.1
      unfold Site.Enters at henters
      split at henters
      · rw [henters.1]
        rfl
      · rw [henters.1]
        rfl
      · obtain ⟨hkind, -, hresource, -⟩ := henters
        rw [hkind, Snapshot.isDynamic, hresource]
        rfl
      · exact henters.elim
      · exact henters.elim
      · exact henters.elim

/-- What an interpreter keeps throughout: its functions are written in the scripts they come from, and its
scopes are sorted. -/
structure Interpreter.Sound (i : Interpreter) (number : Nat) : Prop where
  number : i.heapNumber = number
  functions : ∀ name f, i.functions.get? name = some f → ∀ s ∈ f.body, s.WrittenIn f.script.source
  sorted : i.heap.Sorted

/-- If a run is at a line, some interpreter with a heap of this number stands there; and if it is over, the
stack is empty. -/
structure Run.Stands (root : Snapshot) (number : Nat) (r : Run Outcome) : Prop where
  line : ∀ script line depth frames heap resume, r = .ask (.line script line depth frames) heap resume →
    ∃ (i : Interpreter) (site : Site) (outer : List Site), i.heapNumber = number ∧ i.StandsAt root site outer r
  ended : ∀ i result, r = .done (i, result) → i.stack = [] ∧ i.Sound number

/-- Nothing is shown at a checkpoint that is no line. -/
theorem Run.stands_ask {root : Snapshot} {number : Nat} {point : Checkpoint} {heap : Heap}
    {resume : Reply → Run Outcome} (h : ∀ script line depth frames, point ≠ .line script line depth frames) :
    Run.Stands root number (.ask point heap resume) where
  line script line depth frames heap resume hrun := by
    cases hrun
    exact absurd rfl (h script line depth frames)
  ended i result hrun := by cases hrun

/-- An interpreter has come to the end of a run. -/
theorem Interpreter.Sound.ended {i : Interpreter} {number : Nat} (h : i.Sound number) (root : Snapshot)
    (hstack : i.stack = []) (result : Except ScriptFault Unit) :
    Run.Stands root number (.done (i, result)) where
  line script line depth frames heap resume hrun := by cases hrun
  ended i result hrun := by
    cases hrun
    exact ⟨hstack, h⟩

/-! ### Blocks -/

section

variable {root : Snapshot} {number : Nat} {i : Interpreter} {outer : List Site}

/-- What comes after a block, where it leaves the stack to the sites around it. -/
def Resumes (root : Snapshot) (number : Nat) (outer : List Site) : Prop :=
  ∀ i result, i.Sound number → i.stack = outer.map Site.activation →
    (unwind outer (i, result)).Always (Run.Stands root number)

/-- What comes after a block, from its own activation. -/
def leaveTo (outer : List Site) : Outcome → Run Outcome
  | (i, result) => unwind outer (i.pop, result)

theorem unwind_cons (site : Site) (outer : List Site) (outcome : Outcome) :
    unwind (site :: outer) outcome =
      ((Run.done outcome).andThen (runBlock (enter (maxFrames - (outer.length + 1))) site.rest)).bind
        (leaveTo outer) := rfl

theorem Resumes.leave (h : Resumes root number outer) (hi : i.Sound number) {top : Activation}
    (hstack : i.stack = top :: outer.map Site.activation) (result : Except ScriptFault Unit) :
    (leaveTo outer (i, result)).Always (Run.Stands root number) := by
  refine h i.pop result ⟨hi.number, hi.functions, hi.sorted⟩ ?_
  rw [Interpreter.pop, hstack]
  rfl

/-- A block that may be entered on top of sites: its statements are written in its script, and its
activation is one that they bring on to the stack. -/
structure Entry.Fits (e : Entry) (root : Snapshot) (outer : List Site) : Prop where
  written : ∀ s ∈ e.body, s.WrittenIn e.script.source
  on : ∀ a : Activation, a.script = e.script → a.kind = e.kind → a.function = e.function →
    (∀ scope, e.scope = some scope → a.scope = scope) → a.On root outer

/-- What is shown of entering a block on top of sites, by recursion on the room that is left. -/
def Stays (room : Nat) (root : Snapshot) (number : Nat) (outer : List Site) : Prop :=
  ∀ e i, Entry.Fits e root outer → i.Sound number → i.stack = outer.map Site.activation →
    Resumes root number outer → ((enter room e i).bind (unwind outer)).Always (Run.Stands root number)

/-- The reply to a checkpoint decides at most whether the run goes on. -/
theorem heed_cases (i : Interpreter) (reply : Reply) :
    heed i reply = succeed i ∨ ∃ fault, heed i reply = fail i fault := by
  unfold heed
  split
  · exact .inl rfl
  · exact .inl rfl
  · exact .inr ⟨_, rfl⟩

/-- Loading a script from the statement of a site. -/
theorem always_loadScript {room : Nat} {site : Site} (hstays : Stays room root number (site :: outer))
    (hresumes : Resumes root number (site :: outer)) (hi : i.Sound number)
    (hstack : i.stack = site.activation :: outer.map Site.activation) (script : Script) (kind : FrameKind)
    (hon : ∀ a : Activation, a.script = script.snapshot → a.kind = kind → a.function = none →
      a.scope = site.activation.scope → a.On root (site :: outer)) :
    ((loadScript (enter room) script kind i).bind (unwind (site :: outer))).Always
      (Run.Stands root number) := by
  have hscope : i.currentScope = site.activation.scope := by
    rw [Interpreter.currentScope, hstack]
  unfold loadScript
  split
  · exact hresumes i _ hi hstack
  · next body hbody =>
      refine hstays _ i ⟨written_parse hbody, fun a hscript hkind hfunction hscope' => ?_⟩ hi hstack
        hresumes
      exact hon a hscript hkind hfunction ((hscope' _ rfl).trans hscope)

/-- **The statement of a site** does what it does, and then what is left is done. -/
theorem always_runStatement {room : Nat} {site : Site} (hstays : Stays room root number (site :: outer))
    (hresumes : Resumes root number (site :: outer)) (hi : i.Sound number)
    (hstack : i.stack = site.activation :: outer.map Site.activation) (hplaced : site.Placed)
    (hon : site.activation.On root outer) :
    ((runStatement (enter room) i site.statement).bind (unwind (site :: outer))).Always
      (Run.Stands root number) := by
  have hwritten := hplaced.statement
  have hnext : i.takeScriptId.2.Sound number := ⟨hi.number, hi.functions, hi.sorted⟩
  -- Definitions and simple actions resume the block at once; calls, inclusions and evaluated code enter an
  -- activation first.
  cases hs : site.statement with
  | function line name body =>
      rw [hs] at hwritten
      simp only [runStatement]
      split
      · exact hresumes i _ hi hstack
      · next top below hcons =>
          obtain ⟨rfl, -⟩ := List.cons.inj (hcons.symm.trans hstack)
          refine hresumes _ _ ⟨hi.number, fun other f hf => ?_, hi.sorted⟩ hstack
          have hget : (i.functions.insert name ⟨site.activation.script, body⟩).get? other = some f := hf
          rw [Table.get?_insert] at hget
          split at hget
          · obtain rfl := Option.some.inj hget
            cases hwritten with
            | function _ hbody => exact hbody
          · exact hi.functions other f hget
  | simple line action =>
      cases action with
      | assign name e =>
          simp only [runStatement, runAction]
          split
          · exact hresumes i _ hi hstack
          · exact hresumes _ _ ⟨hi.number, hi.functions, hi.sorted.set _ _ _⟩ hstack
      | print e =>
          simp only [runStatement, runAction]
          split
          · exact hresumes i _ hi hstack
          · exact hresumes _ _ ⟨hi.number, hi.functions, hi.sorted⟩ hstack
      | call name =>
          simp only [runStatement, runAction]
          split
          · exact hresumes i _ hi hstack
          · next f hf =>
              refine hstays _ i ⟨hi.functions name f hf, fun a _ hkind hfunction _ => ?_⟩ hi hstack
                hresumes
              refine ⟨?_, hplaced, hon⟩
              rw [Site.Enters, hs]
              exact ⟨hkind, hfunction⟩
      | includeResource resource =>
          simp only [runStatement, runAction]
          split
          · exact hresumes i _ hi hstack
          · refine always_loadScript hstays hresumes hnext hstack _ _ ?_
            intro a hscript hkind hfunction hscope
            refine ⟨?_, hplaced, hon⟩
            rw [Site.Enters, hs]
            exact ⟨hkind, hfunction, by rw [hscript]; rfl, hscope⟩
      | eval code =>
          simp only [runStatement, runAction]
          refine always_loadScript hstays hresumes hnext hstack _ _ ?_
          intro a hscript hkind hfunction hscope
          refine ⟨?_, hplaced, hon⟩
          rw [Site.Enters, hs]
          exact ⟨hkind, hfunction, by rw [hscript]; rfl, by rw [hscript]; rfl, hscope⟩

/-- **A block** runs statement by statement, each at its own site, and then the sites around it go on. -/
theorem always_runBlock {room : Nat} (hroom : room = maxFrames - (outer.length + 1))
    (hstays : ∀ site, Stays room root number (site :: outer)) (hresumes : Resumes root number outer)
    {body : List Statement} {top : Activation} (hi : i.Sound number)
    (hstack : i.stack = top :: outer.map Site.activation) (hon : top.On root outer)
    (hbody : ∀ s ∈ body, s.WrittenIn top.script.source) :
    ((runBlock (enter room) body i).bind (leaveTo outer)).Always (Run.Stands root number) := by
  induction body generalizing i top with
  | nil => exact hresumes.leave hi hstack _
  | cons s rest ih =>
      obtain ⟨hs, hrest⟩ := List.forall_mem_cons.mp hbody
      let site : Site := ⟨{ top with line := s.line }, s, rest⟩
      have hplaced : site.Placed := ⟨rfl, hs, hrest⟩
      have hsite : site.activation.On root outer := hon.of_same rfl rfl rfl rfl
      -- Once the statement is over, the rest of the block runs, or the block is left.
      have hnext : Resumes root number (site :: outer) := by
        intro i result hi hstack
        rw [unwind_cons, ← hroom]
        cases result with
        | ok => exact ih hi hstack hsite hrest
        | error fault => exact hresumes.leave hi hstack _
      let moved : Interpreter := { i with stack := site.activation :: outer.map Site.activation }
      have hmoved : moved.Sound number := ⟨hi.number, hi.functions, hi.sorted⟩
      -- To run the block is to pass its checkpoint, run its statement, and unwind to the rest.
      have hgoesOn : (runBlock (enter room) (s :: rest) i).bind (leaveTo outer) =
          ((checkpoint s.line i).andThen fun i => runStatement (enter room) i s).bind
            (unwind (site :: outer)) := by
        unfold runBlock
        rw [Run.andThen_bind, Run.andThen_bind]
        congr 1
        funext outcome
        obtain ⟨i, result⟩ := outcome
        cases result with
        | ok =>
            show ((runStatement (enter room) i s).andThen _).bind (leaveTo outer) = _
            rw [Run.andThen_bind, hroom]
            rfl
        | error fault => rfl
      rw [hgoesOn]
      unfold checkpoint
      rw [hstack]
      refine ⟨⟨fun script line depth frames heap resume hrun => ?_, fun _ _ hrun => by cases hrun⟩,
        fun reply => ?_⟩
      · refine ⟨moved, site, outer, hi.number, rfl, hplaced, hsite, hi.sorted, ?_⟩
        dsimp only
        rw [List.length_cons, List.length_map, hroom]
        rfl
      · show (((heed _ reply).andThen _).bind (unwind (site :: outer))).Always _
        rcases heed_cases moved reply with hok | ⟨fault, herror⟩
        · rw [hok]
          exact always_runStatement (hstays site) hnext hmoved rfl hplaced hsite
        · rw [herror]
          exact hnext _ _ hmoved rfl

/-- A block is run by an activation of its own. -/
theorem exists_top_push (i : Interpreter) (e : Entry) :
    ∃ top : Activation, (i.push e).stack = top :: i.stack ∧ top.script = e.script ∧ top.kind = e.kind ∧
      top.function = e.function ∧ ∀ scope, e.scope = some scope → top.scope = scope := by
  unfold Interpreter.push
  split
  · next scope hscope =>
      refine ⟨_, rfl, rfl, rfl, rfl, fun other hother => ?_⟩
      exact Option.some.inj (hscope.symm.trans hother)
  · next hscope =>
      refine ⟨_, rfl, rfl, rfl, rfl, fun other hother => ?_⟩
      cases hscope.symm.trans hother

theorem Interpreter.Sound.push (hi : i.Sound number) (e : Entry) : (i.push e).Sound number := by
  unfold Interpreter.push
  split
  · exact ⟨hi.number, hi.functions, hi.sorted⟩
  · exact ⟨hi.number, hi.functions, hi.sorted.create⟩

/-- **Entering a block** on top of sites: what is shown of it is what runs. -/
theorem stays_enter {room : Nat} (hroom : room = maxFrames - outer.length) :
    Stays room root number outer := by
  induction room generalizing outer with
  | zero => exact fun e i _ hi hstack hresumes => hresumes i _ hi hstack
  | succ room ih =>
      intro e i he hi hstack hresumes
      have hblock : ((enterBlock room e i).bind (unwind outer)).Always (Run.Stands root number) := by
        obtain ⟨top, hpush, hscript, hkind, hfunction, hscope⟩ := exists_top_push i e
        rw [enterBlock, Run.bind_assoc]
        refine always_runBlock (by omega) (fun site => ih (by rw [List.length_cons]; omega)) hresumes
          (hi.push e) (hpush.trans (by rw [hstack])) (he.on top hscript hkind hfunction hscope) ?_
        rw [hscript]
        exact he.written
      show (((announce e i).andThen (enterBlock room e)).bind (unwind outer)).Always _
      unfold announce
      split
      · refine ⟨Run.stands_ask fun _ _ _ _ h => (by cases h), fun reply => ?_⟩
        show (((heed i reply).andThen (enterBlock room e)).bind (unwind outer)).Always _
        rcases heed_cases i reply with hok | ⟨fault, herror⟩
        · rw [hok]
          exact hblock
        · rw [herror]
          exact hresumes i _ hi hstack
      · exact hblock

end

/-! ### Whole runs -/

/-- An interpreter between two runs. -/
structure Interpreter.AtRest (i : Interpreter) : Prop where
  stack : i.stack = []
  sound : i.Sound i.heapNumber

/-- So is one on which nothing has run, whatever resources it has. -/
theorem Interpreter.atRest_new (resources : Table String String) (files : String → Option String) :
    AtRest { resources, files } where
  stack := rfl
  sound := ⟨rfl, fun _ _ h => (by cases h), Heap.sorted_empty.create⟩

/-- **At every line of a run** an interpreter stands at a site whose activations are the ones that are
shown, whatever was replied before. -/
theorem stands_run {i : Interpreter} (h : i.AtRest) (script : Script) :
    (i.run script).Always (Run.Stands script.snapshot i.heapNumber) := by
  have hresumes : Resumes script.snapshot i.heapNumber [] := fun last result hlast _ =>
    have hempty : Interpreter.Sound { last with stack := [] } i.heapNumber :=
      ⟨hlast.number, hlast.functions, hlast.sorted⟩
    ⟨Run.stands_ask fun _ _ _ _ h => (by cases h), fun _ => hempty.ended _ rfl result⟩
  refine ⟨Run.stands_ask fun _ _ _ _ h => (by cases h), fun reply => ?_⟩
  cases reply with
  | error cause => exact h.sound.ended _ h.stack _
  | ok =>
      show Run.Always _ (Run.bind (i.runRoot script) _)
      rw [Interpreter.runRoot, Run.bind_assoc]
      show ((loadScript (enter i.room) script .call i).bind (unwind [])).Always _
      have hroom : i.room = maxFrames - ([] : List Site).length := by
        rw [Interpreter.room, h.stack]
        rfl
      have hscope : i.currentScope = globalScope := by
        rw [Interpreter.currentScope, h.stack]
      unfold loadScript
      split
      · exact hresumes i _ h.sound h.stack
      · next body hbody =>
          refine stays_enter hroom _ i ⟨written_parse hbody, fun a hscript hkind hfunction ha => ?_⟩ h.sound
            h.stack hresumes
          exact ⟨hscript, hkind, hfunction, (ha _ rfl).trans hscope⟩

/-- **After a run** an interpreter is at rest again, and may be used for another one. -/
theorem Interpreter.AtRest.run {i : Interpreter} (h : i.AtRest) (script : Script) :
    (i.run script).Always fun r => ∀ last result, r = .done (last, result) → last.AtRest := by
  refine (stands_run h script).mono fun r hr last result hover => ?_
  obtain ⟨hstack, hsound⟩ := hr.ended last result hover
  exact ⟨hstack, ⟨rfl, hsound.functions, hsound.sorted⟩⟩

end Pausepoint.Language
