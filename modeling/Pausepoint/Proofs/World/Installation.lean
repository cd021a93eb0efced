import Pausepoint.Proofs.Session.Prospect
import Pausepoint.Proofs.World.Reference
import Pausepoint.World.Basic

/-!
# Pausepoint.Proofs.World.Installation

From the breakpoints that are set to those of a script.

The user sets breakpoints of resources, and the engine asks for those of a script. When a script is
loaded, the session sends one command for each breakpoint that concerns it. `Installing` is the state
of affairs on the way: the engine has some of them, and the others are still to come. `Installed` is
what holds between loads; it rests on scripts having numbers of their own.

A breakpoint at line 0 is no matter here, since no line has that number. This is also why the marker
does no harm, which looks like the command for such a breakpoint and which no engine gets to see.
-/

namespace Pausepoint

def Breakpoint.Concerns (b : Breakpoint) (script : Snapshot) : Prop :=
  script.resource = some b.resource

/-! ### The breakpoints that are set -/

/-- The breakpoints that are set are these. -/
def BreakpointStore.Holds (store : BreakpointStore) (breakpoints : List Breakpoint) : Prop :=
  ∀ resource b, b ∈ store.forResource resource ↔ b ∈ breakpoints ∧ b.resource = resource

theorem BreakpointStore.holds_empty : Holds {} [] := by
  intro resource b
  simp [forResource]

theorem BreakpointStore.Holds.add {store : BreakpointStore} {breakpoints : List Breakpoint}
    (h : store.Holds breakpoints) (b : Breakpoint) : (store.add b).2.Holds (b :: breakpoints) := by
  intro resource c
  rw [forResource_add, List.mem_cons]
  split
  · next hr =>
      rw [Breakpoint.mem_addTo, h resource c]
      constructor
      · rintro (⟨hc, hresource⟩ | rfl)
        · exact ⟨.inr hc, hresource⟩
        · exact ⟨.inl rfl, hr.symm⟩
      · rintro ⟨rfl | hc, hresource⟩
        · exact .inr rfl
        · exact .inl ⟨hc, hresource⟩
  · next hr =>
      rw [h resource c]
      refine and_congr_left fun hresource => (or_iff_right ?_).symm
      rintro rfl
      exact hr hresource.symm

/-- Breakpoints that are set before anything runs are set, and nothing else happens. -/
theorem Session.addBreakpoints_fresh {s : Session} (hnone : s.target.registry.threads = #[])
    {before : List Breakpoint} (h : s.breakpoints.Holds before) (breakpoints : List Breakpoint) :
    ∃ store, s.addBreakpoints breakpoints = { s with breakpoints := store } ∧
      store.Holds (breakpoints ++ before) := by
  induction breakpoints generalizing s before with
  | nil => exact ⟨s.breakpoints, rfl, h⟩
  | cons b rest ih =>
      have hcommands (s' : Session) (hs' : s'.target = s.target) : s'.forwardCommands b .add = [] := by
        simp [forwardCommands, Target.scriptsOnStacks, hs', hnone]
      have hone : (s.addBreakpoint b).2 = { s with breakpoints := (s.breakpoints.add b).2 } := by
        obtain ⟨hb, hsame⟩ | ⟨-, hrun⟩ := s.addBreakpoint_cases b
        · simp [hsame, BreakpointStore.add, hb]
        · rw [hrun, hcommands s rfl, orderAll]
      obtain ⟨store, hs, hstore⟩ := ih (s := (s.addBreakpoint b).2) (by rw [hone]; exact hnone)
        (by rw [hone]; exact h.add b)
      refine ⟨store, ?_, ?_⟩
      · rw [addBreakpoints, hs, hone]
      · intro resource c
        rw [hstore resource c, List.mem_append, List.mem_append, List.mem_cons, List.mem_cons,
          or_left_comm, or_assoc]

/-- The commands that a script brings with it are for the breakpoints that concern it. -/
theorem Target.mem_installCommands {store : BreakpointStore} {breakpoints : List Breakpoint}
    (h : store.Holds breakpoints) (script : Snapshot) (c : Command) :
    c ∈ installCommands store script ↔
      ∃ b ∈ breakpoints, b.Concerns script ∧ c = .setBreakpoint script.id b .add := by
  unfold installCommands Breakpoint.Concerns
  cases script.resource with
  | none => simp
  | some resource =>
      simp only [List.mem_map, h resource, Option.some.injEq]
      constructor
      · rintro ⟨b, ⟨hb, hr⟩, rfl⟩
        exact ⟨b, hb, hr.symm, rfl⟩
      · rintro ⟨b, hb, hr, rfl⟩
        exact ⟨b, ⟨hb, hr.symm⟩, rfl⟩

/-! ### The breakpoints of the engine -/

/-- The engine has the breakpoints of a script, and no others for it. -/
structure Plan.Ready (plan : Plan) (e : Engine) (script : Snapshot) : Prop where
  sound : ∀ b ∈ e.breakpointsOf script.id, b ∈ plan.breakpoints ∧ b.Concerns script
  complete : ∀ b ∈ plan.breakpoints, b.Concerns script → 0 < b.line →
    b ∈ e.breakpointsOf script.id

/-- Then it finds a breakpoint where there is one. -/
theorem Plan.Ready.any_hits {plan : Plan} {e : Engine} {script : Snapshot} (h : plan.Ready e script)
    {line : Nat} (hline : 0 < line) :
    ((e.breakpointsOf script.id).any fun b => b.hits line) = plan.breaks script line := by
  unfold Plan.breaks
  rw [Bool.eq_iff_iff, List.any_eq_true, List.any_eq_true]
  constructor
  · rintro ⟨b, hb, hhits⟩
    obtain ⟨hset, hconcerns⟩ := h.sound b hb
    refine ⟨b, hset, ?_⟩
    rw [show script.resource = some b.resource from hconcerns, hhits]
    simp
  · rintro ⟨b, hset, hb⟩
    rw [Bool.and_eq_true, beq_iff_eq] at hb
    obtain ⟨hconcerns, hhits⟩ := hb
    refine ⟨b, h.complete b hset hconcerns ?_, hhits⟩
    have hat : b.line = line := by
      unfold Breakpoint.hits at hhits
      rw [Bool.and_eq_true, beq_iff_eq] at hhits
      exact hhits.2
    omega

/-- **Between loads**: the engine has the breakpoints of every script that was loaded and is looked at,
and none for a script with a number still to come. -/
structure Installed (plan : Plan) (e : Engine) (seen : List Snapshot) (next : Nat) : Prop where
  old : ∀ script ∈ seen, script.id.number < next
  fresh : ∀ id : ScriptId, next ≤ id.number → e.breakpointsOf id = []
  ready : ∀ script ∈ seen, plan.tracks script = true → plan.Ready e script

/-- **During a load**: the breakpoints of the script are in the engine or in these commands. -/
structure Installing (plan : Plan) (e : Engine) (seen : List Snapshot) (next : Nat)
    (script : Snapshot) (cs : List Command) : Prop where
  new : next ≤ script.id.number
  old : ∀ script ∈ seen, script.id.number < next
  fresh : ∀ id : ScriptId, next ≤ id.number → id ≠ script.id → e.breakpointsOf id = []
  ready : ∀ script ∈ seen, plan.tracks script = true → plan.Ready e script
  sound : ∀ b ∈ e.breakpointsOf script.id, b ∈ plan.breakpoints ∧ b.Concerns script
  complete : ∀ b ∈ plan.breakpoints, b.Concerns script → 0 < b.line →
    b ∈ e.breakpointsOf script.id ∨ .setBreakpoint script.id b .add ∈ cs
  only : ∀ c ∈ cs, ∃ b ∈ plan.breakpoints, b.Concerns script ∧ c = .setBreakpoint script.id b .add

section

variable {plan : Plan} {e e' : Engine} {seen : List Snapshot} {next : Nat} {script : Snapshot}
  {cs ds : List Command}

/-- Only the breakpoints of an engine matter. -/
theorem Plan.Ready.of_same (h : plan.Ready e script) (he : e'.breakpoints = e.breakpoints) :
    plan.Ready e' script := by
  obtain ⟨hsound, hcomplete⟩ := h
  unfold Engine.breakpointsOf at hsound hcomplete
  rw [← he] at hsound hcomplete
  exact ⟨hsound, hcomplete⟩

theorem Installed.of_same (h : Installed plan e seen next) (he : e'.breakpoints = e.breakpoints) :
    Installed plan e' seen next := by
  refine ⟨h.old, ?_, fun s hs ht => (h.ready s hs ht).of_same he⟩
  intro id hid
  rw [Engine.breakpointsOf, he]
  exact h.fresh id hid

theorem Installing.of_same (h : Installing plan e seen next script cs)
    (he : e'.breakpoints = e.breakpoints) : Installing plan e' seen next script cs := by
  have hof (id : ScriptId) : e'.breakpointsOf id = e.breakpointsOf id := by
    rw [Engine.breakpointsOf, he]
    rfl
  refine ⟨h.new, h.old, ?_, fun s hs ht => (h.ready s hs ht).of_same he, ?_, ?_, h.only⟩
  · intro id
    rw [hof]
    exact h.fresh id
  · rw [hof]
    exact h.sound
  · rw [hof]
    exact h.complete

/-- A script that is not looked at is of no interest. -/
theorem Installed.skip (h : Installed plan e seen next) (hnew : next ≤ script.id.number)
    (ht : plan.tracks script = false) : Installed plan e (script :: seen) (script.id.number + 1) := by
  refine ⟨?_, ?_, ?_⟩
  · intro s hs
    rcases List.mem_cons.mp hs with rfl | hs
    · exact Nat.lt_succ_self _
    · exact Nat.lt_succ_of_lt (Nat.lt_of_lt_of_le (h.old s hs) hnew)
  · intro id hid
    exact h.fresh id (by omega)
  · intro s hs hs'
    rcases List.mem_cons.mp hs with rfl | hs
    · rw [ht] at hs'
      cases hs'
    · exact h.ready s hs hs'

/-- A script is loaded, and brings its commands. -/
theorem Installed.begin (h : Installed plan e seen next) (hnew : next ≤ script.id.number)
    (hcs : ∀ c, c ∈ cs ↔ ∃ b ∈ plan.breakpoints, b.Concerns script ∧
      c = .setBreakpoint script.id b .add) : Installing plan e seen next script cs where
  new := hnew
  old := h.old
  fresh id hid _ := h.fresh id hid
  ready := h.ready
  sound := by
    intro b hb
    rw [h.fresh script.id hnew] at hb
    cases hb
  complete b hb hconcerns _ := .inr ((hcs _).mpr ⟨b, hb, hconcerns, rfl⟩)
  only c hc := (hcs c).mp hc

namespace Installing

/-- A command that comes twice may be dropped once. -/
theorem thins (h : Installing plan e seen next script cs) (ht : Session.Thins cs ds) :
    Installing plan e seen next script ds := by
  obtain ⟨before, c, after, rfl, rfl, hc⟩ := ht
  refine { h with complete := ?_, only := ?_ }
  · intro b hb hconcerns hline
    refine (h.complete b hb hconcerns hline).imp_right fun hmem => ?_
    simp only [List.mem_append, List.mem_cons] at hmem ⊢
    rcases hmem with hmem | rfl | hmem
    · exact .inl hmem
    · exact .inl hc
    · exact .inr hmem
  · intro d hd
    refine h.only d ?_
    simp only [List.mem_append, List.mem_cons] at hd ⊢
    exact hd.imp_right .inr

/-- **The engine gets the next command.** -/
theorem install {c : Command} (h : Installing plan e seen next script (c :: cs)) :
    Installing plan (World.effectOnEngine e (.forward c)) seen next script cs := by
  obtain ⟨b, hb, hconcerns, rfl⟩ := h.only c List.mem_cons_self
  -- The marker aside, exactly the breakpoints of the script change.
  have hone : ∀ id, (World.effectOnEngine e
      (.forward (.setBreakpoint script.id b .add))).breakpointsOf id = e.breakpointsOf id ∨
      id = script.id ∧ (World.effectOnEngine e
        (.forward (.setBreakpoint script.id b .add))).breakpointsOf id =
          b.addTo (e.breakpointsOf id) := by
    intro id
    unfold World.effectOnEngine
    dsimp only
    split
    · exact .inl rfl
    · by_cases hid : id = script.id
      · refine .inr ⟨hid, ?_⟩
        rw [hid, Engine.breakpointsOf, Engine.apply, Table.get?_insert, if_pos rfl]
        rfl
      · refine .inl ?_
        rw [Engine.breakpointsOf, Engine.apply, Table.get?_insert, if_neg hid]
        rfl
  have hother (id : ScriptId) (hid : id ≠ script.id) : (World.effectOnEngine e
      (.forward (.setBreakpoint script.id b .add))).breakpointsOf id = e.breakpointsOf id := by
    rcases hone id with hsame | ⟨he, -⟩
    · exact hsame
    · exact absurd he hid
  refine ⟨h.new, h.old, ?_, ?_, ?_, ?_, ?_⟩
  · intro id hid hne
    rw [hother id hne]
    exact h.fresh id hid hne
  · intro s hs ht
    obtain ⟨hsound, hcomplete⟩ := h.ready s hs ht
    have hne : s.id ≠ script.id := by
      intro he
      have hlt := h.old s hs
      have hle := h.new
      rw [he] at hlt
      omega
    exact ⟨by rwa [hother s.id hne], by rwa [hother s.id hne]⟩
  · intro d hd
    rcases hone script.id with hsame | ⟨-, hadd⟩
    · rw [hsame] at hd
      exact h.sound d hd
    · rw [hadd, Breakpoint.mem_addTo] at hd
      rcases hd with hd | rfl
      · exact h.sound d hd
      · exact ⟨hb, hconcerns⟩
  · intro d hd hd' hline
    have hgrows (hin : d ∈ e.breakpointsOf script.id) : d ∈ (World.effectOnEngine e
        (.forward (.setBreakpoint script.id b .add))).breakpointsOf script.id := by
      rcases hone script.id with hsame | ⟨-, hadd⟩
      · rwa [hsame]
      · rw [hadd, Breakpoint.mem_addTo]
        exact .inl hin
    -- What had to be installed is this breakpoint, or was installed before, or is still to come.
    rcases h.complete d hd hd' hline with hin | hin
    · exact .inl (hgrows hin)
    · rcases List.mem_cons.mp hin with he | hin
      · left
        injection he with _ hdb
        subst hdb
        -- The marker is for line 0, hence the command is not taken for it.
        have hne : Command.setBreakpoint script.id d .add ≠ marker := by
          intro hm
          injection hm with _ hm
          rw [hm] at hline
          cases hline
        rw [World.effectOnEngine, if_neg hne, Engine.breakpointsOf, Engine.apply, Table.get?_insert,
          if_pos rfl]
        exact Breakpoint.mem_addTo.mpr (.inr rfl)
      · exact .inr hin
  · intro d hd
    exact h.only d (List.mem_cons_of_mem _ hd)

/-- **The last command has come.** -/
theorem finish (h : Installing plan e seen next script []) :
    Installed plan e (script :: seen) (script.id.number + 1) := by
  refine ⟨?_, ?_, ?_⟩
  · intro s hs
    rcases List.mem_cons.mp hs with rfl | hs
    · exact Nat.lt_succ_self _
    · exact Nat.lt_succ_of_lt (Nat.lt_of_lt_of_le (h.old s hs) h.new)
  · intro id hid
    have hne : id ≠ script.id := by
      rintro rfl
      omega
    have hle := h.new
    exact h.fresh id (by omega) hne
  · intro s hs ht
    rcases List.mem_cons.mp hs with rfl | hs
    · refine ⟨h.sound, ?_⟩
      intro b hb hconcerns hline
      rcases h.complete b hb hconcerns hline with hin | hin
      · exact hin
      · cases hin
    · exact h.ready s hs ht

end Installing

end

end Pausepoint
