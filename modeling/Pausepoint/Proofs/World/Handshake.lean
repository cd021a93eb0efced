import Pausepoint.Proofs.World.Moves

/-!
# Pausepoint.Proofs.World.Handshake

The handshake of a pause, for one thread.

Four parties take part in a pause: the call that waits, its slot in the engine, the queue with
the gate in front of it, and the target. `Handshake` relates them for one thread, by the state
of the thread, its lane, its slot and the place its call is at:

* there is a slot exactly while a call reports or waits, and a decision in it only while the
  call waits;
* while the session is live, a call waits with an empty slot exactly if its lane leads to a
  suspension or the decision on it is on its way from the target to the engine;
* what suspended the thread is what its call reported, and a load is followed by a decision
  that is already queued.

There is one lemma here per step of a call (`Handshake.openSlot` and following) and per way a
session changes (`Handshake.arrive`, `Handshake.decide`, `Handshake.hand`).
-/

namespace Pausepoint

/-- A pause of a thread reports what it is: a load announces a script, a line stops. -/
structure Pause.ShapedFor (p : Pause) (thread : ThreadId) : Prop where
  load : p.keepStep = true → ∃ script root, p.report = .scriptReady thread script root
  line : p.keepStep = false → ∃ frames reason, p.report = .suspended thread frames reason

namespace Pause.ShapedFor

variable {p : Pause} {thread : ThreadId}

theorem report_cases (h : p.ShapedFor thread) :
    (∃ script root, p.report = .scriptReady thread script root) ∨
      ∃ frames reason, p.report = .suspended thread frames reason := by
  cases hk : p.keepStep with
  | true => exact .inl (h.load hk)
  | false => exact .inr (h.line hk)

theorem thread? (h : p.ShapedFor thread) : p.report.thread? = some thread := by
  rcases h.report_cases with ⟨script, root, hr⟩ | ⟨frames, reason, hr⟩
  · rw [hr]
    rfl
  · rw [hr]
    rfl

theorem isPause (h : p.ShapedFor thread) : p.report.isPause = true := by
  rcases h.report_cases with ⟨script, root, hr⟩ | ⟨frames, reason, hr⟩
  · rw [hr]
    rfl
  · rw [hr]
    rfl

theorem leads (h : p.ShapedFor thread) (state : Option ThreadState) :
    p.report.leads state = some .suspended :=
  p.report.leads_of_pause h.isPause state

end Pause.ShapedFor

/-- An engine decides only on a pause that the request is. -/
theorem Engine.pause?_of_decide {e : Engine} {thread : ThreadId} {r : Request} {p : Pause}
    (h : e.decide thread r = .pause p) : e.pause? thread r = some p := by
  unfold decide at h
  split at h
  · cases h
  · cases h
  · split at h
    · split at h
      · next hp => cases h; exact hp
      · cases h
    · cases h

/-- A request is only a pause of this shape. -/
theorem Engine.shaped_of_pause {e : Engine} {thread : ThreadId} {r : Request} {p : Pause}
    (h : e.pause? thread r = some p) : p.ShapedFor thread := by
  cases r with
  | load script depth =>
      cases h
      exact ⟨fun _ => ⟨_, _, rfl⟩, nofun⟩
  | line script line depth frames =>
      obtain ⟨reason, -, rfl⟩ := Option.map_eq_some_iff.mp h
      exact ⟨nofun, fun _ => ⟨_, _, rfl⟩⟩

theorem Engine.shaped_of_decide {e : Engine} {thread : ThreadId} {r : Request} {p : Pause}
    (h : e.decide thread r = .pause p) : p.ShapedFor thread :=
  shaped_of_pause (pause?_of_decide h)

/-! ### Places of a call -/

namespace Phase

/-- The pause a call is for, while it has a slot. -/
def slotted? : Phase → Option Pause
  | .reporting p | .waiting p => some p
  | .entering _ | .opening _ | .confirming _ | .abandoning _ | .excusing _ | .returned _ => none

/-- The pause a call is for, until there is a decision on it. -/
def pause? : Phase → Option Pause
  | .opening p | .reporting p | .waiting p => some p
  | .entering _ | .confirming _ | .abandoning _ | .excusing _ | .returned _ => none

/-- Has the call given up? -/
def gaveUp : Phase → Bool
  | .abandoning _ | .excusing _ => true
  | _ => false

end Phase

/-- The call waits. -/
def Waits (phase : Option Phase) : Prop :=
  ∃ p, phase = some (.waiting p)

/-- The call is one that never gave up and has no slot. -/
structure Slotless (thread : ThreadId) (phase : Option Phase) : Prop where
  slotted : phase.bind Phase.slotted? = none
  shaped : ∀ p ∈ phase.bind Phase.pause?, p.ShapedFor thread
  gaveUp : phase.any Phase.gaveUp = false

theorem Slotless.not_waits {thread : ThreadId} {phase : Option Phase} (h : Slotless thread phase) :
    ¬ Waits phase := by
  rintro ⟨p, rfl⟩
  cases h.slotted

/-! ### The handshake -/

/-- How the call of a thread, its slot, its lane and its state fit together. `handing` says that
a decision is on its way from the target to the engine, `resuming` that one is queued. -/
structure Handshake (thread : ThreadId) (live : Prop) (standing : Option (ThreadState × Option Reason))
    (ns : List Notification) (handing resuming : Prop) (slot : Option (Option Mode))
    (phase : Option Phase) : Prop where
  /-- There is a slot while a call reports or waits. -/
  slotted : slot.isSome = (phase.bind Phase.slotted?).isSome
  /-- There is a decision in it only while the call waits. -/
  decided : ∀ mode, slot = some (some mode) → Waits phase
  shaped : ∀ p ∈ phase.bind Phase.pause?, p.ShapedFor thread
  gaveUp : phase.any Phase.gaveUp = false
  /-- A decision on its way finds a call that waits, and its slot empty. -/
  handed : handing → slot = some none ∧ Waits phase
  /-- It is the only one. -/
  single : live → handing → settled (standing.map Prod.fst) ns ≠ some .suspended
  /-- A call waits with an empty slot exactly while the thread is about to be suspended, is
  suspended, or is about to be decided on. -/
  awaits : live → ((settled (standing.map Prod.fst) ns = some .suspended ∨ handing) ↔
    slot = some none ∧ Waits phase)
  /-- What suspends the thread is what the call reported. -/
  source : live → ¬ handing → slot = some none → ∀ p, phase = some (.waiting p) →
    ns.getLast? = some p.report ∨
      ns = [] ∧ standing = some (.suspended, p.report.reason?) ∧ (p.keepStep = true → resuming)

namespace Handshake

variable {thread : ThreadId} {live live' : Prop} {standing standing' : Option (ThreadState × Option Reason)}
  {ns : List Notification} {handing handing' resuming resuming' : Prop}
  {slot : Option (Option Mode)} {phase phase' : Option Phase} {p : Pause}

/-- A thread without a call. -/
theorem fresh (thread : ThreadId) (live : Prop) :
    Handshake thread live none [] False False none none where
  slotted := rfl
  decided := nofun
  shaped := nofun
  gaveUp := rfl
  handed := False.elim
  single _ := False.elim
  awaits _ := by simp
  source _ _ := nofun

/-- A session that is over is only asked for its slots. -/
theorem dead (h : Handshake thread live standing ns handing resuming slot phase) (hl : ¬ live')
    (hh : handing' → handing) {ns' : List Notification} :
    Handshake thread live' standing' ns' handing' resuming' slot phase where
  slotted := h.slotted
  decided := h.decided
  shaped := h.shaped
  gaveUp := h.gaveUp
  handed hh' := h.handed (hh hh')
  single hl' := absurd hl' hl
  awaits hl' := absurd hl' hl
  source hl' := absurd hl' hl

/-- A step that concerns others. A decision that is queued stays so while it is needed. -/
theorem frame (h : Handshake thread live standing ns handing resuming slot phase)
    (hl : live' → live)
    (hr : live' → standing.map Prod.fst = some .suspended → resuming → resuming') :
    Handshake thread live' standing ns handing resuming' slot phase where
  slotted := h.slotted
  decided := h.decided
  shaped := h.shaped
  gaveUp := h.gaveUp
  handed := h.handed
  single hl' := h.single (hl hl')
  awaits hl' := h.awaits (hl hl')
  source hl' hh hs p hp := by
    rcases h.source (hl hl') hh hs p hp with hlast | ⟨hnil, hstand, hload⟩
    · exact .inl hlast
    · exact .inr ⟨hnil, hstand, fun hk => hr hl' (by rw [hstand]; rfl) (hload hk)⟩

/-! ### Steps of the call -/

theorem slot_of_slotless (h : Handshake thread live standing ns handing resuming slot phase)
    (hs : Slotless thread phase) : slot = none := by
  have := h.slotted
  rw [hs.slotted] at this
  simpa using this

/-- A call without a slot is not handed anything. -/
theorem not_handing (h : Handshake thread live standing ns handing resuming slot phase)
    (hw : ¬ Waits phase) : ¬ handing := fun hh => hw (h.handed hh).2

theorem not_suspended (h : Handshake thread live standing ns handing resuming slot phase)
    (hl : live) (hw : ¬ Waits phase) : settled (standing.map Prod.fst) ns ≠ some .suspended :=
  fun hs => hw ((h.awaits hl).mp (.inl hs)).2

/-- The step of a call that has no slot, to a place where it has none either. What it may report
suspends nobody. -/
theorem slotless (h : Handshake thread live standing ns handing resuming slot phase)
    (hs : Slotless thread phase) (hs' : Slotless thread phase') {ns' : List Notification}
    (hns : live → settled (standing.map Prod.fst) ns' ≠ some .suspended) :
    Handshake thread live standing ns' handing resuming slot phase' where
  slotted := by rw [h.slot_of_slotless hs, hs'.slotted]; rfl
  decided := by rw [h.slot_of_slotless hs]; nofun
  shaped := hs'.shaped
  gaveUp := hs'.gaveUp
  handed hh := absurd hh (h.not_handing hs.not_waits)
  single hl _ := hns hl
  awaits hl := by
    simp [hns hl, h.not_handing hs.not_waits, hs'.not_waits]
  source _ _ hslot := by rw [h.slot_of_slotless hs] at hslot; cases hslot

/-- **The slot is opened.** -/
theorem openSlot (h : Handshake thread live standing ns handing resuming slot (some (.opening p))) :
    Handshake thread live standing ns handing resuming (some none) (some (.reporting p)) := by
  have hw : ¬ Waits (some (.opening p)) := by rintro ⟨q, hq⟩; cases hq
  have hw' : ¬ Waits (some (.reporting p)) := by rintro ⟨q, hq⟩; cases hq
  exact
    { slotted := rfl
      decided := nofun
      shaped := h.shaped
      gaveUp := rfl
      handed := fun hh => absurd hh (h.not_handing hw)
      single := h.single
      awaits := fun hl => by simp [h.not_suspended hl hw, h.not_handing hw, hw']
      source := fun _ _ _ q hq => by cases hq }

theorem slot_of_reporting
    (h : Handshake thread live standing ns handing resuming slot (some (.reporting p))) :
    slot = some none := by
  obtain ⟨content, hslot⟩ : ∃ content, slot = some content := Option.isSome_iff_exists.mp h.slotted
  cases content with
  | none => exact hslot
  | some mode =>
      obtain ⟨q, hq⟩ := h.decided mode hslot
      cases hq

/-- **The pause is reported**, and waits in the lane. -/
theorem report (h : Handshake thread live standing ns handing resuming slot (some (.reporting p))) :
    Handshake thread live standing (ns ++ [p.report]) handing resuming slot (some (.waiting p)) := by
  have hw : ¬ Waits (some (.reporting p)) := by rintro ⟨q, hq⟩; cases hq
  have hslot := h.slot_of_reporting
  have hshape := h.shaped p rfl
  have hsettled : settled (standing.map Prod.fst) (ns ++ [p.report]) = some .suspended := by
    rw [settled_append, settled_cons, settled_nil, hshape.leads]
  exact
    { slotted := h.slotted
      decided := fun _ _ => ⟨p, rfl⟩
      shaped := h.shaped
      gaveUp := rfl
      handed := fun hh => absurd hh (h.not_handing hw)
      single := fun _ hh => absurd hh (h.not_handing hw)
      awaits := fun _ => by simp [hsettled, hslot, Waits]
      source := fun _ _ _ q hq => by
        cases hq
        exact .inl (by simp) }

/-- The slot of a call is dropped, and the call goes on without. -/
theorem drop (hs' : Slotless thread phase') (hh : ¬ handing)
    (hns : live → settled (standing.map Prod.fst) ns ≠ some .suspended) :
    Handshake thread live standing ns handing resuming none phase' where
  slotted := by rw [hs'.slotted]; rfl
  decided := nofun
  shaped := hs'.shaped
  gaveUp := hs'.gaveUp
  handed := fun hh' => absurd hh' hh
  single hl _ := hns hl
  awaits hl := by simp [hns hl, hh]
  source _ _ := nofun

/-- A decision in the slot was the last of its pause. -/
theorem calm_of_decided (h : Handshake thread live standing ns handing resuming slot phase)
    {mode : Mode} (hslot : slot = some (some mode)) :
    ¬ handing ∧ (live → settled (standing.map Prod.fst) ns ≠ some .suspended) := by
  refine ⟨fun hh => ?_, fun hl hs => ?_⟩
  · have := (h.handed hh).1
    rw [hslot] at this
    cases this
  · have := ((h.awaits hl).mp (.inl hs)).1
    rw [hslot] at this
    cases this

/-! ### Steps of the session -/

/-- **A report arrives** at the target. A load brings its decision with it. -/
theorem arrive {n : Notification}
    (h : Handshake thread live standing (n :: ns) False resuming slot phase)
    (hown : n.thread? = some thread) (hl : live)
    (hstate : standing'.map Prod.fst = n.leads (standing.map Prod.fst))
    (hlast : n.isPause = true → standing'.map Prod.snd = some n.reason? ∧ ns = [])
    (hload : (∃ script root, n = .scriptReady thread script root) → resuming') :
    Handshake thread live standing' ns False resuming' slot phase where
  slotted := h.slotted
  decided := h.decided
  shaped := h.shaped
  gaveUp := h.gaveUp
  handed := False.elim
  single _ := False.elim
  awaits hl := by rw [hstate]; exact h.awaits hl
  source _ hh hslot p hp := by
    rcases h.source hl hh hslot p hp with hlast' | ⟨hnil, -⟩
    · cases ns with
      | cons m rest => exact .inl (by simpa using hlast')
      | nil =>
          obtain rfl : n = p.report := by simpa using hlast'
          have hshape := h.shaped p (by rw [hp]; rfl)
          obtain ⟨hreason, -⟩ := hlast hshape.isPause
          refine .inr ⟨rfl, ?_, fun hk => hload (hshape.load hk)⟩
          obtain ⟨⟨state, reason⟩, hstand, hsnd⟩ := Option.map_eq_some_iff.mp hreason
          rw [hshape.leads, hstand] at hstate
          obtain rfl : state = .suspended := Option.some.inj hstate
          rw [hstand, ← hsnd]
    · cases hnil

/-- **A decision arrives** at the target, and is on its way to the engine. -/
theorem decide {reason : Option Reason} {state : ThreadState}
    (h : Handshake thread live (some (.suspended, reason)) [] False resuming slot phase) (hl : live)
    (hstate : state.Runs) (hstand : standing'.map Prod.fst = some state) :
    Handshake thread live standing' [] True resuming' slot phase := by
  have hboth := (h.awaits hl).mp (.inl rfl)
  have hne : settled (standing'.map Prod.fst) [] ≠ some .suspended := by
    rw [hstand]
    exact fun he => hstate.ne_suspended (Option.some.inj he)
  exact
    { slotted := h.slotted
      decided := h.decided
      shaped := h.shaped
      gaveUp := h.gaveUp
      handed := fun _ => hboth
      single := fun _ _ => hne
      awaits := fun _ => by simp [hboth.1, hboth.2]
      source := fun _ hh => absurd trivial hh }

/-- **The engine is handed the decision.** -/
theorem hand (h : Handshake thread live standing ns True resuming slot phase) (mode : Mode) :
    Handshake thread live standing ns False resuming (some (some mode)) phase := by
  obtain ⟨hslot, hw⟩ := h.handed trivial
  refine ⟨?_, fun _ _ => hw, h.shaped, h.gaveUp, False.elim, fun _ => False.elim, fun hl => ?_,
    fun _ _ => nofun⟩
  · rw [← h.slotted, hslot]
    rfl
  · simp [h.single hl trivial]

end Handshake

end Pausepoint
