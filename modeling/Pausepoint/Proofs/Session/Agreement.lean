import Pausepoint.Proofs.Session.ThreadReports
import Pausepoint.Session.Gate

/-!
# Pausepoint.Proofs.Session.Agreement

Gate and target about one thread.

The gate decides about a report long before the target sees it. What keeps both of one mind
is stated for a single thread, of the state it is in, of its lane, and of whether a decision
on it is being delivered:

* the reports in the lane make sense one after the other;
* the gate remembers a pause exactly if the lane leads to one, or if its decision is on its
  way from the target to the gate;
* the gate knows a thread only if the target will know it.

Each way a session changes is one lemma here (`Agreement.accepted`, `Agreement.arrive`,
`Agreement.decide`, `Agreement.release`).
-/

namespace Pausepoint

/-! ### Admission -/

namespace Gate

/-- The gate after it admitted a report about a thread. -/
def admitted (g : Gate) (n : Notification) (id : ThreadId) : Gate :=
  { g with
    known := if announces n then withThread id g.known else g.known
    paused := if n.isPause then withThread id g.paused else g.paused }

/-- **Admission of a report about a thread**: what must have held, and what is remembered. -/
theorem accept_thread {g g' : Gate} {n : Notification} {id : ThreadId} (hid : n.thread? = some id)
    (h : g.accept n = .ok g') :
    g.phase = .started ∧ id ∉ g.paused ∧ (announces n = false → id ∈ g.known) ∧
      g' = g.admitted n id := by
  have key : g.phase = .started ∧ g.acceptFrom id (announces n) n.isPause = .ok g' := by
    unfold accept at h
    split at h
    · cases h
    · cases n with
      | engineStarted => cases hid
      | engineTerminated => cases hid
      | scriptReady | stackFrames | suspended | resumed =>
          obtain rfl := Option.some.inj hid
          simp only at h
          split at h
          · cases h
          · cases h
          · next hphase => exact ⟨hphase, h⟩
  obtain ⟨hphase, hfrom⟩ := key
  unfold acceptFrom at hfrom
  split at hfrom
  · cases hfrom
  · next hknown =>
      split at hfrom
      · cases hfrom
      · next hpaused =>
          refine ⟨hphase, hpaused, fun ha => ?_, (Except.ok.inj hfrom).symm⟩
          simpa [ha] using hknown

/-- About a thread of an engine that has started, the gate asks whether it is known and whether it is
paused. -/
theorem accept_of_started {g : Gate} {n : Notification} {id : ThreadId} (hid : n.thread? = some id)
    (hopen : g.closed = false) (hphase : g.phase = .started) :
    g.accept n = g.acceptFrom id (announces n) n.isPause := by
  unfold accept
  rw [hopen]
  cases n with
  | engineStarted | engineTerminated => cases hid
  | scriptReady | stackFrames | suspended | resumed =>
      obtain rfl := Option.some.inj hid
      simp only [hphase, Bool.false_eq_true, if_false]

section

variable {g : Gate} {n : Notification} {id : ThreadId}

/-- A report about a thread is admitted once the engine has started, the thread has announced itself
or does so now, and it is not paused. -/
theorem accept_of_ready (hid : n.thread? = some id) (hopen : g.closed = false)
    (hphase : g.phase = .started) (hknown : announces n = true ∨ id ∈ g.known)
    (hpaused : id ∉ g.paused) : g.accept n = .ok (g.admitted n id) := by
  have hnot : ¬ (!announces n && decide (id ∉ g.known)) = true := by
    rcases hknown with h | h <;> simp [h]
  rw [accept_of_started hid hopen hphase, acceptFrom, if_neg hnot, if_neg hpaused]
  rfl

/-- A thread that is paused is refused for that alone. -/
theorem accept_of_paused (hid : n.thread? = some id) (hopen : g.closed = false)
    (hphase : g.phase = .started) (hknown : announces n = true ∨ id ∈ g.known)
    (hpaused : id ∈ g.paused) : g.accept n = .error (.pauseInFlight id) := by
  have hnot : ¬ (!announces n && decide (id ∉ g.known)) = true := by
    rcases hknown with h | h <;> simp [h]
  rw [accept_of_started hid hopen hphase, acceptFrom, if_neg hnot, if_pos hpaused]

end

/-- The start of an engine that has not ended is admitted. -/
theorem accept_engineStarted {g : Gate} (hopen : g.closed = false) (hphase : g.phase ≠ .ended) :
    g.accept .engineStarted = .ok { g with phase := .started } := by
  unfold accept
  rw [if_neg (by simp [hopen])]
  exact if_neg hphase

/-- Admission of anything else. -/
theorem accept_engine {g g' : Gate} {n : Notification} (hid : n.thread? = none)
    (h : g.accept n = .ok g') :
    n = .engineStarted ∧ g.phase ≠ .ended ∧ g' = { g with phase := .started } ∨
      n = .engineTerminated ∧ g' = { g with phase := .ended, paused := [] } := by
  unfold accept at h
  split at h
  · cases h
  · cases n with
    | engineStarted =>
        simp only at h
        split at h
        · cases h
        · next hphase => exact .inl ⟨rfl, hphase, (Except.ok.inj h).symm⟩
    | engineTerminated => exact .inr ⟨rfl, (Except.ok.inj h).symm⟩
    | scriptReady | stackFrames | suspended | resumed => cases hid

/-- Only an open gate admits anything, and it stays open. -/
theorem closed_of_accept {g g' : Gate} {n : Notification} (h : g.accept n = .ok g') :
    g.closed = false ∧ g'.closed = false := by
  have hc : g.closed = false := by
    unfold accept at h
    split at h
    · cases h
    · next hc => simpa using hc
  refine ⟨hc, ?_⟩
  cases hid : n.thread? with
  | none =>
      obtain ⟨-, -, rfl⟩ | ⟨-, rfl⟩ := accept_engine hid h
      · exact hc
      · exact hc
  | some id =>
      obtain ⟨-, -, -, rfl⟩ := accept_thread hid h
      exact hc

@[simp] theorem phase_admitted (g : Gate) (n : Notification) (id : ThreadId) :
    (g.admitted n id).phase = g.phase := rfl

@[simp] theorem phase_release (g : Gate) (id : ThreadId) : (g.release id).phase = g.phase := rfl

@[simp] theorem mem_paused_admitted {g : Gate} {n : Notification} {id other : ThreadId} :
    other ∈ (g.admitted n id).paused ↔ other ∈ g.paused ∨ n.isPause = true ∧ other = id := by
  unfold admitted
  cases n.isPause <;> simp [or_comm]

@[simp] theorem mem_known_admitted {g : Gate} {n : Notification} {id other : ThreadId} :
    other ∈ (g.admitted n id).known ↔ other ∈ g.known ∨ announces n = true ∧ other = id := by
  unfold admitted
  cases announces n <;> simp [or_comm]

@[simp] theorem mem_paused_release {g : Gate} {id other : ThreadId} :
    other ∈ (g.release id).paused ↔ other ∈ g.paused ∧ other ≠ id := by
  simp [release]

end Gate

/-! ### Agreement -/

/-- What the gate and the target agree on about a thread, with its state, its lane, and
whether the gate is about to learn of a decision on it. -/
structure Agreement (g : Gate) (id : ThreadId) (state : Option ThreadState)
    (ns : List Notification) (releasing : Prop) : Prop where
  /-- The thread has not ended. -/
  active : ∀ s ∈ state, s.IsActive
  /-- Its lane is about this thread. -/
  own : ∀ n ∈ ns, n.thread? = some id
  /-- The lane makes sense. -/
  fits : Fits state ns
  /-- A thread whose decision is being delivered reports nothing meanwhile. -/
  calm : releasing → settled state ns ≠ some .suspended
  /-- The gate remembers a pause until it learns of a decision on it. -/
  paused : g.phase ≠ .ended →
    (id ∈ g.paused ↔ settled state ns = some .suspended ∨ releasing)
  /-- The gate knows only threads that announced themselves. -/
  known : g.phase ≠ .ended → id ∈ g.known → settled state ns ≠ none

namespace Agreement

variable {g g' : Gate} {id other : ThreadId} {state : Option ThreadState}
  {ns : List Notification} {n : Notification} {releasing : Prop}

/-- Before anything is known of a thread. -/
theorem fresh {g : Gate} (hp : id ∉ g.paused) (hk : id ∉ g.known) :
    Agreement g id none [] False where
  active := by simp
  own := by simp
  fits := trivial
  calm := False.elim
  paused := by simp [hp]
  known := by simp [hk]

theorem active_settled (h : Agreement g id state ns releasing) :
    ∀ s ∈ settled state ns, s.IsActive := by
  obtain ⟨hactive, hown, -, -, -, -⟩ := h
  induction ns generalizing state with
  | nil => exact hactive
  | cons m ns ih =>
      exact ih (Notification.isActive_leads (hown m List.mem_cons_self) hactive)
        fun k hk => hown k (List.mem_cons_of_mem _ hk)

/-- Nothing in the lane of a thread that may report suspends it, and it awaits no decision. -/
theorem not_suspended_of_accept (h : Agreement g id state ns releasing) (hid : n.thread? = some id)
    (ha : g.accept n = .ok g') : settled state ns ≠ some .suspended := by
  obtain ⟨hphase, hpaused, -, -⟩ := Gate.accept_thread hid ha
  have hne : g.phase ≠ .ended := by rw [hphase]; decide
  exact fun hs => hpaused ((h.paused hne).mpr (.inl hs))

theorem not_releasing_of_accept (h : Agreement g id state ns releasing) (hid : n.thread? = some id)
    (ha : g.accept n = .ok g') : ¬ releasing := by
  obtain ⟨hphase, hpaused, -, -⟩ := Gate.accept_thread hid ha
  have hne : g.phase ≠ .ended := by rw [hphase]; decide
  exact fun hr => hpaused ((h.paused hne).mpr (.inr hr))

/-- **What is admitted makes sense** where the lane leads to. -/
theorem finds (h : Agreement g id state ns releasing) (hid : n.thread? = some id)
    (ha : g.accept n = .ok g') : n.Finds (settled state ns) := by
  have hns := h.not_suspended_of_accept hid ha
  obtain ⟨hphase, hpaused, hknown, -⟩ := Gate.accept_thread hid ha
  have hne : g.phase ≠ .ended := by rw [hphase]; decide
  have hruns : ∀ s ∈ settled state ns, s.Runs := fun s hs =>
    (h.active_settled s hs).resolve_left fun he => hns (he ▸ hs)
  have hthere : id ∈ g.known → ∃ s ∈ settled state ns, s.Runs := by
    intro hk
    obtain ⟨s, hs⟩ := Option.ne_none_iff_exists'.mp (h.known hne hk)
    exact ⟨s, hs, hruns s hs⟩
  cases n with
  | engineStarted => trivial
  | engineTerminated => trivial
  | scriptReady => exact hruns
  | stackFrames | suspended | resumed => exact hthere (hknown rfl)

theorem leads_eq_suspended_iff {n : Notification} {id : ThreadId} (hid : n.thread? = some id)
    {state : Option ThreadState} (hs : state ≠ some .suspended) :
    n.leads state = some .suspended ↔ n.isPause = true := by
  cases n with
  | engineStarted => cases hid
  | engineTerminated => cases hid
  | scriptReady | suspended => simp [Notification.leads, Notification.isPause]
  | stackFrames => simpa [Notification.leads, Notification.isPause] using hs
  | resumed thread mode =>
      simpa [Notification.leads, Notification.isPause] using mode.runs_resultingState.ne_suspended

theorem leads_ne_none {n : Notification} {state : Option ThreadState}
    (h : Gate.announces n = true ∨ state ≠ none) : n.leads state ≠ none := by
  cases n <;> simp_all [Notification.leads, Gate.announces]

/-- **A report is admitted and queued.** -/
theorem accepted (h : Agreement g id state ns releasing) (hid : n.thread? = some id)
    (ha : g.accept n = .ok g') : Agreement g' id state (ns ++ [n]) releasing := by
  have hfinds := h.finds hid ha
  have hns := h.not_suspended_of_accept hid ha
  have hnr := h.not_releasing_of_accept hid ha
  obtain ⟨hphase, hpaused, hknown, rfl⟩ := Gate.accept_thread hid ha
  have hne : g.phase ≠ .ended := by rw [hphase]; decide
  refine ⟨h.active, ?_, fits_snoc.mpr ⟨h.fits, hfinds⟩, fun hr => absurd hr hnr, ?_, ?_⟩
  · intro m hm
    rcases List.mem_append.mp hm with hm | hm
    · exact h.own m hm
    · rw [List.mem_singleton.mp hm]; exact hid
  · intro _
    simp only [Gate.mem_paused_admitted, settled_append, settled_cons, settled_nil,
      leads_eq_suspended_iff hid hns, iff_false_intro hpaused, iff_false_intro hnr,
      false_or, or_false, and_true]
  · intro _ hk
    simp only [settled_append, settled_cons, settled_nil]
    apply leads_ne_none
    rcases Gate.mem_known_admitted.mp hk with hk | hk
    · exact .inr (h.known hne hk)
    · exact .inl hk.1

/-- A report that is admitted while an equal one waits is no pause, and is forgotten. -/
theorem admit_duplicate (h : Agreement g id state ns releasing) (hid : n.thread? = some id)
    (ha : g.accept n = .ok g') (hmem : n ∈ ns) : Agreement g' id state ns releasing := by
  have hns := h.not_suspended_of_accept hid ha
  obtain ⟨-, -, -, rfl⟩ := Gate.accept_thread hid ha
  have hnot : n.isPause = false := by
    cases hp : n.isPause with
    | false => rfl
    | true => exact absurd (settled_of_pause h.own h.fits hmem hp) hns
  have hsame : g.admitted n id = g := by
    have hann : Gate.announces n = false := by
      cases n <;> simp_all [Notification.isPause, Gate.announces]
    simp [Gate.admitted, hnot, hann]
  rwa [hsame]

/-- A report about another thread makes no difference. -/
theorem admit_other (h : Agreement g id state ns releasing) (hid : n.thread? = some other)
    (hne : id ≠ other) (ha : g.accept n = .ok g') : Agreement g' id state ns releasing := by
  obtain ⟨-, -, -, rfl⟩ := Gate.accept_thread hid ha
  exact ⟨h.active, h.own, h.fits, h.calm, by simpa [hne] using h.paused, by simpa [hne] using h.known⟩

/-- The engine starts or ends. -/
theorem admit_engine (h : Agreement g id state ns releasing) (hid : n.thread? = none)
    (ha : g.accept n = .ok g') : Agreement g' id state ns releasing := by
  obtain ⟨-, hphase, rfl⟩ | ⟨-, rfl⟩ := Gate.accept_engine hid ha
  · exact ⟨h.active, h.own, h.fits, h.calm, fun _ => h.paused hphase, fun _ => h.known hphase⟩
  · exact ⟨h.active, h.own, h.fits, h.calm, fun hp => absurd rfl hp, fun hp => absurd rfl hp⟩

/-- **A report arrives** at the target, which it finds as it should. -/
theorem arrive (h : Agreement g id state (n :: ns) releasing) :
    Agreement g id (n.leads state) ns releasing where
  active := Notification.isActive_leads (h.own n List.mem_cons_self) h.active
  own := fun m hm => h.own m (List.mem_cons_of_mem _ hm)
  fits := h.fits.2
  calm := h.calm
  paused := h.paused
  known := h.known

/-- **A decision arrives** at the target, and is on its way to the gate. -/
theorem decide (h : Agreement g id (some .suspended) [] False) (mode : Mode) :
    Agreement g id (some mode.resultingState) [] True where
  active := by rintro s ⟨⟩; exact .inr mode.runs_resultingState
  own := h.own
  fits := trivial
  calm := fun _ hs => mode.runs_resultingState.ne_suspended (Option.some.inj hs)
  paused := fun hp => by simpa using h.paused hp
  known := fun _ _ => by simp

/-- **The gate learns of a decision.** -/
theorem release (h : Agreement g id state ns True) : Agreement (g.release id) id state ns False where
  active := h.active
  own := h.own
  fits := h.fits
  calm := False.elim
  paused := fun _ => by simpa using h.calm trivial
  known := h.known

/-- The gate learns of a decision on another thread. -/
theorem release_other (h : Agreement g id state ns releasing) (hne : id ≠ other) :
    Agreement (g.release other) id state ns releasing :=
  ⟨h.active, h.own, h.fits, h.calm, by simpa [hne] using h.paused, h.known⟩

end Agreement

end Pausepoint
