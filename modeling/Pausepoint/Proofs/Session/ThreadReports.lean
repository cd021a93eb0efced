import Pausepoint.Proofs.Session.Target

/-!
# Pausepoint.Proofs.Session.ThreadReports

What waits in a queue about one thread.

The gate decides about a report when it is submitted, the target when it is dispatched;
between the two lies the lane of the thread, the reports about it that wait. Commands are no
part of a lane: a decision is never wrong to wait, since the target drops the ones that come
at the wrong time.

* `lane` — the reports about a thread, oldest first;
* `Fits` — they make sense one after the other, from the state the thread is in;
* `settled` — the state they will have led the thread to;
* `Heralded` — no report about any thread comes before the start of the engine.
-/

namespace Pausepoint

/-! ### Lanes -/

/-- The report about a thread that an event is, if it is one. -/
def Event.about? (id : ThreadId) : Event → Option Notification
  | .notification n => if n.thread? = some id then some n else none
  | .command _ => none

/-- The reports about a thread among some events. -/
def lane (id : ThreadId) (events : List Event) : List Notification :=
  events.filterMap (Event.about? id)

@[simp] theorem lane_nil (id : ThreadId) : lane id [] = [] := rfl

@[simp] theorem lane_append (id : ThreadId) (events later : List Event) :
    lane id (events ++ later) = lane id events ++ lane id later :=
  List.filterMap_append

@[simp] theorem lane_cons_command (id : ThreadId) (c : Command) (events : List Event) :
    lane id (.command c :: events) = lane id events := rfl

theorem lane_cons_self {id : ThreadId} {n : Notification} (h : n.thread? = some id)
    (events : List Event) : lane id (.notification n :: events) = n :: lane id events := by
  simp [lane, Event.about?, h]

theorem lane_cons_of_ne {id : ThreadId} {n : Notification} (h : n.thread? ≠ some id)
    (events : List Event) : lane id (.notification n :: events) = lane id events := by
  simp [lane, Event.about?, h]

/-- Commands are in nobody's lane. -/
theorem lane_commands (id : ThreadId) (cs : List Command) : lane id (cs.map .command) = [] := by
  simp [lane, Event.about?]

theorem mem_lane {id : ThreadId} {n : Notification} {events : List Event} :
    n ∈ lane id events ↔ .notification n ∈ events ∧ n.thread? = some id := by
  simp only [lane, List.mem_filterMap]
  constructor
  · rintro ⟨e, he, h⟩
    cases e with
    | command c => cases h
    | notification m =>
        simp only [Event.about?, Option.ite_none_right_eq_some, Option.some.injEq] at h
        obtain ⟨hm, rfl⟩ := h
        exact ⟨he, hm⟩
  · rintro ⟨he, h⟩
    exact ⟨.notification n, he, by simp [Event.about?, h]⟩

/-! ### Reports one after the other -/

/-- Each report makes sense in the state that those before it have led to. -/
def Fits : Option ThreadState → List Notification → Prop
  | _, [] => True
  | state, n :: rest => n.Finds state ∧ Fits (n.leads state) rest

/-- The state that reports lead to. -/
def settled (state : Option ThreadState) (ns : List Notification) : Option ThreadState :=
  ns.foldl (fun state n => n.leads state) state

@[simp] theorem settled_nil (state : Option ThreadState) : settled state [] = state := rfl

@[simp] theorem settled_cons (state : Option ThreadState) (n : Notification)
    (ns : List Notification) : settled state (n :: ns) = settled (n.leads state) ns := rfl

@[simp] theorem settled_append (state : Option ThreadState) (ns later : List Notification) :
    settled state (ns ++ later) = settled (settled state ns) later := by
  simp [settled]

theorem fits_append {state : Option ThreadState} {ns later : List Notification} :
    Fits state (ns ++ later) ↔ Fits state ns ∧ Fits (settled state ns) later := by
  induction ns generalizing state with
  | nil => simp [Fits]
  | cons n ns ih => simp [Fits, ih, and_assoc]

/-- One report more at the end. -/
theorem fits_snoc {state : Option ThreadState} {ns : List Notification} {n : Notification} :
    Fits state (ns ++ [n]) ↔ Fits state ns ∧ n.Finds (settled state ns) := by
  simp [fits_append, Fits]

/-- A report about a thread finds it running, if it finds it at all. -/
theorem Notification.Finds.runs {n : Notification} {id : ThreadId} (hid : n.thread? = some id)
    {s : ThreadState} (h : n.Finds (some s)) : s.Runs := by
  cases n with
  | engineStarted => cases hid
  | engineTerminated => cases hid
  | scriptReady => exact h s rfl
  | stackFrames | suspended | resumed =>
      obtain ⟨_, ⟨⟩, hs⟩ := h
      exact hs

theorem ThreadState.Runs.ne_suspended {s : ThreadState} (h : s.Runs) : s ≠ .suspended := by
  rcases h with rfl | rfl <;> decide

/-- A thread that is heard of is either running or suspended, as long as its session is not over. -/
def ThreadState.IsActive (s : ThreadState) : Prop :=
  s = .suspended ∨ s.Runs

theorem Notification.isActive_leads {n : Notification} {id : ThreadId} (hid : n.thread? = some id)
    {state : Option ThreadState} (h : ∀ s ∈ state, s.IsActive) : ∀ s ∈ n.leads state, s.IsActive := by
  cases n with
  | engineStarted => cases hid
  | engineTerminated => cases hid
  | scriptReady => rintro s ⟨⟩; exact .inl rfl
  | stackFrames => exact h
  | suspended => rintro s ⟨⟩; exact .inl rfl
  | resumed thread mode => rintro s ⟨⟩; exact .inr mode.runs_resultingState

/-- Nothing waits about a thread that is suspended: a suspended thread reports nothing. -/
theorem eq_nil_of_fits_suspended {id : ThreadId} {ns : List Notification}
    (hown : ∀ n ∈ ns, n.thread? = some id) (h : Fits (some .suspended) ns) : ns = [] := by
  cases ns with
  | nil => rfl
  | cons n ns => exact absurd rfl (h.1.runs (hown n List.mem_cons_self)).ne_suspended

theorem Notification.leads_of_pause {n : Notification} (hp : n.isPause = true)
    (state : Option ThreadState) : n.leads state = some .suspended := by
  cases n with
  | scriptReady | suspended => rfl
  | engineStarted | engineTerminated | stackFrames | resumed => cases hp

/-- Nothing comes after a pause. -/
theorem eq_nil_of_fits_pause {id : ThreadId} {state : Option ThreadState} {n : Notification}
    {ns : List Notification} (hown : ∀ m ∈ ns, m.thread? = some id) (hp : n.isPause = true)
    (h : Fits state (n :: ns)) : ns = [] := by
  obtain ⟨-, hrest⟩ := h
  rw [n.leads_of_pause hp] at hrest
  exact eq_nil_of_fits_suspended hown hrest

/-- A pause that waits is the last report about its thread. -/
theorem last_of_pause {id : ThreadId} {state : Option ThreadState} {ns : List Notification}
    (hown : ∀ n ∈ ns, n.thread? = some id) (h : Fits state ns) {n : Notification} (hn : n ∈ ns)
    (hp : n.isPause = true) : ∃ before, ns = before ++ [n] := by
  obtain ⟨before, after, rfl⟩ := List.append_of_mem hn
  obtain ⟨-, hafter⟩ := fits_append.mp h
  have hown' (m) (hm : m ∈ after) : m.thread? = some id :=
    hown m (List.mem_append_right _ (List.mem_cons_of_mem _ hm))
  rw [eq_nil_of_fits_pause hown' hp hafter]
  exact ⟨before, rfl⟩

theorem settled_of_pause {id : ThreadId} {state : Option ThreadState} {ns : List Notification}
    (hown : ∀ n ∈ ns, n.thread? = some id) (h : Fits state ns) {n : Notification} (hn : n ∈ ns)
    (hp : n.isPause = true) : settled state ns = some .suspended := by
  obtain ⟨before, rfl⟩ := last_of_pause hown h hn hp
  rw [settled_append, settled_cons, settled_nil]
  exact n.leads_of_pause hp _

/-! ### The start of the engine -/

/-- Reports about threads come after the start of the engine. -/
def Heralded : List Event → Prop
  | [] => True
  | .notification .engineStarted :: _ => True
  | .notification n :: rest => n.thread? = none ∧ Heralded rest
  | .command _ :: rest => Heralded rest

theorem heralded_append {events : List Event} (h : Heralded events) {later : List Event}
    (hl : .notification .engineStarted ∈ events ∨ Heralded later) : Heralded (events ++ later) := by
  induction events with
  | nil => simpa using hl
  | cons e rest ih =>
      cases e with
      | command c => exact ih h (by simpa using hl)
      | notification n =>
          cases n with
          | engineStarted => trivial
          | engineTerminated => exact ⟨rfl, ih h.2 (by simpa using hl)⟩
          | scriptReady | stackFrames | suspended | resumed => exact absurd h.1 (by simp [Notification.thread?])

theorem heralded_commands (cs : List Command) : Heralded (cs.map .command) := by
  induction cs with
  | nil => trivial
  | cons c cs ih => exact ih

/-- Before the start nothing waits about a thread in front. -/
theorem heralded_cons {n : Notification} (hn : n ≠ .engineStarted) {rest : List Event}
    (h : Heralded (.notification n :: rest)) : n.thread? = none ∧ Heralded rest := by
  cases n with
  | engineStarted => exact absurd rfl hn
  | engineTerminated | scriptReady | stackFrames | suspended | resumed => exact h

/-- So a queue with a report about a thread in front is past the start. -/
theorem not_heralded {n : Notification} {id : ThreadId} (hid : n.thread? = some id) (rest : List Event) :
    ¬ Heralded (.notification n :: rest) := by
  intro h
  have hne : n ≠ .engineStarted := by
    rintro rfl
    cases hid
  cases hid.symm.trans (heralded_cons hne h).1

/-- A report about no thread may come at any time. -/
theorem heralded_single {n : Notification} (hid : n.thread? = none) : Heralded [.notification n] := by
  cases n with
  | engineStarted => trivial
  | engineTerminated => exact ⟨rfl, trivial⟩
  | scriptReady | stackFrames | suspended | resumed => cases hid

end Pausepoint
