import Pausepoint.Proofs.Session.Sifting
import Pausepoint.Proofs.World.Repetition

/-!
# Pausepoint.Proofs.World.SessionPair

Two sessions that get the same calls, of which one drops duplicates.

The two are run side by side (`SessionPair`). Every call is made in both, and every step of the dispatchers is
made by both, but for an event that the frugal queue has dropped: the plain dispatcher handles it by itself,
while the frugal one waits. So the two are compared at corresponding moments, and whatever may happen between
two steps may happen there as well.

* `SessionPair.Step` — one step of both;
* `SessionPair.Covered` — the condition under which nothing is lost;
* `Bridge.Vouches` — why an event may be dropped, seen from the session that has dropped it.

Proof shape: an event that is dropped is equal to one that waits (`Bridge.vouches_of_mem`). Once that one is
taken the other is in force (`Bridge.Vouches.take`), and stays so until its turn comes, because whatever would
unsettle it is not among the events between them. A pause of its thread is not, since reports are refused and
decisions are not asked for while a pause waits; and what undoes it is not, since it was covered.
-/

namespace Pausepoint

/-! ### The two sessions -/

namespace Bridge

/-- A call of the session. -/
def call (b : Bridge) (c : Call) : Bridge :=
  { b with session := c.run b.session }

/-- One step of the dispatcher: the next task, or else the next event. -/
def dispatch? (b : Bridge) : Option Bridge :=
  match b.session.perform? with
  | some (task, session) => some { session, engine := World.effectOnEngine b.engine task }
  | none => b.session.take?.map fun session => { b with session }

end Bridge

/-- A call by which nobody gives up on a pause, nor asks for the end of the scripts. -/
def Call.IsPatient : Call → Prop
  | .abandonPause _ | .control .terminate => False
  | _ => True

/-- No event was dropped while an event that undoes it waits behind the equal one. -/
def AllCovered (waiting : List (Event × Bool)) : Prop :=
  ∀ before e after, waiting = before ++ (e, true) :: after →
    ∀ first second, kept before = first ++ e :: second → ∀ x ∈ second, x.undoes e = false

/-- Two sessions, each with its engine, that get the same calls. -/
structure SessionPair where
  /-- The one that keeps every event. -/
  plain : Bridge
  /-- The one that drops an event while an equal one waits. -/
  frugal : Bridge
  /-- What waits in the plain queue, and whether the frugal one has dropped it. -/
  waiting : List (Event × Bool) := []

namespace SessionPair

/-- Two sessions with the same settings but for duplicates, before anything was dispatched. -/
def start (settings : DebuggerSettings) : SessionPair :=
  { plain := ⟨.create { settings with dedupeQueuedEvents := false }, .create settings⟩
    frugal := ⟨.create { settings with dedupeQueuedEvents := true }, .create settings⟩ }

/-- The two sessions after both, or one of them, did something. -/
def after (w : SessionPair) (plain frugal : Bridge) : SessionPair :=
  { plain, frugal, waiting := restated w.waiting plain.session.queue.events }

/-- Both sessions get the same call. -/
def call (w : SessionPair) (c : Call) : SessionPair :=
  w.after (w.plain.call c) (w.frugal.call c)

/-- Is the plain dispatcher at an event that the frugal queue has dropped, or is such an event the next
one? -/
def isAside (w : SessionPair) : Bool :=
  w.frugal.session.worker.agenda.isEmpty &&
    (!w.plain.session.worker.agenda.isEmpty ||
      !w.plain.session.queue.cancelled && w.waiting.head?.any Prod.snd)

/-- One step of the dispatchers. Both make the same one, but for an event that the frugal queue has
dropped, which the plain one dispatches by itself. -/
def dispatch? (w : SessionPair) : Option SessionPair :=
  if w.isAside then w.plain.dispatch?.map fun plain => w.after plain w.frugal
  else match w.plain.dispatch?, w.frugal.dispatch? with
    | some plain, some frugal => some (w.after plain frugal)
    | _, _ => none

/-- What happens to both. -/
inductive Move
  /-- Either side makes a call. -/
  | call (c : Call)
  /-- The dispatchers make a step. -/
  | dispatch

/-- One step of both. -/
inductive Step : SessionPair → Move → SessionPair → Prop
  | call (w : SessionPair) {c : Call} (hc : c.IsPatient) : Step w (.call c) (w.call c)
  | dispatch {w w' : SessionPair} (h : w.dispatch? = some w') : Step w .dispatch w'

/-- Of the events that wait, none was dropped while one that undoes it waits behind the equal one. -/
def Covered (w : SessionPair) : Prop :=
  AllCovered w.waiting

end SessionPair

/-! ### What is dropped makes no difference -/

namespace Bridge

/-- A session may drop an event behind the events `ahead`: an equal one is among them and nothing behind
that one unsettles it, or it is in force and nothing among them unsettles it. -/
structure Vouches (b : Bridge) (ahead : List Event) (e : Event) : Prop where
  calm : e.isPause = false
  lasting : e ≠ .command .terminate
  stands : (∃ first second, ahead = first ++ e :: second ∧ ∀ x ∈ second, ¬ x.Unsettles e) ∨
    e.InForce b.session.target (b.session.outlook b.engine) ∧ ∀ x ∈ ahead, ¬ x.Unsettles e

/-- It may drop every event that it has dropped of those that wait. -/
def VouchesAll (b : Bridge) (waiting : List (Event × Bool)) : Prop :=
  ∀ before e after, waiting = before ++ (e, true) :: after → b.Vouches (kept before) e

variable {b b' : Bridge} {e x : Event} {ahead rest : List Event} {waiting : List (Event × Bool)}

theorem vouchesAll_nil (b : Bridge) : b.VouchesAll [] := by
  intro before e after hsplit
  have hlength := congrArg List.length hsplit
  simp at hlength

theorem Vouches.congr (h : b.Vouches ahead e) (ht : b.session.target.Matches b'.session.target)
    (hengine : (b.session.outlook b.engine).SameBreakpoints (b'.session.outlook b'.engine)) :
    b'.Vouches ahead e :=
  ⟨h.calm, h.lasting, h.stands.imp_right fun hforce => ⟨hforce.1.congr ht hengine, hforce.2⟩⟩

theorem VouchesAll.congr (h : b.VouchesAll waiting) (ht : b.session.target.Matches b'.session.target)
    (hengine : (b.session.outlook b.engine).SameBreakpoints (b'.session.outlook b'.engine)) :
    b'.VouchesAll waiting :=
  fun before e after hsplit => (h before e after hsplit).congr ht hengine

/-- **An event that is dropped** is one that the session may drop, if no pause of its thread waits, and
nothing behind the equal one undoes it. -/
theorem vouches_of_mem (hmem : e ∈ ahead) (hlasting : e ≠ .command .terminate)
    (hpaused : ∀ x ∈ ahead, x.isPause = true → ∀ id, x.subject? = some id → e.subject? ≠ some id)
    (hcovered : ∀ first second, ahead = first ++ e :: second → ∀ x ∈ second, x.undoes e = false) :
    b.Vouches ahead e where
  calm := by
    refine Bool.eq_false_iff.mpr fun hp => ?_
    obtain ⟨id, hid⟩ := Event.exists_subject_of_pause hp
    exact hpaused e hmem hp id hid hid
  lasting := hlasting
  stands := by
    obtain ⟨first, second, hsplit⟩ := List.append_of_mem hmem
    refine .inl ⟨first, second, hsplit, fun x hx hunsettles => ?_⟩
    obtain hundoes | ⟨hp, id, hid, hsubject⟩ := hunsettles
    · rw [hcovered first second hsplit x hx] at hundoes
      cases hundoes
    · have hx' : x ∈ ahead := hsplit ▸ List.mem_append_right _ (List.mem_cons_of_mem _ hx)
      exact hpaused x hx' hp id hid hsubject

/-- **The event in front is taken**: if it is the equal one, the other one is in force from now on. -/
theorem Vouches.take (h : b.Vouches (x :: ahead) e) (hl : b.session.target.Lively)
    (hidle : b.session.worker.agenda = []) (hx : x ≠ .command .terminate)
    (hstill : (b.session.targetAfter x).state ≠ .terminated) :
    Vouches { b with session := (b.session.withEvents rest).handle x } ahead e := by
  have hnow : b.session.outlook b.engine = b.engine := by rw [Session.outlook, hidle]; rfl
  have hlater : ((b.session.withEvents rest).handle x).outlook b.engine =
      (b.session.tasksAfter x).foldl World.effectOnEngine b.engine := by
    rw [Session.outlook, Session.agenda_handle, Session.tasksAfter_withEvents]
  refine ⟨h.calm, h.lasting, ?_⟩
  show _ ∨ e.InForce ((b.session.withEvents rest).handle x).target
    (((b.session.withEvents rest).handle x).outlook b.engine) ∧ _
  rw [hlater, Session.target_handle, Session.targetAfter_withEvents]
  obtain ⟨first, second, hsplit, hsecond⟩ | ⟨hforce, hnone⟩ := h.stands
  · cases first with
    | nil =>
        obtain ⟨rfl, rfl⟩ := List.cons.inj hsplit
        exact .inr ⟨Event.inForce_after hl h.calm hx hstill b.engine, hsecond⟩
    | cons y first =>
        obtain ⟨-, rfl⟩ := List.cons.inj hsplit
        exact .inl ⟨first, second, rfl, hsecond⟩
  · rw [hnow] at hforce
    exact .inr ⟨hforce.after_other hl (hnone x List.mem_cons_self) hstill,
      fun y hy => hnone y (List.mem_cons_of_mem _ hy)⟩

/-- What waits behind an event that was dropped, once the plain dispatcher has taken that event. -/
theorem VouchesAll.skip {rest : List (Event × Bool)} (h : b.VouchesAll ((e, true) :: rest)) :
    b.VouchesAll rest := by
  intro before d after hsplit
  have hone := h ((e, true) :: before) d after (by rw [hsplit]; rfl)
  rwa [kept_cons_dropped] at hone

/-- One event more. -/
theorem VouchesAll.snoc (h : b.VouchesAll waiting) {entry : Event × Bool}
    (hentry : entry.2 = true → b.Vouches (kept waiting) entry.1) : b.VouchesAll (waiting ++ [entry]) := by
  intro before d after hsplit
  obtain rfl | ⟨after, last, rfl⟩ := List.eq_nil_or_concat after
  · obtain ⟨rfl, hlast⟩ := List.append_inj' hsplit rfl
    obtain rfl := List.singleton_inj.mp hlast
    exact hentry rfl
  · rw [List.concat_eq_append, ← List.cons_append, ← List.append_assoc] at hsplit
    exact h before d after (List.append_inj' hsplit rfl).1

/-- **Further events are sifted.** Pauses come one at a time, so that none of them is in the way of the events
behind it. -/
theorem VouchesAll.sifted (h : b.VouchesAll waiting) {es : List Event}
    (hes : es.Pairwise fun x _ => x.isPause = false)
    (hnew : ∀ e ∈ es, e ≠ .command .terminate ∧ ∀ x ∈ kept waiting, x.isPause = true →
      ∀ id, x.subject? = some id → e.subject? ≠ some id)
    (hcovered : AllCovered (waiting ++ Pausepoint.sifted (kept waiting) es)) :
    b.VouchesAll (waiting ++ Pausepoint.sifted (kept waiting) es) := by
  induction es generalizing waiting with
  | nil => simpa [Pausepoint.sifted] using h
  | cons e rest ih =>
      have hsplit : waiting ++ Pausepoint.sifted (kept waiting) (e :: rest) =
          (waiting ++ [(e, decide (e ∈ kept waiting))]) ++
            Pausepoint.sifted (kept (waiting ++ [(e, decide (e ∈ kept waiting))])) rest := by
        rw [kept_snoc, List.append_assoc]
        rfl
      rw [hsplit] at hcovered ⊢
      obtain ⟨hcalm, hrest⟩ := List.pairwise_cons.mp hes
      obtain ⟨hlasting, hpaused⟩ := hnew e List.mem_cons_self
      refine ih (h.snoc fun hdropped => ?_) hrest (fun d hd => ?_) hcovered
      · change decide (e ∈ kept waiting) = true at hdropped
        have hmem : e ∈ kept waiting := of_decide_eq_true hdropped
        refine vouches_of_mem hmem hlasting hpaused fun first second hkept => ?_
        refine hcovered waiting e
          (Pausepoint.sifted (kept (waiting ++ [(e, decide (e ∈ kept waiting))])) rest) ?_ first second hkept
        rw [List.append_assoc, hdropped]
        rfl
      · obtain ⟨hd', hpaused'⟩ := hnew d (List.mem_cons_of_mem _ hd)
        refine ⟨hd', fun x hx hp => ?_⟩
        rw [kept_snoc] at hx
        split at hx
        · exact hpaused' x hx hp
        · obtain hx | hx := List.mem_append.mp hx
          · exact hpaused' x hx hp
          · obtain rfl := List.mem_singleton.mp hx
            rw [hcalm d hd] at hp
            cases hp

end Bridge

/-! ### Steps of one session -/

namespace Bridge

variable {b b' : Bridge}

theorem dispatch?_of_busy {task : Task} {rest : List Task} (h : b.session.worker.agenda = task :: rest) :
    b.dispatch? = some ⟨(b.session.withAgenda rest).effect task, World.effectOnEngine b.engine task⟩ := by
  unfold dispatch? Session.perform?
  rw [h]
  rfl

theorem dispatch?_of_idle (h : b.session.worker.agenda = []) :
    b.dispatch? = b.session.take?.map fun session => { b with session } := by
  unfold dispatch? Session.perform?
  rw [h]

/-- A session that has come about step by step. -/
def Arisen (b : Bridge) : Prop :=
  ∃ trace, Session.Lived trace b.session

theorem Arisen.call (h : b.Arisen) (c : Call) : (b.call c).Arisen := by
  obtain ⟨trace, h⟩ := h
  cases c with
  | report n => exact ⟨_, h.step (.notify _ n)⟩
  | abandonPause id => exact ⟨_, h.step (.abandonPause _ id)⟩
  | control c => exact ⟨_, h.step (.call _ c)⟩

theorem onward_call (h : b.session.Onward) {c : Call} (hc : c.IsPatient) : (b.call c).session.Onward := by
  cases c with
  | report n => exact h.notify n
  | abandonPause id => exact hc.elim
  | control c =>
      refine Session.Onward.call h ?_
      rintro rfl
      exact hc

/-- A step of the dispatcher does a task, or takes an event. -/
theorem dispatch?_cases (h : b.dispatch? = some b') :
    (∃ task, b.session.perform? = some (task, b'.session)) ∨ b.session.take? = some b'.session := by
  unfold dispatch? at h
  split at h
  · next task session hperform =>
      obtain rfl := Option.some.inj h
      exact .inl ⟨task, hperform⟩
  · obtain ⟨session, htake, rfl⟩ := Option.map_eq_some_iff.mp h
    exact .inr htake

theorem Arisen.dispatch (h : b.Arisen) (hs : b.dispatch? = some b') : b'.Arisen := by
  obtain ⟨trace, h⟩ := h
  obtain ⟨task, hperform⟩ | htake := dispatch?_cases hs
  · exact ⟨_, h.step (.perform hperform)⟩
  · exact ⟨_, h.step (.take htake)⟩

theorem onward_dispatch (h : b.session.Onward) (hs : b.dispatch? = some b') : b'.session.Onward := by
  obtain ⟨task, hperform⟩ | htake := dispatch?_cases hs
  · exact h.perform hperform
  · exact h.take htake

/-- A dispatcher that is to take an event is not at the end of its session. -/
theorem Arisen.isLive (h : b.Arisen) (hidle : b.session.worker.agenda = [])
    (hexit : b.session.worker.exit = none) (hlive : b.session.queue.cancelled = false) :
    b.session.IsLive := by
  obtain ⟨trace, h⟩ := h
  refine ⟨fun hover => ?_, hlive⟩
  obtain ⟨exit, hmem⟩ | hdone := h.leaving hover
  · rw [hidle] at hmem
    cases hmem
  · rw [hexit] at hdone
    cases hdone

/-- The session once it was offered some events, with this gate and these breakpoints. -/
def offered (b : Bridge) (gate : Gate) (store : BreakpointStore) (es : List Event) : Bridge :=
  { b with session :=
    { b.session with gate, breakpoints := store, queue := b.session.queue.offers es } }

end Bridge

namespace SessionPair

variable {w w' : SessionPair}

/-! ### How the two sessions came about -/

/-- Both sessions have come about step by step, and nobody has given up on a pause. -/
structure Arisen (w : SessionPair) : Prop where
  plain : w.plain.Arisen
  frugal : w.frugal.Arisen
  onward : w.frugal.session.Onward

theorem arisen_start (settings : DebuggerSettings) : (start settings).Arisen where
  plain := ⟨_, Session.lived_create _⟩
  frugal := ⟨_, Session.lived_create _⟩
  onward := Session.onward_create _

/-- A step of the dispatchers is one of the plain one alone, or one of both. -/
theorem dispatch?_cases (h : w.dispatch? = some w') : ∃ plain, w.plain.dispatch? = some plain ∧
    (w.isAside = true ∧ w' = w.after plain w.frugal ∨
      w.isAside = false ∧ ∃ frugal, w.frugal.dispatch? = some frugal ∧ w' = w.after plain frugal) := by
  unfold dispatch? at h
  split at h
  · next haside =>
      obtain ⟨plain, hplain, rfl⟩ := Option.map_eq_some_iff.mp h
      exact ⟨plain, hplain, .inl ⟨haside, rfl⟩⟩
  · next haside =>
      split at h
      · next plain frugal hplain hfrugal =>
          obtain rfl := Option.some.inj h
          exact ⟨plain, hplain, .inr ⟨Bool.eq_false_iff.mpr haside, frugal, hfrugal, rfl⟩⟩
      · cases h

theorem Arisen.step (h : w.Arisen) {m : Move} (hs : Step w m w') : w'.Arisen := by
  cases hs with
  | call hc => exact ⟨h.plain.call _, h.frugal.call _, Bridge.onward_call h.onward hc⟩
  | dispatch hs =>
      obtain ⟨plain, hplain, ⟨-, rfl⟩ | ⟨-, frugal, hfrugal, rfl⟩⟩ := dispatch?_cases hs
      · exact ⟨h.plain.dispatch hplain, h.frugal, h.onward⟩
      · exact ⟨h.plain.dispatch hplain, h.frugal.dispatch hfrugal, Bridge.onward_dispatch h.onward hfrugal⟩

end SessionPair

end Pausepoint
