import Pausepoint.Cli.Run
import Pausepoint.Proofs.Cli.Ongoing
import Pausepoint.Proofs.Session.Lifecycle

/-!
# Pausepoint.Proofs.Cli.Attending

How a controller attends to a script that runs on one thread, whoever moves when.

As long as fewer stops were shown than the limit allows, the controller looks for the next one (`Watch.Looking`):
the stop that it has to show is signalled, or about to be. Then it serves that stop (`Watch.Serving`), which
stays as it is until the answer is queued, since the script is held. Once the end was asked for, or the run has
come to its end, the script leaves (`Watch.Leaving`), and no signal that is left brings anything more.

One of the three holds throughout (`Watch.attended_step`), if the dispatcher makes no step while the controller
looks at a thread that it may have to show. So when nobody can make another step, the script has ended as it
would have ended anyway, or as one that was asked to end at the stop that reached the limit
(`Watch.Attended.rest`).
-/

namespace Pausepoint

open Pausepoint.Language

/-! ### What was seen -/

def Sight.stop? : Sight → Option ShownStop
  | .stopped stop => some stop
  | .report _ => none

theorem stops_reports (seen : List Report) : (seen.map Sight.report).filterMap Sight.stop? = [] := by
  rw [List.filterMap_map, List.filterMap_eq_nil_iff]
  exact fun _ _ => rfl

theorem outcome_reports (seen : List Report) :
    (seen.map Sight.report).findSome? Cli.outcomeOf? = seen.findSome? Report.outcome? := by
  rw [List.findSome?_map]
  refine congrArg (seen.findSome? ·) (funext fun report => ?_)
  cases report with
  | finished job result => cases result <;> rfl
  | callback | command => rfl

namespace Watch

/-- The stops that were shown so far. -/
def stops (x : Watch) : List ShownStop :=
  x.sights.reverse.filterMap Sight.stop?

/-- The outcome of the script, once it was seen. -/
def outcome? (x : Watch) : Option Outcome :=
  x.sights.reverse.findSome? Cli.outcomeOf?

variable {x y : Watch}

/-- What anyone else does shows no stop. -/
theorem seen_advance (x : Watch) (next : World × List Report) :
    (x.advance next).stops = x.stops ∧
      (x.advance next).outcome? = x.outcome?.or (next.2.findSome? Report.outcome?) := by
  have hsights : (x.advance next).sights.reverse = x.sights.reverse ++ next.2.map .report := by
    rw [advance, List.reverse_append, List.reverse_reverse]
  unfold stops outcome?
  rw [hsights]
  refine ⟨?_, ?_⟩
  · rw [List.filterMap_append, stops_reports, List.append_nil]
  · rw [List.findSome?_append, outcome_reports]

end Watch

/-! ### The listener is told of the end -/

namespace Session

/-- The end of a session is told to its listener, unless it was told before. -/
structure Farewell (told : Prop) (s : Session) : Prop where
  fault : s.target.fault = none
  leaves : s.target.state = .terminated → told ∨ farewells (toldBy s.worker.agenda) ≠ []

variable {told told' : Prop} {s s' : Session}

theorem Farewell.mono (h : s.Farewell told) (ht : told → told') : s.Farewell told' :=
  ⟨h.fault, fun hover => (h.leaves hover).imp_left ht⟩

theorem Farewell.of_same (h : s.Farewell told) (ht : s'.target = s.target) (hw : s'.worker = s.worker) :
    s'.Farewell told := by
  refine ⟨ht ▸ h.fault, ?_⟩
  rw [ht, hw]
  exact h.leaves

theorem Farewell.of_stands (h : s.Stands) : s.Farewell told :=
  ⟨h.fault, fun hover => absurd hover h.live.target⟩

theorem Farewell.take (h : s.Farewell told) (hs : s.take? = some s') : s'.Farewell told := by
  obtain ⟨hidle, hcase⟩ := take?_cases hs
  have hbefore (hover : s.target.state = .terminated) : told := by
    refine (h.leaves hover).resolve_right ?_
    rw [hidle]
    exact fun hne => hne rfl
  rcases hcase with ⟨e, rest, -, rfl⟩ | ⟨-, rfl⟩
  · obtain ⟨hfault, hleaves⟩ := farewells_tasksAfter h.fault e
    refine ⟨?_, ?_⟩
    · rw [target_handle, targetAfter_withEvents]
      exact hfault
    · rw [target_handle, targetAfter_withEvents, agenda_handle, tasksAfter_withEvents, hleaves]
      intro hover
      by_cases hold : s.target.state = .terminated
      · exact .inl (hbefore hold)
      · rw [if_pos ⟨hover, hold⟩]
        exact .inr (List.cons_ne_nil _ _)
  · exact ⟨h.fault, fun hover => .inl (hbefore hover)⟩

/-- **The task that tells of the end** signals it. -/
theorem Farewell.perform (h : s.Farewell told) {task : Task} (hs : s.perform? = some (task, s')) :
    s'.Farewell (told ∨ .ended ∈ signals (World.reportOf s' task)) := by
  obtain ⟨rest, hagenda, rfl⟩ := perform?_cases hs
  refine ⟨?_, fun hover => ?_⟩
  · rw [target_effect]
    exact h.fault
  · rw [target_effect] at hover
    rw [agenda_effect, agenda_withAgenda]
    rcases h.leaves hover with htold | hleaves
    · exact .inl (.inl htold)
    · rw [hagenda] at hleaves
      by_cases hlater : farewells (toldBy rest) = []
      · refine .inl (.inr ?_)
        cases task with
        | callback c | lastCallback c =>
            cases c with
            | sessionTerminated fault => exact List.mem_cons_self
            | sessionCreated | threadCreated | threadStateChanged | stackFramesChanged =>
                exact absurd hlater hleaves
        | release | releaseAll | followUp | forward | command | closeQueue | closeGate | forwardClosed
        | announceClosed | finish => exact absurd hlater hleaves
      · exact .inr hlater

end Session

/-! ### What the controller reads -/

namespace World

variable {w : World} {id : ThreadId}

/-- The frames on the stack of a thread. -/
def framesOf (w : World) (id : ThreadId) : List Handle :=
  (w.session.target.sheetsOf id).2.map fun slot => ⟨id, slot⟩

theorem head?_framesOf (w : World) (id : ThreadId) : (w.framesOf id).head? = w.session.target.topOf id :=
  List.head?_map

theorem framesOf_of_thread_eq {w' : World}
    (h : w'.session.target.thread? id = w.session.target.thread? id) : w'.framesOf id = w.framesOf id := by
  rw [framesOf, framesOf, Target.sheetsOf, Target.sheetsOf, h]

end World

/-- What was read of the thread that is looked at is still so; and the controller is not at a stop. -/
def Attention.Looks (s : Session) : Attention → Prop
  | .listening | .signalled _ => True
  | .resumable id => s.target.stateOf id = some .suspended
  | .stopped id => s.target.HasStopped id
  | .finished reply => reply = .ok ()
  | .framed .. | .reading .. | .answering _ | .sending _ => False

/-- A signal of the thread is in hand. -/
def Attention.Concerns (thread : ThreadId) : Attention → Prop
  | .signalled id | .resumable id | .stopped id => id = thread
  | .listening | .framed .. | .reading .. | .answering _ | .sending _ | .finished _ => False

theorem Attention.Looks.of_target {a : Attention} {s s' : Session} (h : a.Looks s)
    (ht : s'.target = s.target) : a.Looks s' := by
  cases a with
  | resumable | stopped =>
      unfold Looks at h ⊢
      rwa [ht]
  | listening | signalled | framed | reading | answering | sending | finished => exact h

/-- Who has not begun to look at a thread relies on nothing that was read. -/
theorem Attention.Looks.of_not_isLooking {a : Attention} {s s' : Session} (h : a.Looks s)
    (hnot : a.isLooking = false) : a.Looks s' := by
  cases a with
  | resumable | stopped => cases hnot
  | listening | signalled | framed | reading | answering | sending | finished => exact h

namespace Watch

variable {x y : Watch}

/-! ### The invariant -/

/-- How a script may have ended, after some stops were shown: as it ends anyway, if that took fewer than the limit,
or by the request that was made at the stop that reached it. -/
inductive Verdict (limit : Nat) (all : List ShownStop) (result : Outcome) : Outcome → List ShownStop → Prop
  | whole (h : all.length < limit) : Verdict limit all result result all
  | cut {i : Interpreter} (hprinted : i.output.toList <+: result.1.output.toList) (h : limit ≤ all.length) :
      Verdict limit all result (i, .error (.refused .terminated)) (all.take limit)

section

variable (k : Controller) (plan : Plan) (thread : ThreadId) (views : List (Checkpoint × Heap))
  (result : Outcome)

/-- The script is under way, and so many of its stops were answered. -/
structure UnderWay (answered : Nat) (x : Watch) : Prop where
  ongoing : World.Ongoing plan thread views result (List.replicate answered k.mode) x.last x.world
  unseen : x.outcome? = none
  unended : .ended ∉ x.pending
  stops : x.stops = (plan.stops thread k.mode none views).take x.handled
  within : x.handled ≤ (plan.stops thread k.mode none views).length

/-- **The controller looks for the next stop**, which is not forgotten. -/
structure Looking (x : Watch) : Prop extends UnderWay k plan thread views result x.handled x where
  looks : x.attention.Looks x.world.session
  going : ∀ reply, x.attention ≠ .finished reply
  noticed : x.world.Noticed thread x.last (.stopped thread ∈ x.pending ∨ x.attention.Concerns thread)
  unasked : x.world.session.terminateRequested = false
  few : x.handled < max 1 k.maxStops

/-- Where the controller is that has found a stop, after some answers. -/
inductive Place (answered : Nat) (x : Watch) : Prop
  | framed (hplace : x.attention = .framed thread (x.world.framesOf thread)) (hhandled : x.handled = answered)
      (hunasked : x.world.session.terminateRequested = false)
  /-- What was read of it is what is to be shown. -/
  | reading {stop expected : ShownStop}
      (hplace : x.attention = .reading stop ((x.world.framesOf thread).drop stop.frames.length))
      (hexpected : (plan.stops thread k.mode none views)[answered]? = some expected)
      (hread : stop = { expected with frames := expected.frames.take stop.frames.length })
      (hhandled : x.handled = answered) (hunasked : x.world.session.terminateRequested = false)
  | answering (hplace : x.attention = .answering thread) (hhandled : x.handled = answered + 1)
      (hunasked : x.world.session.terminateRequested = false)
  | resuming (hplace : x.attention = .sending (.resume thread k.mode)) (hhandled : x.handled = answered + 1)
      (hunasked : x.world.session.terminateRequested = false) (hleft : x.handled < k.maxStops)
  | ending (hplace : x.attention = .sending .terminate) (hhandled : x.handled = answered + 1)
      (hreached : k.maxStops ≤ x.handled)

/-- **The controller is at a stop**, whose answer is awaited. -/
structure Serving (answered : Nat) (x : Watch) : Prop extends UnderWay k plan thread views result answered x where
  awaits : x.world.AwaitsAnswer thread
  top : ∃ top ∈ x.last, x.world.session.target.topOf thread = some top
  few : answered < max 1 k.maxStops
  place : Place k plan thread views answered x

/-- **The script leaves**, and nothing is left to be shown. -/
structure Leaving (x : Watch) : Prop where
  looks : x.attention.Looks x.world.session
  quitting : ∃ outcome, World.Quitting outcome x.world x.outcome? ∧
    Verdict (max 1 k.maxStops) (plan.stops thread k.mode none views) result outcome x.stops
  lapses : x.world.session.Lapses x.last
  farewell : x.world.session.Farewell (.ended ∈ x.pending ∨ x.attention = .finished (.ok ()))

/-- **The invariant.** -/
inductive Attended (x : Watch) : Prop
  | looking (h : Looking k plan thread views result x)
  | serving {answered : Nat} (h : Serving k plan thread views result answered x)
  | leaving (h : Leaving k plan thread views result x)

end

section

variable {k : Controller} {plan : Plan} {thread : ThreadId} {views : List (Checkpoint × Heap)}
  {result : Outcome} {answered : Nat}

theorem mode_of_mem_replicate {mode : Mode} {n : Nat} : ∀ answer ∈ List.replicate n mode, answer = mode :=
  fun _ h => List.eq_of_mem_replicate h

/-! ### Steps of the dispatcher -/

/-- The dispatcher shows no stop, and no outcome. -/
theorem UnderWay.dispatch (h : UnderWay k plan thread views result answered x) {w : World}
    {reports : List Report} (hd : x.world.dispatchStep? = some (w, reports)) :
    UnderWay k plan thread views result answered (x.advance (w, reports)) := by
  obtain ⟨hongoing, hsignals⟩ := h.ongoing.dispatch hd
  obtain ⟨hstops, houtcome⟩ := x.seen_advance (w, reports)
  refine ⟨hongoing, ?_, ?_, hstops.trans h.stops, h.within⟩
  · rw [houtcome, h.unseen, World.outcome_dispatch h.ongoing.wakeful.calm hd]
    rfl
  · exact fun hmem => (List.mem_append.mp hmem).elim h.unended hsignals

theorem Looking.dispatch (h : Looking k plan thread views result x) (hnot : x.attention.isLooking = false)
    {w : World} {reports : List Report} (hd : x.world.dispatchStep? = some (w, reports)) :
    Looking k plan thread views result (x.advance (w, reports)) := by
  have hongoing := h.ongoing
  refine ⟨h.toUnderWay.dispatch hd, h.looks.of_not_isLooking hnot, h.going, ?_, ?_, h.few⟩
  · refine (World.noticed_dispatch hongoing.wakeful.calm hongoing.agrees hongoing.stands hongoing.recalls h.noticed
      (fun n hn hid hpause => hongoing.unanswered hn hid hpause)
      (fun hstopped hfree => hongoing.following_eq_nil hstopped hfree) hd).mono ?_
    rintro ((hpending | hconcerns) | hsignalled)
    · exact .inl (List.mem_append_left _ hpending)
    · exact .inr hconcerns
    · exact .inl (List.mem_append_right _ hsignalled)
  · exact (World.terminateRequested_dispatchStep? hd).trans h.unasked

theorem Serving.dispatch (h : Serving k plan thread views result answered x) {w : World}
    {reports : List Report} (hd : x.world.dispatchStep? = some (w, reports)) :
    Serving k plan thread views result answered (x.advance (w, reports)) := by
  obtain ⟨hawaits, hthread⟩ := h.ongoing.awaits_dispatch h.awaits hd
  have hasked := World.terminateRequested_dispatchStep? hd
  have hframes : w.framesOf thread = x.world.framesOf thread := World.framesOf_of_thread_eq hthread
  refine ⟨h.toUnderWay.dispatch hd, hawaits, ?_, h.few, ?_⟩
  · obtain ⟨top, hlast, htop⟩ := h.top
    exact ⟨top, hlast, (World.topOf_of_thread_eq hthread).trans htop⟩
  · cases h.place with
    | framed hplace hhandled hunasked =>
        exact .framed (hplace.trans (by rw [← hframes]; rfl)) hhandled (hasked.trans hunasked)
    | reading hplace hexpected hread hhandled hunasked =>
        exact .reading (hplace.trans (by rw [← hframes]; rfl)) hexpected hread hhandled (hasked.trans hunasked)
    | answering hplace hhandled hunasked => exact .answering hplace hhandled (hasked.trans hunasked)
    | resuming hplace hhandled hunasked hleft =>
        exact .resuming hplace hhandled (hasked.trans hunasked) hleft
    | ending hplace hhandled hreached => exact .ending hplace hhandled hreached

theorem Leaving.dispatch (h : Leaving k plan thread views result x) (hnot : x.attention.isLooking = false)
    {w : World} {reports : List Report} (hd : x.world.dispatchStep? = some (w, reports)) :
    Leaving k plan thread views result (x.advance (w, reports)) := by
  obtain ⟨outcome, hquitting, hverdict⟩ := h.quitting
  obtain ⟨hstops, houtcome⟩ := x.seen_advance (w, reports)
  have hcalm := hquitting.calm
  rw [World.outcome_dispatch hcalm hd, Option.or_none] at houtcome
  refine ⟨h.looks.of_not_isLooking hnot, ⟨outcome, ?_, hstops ▸ hverdict⟩, ?_, ?_⟩
  · rw [houtcome]
    exact World.quitting_dispatch hquitting hd
  · obtain ⟨-, -, ⟨task, session, hs, hb⟩ | ⟨session, -, hs, hb⟩⟩ := World.dispatchStep?_cases hcalm hd
    · show w.bridge.session.Lapses x.last
      rw [hb]
      exact h.lapses.perform hs
    · show w.bridge.session.Lapses x.last
      rw [hb]
      exact h.lapses.take hs
  · obtain ⟨task, session, hs, rfl, rfl⟩ | ⟨session, -, hs, rfl, rfl⟩ := World.dispatchStep?_calm hcalm hd
    · have hbridge := (World.noteStop_frame { x.world with
        bridge := { session, engine := World.effectOnEngine x.world.engine task } } task).2.2.2.2
      refine ((h.farewell.perform hs).of_same (congrArg (Session.target ∘ Bridge.session) hbridge)
        (congrArg (Session.worker ∘ Bridge.session) hbridge)).mono ?_
      rintro ((hpending | hover) | hsignalled)
      · exact .inl (List.mem_append_left _ hpending)
      · exact .inr hover
      · exact .inl (List.mem_append_right _ hsignalled)
    · exact (h.farewell.take hs).mono (Or.imp_left (List.mem_append_left _))

/-! ### Steps of the script -/

/-- It goes on to look, as long as it does not pass over the stop that is to be shown. -/
theorem Looking.look (h : Looking k plan thread views result x) {attention : Attention}
    {pending : List Signal} (hpending : ∀ signal ∈ pending, signal ∈ x.pending)
    (hlooks : attention.Looks x.world.session) (hgoing : ∀ reply, attention ≠ .finished reply)
    (hkept : x.world.session.target.HasStopped thread → ¬ x.world.Answered thread →
      .stopped thread ∈ x.pending ∨ x.attention.Concerns thread →
        .stopped thread ∈ pending ∨ attention.Concerns thread) :
    Looking k plan thread views result { x with pending, attention } := by
  refine ⟨⟨h.ongoing, h.unseen, fun hmem => h.unended (hpending _ hmem), h.stops, h.within⟩, hlooks, hgoing,
    fun hstopped => ?_, h.unasked, h.few⟩
  refine (h.noticed hstopped).imp_right fun ⟨hfree, htold, htop⟩ => ⟨hfree, ?_, htop⟩
  exact htold.imp_right (hkept hstopped hfree)

/-- **What is to be shown of a stop**, and what is read of it. -/
theorem UnderWay.expected (h : UnderWay k plan thread views result answered x)
    (hawaits : x.world.AwaitsAnswer thread) :
    ∃ expected : ShownStop, (plan.stops thread k.mode none views)[answered]? = some expected ∧
      expected.thread = thread ∧ x.world.session.suspendReason thread = .ok expected.reason ∧
      x.world.framesOf thread ≠ [] ∧ (x.world.framesOf thread).length = expected.frames.length ∧
      ∀ (place : Nat) (handle : World.Handle), (x.world.framesOf thread)[place]? = some handle →
        (x.world.showFrame handle).1 = expected.frames[place]? := by
  obtain ⟨expected, t, frames, hsome, hthread, hreason, ht, hshows, hne, hframes⟩ :=
    h.ongoing.stop mode_of_mem_replicate hawaits
  rw [List.length_replicate] at hsome
  have hall : x.world.framesOf thread = t.stack.map fun slot => ⟨thread, slot⟩ := by
    rw [World.framesOf, Target.sheetsOf_of_thread ht]
    rfl
  have hlength : t.stack.length = frames.length := hshows.length_eq
  refine ⟨expected, hsome, hthread, hreason, ?_, ?_, fun place handle hhandle => ?_⟩
  · rw [hall]
    intro hnil
    rw [List.map_eq_nil_iff.mp hnil] at hlength
    exact hne (List.eq_nil_of_length_eq_zero hlength.symm)
  · rw [hall, hframes, List.length_map, List.length_map, hlength]
  · rw [hall, List.getElem?_map] at hhandle
    obtain ⟨slot, hslot, rfl⟩ := Option.map_eq_some_iff.mp hhandle
    obtain ⟨hplace, rfl⟩ := List.getElem?_eq_some_iff.mp hslot
    obtain ⟨p, hp, hshown⟩ := hshows.get hplace (hlength ▸ hplace)
    rw [hframes, List.getElem?_map, List.getElem?_eq_getElem (hlength ▸ hplace)]
    exact congrArg Prod.fst (World.showFrame_of_shows ht hp hshown)

/-- **The stop is found.** -/
theorem Looking.serve (h : Looking k plan thread views result x)
    (hstopped : x.world.session.target.HasStopped thread) (hfree : ¬ x.world.Answered thread) :
    Serving k plan thread views result x.handled
      { x with last := (x.world.framesOf thread).head?, attention := .framed thread (x.world.framesOf thread) } := by
  have hawaits := World.awaits_of_hasStopped h.ongoing.wakeful h.ongoing.stands.live hstopped hfree
  obtain ⟨-, -, -, -, hne, -⟩ := h.toUnderWay.expected hawaits
  have hlast : (x.world.framesOf thread).head? = x.world.session.target.topOf thread :=
    x.world.head?_framesOf thread
  obtain ⟨top, rest, hcons⟩ := List.exists_cons_of_ne_nil hne
  have htop : (x.world.framesOf thread).head? = some top := by rw [hcons, List.head?_cons]
  refine ⟨⟨{ h.ongoing with recalls := ?_ }, h.unseen, h.unended, h.stops, h.within⟩, hawaits, ⟨top, htop, ?_⟩,
    h.few, .framed rfl rfl h.unasked⟩
  · show x.world.session.target.Recalls (x.world.framesOf thread).head?
    rw [hlast]
    exact h.ongoing.recalls.topOf thread
  · exact hlast.symm.trans htop

/-- It takes a signal. -/
theorem Looking.hear (h : Looking k plan thread views result x) (hplace : x.attention = .listening)
    {id : ThreadId} {rest : List Signal} (hpending : x.pending = .stopped id :: rest) :
    Looking k plan thread views result { x with pending := rest, attention := .signalled id } := by
  refine h.look (fun signal hsignal => ?_) trivial nofun ?_
  · rw [hpending]
    exact List.mem_cons_of_mem _ hsignal
  · rintro - - (hold | hold)
    · rw [hpending] at hold
      rcases List.mem_cons.mp hold with hnow | hlater
      · exact .inr (Signal.stopped.inj hnow).symm
      · exact .inl hlater
    · rw [hplace] at hold
      exact hold.elim

/-- **It inspects a thread that has stopped.** The stop is passed over if its top was shown before, hence if the
thread was answered; else it is found. -/
theorem Looking.inspect (h : Looking k plan thread views result x)
    (hstopped : x.world.session.target.HasStopped thread) :
    Attended k plan thread views result (x.inspect thread (x.world.framesOf thread)) := by
  unfold Watch.inspect
  rw [x.world.head?_framesOf]
  by_cases hshown : (x.world.session.target.topOf thread).any fun top => x.last = some top
  · rw [if_pos hshown]
    refine .looking (h.look (fun _ hmem => hmem) trivial nofun fun _ hfree _ => ?_)
    obtain ⟨hanswered, -⟩ | ⟨-, -, htop⟩ := h.noticed hstopped
    · exact absurd hanswered hfree
    · obtain ⟨top, hsome, hlast⟩ := Option.any_eq_true _ _ |>.mp hshown
      exact absurd hsome (htop top (of_decide_eq_true hlast))
  · rw [if_neg hshown, ← x.world.head?_framesOf]
    refine .serving (h.serve hstopped fun hanswered => hshown ?_)
    obtain ⟨-, top, hlast, htop⟩ | ⟨hfree, -⟩ := h.noticed hstopped
    · rw [htop]
      exact decide_eq_true hlast
    · exact absurd hanswered hfree

theorem Serving.read (h : Serving k plan thread views result answered x) {stop : ShownStop}
    {frame : World.Handle} {rest : List World.Handle} (hplace : x.attention = .reading stop (frame :: rest)) :
    Serving k plan thread views result answered
      { x with
        world := (x.world.showFrame frame).2
        attention := .reading { stop with frames := stop.frames ++ (x.world.showFrame frame).1.toList } rest } := by
  obtain ⟨expected, hexpected, -, -, -, hlength, hshow⟩ := h.toUnderWay.expected h.awaits
  obtain ⟨hongoing, hawaits, hsheets⟩ := h.ongoing.showFrame h.awaits frame
  have hframes : (x.world.showFrame frame).2.framesOf thread = x.world.framesOf thread := by
    rw [World.framesOf, hsheets]
    rfl
  have htop : (x.world.showFrame frame).2.session.target.topOf thread =
      x.world.session.target.topOf thread := by
    rw [← World.head?_framesOf, hframes, World.head?_framesOf]
  cases h.place with
  | framed hat | answering hat | resuming hat | ending hat => cases hplace.symm.trans hat
  | @reading stop' expected' hat hexpected' hread hhandled hunasked =>
      obtain rfl := Option.some.inj (hexpected.symm.trans hexpected')
      obtain ⟨rfl, hrest⟩ := Attention.reading.inj (hplace.symm.trans hat)
      -- The next frame is the one after those that were read.
      have hplaced : (x.world.framesOf thread)[stop.frames.length]? = some frame := by
        rw [← List.head?_drop, ← hrest]
        rfl
      have hin : stop.frames.length < expected.frames.length := by
        rw [← hlength]
        exact (List.getElem?_eq_some_iff.mp hplaced).1
      have hshown : (x.world.showFrame frame).1 = some expected.frames[stop.frames.length] := by
        rw [hshow _ _ hplaced, List.getElem?_eq_getElem hin]
      have hsofar : stop.frames = expected.frames.take stop.frames.length := congrArg ShownStop.frames hread
      have hnext : stop.frames ++ (x.world.showFrame frame).1.toList =
          expected.frames.take (stop.frames.length + 1) := by
        rw [hshown, List.take_succ_eq_append_getElem hin, ← hsofar]
        rfl
      have hcount : (stop.frames ++ (x.world.showFrame frame).1.toList).length = stop.frames.length + 1 := by
        rw [hshown, List.length_append]
        rfl
      have hplace' : Attention.reading { stop with frames := stop.frames ++ (x.world.showFrame frame).1.toList }
          rest = .reading { stop with frames := stop.frames ++ (x.world.showFrame frame).1.toList }
            (((x.world.showFrame frame).2.framesOf thread).drop
              (stop.frames ++ (x.world.showFrame frame).1.toList).length) := by
        rw [hframes, hcount, ← List.tail_drop, ← hrest]
        rfl
      refine ⟨⟨hongoing, h.unseen, h.unended, h.stops, h.within⟩, hawaits, ?_, h.few,
        .reading hplace' hexpected ?_ hhandled ((x.world.remaining_showFrame frame).2.trans hunasked)⟩
      · obtain ⟨top, hlast, hold⟩ := h.top
        exact ⟨top, hlast, htop.trans hold⟩
      · dsimp only
        rw [hcount, hnext, hread]

theorem Serving.answer (h : Serving k plan thread views result answered x)
    (hplace : x.attention = .answering thread) :
    Serving k plan thread views result answered (x.answer k thread) := by
  cases h.place with
  | framed hat | reading hat | resuming hat | ending hat => cases hplace.symm.trans hat
  | answering _ hhandled hunasked =>
      unfold Watch.answer
      by_cases hreached : k.maxStops ≤ x.handled
      · have hask : x.world.session.askEnd? = some { x.world.session with terminateRequested := true } := by
          unfold Session.askEnd?
          rw [if_neg]
          simp [Session.isTerminated, Session.isTerminated_eq_false h.ongoing.stands.live, hunasked]
        obtain ⟨hongoing, hawaits⟩ := h.ongoing.asks h.awaits true
        rw [if_pos hreached, hask]
        exact ⟨⟨hongoing, h.unseen, h.unended, h.stops, h.within⟩, hawaits, h.top, h.few,
          .ending rfl hhandled hreached⟩
      · obtain ⟨hmay, -⟩ := h.ongoing.resume h.awaits k.mode
        rw [if_neg hreached, hmay]
        exact ⟨⟨h.ongoing, h.unseen, h.unended, h.stops, h.within⟩, h.awaits, h.top, h.few,
          .resuming rfl hhandled hunasked (Nat.lt_of_not_le hreached)⟩

/-- The script may go on, and the controller looks for the next stop. -/
theorem Serving.resume (h : Serving k plan thread views result answered x)
    (hplace : x.attention = .sending (.resume thread k.mode)) :
    Looking k plan thread views result (x.calls (x.world.session.send (.resume thread k.mode)).2
      (.after (x.world.session.send (.resume thread k.mode)).1)) := by
  cases h.place with
  | framed hat | reading hat | answering hat | ending hat => cases hplace.symm.trans hat
  | resuming _ hhandled hunasked hleft =>
      obtain ⟨-, hok, hongoing, hanswered, htarget, hasked⟩ := h.ongoing.resume h.awaits k.mode
      have hafter : Attention.after (x.world.session.send (.resume thread k.mode)).1 = .listening := by
        rw [hok]
        rfl
      rw [hafter]
      refine ⟨⟨?_, h.unseen, h.unended, h.stops, h.within⟩, trivial, nofun, fun hstopped => ?_,
        hasked.trans hunasked, Nat.lt_of_lt_of_le hleft (Nat.le_max_right 1 _)⟩
      · show World.Ongoing plan thread views result (List.replicate x.handled k.mode) _ _
        rw [hhandled, List.replicate_succ']
        exact hongoing
      · obtain ⟨top, hlast, htop⟩ := h.top
        refine .inl ⟨hanswered, top, hlast, ?_⟩
        show (x.world.session.send (.resume thread k.mode)).2.target.topOf thread = some top
        rw [htarget]
        exact htop

/-- **The limit is reached**, and the script leaves. -/
theorem Serving.terminate (h : Serving k plan thread views result answered x)
    (hplace : x.attention = .sending .terminate) :
    Leaving k plan thread views result
      (x.calls (x.world.session.send .terminate).2 (.after (x.world.session.send .terminate).1)) := by
  cases h.place with
  | framed hat | reading hat | answering hat | resuming hat => cases hplace.symm.trans hat
  | ending _ hhandled hreached =>
      obtain ⟨hok, hlapses, hstands, i, hprinted, hquitting⟩ := h.ongoing.terminate h.awaits h.top
      have hafter : Attention.after (x.world.session.send .terminate).1 = .listening := by
        rw [hok]
        rfl
      have hlimit : max 1 k.maxStops = x.handled := by
        have hfew := h.few
        omega
      rw [hafter]
      refine ⟨trivial, ⟨_, h.unseen.symm ▸ hquitting, ?_⟩, hlapses, .of_stands hstands⟩
      show Verdict _ _ _ _ x.stops
      rw [h.stops, ← hlimit]
      exact .cut hprinted (hlimit ▸ h.within)

/-- It goes on to look, and finds nothing. -/
theorem Leaving.look (h : Leaving k plan thread views result x) {attention : Attention}
    {pending : List Signal} (hlooks : attention.Looks x.world.session)
    (hended : .ended ∈ x.pending ∨ x.attention = .finished (.ok ()) →
      .ended ∈ pending ∨ attention = .finished (.ok ())) :
    Leaving k plan thread views result { x with pending, attention } :=
  ⟨hlooks, h.quitting, h.lapses, h.farewell.mono hended⟩

/-- A controller that is at a stop has something to do. -/
theorem Serving.isSome_attend (h : Serving k plan thread views result answered x) :
    (x.attend? k).isSome = true := by
  obtain ⟨expected, -, -, hreason, -⟩ := h.toUnderWay.expected h.awaits
  unfold attend?
  cases h.place with
  | framed hplace =>
      rw [hplace]
      dsimp only
      rw [hreason]
      rfl
  | @reading stop _ hplace =>
      rw [hplace]
      cases (x.world.framesOf thread).drop stop.frames.length <;> rfl
  | answering hplace | resuming hplace | ending hplace =>
      rw [hplace]
      rfl

/-- A controller that looks, and has nothing to do, waits for a signal. -/
theorem listening_of_rest (hlooks : x.attention.Looks x.world.session) (hrest : x.attend? k = none) :
    x.attention = .listening ∧ x.pending = [] ∨ x.attention = .finished (.ok ()) := by
  unfold attend? at hrest
  split at hrest
  · next hplace =>
      split at hrest
      · next hpending => exact .inl ⟨hplace, hpending⟩
      · cases hrest
      · cases hrest
  · cases hrest
  · split at hrest <;> cases hrest
  · split at hrest <;> cases hrest
  · next hplace => exact absurd hlooks (by rw [hplace]; exact id)
  · cases hrest
  · cases hrest
  · cases hrest
  · cases hrest
  · next reply hplace =>
      rw [hplace] at hlooks
      exact .inr (hplace.trans (congrArg Attention.finished hlooks))

/-- **When nobody can make another step**, the controller is over, and so is the script. -/
theorem Attended.rest (h : Attended k plan thread views result x) (hrest : ∀ party y, ¬ Step k x party y) :
    x.attention = .finished (.ok ()) ∧ ∃ outcome, x.outcome? = some outcome ∧
      Verdict (max 1 k.maxStops) (plan.stops thread k.mode none views) result outcome x.stops := by
  have hidle : x.world.dispatchStep? = none := by
    cases hd : x.world.dispatchStep? with
    | none => rfl
    | some next => exact absurd (.dispatcher (by rw [dispatch?, hd]; rfl)) (hrest .dispatcher (x.advance next))
  have hjobs : x.world.jobStep? = none := by
    cases hj : x.world.jobStep? with
    | none => rfl
    | some next => exact absurd (.script (by rw [work?, hj]; rfl)) (hrest .script (x.advance next))
  have hcontroller : x.attend? k = none := by
    cases hy : x.attend? k with
    | none => rfl
    | some y => exact absurd (.controller hy) (hrest .controller y)
  cases h with
  | serving h =>
      have hsome := h.isSome_attend
      rw [hcontroller] at hsome
      cases hsome
  | looking h =>
      -- The stop at which the script is held would have been signalled.
      obtain ⟨hplace, hpending⟩ := (listening_of_rest h.looks hcontroller).resolve_right (h.going _)
      obtain ⟨hawaits, hagenda, hevents⟩ := h.ongoing.rest hidle hjobs
      rcases h.noticed hawaits.hasStopped with ⟨⟨mode, hmode⟩, -⟩ | ⟨-, htold | hpended | hconcerns, -⟩
      · rw [hevents] at hmode
        cases hmode
      · rw [hagenda] at htold
        cases htold
      · rw [hpending] at hpended
        cases hpended
      · rw [hplace] at hconcerns
        exact hconcerns.elim
  | leaving h =>
      obtain ⟨outcome, hquitting, hverdict⟩ := h.quitting
      obtain ⟨hseen, hsilent⟩ := World.over_of_rest hquitting hidle hjobs
      refine ⟨?_, outcome, hseen, hverdict⟩
      rcases listening_of_rest h.looks hcontroller with ⟨-, hpending⟩ | hover
      · have hagenda : x.world.session.worker.agenda = [] := by
          cases hagenda : x.world.session.worker.agenda with
          | nil => rfl
          | cons task rest =>
              have hperform : ∃ session, x.world.session.perform? = some (task, session) :=
                ⟨_, by rw [Session.perform?, hagenda]⟩
              obtain ⟨session, hperform⟩ := hperform
              obtain ⟨w, reports, hd⟩ := World.exists_dispatchStep hquitting.calm hperform
              cases hidle.symm.trans hd
        rcases h.farewell.leaves hsilent.state with (hended | hover) | hleaves
        · rw [hpending] at hended
          cases hended
        · exact hover
        · rw [hagenda] at hleaves
          exact absurd rfl hleaves
      · exact hover

end

end Watch

end Pausepoint
