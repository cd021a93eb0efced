import Pausepoint.Proofs.Session.Pipeline
import Pausepoint.Proofs.World.Handshake

/-!
# Pausepoint.Proofs.World.Wakeful

The invariant of a world in which calls wait for decisions.

`Wakeful` puts together what holds of the session (`Session.Concord`), of the tasks of its
dispatcher that reach the engine, and of every thread (`Handshake`). It survives every move
(`wakeful_moves`); the proof goes through the moves one by one and cites the step lemmas of
the handshake.
-/

namespace Pausepoint

/-! ### The invariant -/

namespace World

/-- The handshake of a thread. -/
def ShakesHands (w : World) (thread : ThreadId) : Prop :=
  Handshake thread w.session.IsLive (w.session.target.standing thread)
    (lane thread w.session.queue.events) (w.session.Handing thread) (w.session.Resuming thread)
    (w.engine.slots.get? thread) (phaseOf w.jobs thread)

/-- **The invariant** of a world that nobody cancels or ends by a command, and whose calls wait
without a bound. -/
structure Wakeful (w : World) : Prop where
  calm : w.Calm
  concord : w.session.Concord
  uncancelled : w.session.queue.cancelled = false
  /-- At most one command at a time is passed on to the engine, and it ends nothing. -/
  forwards_short : w.session.forwards.length ≤ 1
  forwards_mild : ∀ c ∈ w.session.forwards, c ≠ .terminate ∧ c ≠ .disconnect
  /-- The engine is told of the end after the session has ended. -/
  closed : w.engine.closed ≠ none → ¬ w.session.IsLive
  /-- A session that is over passes nothing on. -/
  idle_over : ¬ w.session.IsLive → w.session.forwards = []
  unbounded : w.engine.resumeTimeout = none
  /-- No thread has two jobs. -/
  distinct : (w.jobs.map Job.thread).Nodup
  asks : ∀ j ∈ w.jobs, j.Asks
  shakesHands : ∀ thread, w.ShakesHands thread

theorem wakeful_create {settings : DebuggerSettings} (h : settings.resumeTimeout = none) :
    (create settings true).Wakeful where
  calm := ⟨rfl, rfl, rfl⟩
  concord := Session.concord_create settings
  uncancelled := rfl
  forwards_short := Nat.zero_le _
  forwards_mild := nofun
  closed hc := absurd rfl hc
  idle_over _ := rfl
  unbounded := h
  distinct := List.nodup_nil
  asks _ hj := absurd hj List.not_mem_nil
  shakesHands thread := by
    have hh : ¬ (create settings true).session.Handing thread := by
      rintro ⟨mode, hmode⟩
      cases hmode
    have hr : ¬ (create settings true).session.Resuming thread := by
      rintro ⟨mode, hmode | hmode⟩ <;> cases hmode
    unfold ShakesHands
    rw [eq_false hh, eq_false hr]
    exact Handshake.fresh thread _

/-! ### Moves of the control side, and new jobs -/

theorem phaseOf_begin {w : World} {j : Job} (nextHeap : Nat) (hphase : j.phase = none)
    (hnew : j.thread ∉ w.jobs.map Job.thread) (thread : ThreadId) :
    phaseOf (({ w with nextHeap } : World).begin j).jobs thread = phaseOf w.jobs thread := by
  rw [jobs_begin]
  exact phaseOf_snoc hphase hnew thread

theorem wakeful_begin {w : World} (h : w.Wakeful) {j : Job} (nextHeap : Nat) (hphase : j.phase = none)
    (hnew : j.thread ∉ w.jobs.map Job.thread) : (({ w with nextHeap } : World).begin j).Wakeful := by
  have hb : (({ w with nextHeap } : World).begin j).bridge = w.bridge := bridge_begin _ j
  have hs : (({ w with nextHeap } : World).begin j).session = w.session := congrArg Bridge.session hb
  have he : (({ w with nextHeap } : World).begin j).engine = w.engine := congrArg Bridge.engine hb
  refine ⟨calm_begin (w := { w with nextHeap }) ⟨h.calm.attached, h.calm.traps, h.calm.held⟩ j,
    ?_, ?_, ?_, ?_, ?_, ?_, ?_, ?_, ?_, fun thread => ?_⟩
  · rw [hs]; exact h.concord
  · rw [hs]; exact h.uncancelled
  · rw [hs]; exact h.forwards_short
  · rw [hs]; exact h.forwards_mild
  · rw [hs, he]; exact h.closed
  · rw [hs]; exact h.idle_over
  · rw [he]; exact h.unbounded
  · exact nodup_begin hnew h.distinct
  · exact forall_jobs_begin (asks_of_no_phase hphase) h.asks
  · unfold ShakesHands
    rw [hs, he, phaseOf_begin nextHeap hphase hnew]
    exact h.shakesHands thread

/-- Commands are queued. -/
theorem wakeful_commanded {w : World} (h : w.Wakeful) {session : Session} {cs : List Command}
    (hcs : w.session.Commanded session cs) : (w.withSession session).Wakeful := by
  have hs : (w.withSession session).session = session := rfl
  have hforwards : session.forwards = w.session.forwards := by
    rw [Session.forwards, hcs.worker]
    rfl
  refine ⟨⟨h.calm.attached, h.calm.traps, h.calm.held⟩, Session.concord_commanded h.concord hcs,
    ?_, ?_, ?_, ?_, ?_, h.unbounded, h.distinct, h.asks, fun thread => ?_⟩
  · rw [hs, hcs.queue]; exact h.uncancelled
  · rw [hs, hforwards]; exact h.forwards_short
  · rw [hs, hforwards]; exact h.forwards_mild
  · rw [hs, hcs.isLive]; exact h.closed
  · rw [hs, hcs.isLive, hforwards]; exact h.idle_over
  · have hlane : lane thread session.queue.events = lane thread w.session.queue.events := by
      rw [hcs.events, lane_append, lane_commands, List.append_nil]
    have hhanding : session.Handing thread ↔ w.session.Handing thread := by
      rw [Session.Handing, hforwards]
      rfl
    have hold := h.shakesHands thread
    unfold ShakesHands at hold ⊢
    rw [hs, hcs.isLive, hlane, propext hhanding]
    by_cases hl : w.session.IsLive
    · rw [hcs.target.standing (h.concord hl).indexed]
      refine hold.frame id ?_
      rintro - - ⟨mode, hmode | hmode⟩
      · exact ⟨mode, .inl (by rw [hcs.events]; exact List.mem_append_left _ hmode)⟩
      · exact ⟨mode, .inr (by rw [hcs.worker]; exact hmode)⟩
    · exact hold.dead hl id

theorem wakeful_call {w : World} (h : w.Wakeful) {c : ControlCall} (hc : c ≠ .cancel) :
    (w.withSession (c.run w.session)).Wakeful := by
  obtain ⟨cs, hcs⟩ := ControlCall.commanded w.session c hc
  exact wakeful_commanded h hcs

/-! ### Steps of jobs -/

/-- All that the session may have got from a thread is reports about it at the end of its queue. -/
structure Heard (s s' : Session) (thread : ThreadId) : Prop where
  target : s'.target = s.target
  worker : s'.worker = s.worker
  queue : ∃ es : List Event, s'.queue = { s.queue with events := s.queue.events ++ es } ∧
    ∀ other, other ≠ thread → lane other es = []

theorem Heard.refl (s : Session) (thread : ThreadId) : Heard s s thread :=
  ⟨rfl, rfl, [], by simp, fun _ _ => rfl⟩

theorem heard_notify (s : Session) {n : Notification} {thread : ThreadId}
    (h : ∀ other, other ≠ thread → n.thread? ≠ some other) : Heard s (s.notify n).2 thread := by
  obtain ⟨ht, hw, -, hq | hq⟩ := Session.notify_frame s n
  · exact ⟨ht, hw, [], by simp [hq], fun _ _ => rfl⟩
  · exact ⟨ht, hw, _, hq, fun other hne => lane_cons_of_ne (h other hne) []⟩

/-- What a report is about hears of it, and nobody else. -/
theorem heard_own (s : Session) {n : Notification} {thread : ThreadId} (h : n.thread? = some thread) :
    Heard s (s.notify n).2 thread := by
  refine heard_notify s fun other hne he => hne ?_
  exact Option.some.inj (he.symm.trans h)

namespace Heard

variable {s s' : Session} {thread : ThreadId}

theorem isLive (h : Heard s s' thread) : s'.IsLive ↔ s.IsLive := by
  obtain ⟨es, hq, -⟩ := h.queue
  have hcancelled : s'.queue.cancelled = s.queue.cancelled := by rw [hq]
  exact ⟨fun hl => ⟨h.target ▸ hl.target, hcancelled ▸ hl.queue⟩,
    fun hl => ⟨h.target.symm ▸ hl.target, hcancelled.symm ▸ hl.queue⟩⟩

theorem forwards (h : Heard s s' thread) : s'.forwards = s.forwards := by
  rw [Session.forwards, h.worker]
  rfl

theorem handing (h : Heard s s' thread) (other : ThreadId) :
    s'.Handing other ↔ s.Handing other := by
  rw [Session.Handing, h.forwards]
  rfl

theorem resuming (h : Heard s s' thread) {other : ThreadId} (hr : s.Resuming other) :
    s'.Resuming other := by
  obtain ⟨es, hq, -⟩ := h.queue
  obtain ⟨mode, hmode | hmode⟩ := hr
  · exact ⟨mode, .inl (by rw [hq]; exact List.mem_append_left _ hmode)⟩
  · exact ⟨mode, .inr (by rw [h.worker]; exact hmode)⟩

theorem lane_other (h : Heard s s' thread) {other : ThreadId} (hne : other ≠ thread) :
    lane other s'.queue.events = lane other s.queue.events := by
  obtain ⟨es, hq, hes⟩ := h.queue
  rw [hq, lane_append, hes other hne, List.append_nil]

end Heard

/-- **What a step of a job must show**: the session only heard of its thread, the engine only
changed the slot of its thread, and the thread still shakes hands. -/
theorem wakeful_advanced {w : World} (h : w.Wakeful) {b : Bridge} {before after : List Job}
    {j j' : Job} (hjobs : w.jobs = before ++ j :: after) (hthread : j'.thread = j.thread)
    (hover : j'.result?.isSome → j'.phase = none) (hasks : j'.Asks) (hconcord : b.session.Concord)
    (hheard : Heard w.session b.session j.thread) (hclosed : b.engine.closed = w.engine.closed)
    (htimeout : b.engine.resumeTimeout = w.engine.resumeTimeout)
    (hslots : ∀ other, other ≠ j.thread →
      b.engine.slots.get? other = w.engine.slots.get? other)
    (hown : Handshake j.thread w.session.IsLive (w.session.target.standing j.thread)
      (lane j.thread b.session.queue.events) (w.session.Handing j.thread)
      (w.session.Resuming j.thread) (b.engine.slots.get? j.thread) j'.phase) :
    (w.advanced b before j' after).Wakeful := by
  have hb := bridge_advanced w b before j' after
  have hs : (w.advanced b before j' after).session = b.session := congrArg Bridge.session hb
  have he : (w.advanced b before j' after).engine = b.engine := congrArg Bridge.engine hb
  obtain ⟨es, hq, -⟩ := hheard.queue
  refine ⟨calm_advanced h.calm b before j' after, ?_, ?_, ?_, ?_, ?_, ?_, ?_, ?_, ?_,
    fun thread => ?_⟩
  · rw [hs]; exact hconcord
  · rw [hs, hq]; exact h.uncancelled
  · rw [hs, hheard.forwards]; exact h.forwards_short
  · rw [hs, hheard.forwards]; exact h.forwards_mild
  · rw [hs, he, hheard.isLive, hclosed]; exact h.closed
  · rw [hs, hheard.isLive, hheard.forwards]; exact h.idle_over
  · rw [he, htimeout]; exact h.unbounded
  · exact nodup_advanced hjobs hthread h.distinct
  · exact forall_jobs_advanced hjobs hasks h.asks
  · unfold ShakesHands
    rw [hs, he, phaseOf_advanced hjobs hthread hover h.distinct, hheard.isLive, hheard.target,
      propext (hheard.handing thread)]
    -- For the thread that moved the handshake is given; the others notice nothing.
    by_cases hne : thread = j.thread
    · subst hne
      rw [if_pos rfl]
      exact hown.frame id fun _ _ => hheard.resuming
    · rw [if_neg hne, hheard.lane_other hne, hslots thread hne]
      exact (h.shakesHands thread).frame id fun _ _ => hheard.resuming

/-- The slot of a thread, dropped or taken up, is no other thread's. -/
theorem slots_dropSlot (e : Engine) (thread other : ThreadId) :
    (e.dropSlot thread).slots.get? other = if other = thread then none else e.slots.get? other :=
  Table.get?_erase e.slots thread other

theorem slots_openSlot (e : Engine) (thread other : ThreadId) :
    (e.openSlot thread).slots.get? other =
      if other = thread then some none else e.slots.get? other :=
  Table.get?_insert e.slots thread other none

/-- Taking a decision up drops the slot; for the rest only the step of the thread changes. -/
theorem takeUp_frame (e : Engine) (thread : ThreadId) (p : Pause) (mode : Mode) :
    (e.takeUp thread p mode).slots = (e.dropSlot thread).slots ∧
      (e.takeUp thread p mode).closed = e.closed ∧
      (e.takeUp thread p mode).resumeTimeout = e.resumeTimeout := by
  unfold Engine.takeUp
  dsimp only
  split
  · exact ⟨rfl, rfl, rfl⟩
  · split <;> exact ⟨rfl, rfl, rfl⟩

/-- The lane of a thread after a report about it. -/
theorem lane_notify (s : Session) {n : Notification} {thread : ThreadId}
    (h : n.thread? = some thread ∨ n.thread? = none) :
    lane thread (s.notify n).2.queue.events = lane thread s.queue.events ∨
      n.thread? = some thread ∧
        lane thread (s.notify n).2.queue.events = lane thread s.queue.events ++ [n] := by
  obtain ⟨-, -, -, hq | hq⟩ := Session.notify_frame s n
  · exact .inl (by rw [hq])
  · rcases h with h | h
    · exact .inr ⟨h, by rw [hq, lane_append, lane_cons_self h, lane_nil]⟩
    · exact .inl (by rw [hq, lane_append, lane_cons_of_ne (by simp [h]), lane_nil, List.append_nil])

/-- A pause that a live session admits waits at the end of its lane. -/
theorem lane_of_admitted {s : Session} (h : s.Concord) (hl : s.IsLive) {n : Notification}
    {thread : ThreadId} (hid : n.thread? = some thread) (hp : n.isPause = true)
    (hok : (s.notify n).1 = .ok ()) :
    lane thread (s.notify n).2.queue.events = lane thread s.queue.events ++ [n] := by
  have ha := h hl
  obtain ⟨cause, -, hn⟩ | ⟨gate, hgate, hn | ⟨hmem, -⟩⟩ := Session.notify_cases ha.queue_open n
  · rw [hn] at hok
    cases hok
  · rw [hn, lane_append, lane_cons_self hid, lane_nil]
  · have hon := ha.agreesOn thread
    exact absurd (settled_of_pause hon.own hon.fits (mem_lane.mpr ⟨hmem, hid⟩) hp)
      (hon.not_suspended_of_accept hid hgate)

/-- A step between places without a slot, after which the session may have heard something that
suspends nobody. -/
theorem wakeful_slotless {w : World} (h : w.Wakeful) (session : Session) {before after : List Job}
    {j j' : Job} (hjobs : w.jobs = before ++ j :: after) (hthread : j'.thread = j.thread)
    (hover : j'.result?.isSome → j'.phase = none) (hasks : j'.Asks) (hconcord : session.Concord)
    (hheard : Heard w.session session j.thread) (hphase : phaseOf w.jobs j.thread = j.phase)
    (hs : Slotless j.thread j.phase) (hs' : Slotless j.thread j'.phase)
    (hns : w.session.IsLive → settled (w.session.target.stateOf j.thread)
      (lane j.thread session.queue.events) ≠ some .suspended) :
    (w.advanced { w.bridge with session } before j' after).Wakeful := by
  refine wakeful_advanced h hjobs hthread hover hasks hconcord hheard rfl rfl (fun _ _ => rfl) ?_
  have hold := h.shakesHands j.thread
  unfold ShakesHands at hold
  rw [hphase] at hold
  rw [Target.stateOf_eq_standing] at hns
  exact hold.slotless hs hs' hns

/-- Places without a slot, before a pause or after a decision on it. -/
theorem slotless_none (thread : ThreadId) : Slotless thread none :=
  ⟨rfl, nofun, rfl⟩

theorem slotless_returned (thread : ThreadId) (reply : Reply) :
    Slotless thread (some (.returned reply)) :=
  ⟨rfl, nofun, rfl⟩

theorem slotless_entering (thread : ThreadId) (r : Request) : Slotless thread (some (.entering r)) :=
  ⟨rfl, nofun, rfl⟩

theorem slotless_confirming (thread : ThreadId) (mode : Mode) :
    Slotless thread (some (.confirming mode)) :=
  ⟨rfl, nofun, rfl⟩

theorem slotless_opening {thread : ThreadId} {p : Pause} (h : p.ShapedFor thread) :
    Slotless thread (some (.opening p)) :=
  ⟨rfl, by rintro q ⟨⟩; exact h, rfl⟩

/-- A thread whose call has no slot is not led to a suspension. -/
theorem not_suspended_of_slotless {w : World} (h : w.Wakeful) {thread : ThreadId}
    (hs : Slotless thread (phaseOf w.jobs thread)) (hl : w.session.IsLive) :
    settled (w.session.target.stateOf thread) (lane thread w.session.queue.events) ≠ some .suspended := by
  rw [Target.stateOf_eq_standing]
  exact (h.shakesHands thread).not_suspended hl hs.not_waits

/-- A step between such places that nobody hears of. -/
theorem wakeful_aside {w : World} (h : w.Wakeful) {before after : List Job} {j j' : Job}
    {phase phase' : Option Phase} (hjobs : w.jobs = before ++ j :: after)
    (hstep : j.advance? w.bridge = some (w.bridge, j')) (hbefore : j.phase = phase)
    (hafter : j'.phase = phase') (hs : Slotless j.thread phase) (hs' : Slotless j.thread phase') :
    (w.advanced w.bridge before j' after).Wakeful := by
  subst hbefore hafter
  have hphase : phaseOf w.jobs j.thread = j.phase :=
    phaseOf_of_mem h.distinct (by rw [hjobs]; simp)
  obtain ⟨-, hthread⟩ := callStep_of_job hstep
  refine wakeful_slotless h w.session hjobs hthread (phase_of_result hstep) (asks_of_advance hstep)
    h.concord (.refl _ _) hphase hs hs' fun hl => ?_
  exact not_suspended_of_slotless h (by rw [hphase]; exact hs) hl

/-- A step that drops the slot of its call, which goes on without: no decision is on its way to it, and the
thread is not led to a suspension. -/
theorem wakeful_dropped {w : World} (h : w.Wakeful) {b : Bridge} {before after : List Job} {j j' : Job}
    (hjobs : w.jobs = before ++ j :: after) (hthread : j'.thread = j.thread)
    (hover : j'.result?.isSome → j'.phase = none) (hasks : j'.Asks) (hconcord : b.session.Concord)
    (hheard : Heard w.session b.session j.thread) (hclosed : b.engine.closed = w.engine.closed)
    (htimeout : b.engine.resumeTimeout = w.engine.resumeTimeout)
    (hslots : b.engine.slots = (w.engine.dropSlot j.thread).slots) (hs' : Slotless j.thread j'.phase)
    (hnot : ¬ w.session.Handing j.thread)
    (hns : w.session.IsLive → settled ((w.session.target.standing j.thread).map Prod.fst)
      (lane j.thread b.session.queue.events) ≠ some .suspended) :
    (w.advanced b before j' after).Wakeful := by
  refine wakeful_advanced h hjobs hthread hover hasks hconcord hheard hclosed htimeout
    (fun other hne => ?_) ?_
  · rw [hslots, slots_dropSlot, if_neg hne]
  · rw [hslots, slots_dropSlot, if_pos rfl]
    exact Handshake.drop hs' hnot hns

/-- A report that is refused while the queue is open leaves nothing behind. -/
theorem notify_of_refused {s : Session} (hopen : s.queue.closed = false) {n : Notification} {cause : Refusal}
    (hrefused : (s.notify n).1 = .error cause) : (s.notify n).2 = s := by
  obtain ⟨cause', -, hn⟩ | ⟨gate, -, hn | ⟨-, hn⟩⟩ := Session.notify_cases hopen n
  · rw [hn]
  all_goals
    rw [hn] at hrefused
    cases hrefused

/-- **A step of a job keeps the invariant.** -/
theorem wakeful_step {w : World} (h : w.Wakeful) {b : Bridge} {before after : List Job} {j j' : Job}
    (hjobs : w.jobs = before ++ j :: after) (hstep : j.advance? w.bridge = some (b, j')) :
    (w.advanced b before j' after).Wakeful := by
  obtain ⟨hcall, hthread⟩ := callStep_of_job hstep
  have hover := phase_of_result hstep
  have hasks := asks_of_advance hstep
  have hphase : phaseOf w.jobs j.thread = j.phase :=
    phaseOf_of_mem h.distinct (by rw [hjobs]; simp)
  have hold := h.shakesHands j.thread
  unfold ShakesHands at hold
  rw [hphase] at hold
  -- Whoever has no slot is not suspended, now or by what it has reported.
  have hcalm (hs : Slotless j.thread j.phase) (hl : w.session.IsLive) :
      settled (w.session.target.stateOf j.thread) (lane j.thread w.session.queue.events) ≠
        some .suspended :=
    not_suspended_of_slotless h (by rw [hphase]; exact hs) hl
  -- Steps without a slot share one lemma, and so do those that drop it.
  generalize hbefore : j.phase = phase, hafter : j'.phase = phase' at hcall
  cases hcall with
  | silent => exact wakeful_aside h hjobs hstep hbefore hafter (slotless_none _) (slotless_returned _ _)
  | enter r => exact wakeful_aside h hjobs hstep hbefore hafter (slotless_none _) (slotless_entering _ _)
  | refuse | pass =>
      exact wakeful_aside h hjobs hstep hbefore hafter (slotless_entering _ _) (slotless_returned _ _)
  | pause hd =>
      exact wakeful_aside h hjobs hstep hbefore hafter (slotless_entering _ _)
        (slotless_opening (Engine.shaped_of_decide hd))
  | leave reply =>
      exact wakeful_aside h hjobs hstep hbefore hafter (slotless_returned _ _) (slotless_none _)
  | @announce n hn =>
      have hs : Slotless j.thread j.phase := by rw [hbefore]; exact slotless_none _
      refine wakeful_slotless h (w.session.notify _).2 hjobs hthread hover hasks
        (Session.concord_notify h.concord _) (heard_notify _ fun other _ => by simp [hn]) hphase hs
        (by rw [hafter]; exact slotless_returned _ _) fun hl => ?_
      have hnobody : n.thread? = some j.thread ∨ n.thread? = none := .inr hn
      rcases lane_notify w.session hnobody with he | ⟨hid, -⟩
      · rw [he]
        exact hcalm hs hl
      · rw [hn] at hid
        cases hid
  | confirm mode =>
      have hs : Slotless j.thread j.phase := by rw [hbefore]; exact slotless_confirming _ _
      have hid : (Notification.resumed j.thread mode).thread? = some j.thread := rfl
      refine wakeful_slotless h (w.session.notify _).2 hjobs hthread hover hasks
        (Session.concord_notify h.concord _) (heard_own _ hid) hphase hs
        (by rw [hafter]; exact slotless_returned _ _) fun hl => ?_
      rcases lane_notify w.session (.inl hid) with he | ⟨-, he⟩
      · rw [he]
        exact hcalm hs hl
      · rw [he, settled_append]
        exact fun hsus => mode.runs_resultingState.ne_suspended (Option.some.inj hsus)
  | openSlot p =>
      refine wakeful_advanced h hjobs hthread hover hasks h.concord (.refl _ _) rfl rfl
        (fun other hne => by rw [slots_openSlot, if_neg hne]; rfl) ?_
      rw [slots_openSlot, if_pos rfl, hafter]
      rw [hbefore] at hold
      exact hold.openSlot
  | @report p hok =>
      rw [hbefore] at hold
      have hshape := hold.shaped p rfl
      refine wakeful_advanced h hjobs hthread hover hasks (Session.concord_notify h.concord _)
        (heard_own _ hshape.thread?) rfl rfl
        (fun _ _ => rfl) ?_
      rw [hafter]
      by_cases hl : w.session.IsLive
      · rw [show (w.bridge.mention p.report).session = (w.session.notify p.report).2 from rfl,
          lane_of_admitted h.concord hl hshape.thread? hshape.isPause hok]
        exact hold.report
      · exact hold.report.dead hl id
  | @unreported p cause hrefused =>
      rw [hbefore] at hold
      have hshape := hold.shaped p rfl
      have hw : ¬ Waits (some (.reporting p)) := by rintro ⟨q, hq⟩; cases hq
      refine wakeful_dropped h hjobs hthread hover hasks (Session.concord_notify h.concord _)
        (heard_own _ hshape.thread?) rfl rfl rfl (hafter ▸ slotless_returned _ _) (hold.not_handing hw)
        fun hl => ?_
      have hsame : (w.session.notify p.report).2 = w.session :=
        notify_of_refused (h.concord hl).queue_open hrefused
      rw [show (w.bridge.mention p.report).session = w.session from hsame]
      exact hold.not_suspended hl hw
  | @takeUp p mode hwake =>
      rw [hbefore] at hold
      obtain ⟨hslots, hclosed, htimeout⟩ := takeUp_frame w.engine j.thread p mode
      have hslot : w.engine.slots.get? j.thread = some (some mode) := Engine.decided_of_wakening hwake
      obtain ⟨hnot, hns⟩ := hold.calm_of_decided hslot
      exact wakeful_dropped h hjobs hthread hover hasks h.concord (.refl _ _) hclosed htimeout hslots
        (hafter ▸ slotless_confirming _ _) hnot hns
  | @closed p c hwake =>
      -- Only the end of the session closes an engine.
      have hdead : ¬ w.session.IsLive := by
        refine h.closed ?_
        rw [show w.engine.closed = some c from Engine.closed_of_wakening hwake]
        nofun
      have hnot : ¬ w.session.Handing j.thread := by
        rintro ⟨mode, hmode⟩
        rw [h.idle_over hdead] at hmode
        cases hmode
      exact wakeful_dropped h hjobs hthread hover hasks h.concord (.refl _ _) rfl rfl rfl
        (hafter ▸ slotless_returned _ _) hnot fun hl => absurd hl hdead
  | abandon | excuse =>
      -- Nobody gives up without a bound on pauses.
      have hgave := hold.gaveUp
      rw [hbefore] at hgave
      cases hgave

/-- Nobody gives up in a world without a bound. -/
theorem giveUp?_of_wakeful {w : World} (h : w.Wakeful) (j : Job) : j.giveUp? w.bridge = none := by
  cases hgive : j.giveUp? w.bridge with
  | none => rfl
  | some next =>
      obtain ⟨b, j'⟩ := next
      obtain ⟨p, milliseconds, -, htime, -⟩ := giveUp?_cases hgive
      rw [show w.bridge.engine.resumeTimeout = none from h.unbounded] at htime
      cases htime

/-! ### Tasks of the dispatcher -/

/-- A task changes an engine only if it passes something on. -/
theorem effectOnEngine_of_quiet (e : Engine) {task : Task} (h : task.forwarded? = none)
    (h' : task ≠ .forwardClosed) : effectOnEngine e task = e := by
  cases task <;> simp_all [effectOnEngine, Task.forwarded?]

/-- Closing an engine touches no slot. -/
theorem close_frame (e : Engine) : e.close.slots = e.slots ∧ e.close.resumeTimeout = e.resumeTimeout := by
  unfold Engine.close
  split <;> exact ⟨rfl, rfl⟩

/-- A command that ends nothing is for one slot at most, and leaves the engine open. -/
theorem apply_frame (e : Engine) {c : Command} (hc : c ≠ .terminate ∧ c ≠ .disconnect) :
    (effectOnEngine e (.forward c)).closed = e.closed ∧
      (effectOnEngine e (.forward c)).resumeTimeout = e.resumeTimeout ∧
      ∀ thread, (∀ mode, c ≠ .resume thread mode) →
        (effectOnEngine e (.forward c)).slots.get? thread = e.slots.get? thread := by
  unfold effectOnEngine
  dsimp only
  split
  · exact ⟨rfl, rfl, fun _ _ => rfl⟩
  · cases c with
    | terminate => exact absurd rfl hc.1
    | disconnect => exact absurd rfl hc.2
    | setBreakpoint => exact ⟨rfl, rfl, fun _ _ => rfl⟩
    | resume id mode =>
        unfold Engine.apply
        dsimp only
        split
        · refine ⟨rfl, rfl, fun thread hne => ?_⟩
          have hthread : thread ≠ id := by
            rintro rfl
            exact hne mode rfl
          rw [Table.get?_insert, if_neg hthread]
        · exact ⟨rfl, rfl, fun _ _ => rfl⟩

/-- A decision fills the slot that waits for it. -/
theorem apply_resume {e : Engine} {thread : ThreadId} (mode : Mode)
    (h : e.slots.get? thread = some none) :
    (effectOnEngine e (.forward (.resume thread mode))).slots.get? thread = some (some mode) := by
  simp [effectOnEngine, marker, Engine.apply, h]

/-- A decision that is queued, or will be, stays so. -/
theorem resuming_perform {s s' : Session} {task : Task} (h : s.Concord) (hl : s.IsLive)
    (hs : s.perform? = some (task, s')) {thread : ThreadId} (hr : s.Resuming thread) :
    s'.Resuming thread := by
  obtain ⟨rest, hagenda, rfl⟩ := Session.perform?_cases hs
  have ha := h hl
  have hordinary := ha.ordinary task (by rw [hagenda]; exact List.mem_cons_self)
  obtain ⟨mode, hmode⟩ := hr
  rw [hagenda] at hmode
  cases task with
  | release | callback | command | forward =>
      refine ⟨mode, hmode.imp_right fun hmem => ?_⟩
      simpa using hmem
  | followUp c =>
      have hopen : (s.withAgenda rest).queue.closed = false := ha.queue_open
      obtain ⟨-, hold, hnew⟩ := Session.mem_submit hopen c
      refine ⟨mode, ?_⟩
      rcases hmode with hmem | hmem
      · exact .inl (hold _ hmem)
      · rcases List.mem_cons.mp hmem with he | hmem
        · cases he
          exact .inl hnew
        · exact .inr (by simpa using hmem)
  | releaseAll | lastCallback | closeQueue | closeGate | forwardClosed | announceClosed | finish =>
      exact hordinary.elim

/-- What comes next on the agenda of a live session ends nothing. -/
theorem ordinary_of_perform {w : World} (h : w.Wakeful) {task : Task} {session : Session}
    (hs : w.session.perform? = some (task, session)) (hl : w.session.IsLive) : task.IsOrdinary := by
  obtain ⟨rest, hagenda, -⟩ := Session.perform?_cases hs
  exact (h.concord hl).ordinary task (by rw [hagenda]; exact List.mem_cons_self)

/-- What is passed on next ends nothing. -/
theorem mild_of_perform {w : World} (h : w.Wakeful) {c : Command} {session : Session}
    (hs : w.session.perform? = some (.forward c, session)) : c ≠ .terminate ∧ c ≠ .disconnect := by
  refine h.forwards_mild c ?_
  rw [Session.forwards_perform hs]
  exact List.mem_cons_self

/-- Does a task pass something on? -/
theorem forward_or_quiet (task : Task) : (∃ c, task = .forward c) ∨ task.forwarded? = none := by
  cases task with
  | forward c => exact .inl ⟨c, rfl⟩
  | _ => exact .inr rfl

/-- **A task is done**, which is the handing over of a decision or does not matter. -/
theorem handshake_task {w : World} (h : w.Wakeful) {task : Task} {session : Session}
    (hs : w.session.perform? = some (task, session)) (thread : ThreadId) :
    Handshake thread w.session.IsLive (w.session.target.standing thread)
      (lane thread session.queue.events) (session.Handing thread) (session.Resuming thread)
      ((effectOnEngine w.engine task).slots.get? thread) (phaseOf w.jobs thread) := by
  have hold := h.shakesHands thread
  unfold ShakesHands at hold
  by_cases hl : w.session.IsLive
  · rw [Session.lane_perform h.concord hs hl]
    have hresuming : w.session.IsLive →
        (w.session.target.standing thread).map Prod.fst = some .suspended →
        w.session.Resuming thread → session.Resuming thread :=
      fun _ _ => resuming_perform h.concord hl hs
    -- Only a command that is forwarded touches slots; a decision fills the one it is for.
    obtain ⟨c, rfl⟩ | hquiet := forward_or_quiet task
    · obtain ⟨hafter, hbefore⟩ := Session.handing_of_forward hs h.forwards_short thread
      rw [eq_false hafter]
      by_cases hmode : ∃ mode, c = .resume thread mode
      · rw [eq_true (hbefore.mpr hmode)] at hold
        obtain ⟨mode, rfl⟩ := hmode
        rw [apply_resume mode (hold.handed trivial).1]
        exact (hold.hand mode).frame id hresuming
      · rw [eq_false (mt hbefore.mp hmode)] at hold
        obtain ⟨-, -, hslots⟩ := apply_frame w.engine (mild_of_perform h hs)
        rw [hslots thread fun mode he => hmode ⟨mode, he⟩]
        exact hold.frame id hresuming
    · have hne : task ≠ .forwardClosed := by
        rintro rfl
        exact ordinary_of_perform h hs hl
      rw [propext (Session.handing_of_quiet hs hquiet thread), effectOnEngine_of_quiet _ hquiet hne]
      exact hold.frame id hresuming
  · have hquiet : task.forwarded? = none := by
      have hnil := h.idle_over hl
      rw [Session.forwards_perform hs] at hnil
      simpa using (List.append_eq_nil_iff.mp hnil).1
    have hslots : (effectOnEngine w.engine task).slots = w.engine.slots := by
      by_cases hne : task = .forwardClosed
      · subst hne
        exact (close_frame w.engine).1
      · rw [effectOnEngine_of_quiet _ hquiet hne]
    rw [hslots]
    exact hold.dead hl (Session.handing_of_quiet hs hquiet thread).mp

/-- **A task of the dispatcher keeps the invariant.** -/
theorem wakeful_perform {w w' : World} (h : w.Wakeful) {task : Task} {session : Session}
    (hcalm : w'.Calm) (hjobs : SameCalls w.jobs w'.jobs)
    (hs : w.session.perform? = some (task, session))
    (hb : w'.bridge = { session, engine := effectOnEngine w.engine task }) : w'.Wakeful := by
  have hs' : w'.session = session := congrArg Bridge.session hb
  have he' : w'.engine = effectOnEngine w.engine task := congrArg Bridge.engine hb
  have hsplit := Session.forwards_perform hs
  obtain ⟨rest, -, hsession⟩ := Session.perform?_cases hs
  have hlive : session.IsLive ↔ w.session.IsLive := by
    rw [hsession, Session.isLive_effect]
    exact ⟨fun hl => ⟨hl.target, hl.queue⟩, fun hl => ⟨hl.target, hl.queue⟩⟩
  have htarget : session.target = w.session.target := by
    rw [hsession]
    exact Session.target_effect _ task
  -- The agenda loses its first task; the target and the lanes are as they were.
  refine ⟨hcalm, ?_, ?_, ?_, ?_, ?_, ?_, ?_, ?_, hjobs.asks h.asks, fun thread => ?_⟩
  · rw [hs']; exact Session.concord_perform h.concord hs
  · rw [hs', hsession, Session.cancelled_effect]; exact h.uncancelled
  · rw [hs']
    have hshort := h.forwards_short
    rw [hsplit, List.length_append] at hshort
    omega
  · rw [hs']
    exact fun c hc => h.forwards_mild c (by rw [hsplit]; exact List.mem_append_right _ hc)
  · rw [hs', he', hlive]
    intro hclosed hl
    -- As long as the session is live, no task ends it.
    have hordinary := ordinary_of_perform h hs hl
    have hsame : (effectOnEngine w.engine task).closed = w.engine.closed := by
      cases task with
      | forward c => exact (apply_frame w.engine (mild_of_perform h hs)).1
      | release | callback | command | followUp => rfl
      | releaseAll | lastCallback | closeQueue | closeGate | forwardClosed | announceClosed
      | finish => exact hordinary.elim
    rw [hsame] at hclosed
    exact h.closed hclosed hl
  · rw [hs', hlive]
    intro hdead
    have hnil := h.idle_over hdead
    rw [hsplit] at hnil
    exact (List.append_eq_nil_iff.mp hnil).2
  · rw [he']
    cases task with
    | forward c =>
        rw [(apply_frame w.engine (mild_of_perform h hs)).2.1]
        exact h.unbounded
    | forwardClosed => exact ((close_frame w.engine).2).trans h.unbounded
    | release | callback | command | followUp | releaseAll | lastCallback | closeQueue | closeGate
    | announceClosed | finish => exact h.unbounded
  · rw [hjobs.threads]; exact h.distinct
  · unfold ShakesHands
    rw [hs', he', hjobs.phaseOf, hlive, htarget]
    exact handshake_task h hs thread

/-! ### Events -/

/-- A decision stays queued while something else is handled. -/
theorem resuming_take {s : Session} {e : Event} {rest : List Event} (hidle : s.worker.agenda = [])
    (hevents : s.queue.events = e :: rest) (thread : ThreadId)
    (hne : ∀ mode, e ≠ .command (.resume thread mode)) (hr : s.Resuming thread) :
    ((s.withEvents rest).handle e).Resuming thread := by
  obtain ⟨mode, hmode | hmode⟩ := hr
  · rw [hevents] at hmode
    rcases List.mem_cons.mp hmode with he | hmem
    · exact absurd he.symm (hne mode)
    · exact ⟨mode, .inl (by simpa using hmem)⟩
  · rw [hidle] at hmode
    cases hmode

/-- **A report is dispatched.** -/
theorem handshake_report {s : Session} (ha : s.Agrees) (hl : s.IsLive) (hidle : s.worker.agenda = [])
    {n : Notification} {rest : List Event} (hevents : s.queue.events = .notification n :: rest)
    (hlive : ((s.withEvents rest).handle (.notification n)).IsLive) {thread : ThreadId}
    {slot : Option (Option Mode)} {phase : Option Phase}
    (hold : Handshake thread s.IsLive (s.target.standing thread) (lane thread s.queue.events)
      False (s.Resuming thread) slot phase) :
    Handshake thread s.IsLive ((s.targetAfter (.notification n)).standing thread) (lane thread rest)
      False (((s.withEvents rest).handle (.notification n)).Resuming thread) slot phase := by
  have hresuming := resuming_take hidle hevents thread (fun _ => nofun)
  rw [hevents] at hold
  cases hid : n.thread? with
  | none =>
      rw [lane_cons_of_ne (by simp [hid])] at hold
      -- A report of nobody changes no thread, or else it is the end of the engine.
      have hsame : (s.targetAfter (.notification n)).standing thread = s.target.standing thread := by
        cases n with
        | engineStarted =>
            cases hs : s.target.state <;>
              simp [Session.targetAfter, Target.handleNotification, hs, Target.standing, Target.thread?]
        | engineTerminated =>
            refine absurd ?_ hlive.target
            rw [Session.target_handle, Session.targetAfter_withEvents]
            exact Target.state_handleNotification_engineTerminated s.target s.breakpoints
        | scriptReady | stackFrames | suspended | resumed => cases hid
      rw [hsame]
      exact hold.frame id fun _ _ => hresuming
  | some owner =>
      -- The report is the next one of its owner, so the target makes the transition.
      obtain ⟨hrun, hfinds⟩ := ha.head_finds hl hevents hid
      obtain ⟨next, hm, hstate, hlast⟩ :=
        Target.moves_of_finds ha.indexed hrun s.breakpoints hid hfinds
      by_cases he : thread = owner
      · subst he
        rw [lane_cons_self hid] at hold
        refine hold.arrive hid hl ?_ (fun hp => ⟨?_, ?_⟩) ?_
        · rw [Session.targetAfter, ← Target.stateOf_eq_standing, ← Target.stateOf_eq_standing,
            hm.stateOf_self, hstate]
        · rw [Session.targetAfter, hm.standing_self, Option.map_some, hlast hp]
        · exact ha.lane_of_pause hevents hid hp
        -- A script that was loaded brings the session's own decision along.
        · rintro ⟨script, root, rfl⟩
          obtain ⟨-, -, -, -, hfollow⟩ :=
            Target.moves_of_scriptReady ha.indexed hrun s.breakpoints script root hfinds
          refine ⟨s.target.modeFor root, .inr ?_⟩
          rw [Session.agenda_handle, Session.tasksAfter_withEvents, Session.tasksAfter,
            notificationTasks, hfollow]
          simp
      · rw [lane_cons_of_ne (by rw [hid]; exact fun h => he (Option.some.inj h).symm)] at hold
        rw [Session.targetAfter, hm.standing_of_ne he]
        exact hold.frame id fun _ _ => hresuming

/-- **A command is dispatched.** -/
theorem handshake_command {s : Session} (ha : s.Agrees) (hl : s.IsLive) (hidle : s.worker.agenda = [])
    {c : Command} (hc : c ≠ .terminate ∧ c ≠ .disconnect) {rest : List Event}
    (hevents : s.queue.events = .command c :: rest) {thread : ThreadId}
    {slot : Option (Option Mode)} {phase : Option Phase}
    (hold : Handshake thread s.IsLive (s.target.standing thread) (lane thread s.queue.events)
      False (s.Resuming thread) slot phase) :
    Handshake thread s.IsLive ((s.targetAfter (.command c)).standing thread) (lane thread rest)
      (((s.withEvents rest).handle (.command c)).Handing thread)
      (((s.withEvents rest).handle (.command c)).Resuming thread) slot phase := by
  have hterm := Session.isTerminated_eq_false hl
  have hforwards : ((s.withEvents rest).handle (.command c)).forwards =
      if (s.target.handleCommand c).1.deliver then [c] else [] := by
    rw [Session.forwards, Session.agenda_handle, Session.tasksAfter_withEvents]
    exact Session.forwarded_commandTasks c _
  rw [hevents, lane_cons_command] at hold
  cases c with
  | terminate => exact absurd rfl hc.1
  | disconnect => exact absurd rfl hc.2
  | setBreakpoint script b action =>
      have hsame : s.targetAfter (.command (.setBreakpoint script b action)) = s.target := by
        simp [Session.targetAfter, Target.handleCommand, hterm]
      have hnot : ¬ ((s.withEvents rest).handle (.command (.setBreakpoint script b action))).Handing
          thread := by
        rintro ⟨mode, hmode⟩
        rw [hforwards] at hmode
        split at hmode <;> simp at hmode
      rw [hsame, eq_false hnot]
      exact hold.frame id fun _ _ => resuming_take hidle hevents _ (by simp)
  | resume owner mode =>
      -- A decision on a thread that is not suspended is dropped.
      by_cases hs : s.target.stateOf owner = some .suspended
      · obtain ⟨next, hm, hnext, heffects⟩ := Target.moves_of_resume ha.indexed hterm mode hs
        rw [heffects, if_pos rfl] at hforwards
        by_cases he : thread = owner
        · subst he
          have hhanding : ((s.withEvents rest).handle (.command (.resume thread mode))).Handing thread :=
            ⟨mode, by rw [hforwards]; exact List.mem_singleton_self _⟩
          rw [Target.stateOf_eq_standing] at hs
          obtain ⟨⟨state, reason⟩, hstand, hstate⟩ := Option.map_eq_some_iff.mp hs
          obtain rfl : state = .suspended := hstate
          -- Who is suspended has nothing more to report, so its lane is empty.
          have hon := ha.agreesOn thread
          rw [Session.AgreesOn, hevents, lane_cons_command, Target.stateOf_eq_standing, hs] at hon
          have hnil := eq_nil_of_fits_suspended hon.own hon.fits
          rw [hnil, hstand] at hold
          rw [hnil, eq_true hhanding]
          refine hold.decide hl mode.runs_resultingState ?_
          rw [Session.targetAfter, hm.standing_self, Option.map_some, hnext]
        · have hnot : ¬ ((s.withEvents rest).handle (.command (.resume owner mode))).Handing thread := by
            rintro ⟨mode', hmode⟩
            rw [hforwards, List.mem_singleton] at hmode
            cases hmode
            exact he rfl
          rw [Session.targetAfter, hm.standing_of_ne he, eq_false hnot]
          refine hold.frame id fun _ _ => resuming_take hidle hevents _ fun mode' hmode => ?_
          cases hmode
          exact he rfl
      · have hdrop := Target.handleCommand_resume_of_ne mode hs
        have hsame : s.targetAfter (.command (.resume owner mode)) = s.target := by
          rw [Session.targetAfter, hdrop]
        rw [hdrop] at hforwards
        rw [hsame, eq_false (Session.handing_of_forwards hforwards thread)]
        refine hold.frame id fun _ hsus => resuming_take hidle hevents _ fun mode' hmode => ?_
        cases hmode
        rw [← Target.stateOf_eq_standing] at hsus
        exact hs hsus

/-- What a dispatcher is about to take ends nothing. -/
theorem mild_of_not_ends {s : Session} (hidle : s.worker.agenda = []) (hends : ¬ Ends s) {c : Command}
    {rest : List Event} (hevents : s.queue.events = .command c :: rest) :
    c ≠ .terminate ∧ c ≠ .disconnect := by
  refine ⟨?_, ?_⟩ <;> rintro rfl <;> exact hends ⟨hidle, by simp [hevents]⟩

/-- Of what a session passes on after an event was taken, this much matters to the invariant. -/
theorem forwards_of_take {w : World} (h : w.Wakeful) {session : Session}
    (hs : w.session.take? = some session) (hends : ¬ Ends w.session) :
    session.queue.cancelled = false ∧ session.forwards.length ≤ 1 ∧
      (∀ c ∈ session.forwards, c ≠ .terminate ∧ c ≠ .disconnect) ∧
      (¬ session.IsLive → session.forwards = []) := by
  obtain ⟨hidle, ⟨e, rest, hevents, rfl⟩ | ⟨-, rfl⟩⟩ := Session.take?_cases hs
  · refine ⟨by simpa using h.uncancelled, ?_⟩
    rcases Session.forwards_handle w.session rest e with hnil | ⟨c, rfl, hdeliver, hone⟩
    · exact ⟨by simp [hnil], by simp [hnil], fun _ => hnil⟩
    · have hmild := mild_of_not_ends hidle hends hevents
      refine ⟨by simp [hone], ?_, fun hdead => absurd ⟨?_, ?_⟩ hdead⟩
      · rw [hone]
        rintro c' hc'
        obtain rfl := List.mem_singleton.mp hc'
        exact hmild
      · rw [Session.target_handle, Session.targetAfter_withEvents]
        refine Target.state_handleCommand (fun hterm => ?_) hmild.2
        simp [Target.handleCommand, Target.isTerminated, hterm] at hdeliver
      · simpa using h.uncancelled
  · exact ⟨h.uncancelled, Nat.zero_le _, fun c hc => absurd hc List.not_mem_nil, fun _ => rfl⟩

/-- **An event is taken.** -/
theorem handshake_take {w : World} (h : w.Wakeful) {session : Session}
    (hs : w.session.take? = some session) (hends : ¬ Ends w.session) (thread : ThreadId) :
    Handshake thread session.IsLive (session.target.standing thread) (lane thread session.queue.events)
      (session.Handing thread) (session.Resuming thread) (w.engine.slots.get? thread)
      (phaseOf w.jobs thread) := by
  obtain ⟨hidle, -⟩ := Session.take?_cases hs
  have hnone : ¬ w.session.Handing thread :=
    Session.handing_of_forwards (Session.forwards_of_idle hidle) thread
  have hold := h.shakesHands thread
  unfold ShakesHands at hold
  rw [eq_false hnone] at hold
  by_cases hl' : session.IsLive
  · have hl := Session.isLive_of_take hs hl'
    have ha := h.concord hl
    obtain ⟨-, e, rest, hevents, rfl⟩ := Session.take?_open ha.queue_open h.uncancelled hs
    rw [Session.target_handle, Session.targetAfter_withEvents, Session.queue_handle,
      Session.events_withEvents, propext (iff_of_true hl' hl)]
    cases e with
    | notification n =>
        have hnot : ¬ ((w.session.withEvents rest).handle (.notification n)).Handing thread := by
          refine Session.handing_of_forwards ?_ thread
          rw [Session.forwards, Session.agenda_handle, Session.tasksAfter_withEvents]
          exact Session.forwarded_notificationTasks n _
        rw [eq_false hnot]
        exact handshake_report ha hl hidle hevents hl' hold
    | command c =>
        exact handshake_command ha hl hidle (mild_of_not_ends hidle hends hevents) hevents hold
  · obtain ⟨-, -, -, hover⟩ := forwards_of_take h hs hends
    exact hold.dead hl' fun hh => absurd hh (Session.handing_of_forwards (hover hl') thread)

/-- **Taking an event keeps the invariant**, unless it is a command that ends everything. -/
theorem wakeful_take {w w' : World} (h : w.Wakeful) {session : Session} (hcalm : w'.Calm)
    (hjobs : SameCalls w.jobs w'.jobs) (hs : w.session.take? = some session)
    (hends : ¬ Ends w.session) (hb : w'.bridge = { w.bridge with session }) : w'.Wakeful := by
  have hs' : w'.session = session := congrArg Bridge.session hb
  have he' : w'.engine = w.engine := (congrArg Bridge.engine hb :)
  obtain ⟨hidle, -⟩ := Session.take?_cases hs
  have hconcord : session.Concord := Session.concord_take h.concord hs fun hhead =>
    hends ⟨hidle, .inl hhead⟩
  obtain ⟨huncancelled, hshort, hmild, hover⟩ := forwards_of_take h hs hends
  refine ⟨hcalm, ?_, ?_, ?_, ?_, ?_, ?_, ?_, ?_, hjobs.asks h.asks, fun thread => ?_⟩
  · rw [hs']; exact hconcord
  · rw [hs']; exact huncancelled
  · rw [hs']; exact hshort
  · rw [hs']; exact hmild
  · rw [hs', he']; exact fun hclosed hl => h.closed hclosed (Session.isLive_of_take hs hl)
  · rw [hs']; exact hover
  · rw [he']; exact h.unbounded
  · rw [hjobs.threads]; exact h.distinct
  · unfold ShakesHands
    rw [hs', he', hjobs.phaseOf]
    exact handshake_take h hs hends thread

/-! ### All moves -/

/-- **Every move keeps the invariant.** -/
theorem wakeful_moves {w w' : World} {act : Act} (h : w.Wakeful) (hm : Moves w act w') :
    w'.Wakeful := by
  cases hm with
  | dispatch hd hends =>
      obtain ⟨hcalm, hjobs, ⟨task, session, hs, hb⟩ | ⟨session, -, hs, hb⟩⟩ :=
        dispatchStep?_cases h.calm hd
      · exact wakeful_perform h hcalm hjobs hs hb
      · exact wakeful_take h hcalm hjobs hs hends hb
  | step hjobs hstep => exact wakeful_step h hjobs hstep
  | @giveUp b before after j j' hjobs hgive =>
      rw [giveUp?_of_wakeful h j] at hgive
      cases hgive
  | begin nextHeap hphase hnew => exact wakeful_begin h nextHeap hphase hnew
  | call c hc => exact wakeful_call h hc

/-- **The invariant holds throughout**, if no call gives up. -/
theorem wakeful_of_execution {settings : DebuggerSettings} (ht : settings.resumeTimeout = none)
    {trace : List Act} {w : World} (h : Execution Moves (create settings true) trace w) : w.Wakeful :=
  h.state_invariant (wakeful_create ht) wakeful_moves

end World

end Pausepoint
