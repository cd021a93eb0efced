import Pausepoint.Proofs.Session.Target

/-!
# Pausepoint.Proofs.Session.Roster

The threads of a target in order, and their stacks.

`Registry.Exact` says that index and array of a registry hold the same threads, each once. It is what a
list of all threads needs, where look-ups by identity get by with `Registry.Indexed`.

* `Registry.entries` — the threads in order of first contact, each with its state, and what becomes of
  this list by every operation;
* `DebugThread.sheets` — every frame a thread ever published, and its stack;
* `Restacked` — another stack, or one frame more.
-/

namespace Pausepoint

namespace Registry

/-- Index and threads fit together: each place of a thread is in the index, and nothing else is. -/
def Exact (r : Registry) : Prop :=
  ∀ id slot, r.index.get? id = some slot ↔ ∃ t, r.threads[slot]? = some t ∧ t.id = id

theorem Exact.indexed {r : Registry} (h : r.Exact) : r.Indexed :=
  fun id slot hslot => (h id slot).mp hslot

theorem exact_empty : Exact {} := by
  intro id slot
  simp

/-- The threads with their states, in order of first contact. -/
def entries (r : Registry) : List (ThreadId × ThreadState) :=
  r.threads.toList.map fun t => (t.id, t.state)

theorem getElem?_entries (r : Registry) (slot : Nat) :
    r.entries[slot]? = r.threads[slot]?.map fun t => (t.id, t.state) := by
  simp [entries]

/-- A thread stands in the list under its own identity only. -/
theorem lookup_entries {r : Registry} (hr : r.Exact) (id : ThreadId) :
    r.entries.lookup id = (r.get? id).map DebugThread.state := by
  cases hslot : r.index.get? id with
  | none =>
      rw [get?_of_no_slot hslot, Option.map_none, List.lookup_eq_none_iff]
      intro entry hentry
      obtain ⟨t, ht, rfl⟩ := List.mem_map.mp hentry
      obtain ⟨slot, hget⟩ := List.mem_iff_getElem?.mp ht
      rw [Array.getElem?_toList] at hget
      rw [bne_iff_ne]
      rintro rfl
      rw [(hr t.id slot).mpr ⟨t, hget, rfl⟩] at hslot
      cases hslot
  | some slot =>
      obtain ⟨t, hget, rfl⟩ := (hr id slot).mp hslot
      rw [get?_of_slot hslot, hget, Option.map_some, List.lookup_eq_some_iff]
      have hlt : slot < r.threads.toList.length := (Array.getElem?_eq_some_iff.mp hget).1
      -- The entry stands at its slot, and before it there is none of this thread.
      have hsplit : r.threads.toList = r.threads.toList.take slot ++ t :: r.threads.toList.drop (slot + 1) := by
        have ht : r.threads.toList[slot] = t := (Array.getElem?_eq_some_iff.mp hget).2
        rw [← ht, List.getElem_cons_drop, List.take_append_drop]
      refine ⟨(r.threads.toList.take slot).map fun t => (t.id, t.state),
        (r.threads.toList.drop (slot + 1)).map fun t => (t.id, t.state), ?_, ?_⟩
      · have hmap := congrArg (List.map fun t => (t.id, t.state)) hsplit
        rwa [List.map_append, List.map_cons] at hmap
      · intro entry hentry
        obtain ⟨other, hother, rfl⟩ := List.mem_map.mp hentry
        obtain ⟨place, hplace⟩ := List.mem_iff_getElem?.mp hother
        rw [List.getElem?_take] at hplace
        split at hplace
        · next hbefore =>
            rw [Array.getElem?_toList] at hplace
            rw [bne_iff_ne]
            intro he
            have hsame := (hr t.id place).mpr ⟨other, hplace, he.symm⟩
            rw [hslot] at hsame
            exact absurd (Option.some.inj hsame) (Nat.ne_of_gt hbefore)
        · cases hplace

/-- The list tells of every thread what a look-up does. -/
theorem state_of_mem_entries {r : Registry} (hr : r.Exact) {entry : ThreadId × ThreadState}
    (h : entry ∈ r.entries) : (r.get? entry.1).map DebugThread.state = some entry.2 := by
  obtain ⟨t, ht, rfl⟩ := List.mem_map.mp h
  obtain ⟨slot, hget⟩ := List.mem_iff_getElem?.mp ht
  rw [Array.getElem?_toList] at hget
  rw [get?_of_slot ((hr t.id slot).mpr ⟨t, hget, rfl⟩), hget]
  rfl

/-- No thread stands in it twice. -/
theorem nodup_entries {r : Registry} (hr : r.Exact) : (r.entries.map Prod.fst).Nodup := by
  unfold List.Nodup
  rw [List.pairwise_iff_getElem]
  intro i j hi hj hij he
  simp only [entries, List.getElem_map, Array.getElem_toList] at he
  have hlt : j < r.threads.size := by simpa [entries] using hj
  have hslot := (hr r.threads[i].id i).mpr ⟨_, Array.getElem?_eq_getElem _, rfl⟩
  have hplace := (hr r.threads[i].id j).mpr ⟨_, Array.getElem?_eq_getElem hlt, he.symm⟩
  rw [hslot] at hplace
  exact absurd (Option.some.inj hplace) (Nat.ne_of_lt hij)

/-! ### First contact -/

theorem exact_contact {r : Registry} (hr : r.Exact) (id : ThreadId) : (r.contact id).2.Exact := by
  unfold contact
  split
  · exact hr
  · next hnew =>
      have hnone : r.index.get? id = none := by simpa using hnew
      intro other slot
      simp only [Table.get?_insert, Array.getElem?_push]
      by_cases hne : other = id
      · subst hne
        rw [if_pos rfl]
        constructor
        · intro h
          obtain rfl := Option.some.inj h
          exact ⟨{ id := other }, by simp, rfl⟩
        · rintro ⟨t, ht, rfl⟩
          split at ht
          · next hslot => rw [hslot]
          · rw [(hr t.id slot).mpr ⟨t, ht, rfl⟩] at hnone
            cases hnone
      · rw [if_neg hne, hr other slot]
        constructor
        · rintro ⟨t, ht, rfl⟩
          have hlt : slot < r.threads.size := (Array.getElem?_eq_some_iff.mp ht).1
          exact ⟨t, by rw [if_neg (Nat.ne_of_lt hlt)]; exact ht, rfl⟩
        · rintro ⟨t, ht, rfl⟩
          split at ht
          · obtain rfl := Option.some.inj ht
            exact absurd rfl hne
          · exact ⟨t, ht, rfl⟩

/-- A thread that is new comes last. -/
theorem entries_contact (r : Registry) (id : ThreadId) :
    (r.contact id).2.entries =
      if (r.contact id).1 then r.entries ++ [(id, .notStarted)] else r.entries := by
  unfold contact
  split
  · rfl
  · simp [entries]

/-! ### Another version of a thread -/

theorem exact_update {r : Registry} (hr : r.Exact) (id : ThreadId) {f : DebugThread → DebugThread}
    (hf : ∀ t, t.id = id → (f t).id = id) : (r.update id f).Exact := by
  cases hslot : r.index.get? id with
  | none => simpa only [update, hslot] using hr
  | some slot =>
      intro other place
      simp only [update, hslot, Array.getElem?_modify]
      rw [hr other place]
      obtain ⟨t, ht, rfl⟩ := (hr id slot).mp hslot
      split
      · next he =>
          subst he
          simp only [ht, Option.map_some, Option.some.injEq, exists_eq_left', hf t rfl]
      · exact Iff.rfl

/-- It stands where the old one stood. -/
theorem entries_update {r : Registry} (hr : r.Exact) (next : DebugThread) :
    (r.update next.id fun _ => next).entries =
      r.entries.map fun entry => if entry.1 = next.id then (next.id, next.state) else entry := by
  refine List.ext_getElem? fun place => ?_
  rw [getElem?_entries, List.getElem?_map, getElem?_entries, Option.map_map]
  cases hget : r.threads[place]? with
  | none =>
      have hnone : (r.update next.id fun _ => next).threads[place]? = none := by
        unfold update
        split
        · simp [Array.getElem?_modify, hget]
        · exact hget
      rw [hnone]
      rfl
  | some t =>
      by_cases hid : t.id = next.id
      · have hslot := (hr next.id place).mpr ⟨t, hget, hid⟩
        simp [update, hslot, Array.getElem?_modify, hget, hid]
      · have hsame : (r.update next.id fun _ => next).threads[place]? = some t := by
          unfold update
          split
          · next slot hslot =>
              rw [Array.getElem?_modify, if_neg, hget]
              rintro rfl
              obtain ⟨t', ht', hid'⟩ := (hr next.id slot).mp hslot
              rw [hget] at ht'
              obtain rfl := Option.some.inj ht'
              exact hid hid'
          · exact hget
        rw [hsame]
        simp [hid]

/-- A version in the same state makes no difference. -/
theorem entries_update_same {r : Registry} (hr : r.Exact) {next : DebugThread}
    (h : (r.get? next.id).map DebugThread.state = some next.state) :
    (r.update next.id fun _ => next).entries = r.entries := by
  rw [entries_update hr]
  refine (List.map_congr_left fun entry hentry => ?_).trans (List.map_id _)
  split
  · next hid =>
      have hstate := state_of_mem_entries hr hentry
      rw [hid, h] at hstate
      exact Prod.ext hid.symm (Option.some.inj hstate)
  · rfl

/-! ### The end of all threads -/

theorem exact_terminateAll {r : Registry} (hr : r.Exact) : r.terminateAll.2.Exact := by
  intro id slot
  rw [show r.terminateAll.2.index = r.index from rfl, hr id slot]
  simp only [terminateAll, Array.getElem?_map, Option.map_eq_some_iff]
  constructor
  · rintro ⟨t, ht, rfl⟩
    exact ⟨t.terminate, ⟨t, ht, rfl⟩, rfl⟩
  · rintro ⟨_, ⟨t, ht, rfl⟩, rfl⟩
    exact ⟨t, ht, rfl⟩

theorem entries_terminateAll (r : Registry) :
    r.terminateAll.2.entries = r.entries.map fun entry => (entry.1, .terminated) := by
  simp [entries, terminateAll, DebugThread.terminate]

theorem get?_terminateAll (r : Registry) (id : ThreadId) :
    r.terminateAll.2.get? id = (r.get? id).map DebugThread.terminate := by
  unfold get?
  rw [show r.terminateAll.2.index = r.index from rfl]
  cases r.index.get? id with
  | none => rfl
  | some slot => simp [terminateAll]

end Registry

/-! ### Stacks -/

namespace DebugThread

/-- Every frame a thread ever published, and the places of those of its stack. -/
def sheets (t : DebugThread) : List Frame × List Nat :=
  (t.published.toList.map PublishedFrame.frame, t.stack)

theorem sheets_markStackDirty (t : DebugThread) : t.markStackDirty.sheets = t.sheets := by
  have key : ∀ (slots : List Nat) (published : Array PublishedFrame),
      (slots.foldl (fun published slot => published.modify slot PublishedFrame.markDirty)
          published).toList.map PublishedFrame.frame =
        published.toList.map PublishedFrame.frame := by
    intro slots
    induction slots with
    | nil => exact fun _ => rfl
    | cons slot rest ih =>
        intro published
        rw [List.foldl_cons, ih, Array.toList_modify]
        refine List.ext_getElem? fun place => ?_
        simp only [List.getElem?_map, List.getElem?_modify]
        cases published.toList[place]? with
        | none => rfl
        | some p => by_cases h : slot = place <;> simp [h, PublishedFrame.markDirty]
  exact Prod.ext (key t.stack t.published) rfl

end DebugThread

/-- From frames that were published and a stack among them to others: further frames are published, and
they are the whole stack, or a single one of them comes on top of it. -/
def Restacked (old new : List Frame × List Nat) : Prop :=
  ∃ frames below, (below = [] ∨ below = old.2 ∧ frames.length = 1) ∧
    new = (old.1 ++ frames, (List.range frames.length).map (old.1.length + ·) ++ below)

namespace DebugThread

theorem sheets_publish (t : DebugThread) (frames : List Frame) (below : List Nat) :
    (t.markStackDirty.publish frames below).sheets =
      (t.sheets.1 ++ frames, (List.range frames.length).map (t.sheets.1.length + ·) ++ below) := by
  have hsame := t.sheets_markStackDirty
  have hfirst := congrArg Prod.fst hsame
  have hsize : t.markStackDirty.published.size = t.sheets.1.length := by
    rw [← hfirst]
    simp [sheets]
  unfold publish
  rw [hsize]
  refine Prod.ext ?_ rfl
  rw [← hfirst]
  simp [sheets, Function.comp_def]

/-- Reading variables is no matter of stacks. -/
theorem sheets_readVariables (t : DebugThread) (bindings : ScopeId → Entries) (slot : Nat) :
    (t.readVariables bindings slot).2.sheets = t.sheets := by
  unfold readVariables
  split
  · rfl
  · next p hp =>
      have hframe : (p.readVariables bindings).2.frame = p.frame := by
        unfold PublishedFrame.readVariables
        split <;> rfl
      refine Prod.ext (List.ext_getElem? fun place => ?_) rfl
      simp only [sheets, Array.toList_modify, List.getElem?_map, List.getElem?_modify,
        Array.getElem?_toList]
      by_cases he : slot = place
      · subst he
        simp [hp, hframe]
      · cases t.published[place]? <;> simp [he]

theorem restacked_replaceFrames {t t' : DebugThread} {frames : List Frame}
    (h : t.replaceFrames frames = .ok t') : Restacked t.sheets t'.sheets := by
  unfold replaceFrames at h
  split at h
  · cases h
  · obtain rfl := Except.ok.inj h
    exact ⟨frames, [], .inl rfl, t.sheets_publish frames []⟩

theorem restacked_pushFrame {t t' : DebugThread} {frame : Frame}
    (h : t.pushFrame frame = .ok t') : Restacked t.sheets t'.sheets := by
  unfold pushFrame at h
  split at h
  · cases h
  · obtain rfl := Except.ok.inj h
    exact ⟨[frame], t.stack, .inr ⟨rfl, rfl⟩, t.sheets_publish [frame] t.stack⟩

end DebugThread

namespace Target

/-- The frames and the stack of a thread; a thread that was never heard of has none. -/
def sheetsOf (t : Target) (id : ThreadId) : List Frame × List Nat :=
  ((t.thread? id).map DebugThread.sheets).getD ([], [])

theorem sheetsOf_of_thread {t : Target} {id : ThreadId} {thread : DebugThread}
    (h : t.thread? id = some thread) : t.sheetsOf id = thread.sheets := by
  rw [sheetsOf, h]
  rfl

theorem Moves.sheetsOf_of_ne {t t' : Target} {id : ThreadId} {next : DebugThread}
    (h : t.Moves t' id next) {other : ThreadId} (hne : other ≠ id) :
    t'.sheetsOf other = t.sheetsOf other := by
  rw [sheetsOf, sheetsOf, h.others other hne]

/-- Two targets that differ at most in what was read of published frames. -/
structure Rereads (t t' : Target) : Prop where
  state : t'.state = t.state
  fault : t'.fault = t.fault
  exact : t.registry.Exact → t'.registry.Exact
  entries : t.registry.Exact → t'.registry.entries = t.registry.entries
  sheets : t.registry.Exact → ∀ id, t'.sheetsOf id = t.sheetsOf id

theorem Rereads.refl (t : Target) : t.Rereads t :=
  ⟨rfl, rfl, id, fun _ => rfl, fun _ _ => rfl⟩

theorem Rereads.trans {t u v : Target} (h : t.Rereads u) (h' : u.Rereads v) : t.Rereads v where
  state := h'.state.trans h.state
  fault := h'.fault.trans h.fault
  exact hr := h'.exact (h.exact hr)
  entries hr := (h'.entries (h.exact hr)).trans (h.entries hr)
  sheets hr id := (h'.sheets (h.exact hr) id).trans (h.sheets hr id)

theorem Rereads.stateOf {t t' : Target} (h : t.Rereads t') (hr : t.registry.Exact) (id : ThreadId) :
    t'.stateOf id = t.stateOf id := by
  have hafter := Registry.lookup_entries (h.exact hr) id
  rw [h.entries hr, Registry.lookup_entries hr] at hafter
  exact hafter.symm

/-- A thread that differs in nothing else may be stored in place of the old one. -/
theorem rereads_setThread {t : Target} {thread next : DebugThread} {id : ThreadId}
    (h : t.thread? id = some thread) (hid : next.id = thread.id) (hstate : next.state = thread.state)
    (hsheets : next.sheets = thread.sheets) : t.Rereads (t.setThread next) where
  state := rfl
  fault := rfl
  exact hr := Registry.exact_update hr next.id fun _ _ => rfl
  entries hr := by
    have hself : t.registry.get? next.id = some thread := by
      rw [hid, id_of_thread? hr.indexed h]
      exact h
    exact Registry.entries_update_same hr (by rw [hself, hstate]; rfl)
  sheets hr other := by
    have hthread : thread.id = id := id_of_thread? hr.indexed h
    have hm := moves_setThread hr.indexed next (by rw [hid, hthread]; exact h)
    by_cases hne : other = next.id
    · rw [hne, sheetsOf_of_thread hm.self, hsheets, hid, hthread, sheetsOf_of_thread h]
    · exact hm.sheetsOf_of_ne hne

end Target

end Pausepoint
