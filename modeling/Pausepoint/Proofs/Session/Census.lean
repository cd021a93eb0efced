import Mathlib.Data.List.Induction
import Pausepoint.Proofs.Session.Roster

/-!
# Pausepoint.Proofs.Session.Census

The threads of a registry, after whatever was done with it.

A registry keeps its threads in one place and their slots in another, and every look-up goes from the one
to the other without a check. So the two have to fit after any accesses: threads are met for the first time or
again, they are looked up and changed, and all of them are ended at once.

* `DebugThread.Change`, `DebugThread.change` — what can be done with a thread that was looked up;
* `Registry.Access`, `Registry.after` — what can be done with a registry, and what it leads to;
* `Registry.ids_after` — the threads are those that were met, in order of first contact;
* `Registry.registry_is_consistent` — what the registry tells, in terms of the threads that were met.

Proof shape: `Registry.Exact` is the invariant. An access keeps it (`Exact.access`), because no change of a
thread makes another one of it (`id_change`), and so it holds after all of them (`exact_after`). Which
threads there are is only changed by a contact (`Exact.ids_contact`), and everything that is asked of the
registry is read off these two.
-/

namespace Pausepoint

/-! ### Threads -/

/-- What can happen to a thread that was looked up. -/
inductive DebugThread.Change
  /-- It stops. -/
  | suspend (reason : Reason)
  /-- A decision lets it go on. -/
  | resume (mode : Mode)
  /-- It reports that it goes on. -/
  | proceed (mode : Mode)
  /-- It is ended. -/
  | terminate
  /-- It has another stack. -/
  | replaceFrames (frames : List Frame)
  /-- It has one frame more. -/
  | pushFrame (frame : Frame)
  /-- A frame of it is read. -/
  | readVariables (bindings : ScopeId → Entries) (slot : Nat)

namespace DebugThread

/-- The thread after a change; one that it refuses leaves it as it is. -/
def change (t : DebugThread) : Change → DebugThread
  | .suspend reason => (t.suspend reason).toOption.getD t
  | .resume mode => (t.applyResume mode).toOption.getD t
  | .proceed mode => (t.noteResumed mode).toOption.getD t
  | .terminate => t.terminate
  | .replaceFrames frames => (t.replaceFrames frames).toOption.getD t
  | .pushFrame frame => (t.pushFrame frame).toOption.getD t
  | .readVariables bindings slot => (t.readVariables bindings slot).2

/-- No change makes it another thread. -/
theorem id_change (t : DebugThread) (c : Change) : (t.change c).id = t.id := by
  cases c with
  | suspend reason =>
      simp only [change, DebugThread.suspend]
      cases t.state <;> rfl
  | resume mode =>
      simp only [change, applyResume]
      split <;> rfl
  | proceed mode =>
      simp only [change, noteResumed]
      cases t.state <;> rfl
  | terminate => rfl
  | replaceFrames frames =>
      simp only [change, DebugThread.replaceFrames]
      split <;> rfl
  | pushFrame frame =>
      simp only [change, DebugThread.pushFrame]
      split <;> rfl
  | readVariables bindings slot =>
      simp only [change, DebugThread.readVariables]
      split <;> rfl

end DebugThread

namespace Registry

variable {r : Registry} {id : ThreadId}

/-- What is done with a registry. -/
inductive Access
  /-- A thread is met. -/
  | contact (id : ThreadId)
  /-- A thread is looked up and changed. -/
  | change (id : ThreadId) (c : DebugThread.Change)
  /-- All threads are ended. -/
  | terminateAll

/-- The registry after it. -/
def access (r : Registry) : Access → Registry
  | .contact id => (r.contact id).2
  | .change id c => r.update id (DebugThread.change · c)
  | .terminateAll => r.terminateAll.2

/-- The registry that was accessed so from the beginning. -/
def after (accesses : List Access) : Registry :=
  accesses.foldl access {}

/-- The threads that were met, each time they were. -/
def contacts (accesses : List Access) : List ThreadId :=
  accesses.filterMap fun
    | .contact id => some id
    | .change .. | .terminateAll => none

/-- The threads in the order in which they are kept. -/
def ids (r : Registry) : List ThreadId :=
  r.threads.toList.map DebugThread.id

/-! ### Look-ups -/

/-- **The index finds the threads that are kept**, each under its own identity. -/
theorem Exact.get?_eq_some_iff (h : r.Exact) {t : DebugThread} :
    r.get? id = some t ↔ t ∈ r.threads ∧ t.id = id := by
  constructor
  · intro hget
    refine ⟨?_, id_of_get? h.indexed hget⟩
    cases hslot : r.index.get? id with
    | none =>
        rw [get?_of_no_slot hslot] at hget
        cases hget
    | some slot =>
        rw [get?_of_slot hslot] at hget
        exact Array.mem_of_getElem? hget
  · rintro ⟨hmem, rfl⟩
    obtain ⟨slot, hslot⟩ := Array.mem_iff_getElem?.mp hmem
    rw [get?_of_slot ((h t.id slot).mpr ⟨t, hslot, rfl⟩), hslot]

/-- A thread is kept if it has a place in the index. -/
theorem Exact.mem_ids_iff (h : r.Exact) : id ∈ r.ids ↔ (r.index.get? id).isSome = true := by
  rw [ids, List.mem_map, Option.isSome_iff_exists]
  constructor
  · rintro ⟨t, hmem, rfl⟩
    obtain ⟨slot, hslot⟩ := Array.mem_iff_getElem?.mp (Array.mem_toList_iff.mp hmem)
    exact ⟨slot, (h t.id slot).mpr ⟨t, hslot, rfl⟩⟩
  · rintro ⟨slot, hslot⟩
    obtain ⟨t, hget, hid⟩ := (h id slot).mp hslot
    exact ⟨t, Array.mem_toList_iff.mpr (Array.mem_of_getElem? hget), hid⟩

/-- No thread is kept twice. -/
theorem Exact.nodup_ids (h : r.Exact) : r.ids.Nodup := by
  have hnodup := nodup_entries h
  rwa [entries, List.map_map] at hnodup

/-! ### One access -/

/-- A thread is new if it is not kept yet, -/
theorem Exact.contact_eq_true (h : r.Exact) : (r.contact id).1 = true ↔ id ∉ r.ids := by
  rw [h.mem_ids_iff, contact]
  split <;> simp [*]

/-- and one that is kept is not added again. -/
theorem Exact.contact_of_mem (h : r.Exact) (hmem : id ∈ r.ids) : (r.contact id).2 = r := by
  rw [contact, if_pos (h.mem_ids_iff.mp hmem)]

/-- A thread that is new comes last. -/
theorem Exact.ids_contact (h : r.Exact) (id : ThreadId) :
    (r.contact id).2.ids = if id ∈ r.ids then r.ids else r.ids ++ [id] := by
  split
  · next hmem => rw [h.contact_of_mem hmem]
  · next hnew =>
      rw [contact, if_neg (mt h.mem_ids_iff.mpr hnew)]
      simp [ids]

theorem ids_update (r : Registry) (id : ThreadId) {f : DebugThread → DebugThread}
    (hf : ∀ t, (f t).id = t.id) : (r.update id f).ids = r.ids := by
  have hmodify : ∀ slot : Nat,
      (r.threads.modify slot f).toList.map DebugThread.id = r.threads.toList.map DebugThread.id := by
    intro slot
    refine List.ext_getElem? fun place => ?_
    simp only [List.getElem?_map, Array.getElem?_toList, Array.getElem?_modify]
    split
    · rw [Option.map_map]
      exact congrArg (Option.map · _) (funext hf)
    · rfl
  -- A thread that was never met is not looked up, and nothing is changed.
  rw [ids, update]
  split
  · exact hmodify _
  · rfl

theorem ids_terminateAll (r : Registry) : r.terminateAll.2.ids = r.ids := by
  simp [ids, terminateAll, DebugThread.terminate]

/-- Who is ended: in order, the threads that are kept and had not ended. -/
theorem Exact.terminateAll_eq (h : r.Exact) :
    r.terminateAll.1 = r.ids.filter fun id => (r.get? id).map DebugThread.state ≠ some .terminated := by
  rw [terminateAll, ids, List.filter_map]
  refine congrArg (List.map DebugThread.id) (List.filter_congr fun t hmem => ?_)
  -- The state is asked of the thread itself on the one side, and by a look-up on the other.
  have hget : r.get? t.id = some t := h.get?_eq_some_iff.mpr ⟨Array.mem_toList_iff.mp hmem, rfl⟩
  simp [hget]

/-- **An access keeps index and threads together.** -/
theorem Exact.access (h : r.Exact) (a : Access) : (r.access a).Exact := by
  cases a with
  | contact id => exact exact_contact h id
  | change id c => exact exact_update h id fun t hid => (t.id_change c).trans hid
  | terminateAll => exact exact_terminateAll h

/-! ### All accesses -/

theorem after_append_singleton (accesses : List Access) (a : Access) :
    after (accesses ++ [a]) = (after accesses).access a := by
  simp [after]

theorem exact_after (accesses : List Access) : (after accesses).Exact := by
  induction accesses using List.reverseRecOn with
  | nil => exact exact_empty
  | append_singleton accesses a ih =>
      rw [after_append_singleton]
      exact ih.access a

theorem eraseDups_append_singleton (list : List ThreadId) (id : ThreadId) :
    (list ++ [id]).eraseDups = if id ∈ list then list.eraseDups else list.eraseDups ++ [id] := by
  rw [List.eraseDups_append]
  split
  · next hmem => simp [List.removeAll, hmem]
  · next hnew =>
      have hrest : [id].removeAll list = [id] := by simp [List.removeAll, hnew]
      rw [hrest]
      rfl

/-- **Threads are kept in the order in which they were first met.** -/
theorem ids_after (accesses : List Access) : (after accesses).ids = (contacts accesses).eraseDups := by
  -- The last access decides, so the list grows at its end.
  induction accesses using List.reverseRecOn with
  | nil => rfl
  | append_singleton accesses a ih =>
      rw [after_append_singleton, contacts, List.filterMap_append]
      cases a with
      | contact id =>
          show ((after accesses).contact id).2.ids = (contacts accesses ++ [id]).eraseDups
          rw [(exact_after accesses).ids_contact, eraseDups_append_singleton, ih]
          simp only [List.mem_eraseDups]
      | change id c =>
          show ((after accesses).update id (DebugThread.change · c)).ids = _
          rw [ids_update _ _ fun t => t.id_change c, ih]
          simp [contacts]
      | terminateAll =>
          show (after accesses).terminateAll.2.ids = _
          rw [ids_terminateAll, ih]
          simp [contacts]

/-- **Threads and index stay together**, whatever was done with a registry. Its threads are those that were
met, each once and in order of first contact. The index leads from an identity to a slot if and only if the
thread with this identity stands there, so that a look-up gives the one thread that is meant. A contact
tells that a thread is new if it was never met before, and changes nothing otherwise; either way the thread
is found after it. The end of all threads is the end of those that had not ended, in the same order. -/
theorem registry_is_consistent (accesses : List Access) :
    let r := after accesses
    let met := contacts accesses
    (r.ids = met.eraseDups ∧ r.ids.Nodup) ∧
      (∀ id slot, r.index.get? id = some slot ↔ ∃ t, r.threads[slot]? = some t ∧ t.id = id) ∧
      (∀ id t, r.get? id = some t ↔ t ∈ r.threads ∧ t.id = id) ∧
      (∀ id, ((r.contact id).1 = true ↔ id ∉ met) ∧ (id ∈ met → (r.contact id).2 = r) ∧
        (r.contact id).2.get? id = some ((r.get? id).getD { id })) ∧
      r.terminateAll.1 =
        met.eraseDups.filter fun id => (r.get? id).map DebugThread.state ≠ some .terminated := by
  intro r met
  have h : r.Exact := exact_after accesses
  have hids : r.ids = met.eraseDups := ids_after accesses
  have hmem : ∀ id, id ∈ r.ids ↔ id ∈ met := by
    intro id
    rw [hids, List.mem_eraseDups]
  refine ⟨⟨hids, h.nodup_ids⟩, h, fun id t => h.get?_eq_some_iff, fun id => ⟨?_, ?_, ?_⟩, ?_⟩
  · rw [h.contact_eq_true, hmem]
  · intro hmet
    exact h.contact_of_mem ((hmem id).mpr hmet)
  · rw [get?_contact h.indexed, if_pos rfl]
  · rw [h.terminateAll_eq, hids]

end Registry

end Pausepoint
