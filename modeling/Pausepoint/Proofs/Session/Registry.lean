import Pausepoint.Session.Registry

/-!
# Pausepoint.Proofs.Session.Registry

Look-ups in the registry of threads after each of its operations.

The index and the array of threads are updated apart from each other, so every
look-up law needs them to fit: `Registry.Indexed` says that the index only leads
to slots which hold the thread it was asked for. All operations keep it.
-/

namespace Pausepoint.Registry

/-- The index leads to existing threads, and to the right ones. -/
def Indexed (r : Registry) : Prop :=
  ∀ id slot, r.index.get? id = some slot → ∃ t, r.threads[slot]? = some t ∧ t.id = id

theorem get?_of_slot {r : Registry} {id : ThreadId} {slot : Nat}
    (h : r.index.get? id = some slot) : r.get? id = r.threads[slot]? := by
  simp only [get?, h]

theorem get?_of_no_slot {r : Registry} {id : ThreadId} (h : r.index.get? id = none) :
    r.get? id = none := by
  simp only [get?, h]

/-- What is found under an identity has this identity. -/
theorem id_of_get? {r : Registry} (hr : r.Indexed) {id : ThreadId} {t : DebugThread}
    (h : r.get? id = some t) : t.id = id := by
  cases hslot : r.index.get? id with
  | none => rw [get?_of_no_slot hslot] at h; cases h
  | some slot =>
      obtain ⟨t', ht', hid⟩ := hr id slot hslot
      rw [get?_of_slot hslot, ht'] at h
      exact Option.some.inj h ▸ hid

theorem indexed_empty : Indexed {} := by
  intro id slot h
  simp at h

/-! ### First contact -/

theorem indexed_contact {r : Registry} (hr : r.Indexed) (id : ThreadId) :
    (r.contact id).2.Indexed := by
  unfold contact
  split
  · exact hr
  · intro other slot h
    rw [Table.get?_insert] at h
    split at h
    · next he =>
        obtain rfl := Option.some.inj h
        exact ⟨{ id }, by simp, he.symm⟩
    · obtain ⟨t, ht, hid⟩ := hr other slot h
      refine ⟨t, ?_, hid⟩
      have hlt : slot < r.threads.size := (Array.getElem?_eq_some_iff.mp ht).1
      simpa [Array.getElem?_push, Nat.ne_of_lt hlt] using ht

/-- Contact adds a thread that was not there, and changes nothing else. -/
theorem get?_contact {r : Registry} (hr : r.Indexed) (id other : ThreadId) :
    (r.contact id).2.get? other =
      if other = id then some ((r.get? id).getD { id }) else r.get? other := by
  cases hslot : r.index.get? id with
  | some slot =>
      obtain ⟨t, ht, -⟩ := hr id slot hslot
      have hsame : (r.contact id).2 = r := by simp [contact, hslot]
      rw [hsame]
      split
      · next he => rw [he, get?_of_slot hslot, ht]; rfl
      · rfl
  | none =>
      have hnew : (r.contact id).2 =
          { threads := r.threads.push { id }, index := r.index.insert id r.threads.size } := by
        simp [contact, hslot]
      rw [hnew, get?_of_no_slot hslot]
      split
      · next he => simp [get?, he, Table.get?_insert]
      · next he =>
          cases hplace : r.index.get? other with
          | none => simp [get?, Table.get?_insert, he, hplace]
          | some place =>
              obtain ⟨t, ht, -⟩ := hr other place hplace
              have hlt : place < r.threads.size := (Array.getElem?_eq_some_iff.mp ht).1
              simp [get?, Table.get?_insert, he, hplace, Array.getElem?_push, Nat.ne_of_lt hlt]

/-! ### Updates -/

/-- Different identities have different slots. -/
theorem eq_of_same_slot {r : Registry} (hr : r.Indexed) {id other : ThreadId} {slot : Nat}
    (h : r.index.get? id = some slot) (h' : r.index.get? other = some slot) : other = id := by
  obtain ⟨t, ht, hid⟩ := hr id slot h
  obtain ⟨t', ht', hid'⟩ := hr other slot h'
  rw [ht] at ht'
  obtain rfl := Option.some.inj ht'
  exact hid'.symm.trans hid

theorem indexed_update {r : Registry} (hr : r.Indexed) (id : ThreadId)
    {f : DebugThread → DebugThread} (hf : ∀ t, t.id = id → (f t).id = id) :
    (r.update id f).Indexed := by
  cases hslot : r.index.get? id with
  | none => simpa only [update, hslot] using hr
  | some slot =>
      intro other place h
      simp only [update, hslot] at h ⊢
      obtain ⟨t, ht, hid⟩ := hr other place h
      simp only [Array.getElem?_modify]
      split
      · next he =>
          subst he
          obtain rfl := eq_of_same_slot hr hslot h
          exact ⟨f t, by simp [ht], hf t hid⟩
      · exact ⟨t, ht, hid⟩

/-- An update changes the thread it names and no other one. -/
theorem get?_update {r : Registry} (hr : r.Indexed) (id other : ThreadId)
    (f : DebugThread → DebugThread) :
    (r.update id f).get? other =
      if other = id then (r.get? id).map f else r.get? other := by
  cases hslot : r.index.get? id with
  | none =>
      have hsame : r.update id f = r := by simp [update, hslot]
      rw [hsame, get?_of_no_slot hslot]
      split
      · next he => rw [he, get?_of_no_slot hslot]; rfl
      · rfl
  | some slot =>
      have hnew : r.update id f = { r with threads := r.threads.modify slot f } := by
        simp [update, hslot]
      rw [hnew, get?_of_slot hslot]
      split
      · next he => simp [get?, he, hslot, Array.getElem?_modify]
      · next he =>
          cases hplace : r.index.get? other with
          | none => simp [get?, hplace]
          | some place =>
              have hne : slot ≠ place := by
                rintro rfl
                exact he (eq_of_same_slot hr hslot hplace)
              simp [get?, hplace, Array.getElem?_modify, hne]

end Pausepoint.Registry
