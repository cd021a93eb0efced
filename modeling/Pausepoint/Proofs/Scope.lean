import Pausepoint.Scope

/-!
# Pausepoint.Proofs.Scope

Scopes are sorted by name.

What a debugger shows of a scope is the list of its entries without the null values. As the entries are
sorted, each name is shown once, with the value that the script would read, and the names ascend
(`mem_visible`, `sorted_visible`). Scopes stay sorted, whatever is written to them (`Heap.Sorted.set`).
-/

namespace Pausepoint

/-! ### Entries -/

namespace Entries

/-- The names ascend. -/
def Sorted (entries : Entries) : Prop :=
  entries.Pairwise fun a b => a.1 < b.1

variable {entries : Entries} {name : String} {value : Value}

/-- What is there after a new binding was there before, or is new. -/
theorem mem_insert {entry : String × Value} (h : entry ∈ insert name value entries) :
    entry = (name, value) ∨ entry ∈ entries := by
  induction entries with
  | nil => exact .inl (List.mem_singleton.mp h)
  | cons first rest ih =>
      unfold insert at h
      split at h
      · exact List.mem_cons.mp h
      · split at h
        · exact (List.mem_cons.mp h).imp_right (List.mem_cons_of_mem _)
        · rcases List.mem_cons.mp h with rfl | h
          · exact .inr List.mem_cons_self
          · exact (ih h).imp_right (List.mem_cons_of_mem _)

/-- **A new binding finds its place.** -/
theorem Sorted.insert (h : Sorted entries) (name : String) (value : Value) :
    Sorted (insert name value entries) := by
  unfold Sorted at h ⊢
  induction entries with
  | nil => exact List.pairwise_singleton _ _
  | cons first rest ih =>
      obtain ⟨hfirst, hrest⟩ := List.pairwise_cons.mp h
      unfold Entries.insert
      split
      · next hlt =>
          refine List.pairwise_cons.mpr ⟨List.forall_mem_cons.mpr ⟨hlt, fun entry hentry => ?_⟩, h⟩
          exact String.lt_trans hlt (hfirst entry hentry)
      · next hge =>
          split
          · next heq =>
              subst heq
              exact List.pairwise_cons.mpr ⟨hfirst, hrest⟩
          · next hne =>
              refine List.pairwise_cons.mpr ⟨fun entry hentry => ?_, ih hrest⟩
              rcases mem_insert hentry with rfl | hentry
              · exact Std.lt_of_le_of_ne (Std.not_lt.mp hge) (Ne.symm hne)
              · exact hfirst entry hentry

/-- In sorted entries a name stands for one value, the one that is read. -/
theorem Sorted.mem_iff (h : Sorted entries) : (name, value) ∈ entries ↔ get? name entries = some value := by
  unfold Sorted at h
  induction entries with
  | nil => simp [get?]
  | cons first rest ih =>
      obtain ⟨n, v⟩ := first
      obtain ⟨hfirst, hrest⟩ := List.pairwise_cons.mp h
      rw [List.mem_cons, ih hrest, get?]
      split
      · next heq =>
          subst heq
          refine ⟨fun hmem => ?_, fun hsome => .inl (by rw [Option.some.inj hsome])⟩
          rcases hmem with heq | hget
          · rw [(Prod.mk.inj heq).2]
          · exact absurd (hfirst _ ((ih hrest).mpr hget)) (String.lt_irrefl _)
      · next hne =>
          refine ⟨fun hmem => hmem.resolve_left fun heq => hne (Prod.mk.inj heq).1.symm, .inr⟩

end Entries

/-! ### What is shown -/

/-- **What is shown of a scope** are its bindings, but for null values. -/
theorem mem_visible {entries : Entries} (h : Entries.Sorted entries) (v : Variable) :
    v ∈ visible entries ↔ Entries.get? v.name entries = some v.value ∧ v.value.isNull = false := by
  obtain ⟨name, value⟩ := v
  rw [← h.mem_iff]
  simp only [visible, List.mem_map, List.mem_filter, Bool.not_eq_true']
  constructor
  · rintro ⟨entry, ⟨hmem, hnull⟩, heq⟩
    cases heq
    exact ⟨hmem, hnull⟩
  · exact fun ⟨hmem, hnull⟩ => ⟨(name, value), ⟨hmem, hnull⟩, rfl⟩

theorem sorted_visible {entries : Entries} (h : Entries.Sorted entries) :
    (visible entries).Pairwise fun a b => a.name < b.name :=
  List.pairwise_map.mpr (h.sublist List.filter_sublist)

/-! ### Heaps -/

namespace Heap

/-- Every scope is sorted. -/
def Sorted (h : Heap) : Prop :=
  ∀ index, Entries.Sorted (h.bindings index)

variable {h : Heap}

theorem sorted_empty : Sorted {} := by
  intro index
  rw [show bindings {} index = [] by simp [bindings]]
  exact List.Pairwise.nil

theorem Sorted.create (hs : h.Sorted) : h.create.Sorted := by
  intro index
  rw [bindings_create]
  exact hs index

theorem Sorted.set (hs : h.Sorted) (index : Nat) (name : String) (value : Value) :
    (h.set index name value).Sorted := by
  intro other
  by_cases hother : other = index
  · subst hother
    by_cases hthere : other < h.next
    · rw [bindings_set_self h name value hthere]
      exact (hs other).insert name value
    · -- A write to a scope that is not there does nothing.
      have hnone : (h.set other name value).scopes[other]? = none := by
        simpa [Heap.set, Heap.next] using hthere
      rw [bindings, hnone]
      exact List.Pairwise.nil
  · rw [bindings_set_of_ne h name value hother]
    exact hs other

end Heap

end Pausepoint
