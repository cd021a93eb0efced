/-!
# Finite tables

A table holds at most one value per key. It is a list of pairs in which a key stands once, so that two
tables built by the same operations are equal as data, and every question about it can be computed.

* `get?`, `insert`, `erase` — the operations;
* `get?_insert`, `get?_erase` — what a look-up gives after each of them.
-/

namespace Pausepoint

/-- Values under keys. -/
structure Table (κ α : Type) where
  /-- The pairs, newest key first. -/
  entries : List (κ × α) := []
  deriving Repr, DecidableEq, Inhabited

namespace Table

variable {κ α : Type} [DecidableEq κ]

/-- The table without any key. -/
def empty : Table κ α := ⟨[]⟩

/-- The value under a key. -/
def get? (t : Table κ α) (key : κ) : Option α :=
  t.entries.lookup key

/-- Is there a value under the key? -/
def contains (t : Table κ α) (key : κ) : Bool :=
  (t.get? key).isSome

def erase (t : Table κ α) (key : κ) : Table κ α :=
  ⟨t.entries.filter fun entry => entry.1 ≠ key⟩

/-- Puts a value under a key, in place of the old one if there is any. -/
def insert (t : Table κ α) (key : κ) (value : α) : Table κ α :=
  ⟨(key, value) :: (t.erase key).entries⟩

@[simp] theorem get?_empty (key : κ) : (empty : Table κ α).get? key = none := rfl

/-- Only the removed key is gone. -/
@[simp] theorem get?_erase (t : Table κ α) (key other : κ) :
    (t.erase key).get? other = if other = key then none else t.get? other := by
  obtain ⟨entries⟩ := t
  simp only [get?, erase]
  induction entries with
  | nil => simp
  | cons entry rest ih =>
      obtain ⟨k, v⟩ := entry
      rw [List.filter_cons]
      simp only [List.lookup_cons]
      by_cases hk : k = key
      · subst hk
        simp only [ne_eq, not_true_eq_false, decide_false, Bool.false_eq_true, if_false]
        rw [show List.lookup other (List.filter (fun entry => decide (¬entry.1 = k)) rest) = _ from ih]
        by_cases ho : other = k
        · rw [if_pos ho, if_pos ho]
        · rw [if_neg ho, if_neg ho, beq_eq_false_iff_ne.2 ho]
      · by_cases ho : other = k
        · subst ho; simp [hk]
        · simp only [ne_eq, hk, not_false_eq_true, decide_true, if_true, List.lookup_cons,
            beq_eq_false_iff_ne.2 ho]
          simpa using ih

/-- Only the inserted key has a new value. -/
@[simp] theorem get?_insert (t : Table κ α) (key other : κ) (value : α) :
    (t.insert key value).get? other = if other = key then some value else t.get? other := by
  by_cases h : other = key
  · subst h; simp [get?, insert]
  · have := get?_erase t key other
    simp only [get?, h, if_false] at this
    simp [get?, insert, List.lookup_cons, beq_eq_false_iff_ne.2 h, this, h]

end Table

end Pausepoint
