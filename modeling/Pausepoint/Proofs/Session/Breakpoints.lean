import Mathlib.Data.List.Induction
import Mathlib.Data.List.Nodup
import Pausepoint.Proofs.Session.Prospect

/-!
# Pausepoint.Proofs.Session.Breakpoints

The breakpoints that are set, after any requests to add and to remove them.

The store keeps a list for every resource that has a breakpoint. What is in these lists is told by the
requests alone: a request is granted if it changes something, and of what was granted about a breakpoint the
last thing counts.

* `BreakpointStore.after`, `BreakpointStore.granted` — what requests lead to, and which of them were granted;
* `BreakpointStore.AddedAt` — a breakpoint was added, and nothing was granted about it since;
* `BreakpointStore.Recounts` — the lists hold the breakpoints that were added so, in this order;
* `BreakpointStore.Tidy` — each resource has one list, and no list is empty;
* `BreakpointStore.store_is_ordered_set` — what can be asked of the store, in terms of the requests.

Proof shape: each of the two invariants holds of the empty store, is kept by a request (`Recounts.request`,
`Tidy.add`, `Tidy.remove`), and so holds after all of them (`recounts_after`, `tidy_after`). A request that is
not granted leaves both the store and the granted requests as they are. That no list holds a breakpoint twice
needs no invariant of its own, since a breakpoint is not added before itself.
-/

namespace Pausepoint

/-! ### Tables -/

namespace Table

variable {κ α : Type} [DecidableEq κ] {t : Table κ α} {key : κ} {value : α}

/-- Every key stands once. -/
def HasKeysOnce (t : Table κ α) : Prop :=
  (t.entries.map Prod.fst).Nodup

omit [DecidableEq κ] in
theorem hasKeysOnce_empty : (empty : Table κ α).HasKeysOnce :=
  List.nodup_nil

theorem HasKeysOnce.erase (h : t.HasKeysOnce) (key : κ) : (t.erase key).HasKeysOnce :=
  h.sublist (List.filter_sublist.map _)

theorem HasKeysOnce.insert (h : t.HasKeysOnce) (key : κ) (value : α) :
    (t.insert key value).HasKeysOnce := by
  refine List.nodup_cons.mpr ⟨fun hmem => ?_, h.erase key⟩
  obtain ⟨entry, hentry, hkey⟩ := List.mem_map.mp hmem
  simp [Table.erase, hkey] at hentry

/-- The entries are what a look-up gives. -/
theorem HasKeysOnce.mem_iff (h : t.HasKeysOnce) : (key, value) ∈ t.entries ↔ t.get? key = some value := by
  obtain ⟨entries⟩ := t
  unfold get?
  induction entries with
  | nil => simp
  | cons entry rest ih =>
      obtain ⟨k, v⟩ := entry
      obtain ⟨hnew, hrest⟩ := List.nodup_cons.mp h
      rw [List.mem_cons, List.lookup_cons, ih hrest]
      by_cases hk : key = k
      · subst hk
        have hnot : List.lookup key rest ≠ some value := fun hget =>
          hnew (List.mem_map.mpr ⟨_, (ih hrest).mpr hget, rfl⟩)
        simp [hnot, eq_comm]
      · simp [hk, beq_eq_false_iff_ne.mpr hk]

end Table

/-! ### Requests -/

namespace BreakpointStore

/-- What the store is asked for. -/
structure Request where
  action : BreakpointAction
  /-- The breakpoint it is to happen to. -/
  breakpoint : Breakpoint
  deriving Repr, DecidableEq

/-- The store after a request; the flag tells whether it was granted. -/
def request (s : BreakpointStore) (r : Request) : Bool × BreakpointStore :=
  match r.action with
  | .add => s.add r.breakpoint
  | .remove => s.remove r.breakpoint

def after (requests : List Request) : BreakpointStore :=
  requests.foldl (fun s r => (s.request r).2) {}

/-- Those of the requests that a store grants, in order. -/
def grantedFrom (s : BreakpointStore) : List Request → List Request
  | [] => []
  | r :: rest =>
      if (s.request r).1 then r :: grantedFrom (s.request r).2 rest else grantedFrom (s.request r).2 rest

/-- Those of the requests that are granted from the beginning. -/
def granted (requests : List Request) : List Request :=
  grantedFrom {} requests

/-- Of what was granted about a breakpoint the last thing is that it was added, at this place of the log. -/
def AddedAt (log : List Request) (b : Breakpoint) (time : Nat) : Prop :=
  log[time]? = some ⟨.add, b⟩ ∧ ∀ later action, time < later → log[later]? ≠ some ⟨action, b⟩

/-- Both are set, and one was added before the other. -/
def AddedBefore (log : List Request) (b c : Breakpoint) : Prop :=
  ∃ m n, AddedAt log b m ∧ AddedAt log c n ∧ m < n

variable {s : BreakpointStore} {action : BreakpointAction} {b c : Breakpoint} {log : List Request}
  {resource : String} {time : Nat}

theorem after_append_singleton (requests : List Request) (r : Request) :
    after (requests ++ [r]) = ((after requests).request r).2 := by
  simp [after]

theorem granted_append_singleton (requests : List Request) (r : Request) :
    granted (requests ++ [r]) =
      granted requests ++ if ((after requests).request r).1 then [r] else [] := by
  have key : ∀ (requests : List Request) (s : BreakpointStore), s.grantedFrom (requests ++ [r]) =
      s.grantedFrom requests ++
        if ((requests.foldl (fun s r => (s.request r).2) s).request r).1 then [r] else [] := by
    intro requests
    induction requests with
    | nil =>
        intro s
        rw [List.nil_append, grantedFrom, grantedFrom, List.foldl_nil, List.nil_append]
        rfl
    | cons first rest ih =>
        intro s
        rw [List.cons_append, grantedFrom, grantedFrom, ih, List.foldl_cons]
        split <;> rfl
  exact key requests {}

/-! ### One request -/

/-- A breakpoint can be added if it is not there. -/
theorem request_add : (s.request ⟨.add, b⟩).1 = true ↔ b ∉ s.forResource b.resource := by
  simp only [request, add]
  split <;> simp [*]

/-- It can be removed if it is. -/
theorem request_remove : (s.request ⟨.remove, b⟩).1 = true ↔ b ∈ s.forResource b.resource := by
  simp only [request, remove]
  split <;> simp [*]

/-- What is not granted changes nothing. -/
theorem request_of_refused {r : Request} (h : (s.request r).1 = false) : (s.request r).2 = s := by
  obtain ⟨action, b⟩ := r
  cases action with
  | add =>
      simp only [request, add] at h ⊢
      split <;> simp_all
  | remove =>
      simp only [request, remove] at h ⊢
      split <;> simp_all

/-- **A request is about one resource**, and changes its breakpoints as it would change those of a script. -/
theorem forResource_request (s : BreakpointStore) (r : Request) (resource : String) :
    (s.request r).2.forResource resource =
      if resource = r.breakpoint.resource then r.breakpoint.apply r.action (s.forResource resource)
      else s.forResource resource := by
  obtain ⟨action, b⟩ := r
  cases action with
  | add => exact forResource_add resource
  | remove => exact forResource_remove resource

/-- Other breakpoints stay, or stay away. -/
theorem mem_request_of_ne (h : b ≠ c) :
    b ∈ (s.request ⟨action, c⟩).2.forResource resource ↔ b ∈ s.forResource resource := by
  rw [forResource_request]
  split
  · cases action with
    | add => simp [Breakpoint.apply, h]
    | remove => simp [Breakpoint.apply, h]
  · rfl

/-- The breakpoint itself is there if it was added. -/
theorem mem_request_self : b ∈ (s.request ⟨action, b⟩).2.forResource b.resource ↔ action = .add := by
  rw [forResource_request, if_pos rfl]
  cases action with
  | add => simp [Breakpoint.apply]
  | remove => simp [Breakpoint.apply]

/-! ### Times -/

/-- A breakpoint is added at one time. -/
theorem AddedAt.unique {m n : Nat} (hm : AddedAt log b m) (hn : AddedAt log b n) : m = n := by
  rcases Nat.lt_trichotomy m n with h | h | h
  · exact absurd hn.1 (hm.2 n .add h)
  · exact h
  · exact absurd hm.1 (hn.2 m .add h)

theorem AddedAt.lt_length (h : AddedAt log b time) : time < log.length :=
  (List.getElem?_eq_some_iff.mp h.1).1

/-- What is granted about another breakpoint is no matter. -/
theorem addedAt_append_of_ne (h : b ≠ c) :
    AddedAt (log ++ [⟨action, c⟩]) b time ↔ AddedAt log b time := by
  have hget : ∀ (place : Nat) (wanted : BreakpointAction),
      (log ++ [⟨action, c⟩])[place]? = some ⟨wanted, b⟩ ↔ log[place]? = some ⟨wanted, b⟩ := by
    intro place wanted
    rcases Nat.lt_trichotomy place log.length with hplace | rfl | hplace
    · rw [List.getElem?_append_left hplace]
    · simp [Ne.symm h]
    · rw [List.getElem?_eq_none (by simp; omega), List.getElem?_eq_none (by omega)]
  simp only [AddedAt, hget, ne_eq]

/-- What is granted about the breakpoint is the last thing that is. -/
theorem addedAt_append_self :
    AddedAt (log ++ [⟨action, b⟩]) b time ↔ action = .add ∧ time = log.length := by
  constructor
  · intro h
    have hlt := h.lt_length
    rw [List.length_append, List.length_singleton] at hlt
    have htime : time = log.length := by
      by_contra hne
      exact h.2 log.length action (by omega) (by simp)
    have hadd := h.1
    rw [htime, List.getElem?_concat_length] at hadd
    exact ⟨congrArg Request.action (Option.some.inj hadd), htime⟩
  · rintro ⟨rfl, rfl⟩
    refine ⟨by simp, fun later wanted hlater => ?_⟩
    rw [List.getElem?_eq_none (by simp; omega)]
    simp

theorem AddedBefore.append {d : Breakpoint} (h : AddedBefore log b c) (hb : b ≠ d) (hc : c ≠ d) :
    AddedBefore (log ++ [⟨action, d⟩]) b c := by
  obtain ⟨m, n, hm, hn, hlt⟩ := h
  exact ⟨m, n, (addedAt_append_of_ne hb).mpr hm, (addedAt_append_of_ne hc).mpr hn, hlt⟩

theorem AddedBefore.ne (h : AddedBefore log b c) : b ≠ c := by
  rintro rfl
  obtain ⟨m, n, hm, hn, hlt⟩ := h
  exact Nat.ne_of_lt hlt (hm.unique hn)

/-! ### The breakpoints of a resource -/

/-- A store has the breakpoints that were added and not removed since, by resource and in the order in which
they were added. -/
structure Recounts (s : BreakpointStore) (log : List Request) : Prop where
  /-- What is there. -/
  mem : ∀ {resource b}, b ∈ s.forResource resource ↔ b.resource = resource ∧ ∃ time, AddedAt log b time
  /-- In which order. -/
  order : ∀ resource, (s.forResource resource).Pairwise (AddedBefore log)

theorem recounts_empty : Recounts {} [] := by
  refine ⟨fun {resource b} => ?_, fun _ => .nil⟩
  simp [forResource, AddedAt]

theorem Recounts.filed (h : s.Recounts log) : s.Filed :=
  fun _ _ hb => (h.mem.mp hb).1

/-- What was in order stays so, if nothing of it is changed. -/
theorem Recounts.order_append (h : s.Recounts log) {list : List Breakpoint}
    (hsub : list.Sublist (s.forResource resource)) (hb : b ∉ list) :
    list.Pairwise (AddedBefore (log ++ [⟨action, b⟩])) :=
  ((h.order resource).sublist hsub).imp_of_mem fun hc hd hbefore =>
    hbefore.append (fun he => hb (he ▸ hc)) (fun he => hb (he ▸ hd))

/-- **A granted request** is the last thing that happened to its breakpoint. -/
theorem Recounts.request (h : s.Recounts log) (hgranted : (s.request ⟨action, b⟩).1 = true) :
    (s.request ⟨action, b⟩).2.Recounts (log ++ [⟨action, b⟩]) := by
  constructor
  · intro resource c
    by_cases hc : c = b
    · subst hc
      -- It is asked for in its own list, or in one where it never was.
      by_cases hresource : c.resource = resource
      · subst hresource
        rw [mem_request_self]
        simp [addedAt_append_self]
      · have hnot : c ∉ s.forResource resource := fun hmem => hresource (h.filed _ _ hmem)
        rw [forResource_request, if_neg (Ne.symm hresource)]
        simp [hnot, hresource]
    · rw [mem_request_of_ne hc, h.mem]
      simp only [addedAt_append_of_ne hc]
  · intro resource
    rw [forResource_request]
    split
    · next hresource =>
        dsimp only at hresource
        subst hresource
        cases action with
        | add =>
            have hnew : b ∉ s.forResource b.resource := request_add.mp hgranted
            rw [Breakpoint.apply, Breakpoint.addTo, if_neg hnew]
            refine List.pairwise_append.mpr
              ⟨h.order_append (List.Sublist.refl _) hnew, List.pairwise_singleton _ _, fun c hc d hd => ?_⟩
            have hne : c ≠ b := fun he => hnew (he ▸ hc)
            obtain ⟨-, time, htime⟩ := h.mem.mp hc
            rw [List.mem_singleton.mp hd]
            exact ⟨time, log.length, (addedAt_append_of_ne hne).mpr htime,
              addedAt_append_self.mpr ⟨rfl, rfl⟩, htime.lt_length⟩
        | remove => exact h.order_append List.filter_sublist (by simp [Breakpoint.apply])
    · next hresource =>
        exact h.order_append (List.Sublist.refl _) fun hb => hresource (h.filed _ _ hb).symm

/-- A store after requests is what was granted of them. -/
theorem recounts_after (requests : List Request) : (after requests).Recounts (granted requests) := by
  induction requests using List.reverseRecOn with
  | nil => exact recounts_empty
  | append_singleton requests r ih =>
      rw [after_append_singleton, granted_append_singleton]
      cases hgranted : ((after requests).request r).1 with
      | true => exact ih.request hgranted
      | false =>
          -- Neither the store nor the log takes notice of it.
          rw [request_of_refused hgranted]
          simpa using ih

/-! ### The store as a whole -/

/-- Every resource is kept once, and only as long as it has a breakpoint. -/
structure Tidy (s : BreakpointStore) : Prop where
  /-- No resource is kept twice. -/
  once : s.byResource.HasKeysOnce
  /-- None is kept without a breakpoint. -/
  nonempty : ∀ {resource list}, s.byResource.get? resource = some list → list ≠ []

theorem tidy_empty : Tidy {} :=
  ⟨Table.hasKeysOnce_empty, fun h => by cases h⟩

/-- A resource may have any list but an empty one. -/
theorem Tidy.insert (h : s.Tidy) (key : String) {list : List Breakpoint} (hlist : list ≠ []) :
    Tidy { s with byResource := s.byResource.insert key list } := by
  refine ⟨h.once.insert _ _, fun {resource kept} hget => ?_⟩
  rw [Table.get?_insert] at hget
  split at hget
  · cases hget
    exact hlist
  · exact h.nonempty hget

theorem Tidy.erase (h : s.Tidy) (key : String) : Tidy { s with byResource := s.byResource.erase key } := by
  refine ⟨h.once.erase _, fun {resource kept} hget => ?_⟩
  rw [Table.get?_erase] at hget
  split at hget
  · cases hget
  · exact h.nonempty hget

theorem Tidy.add (h : s.Tidy) (b : Breakpoint) : (s.add b).2.Tidy := by
  unfold BreakpointStore.add
  dsimp only
  split
  · exact h
  · exact h.insert b.resource (by simp)

theorem Tidy.remove (h : s.Tidy) (b : Breakpoint) : (s.remove b).2.Tidy := by
  unfold BreakpointStore.remove
  dsimp only
  split
  · split
    · exact h.erase b.resource
    · next hrest => exact h.insert b.resource fun hnil => hrest (by rw [hnil]; rfl)
  · exact h

theorem tidy_after (requests : List Request) : (after requests).Tidy := by
  induction requests using List.reverseRecOn with
  | nil => exact tidy_empty
  | append_singleton requests r ih =>
      obtain ⟨action, b⟩ := r
      rw [after_append_singleton]
      cases action with
      | add => exact ih.add b
      | remove => exact ih.remove b

/-- All breakpoints that are set. -/
def all (s : BreakpointStore) : List Breakpoint :=
  s.byResource.entries.flatMap Prod.snd

theorem length_all (s : BreakpointStore) : s.all.length = s.size := by
  unfold all size
  induction s.byResource.entries with
  | nil => rfl
  | cons entry rest ih => rw [List.flatMap_cons, List.length_append, List.foldr_cons, ih]

/-- What is kept for a resource is what a look-up gives. -/
theorem Tidy.forResource_of_mem (h : s.Tidy) {entry : String × List Breakpoint}
    (hentry : entry ∈ s.byResource.entries) : s.forResource entry.1 = entry.2 := by
  rw [forResource, h.once.mem_iff.mp hentry, Option.getD_some]

theorem Tidy.mem_all (h : s.Tidy) (hfiled : s.Filed) : b ∈ s.all ↔ b ∈ s.forResource b.resource := by
  unfold all
  rw [List.mem_flatMap]
  constructor
  · rintro ⟨entry, hentry, hb⟩
    rw [← h.forResource_of_mem hentry] at hb
    rwa [hfiled _ _ hb]
  · intro hb
    unfold forResource at hb
    cases hget : s.byResource.get? b.resource with
    | none => simp [hget] at hb
    | some list =>
        rw [hget] at hb
        exact ⟨_, h.once.mem_iff.mpr hget, hb⟩

theorem Tidy.nodup_all (h : s.Tidy) (hfiled : s.Filed) (hnodup : ∀ resource, (s.forResource resource).Nodup) :
    s.all.Nodup := by
  refine List.nodup_flatMap.mpr ⟨fun entry hentry => ?_, ?_⟩
  · exact h.forResource_of_mem hentry ▸ hnodup entry.1
  · -- The breakpoints of two entries are of different resources.
    refine (List.pairwise_map.mp h.once).imp_of_mem fun {first second} hfirst hsecond hne => ?_
    intro b hb hb'
    rw [← h.forResource_of_mem hfirst] at hb
    rw [← h.forResource_of_mem hsecond] at hb'
    exact hne ((hfiled _ _ hb).symm.trans (hfiled _ _ hb'))

/-! ### Resources by themselves -/

def about (resource : String) (requests : List Request) : List Request :=
  requests.filter fun r => r.breakpoint.resource = resource

/-- **Resources are independent**: the breakpoints of one are those that only its own requests leave. -/
theorem forResource_after_about (resource : String) (requests : List Request) :
    (after (about resource requests)).forResource resource = (after requests).forResource resource := by
  induction requests using List.reverseRecOn with
  | nil => rfl
  | append_singleton requests r ih =>
      rw [about, List.filter_append, after_append_singleton, forResource_request, ← ih]
      split
      · next hresource =>
          rw [List.filter_cons_of_pos (by simp [hresource]), List.filter_nil, after_append_singleton,
            forResource_request, if_pos hresource]
          rfl
      · next hresource =>
          rw [List.filter_cons_of_neg (by simpa [eq_comm] using hresource), List.filter_nil, List.append_nil]
          rfl

/-- **The store is an ordered set.** After any requests the list of a resource holds each of its breakpoints
once that was added and not removed since, in the order in which they were added, and it is the list that the
requests about this resource lead to without the others. A breakpoint can be added if it is not set and
removed if it is. The size counts the breakpoints that are set, and no resource is kept without one. -/
theorem store_is_ordered_set (requests : List Request) :
    let s := after requests
    let log := granted requests
    (∀ resource,
      (s.forResource resource).Nodup ∧
        (∀ b, b ∈ s.forResource resource ↔ b.resource = resource ∧ ∃ time, AddedAt log b time) ∧
        (s.forResource resource).Pairwise (AddedBefore log) ∧
        s.forResource resource = (after (about resource requests)).forResource resource) ∧
      (∀ b, ((s.add b).1 = true ↔ ¬ ∃ time, AddedAt log b time) ∧
        ((s.remove b).1 = true ↔ ∃ time, AddedAt log b time)) ∧
      (∃ all : List Breakpoint,
        all.Nodup ∧ (∀ b, b ∈ all ↔ ∃ time, AddedAt log b time) ∧ s.size = all.length) ∧
      (s.isEmpty = true ↔ ∀ b, ¬ ∃ time, AddedAt log b time) ∧
      ∀ entry ∈ s.byResource.entries, entry.2 ≠ [] := by
  intro s log
  have hlog : s.Recounts log := recounts_after requests
  have htidy : s.Tidy := tidy_after requests
  have hset : ∀ b, b ∈ s.forResource b.resource ↔ ∃ time, AddedAt log b time := fun b => by
    rw [hlog.mem, and_iff_right rfl]
  have hnodup : ∀ resource, (s.forResource resource).Nodup := fun resource =>
    (hlog.order resource).imp AddedBefore.ne
  have hall : ∀ b, b ∈ s.all ↔ ∃ time, AddedAt log b time := fun b =>
    (htidy.mem_all hlog.filed).trans (hset b)
  refine ⟨fun resource => ⟨hnodup resource, fun b => hlog.mem, hlog.order resource,
    (forResource_after_about resource requests).symm⟩, fun b => ⟨?_, ?_⟩,
    ⟨s.all, htidy.nodup_all hlog.filed hnodup, hall, (length_all s).symm⟩, ?_, fun entry hentry => ?_⟩
  · exact request_add.trans (not_congr (hset b))
  · exact request_remove.trans (hset b)
  · rw [isEmpty, beq_iff_eq, ← length_all, List.length_eq_zero_iff, List.eq_nil_iff_forall_not_mem]
    exact forall_congr' fun b => not_congr (hall b)
  · exact htidy.nonempty (htidy.once.mem_iff.mp hentry)

end BreakpointStore

end Pausepoint
