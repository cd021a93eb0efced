import Pausepoint.Proofs.Session.Orders

/-!
# Pausepoint.Proofs.Session.Sifting

What a queue that keeps events only once drops.

Two queues are given the same events, and only one of them drops duplicates. What waits in the other is
written down with a mark at each event that was dropped (`EventQueue.Paired`):

* `sifted` — the marks of further events, `kept` — the events without a mark;
* `restated` — the marks once the queue holds other events than before.
-/

namespace Pausepoint

/-! ### What is dropped -/

/-- What a queue that keeps events only once makes of further ones: each of them, and whether it is
dropped. -/
def sifted (held : List Event) : List Event → List (Event × Bool)
  | [] => []
  | e :: rest => (e, decide (e ∈ held)) :: sifted (if e ∈ held then held else held ++ [e]) rest

/-- The events that are not dropped. -/
def kept (waiting : List (Event × Bool)) : List Event :=
  (waiting.filter fun entry => !entry.2).map Prod.fst

@[simp] theorem kept_nil : kept [] = [] := rfl

@[simp] theorem kept_append (waiting more : List (Event × Bool)) :
    kept (waiting ++ more) = kept waiting ++ kept more := by
  simp [kept]

@[simp] theorem kept_cons_dropped (e : Event) (rest : List (Event × Bool)) :
    kept ((e, true) :: rest) = kept rest := rfl

@[simp] theorem kept_cons (e : Event) (rest : List (Event × Bool)) :
    kept ((e, false) :: rest) = e :: kept rest := rfl

theorem kept_snoc (waiting : List (Event × Bool)) (e : Event) :
    kept (waiting ++ [(e, decide (e ∈ kept waiting))]) =
      if e ∈ kept waiting then kept waiting else kept waiting ++ [e] := by
  by_cases h : e ∈ kept waiting <;> simp [h]

theorem map_fst_sifted (held es : List Event) : (sifted held es).map Prod.fst = es := by
  induction es generalizing held with
  | nil => rfl
  | cons e rest ih => rw [sifted, List.map_cons, ih]

/-- What waits in a queue that keeps all events, once it holds the events `now` instead: those in front
may be gone, and others may have come, which the other queue sifts. -/
def restated (waiting : List (Event × Bool)) (now : List Event) : List (Event × Bool) :=
  waiting.drop (waiting.length - now.length) ++ sifted (kept waiting) (now.drop waiting.length)

theorem restated_more (waiting : List (Event × Bool)) (es : List Event) :
    restated waiting (waiting.map Prod.fst ++ es) = waiting ++ sifted (kept waiting) es := by
  have hlength : waiting.length - (waiting.map Prod.fst ++ es).length = 0 := by simp
  have hdrop : (waiting.map Prod.fst ++ es).drop waiting.length = es := by
    have hfirst : waiting.length = (waiting.map Prod.fst).length := (List.length_map _).symm
    rw [hfirst, List.drop_left]
  rw [restated, hlength, hdrop, List.drop_zero]

theorem restated_same (waiting : List (Event × Bool)) :
    restated waiting (waiting.map Prod.fst) = waiting := by
  have h := restated_more waiting []
  rwa [List.append_nil, sifted, List.append_nil] at h

theorem restated_rest (entry : Event × Bool) (rest : List (Event × Bool)) :
    restated (entry :: rest) (rest.map Prod.fst) = rest := by
  have hdrop : (rest.map Prod.fst).drop (entry :: rest).length = [] :=
    List.drop_eq_nil_of_le (by simp)
  rw [restated, hdrop, sifted, List.append_nil]
  simp

theorem restated_nil (waiting : List (Event × Bool)) : restated waiting [] = [] := by
  simp [restated, sifted]

namespace EventQueue

/-- Two queues that were given the same: the first keeps everything, the second keeps events only once. -/
structure Paired (waiting : List (Event × Bool)) (q r : EventQueue) : Prop where
  plain : q.dedupe = false
  frugal : r.dedupe = true
  events : q.events = waiting.map Prod.fst
  kept : r.events = Pausepoint.kept waiting
  cancelled : r.cancelled = q.cancelled
  closed : r.closed = q.closed

namespace Paired

variable {waiting : List (Event × Bool)} {q r : EventQueue}

theorem offer (h : Paired waiting q r) (hopen : q.closed = false) (e : Event) :
    Paired (waiting ++ [(e, decide (e ∈ Pausepoint.kept waiting))]) (q.offer e) (r.offer e) := by
  have hq : q.offer e = { q with events := q.events ++ [e] } := by
    rw [offer_of_open hopen, if_neg (by simp [h.plain])]
  have hr : r.offer e = { r with events := if e ∈ r.events then r.events else r.events ++ [e] } := by
    rw [offer_of_open (h.closed.trans hopen)]
    by_cases he : e ∈ r.events
    · rw [if_pos ⟨h.frugal, he⟩, if_pos he]
    · rw [if_neg fun hc => he hc.2, if_neg he]
  rw [hq, hr]
  refine ⟨h.plain, h.frugal, ?_, ?_, h.cancelled, h.closed⟩
  · simp [h.events]
  · rw [kept_snoc, h.kept]

/-- **Further events**: the second queue sifts what the first one takes. -/
theorem offers (h : Paired waiting q r) (hopen : q.closed = false) (es : List Event) :
    Paired (waiting ++ sifted (Pausepoint.kept waiting) es) (q.offers es) (r.offers es) := by
  induction es generalizing waiting q r with
  | nil => simpa [sifted] using h
  | cons e rest ih =>
      have hone := h.offer hopen e
      have hclosed : (q.offer e).closed = false := by
        rw [offer_of_open hopen]
        split <;> exact hopen
      have hall := ih hone hclosed
      rw [List.append_assoc, List.singleton_append] at hall
      rwa [kept_snoc] at hall

/-- The marks afterwards. A closed queue takes nothing. -/
theorem restated_offers (h : Paired waiting q r) (es : List Event) :
    restated waiting (q.offers es).events =
        (if q.closed then waiting else waiting ++ sifted (Pausepoint.kept waiting) es) ∧
      Paired (restated waiting (q.offers es).events) (q.offers es) (r.offers es) := by
  cases hc : q.closed with
  | true =>
      rw [offers_of_closed hc, offers_of_closed (h.closed.trans hc), h.events, restated_same]
      exact ⟨rfl, h⟩
  | false =>
      have hall := h.offers hc es
      have hmarks : restated waiting (q.offers es).events = waiting ++ sifted (Pausepoint.kept waiting) es := by
        rw [hall.events, List.map_append, map_fst_sifted, restated_more]
      rw [hmarks]
      exact ⟨rfl, hall⟩

theorem cancel (h : Paired waiting q r) : Paired waiting q.cancel r.cancel := by
  unfold EventQueue.cancel
  rw [h.cancelled]
  split
  · exact h
  · exact ⟨h.plain, h.frugal, h.events, h.kept, rfl, rfl⟩

theorem close (h : Paired waiting q r) : Paired [] q.close r.close :=
  ⟨h.plain, h.frugal, rfl, rfl, h.cancelled, rfl⟩

/-- What waited is gone from the front of both queues. -/
theorem tail {e : Event} {rest : List (Event × Bool)} (h : Paired ((e, false) :: rest) q r) :
    Paired rest { q with events := rest.map Prod.fst } { r with events := Pausepoint.kept rest } :=
  ⟨h.plain, h.frugal, rfl, rfl, h.cancelled, h.closed⟩

/-- The first queue alone hands out what the second one has dropped. -/
theorem tail_dropped {e : Event} {rest : List (Event × Bool)} (h : Paired ((e, true) :: rest) q r) :
    Paired rest { q with events := rest.map Prod.fst } r :=
  ⟨h.plain, h.frugal, rfl, h.kept, h.cancelled, h.closed⟩

end Paired

end EventQueue

end Pausepoint
