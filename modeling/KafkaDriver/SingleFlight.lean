import Mathlib.Data.List.Nodup

/-!
# One request at a time, with a queue behind it

A `SingleFlight` sends one request at a time. A demand made while a request is in flight waits
in a bounded queue that holds each request once, and every completion sends the first request of
the queue. `Step` lists what can happen, each with what was demanded, sent and completed
(`Act`), and `Walk` is a run of steps.

Over a run nothing is lost, doubled or reordered (`Walk.conserves`) : what waited at first and
was demanded since is, in this order, what was sent since and what waits now. The queue stays
without repetition and within its bound, and as many requests are in flight as were sent and
not completed (`Walk.single`).
-/

namespace KafkaDriver

open List

variable {α : Type*}

/-- The request in flight and those that wait. -/
structure SingleFlight (α : Type*) where
  active : Option α
  queued : List α

/-- What one step took in, sent and saw completed. -/
structure Act (α : Type*) where
  admitted : Option α
  sent : Option α
  completed : Bool

namespace SingleFlight

/-- What can happen, with room for `limit` waiting requests. -/
inductive Step (limit : ℕ) : SingleFlight α → Act α → SingleFlight α → Prop
  | keeps {s : SingleFlight α} : Step limit s ⟨none, none, false⟩ s
  | starts {x : α} : Step limit ⟨none, []⟩ ⟨some x, some x, false⟩ ⟨some x, []⟩
  | queues {active x : α} {queued : List α} (fresh : x ∉ queued) (room : queued.length < limit) :
      Step limit ⟨some active, queued⟩ ⟨some x, none, false⟩ ⟨some active, queued ++ [x]⟩
  | advances {active x : α} {queued : List α} :
      Step limit ⟨some active, x :: queued⟩ ⟨none, some x, true⟩ ⟨some x, queued⟩
  | rests {active : α} : Step limit ⟨some active, []⟩ ⟨none, none, true⟩ ⟨none, []⟩

/-- A run of steps. -/
inductive Walk (limit : ℕ) : SingleFlight α → List (Act α) → SingleFlight α → Prop
  | nil {s : SingleFlight α} : Walk limit s [] s
  | concat {s s' s'' : SingleFlight α} {acts : List (Act α)} {act : Act α}
      (walk : Walk limit s acts s') (step : Step limit s' act s'') :
      Walk limit s (acts ++ [act]) s''

/-- The queue holds each request once, within the bound. -/
structure Bounded (limit : ℕ) (s : SingleFlight α) : Prop where
  distinct : s.queued.Nodup
  within : s.queued.length ≤ limit

variable {limit : ℕ} {s s' : SingleFlight α} {act : Act α} {acts : List (Act α)}

theorem Step.conserves (step : Step limit s act s') :
    s.queued ++ act.admitted.toList = act.sent.toList ++ s'.queued := by
  cases step <;> simp

theorem Step.single (step : Step limit s act s') :
    s.active.toList.length + act.sent.toList.length =
      act.completed.toNat + s'.active.toList.length := by
  cases step <;> simp

/-- A completion sends the first request that waits. -/
theorem Step.of_completed (step : Step limit s act s') (hc : act.completed = true) :
    act.sent = s.queued.head? ∧ s'.active = s.queued.head? ∧ s'.queued = s.queued.tail := by
  cases step with
  | keeps | starts | queues => cases hc
  | advances | rests => exact ⟨rfl, rfl, rfl⟩

/-- While a request is in flight, only its completion sends another. -/
theorem Step.of_active (step : Step limit s act s') (hi : act.completed = false)
    (hb : s.active ≠ none) : act.sent = none ∧ s'.active = s.active := by
  cases step with
  | keeps | queues => exact ⟨rfl, rfl⟩
  | starts => exact absurd rfl hb
  | advances | rests => cases hi

theorem Bounded.step (hb : Bounded limit s) (step : Step limit s act s') : Bounded limit s' := by
  cases step with
  | keeps => exact hb
  | starts => exact ⟨nodup_nil, Nat.zero_le _⟩
  | queues hf hr =>
    exact ⟨concat_eq_append ▸ hb.distinct.concat hf, by rw [length_append]; exact hr⟩
  | advances => exact ⟨hb.distinct.of_cons, Nat.le_of_succ_le hb.within⟩
  | rests => exact ⟨nodup_nil, Nat.zero_le _⟩

/-- What waited and was demanded is what was sent and what waits, in order. -/
theorem Walk.conserves (hw : Walk limit s acts s') :
    s.queued ++ acts.filterMap Act.admitted = acts.filterMap Act.sent ++ s'.queued := by
  induction hw with
  | nil => simp
  | @concat s' s'' acts act hw step ih =>
    have last := step.conserves
    rw [filterMap_append, filterMap_append, ← append_assoc, ih, append_assoc, append_assoc]
    cases admitted : act.admitted <;> cases sent : act.sent <;>
      simpa [admitted, sent] using last

/-- As many requests are in flight as were sent and not completed. -/
theorem Walk.single (hw : Walk limit s acts s') :
    s.active.toList.length + (acts.filterMap Act.sent).length =
      (acts.filter Act.completed).length + s'.active.toList.length := by
  induction hw with
  | nil => simp
  | @concat s' s'' acts act hw step ih =>
    have last := step.single
    have hs : ([act].filterMap Act.sent).length = act.sent.toList.length := by
      cases h : act.sent <;> simp [h]
    have hc : ([act].filter Act.completed).length = act.completed.toNat := by
      cases h : act.completed <;> simp [h]
    rw [filterMap_append, filter_append, length_append, length_append, hs, hc]
    omega

theorem Bounded.walk (hb : Bounded limit s) (hw : Walk limit s acts s') : Bounded limit s' := by
  induction hw with
  | nil => exact hb
  | concat _ step ih => exact ih.step step

end SingleFlight

end KafkaDriver
