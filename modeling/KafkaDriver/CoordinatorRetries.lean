import KafkaDriver.CoordinatorFollowup

/-!
# Rediscovery without new demand

A rejected discovery is retried up to eight times, and one that ends without a route starts
the follow-up queued behind it, with a retry counter of its own. `findsLeft` counts the finds a
machine can still send : a retry spends one of its pass, and a follow-up gives up its nine for
the one it sends and the eight it may retry.
-/

namespace KafkaDriver

open Runs List

/-- The finds that may follow the one in flight, if nothing more is demanded. -/
def CoordinatorDiscovery.findsLeft (d : CoordinatorDiscovery) : ℕ :=
  (maxDiscoveryRetries - d.retries) + if d.followup.isSome then 1 + maxDiscoveryRetries else 0

def CoordinatorState.findsLeft : CoordinatorState → ℕ
  | .discovering d => d.findsLeft
  | .retrying d _ => 1 + d.findsLeft
  | _ => 0

/-- The retry counter is within its limit, and started if a retry is awaited. -/
def CoordinatorState.Metered : CoordinatorState → Prop
  | .discovering d => d.retries ≤ maxDiscoveryRetries
  | .retrying d _ => 0 < d.retries ∧ d.retries ≤ maxDiscoveryRetries
  | _ => True

def CoordinatorEffect.isFind : CoordinatorEffect → Bool
  | .find _ _ _ => true
  | _ => false

/-- The finds a transition sends. -/
def CoordinatorTransition.finds (t : CoordinatorTransition) : ℕ :=
  t.effects.countP CoordinatorEffect.isFind

theorem CoordinatorTransition.finds_of_silent {t : CoordinatorTransition} (h : t.sends = false) :
    t.finds = 0 := by
  refine countP_eq_zero.2 fun f mem => ?_
  have hf := any_eq_false.1 h f mem
  cases f <;> simp_all [CoordinatorEffect.isFind]

namespace CoordinatorMachine

open CoordinatorState

variable {m : CoordinatorMachine} {i : CoordinatorInput} {past : List CoordinatorEvent}
  {res : CoordinatorMachine × CoordinatorTransition}

/-! ## What one step spends -/

theorem findsLeft_le_of_discovery {d : CoordinatorDiscovery} (act : m.state.discovery = some d) :
    d.findsLeft ≤ m.state.findsLeft := by
  cases st : m.state <;> rw [st] at act <;> cases act
  · exact le_rfl
  · exact Nat.le_add_left _ 1

/-- Without new demand what is sent is taken from what was left. -/
theorem Step.finds_le (step : Step m i res) (hi : i.isSetback = true) :
    res.2.finds + res.1.state.findsLeft ≤ m.state.findsLeft := by
  cases step with
  | kept hs => simp [CoordinatorTransition.finds_of_silent hs]
  | started _ _ _ hf =>
    obtain ⟨d, act, hd⟩ := hf hi
    refine le_trans ?_ (findsLeft_le_of_discovery act)
    rw [CoordinatorDiscovery.findsLeft, if_pos hd]
    exact Nat.le_add_left _ _
  | queued _ hn => simp [hn] at hi
  | rejected st _ room =>
    rw [st, CoordinatorTransition.finds_of_silent rfl]
    simp only [CoordinatorState.findsLeft, CoordinatorDiscovery.findsLeft]
    omega
  | retried st =>
    rw [st]
    exact le_rfl
  | @rested d state t _ idle hs =>
    rw [CoordinatorTransition.finds_of_silent hs]
    cases state <;> first | exact Nat.zero_le _ | cases idle

theorem Metered.step (h : m.state.Metered) (step : Step m i res) : res.1.state.Metered := by
  cases step with
  | kept => exact h
  | started => exact Nat.zero_le _
  | queued act =>
    cases st : m.state <;> rw [st] at act h <;> cases act <;> exact h
  | rejected _ _ room => exact ⟨Nat.succ_pos _, room⟩
  | retried st =>
    rw [st] at h
    exact h.2
  | @rested d state t _ idle => cases state <;> trivial

/-- The instant an awaited retry waits for was announced after the last find. -/
def Announced (past : List CoordinatorEvent) (s : CoordinatorState) : Prop :=
  ∀ d due, s = .retrying d due →
    Since (fun _ e => .waitUntil d.operationId d.targetEpoch due ∈ e.answer.effects)
      (fun e => e.answer.sends = true) past

theorem Announced.step (h : Announced past m.state) (step : Step m i res) :
    Announced (past ++ [⟨m, i, res.1, res.2⟩]) res.1.state := by
  intro d due hd
  refine since_concat.2 ?_
  cases step with
  | kept hs => exact .inr ⟨h d due hd, by simp [hs]⟩
  | started => cases hd
  | queued act _ hs =>
    refine .inr ⟨?_, by simp [hs]⟩
    cases st : m.state <;> rw [st] at act hd <;> cases act <;> cases hd
    have old := h _ due st
    exact old
  | rejected =>
    cases hd
    exact .inl mem_cons_self
  | retried => cases hd
  | @rested _ state _ _ idle =>
    obtain rfl : state = .retrying d due := hd
    cases idle

/-- A retry is sent for the discovery that waits, once its instant has come. -/
theorem retrying_of_sends {op op' : OperationId} {ep : CoordinatorEpoch} {now : Moment}
    (h : (m.retryElapsed op ep now op').2.sends = true) :
    ∃ d due, m.state = .retrying d due ∧ op = d.operationId ∧ ep = d.targetEpoch ∧ due ≤ now := by
  unfold retryElapsed at h
  split at h
  · rename_i d due st
    split_ifs at h with hf hn
    · cases h
    · cases h
    · obtain ⟨ho, he⟩ := not_or.1 hf
      exact ⟨d, due, st, not_not.1 ho, not_not.1 he, not_lt.1 hn⟩
  · cases h

/-! ## Every run -/

variable (key : CoordinatorKey) (epoch : CoordinatorEpoch) (inputs : List CoordinatorInput)

theorem metered_run :
    (final apply (withInitialEpoch key epoch) inputs).state.Metered ∧
      Announced (trace apply (withInitialEpoch key epoch) inputs)
        (final apply (withInitialEpoch key epoch) inputs).state := by
  refine run_induction apply (s := withInitialEpoch key epoch)
    (P := fun _ past m => m.state.Metered ∧ Announced past m.state)
    ⟨trivial, ?_⟩ (fun is i h => ?_) inputs
  · rintro d due ⟨⟩
  · have step := apply_step (withdrawn_run key epoch is) i
    exact ⟨Metered.step h.1 step, h.2.step step⟩

/-- The finds a run sends. -/
def findsSent (run : List CoordinatorEvent) : ℕ := (run.map fun e => e.answer.finds).sum

theorem findsSent_le (more : List CoordinatorInput) (hs : ∀ i ∈ more, i.isSetback = true) :
    findsSent (trace apply (final apply (withInitialEpoch key epoch) inputs) more) ≤
      (final apply (withInitialEpoch key epoch) inputs).state.findsLeft := by
  induction more generalizing inputs with
  | nil => exact Nat.zero_le _
  | cons i more ih =>
    have first := (apply_step (withdrawn_run key epoch inputs) i).finds_le (hs i mem_cons_self)
    have rest := ih (inputs ++ [i]) fun j mem => hs j (mem_cons_of_mem _ mem)
    rw [final_concat] at rest
    simp only [findsSent, trace, map_cons, sum_cons] at rest ⊢
    exact (Nat.add_le_add_left rest _).trans first

/-- From every reachable state the finds without new demand are bounded by what is left, which
is at most the eight retries of the pass and the nine finds of a follow-up. The retry counter
never exceeds eight, and every retry is sent no earlier than the instant announced for it. -/
theorem rediscovery_bounded :
    (∀ more, (∀ i ∈ more, i.isSetback = true) →
      findsSent (trace apply (final apply (withInitialEpoch key epoch) inputs) more) ≤
        (final apply (withInitialEpoch key epoch) inputs).state.findsLeft) ∧
    (final apply (withInitialEpoch key epoch) inputs).state.findsLeft ≤
      maxDiscoveryRetries + (1 + maxDiscoveryRetries) ∧
    (∀ d, (final apply (withInitialEpoch key epoch) inputs).state.discovery = some d →
      d.retries ≤ maxDiscoveryRetries) ∧
    ∀ past e rest op ep now op',
      trace apply (withInitialEpoch key epoch) inputs = past ++ e :: rest →
      e.input = .retryElapsed op ep now op' → e.answer.sends = true →
      ∃ due ≤ now, Since (fun _ x => .waitUntil op ep due ∈ x.answer.effects)
        (fun x => x.answer.sends = true) past := by
  refine ⟨findsSent_le key epoch inputs, ?_, fun d act => ?_, ?_⟩
  · have h := (metered_run key epoch inputs).1
    cases st : (final apply (withInitialEpoch key epoch) inputs).state <;> rw [st] at h <;>
      simp only [CoordinatorState.findsLeft, CoordinatorDiscovery.findsLeft, Metered] at h ⊢ <;>
      (try split_ifs) <;> omega
  · have h := (metered_run key epoch inputs).1
    cases st : (final apply (withInitialEpoch key epoch) inputs).state <;> rw [st] at act h <;>
      cases act
    · exact h
    · exact h.2
  · rintro past e rest op ep now op' split hi hs
    obtain ⟨is, i, rfl, rfl⟩ := of_trace_eq_append_cons apply split
    obtain rfl : i = .retryElapsed op ep now op' := hi
    obtain ⟨d, due, st, rfl, rfl, hn⟩ := retrying_of_sends hs
    exact ⟨due, hn, (metered_run key epoch is).2 d due st⟩

end CoordinatorMachine

end KafkaDriver
