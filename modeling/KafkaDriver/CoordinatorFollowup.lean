import KafkaDriver.CoordinatorMachine

/-!
# Refreshes behind an active discovery

A refresh demanded while a discovery is active is told that a newer discovery is queued, or
that one is queued already. Its demand is kept in the follow-up slot of the active discovery,
which a withdrawn route takes over, and a success that satisfies the withdrawal skips the
follow-up. A refresh whose slot was taken over is forgotten then (`refresh_dropped`). In runs
in which no success does that while a refresh is owed, every such refresh is followed by a
discovery (`refresh_followed`).
-/

namespace KafkaDriver

open Runs List

abbrev CoordinatorEvent := Event CoordinatorMachine CoordinatorInput CoordinatorTransition

namespace CoordinatorMachine

/-- A refresh behind an active discovery was told that a newer discovery follows. -/
def QueuesRefresh (e : CoordinatorEvent) : Prop :=
  (∃ operationId, e.input = .refresh operationId) ∧ e.before.state.discovery.isSome ∧
    (e.answer.disposition = .refreshQueued ∨ e.answer.disposition = .coalesced)

/-- A discovery was sent, or no epoch is left for one. -/
def Continues (e : CoordinatorEvent) : Prop :=
  e.answer.sends = true ∨ .epochExhausted ∈ e.answer.effects

instance (e : CoordinatorEvent) : Decidable (Continues e) := inferInstanceAs (Decidable (_ ∨ _))

/-- A refresh was queued and no discovery was sent since. -/
def Owed (past : List CoordinatorEvent) : Prop := Since (fun _ e => QueuesRefresh e) Continues past

variable {m : CoordinatorMachine}

/-- The active discovery, if any, has a follow-up. -/
def Followed (m : CoordinatorMachine) : Prop :=
  ∃ d, m.state.discovery = some d ∧ d.followup.isSome

theorem followed_refresh {e : CoordinatorEvent} (hi : e.after = (e.before.apply e.input).1)
    (queues : QueuesRefresh e) : e.after.Followed := by
  obtain ⟨⟨op, ha⟩, his, -⟩ := queues
  obtain ⟨d, act⟩ := Option.isSome_iff_exists.1 his
  rw [hi, ha, CoordinatorMachine.apply, refresh_of_active act]
  split_ifs with hf
  · exact ⟨d, act, hf⟩
  · exact ⟨_, CoordinatorState.setDiscovery_discovery act, rfl⟩

/-- A follow-up stays until a discovery is sent, or it is dropped. -/
theorem Followed.step {i : CoordinatorInput}
    {res : CoordinatorMachine × CoordinatorTransition} (hf : m.Followed)
    (step : Step m i res) (hu : res.2.sends = false)
    (hr : .epochExhausted ∉ res.2.effects) (hk : ¬ m.Drops i) : res.1.Followed := by
  obtain ⟨d, act, hn⟩ := hf
  cases step with
  | kept => exact ⟨d, act, hn⟩
  | started => cases hu
  | queued hi => exact ⟨_, CoordinatorState.setDiscovery_discovery hi, rfl⟩
  | rejected st =>
    rw [st] at act
    cases act
    exact ⟨_, rfl, hn⟩
  | retried => cases hu
  | rested hi _ _ _ _ ho =>
    obtain rfl := Option.some.inj (act.symm.trans hi)
    rcases ho hn with out | drops
    · exact absurd out hr
    · exact absurd drops hk

/-- While a refresh is owed the active discovery has a follow-up. -/
theorem followed_of_owed (key : CoordinatorKey) (epoch : CoordinatorEpoch)
    (inputs : List CoordinatorInput)
    (hk : ∀ past e rest, trace apply (withInitialEpoch key epoch) inputs = past ++ e :: rest →
      Owed past → ¬ e.before.Drops e.input)
    (ho : Owed (trace apply (withInitialEpoch key epoch) inputs)) :
    (final apply (withInitialEpoch key epoch) inputs).Followed := by
  refine run_induction apply (P := fun _ past m =>
    (∀ pre e rest, past = pre ++ e :: rest → Owed pre → ¬ e.before.Drops e.input) →
      Owed past → m.Followed) ?_ ?_ inputs hk ho
  · rintro - ⟨pre, e, between, split, -⟩
    simp at split
  · intro is i ih hk ho
    rcases since_concat.1 ho with queues | ⟨pre, hq⟩
    · exact followed_refresh rfl queues
    have hf := ih (fun pre e rest split => hk pre e (rest ++ [_])
      (by rw [split, append_assoc, cons_append])) pre
    obtain ⟨hu, hr⟩ := not_or.1 hq
    exact hf.step (apply_step (withdrawn_run key epoch is) i)
      (Bool.eq_false_of_not_eq_true hu) hr (hk _ _ [] rfl pre)

/-- A queued refresh is followed by a discovery before the machine is idle again, in every run
in which no success drops the follow-up while a refresh is owed. -/
theorem refresh_followed (key : CoordinatorKey) (epoch : CoordinatorEpoch)
    (inputs : List CoordinatorInput)
    (kept : ∀ past e rest, trace apply (withInitialEpoch key epoch) inputs = past ++ e :: rest →
      Owed past → ¬ e.before.Drops e.input)
    (past between rest : List CoordinatorEvent) (e last : CoordinatorEvent)
    (split : trace apply (withInitialEpoch key epoch) inputs =
      past ++ e :: (between ++ last :: rest))
    (queues : QueuesRefresh e) (idle : last.after.state.discovery = none) :
    ∃ x ∈ between ++ [last], Continues x := by
  by_contra silent
  have hq : ∀ x ∈ between ++ [last], ¬ Continues x := fun x mem hs => silent ⟨x, mem, hs⟩
  have whole : trace apply (withInitialEpoch key epoch) inputs =
      (past ++ e :: between) ++ last :: rest := by simp [split]
  obtain ⟨is, i, hp, rfl⟩ := of_trace_eq_append_cons apply whole
  have hu : trace apply (withInitialEpoch key epoch) (is ++ [i]) =
      past ++ e :: (between ++ [event apply (final apply (withInitialEpoch key epoch) is) i]) := by
    rw [trace_concat, ← hp]
    simp
  have hf := followed_of_owed key epoch (is ++ [i])
    (fun pre x post hl => kept pre x (post ++ rest) ?_)
    ⟨past, e, _, hu, queues, hq⟩
  · rw [final_concat] at hf
    obtain ⟨d, active, -⟩ := hf
    exact absurd (active.symm.trans idle) nofun
  · rw [whole, hp]
    rw [trace_concat] at hl
    have he := congrArg (· ++ rest) hl
    simpa using he

/-! ## A dropped refresh -/

def ordersKey : CoordinatorKey := ⟨.group, "orders", by decide, by decide⟩

/-- The only coordinator of the key, as one discovery found it. -/
def ordersRoute (epoch : CoordinatorEpoch) (evidence : EvidenceStamp) : CoordinatorRoute :=
  ⟨ordersKey, ⟨1⟩, ⟨"broker", 9092⟩, epoch, evidence⟩

/-- The answer of the discovery `operationId`. -/
def finds (operationId : OperationId) (epoch : CoordinatorEpoch) (evidence : EvidenceStamp)
    (followupOperationId : OperationId) : CoordinatorInput :=
  .discoverySucceeded operationId epoch ⟨1⟩ ⟨"broker", 9092⟩ evidence followupOperationId

/-- A known route is refreshed, and refreshed again behind that discovery. -/
def refreshedTwice : List CoordinatorInput :=
  [.resolve ⟨1⟩, finds ⟨1⟩ ⟨1⟩ ⟨1⟩ ⟨9⟩, .refresh ⟨2⟩, .refresh ⟨3⟩]

/-- A failure observed before the discovery began is reported, and the discovery succeeds. -/
def withdrawnThenFound : List CoordinatorInput :=
  [.invalidate (ordersRoute ⟨1⟩ ⟨1⟩) ⟨3⟩ ⟨4⟩, finds ⟨2⟩ ⟨2⟩ ⟨4⟩ ⟨5⟩]

/-- The second refresh is queued and no discovery follows. -/
theorem refresh_dropped :
    ∃ past e between last, trace apply (new ordersKey) (refreshedTwice ++ withdrawnThenFound) =
        past ++ e :: (between ++ [last]) ∧
      QueuesRefresh e ∧ last.after.state.discovery = none ∧
      ∀ x ∈ between ++ [last], ¬ Continues x := by
  refine ⟨[_, _, _], _, [_], _, rfl, ⟨⟨⟨3⟩, rfl⟩, ?_, .inl ?_⟩, ?_, ?_⟩ <;> decide +kernel

/-- Without the failure the second refresh gets its discovery. -/
theorem refresh_followed_refreshedTwice :
    ∃ x ∈ trace apply (final apply (new ordersKey) refreshedTwice)
        [finds ⟨2⟩ ⟨2⟩ ⟨4⟩ ⟨5⟩, finds ⟨5⟩ ⟨3⟩ ⟨6⟩ ⟨7⟩], Continues x := by
  have hu : ∀ e ∈ trace apply (new ordersKey)
      (refreshedTwice ++ [finds ⟨2⟩ ⟨2⟩ ⟨4⟩ ⟨5⟩, finds ⟨5⟩ ⟨3⟩ ⟨6⟩ ⟨7⟩]),
      e.before.revocation = none := by decide +kernel
  refine refresh_followed ordersKey ⟨1⟩
    (refreshedTwice ++ [finds ⟨2⟩ ⟨2⟩ ⟨4⟩ ⟨5⟩, finds ⟨5⟩ ⟨3⟩ ⟨6⟩ ⟨7⟩]) ?_
    [_, _, _] [_] [] _ _ rfl ⟨⟨⟨3⟩, rfl⟩, ?_, .inl ?_⟩ ?_
  · rintro past e rest split - ⟨d, _, _, _, _, r, _, _, _, hr, _⟩
    have fresh := hu e (split ▸ mem_append_right _ mem_cons_self)
    exact absurd (fresh.symm.trans hr) nofun
  all_goals decide +kernel

end CoordinatorMachine

end KafkaDriver
