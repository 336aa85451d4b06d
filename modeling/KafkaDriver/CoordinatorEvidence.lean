import KafkaDriver.CoordinatorFollowup

/-!
# Withdrawn coordinators and the evidence that replaces them

A failure of the current route observed at `t` withdraws it, and the route found next must rest
on evidence later than `t`. The machine guards this by its revocation while that stands. After
a failed discovery has cleared it, the owner does : the evidence of a discovery is stamped when
it is sent, later than every failure the machine was told before (`Disciplined`).

`Guarded` joins the two. In every run of a disciplined owner, no route the machine returns after
an accepted invalidation rests on evidence from before the failure
(`replaced_by_newer_evidence`).
-/

namespace KafkaDriver

open Runs List

namespace CoordinatorMachine

/-- A discovery of this operation was sent. -/
def Sends (operationId : OperationId) (e : CoordinatorEvent) : Prop :=
  ∃ key epoch, .find operationId key epoch ∈ e.answer.effects

/-- A failure observed at `t` was accepted. -/
def AcceptedIn (past : List CoordinatorEvent) (t : OutcomeStamp) : Prop :=
  ∃ e ∈ past, e.input.observation = some t ∧ e.answer.accepted = true

/-- The last discovery of the operation was sent after a failure observed at `t` was
accepted. -/
def SentAfter (operationId : OperationId) (t : OutcomeStamp) (past : List CoordinatorEvent) :
    Prop :=
  Since (fun before e => Sends operationId e ∧ AcceptedIn before t) (Sends operationId) past

/-- The evidence of a discovery is later than every failure accepted before it was sent. -/
def Timely (past : List CoordinatorEvent) (input : CoordinatorInput) : Prop :=
  ∀ operationId epoch brokerId endpoint evidence followupOperationId,
    input = .discoverySucceeded operationId epoch brokerId endpoint evidence followupOperationId →
      ∀ t, SentAfter operationId t past → evidence.isAfter t

/-- The owner reports every discovery with timely evidence. -/
def Disciplined (run : List CoordinatorEvent) : Prop :=
  ∀ past e rest, run = past ++ e :: rest → Timely past e.input

/-- Later evidence than `t` is required of the active discovery, by the revocation or by the
owner, and the current route has it. -/
structure Guarded (t : OutcomeStamp) (past : List CoordinatorEvent) (m : CoordinatorMachine) :
    Prop where
  current : ∀ route, m.current = some route → route.evidence.isAfter t
  active : ∀ d, m.state.discovery = some d →
    (∃ r ∈ m.revocation, t ≤ r.requiredAfter) ∨ SentAfter d.operationId t past

variable {m : CoordinatorMachine} {past : List CoordinatorEvent} {e : CoordinatorEvent}
  {t : OutcomeStamp} {operationId : OperationId}

theorem acceptedIn_concat :
    AcceptedIn (past ++ [e]) t ↔
      AcceptedIn past t ∨ e.input.observation = some t ∧ e.answer.accepted = true := by
  simp [AcceptedIn, or_and_right, exists_or]

theorem not_sends (hs : e.answer.sends = false) : ¬ Sends operationId e := by
  rintro ⟨key, epoch, mem⟩
  have hf := any_eq_false.1 hs _ mem
  exact hf rfl

theorem SentAfter.concat (sent : SentAfter operationId t past) (hs : e.answer.sends = false) :
    SentAfter operationId t (past ++ [e]) :=
  since_concat.2 (.inr ⟨sent, not_sends hs⟩)

theorem sentAfter_of_sends (ok : AcceptedIn past t) (hs : Sends operationId e) :
    SentAfter operationId t (past ++ [e]) :=
  since_concat.2 (.inl ⟨hs, ok⟩)

/-- A revocation that requires later evidence guards by itself. -/
theorem guarded_of_revocation {r : CoordinatorRevocation} (gone : m.Withdrawn)
    (hg : m.revocation = some r) (hc : t ≤ r.requiredAfter) : Guarded t past m where
  current := by
    intro rt cur
    rw [(gone (by rw [hg]; rfl)).2] at cur
    cases cur
  active := fun _ _ => .inl ⟨r, hg, hc⟩

variable {input : CoordinatorInput} {res : CoordinatorMachine × CoordinatorTransition}

/-- The route a guarded discovery finds has later evidence. -/
theorem Guarded.answers {rt : CoordinatorRoute} (hgu : Guarded t past m)
    (ht : Timely past input) (ans : m.Answers input rt) : rt.evidence.isAfter t := by
  obtain ⟨d, next, st, ha, ok⟩ := ans
  rcases hgu.active d (by rw [st]; rfl) with ⟨r, hg, hc⟩ | hs
  · exact EvidenceStamp.isAfter_of_le (ok r hg) hc
  · exact ht _ _ _ _ _ _ ha t hs

/-- A guard stays over a step. -/
theorem Guarded.step (ok : AcceptedIn past t) (hg : Guarded t past m)
    (ht : Timely past input) (step : Step m input res) :
    Guarded t (past ++ [⟨m, input, res.1, res.2⟩]) res.1 := by
  have hca : ∀ rt, m.current = some rt ∨ m.Answers input rt → rt.evidence.isAfter t := by
    rintro rt (hk | ans)
    · exact hg.current rt hk
    · exact hg.answers ht ans
  cases step with
  | kept hs hcd =>
    refine ⟨hg.current, fun d act => ?_⟩
    exact (hg.active d act).imp_right fun sent => sent.concat hs
  | started hc =>
    refine ⟨fun rt cur => hca rt (hc rt cur), fun d act => .inr ?_⟩
    cases act
    exact sentAfter_of_sends ok ⟨_, _, mem_cons_self⟩
  | queued act _ hs hc _ hr =>
    refine ⟨fun rt cur => ?_, fun d his => ?_⟩
    · rw [CoordinatorMachine.current,
        CoordinatorState.current_of_discovery (CoordinatorState.setDiscovery_discovery act)]
        at cur
      refine hca rt (.inl ?_)
      rw [CoordinatorMachine.current, CoordinatorState.current_of_discovery act]
      exact hc rt cur
    · rw [CoordinatorState.setDiscovery_discovery act] at his
      obtain rfl := Option.some.inj his
      rcases hg.active _ act with ⟨r, hh, hco⟩ | sent
      · obtain ⟨r', held', ha⟩ := hr r hh
        exact .inl ⟨r', held', hco.trans ha⟩
      · exact .inr (sent.concat hs)
  | @rejected d _ _ _ st =>
    refine ⟨fun rt cur => ?_, fun d' act => ?_⟩
    · refine hg.current rt ?_
      rw [CoordinatorMachine.current, st]
      exact cur
    · cases act
      have pre := hg.active d (by rw [st]; rfl)
      exact pre.imp_right fun sent => sent.concat rfl
  | retried st =>
    refine ⟨fun rt cur => ?_, fun d act => .inr ?_⟩
    · refine hg.current rt ?_
      rw [CoordinatorMachine.current, st]
      exact cur
    · cases act
      exact sentAfter_of_sends ok ⟨_, _, mem_cons_self⟩
  | rested _ hi _ _ hc =>
    refine ⟨fun rt cur => hca rt (hc rt cur), fun d act => ?_⟩
    cases hi.symm.trans act

/-- An accepted invalidation is guarded at once. -/
theorem guarded_accepted (gone : res.1.Withdrawn)
    (step : Step m input res) (seen : input.observation = some t)
    (ok : res.2.accepted = true) : Guarded t past res.1 := by
  cases step with
  | kept _ hc =>
    obtain ⟨r, hg, hco⟩ := hc t seen ok
    exact guarded_of_revocation gone hg hco
  | started _ _ hc | queued _ _ _ _ _ _ hc =>
    obtain ⟨r, hg, hco⟩ := hc t seen
    exact guarded_of_revocation gone hg hco
  | rejected _ ha | retried _ ha =>
    rw [ha] at seen
    cases seen
  | rested _ _ _ hu => exact absurd (hu.symm.trans seen) nofun

/-- While a route is withdrawn a discovery is active and no route is current, and every route
returned after an accepted invalidation has evidence later than the failure it reported, in
every run of a disciplined owner. -/
theorem replaced_by_newer_evidence (key : CoordinatorKey) (epoch : CoordinatorEpoch)
    (inputs : List CoordinatorInput)
    (disciplined : Disciplined (trace apply (withInitialEpoch key epoch) inputs)) :
    (final apply (withInitialEpoch key epoch) inputs).Withdrawn ∧
      ∀ e ∈ trace apply (withInitialEpoch key epoch) inputs, ∀ t,
        e.input.observation = some t → e.answer.accepted = true →
        ∀ route, (final apply (withInitialEpoch key epoch) inputs).current = some route →
          route.evidence.isAfter t := by
  refine ⟨withdrawn_run key epoch inputs, fun e mem t ho ha => ?_⟩
  refine Guarded.current (run_induction apply (P := fun _ past m => Disciplined past →
    ∀ t, AcceptedIn past t → Guarded t past m) ?_ ?_ inputs disciplined t ⟨e, mem, ho, ha⟩)
  · rintro - t ⟨e, mem, -⟩
    cases mem
  · intro is input ih disciplined t ha
    have hw := withdrawn_run key epoch is
    have step := apply_step hw input
    rcases acceptedIn_concat.1 ha with pre | ⟨ho, ha⟩
    · have hg := ih (fun past e rest split => disciplined past e (rest ++ [_])
        (by rw [split, append_assoc, cons_append])) t pre
      exact hg.step pre (disciplined _ _ [] rfl) step
    · exact guarded_accepted (hw.apply input) step ho ha

/-- Evidence later than every failure reported so far is timely. -/
theorem timely_of_later
    (hl : ∀ e ∈ past, ∀ t ∈ e.input.observation, ∀ ev ∈ input.evidence,
      ev.isAfter t = true) : Timely past input := by
  rintro op epoch bid ep ev next rfl t ⟨pre, f, between, rfl, ⟨-, e, mem, seen, -⟩, -⟩
  exact hl e (mem_append_left _ mem) t seen ev rfl

/-- The failure of the route is reported, and the discovery that was to replace it fails. -/
def withdrawnThenFailed : List CoordinatorInput :=
  [.resolve ⟨1⟩, finds ⟨1⟩ ⟨1⟩ ⟨1⟩ ⟨9⟩, .invalidate (ordersRoute ⟨1⟩ ⟨1⟩) ⟨3⟩ ⟨2⟩,
    .discoveryFailed ⟨2⟩ ⟨2⟩ ⟨5⟩, .resolve ⟨6⟩, finds ⟨6⟩ ⟨2⟩ ⟨4⟩ ⟨7⟩]

/-- The route found in the end has evidence later than the failure. -/
theorem replaced_by_newer_evidence_orders :
    (final apply (new ordersKey) withdrawnThenFailed).current = some (ordersRoute ⟨2⟩ ⟨4⟩) ∧
      (ordersRoute ⟨2⟩ ⟨4⟩).evidence.isAfter ⟨3⟩ = true := by
  have hf : (final apply (new ordersKey) withdrawnThenFailed).current =
      some (ordersRoute ⟨2⟩ ⟨4⟩) := by decide +kernel
  have hl : ∀ n, ∀ inside : n < (trace apply (new ordersKey) withdrawnThenFailed).length,
      ∀ e ∈ (trace apply (new ordersKey) withdrawnThenFailed).take n,
        ∀ t ∈ e.input.observation,
          ∀ ev ∈ (trace apply (new ordersKey) withdrawnThenFailed)[n].input.evidence,
            ev.isAfter t = true := by decide +kernel
  have hd : Disciplined (trace apply (new ordersKey) withdrawnThenFailed) :=
    forall_splits (P := fun past e => Timely past e.input) fun n inside =>
      timely_of_later (hl n inside)
  refine ⟨hf, (replaced_by_newer_evidence ordersKey ⟨1⟩ withdrawnThenFailed hd).2
    (event apply (final apply (new ordersKey) (withdrawnThenFailed.take 2))
      (.invalidate (ordersRoute ⟨1⟩ ⟨1⟩) ⟨3⟩ ⟨2⟩)) ?_ ⟨3⟩ rfl (by decide +kernel) _ hf⟩
  exact .tail _ (.tail _ (.head _))

end CoordinatorMachine

end KafkaDriver
