import KafkaDriver.CoordinatorOwner

/-!
# What the owner and a coordinator machine owe each other

The owner sends what a machine asks for, so a transition must say what is in flight after it
(`Asks`). In return the machine says what became of a revocation (`Outcome`) : it is kept and may
be raised, it is given up with the route unknown, or it is met by a route with newer evidence.
-/

namespace KafkaDriver

open Runs

/-! ## What machines ask for -/

/-- Operation and epoch of the discovery in flight. -/
def CoordinatorState.inFlight : CoordinatorState → Option (OperationId × CoordinatorEpoch)
  | .discovering d => some (d.operationId, d.targetEpoch)
  | _ => none

theorem CoordinatorState.inFlight_setDiscovery {s : CoordinatorState}
    {d d' : CoordinatorDiscovery} (act : s.discovery = some d)
    (op : d'.operationId = d.operationId) (e : d'.targetEpoch = d.targetEpoch) :
    (s.setDiscovery d').inFlight = s.inFlight := by
  cases s with
  | discovering _ =>
    cases act
    simp only [setDiscovery, inFlight, op, e]
  | _ => rfl

variable {a b : CoordinatorRoute}

theorem CoordinatorRoute.isSameTarget_iff :
    a.isSameTarget b = true ↔
      a.key = b.key ∧ a.brokerId = b.brokerId ∧ a.endpoint = b.endpoint := by
  simp [isSameTarget]

theorem CoordinatorRoute.isSameTarget_trans {c : CoordinatorRoute} (first : a.isSameTarget b = true)
    (second : b.isSameTarget c = true) : a.isSameTarget c = true := by
  rw [isSameTarget_iff] at *
  exact ⟨first.1.trans second.1, first.2.1.trans second.2.1, first.2.2.trans second.2.2⟩

theorem CoordinatorRoute.isSameTarget_symm (hs : a.isSameTarget b = true) :
    b.isSameTarget a = true := by
  rw [isSameTarget_iff] at *
  exact ⟨hs.1.symm, hs.2.1.symm, hs.2.2.symm⟩

namespace CoordinatorMachine

/-- The effects of a transition into `m`, where `calm` is what stays in flight if nothing is
sent. -/
inductive Asks (m : CoordinatorMachine) (calm : Option (OperationId × CoordinatorEpoch)) :
    List CoordinatorEffect → Prop
  | nothing (same : m.state.inFlight = calm) : Asks m calm []
  | find {operationId : OperationId} {key : CoordinatorKey} {epoch : CoordinatorEpoch}
      (sent : m.state.inFlight = some (operationId, epoch)) :
      Asks m calm [.find operationId key epoch]
  | wait {operationId : OperationId} {epoch : CoordinatorEpoch} {due : Moment}
      (same : m.state.inFlight = calm) : Asks m calm [.waitUntil operationId epoch due]
  | exhausted : Asks m calm [.epochExhausted]

variable {m : CoordinatorMachine}

theorem resolve_asks (m : CoordinatorMachine) (op : OperationId) :
    Asks (m.resolve op).1 m.state.inFlight (m.resolve op).2.effects := by
  unfold resolve
  split
  · exact .find rfl
  · exact .nothing rfl
  · exact .nothing rfl
  · exact .nothing rfl

variable {d : CoordinatorDiscovery} {operationId op' : OperationId}
  {epoch : CoordinatorEpoch} {route : CoordinatorRoute}

theorem queueRevocation_asks (act : m.state.discovery = some d) :
    Asks (m.queueRevocation d).1 m.state.inFlight (m.queueRevocation d).2.effects := by
  have hs : (m.queueRevocation d).2.effects = [] := by
    unfold queueRevocation
    split_ifs <;> rfl
  rw [hs]
  exact .nothing (CoordinatorState.inFlight_setDiscovery act rfl rfl)

theorem refresh_active_asks (act : m.state.discovery = some d) (op : OperationId) :
    Asks (m.refresh op).1 m.state.inFlight (m.refresh op).2.effects := by
  rw [refresh_of_active act]
  split_ifs
  · exact .nothing rfl
  · exact .nothing (CoordinatorState.inFlight_setDiscovery act rfl rfl)

section

variable (operationId op' route)

theorem invalidate_asks (gone : m.Withdrawn) (t : OutcomeStamp) :
    Asks (m.invalidate route t operationId).1 m.state.inFlight
      (m.invalidate route t operationId).2.effects := by
  unfold invalidate
  split
  · rename_i r hf
    have hg : m.revocation = some r := (Option.filter_eq_some_iff.1 hf).1
    split
    · exact .nothing rfl
    · rename_i r' hr
      obtain ⟨d, act⟩ := Option.isSome_iff_exists.1 (gone (by rw [hg]; rfl)).1
      exact refresh_active_asks (m := { m with revocation := some r' }) act operationId
  · split
    · exact .nothing rfl
    · split_ifs
      · exact .nothing rfl
      · split
        · exact .exhausted
        · exact .find rfl
    · rename_i d st
      split_ifs
      · exact .nothing rfl
      · exact queueRevocation_asks (m := { m with revocation := some ⟨route, t⟩ }) (by rw [st]; rfl)
    · rename_i d due st
      split_ifs
      · exact .nothing rfl
      · exact queueRevocation_asks (m := { m with revocation := some ⟨route, t⟩ }) (by rw [st]; rfl)

theorem withdraw_asks (m : CoordinatorMachine) :
    Asks (m.withdraw route operationId).1 m.state.inFlight
      (m.withdraw route operationId).2.effects := by
  unfold withdraw
  split
  · exact .nothing rfl
  · split_ifs
    · exact .nothing rfl
    · split
      · exact .exhausted
      · exact .find rfl
  · rename_i d st
    split_ifs
    · exact .nothing rfl
    · exact queueRevocation_asks (by rw [st]; rfl)
  · rename_i d due st
    split_ifs
    · exact .nothing rfl
    · exact queueRevocation_asks (by rw [st]; rfl)

theorem install_asks (m : CoordinatorMachine) (d : CoordinatorDiscovery) :
    Asks (m.install d route op').1 none (m.install d route op').2.effects := by
  unfold install
  split
  · exact .nothing rfl
  · split
    · exact .exhausted
    · exact .find rfl

end

theorem succeed_asks (st : m.state = .discovering d) (bid : BrokerId)
    (ep : BrokerEndpoint) (ev : EvidenceStamp) (op' : OperationId) :
    Asks (m.succeed d.operationId d.targetEpoch bid ep ev op').1 none
      (m.succeed d.operationId d.targetEpoch bid ep ev op').2.effects := by
  unfold succeed
  simp only [st, ne_eq, not_true_eq_false, or_self, if_false]
  split
  · exact install_asks _ _ _ _
  split
  · split
    · exact .nothing rfl
    · exact install_asks _ _ _ _
  · split
    · exact .exhausted
    · exact .find rfl

theorem fail_asks (act : m.state.discovery = some d) (op' : OperationId) :
    Asks (m.fail d.operationId d.targetEpoch op').1 none
      (m.fail d.operationId d.targetEpoch op').2.effects := by
  rw [fail_of_active _ act]
  split
  · exact .find rfl
  · split_ifs
    · exact .nothing rfl
    · refine .nothing ?_
      cases d.current <;> rfl

variable (op' epoch)

theorem reject_asks (st : m.state = .discovering d) (now : Moment) :
    Asks (m.reject d.operationId d.targetEpoch now op').1 none
      (m.reject d.operationId d.targetEpoch now op').2.effects := by
  have hf := fail_asks (m := m) (d := d) (by rw [st]; rfl) op'
  unfold reject
  simp only [st, ne_eq, not_true_eq_false, or_self, if_false]
  split_ifs
  · exact hf
  · split
    · exact hf
    · exact .wait rfl

theorem retryElapsed_asks {due now : Moment} (st : m.state = .retrying d due)
    (he : due ≤ now) (retry : OperationId) :
    Asks (m.retryElapsed d.operationId d.targetEpoch now retry).1 none
      (m.retryElapsed d.operationId d.targetEpoch now retry).2.effects := by
  unfold retryElapsed
  simp only [st, ne_eq, not_true_eq_false, or_self, if_false, if_neg (not_lt.2 he)]
  exact .find rfl

/-! ## What becomes of a revocation -/

/-- The machine takes the answer of its discovery as the current route. -/
def Installs (step : CoordinatorEvent) (route : CoordinatorRoute) : Prop :=
  step.before.Answers step.input route ∧ step.after.current = some route ∧
    route.key = step.before.key

/-- A revocation is raised, given up with the route unknown, or met by newer evidence. -/
inductive Outcome (r : CoordinatorRevocation) (step : CoordinatorEvent) : Prop
  | kept {r' : CoordinatorRevocation} (held : step.after.revocation = some r')
      (same : r'.target = r.target) (raised : r.requiredAfter ≤ r'.requiredAfter) : Outcome r step
  | lost {epoch : CoordinatorEpoch} (ended : step.after.revocation = none)
      (unknown : step.after.state = .unknown epoch) : Outcome r step
  | met {route : CoordinatorRoute} (ended : step.after.revocation = none)
      (installs : Installs step route) (after : route.evidence.isAfter r.requiredAfter = true) :
      Outcome r step

variable {r : CoordinatorRevocation}

section

variable (m operationId route)

theorem resolve_revocation : (m.resolve operationId).1.revocation = m.revocation := by
  unfold resolve
  split <;> rfl

theorem refresh_revocation : (m.refresh operationId).1.revocation = m.revocation := by
  unfold refresh
  split
  · split_ifs <;> rfl
  · split_ifs <;> rfl
  · rfl
  · split <;> rfl

theorem withdraw_revocation : (m.withdraw route operationId).1.revocation = m.revocation := by
  unfold withdraw
  split
  · rfl
  · split_ifs
    · rfl
    · split <;> rfl
  · split_ifs <;> rfl
  · split_ifs <;> rfl

theorem retryElapsed_revocation (now : Moment) (retry : OperationId) :
    (m.retryElapsed operationId epoch now retry).1.revocation = m.revocation := by
  unfold retryElapsed
  split
  · split_ifs <;> rfl
  · rfl

end

/-- An invalidation of another route is stale while a route is withdrawn. -/
theorem invalidate_of_other (hw : m.Withdrawn) (hg : m.revocation = some r)
    (ne : r.matchesRoute route = false) (t : OutcomeStamp) (op : OperationId) :
    m.invalidate route t op = (m, .stale) := by
  obtain ⟨hi, gone⟩ := hw (by rw [hg]; rfl)
  obtain ⟨d, act⟩ := Option.isSome_iff_exists.1 hi
  rw [current, CoordinatorState.current_of_discovery act] at gone
  unfold invalidate
  simp only [hg, Option.filter_some, ne, Bool.false_eq_true, if_false]
  cases state : m.state with
  | unknown e => rfl
  | ready route =>
    rw [state] at act
    cases act
  | discovering d' | retrying d' due =>
    rw [state] at act
    cases act
    simp only [gone, Option.all_none, if_true]

/-- An invalidation of the withdrawn route raises its revocation. -/
theorem invalidate_of_same (hg : m.revocation = some r) (hs : r.matchesRoute route = true)
    (t : OutcomeStamp) (op : OperationId) :
    ∃ r', (m.invalidate route t op).1.revocation = some r' ∧
      r'.target = r.target ∧ r.requiredAfter ≤ r'.requiredAfter ∧ t ≤ r'.requiredAfter := by
  unfold invalidate
  simp only [hg, Option.filter_some, hs, if_true]
  unfold CoordinatorRevocation.observe
  split_ifs with hc
  · exact ⟨r, rfl, rfl, le_rfl, hc⟩
  · refine ⟨{ r with requiredAfter := max r.requiredAfter t }, ?_, rfl,
      le_max_left _ _, le_max_right _ _⟩
    exact refresh_revocation { m with revocation := some { r with
      requiredAfter := max r.requiredAfter t } } op

/-- An invalidation that waits for evidence leaves a revocation that requires it. -/
theorem invalidate_covers (hg : m.Withdrawn) {t : OutcomeStamp}
    (hw : CoordinatorOwner.waitsForEvidence (m.invalidate route t operationId).2.disposition = true)
    (hr : .epochExhausted ∉ (m.invalidate route t operationId).2.effects) :
    ∃ r, (m.invalidate route t operationId).1.revocation = some r ∧
      r.matchesRoute route = true ∧ t ≤ r.requiredAfter := by
  cases held : m.revocation with
  | some r =>
    cases hs : r.matchesRoute route with
    | true =>
      obtain ⟨r', hg', tgt, -, hc⟩ :=
        invalidate_of_same held hs t operationId
      refine ⟨r', hg', ?_, hc⟩
      rw [CoordinatorRevocation.matchesRoute, tgt]
      exact hs
    | false =>
      rw [invalidate_of_other hg held hs] at hw
      cases hw
  | none =>
    have hs : CoordinatorRevocation.matchesRoute ⟨route, t⟩ route = true :=
      CoordinatorRoute.isSameTarget_iff.2 ⟨rfl, rfl, rfl⟩
    revert hw hr
    unfold invalidate
    simp only [held, Option.filter_none]
    split
    · exact nofun
    · split_ifs
      · exact nofun
      · split
        · exact fun _ hr => absurd List.mem_cons_self hr
        · exact fun _ _ => ⟨_, rfl, hs, le_rfl⟩
    · split_ifs
      · exact nofun
      · exact fun _ _ => ⟨_, rfl, hs, le_rfl⟩
    · split_ifs
      · exact nofun
      · exact fun _ _ => ⟨_, rfl, hs, le_rfl⟩

/-- A discovery that cannot go on keeps the revocation for the next one, or loses the route. -/
theorem fail_outcome {i : CoordinatorInput} (hg : m.revocation = some r) (op : OperationId)
    (res : m.apply i = m.fail op epoch op') :
    Outcome r (event apply m i) := by
  unfold event
  rw [res]
  by_cases fenced : ∃ d, m.state.discovery = some d ∧ op = d.operationId ∧ epoch = d.targetEpoch
  · obtain ⟨d, act, rfl, rfl⟩ := fenced
    rw [fail_of_active _ act]
    split
    · exact .kept hg rfl le_rfl
    · rw [if_pos (by rw [hg]; rfl)]
      exact .lost rfl rfl
  · rw [fail_of_foreign _ fenced]
    exact .kept hg rfl le_rfl

/-- A route that is installed becomes current, unless it was withdrawn meanwhile. -/
theorem install_current (hk : d.followup ≠ some .revocation) (m : CoordinatorMachine)
    (rt : CoordinatorRoute) :
    (m.install d rt op').1.revocation = m.revocation ∧
      (m.install d rt op').1.current = some rt := by
  unfold install
  split
  · exact ⟨rfl, rfl⟩
  · rename_i reason hf
    cases reason with
    | revocation => exact absurd hf hk
    | refresh => split <;> exact ⟨rfl, rfl⟩

theorem succeed_outcome (hg : m.revocation = some r) (op : OperationId)
    (bid : BrokerId) (ep : BrokerEndpoint) (ev : EvidenceStamp) :
    Outcome r (event apply m (.discoverySucceeded op epoch bid ep ev op')) := by
  unfold event
  simp only [apply]
  unfold succeed
  split
  · rename_i d st
    split
    · exact .kept hg rfl le_rfl
    rename_i hf
    obtain ⟨rfl, rfl⟩ := not_or.1 hf |>.imp not_not.1 not_not.1
    simp only [hg]
    split
    · rename_i ok
      have ans : m.Answers (.discoverySucceeded d.operationId d.targetEpoch bid ep
          ev op') ⟨m.key, bid, ep, d.targetEpoch, ev⟩ := by
        refine ⟨d, op', st, rfl, fun r' hg' => ?_⟩
        obtain rfl := Option.some.inj (hg.symm.trans hg')
        exact ok
      split
      · exact .met rfl ⟨ans, rfl, rfl⟩ ok
      · rename_i hk
        obtain ⟨he, cur⟩ := install_current op' hk
          { m with revocation := none } ⟨m.key, bid, ep, d.targetEpoch, ev⟩
        exact .met he ⟨ans, cur, rfl⟩ ok
    · split
      · exact .lost rfl rfl
      · exact .kept hg rfl le_rfl
  · exact .kept hg rfl le_rfl

/-- What an input makes of a revocation. -/
theorem outcome_apply (gone : m.Withdrawn) (hg : m.revocation = some r)
    (i : CoordinatorInput) : Outcome r (event apply m i) := by
  cases i with
  | resolve op =>
    exact .kept ((m.resolve_revocation op).trans hg) rfl le_rfl
  | refresh op =>
    exact .kept ((m.refresh_revocation op).trans hg) rfl le_rfl
  | invalidate rt t op =>
    cases hs : r.matchesRoute rt with
    | true =>
      obtain ⟨r', hg', tgt, hr, -⟩ := invalidate_of_same hg hs t op
      exact .kept hg' tgt hr
    | false =>
      have hst := invalidate_of_other gone hg hs t op
      refine .kept ?_ rfl le_rfl
      simp only [event, apply, hst, hg]
  | withdraw rt op =>
    exact .kept ((m.withdraw_revocation op rt).trans hg) rfl le_rfl
  | discoverySucceeded op e bid ep ev op' =>
    exact succeed_outcome op' e hg op bid ep ev
  | discoveryFailed op e op' =>
    exact fail_outcome op' e hg op rfl
  | discoveryRejected op e now op' =>
    have hf : m.reject op e now op' = m.fail op e op' ∨
        (m.reject op e now op').1.revocation = m.revocation := by
      unfold reject
      split
      · split_ifs
        · exact .inr rfl
        · exact .inl rfl
        · split
          · exact .inl rfl
          · exact .inr rfl
      · exact .inr rfl
    rcases hf with hf | hs
    · exact fail_outcome op' e hg op hf
    · exact .kept (hs.trans hg) rfl le_rfl
  | retryElapsed op e now retry =>
    exact .kept ((m.retryElapsed_revocation op e now retry).trans hg)
      rfl le_rfl

/-- A failed discovery brings no revocation. -/
theorem fail_unrevoked (act : m.state.discovery = some d) (hf : m.revocation = none) :
    (m.fail d.operationId d.targetEpoch op').1.revocation = none := by
  rw [fail_of_active _ act]
  split
  · exact hf
  · rw [if_neg (by simp [hf])]
    exact hf

/-- A machine keeps its key. -/
theorem key_apply (hg : m.Withdrawn) (i : CoordinatorInput) : (m.apply i).1.key = m.key := by
  have step := apply_step hg i
  generalize m.apply i = result at step
  cases step <;> rfl

end CoordinatorMachine

end KafkaDriver
