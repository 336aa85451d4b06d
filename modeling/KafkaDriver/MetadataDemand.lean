import KafkaDriver.MetadataRevocation
import KafkaDriver.SingleFlight

/-!
# Metadata demand

Every input of a metadata machine demands a query or reports an outcome. The fetch in flight
and the queries behind it are a `SingleFlight` (`flight`), and each input is one of its steps
(`apply_flight`), as long as generations are left. So no demand is lost, doubled or overtaken,
whatever mix of successes, failures and rejected responses comes between (`demand_conserved`).
-/

namespace KafkaDriver

open List InvalidationTarget Runs MetadataMachine

/-! ## Demands and outcomes -/

/-- The query an input demands. -/
def MetadataInput.demand : MetadataInput → Option MetadataQuery
  | .resolve query _ | .refresh query _ => some query
  | .invalidateBrokerRoute route _ _ => some (controller route).query
  | .invalidatePartitionRoute route _ _ => some (partition route).query
  | .refreshSucceeded .. | .refreshFailed .. => none

/-- The query an effect fetches. -/
def MetadataEffect.query : MetadataEffect → Option MetadataQuery
  | .fetch _ _ query => some query
  | .generationExhausted => none

namespace MetadataMachine

variable (m : MetadataMachine) (e : MetadataEvent)

/-- The query in flight and those that wait. -/
def flight : SingleFlight MetadataQuery :=
  match m.state with
  | .refreshing _ _ query _ queued => ⟨some query, queued⟩
  | _ => ⟨none, []⟩

/-- An outcome reported under the operation, and for a success the generation, in flight. -/
def Completes : MetadataInput → Bool
  | .refreshSucceeded operationId snapshot _ =>
    m.awaiting.any fun target => operationId = target.1 ∧ snapshot.generation = target.2.1
  | .refreshFailed operationId _ => m.awaiting.any fun target => operationId = target.1
  | _ => false

/-- The demand a step took in : one answered applied or queued. -/
def admittedBy : Option MetadataQuery :=
  if e.answer.disposition = .applied ∨ e.answer.disposition = .queued then e.input.demand else none

/-- The query a step fetched. -/
def fetchedBy : Option MetadataQuery :=
  e.answer.effects.findSome? MetadataEffect.query

/-- The queries of all fetches of a run. -/
def fetchesOf (run : List MetadataEvent) : List MetadataQuery :=
  run.flatMap fun e => e.answer.effects.filterMap MetadataEffect.query

/-- The step sent the fetch that is now in flight, and it is of the query. -/
def Sends (query : MetadataQuery) : Prop :=
  ∃ operationId generation, e.answer.effects = [.fetch operationId generation query] ∧
    e.after.awaiting = some (operationId, generation, query)

def act : Act MetadataQuery :=
  ⟨admittedBy e, fetchedBy e, e.before.Completes e.input⟩

/-! ## One input -/

@[simp] theorem mapCurrent_flight (f : MetadataSnapshot → MetadataSnapshot) :
    (m.mapCurrent f).flight = m.flight := by
  unfold mapCurrent flight
  cases m.state <;> rfl

variable {m m' : MetadataMachine} {query : MetadataQuery} {operationId : OperationId}
  {res : MetadataMachine × MetadataTransition}

/-- The query demanded with the answer `t`, if it was taken in. -/
def taken (query : MetadataQuery) (t : MetadataTransition) : Option MetadataQuery :=
  if t.disposition = .applied ∨ t.disposition = .queued then some query else none

theorem Admission.flight (adm : Admission m query operationId res)
    (hr : .generationExhausted ∉ res.2.effects) :
    SingleFlight.Step m.queryLimits.pendingQueries.get m.flight
      ⟨taken query res.2, res.2.effects.findSome? MetadataEffect.query, false⟩
      res.1.flight := by
  cases adm with
  | coalesced | full => exact .keeps
  | queued st fresh space =>
    simp only [flight, st]
    exact .queues fresh space
  | started hi =>
    have none_active : m.flight = ⟨none, []⟩ := by
      rcases hi with st | ⟨_, st, -⟩ <;> simp [flight, st]
    rw [none_active]
    exact .starts
  | exhausted => exact absurd mem_cons_self hr

variable (target : InvalidationTarget) (t : OutcomeStamp) (fu : OperationId)
  (inputs : List MetadataInput)

theorem withdraw_flight (m : MetadataMachine) (op : OperationId)
    (hr : .generationExhausted ∉ (m.withdraw target t op).2.effects) :
    SingleFlight.Step m.queryLimits.pendingQueries.get m.flight
      ⟨taken target.query (m.withdraw target t op).2,
        (m.withdraw target t op).2.effects.findSome? MetadataEffect.query, false⟩
      (m.withdraw target t op).1.flight := by
  have adm := m.admitQuery_admission target.query op .mustFollowCurrent
  unfold withdraw refresh at hr ⊢
  generalize m.admitQuery target.query op .mustFollowCurrent = res at adm hr
  obtain ⟨m', tr⟩ := res
  dsimp only at hr ⊢
  split_ifs at hr ⊢
  · exact adm.flight hr
  · have step := adm.flight hr
    rwa [← mapCurrent_flight m' target.revoke] at step

theorem invalidateTarget_flight (m : MetadataMachine) (op : OperationId)
    (hr : .generationExhausted ∉ (m.invalidateTarget target t op).2.effects) :
    SingleFlight.Step m.queryLimits.pendingQueries.get m.flight
      ⟨taken target.query (m.invalidateTarget target t op).2,
        (m.invalidateTarget target t op).2.effects.findSome? MetadataEffect.query, false⟩
      (m.invalidateTarget target t op).1.flight := by
  rcases m.invalidateTarget_cases target t op with ans | ⟨-, -, ans⟩ | ans
  · rw [ans]
    exact .keeps
  · rw [ans]
    exact .keeps
  · rw [ans] at hr ⊢
    exact m.withdraw_flight target t op hr

/-- A failure under the operation in flight sends the first query that waits. -/
theorem fail_flight {gen : MetadataGeneration} (hg : m.awaiting = some (operationId, gen, query)) :
    SingleFlight.Step m.queryLimits.pendingQueries.get m.flight
      ⟨none, (m.fail operationId fu).2.effects.findSome? MetadataEffect.query, true⟩
      (m.fail operationId fu).1.flight := by
  obtain ⟨cur, queued, st⟩ := awaiting_eq_some.1 hg
  simp only [fail, flight, st, ne_eq, not_true_eq_false, if_false]
  cases queued with
  | nil => cases cur <;> exact .rests
  | cons next queued => exact .advances

variable {i : MetadataInput}

/-- An outcome of another operation or generation is ignored. -/
theorem apply_stale (out : i.demand = none) (ne : m.Completes i = false) :
    m.apply i = (m, .stale) := by
  cases state : m.state with
  | empty | ready =>
    cases i with
    | refreshSucceeded => simp [apply, succeed, state]
    | refreshFailed => simp [apply, fail, state]
    | _ => cases out
  | refreshing cur expected q target queued =>
    cases i with
    | refreshSucceeded op snap fu =>
      have hf : op ≠ expected ∨ snap.generation ≠ target := by
        by_contra same
        simp_all [Completes, awaiting]
      simp only [apply, succeed, state, if_pos hf]
    | refreshFailed op fu =>
      have hf : op ≠ expected := by
        simpa [Completes, awaiting, state] using ne
      simp only [apply, fail, state, if_pos hf]
    | _ => cases out

theorem succeed_flight {snap : MetadataSnapshot}
    (hg : m.awaiting = some (operationId, snap.generation, query))
    (hr : .generationExhausted ∉ (m.succeed operationId snap fu).2.effects) :
    SingleFlight.Step m.queryLimits.pendingQueries.get m.flight
      ⟨none, (m.succeed operationId snap fu).2.effects.findSome? MetadataEffect.query, true⟩
      (m.succeed operationId snap fu).1.flight := by
  obtain ⟨cur, queued, st⟩ := awaiting_eq_some.1 hg
  simp only [succeed, st, ne_eq, not_true_eq_false, or_self, if_false] at hr ⊢
  split_ifs at hr ⊢
  · exact fail_flight fu hg
  unfold install at hr ⊢
  cases queued with
  | nil =>
    simp only [flight, st]
    exact .rests
  | cons next queued =>
    dsimp only at hr ⊢
    split at hr
    · exact absurd mem_cons_self hr
    · rename_i gen hf
      simp only [flight, st]
      exact .advances

theorem act_of_outcome (out : i.demand = none) :
    act (event apply m i) =
      ⟨none, (m.apply i).2.effects.findSome? MetadataEffect.query, m.Completes i⟩ := by
  simp [act, admittedBy, fetchedBy, event, out]

/-- An outcome is of the fetch in flight, or ignored. -/
theorem outcome_flight (out : i.demand = none) (hr : .generationExhausted ∉ (m.apply i).2.effects) :
    SingleFlight.Step m.queryLimits.pendingQueries.get m.flight (act (event apply m i))
      (m.apply i).1.flight := by
  rw [act_of_outcome out]
  cases own : m.Completes i with
  | false =>
    rw [apply_stale out own]
    exact .keeps
  | true =>
    cases i with
    | refreshSucceeded op snap fu =>
      obtain ⟨⟨want, gen, q⟩, hg, hs⟩ := (Option.any_eq_true _ _).1 own
      obtain ⟨rfl, rfl⟩ : op = want ∧ snap.generation = gen := by
        simpa using hs
      exact succeed_flight fu hg hr
    | refreshFailed op fu =>
      obtain ⟨⟨want, gen, q⟩, hg, hs⟩ := (Option.any_eq_true _ _).1 own
      obtain rfl : op = want := by simpa using hs
      exact fail_flight fu hg
    | _ => cases out

/-- Every input is a step of the flight, as long as generations are left. -/
theorem apply_flight (m : MetadataMachine) (i : MetadataInput)
    (hr : .generationExhausted ∉ (m.apply i).2.effects) :
    SingleFlight.Step m.queryLimits.pendingQueries.get m.flight (act (event apply m i))
      (m.apply i).1.flight := by
  cases i with
  | resolve q op | refresh q op => exact (m.admitQuery_admission q op _).flight hr
  | invalidateBrokerRoute rt t op =>
    exact m.invalidateTarget_flight (.controller rt) t op hr
  | invalidatePartitionRoute rt t op =>
    exact m.invalidateTarget_flight (.partition rt) t op hr
  | refreshSucceeded | refreshFailed => exact outcome_flight rfl hr

theorem Admission.queryLimits_eq (adm : Admission m query operationId res) :
    res.1.queryLimits = m.queryLimits := by
  cases adm <;> rfl

theorem fail_queryLimits (m : MetadataMachine) (op : OperationId) :
    (m.fail op fu).1.queryLimits = m.queryLimits := by
  unfold fail
  split
  · split_ifs
    · rfl
    · split <;> rfl
  · rfl

theorem apply_queryLimits (m : MetadataMachine) (i : MetadataInput) :
    (m.apply i).1.queryLimits = m.queryLimits := by
  have hi : ∀ tgt t op, (m.invalidateTarget tgt t op).1.queryLimits = m.queryLimits := by
    intro tgt t op
    have inv := m.invalidateTarget_invalidation t op tgt
    generalize m.invalidateTarget tgt t op = res at inv
    cases inv with
    | ignored | refused | covered => rfl
    | withdrawn adm => exact adm.queryLimits_eq
  cases i with
  | resolve q op | refresh q op => exact (m.admitQuery_admission q op _).queryLimits_eq
  | invalidateBrokerRoute | invalidatePartitionRoute => exact hi _ _ _
  | refreshSucceeded op snap fu =>
    simp only [apply, succeed]
    split
    · split_ifs
      · rfl
      · exact m.fail_queryLimits fu op
      · unfold install
        split
        · rfl
        · split <;> rfl
    · rfl
  | refreshFailed op fu => exact m.fail_queryLimits fu op

/-! ## Runs -/

/-- Every run is a walk of the flight, as long as generations are left. -/
theorem walk_run (start : MetadataMachine)
    (hr : ∀ e ∈ trace apply start inputs, .generationExhausted ∉ e.answer.effects) :
    SingleFlight.Walk start.queryLimits.pendingQueries.get start.flight
      ((trace apply start inputs).map act) (final apply start inputs).flight := by
  have lim : ∀ inputs, (final apply start inputs).queryLimits = start.queryLimits :=
    final_invariant apply (I := fun m => m.queryLimits = start.queryLimits)
      (fun m i hs => (m.apply_queryLimits i).trans hs) rfl
  refine run_induction apply
    (P := fun _ run m => (∀ e ∈ run, .generationExhausted ∉ e.answer.effects) →
      SingleFlight.Walk start.queryLimits.pendingQueries.get start.flight (run.map act) m.flight)
    (fun _ => .nil) ?_ inputs hr
  intro pre i hw hr
  have step := apply_flight (final apply start pre) i (hr _ (mem_append_right _ mem_cons_self))
  rw [lim] at step
  rw [map_append]
  exact .concat (hw fun e mem => hr e (mem_append_left _ mem)) step

/-- A transition fetches one query at most. -/
theorem filterMap_query {effs : List MetadataEffect} (hl : Lone effs) :
    effs.filterMap MetadataEffect.query = (effs.findSome? MetadataEffect.query).toList := by
  rcases hl with rfl | ⟨op, gen, q, rfl⟩ | rfl <;> rfl

theorem fetchesOf_trace (start : MetadataMachine) :
    fetchesOf (trace apply start inputs) =
      ((trace apply start inputs).map act).filterMap Act.sent := by
  induction inputs generalizing start with
  | nil => rfl
  | cons i inputs ih =>
    have first := filterMap_query (start.apply_lone i)
    rw [trace, fetchesOf, flatMap_cons, ← fetchesOf, ih, map_cons]
    have own : (act (event apply start i)).sent =
        (start.apply i).2.effects.findSome? MetadataEffect.query := rfl
    rw [filterMap_cons, own, event, first]
    cases (start.apply i).2.effects.findSome? MetadataEffect.query <;> rfl

/-- The demand of a step is covered : its fetch was sent by the step, or its query waits. A
resolve is also met by the fetch of the query in flight. -/
def Covered (e : MetadataEvent) : Prop :=
  match e.input with
  | .resolve query _ =>
    e.answer.disposition = .applied ∨ e.answer.disposition = .queued ∨
      e.answer.disposition = .coalesced →
    Sends e query ∨ e.after.flight.active = some query ∨ query ∈ e.after.flight.queued
  | .refresh query _ =>
    e.answer.disposition = .applied ∨ e.answer.disposition = .queued ∨
      e.answer.disposition = .coalesced →
    Sends e query ∨ query ∈ e.after.flight.queued
  | .invalidateBrokerRoute .. | .invalidatePartitionRoute .. =>
    e.answer.disposition = .applied ∨ e.answer.disposition = .queued →
    ∀ query ∈ e.input.demand, Sends e query ∨ query ∈ e.after.flight.queued
  | .refreshSucceeded .. | .refreshFailed .. => True

/-- A completion sends the first query that waits, and while a fetch is in flight nothing else
sends one. -/
structure Paced (e : MetadataEvent) : Prop where
  advances : e.before.Completes e.input = true →
    e.answer.effects.filterMap MetadataEffect.query = e.before.flight.queued.head?.toList ∧
      e.after.flight.active = e.before.flight.queued.head? ∧
      e.after.flight.queued = e.before.flight.queued.tail
  waits : e.before.Completes e.input = false → e.before.flight.active ≠ none →
    e.answer.effects.filterMap MetadataEffect.query = [] ∧
      e.after.flight.active = e.before.flight.active

/-- What a run makes of the demands in it. -/
structure DemandLaw (start : MetadataMachine) (inputs : List MetadataInput) : Prop where
  distinct : (final apply start inputs).flight.queued.Nodup
  within : (final apply start inputs).flight.queued.length ≤
    start.queryLimits.pendingQueries.get
  single : (fetchesOf (trace apply start inputs)).length =
    ((trace apply start inputs).filter fun e => e.before.Completes e.input).length +
      (final apply start inputs).flight.active.toList.length
  covered : ∀ e ∈ trace apply start inputs, Covered e
  paced : ∀ e ∈ trace apply start inputs, Paced e
  ordered : ∀ before after, inputs = before ++ after →
    let m := final apply start before
    m.flight.queued ++ (trace apply m after).filterMap admittedBy =
      fetchesOf (trace apply m after) ++ (final apply start inputs).flight.queued

/-! ## Every demand is covered -/

/-- A demand that was taken in is fetched at once, or waits. -/
theorem Admission.taken_covered (adm : Admission m query operationId res)
    (hr : .generationExhausted ∉ res.2.effects)
    (ht : res.2.disposition = .applied ∨ res.2.disposition = .queued) :
    (∃ operationId gen, res.2.effects = [.fetch operationId gen query] ∧
      res.1.awaiting = some (operationId, gen, query)) ∨
    query ∈ res.1.flight.queued := by
  cases adm with
  | coalesced | full => exact ht.elim nofun nofun
  | queued => exact .inr (by simp [MetadataMachine.flight])
  | started => exact .inl ⟨_, _, rfl, rfl⟩
  | exhausted => exact absurd mem_cons_self hr

theorem resolve_coalesced (hc : (m.resolve query operationId).2.disposition = .coalesced) :
    (m.resolve query operationId).1.flight.active = some query ∨
      query ∈ (m.resolve query operationId).1.flight.queued := by
  have adm := m.admitQuery_admission query operationId .currentMaySatisfy
  rw [← resolve] at adm
  generalize m.resolve query operationId = res at adm hc
  cases adm with
  | coalesced p =>
    unfold outstanding at p
    split at p
    · rename_i st
      simpa [flight, st, eq_comm] using p
    · cases p
  | _ => cases hc

/-- A refresh is not met by the fetch in flight, only by one that waits. -/
theorem refresh_coalesced (hc : (m.refresh query operationId).2.disposition = .coalesced) :
    query ∈ (m.refresh query operationId).1.flight.queued := by
  unfold refresh admitQuery at hc ⊢
  cases state : m.state with
  | empty => simp [state, start, restart, MetadataTransition.fetch] at hc
  | ready snap =>
    simp only [state] at hc
    split at hc <;> cases hc
  | refreshing cur act activeQuery tgt queued =>
    simp only [state, reduceCtorEq, and_false, false_or] at hc ⊢
    split_ifs at hc ⊢ with hw
    · simpa [flight, state] using hw
    · cases hc
    · cases hc

variable (m operationId i)

theorem invalidateTarget_covered
    (hr : .generationExhausted ∉ (m.invalidateTarget target t operationId).2.effects)
    (ht : (m.invalidateTarget target t operationId).2.disposition = .applied ∨
      (m.invalidateTarget target t operationId).2.disposition = .queued) :
    (∃ op gen, (m.invalidateTarget target t operationId).2.effects = [.fetch op gen target.query] ∧
      (m.invalidateTarget target t operationId).1.awaiting = some (op, gen, target.query)) ∨
    target.query ∈ (m.invalidateTarget target t operationId).1.flight.queued := by
  have inv := m.invalidateTarget_invalidation t operationId target
  generalize m.invalidateTarget target t operationId = res at inv hr ht
  cases inv with
  | ignored | covered => exact ht.elim nofun nofun
  | refused hf => simp [hf] at ht
  | @withdrawn m' tr adm =>
    have hc := adm.taken_covered hr ht
    rw [← mapCurrent_awaiting m' target.revoke, ← mapCurrent_flight m' target.revoke] at hc
    exact hc

theorem apply_covered (hr : .generationExhausted ∉ (m.apply i).2.effects) :
    Covered (event apply m i) := by
  cases i with
  | resolve q op =>
    rintro (ha | hq | hc)
    · exact ((m.admitQuery_admission q op _).taken_covered hr (.inl ha)).imp_right .inr
    · exact ((m.admitQuery_admission q op _).taken_covered hr (.inr hq)).imp_right .inr
    · exact .inr (resolve_coalesced hc)
  | refresh q op =>
    rintro (ha | hq | hc)
    · exact (m.admitQuery_admission q op _).taken_covered hr (.inl ha)
    · exact (m.admitQuery_admission q op _).taken_covered hr (.inr hq)
    · exact .inr (refresh_coalesced hc)
  | invalidateBrokerRoute rt t op =>
    rintro ht q ⟨⟩
    exact m.invalidateTarget_covered op (.controller rt) t hr ht
  | invalidatePartitionRoute rt t op =>
    rintro ht q ⟨⟩
    exact m.invalidateTarget_covered op (.partition rt) t hr ht
  | refreshSucceeded | refreshFailed => trivial

theorem apply_paced (hr : .generationExhausted ∉ (m.apply i).2.effects) :
    Paced (event apply m i) := by
  have step := m.apply_flight i hr
  have hf := filterMap_query (m.apply_lone i)
  constructor
  · intro completes
    obtain ⟨hs, act, hq⟩ := step.of_completed completes
    exact ⟨hf.trans (congrArg Option.toList hs), act, hq⟩
  · intro hi hb
    obtain ⟨hs, act⟩ := step.of_active hi hb
    exact ⟨hf.trans (congrArg Option.toList hs), act⟩

/-! ## Every run -/

/-- In a run that does not use up its generations, no demand is lost, doubled or reordered. -/
theorem demand_conserved (initial : MetadataGeneration) (limits : MetadataQueryLimits)
    (inputs : List MetadataInput)
    (room : ∀ e ∈ trace apply (withQueryLimits initial limits) inputs,
      .generationExhausted ∉ e.answer.effects) :
    DemandLaw (withQueryLimits initial limits) inputs := by
  have hw := walk_run inputs (withQueryLimits initial limits) room
  have hb := SingleFlight.Bounded.walk
    (⟨nodup_nil, Nat.zero_le _⟩ : SingleFlight.Bounded _ (withQueryLimits initial limits).flight)
    hw
  refine ⟨hb.distinct, hb.within, ?_, ?_, ?_, ?_⟩
  · have hs := hw.single
    rw [← fetchesOf_trace, filter_map, length_map] at hs
    exact (Nat.zero_add _).symm.trans hs
  · intro e mem
    obtain ⟨pre, i, rfl⟩ := of_mem_trace apply mem
    exact apply_covered _ i (room _ mem)
  · intro e mem
    obtain ⟨pre, i, rfl⟩ := of_mem_trace apply mem
    exact apply_paced _ i (room _ mem)
  · rintro pre post rfl m
    have hc := (walk_run post m fun e mem => room e (by
      rw [trace_append]
      exact mem_append_right _ mem)).conserves
    rw [← fetchesOf_trace, filterMap_map, ← final_append] at hc
    exact hc

/-- A resolve, a refresh that waits behind it and a resolve that coalesces : two fetches, the
second sent by the failure of the first. -/
theorem demand_conserved_sole :
    let inputs : List MetadataInput :=
      [.resolve .cluster ⟨1⟩, .refresh .cluster ⟨2⟩, .resolve .cluster ⟨3⟩,
        .refreshFailed ⟨1⟩ ⟨4⟩, .refreshSucceeded ⟨4⟩ (soleSnapshot 1 1) ⟨5⟩]
    let start := withQueryLimits ⟨1⟩ ⟨⟨1, by decide, by decide⟩⟩
    fetchesOf (trace apply start inputs) = [.cluster, .cluster] ∧ DemandLaw start inputs :=
  ⟨by decide +kernel, demand_conserved ⟨1⟩ _ _ (by decide +kernel)⟩

end MetadataMachine

end KafkaDriver
