import KafkaDriver.MetadataSnapshot
import KafkaDriver.Runs

/-!
# The metadata machine

`MetadataMachine` decides when cluster metadata is fetched and which snapshot is current.
At most one fetch is in flight (`refreshing`); distinct further queries wait behind it in
first-demand order, up to a limit. A success is installed under the generation reserved
for it, a failure keeps the current snapshot, and either starts the next queued query.

A route observed to fail is invalidated : the machine withdraws it from the current
snapshot, remembers the observation (`MetadataRevocations`), and demands a fetch. Until a
fetch of the matching query brings evidence later than every such observation, every
snapshot is installed without the route. `InvalidationTarget` is the controller or a
partition leader, and `invalidateTarget` their common course.
-/

namespace KafkaDriver

open List

/-! ## Queries, inputs and effects -/

/-- The facts one fetch asks for. -/
inductive MetadataQuery where
  | cluster
  | topic (topic : TopicName)
  deriving DecidableEq

/-- How many queries may be queued. -/
structure MetadataQueryLimits where
  pendingQueries : NonZeroUsize

/-- What a machine is told. -/
inductive MetadataInput where
  | resolve (query : MetadataQuery) (operationId : OperationId)
  | refresh (query : MetadataQuery) (operationId : OperationId)
  | invalidateBrokerRoute (route : BrokerRoute) (observedAt : OutcomeStamp)
      (operationId : OperationId)
  | invalidatePartitionRoute (route : PartitionRoute) (observedAt : OutcomeStamp)
      (operationId : OperationId)
  | refreshSucceeded (operationId : OperationId) (snapshot : MetadataSnapshot)
      (followupOperationId : OperationId)
  | refreshFailed (operationId followupOperationId : OperationId)

/-- What a machine asks for. -/
inductive MetadataEffect where
  | fetch (operationId : OperationId) (generation : MetadataGeneration) (query : MetadataQuery)
  | generationExhausted
  deriving DecidableEq

/-- How an input was taken. -/
inductive MetadataDisposition where
  | applied
  | coalesced
  | queued
  | queryCapacityReached
  | rejectedLeaderEpochRegression
  | ignoredStale
  deriving DecidableEq

/-- The answer to one input. -/
structure MetadataTransition where
  effects : List MetadataEffect
  disposition : MetadataDisposition

namespace MetadataTransition

/-- Send a fetch. -/
def fetch (operationId : OperationId) (generation : MetadataGeneration) (query : MetadataQuery) :
    MetadataTransition :=
  ⟨[.fetch operationId generation query], .applied⟩

/-- Taken without effect. -/
def applied : MetadataTransition := ⟨[], .applied⟩

/-- Covered by work in flight. -/
def coalesced : MetadataTransition := ⟨[], .coalesced⟩

/-- Behind the fetch in flight. -/
def queryQueued : MetadataTransition := ⟨[], .queued⟩

/-- The queue is full. -/
def capacityReached : MetadataTransition := ⟨[], .queryCapacityReached⟩

/-- Too late to matter. -/
def stale : MetadataTransition := ⟨[], .ignoredStale⟩

/-- No generation is left. -/
def exhausted : MetadataTransition := ⟨[.generationExhausted], .applied⟩

end MetadataTransition

/-! ## Revocations -/

/-- A withdrawn controller and the latest observation of its failure. -/
structure ControllerRevocation where
  route : BrokerRoute
  requiredAfter : OutcomeStamp

/-- A withdrawn leader assignment and the latest observation of its failure. -/
structure PartitionRevocation where
  route : PartitionRoute
  requiredAfter : OutcomeStamp
  deriving DecidableEq

namespace PartitionRevocation

/-- Raise the watermark. -/
def observe (r : PartitionRevocation) (observedAt : OutcomeStamp) : PartitionRevocation :=
  { r with requiredAfter := max r.requiredAfter observedAt }

/-- A fetch of the topic brought evidence later than the failure. -/
def satisfied (r : PartitionRevocation) (query : MetadataQuery) (evidence : EvidenceStamp) : Bool :=
  query = .topic r.route.topic ∧ evidence.isAfter r.requiredAfter

end PartitionRevocation

/-- The routes withdrawn until newer evidence, each assignment once. -/
structure MetadataRevocations where
  controller : Option ControllerRevocation
  partitions : List PartitionRevocation
  distinct : partitions.Pairwise fun a b => ¬ a.route.isSameAssignment b.route

namespace MetadataRevocations

/-- Nothing is withdrawn. -/
def new : MetadataRevocations := ⟨none, [], .nil⟩

variable (r : MetadataRevocations) (route : BrokerRoute) (snapshot : MetadataSnapshot)
  (query : MetadataQuery)

/-- Whether the controller is withdrawn. -/
def controllerPending : Bool :=
  r.controller.any fun revocation => revocation.route.isSameBroker route

/-- Whether a report raises its watermark. -/
def controllerRequires (observedAt : OutcomeStamp) : Bool :=
  r.controller.any fun revocation =>
    revocation.route.isSameBroker route ∧ revocation.requiredAfter < observedAt

/-- Whether a partition is withdrawn. -/
def partitionPending (route : PartitionRoute) : Bool :=
  r.partitions.any fun revocation => revocation.route.isSameAssignment route

/-- Whether a report raises its watermark. -/
def partitionRequires (route : PartitionRoute) (observedAt : OutcomeStamp) : Bool :=
  r.partitions.any fun revocation =>
    revocation.route.isSameAssignment route ∧ revocation.requiredAfter < observedAt

/-- Note a failure of the controller. -/
def revokeController (requiredAfter : OutcomeStamp) : MetadataRevocations :=
  { r with
    controller :=
      match r.controller with
      | some revocation =>
        if revocation.route.isSameBroker route then
          some { revocation with requiredAfter := max revocation.requiredAfter requiredAfter }
        else some ⟨route, requiredAfter⟩
      | none => some ⟨route, requiredAfter⟩ }

/-- Raise the watermark of the assignment. At most one entry is of it. -/
def observe (r : MetadataRevocations) (route : PartitionRoute) (requiredAfter : OutcomeStamp) :
    List PartitionRevocation :=
  r.partitions.map fun revocation =>
    if revocation.route.isSameAssignment route then revocation.observe requiredAfter
    else revocation

theorem observe_distinct (rt : PartitionRoute) (requiredAfter : OutcomeStamp) :
    (r.observe rt requiredAfter).Pairwise fun a b => ¬ a.route.isSameAssignment b.route := by
  have hk : ∀ rev : PartitionRevocation,
      (if rev.route.isSameAssignment rt then rev.observe requiredAfter
        else rev).route = rev.route := by
    intro rev
    split_ifs <;> rfl
  refine pairwise_map.2 (r.distinct.imp fun {a b} ha => ?_)
  rwa [hk, hk]

/-- Note a failure of a partition leader. -/
def revokePartition (route : PartitionRoute) (requiredAfter : OutcomeStamp) : MetadataRevocations :=
  if absent : r.partitionPending route = false then
    { r with
      partitions := r.partitions ++ [⟨route, requiredAfter⟩]
      distinct := by
        refine pairwise_append.2 ⟨r.distinct, pairwise_singleton _ _, ?_⟩
        intro a mem b only
        rw [mem_singleton.1 only]
        simpa using any_eq_false.1 absent a mem }
  else
    { r with
      partitions := r.observe route requiredAfter
      distinct := r.observe_distinct route requiredAfter }

/-- The controller's revocation after a fetch, and the snapshot without a controller still
withdrawn. -/
def applyController : Option ControllerRevocation × MetadataSnapshot :=
  match r.controller with
  | none => (none, snapshot)
  | some revocation =>
    if query = .cluster ∧ snapshot.brokers.evidence.isAfter revocation.requiredAfter then
      (none, snapshot)
    else (some revocation, snapshot.revokeController)

/-- The partition revocations a fetch does not satisfy. -/
def held (evidence : EvidenceStamp) : List PartitionRevocation :=
  r.partitions.filter fun revocation => !revocation.satisfied query evidence

/-- Take the routes of `held` out of the snapshot. -/
def withdrawAll (held : List PartitionRevocation) : MetadataSnapshot :=
  held.foldl
    (fun snapshot revocation =>
      snapshot.revokePartition revocation.route.topic revocation.route.partition)
    snapshot

/-- Drop the revocations a fetch satisfies and withdraw the others from its snapshot. -/
def apply : MetadataRevocations × MetadataSnapshot :=
  ({ controller := (r.applyController snapshot query).1
     partitions := r.held query snapshot.brokers.evidence
     distinct := r.distinct.sublist filter_sublist },
    withdrawAll (r.applyController snapshot query).2 (r.held query snapshot.brokers.evidence))

section Withdrawal

variable (snapshot : MetadataSnapshot) (held : List PartitionRevocation)

@[simp] theorem withdrawAll_brokers : (withdrawAll snapshot held).brokers = snapshot.brokers := by
  unfold withdrawAll
  induction held generalizing snapshot with
  | nil => rfl
  | cons rev held ih => exact ih _

@[simp] theorem withdrawAll_topicCounts :
    (withdrawAll snapshot held).topicCounts = snapshot.topicCounts := by
  unfold withdrawAll
  induction held generalizing snapshot with
  | nil => rfl
  | cons rev held ih => exact ih _

@[simp] theorem withdrawAll_controllerRoute :
    (withdrawAll snapshot held).controllerRoute = snapshot.controllerRoute := by
  unfold withdrawAll
  induction held generalizing snapshot with
  | nil => rfl
  | cons rev held ih => exact ih _

/-- The withdrawn partitions have no leader, the others the one they had. -/
theorem find_withdrawAll (topic : TopicName) (partition : PartitionId) :
    (withdrawAll snapshot held).leaders.find topic partition =
      if ∃ rev ∈ held, rev.route.topic = topic ∧ rev.route.partition = partition then none
      else snapshot.leaders.find topic partition := by
  unfold withdrawAll
  induction held generalizing snapshot with
  | nil => simp
  | cons rev held ih =>
    rw [foldl_cons, ih, MetadataSnapshot.revokePartition_leaders, PartitionLeaderSet.find_remove]
    have own : (topic = rev.route.topic ∧ partition = rev.route.partition) ↔
        rev.route.topic = topic ∧ rev.route.partition = partition :=
      and_congr eq_comm eq_comm
    simp only [mem_cons, exists_eq_or_imp, own]
    by_cases later : ∃ rev ∈ held, rev.route.topic = topic ∧ rev.route.partition = partition
    · rw [if_pos later, if_pos (.inr later)]
    · simp only [later, or_false, if_false]

end Withdrawal

end MetadataRevocations

/-! ## What an invalidation is about -/

/-- The route an invalidation withdraws. -/
inductive InvalidationTarget where
  | controller (route : BrokerRoute)
  | partition (route : PartitionRoute)
  deriving DecidableEq

namespace InvalidationTarget

variable (t : InvalidationTarget) (r : MetadataRevocations) (observedAt : OutcomeStamp)

/-- Whether the target is this controller. -/
def matchesController (route : BrokerRoute) : Bool :=
  match t with
  | .controller current => current.isSameBroker route
  | .partition _ => false

/-- Whether the target is this partition. -/
def matchesPartition (route : PartitionRoute) : Bool :=
  match t with
  | .controller _ => false
  | .partition current => current.isSameAssignment route

/-- The fetch that can bring newer evidence. -/
def query : InvalidationTarget → MetadataQuery
  | .controller _ => .cluster
  | .partition route => .topic route.topic

/-- Whether the target is withdrawn. -/
def isPending : Bool :=
  match t with
  | .controller route => r.controllerPending route
  | .partition route => r.partitionPending route

/-- Whether a report is news of it. -/
def requires : Bool :=
  match t with
  | .controller route => r.controllerRequires route observedAt
  | .partition route => r.partitionRequires route observedAt

/-- Note a failure of the target. -/
def record : MetadataRevocations :=
  match t with
  | .controller route => r.revokeController route observedAt
  | .partition route => r.revokePartition route observedAt

/-- Take its route out of a snapshot. -/
def revoke (s : MetadataSnapshot) : MetadataSnapshot :=
  match t with
  | .controller _ => s.revokeController
  | .partition route => s.revokePartition route.topic route.partition

/-- The evidence of the route in a snapshot that still has it. -/
def currentEvidence (s : MetadataSnapshot) : Option EvidenceStamp :=
  match t with
  | .controller route =>
    (s.controllerRoute.filter fun current => current.isSameBroker route).map (·.evidence)
  | .partition route =>
    ((s.partitionRoute route.topic route.partition).filter fun current =>
      current.isSameAssignment route).map (·.evidence)

end InvalidationTarget

/-! ## The machine -/

/-- The fetch in flight, with the queue behind it. -/
inductive MetadataState where
  | empty (nextGeneration : MetadataGeneration)
  | refreshing (current : Option MetadataSnapshot) (operationId : OperationId)
      (query : MetadataQuery) (targetGeneration : MetadataGeneration)
      (queued : List MetadataQuery)
  | ready (snapshot : MetadataSnapshot)

/-- The state of metadata of one cluster. -/
structure MetadataMachine where
  state : MetadataState
  queryLimits : MetadataQueryLimits
  revocations : MetadataRevocations

/-- What identifies a fetch to the machine. -/
abbrev FetchTarget := OperationId × MetadataGeneration × MetadataQuery

/-- Whether a demand may be met by the fetch in flight. -/
inductive QueryRecency where
  | currentMaySatisfy
  | mustFollowCurrent
  deriving DecidableEq

namespace MetadataMachine

/-- A machine without a snapshot. -/
def withQueryLimits (initialGeneration : MetadataGeneration) (queryLimits : MetadataQueryLimits) :
    MetadataMachine :=
  ⟨.empty initialGeneration, queryLimits, .new⟩

/-- The last coherent snapshot, also while a fetch is in flight. -/
def current (m : MetadataMachine) : Option MetadataSnapshot :=
  match m.state with
  | .empty _ => none
  | .refreshing current _ _ _ _ => current
  | .ready snapshot => some snapshot

section

variable (m : MetadataMachine) (query : MetadataQuery) (route : BrokerRoute)
  (target : InvalidationTarget) (observedAt : OutcomeStamp) (operationId : OperationId)

/-- The query in flight and those behind it. -/
def outstanding : List MetadataQuery :=
  match m.state with
  | .refreshing _ _ query _ queued => query :: queued
  | _ => []

/-- The refresh in flight. -/
def awaiting : Option FetchTarget :=
  match m.state with
  | .refreshing _ operationId query targetGeneration _ =>
    some (operationId, targetGeneration, query)
  | _ => none

/-- Whether the query is in flight or queued. -/
def queryPending : Bool := query ∈ m.outstanding

/-- Whether the controller route is withdrawn. -/
def controllerRevocationPending : Bool :=
  m.revocations.controllerPending route

/-- Whether the partition route is withdrawn. -/
def partitionRevocationPending (route : PartitionRoute) : Bool :=
  m.revocations.partitionPending route

/-- Change the current snapshot in place. -/
def mapCurrent (f : MetadataSnapshot → MetadataSnapshot) : MetadataMachine :=
  { m with
    state :=
      match m.state with
      | .empty nextGeneration => .empty nextGeneration
      | .refreshing current operationId query targetGeneration queued =>
        .refreshing (current.map f) operationId query targetGeneration queued
      | .ready snapshot => .ready (f snapshot) }

/-- Fetch `query` with `queued` behind it. -/
def restart (m : MetadataMachine) (current : Option MetadataSnapshot) (operationId : OperationId)
    (targetGeneration : MetadataGeneration) (query : MetadataQuery)
    (queued : List MetadataQuery) : MetadataMachine × MetadataTransition :=
  ({ m with state := .refreshing current operationId query targetGeneration queued },
    .fetch operationId targetGeneration query)

/-- Fetch `query` with nothing behind it. -/
def start (m : MetadataMachine) (current : Option MetadataSnapshot) (operationId : OperationId)
    (targetGeneration : MetadataGeneration) (query : MetadataQuery) :
    MetadataMachine × MetadataTransition :=
  m.restart current operationId targetGeneration query []

/-- Meet a demand by a fetch in flight or queued, or by a new one. -/
def admitQuery (recency : QueryRecency) : MetadataMachine × MetadataTransition :=
  match m.state with
  | .refreshing current active activeQuery targetGeneration queued =>
    if (activeQuery = query ∧ recency = .currentMaySatisfy) ∨ query ∈ queued then
      (m, .coalesced)
    else if m.queryLimits.pendingQueries.get ≤ queued.length then (m, .capacityReached)
    else
      ({ m with
          state := .refreshing current active activeQuery targetGeneration (queued ++ [query]) },
        .queryQueued)
  | .empty nextGeneration => m.start none operationId nextGeneration query
  | .ready snapshot =>
    match snapshot.generation.next with
    | none => (m, .exhausted)
    | some next => m.start (some snapshot) operationId next query

/-- Ask, unless the current snapshot will do. -/
def resolve : MetadataMachine × MetadataTransition :=
  m.admitQuery query operationId .currentMaySatisfy

/-- Ask for evidence later than the fetch in flight. -/
def refresh : MetadataMachine × MetadataTransition :=
  m.admitQuery query operationId .mustFollowCurrent

/-- Demand a fetch and withdraw the route, unless the demand was refused. -/
def withdraw : MetadataMachine × MetadataTransition :=
  match m.refresh target.query operationId with
  | (m, transition) =>
    if transition.disposition = .queryCapacityReached then (m, transition)
    else
      ({ m.mapCurrent target.revoke with
          revocations := target.record m.revocations observedAt },
        transition)

/-- Withdraw a current route not refreshed since, or raise the watermark of a withdrawn
one. -/
def invalidateTarget : MetadataMachine × MetadataTransition :=
  if target.isPending m.revocations then
    if target.requires m.revocations observedAt then m.withdraw target observedAt operationId
    else (m, .coalesced)
  else
    match m.current.bind target.currentEvidence with
    | none => (m, .stale)
    | some evidence =>
      if evidence.isAfter observedAt then (m, .stale)
      else m.withdraw target observedAt operationId

/-- A failure of the controller. -/
def invalidate : MetadataMachine × MetadataTransition :=
  m.invalidateTarget (.controller route) observedAt operationId

/-- A failure of a partition leader. -/
def invalidatePartition (m : MetadataMachine) (route : PartitionRoute)
    (observedAt : OutcomeStamp) (operationId : OperationId) :
    MetadataMachine × MetadataTransition :=
  m.invalidateTarget (.partition route) observedAt operationId

variable (snapshot : MetadataSnapshot) (followupOperationId : OperationId)

/-- Keep the current snapshot and go on with the next query. -/
def fail : MetadataMachine × MetadataTransition :=
  match m.state with
  | .refreshing current expected _ targetGeneration queued =>
    if operationId ≠ expected then (m, .stale)
    else
      match queued with
      | [] =>
        ({ m with
            state :=
              match current with
              | some snapshot => .ready snapshot
              | none => .empty targetGeneration },
          .applied)
      | next :: queued => m.restart current followupOperationId targetGeneration next queued
  | _ => (m, .stale)

/-- A topic fetch whose leaders regress from those of the current snapshot. -/
def regresses (current : Option MetadataSnapshot) : Bool :=
  match query with
  | .cluster => false
  | .topic _ => current.any fun previous => snapshot.leaders.regressesFrom previous.leaders

/-- Install a snapshot and go on with the next query. -/
def install (snapshot : MetadataSnapshot) (queued : List MetadataQuery)
    (followupOperationId : OperationId) : MetadataMachine × MetadataTransition :=
  match queued with
  | [] => ({ m with state := .ready snapshot }, .applied)
  | next :: queued =>
    match snapshot.generation.next with
    | none => ({ m with state := .ready snapshot }, .exhausted)
    | some generation => m.restart (some snapshot) followupOperationId generation next queued

/-- The fetch brought a snapshot. -/
def succeed : MetadataMachine × MetadataTransition :=
  match m.state with
  | .refreshing current expected query targetGeneration queued =>
    if operationId ≠ expected ∨ snapshot.generation ≠ targetGeneration then (m, .stale)
    else if regresses query snapshot current then
      match m.fail operationId followupOperationId with
      | (m, failed) => (m, ⟨failed.effects, .rejectedLeaderEpochRegression⟩)
    else
      { m with revocations := (m.revocations.apply snapshot query).1 }.install
        (m.revocations.apply snapshot query).2 queued followupOperationId
  | _ => (m, .stale)

/-- Handle one input. -/
def apply : MetadataInput → MetadataMachine × MetadataTransition
  | .resolve query operationId => m.resolve query operationId
  | .refresh query operationId => m.refresh query operationId
  | .invalidateBrokerRoute route observedAt operationId =>
    m.invalidate route observedAt operationId
  | .invalidatePartitionRoute route observedAt operationId =>
    m.invalidatePartition route observedAt operationId
  | .refreshSucceeded operationId snapshot followupOperationId =>
    m.succeed operationId snapshot followupOperationId
  | .refreshFailed operationId followupOperationId => m.fail operationId followupOperationId

end

/-! ## What a demand does -/

variable {operationId : OperationId}

variable (m : MetadataMachine) (f : MetadataSnapshot → MetadataSnapshot)

@[simp] theorem mapCurrent_current : (m.mapCurrent f).current = m.current.map f := by
  unfold mapCurrent current
  cases m.state <;> rfl

@[simp] theorem mapCurrent_outstanding : (m.mapCurrent f).outstanding = m.outstanding := by
  unfold mapCurrent outstanding
  cases m.state <;> rfl

@[simp] theorem mapCurrent_awaiting : (m.mapCurrent f).awaiting = m.awaiting := by
  unfold mapCurrent awaiting
  cases m.state <;> rfl

theorem awaiting_eq_some {m : MetadataMachine} {gen : MetadataGeneration} {q : MetadataQuery} :
    m.awaiting = some (operationId, gen, q) ↔
      ∃ cur queued, m.state = .refreshing cur operationId q gen queued := by
  unfold awaiting
  cases m.state <;> simp [and_comm]

/-- The ways a demand for `query` is met. -/
inductive Admission (m : MetadataMachine) (query : MetadataQuery) (operationId : OperationId) :
    MetadataMachine × MetadataTransition → Prop
  | coalesced (pending : query ∈ m.outstanding) : Admission m query operationId (m, .coalesced)
  | full (busy : m.outstanding ≠ []) : Admission m query operationId (m, .capacityReached)
  | queued {current : Option MetadataSnapshot} {active : OperationId} {activeQuery : MetadataQuery}
      {targetGeneration : MetadataGeneration} {queued : List MetadataQuery}
      (state : m.state = .refreshing current active activeQuery targetGeneration queued)
      (fresh : query ∉ queued) (room : queued.length < m.queryLimits.pendingQueries.get) :
      Admission m query operationId
        ({ m with
            state := .refreshing current active activeQuery targetGeneration (queued ++ [query]) },
          .queryQueued)
  | started {generation : MetadataGeneration}
      (idle : m.state = .empty generation ∨
        ∃ snapshot, m.state = .ready snapshot ∧ snapshot.generation.next = some generation) :
      Admission m query operationId (m.start m.current operationId generation query)
  | exhausted {snapshot : MetadataSnapshot} (idle : m.state = .ready snapshot)
      (last : snapshot.generation.next = none) : Admission m query operationId (m, .exhausted)

theorem admitQuery_admission (q : MetadataQuery) (op : OperationId) (recency : QueryRecency) :
    Admission m q op (m.admitQuery q op recency) := by
  unfold admitQuery
  split
  · rename_i st
    split_ifs with met hf
    · refine .coalesced ?_
      simp only [outstanding, st]
      rcases met with ⟨rfl, -⟩ | hq
      · exact mem_cons_self
      · exact mem_cons_of_mem _ hq
    · exact .full (by simp [outstanding, st])
    · exact .queued st (fun mem => met (.inr mem)) (Nat.lt_of_not_le hf)
  · rename_i st
    have start : Admission m q op (m.start m.current op _ q) :=
      .started (.inl st)
    simpa only [current, st] using start
  · rename_i snap st
    split
    · exact .exhausted st ‹_›
    · rename_i next
      have start : Admission m q op (m.start m.current op _ q) :=
        .started (.inr ⟨snap, st, next⟩)
      simpa only [current, st] using start

namespace Admission

variable {m : MetadataMachine} {query : MetadataQuery} {operationId : OperationId}
  {res : MetadataMachine × MetadataTransition}

theorem current_eq (adm : Admission m query operationId res) : res.1.current = m.current := by
  cases adm with
  | queued st => simp [current, st]
  | _ => rfl

theorem revocations_eq (adm : Admission m query operationId res) :
    res.1.revocations = m.revocations := by
  cases adm <;> rfl

/-- A demand refused for want of room changes nothing. -/
theorem eq_of_full (adm : Admission m query operationId res)
    (hf : res.2.disposition = .queryCapacityReached) : res.1 = m := by
  cases adm with
  | full => rfl
  | _ => cases hf

theorem effects_of_full (adm : Admission m query operationId res)
    (hf : res.2.disposition = .queryCapacityReached) : res.2.effects = [] := by
  cases adm with
  | full => rfl
  | _ => cases hf

theorem effects_of_coalesced (adm : Admission m query operationId res)
    (hc : res.2.disposition = .coalesced) : res.2.effects = [] := by
  cases adm with
  | coalesced => rfl
  | _ => cases hc

theorem not_stale (adm : Admission m query operationId res) :
    res.2.disposition ≠ .ignoredStale := by
  cases adm <;> nofun

/-- A demand neither refused nor stopped by exhaustion is outstanding. -/
theorem mem_outstanding (adm : Admission m query operationId res)
    (met : res.2.disposition ≠ .queryCapacityReached)
    (hr : .generationExhausted ∉ res.2.effects) : query ∈ res.1.outstanding := by
  cases adm with
  | coalesced p => exact p
  | full => exact absurd rfl met
  | queued => simp [outstanding]
  | started => simp [start, restart, outstanding]
  | exhausted => exact absurd mem_cons_self hr

/-- What was outstanding before a demand is so after it. -/
theorem outstanding_subset (adm : Admission m query operationId res) :
    m.outstanding ⊆ res.1.outstanding := by
  cases adm with
  | queued st => simp [outstanding, st]
  | started hi =>
    rcases hi with st | ⟨_, st, -⟩ <;> simp [outstanding, st]
  | _ => exact fun _ => id

end Admission

/-- A report is stale, or repeats one, or withdraws the route. -/
theorem invalidateTarget_cases (m : MetadataMachine) (tgt : InvalidationTarget)
    (seen : OutcomeStamp) (op : OperationId) :
    m.invalidateTarget tgt seen op = (m, .stale) ∨
    tgt.isPending m.revocations = true ∧ tgt.requires m.revocations seen = false ∧
      m.invalidateTarget tgt seen op = (m, .coalesced) ∨
    m.invalidateTarget tgt seen op = m.withdraw tgt seen op := by
  unfold invalidateTarget
  split_ifs with p hl
  · exact .inr (.inr rfl)
  · exact .inr (.inl ⟨p, Bool.eq_false_of_not_eq_true hl, rfl⟩)
  split
  · exact .inl rfl
  · split_ifs
    · exact .inl rfl
    · exact .inr (.inr rfl)

/-! ## Effects -/

/-- A transition has one effect at most. -/
def Lone (effects : List MetadataEffect) : Prop :=
  effects = [] ∨ (∃ operationId generation query, effects = [.fetch operationId generation query]) ∨
    effects = [.generationExhausted]

theorem Admission.lone {m : MetadataMachine} {q : MetadataQuery}
    {res : MetadataMachine × MetadataTransition}
    (adm : Admission m q operationId res) : Lone res.2.effects := by
  cases adm with
  | started => exact .inr (.inl ⟨_, _, _, rfl⟩)
  | exhausted => exact .inr (.inr rfl)
  | _ => exact .inl rfl

variable (operationId)

theorem invalidateTarget_lone (tgt : InvalidationTarget) (seen : OutcomeStamp) :
    Lone (m.invalidateTarget tgt seen operationId).2.effects := by
  have hg : Lone (m.withdraw tgt seen operationId).2.effects := by
    have hl := (m.admitQuery_admission tgt.query operationId .mustFollowCurrent).lone
    unfold withdraw
    split
    rename_i met
    rw [← refresh, met] at hl
    split_ifs
    · exact hl
    · exact hl
  rcases m.invalidateTarget_cases tgt seen operationId with ans | ⟨-, -, ans⟩ | ans
  · rw [ans]
    exact .inl rfl
  · rw [ans]
    exact .inl rfl
  · rw [ans]
    exact hg

theorem fail_lone (next : OperationId) : Lone (m.fail operationId next).2.effects := by
  unfold fail
  split
  · split_ifs
    · exact .inl rfl
    · split
      · exact .inl rfl
      · exact .inr (.inl ⟨_, _, _, rfl⟩)
  · exact .inl rfl

theorem succeed_lone (snap : MetadataSnapshot) (next : OperationId) :
    Lone (m.succeed operationId snap next).2.effects := by
  unfold succeed
  split
  · split_ifs
    · exact .inl rfl
    · exact m.fail_lone operationId next
    unfold install
    split
    · exact .inl rfl
    · split
      · exact .inr (.inr rfl)
      · exact .inr (.inl ⟨_, _, _, rfl⟩)
  · exact .inl rfl

theorem apply_lone (m : MetadataMachine) (i : MetadataInput) : Lone (m.apply i).2.effects := by
  cases i with
  | resolve q op | refresh q op => exact (m.admitQuery_admission q op _).lone
  | invalidateBrokerRoute rt seen op | invalidatePartitionRoute rt seen op =>
    exact m.invalidateTarget_lone _ _ _
  | refreshSucceeded op snap fu => exact m.succeed_lone _ _ _
  | refreshFailed op fu => exact m.fail_lone _ _

end MetadataMachine

end KafkaDriver
