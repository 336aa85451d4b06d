import KafkaDriver.MetadataResponse
import KafkaDriver.MetadataWaiters

/-!
# The metadata owner

`MetadataOwner` runs the metadata machine over a broker connection. It sends the fetches the
machine asks for, one at a time (`pending`, or `requested` while the broker is not ready),
turns a reply into the machine's next input, and keeps the waiters. New evidence begins a scan
of all waiters; the `drain` operations carry scans out within their budgets.

An operation may fail, and what it did until then stays. It runs over an `OwnerTurn`, which
also lists what waiters were told and which inputs the machine got. What the owner asks of its
surroundings is an argument : the broker (`RpcTurn`), the fate of the pending call
(`CallResult`), the time, and the evidence stamp. A transition has at most one fetch, so one
`RpcTurn` serves an operation; `drive` has one for each of its steps.

The host calls `processTopicView` with the owner's fields at hand, so it is part of the model.
-/

namespace KafkaDriver

open Fallible

/-! ## The owner -/

/-- A fetch to be sent, or sent and not answered. -/
structure MetadataFetch where
  operationId : OperationId
  generation : MetadataGeneration
  evidence : EvidenceStamp
  query : MetadataQuery

structure ControllerWaitingLimits where
  calls : NonZeroUsize
  bytes : NonZeroUsize
  admissionBudget : NonZeroUsize

/-- The limits of the owner. -/
structure MetadataLimits where
  brokerDirectory : NonZeroUsize
  partitionLeaders : PartitionLeaderLimits
  queries : MetadataQueryLimits
  partitionWaitingCalls : NonZeroUsize
  partitionWaitingBytes : NonZeroUsize
  partitionAdmissionBudget : NonZeroUsize
  invalidationWaiters : NonZeroUsize
  controllerWaiting : ControllerWaitingLimits
  topicViewWaiters : NonZeroUsize
  topicViewBytes : NonZeroUsize
  topicViewAdmissionBudget : NonZeroUsize

/-- Identities of refreshes, drawn in order. -/
structure MetadataOperationIds where
  next : Option ℕ

namespace MetadataOperationIds

def new : MetadataOperationIds := ⟨some 1⟩

def reserve (ids : MetadataOperationIds) : Option (OperationId × MetadataOperationIds) :=
  ids.next.map fun current => (⟨current⟩, ⟨checkedSucc current⟩)

end MetadataOperationIds

/-- The machine, its fetches and its waiters. -/
structure MetadataOwner where
  machine : MetadataMachine
  limits : MetadataLimits
  operationIds : MetadataOperationIds
  pending : Option MetadataFetch
  requested : Option MetadataFetch
  waiters : PartitionWaiters
  controllerWaiters : ControllerWaiters
  topicViews : TopicViewWaiters
  invalidations : MetadataInvalidations
  initialRefresh : Bool

namespace MetadataOwner

def new (limits : MetadataLimits) : MetadataOwner where
  machine := .withQueryLimits ⟨1⟩ limits.queries
  limits := limits
  operationIds := .new
  pending := none
  requested := none
  waiters := .new limits.partitionWaitingCalls limits.partitionWaitingBytes
  controllerWaiters := .new limits.controllerWaiting.calls limits.controllerWaiting.bytes
  topicViews := .new limits.topicViewWaiters limits.topicViewBytes
  invalidations := .new limits.invalidationWaiters
  initialRefresh := true

end MetadataOwner

/-- What ends the owner. -/
inductive MetadataOwnerError where
  | callIdentityExhausted
  | operationIdentityExhausted
  | generationExhausted
  | unexpectedEffect
  | broker

/-- An owner in the middle of an operation, with what the operation told waiters and what it
gave to the machine. -/
structure OwnerTurn where
  owner : MetadataOwner
  fates : List MetadataFate
  inputs : List MetadataInput

abbrev OwnerM := EStateM MetadataOwnerError OwnerTurn

/-- The broker's side of one step : whether it is ready, a call identity is left, and it
accepts the request. -/
structure RpcTurn where
  ready : Bool
  callId : Bool
  accepted : Bool

/-- What became of the pending call. -/
inductive CallResult where
  | pending
  | responded (response : MetadataResponse)
  | failed

namespace OwnerTurn

/-- Change the owner. -/
def withOwner (f : MetadataOwner → MetadataOwner) (t : OwnerTurn) : OwnerTurn :=
  { t with owner := f t.owner }

end OwnerTurn

namespace MetadataOwner

/-! ## Fetches -/

def reserveOperation : OwnerM OperationId := do
  let t ← get
  match t.owner.operationIds.reserve with
  | none => throw .operationIdentityExhausted
  | some (id, operationIds) => do
    set (t.withOwner fun o => { o with operationIds })
    pure id

/-- Give the machine an input. -/
def applyMachine (input : MetadataInput) : OwnerM MetadataTransition :=
  modifyGet fun t =>
    ((t.owner.machine.apply input).2,
      { t with
        owner := { t.owner with machine := (t.owner.machine.apply input).1 }
        inputs := t.inputs ++ [input] })

/-- Tell waiters. -/
def tell (fates : List MetadataFate) : OwnerM Unit :=
  modify fun t => { t with fates := t.fates ++ fates }

/-- Send a fetch. -/
def submit (fetch : MetadataFetch) (rpc : RpcTurn) : OwnerM Unit := do
  let t ← get
  if t.owner.pending.isSome then throw .unexpectedEffect
  else if !rpc.callId then throw .callIdentityExhausted
  else if !rpc.accepted then throw .broker
  else set (t.withOwner fun o => { o with pending := some fetch })

/-- Keep a fetch until the broker is ready. -/
def request (fetch : MetadataFetch) : OwnerM Unit := do
  let t ← get
  set (t.withOwner fun o => { o with requested := some fetch })
  if t.owner.requested.isSome then throw .unexpectedEffect else pure ()

/-- Send a fetch, now or later. -/
def send (fetch : MetadataFetch) (rpc : RpcTurn) : OwnerM Unit :=
  if rpc.ready then submit fetch rpc else request fetch

/-- Carry out the effects of a transition. -/
def interpretEffects (rpc : RpcTurn) (evidence : EvidenceStamp) : List MetadataEffect → OwnerM Bool
  | [] => pure false
  | .generationExhausted :: _ => throw .generationExhausted
  | .fetch operationId generation query :: effects => do
    send ⟨operationId, generation, evidence, query⟩ rpc
    let _ ← interpretEffects rpc evidence effects
    pure true

def interpret (transition : MetadataTransition) (rpc : RpcTurn) (evidence : EvidenceStamp) :
    OwnerM Bool :=
  interpretEffects rpc evidence transition.effects

/-! ## Replies -/

def failureInput (operationId : OperationId) : OwnerM MetadataInput := do
  let followup ← reserveOperation
  pure (.refreshFailed operationId followup)

/-- A failure of the fetch of a topic, for the views that wait for it. -/
def topicError (query : MetadataQuery) (error : TopicViewError) :
    Option (TopicName × TopicViewError) :=
  match query with
  | .cluster => none
  | .topic topic => some (topic, error)

/-- The error a response to the fetch of a topic reports. -/
def responseTopicError (query : MetadataQuery) (response : MetadataResponse) :
    Option (TopicName × TopicViewError) :=
  match query with
  | .cluster => none
  | .topic expected =>
    if response.errorCode ≠ 0 then some (expected, .broker response.errorCode)
    else
      match response.topics with
      | [topic] =>
        if topic.name ≠ some expected.value then some (expected, .malformedMetadata)
        else if topic.errorCode ≠ 0 then some (expected, .broker topic.errorCode)
        else none
      | _ => some (expected, .malformedMetadata)

/-- What a response is an answer to. -/
def provenance (fetch : MetadataFetch) : MetadataResponse.MetadataResponseProvenance :=
  ⟨fetch.generation, fetch.evidence, fetch.operationId, fetch.query⟩

/-- What a response tells the machine. -/
def successInput (pending : MetadataFetch) (response : MetadataResponse) :
    OwnerM (MetadataInput × Option (TopicName × TopicViewError)) := do
  let t ← get
  match response.snapshotFromResponse (provenance pending) t.owner.machine.current
    t.owner.limits.brokerDirectory t.owner.limits.partitionLeaders with
  | .error _ => do
    let input ← failureInput pending.operationId
    pure (input, (responseTopicError pending.query response).or
      (topicError pending.query .malformedMetadata))
  | .ok snapshot => do
    let followup ← reserveOperation
    pure (.refreshSucceeded pending.operationId snapshot followup,
      responseTopicError pending.query response)

/-- Note a failed fetch on the views that wait for it. -/
def markTerminal (evidence : EvidenceStamp) :
    Option (TopicName × TopicViewError) → MetadataOwner → MetadataOwner
  | none, o => o
  | some (topic, error), o =>
    { o with topicViews := o.topicViews.markTerminal topic evidence error }

/-- Give the outcome of a fetch to the machine. -/
def finish (pending : MetadataFetch) (rpc : RpcTurn) (evidence : EvidenceStamp)
    (outcome : MetadataInput × Option (TopicName × TopicViewError)) : OwnerM Bool := do
  modify fun t => t.withOwner (markTerminal pending.evidence outcome.2)
  let transition ← applyMachine outcome.1
  let _ ← interpret transition rpc evidence
  pure true

/-- Take in the outcome of the pending call. -/
def observeCompletion (result : CallResult) (rpc : RpcTurn) (evidence : EvidenceStamp) :
    OwnerM Bool := do
  let t ← get
  match t.owner.pending, result with
  | some pending, .responded response => do
    set (t.withOwner fun o => { o with pending := none })
    let outcome ← successInput pending response
    finish pending rpc evidence outcome
  | some pending, .failed => do
    set (t.withOwner fun o => { o with pending := none })
    let input ← failureInput pending.operationId
    finish pending rpc evidence (input, topicError pending.query .refreshFailed)
  | _, _ => pure false

/-! ## Turns of the reactor -/

/-- The surroundings of one `drive` : the broker when a requested fetch is sent, when a reply
is observed, and when the first fetch is made, and what became of the pending call. -/
structure DriveTurn where
  requested : RpcTurn
  result : CallResult
  completion : RpcTurn
  readyForInitial : Bool
  initial : RpcTurn

/-- Send the fetch that was put off. -/
def submitRequested (rpc : RpcTurn) : OwnerM Bool := do
  let t ← get
  match rpc.ready, t.owner.requested with
  | true, some fetch => do
    set (t.withOwner fun o => { o with requested := none, initialRefresh := false })
    submit fetch rpc
    pure true
  | _, _ => pure false

/-- Begin a scan of all waiters. -/
def beginScans (o : MetadataOwner) : MetadataOwner :=
  { o with
    waiters := o.waiters.beginScan
    controllerWaiters := o.controllerWaiters.beginScan
    topicViews := o.topicViews.beginScan
    invalidations := o.invalidations.beginScan }

def beginScansAfter (progress : Bool) : OwnerM Unit :=
  if progress then modify fun t => t.withOwner beginScans else pure ()

/-- Fetch the cluster once the broker is ready for the first time. -/
def refreshInitially (ready : Bool) (rpc : RpcTurn) (evidence : EvidenceStamp) : OwnerM Bool := do
  let t ← get
  if t.owner.initialRefresh && ready then do
    set (t.withOwner fun o => { o with initialRefresh := false })
    let operationId ← reserveOperation
    let transition ← applyMachine (.refresh .cluster operationId)
    interpret transition rpc evidence
  else pure false

/-- One turn of the owner. -/
def drive (turn : DriveTurn) (evidence : EvidenceStamp) : OwnerM Bool := do
  let submitted ← submitRequested turn.requested
  let completed ← observeCompletion turn.result turn.completion evidence
  beginScansAfter (submitted || completed)
  let refreshed ← refreshInitially turn.readyForInitial turn.initial evidence
  pure (submitted || completed || refreshed)

/-- Decide on waiting calls. -/
def drainControllerWaiters (build : Build) (now : Moment) : OwnerM WaitProgress := do
  let t ← get
  match t.owner.controllerWaiters.scanCalls build t.owner.machine now
    t.owner.limits.controllerWaiting.admissionBudget with
  | (controllerWaiters, scan) => do
    set (t.withOwner fun o => { o with controllerWaiters })
    tell (scan.due ++ scan.answered)
    pure (.ofCalls scan)

/-- Decide on waiting calls. -/
def drainPartitionWaiters (build : Build) (now : Moment) : OwnerM WaitProgress := do
  let t ← get
  match t.owner.waiters.scanCalls build t.owner.machine now
    t.owner.limits.partitionAdmissionBudget with
  | (waiters, scan) => do
    set (t.withOwner fun o => { o with waiters })
    tell (scan.due ++ scan.answered)
    pure (.ofCalls scan)

/-- Decide on waiting views. -/
def drainTopicViewWaiters (build : Build) (reserve : ℕ → Bool) (now : Moment) :
    OwnerM WaitProgress := do
  let t ← get
  match t.owner.topicViews.scanViews build reserve t.owner.machine now
    t.owner.limits.topicViewAdmissionBudget with
  | (topicViews, scan) => do
    set (t.withOwner fun o => { o with topicViews })
    tell (scan.due ++ scan.answered)
    pure (.ofViews scan)

/-- Decide on waiting callers. -/
def drainInvalidationWaiters : OwnerM WaitProgress := do
  let t ← get
  match t.owner.invalidations.scan t.owner.machine t.owner.limits.partitionAdmissionBudget with
  | (invalidations, fates, progress) => do
    set (t.withOwner fun o => { o with invalidations })
    tell fates
    pure progress

/-! ## Waiting -/

/-- Queue a waiter and demand the fetch it waits for. The last waiter is taken back if there
is no room for the fetch. -/
def waitFor (admission : OwnerM Bool) (demand : OperationId → MetadataInput)
    (reject : OwnerM Unit) (rpc : RpcTurn) (evidence : EvidenceStamp) : OwnerM Unit := do
  let operationId ← reserveOperation
  let admitted ← admission
  if admitted then do
    let transition ← applyMachine (demand operationId)
    if transition.disposition = .queryCapacityReached then reject
    else do
      let _ ← interpret transition rpc evidence
      pure ()
  else pure ()

structure PartitionWait where
  topic : TopicName
  topicHeapBytes : ℕ
  partition : PartitionId
  request : Request

/-- Queue a call. -/
def admitPartition (waiting : PartitionWait) (now : Moment) : OwnerM Bool :=
  modifyGet fun t =>
    match t.owner.waiters.admitCall waiting.topic waiting.topicHeapBytes waiting.partition
      waiting.request now with
    | (waiters, fates, admitted) =>
      (admitted, { t with owner := { t.owner with waiters }, fates := t.fates ++ fates })

/-- The failure of a call whose fetch found no room. -/
def queryCapacity (o : MetadataOwner) : RequestError :=
  .metadataQueryCapacityReached o.limits.queries.pendingQueries.get

/-- Take the call back. -/
def rejectQueryCapacity (build : Build) (ticket : ℕ) : OwnerM Unit := do
  let t ← get
  match t.owner.waiters.retractLast build fun last => last.request.ticket = ticket with
  | (_, none) => throw .unexpectedEffect
  | (waiters, some waiting) => do
    set (t.withOwner fun o => { o with waiters })
    tell [.failed waiting.request t.owner.queryCapacity]

/-- Queue a call and ask for its topic. -/
def waitForPartition (build : Build) (waiting : PartitionWait) (rpc : RpcTurn) (now : Moment)
    (evidence : EvidenceStamp) : OwnerM Unit :=
  waitFor (admitPartition waiting now) (.resolve (.topic waiting.topic))
    (rejectQueryCapacity build waiting.request.ticket) rpc evidence

def admitController (target : ClusterRouteTarget) (request : Request) (now : Moment) :
    OwnerM Bool :=
  modifyGet fun t =>
    match t.owner.controllerWaiters.admitCall target request now with
    | (controllerWaiters, fates, admitted) =>
      (admitted, { t with owner := { t.owner with controllerWaiters }, fates := t.fates ++ fates })

def rejectControllerQueryCapacity (build : Build) (ticket : ℕ) : OwnerM Unit := do
  let t ← get
  match t.owner.controllerWaiters.retractLast build fun last => last.request.ticket = ticket with
  | (_, none) => throw .unexpectedEffect
  | (controllerWaiters, some waiting) => do
    set (t.withOwner fun o => { o with controllerWaiters })
    tell [.failed waiting.request t.owner.queryCapacity]

/-- Queue a call and ask for brokers. -/
def waitForClusterRoute (build : Build) (target : ClusterRouteTarget) (request : Request)
    (rpc : RpcTurn) (now : Moment) (evidence : EvidenceStamp) : OwnerM Unit :=
  waitFor (admitController target request now) (.resolve .cluster)
    (rejectControllerQueryCapacity build request.ticket) rpc evidence

def waitForController (build : Build) (request : Request) (rpc : RpcTurn) (now : Moment)
    (evidence : EvidenceStamp) : OwnerM Unit :=
  waitForClusterRoute build .controller request rpc now evidence

def waitForBroker (build : Build) (brokerId : BrokerId) (request : Request) (rpc : RpcTurn)
    (now : Moment) (evidence : EvidenceStamp) : OwnerM Unit :=
  waitForClusterRoute build (.broker brokerId) request rpc now evidence

def resolveCoordinatorDirectory (rpc : RpcTurn) (evidence : EvidenceStamp) : OwnerM Unit := do
  let operationId ← reserveOperation
  let transition ← applyMachine (.resolve .cluster operationId)
  let _ ← interpret transition rpc evidence
  pure ()

def admitTopicView (waiting : TopicViewWait) : OwnerM Bool :=
  modifyGet fun t =>
    match t.owner.topicViews.admitView waiting with
    | (topicViews, fates, admitted) =>
      (admitted, { t with owner := { t.owner with topicViews }, fates := t.fates ++ fates })

def rejectTopicView (build : Build) (topic : TopicName) : OwnerM Unit := do
  let t ← get
  match t.owner.topicViews.retractLast build fun last => last.topic = topic with
  | (_, none) => throw .unexpectedEffect
  | (topicViews, some waiting) => do
    set (t.withOwner fun o => { o with topicViews })
    tell [waiting.complete
      (.error (.queryCapacityReached t.owner.limits.queries.pendingQueries.get))]

/-- The demand of a view : a fetch in flight meets only views of current facts. -/
def viewDemand (waiting : TopicViewWait) (operationId : OperationId) : MetadataInput :=
  if waiting.requirement.requiresRefresh then .refresh (.topic waiting.topic) operationId
  else .resolve (.topic waiting.topic) operationId

/-- Queue a view and ask for its topic. -/
def waitForTopicView (build : Build) (waiting : TopicViewWait) (rpc : RpcTurn)
    (evidence : EvidenceStamp) : OwnerM Unit :=
  waitFor (admitTopicView waiting) (viewDemand waiting) (rejectTopicView build waiting.topic) rpc
    evidence

/-! ## Invalidation -/

/-- The caller has to wait. -/
def waitsForEvidence : MetadataDisposition → Bool
  | .applied | .queued | .coalesced => true
  | _ => false

/-- The answer to an invalidation that waits for nothing. -/
def immediateDisposition : MetadataDisposition → InvalidationDisposition
  | .ignoredStale => .ignoredStale
  | _ => .unavailable

/-- The machine's input for an invalidation. -/
def invalidationInput (target : InvalidationTarget) (observedAt : OutcomeStamp)
    (operationId : OperationId) : MetadataInput :=
  match target with
  | .controller route => .invalidateBrokerRoute route observedAt operationId
  | .partition route => .invalidatePartitionRoute route observedAt operationId

/-- Wait for newer evidence, or answer at once. -/
def await (target : InvalidationTarget) (completion : ℕ) (disposition : MetadataDisposition) :
    OwnerM Unit :=
  if waitsForEvidence disposition then
    modify fun t =>
      match t.owner.invalidations.subscribe target completion with
      | (invalidations, fates) =>
        { t with owner := { t.owner with invalidations }, fates := t.fates ++ fates }
  else tell [.invalidated completion (immediateDisposition disposition)]

/-- The common course of the two invalidations. -/
def invalidateRoute (target : InvalidationTarget) (observedAt : OutcomeStamp) (completion : ℕ)
    (rpc : RpcTurn) (evidence : EvidenceStamp) : OwnerM Unit := do
  let operationId ← reserveOperation
  let transition ← applyMachine (invalidationInput target observedAt operationId)
  await target completion transition.disposition
  let _ ← interpret transition rpc evidence
  pure ()

def invalidateBrokerRoute (route : BrokerRoute) (observedAt : OutcomeStamp) (completion : ℕ)
    (rpc : RpcTurn) (evidence : EvidenceStamp) : OwnerM Unit :=
  invalidateRoute (.controller route) observedAt completion rpc evidence

def invalidatePartitionRoute (route : PartitionRoute) (observedAt : OutcomeStamp)
    (completion : ℕ) (rpc : RpcTurn) (evidence : EvidenceStamp) : OwnerM Unit :=
  invalidateRoute (.partition route) observedAt completion rpc evidence

/-! ## Shutdown and the host -/

/-- Fail everybody who waits. -/
def failWaiters (failure : RequestError) : OwnerM Unit := do
  let t ← get
  let controllers := t.owner.controllerWaiters.failAll fun waiting =>
    MetadataFate.failed waiting.request failure
  let partitions := t.owner.waiters.failAll fun waiting =>
    MetadataFate.failed waiting.request failure
  let views := t.owner.topicViews.failAll fun waiting => waiting.complete (.error .draining)
  let invalidations := t.owner.invalidations.failAll
  set (t.withOwner fun o =>
    { o with
      controllerWaiters := controllers.1
      waiters := partitions.1
      topicViews := views.1
      invalidations := invalidations.1 })
  tell (controllers.2 ++ partitions.2 ++ views.2 ++ invalidations.2)

/-- What the caller of `topicView` or `topicViewNewerThan` requires. -/
def requirementOf : Option MetadataGeneration → TopicViewRequirement
  | none => .current
  | some floor => .newerThan floor

/-- Answer a demand from the current snapshot, or let it wait. -/
def processTopicView (build : Build) (reserve : ℕ → Bool) (topic : TopicName)
    (newerThan : Option MetadataGeneration) (deadline : Moment) (retainedBytes completion : ℕ)
    (rpc : RpcTurn) (now : Moment) (evidence : EvidenceStamp) : OwnerM Unit := do
  let t ← get
  if deadline ≤ now then
    tell [.viewed topic (requirementOf newerThan) completion (.error .deadlineExceeded)]
  else
    match t.owner.machine.current.filter fun s =>
      newerThan.all fun floor => decide (floor < s.generation) with
    | none =>
      waitForTopicView build ⟨topic, requirementOf newerThan, deadline, retainedBytes, completion⟩
        rpc evidence
    | some s =>
      match TopicView.fromSnapshot reserve s topic with
      | .ok (some view) =>
        tell [.viewed topic (requirementOf newerThan) completion (.ok view)]
      | .error error =>
        tell [.viewed topic (requirementOf newerThan) completion (.error error)]
      | .ok none =>
        waitForTopicView build
          ⟨topic, requirementOf newerThan, deadline, retainedBytes, completion⟩ rpc evidence

def processTopicViewAfterFailure (build : Build) (topic : TopicName) (observedAt : OutcomeStamp)
    (deadline : Moment) (retainedBytes completion : ℕ) (rpc : RpcTurn) (now : Moment)
    (evidence : EvidenceStamp) : OwnerM Unit :=
  if deadline ≤ now then
    tell [.viewed topic (.afterOutcome observedAt) completion (.error .deadlineExceeded)]
  else
    waitForTopicView build ⟨topic, .afterOutcome observedAt, deadline, retainedBytes, completion⟩
      rpc evidence

end MetadataOwner

/-! ## Calls -/

open MetadataOwner in
/-- What the reactor asks of the owner. -/
inductive MetadataCall where
  | drive (turn : MetadataOwner.DriveTurn) (evidence : EvidenceStamp)
  | drainControllerWaiters (now : Moment)
  | drainPartitionWaiters (now : Moment)
  | drainTopicViewWaiters (reserve : ℕ → Bool) (now : Moment)
  | drainInvalidationWaiters
  | waitForPartition (waiting : PartitionWait) (rpc : RpcTurn) (now : Moment)
      (evidence : EvidenceStamp)
  | waitForController (request : Request) (rpc : RpcTurn) (now : Moment) (evidence : EvidenceStamp)
  | waitForBroker (brokerId : BrokerId) (request : Request) (rpc : RpcTurn) (now : Moment)
      (evidence : EvidenceStamp)
  | resolveCoordinatorDirectory (rpc : RpcTurn) (evidence : EvidenceStamp)
  | processTopicView (reserve : ℕ → Bool) (topic : TopicName)
      (newerThan : Option MetadataGeneration) (deadline : Moment) (retainedBytes completion : ℕ)
      (rpc : RpcTurn) (now : Moment) (evidence : EvidenceStamp)
  | processTopicViewAfterFailure (topic : TopicName) (observedAt : OutcomeStamp)
      (deadline : Moment) (retainedBytes completion : ℕ) (rpc : RpcTurn) (now : Moment)
      (evidence : EvidenceStamp)
  | invalidateBrokerRoute (route : BrokerRoute) (observedAt : OutcomeStamp) (completion : ℕ)
      (rpc : RpcTurn) (evidence : EvidenceStamp)
  | invalidatePartitionRoute (route : PartitionRoute) (observedAt : OutcomeStamp)
      (completion : ℕ) (rpc : RpcTurn) (evidence : EvidenceStamp)
  | failWaiters (failure : RequestError)

/-- What a call told waiters, gave to the machine, and failed with. -/
structure MetadataAnswer where
  fates : List MetadataFate
  inputs : List MetadataInput
  failure : Option MetadataOwnerError

namespace MetadataOwner

/-- The operation a call runs. -/
def operation (build : Build) : MetadataCall → OwnerM Unit
  | .drive turn evidence => discard (drive turn evidence)
  | .drainControllerWaiters now => discard (drainControllerWaiters build now)
  | .drainPartitionWaiters now => discard (drainPartitionWaiters build now)
  | .drainTopicViewWaiters reserve now => discard (drainTopicViewWaiters build reserve now)
  | .drainInvalidationWaiters => discard drainInvalidationWaiters
  | .waitForPartition waiting rpc now evidence => waitForPartition build waiting rpc now evidence
  | .waitForController request rpc now evidence => waitForController build request rpc now evidence
  | .waitForBroker brokerId request rpc now evidence =>
    waitForBroker build brokerId request rpc now evidence
  | .resolveCoordinatorDirectory rpc evidence => resolveCoordinatorDirectory rpc evidence
  | .processTopicView reserve topic newerThan deadline retainedBytes completion rpc now evidence =>
    processTopicView build reserve topic newerThan deadline retainedBytes completion rpc now
      evidence
  | .processTopicViewAfterFailure topic observedAt deadline retainedBytes completion rpc now
      evidence =>
    processTopicViewAfterFailure build topic observedAt deadline retainedBytes completion rpc now
      evidence
  | .invalidateBrokerRoute route observedAt completion rpc evidence =>
    invalidateBrokerRoute route observedAt completion rpc evidence
  | .invalidatePartitionRoute route observedAt completion rpc evidence =>
    invalidatePartitionRoute route observedAt completion rpc evidence
  | .failWaiters failure => failWaiters failure

/-- Run a call. -/
def step (build : Build) (o : MetadataOwner) (call : MetadataCall) :
    MetadataOwner × MetadataAnswer :=
  match operation build call ⟨o, [], []⟩ with
  | .ok _ t => (t.owner, ⟨t.fates, t.inputs, none⟩)
  | .error e t => (t.owner, ⟨t.fates, t.inputs, some e⟩)

/-! ## A cluster of one broker -/

/-- Limits that no run below reaches. -/
def smallLimits : MetadataLimits :=
  let four := NonZeroUsize.four
  { brokerDirectory := four
    partitionLeaders := ⟨four, four⟩
    queries := ⟨four⟩
    partitionWaitingCalls := four
    partitionWaitingBytes := four
    partitionAdmissionBudget := four
    invalidationWaiters := four
    controllerWaiting := ⟨four, four, four⟩
    topicViewWaiters := four
    topicViewBytes := four
    topicViewAdmissionBudget := four }

/-- A broker that is ready and takes every request. -/
def openRpc : RpcTurn := ⟨true, true, true⟩

/-- A turn with such a broker. -/
def openTurn (result : CallResult) : DriveTurn := ⟨openRpc, result, openRpc, true, openRpc⟩

/-- One broker, which is the controller, and some topics. -/
def soleResponse (topics : List MetadataResponseTopic) : MetadataResponse :=
  ⟨0, [⟨1, "broker", 9092⟩], 1, topics⟩

end MetadataOwner

end KafkaDriver
