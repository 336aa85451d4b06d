import KafkaDriver.CoordinatorFollowup
import KafkaDriver.MetadataResponse
import KafkaDriver.MetadataWaiters

/-!
# The coordinator owner

`CoordinatorOwner` runs one coordinator machine for each key. An entry pairs the machine with
the call of its discovery in flight (`pending`), a demand not yet given to it
(`discoveryRequested`) and the callers of invalidations that wait for newer evidence
(`invalidation`). Calls wait in one queue for the coordinators of all keys.

An operation may fail, and what it did until then stays. It runs over a `CoordinatorTurn`,
which also lists what callers were told and the steps of machines. What the owner asks of its
surroundings is an argument : the broker (`CoordinatorRpc`), the fate of a pending call
(`DiscoveryResult`), the time and the evidence stamp. The loops of `drive` move their cursor
while they count offsets from it, so an entry may be visited twice or not at all; their
surroundings are given by the offset.
-/

namespace KafkaDriver

open Fallible

/-! ## Discovery requests and responses -/

/-- The request of a discovery. -/
structure FindCoordinatorRequest where
  keyType : ℤ
  key : String
  coordinatorKeys : List String

/-- One result of a batched response. -/
structure FoundCoordinator where
  key : String
  errorCode : ℤ
  nodeId : ℤ
  host : String
  port : ℤ

/-- The reply to a discovery. -/
structure FindCoordinatorResponse where
  errorCode : ℤ
  nodeId : ℤ
  host : String
  port : ℤ
  coordinators : List FoundCoordinator

/-- Why a reply is no route. -/
inductive CoordinatorBuildError where
  | unsupportedKind (kind : CoordinatorKind) (version : ApiVersion)
  | responseCount (observed : ℕ)
  | keyMismatch
  | response (errorCode : ℤ)
  | brokerId (value : ℤ)
  | brokerHost (source : HostNameError)
  | brokerPort (port : ℤ)

namespace CoordinatorBuildError

/-- The coordinator is loading, not available or has moved. -/
def isTransientDiscoveryRejection : CoordinatorBuildError → Bool
  | .response errorCode => 14 ≤ errorCode ∧ errorCode ≤ 16
  | _ => false

end CoordinatorBuildError

def CoordinatorKind.keyType : CoordinatorKind → ℤ
  | .group => 0
  | .transaction => 1
  | .share => 2

def ensureKindSupported (kind : CoordinatorKind) (version : ApiVersion) :
    Except CoordinatorBuildError Unit :=
  let supported : Bool :=
    match kind with
    | .group => true
    | .transaction => 1 ≤ version.value
    | .share => 6 ≤ version.value
  if supported then .ok () else .error (.unsupportedKind kind version)

def findCoordinatorRequest (key : CoordinatorKey) (version : ApiVersion) :
    Except CoordinatorBuildError FindCoordinatorRequest := do
  ensureKindSupported key.kind version
  if version.value ≤ 3 then pure ⟨key.kind.keyType, key.value, []⟩
  else pure ⟨key.kind.keyType, "", [key.value]⟩

/-- The broker a result names. -/
def discoveredBroker (errorCode nodeId : ℤ) (host : String) (port : ℤ) :
    Except CoordinatorBuildError (BrokerId × BrokerEndpoint) :=
  if errorCode ≠ 0 then .error (.response errorCode)
  else do
    let brokerId ← (BrokerId.new nodeId).mapError .brokerId
    let host ← (hostName host).mapError .brokerHost
    if 0 < port ∧ port ≤ 65535 then pure (brokerId, ⟨host, port.toNat⟩)
    else throw (.brokerPort port)

/-- The broker a response names. -/
def coordinatorTarget (response : FindCoordinatorResponse) (key : CoordinatorKey)
    (version : ApiVersion) : Except CoordinatorBuildError (BrokerId × BrokerEndpoint) :=
  if version.value ≤ 3 then
    discoveredBroker response.errorCode response.nodeId response.host response.port
  else
    match response.coordinators with
    | [found] =>
      if found.key ≠ key.value then .error .keyMismatch
      else discoveredBroker found.errorCode found.nodeId found.host found.port
    | _ => .error (.responseCount response.coordinators.length)

/-! ## The owner -/

structure CoordinatorLimits where
  keys : NonZeroUsize
  waitingCalls : NonZeroUsize
  waitingBytes : NonZeroUsize
  invalidationWaiters : NonZeroUsize
  turnBudget : NonZeroUsize

/-- A discovery that was sent and not answered. -/
structure PendingCoordinator where
  operationId : OperationId
  epoch : CoordinatorEpoch
  evidence : EvidenceStamp
  version : ApiVersion

/-- Callers that reported the failure of one route and wait for newer evidence. -/
structure CoordinatorInvalidation where
  target : CoordinatorRoute
  subscribers : List ℕ

def CoordinatorInvalidation.matchesRoute (i : CoordinatorInvalidation) (route : CoordinatorRoute) :
    Bool :=
  i.target.isSameTarget route

/-- A machine and what the owner keeps for it. -/
structure CoordinatorEntry where
  machine : CoordinatorMachine
  pending : Option PendingCoordinator
  discoveryRequested : Bool
  invalidation : Option CoordinatorInvalidation

namespace CoordinatorEntry

def new (machine : CoordinatorMachine) : CoordinatorEntry := ⟨machine, none, false, none⟩

/-- The completions the barrier of an entry holds. -/
def subscribers (entry : CoordinatorEntry) : List ℕ :=
  (entry.invalidation.map (·.subscribers)).getD []

end CoordinatorEntry

/-- Identities of discoveries, drawn in order. -/
structure CoordinatorOperationIds where
  next : Option ℕ

namespace CoordinatorOperationIds

def new : CoordinatorOperationIds := ⟨some 1⟩

def reserve (ids : CoordinatorOperationIds) : Option (OperationId × CoordinatorOperationIds) :=
  ids.next.map fun raw => (⟨raw⟩, ⟨checkedSucc raw⟩)

end CoordinatorOperationIds

/-- What a caller was told. -/
inductive CoordinatorFate where
  | failed (request : Request) (failure : RequestError)
  | routed (request : Request) (route : CoordinatorRoute)
  | invalidated (completion : ℕ) (disposition : InvalidationDisposition)
  deriving DecidableEq

/-- A call that waits for the coordinator of a key. -/
structure WaitingCoordinatorCall where
  key : CoordinatorKey
  request : Request

abbrev CoordinatorWaiters := Waiters WaitingCoordinatorCall

/-- The coordinators of all keys. -/
structure CoordinatorOwner where
  limits : CoordinatorLimits
  entries : List CoordinatorEntry
  cursor : ℕ
  waiters : CoordinatorWaiters
  invalidationSubscribers : ℕ
  operationIds : CoordinatorOperationIds

variable (o : CoordinatorOwner) (index : ℕ) (i : CoordinatorInvalidation) (route : CoordinatorRoute)
  (operationId : OperationId) (key : CoordinatorKey)

namespace CoordinatorOwner

def new (limits : CoordinatorLimits) : CoordinatorOwner where
  limits := limits
  entries := []
  cursor := 0
  waiters := .new limits.waitingCalls limits.waitingBytes
  invalidationSubscribers := 0
  operationIds := .new

def entryIndex : Option ℕ :=
  o.entries.findIdx? fun entry => entry.machine.key = key

def entry : Option CoordinatorEntry :=
  (o.entryIndex key).bind fun index => o.entries[index]?

def current (o : CoordinatorOwner) (key : CoordinatorKey) : Option CoordinatorRoute :=
  (o.entry key).bind fun entry => entry.machine.current

/-- The entry of a key, new if need be. -/
def entryOrInsert : CoordinatorOwner × Option ℕ :=
  match o.entryIndex key with
  | some index => (o, some index)
  | none =>
    if o.entries.length = o.limits.keys.get then (o, none)
    else ({ o with entries := o.entries ++ [.new (.new key)] }, some o.entries.length)

/-- A discovery is under way. -/
def discoveryPending : Bool :=
  (o.entry key).any fun entry =>
    entry.discoveryRequested || entry.machine.state.discovery.isSome

def hasInvalidationCapacity : Bool :=
  o.invalidationSubscribers < o.limits.invalidationWaiters.get

/-- The completions all barriers hold. -/
def held : List ℕ := o.entries.flatMap (·.subscribers)

def modifyEntry (f : CoordinatorEntry → CoordinatorEntry) : CoordinatorOwner :=
  { o with entries := o.entries.modify index f }

end CoordinatorOwner

/-- What ends the owner. -/
inductive CoordinatorOwnerError where
  | callIdentityExhausted
  | operationIdentityExhausted
  | epochExhausted
  | unexpectedEffect
  | broker

/-- An owner in the middle of an operation, with what the operation told callers and the steps
it let machines take. -/
structure CoordinatorTurn where
  owner : CoordinatorOwner
  fates : List CoordinatorFate
  steps : List CoordinatorEvent

abbrev CoordinatorM := EStateM CoordinatorOwnerError CoordinatorTurn

/-- The broker's side of one discovery : the version it speaks, whether a call identity is left
and whether it accepts the request. -/
structure CoordinatorRpc where
  negotiatedVersion : Option ApiVersion
  callId : Bool
  accepted : Bool

/-- What became of a pending call. -/
inductive DiscoveryResult where
  | pending
  | responded (response : FindCoordinatorResponse)
  | failed

namespace CoordinatorOwner

def withOwner (f : CoordinatorOwner → CoordinatorOwner) : CoordinatorM Unit :=
  modify fun t => { t with owner := f t.owner }

/-- Tell callers. -/
def tell (fates : List CoordinatorFate) : CoordinatorM Unit :=
  modify fun t => { t with fates := t.fates ++ fates }

def reserveOperation : CoordinatorM OperationId := do
  let t ← get
  match t.owner.operationIds.reserve with
  | none => throw .operationIdentityExhausted
  | some (id, operationIds) => do
    set { t with owner := { t.owner with operationIds } }
    pure id

/-- The entry of an index. Indices come from the list, so there is one. -/
def entryAt : CoordinatorM CoordinatorEntry := do
  match (← get).owner.entries[index]? with
  | none => throw .unexpectedEffect
  | some entry => pure entry

/-- Give the machine of an entry an input. -/
def applyMachine (input : CoordinatorInput) : CoordinatorM CoordinatorTransition := do
  let entry ← entryAt index
  let step := Runs.event CoordinatorMachine.apply entry.machine input
  modify fun t =>
    { t with
      owner := t.owner.modifyEntry index fun entry => { entry with machine := step.after }
      steps := t.steps ++ [step] }
  pure step.answer

def beginScan : CoordinatorM Unit := withOwner fun o => { o with waiters := o.waiters.beginScan }

/-! ## Barriers -/

/-- What the callers of a barrier are told, once nothing is awaited any more. -/
def settledDisposition (machine : CoordinatorMachine) : Option InvalidationDisposition :=
  if machine.revocationPending i.target then none
  else
    match machine.state with
    | .unknown _ => some .unavailable
    | _ => some .applied

def releaseInvalidationSubscribers (subscribers : ℕ) : CoordinatorOwner :=
  { o with invalidationSubscribers := wrappingSub o.invalidationSubscribers subscribers }

/-- End the barrier of an entry. -/
def complete (disposition : InvalidationDisposition) : CoordinatorM Unit := do
  tell (i.subscribers.map (.invalidated · disposition))
  withOwner fun o => (o.modifyEntry index fun entry => { entry with invalidation := none })
    |>.releaseInvalidationSubscribers i.subscribers.length

/-- Tell the callers of a barrier. -/
def settleInvalidation : CoordinatorM Unit := do
  let entry ← entryAt index
  match entry.invalidation with
  | none => pure ()
  | some i =>
    match settledDisposition i entry.machine with
    | none => pure ()
    | some disposition => complete index i disposition

/-! ## Discoveries -/

/-- Fail a discovery that cannot be sent, and the one that follows it. A discovery that follows
another has no follow-up itself, so `rounds` of two are enough. -/
def rejectRounds (index : ℕ) : ℕ → OperationId → CoordinatorEpoch → CoordinatorM Unit
  | 0, _, _ => throw .unexpectedEffect
  | rounds + 1, operationId, epoch => do
    let followupOperationId ← reserveOperation
    let transition ← applyMachine index (.discoveryFailed operationId epoch followupOperationId)
    beginScan
    match transition.effects with
    | [] => settleInvalidation index
    | [.find nextOperation _ nextEpoch] => rejectRounds index rounds nextOperation nextEpoch
    | [.epochExhausted] => throw .epochExhausted
    | _ => throw .unexpectedEffect

def rejectFind (epoch : CoordinatorEpoch) : CoordinatorM Unit :=
  rejectRounds index 2 operationId epoch

variable (epoch : CoordinatorEpoch) (evidence : EvidenceStamp) (rpc : CoordinatorRpc)
  (completion : ℕ)

/-- Send a discovery. -/
def submit : CoordinatorM Unit := do
  let entry ← entryAt index
  if entry.pending.isSome then throw .unexpectedEffect
  else
    match rpc.negotiatedVersion with
    | none => rejectFind index operationId epoch
    | some version =>
      match findCoordinatorRequest key version with
      | .error _ => rejectFind index operationId epoch
      | .ok _ =>
        if !rpc.callId then throw .callIdentityExhausted
        else if !rpc.accepted then throw .broker
        else
          withOwner fun o => o.modifyEntry index fun entry =>
            { entry with pending := some ⟨operationId, epoch, evidence, version⟩ }

/-- Check that a machine waits as it said it would. -/
def expectRetry (due : Moment) : CoordinatorM Unit := do
  let entry ← entryAt index
  match entry.machine.state with
  | .retrying d expected =>
    if d.operationId = operationId ∧ d.targetEpoch = epoch ∧ expected = due then pure ()
    else throw .unexpectedEffect
  | _ => throw .unexpectedEffect

/-- Carry out effects in order. -/
def interpretEffects (index : ℕ) (evidence : EvidenceStamp) (rpc : CoordinatorRpc) :
    List CoordinatorEffect → CoordinatorM Unit
  | [] => pure ()
  | .find operationId key epoch :: rest => do
    submit index operationId key epoch evidence rpc
    interpretEffects index evidence rpc rest
  | .waitUntil operationId epoch due :: rest => do
    expectRetry index operationId epoch due
    interpretEffects index evidence rpc rest
  | .epochExhausted :: _ => throw .epochExhausted

def interpret (transition : CoordinatorTransition) (evidence : EvidenceStamp)
    (rpc : CoordinatorRpc) : CoordinatorM Unit :=
  interpretEffects index evidence rpc transition.effects

/-! ## Invalidation -/

def waitsForEvidence : CoordinatorDisposition → Bool
  | .applied | .refreshQueued | .coalesced => true
  | _ => false

/-- The answer to an invalidation that waits for nothing, which is a stale one. -/
def immediateDisposition : CoordinatorDisposition → InvalidationDisposition
  | .ignoredStale => .ignoredStale
  | _ => .unavailable

/-- Add a caller to the barrier of an entry, or begin one. -/
def subscribe (entry : CoordinatorEntry) : CoordinatorEntry :=
  { entry with
    invalidation := some
      (match entry.invalidation with
        | some i => { i with subscribers := i.subscribers ++ [completion] }
        | none => ⟨route, [completion]⟩) }

/-- Wait for newer evidence, or answer at once. -/
def await (disposition : CoordinatorDisposition) : CoordinatorM Unit := do
  if waitsForEvidence disposition then
    if !(← get).owner.hasInvalidationCapacity then
      tell [.invalidated completion .capacityReached]
    else
      withOwner fun o =>
        { o.modifyEntry index (subscribe route completion) with
          invalidationSubscribers := o.invalidationSubscribers + 1 }
  else tell [.invalidated completion (immediateDisposition disposition)]

/-- A caller reports a failed route. -/
def invalidate (route : CoordinatorRoute) (observedAt : OutcomeStamp) (completion : ℕ)
    (evidence : EvidenceStamp) (rpc : CoordinatorRpc) : CoordinatorM Unit := do
  match (← get).owner.entryIndex route.key with
  | none => tell [.invalidated completion .ignoredStale]
  | some index => do
    let entry ← entryAt index
    if entry.invalidation.any fun i => !i.matchesRoute route then
      tell [.invalidated completion .ignoredStale]
    else do
      let operationId ← reserveOperation
      let transition ← applyMachine index (.invalidate route observedAt operationId)
      await index route completion transition.disposition
      interpret index transition evidence rpc

/-- Withdraw a route. -/
def invalidateUnobserved : CoordinatorM CoordinatorDisposition := do
  match (← get).owner.entryIndex route.key with
  | none => pure .ignoredStale
  | some index => do
    let operationId ← reserveOperation
    let transition ← applyMachine index (.withdraw route operationId)
    interpret index transition evidence rpc
    pure transition.disposition

/-! ## Turns of the reactor -/

/-- Visit entries by offsets from the cursor, which every visit that did something moves behind
its entry, while the budget lasts. -/
def visitEntries (budget len : ℕ) (visit : ℕ → ℕ → CoordinatorM Bool) :
    List ℕ → ℕ → CoordinatorM ℕ
  | [], done => pure done
  | offset :: rest, done => do
    if done = budget then pure done
    else
      let index := ((← get).owner.cursor + offset) % len
      if ← visit offset index then
        withOwner fun o => { o with cursor := (index + 1) % len }
        visitEntries budget len visit rest (done + 1)
      else visitEntries budget len visit rest done

/-- Visit as many entries as there are. -/
def visitAll (budget : ℕ) (visit : ℕ → ℕ → CoordinatorM Bool) : CoordinatorM ℕ := do
  let len := (← get).owner.entries.length
  visitEntries budget len visit (List.range len) 0

/-- Some call waits for the key and is not due. -/
def hasLiveKey (w : CoordinatorWaiters) (key : CoordinatorKey) (now : Moment) : Bool :=
  w.waiting.any fun e => e.value.value.key = key && now < e.deadline

variable (entry : CoordinatorEntry) (epoch : CoordinatorEpoch) (budget : ℕ) (now : Moment)
  (evidence : EvidenceStamp) (rpc : CoordinatorRpc)

/-- Somebody waits for the retry. -/
def retryHasDemand : Bool :=
  entry.invalidation.isSome || hasLiveKey o.waiters entry.machine.key now

def startRetry : CoordinatorM Unit := do
  let retryOperationId ← reserveOperation
  let transition ← applyMachine index (.retryElapsed operationId epoch now retryOperationId)
  interpret index transition evidence rpc

def endRetry : CoordinatorM Unit := do
  let followupOperationId ← reserveOperation
  let transition ← applyMachine index (.discoveryFailed operationId epoch followupOperationId)
  interpret index transition evidence rpc
  settleInvalidation index
  beginScan

/-- Retry the discovery of an entry if it is due. -/
def fireDueRetry (index : ℕ) : CoordinatorM Bool := do
  let entry ← entryAt index
  match entry.machine.state with
  | .retrying d due =>
    if now < due then pure false
    else if entry.pending.isSome then throw .unexpectedEffect
    else do
      if retryHasDemand (← get).owner entry now then
        startRetry index d.operationId d.targetEpoch now evidence rpc
      else endRetry index d.operationId d.targetEpoch evidence rpc
      pure true
  | _ => pure false

def fireDueRetries (rpc : ℕ → CoordinatorRpc) : CoordinatorM ℕ :=
  visitAll budget fun offset => fireDueRetry now evidence (rpc offset)

def discoveryFailed (pending : PendingCoordinator) (followupOperationId : OperationId) :
    CoordinatorInput :=
  .discoveryFailed pending.operationId pending.epoch followupOperationId

/-- What a response tells the machine. -/
def successInput (pending : PendingCoordinator) (response : FindCoordinatorResponse) (now : Moment)
    (followupOperationId : OperationId) : CoordinatorInput :=
  match coordinatorTarget response key pending.version with
  | .ok (brokerId, endpoint) =>
    .discoverySucceeded pending.operationId pending.epoch brokerId endpoint pending.evidence
      followupOperationId
  | .error error =>
    if error.isTransientDiscoveryRejection then
      .discoveryRejected pending.operationId pending.epoch now followupOperationId
    else discoveryFailed pending followupOperationId

/-- The input a finished call gives to the machine. -/
def resultInput (pending : PendingCoordinator) (now : Moment) :
    DiscoveryResult → Option (OperationId → CoordinatorInput)
  | .pending => none
  | .responded response => some (successInput key pending response now)
  | .failed => some (discoveryFailed pending)

/-- Observe the call of an entry, if it ended. -/
def observe (now : Moment) (evidence : EvidenceStamp) (result : DiscoveryResult)
    (rpc : CoordinatorRpc) (index : ℕ) : CoordinatorM Bool := do
  let entry ← entryAt index
  match entry.pending.bind fun pending =>
    resultInput entry.machine.key pending now result with
  | none => pure false
  | some input => do
    withOwner fun o => o.modifyEntry index fun entry => { entry with pending := none }
    let followupOperationId ← reserveOperation
    let transition ← applyMachine index (input followupOperationId)
    interpret index transition evidence rpc
    settleInvalidation index
    beginScan
    pure true

def observeCompletions (results : ℕ → DiscoveryResult) (rpc : ℕ → CoordinatorRpc) :
    CoordinatorM ℕ :=
  visitAll budget fun offset => observe now evidence (results offset) (rpc offset)

/-- Give the machine of an entry the demand made for it. -/
def startOne (index : ℕ) : CoordinatorM Bool := do
  let entry ← entryAt index
  if entry.discoveryRequested then do
    withOwner fun o => o.modifyEntry index fun entry => { entry with discoveryRequested := false }
    let operationId ← reserveOperation
    let transition ← applyMachine index (.resolve operationId)
    interpret index transition evidence rpc
    pure true
  else pure false

/-- The broker's side of `startRequested`. -/
structure CoordinatorBroker where
  ready : Bool
  rpc : ℕ → CoordinatorRpc

def startRequested (broker : CoordinatorBroker) : CoordinatorM ℕ :=
  if broker.ready then visitAll budget fun offset => startOne evidence (broker.rpc offset)
  else pure 0

/-- The surroundings of one `drive` : the broker when retries are sent, the results of pending
calls and the broker when they are observed, and the broker when requested discoveries start. -/
structure CoordinatorDrive where
  retries : ℕ → CoordinatorRpc
  results : ℕ → DiscoveryResult
  replies : ℕ → CoordinatorRpc
  starts : CoordinatorBroker

/-- One turn of the owner. -/
def drive (turn : CoordinatorDrive) (now : Moment) (evidence : EvidenceStamp) :
    CoordinatorM Bool := do
  let budget := (← get).owner.limits.turnBudget.get
  let fired ← fireDueRetries budget now evidence turn.retries
  let observed ←
    if budget - fired = 0 then pure 0
    else observeCompletions (budget - fired) now evidence turn.results turn.replies
  let started ←
    if budget - (fired + observed) = 0 then pure 0
    else startRequested (budget - (fired + observed)) evidence turn.starts
  pure (fired + observed + started ≠ 0)

/-! ## Waiting calls -/

/-- How waiting calls are failed. -/
def waitPolicy : WaitPolicy WaitingCoordinatorCall CoordinatorFate where
  expired := fun waiting => .failed waiting.request .deadlineExceeded
  refused := fun callLimit byteLimit waiting =>
    .failed waiting.request (.routeCapacityReached callLimit.get byteLimit.get)

/-- A call for the coordinator of a key, with the heap bytes of the key. -/
structure CoordinatorWait where
  key : CoordinatorKey
  keyHeapBytes : ℕ
  request : Request

/-- The charge of a call : its request and the heap bytes of its key. -/
def waitingBytes (keyHeapBytes : ℕ) (request : Request) : ℕ :=
  min (request.retainedBytes + keyHeapBytes) u64Max

/-- Establish the deadline of a call and queue it, or fail it. -/
def admitCall (w : CoordinatorWaiters) (waiting : CoordinatorWait) (now : Moment) :
    CoordinatorWaiters × List CoordinatorFate × Bool :=
  match waiting.request.establishDeadline now with
  | .error failure => (w, [.failed waiting.request failure], false)
  | .ok (request, deadline) =>
    if deadline ≤ now then (w, [.failed request .deadlineExceeded], false)
    else
      w.admitEntry waitPolicy ⟨waiting.key, request⟩ (waitingBytes waiting.keyHeapBytes request)
        deadline

/-- Queue a call. -/
def admitWaiting (waiting : CoordinatorWait) (now : Moment) : CoordinatorM Bool :=
  modifyGet fun t =>
    match admitCall t.owner.waiters waiting now with
    | (waiters, fates, admitted) =>
      (admitted, { t with owner := { t.owner with waiters }, fates := t.fates ++ fates })

/-- Take back the call just queued, for whose key there is no entry. -/
def rejectKeyCapacity (build : Build) (ticket : ℕ) : CoordinatorM Unit := do
  let t ← get
  match t.owner.waiters.retractLast build fun last => last.request.ticket = ticket with
  | (_, none) => throw .unexpectedEffect
  | (waiters, some waiting) => do
    set { t with owner := { t.owner with waiters } }
    tell [.failed waiting.request (.coordinatorCapacityReached t.owner.limits.keys.get)]

/-- Ask for a discovery, unless the coordinator is known or a discovery in flight. -/
def requestDiscovery : CoordinatorEntry :=
  if entry.machine.current.isNone && entry.pending.isNone then
    { entry with discoveryRequested := true }
  else entry

/-- A call waits for its coordinator. -/
def waitFor (build : Build) (waiting : CoordinatorWait) (broker : Option CoordinatorBroker)
    (now : Moment) (evidence : EvidenceStamp) : CoordinatorM Unit := do
  if ← admitWaiting waiting now then
    match (← get).owner.entryOrInsert waiting.key with
    | (_, none) => rejectKeyCapacity build waiting.request.ticket
    | (owner, some index) => do
      withOwner fun _ => owner.modifyEntry index requestDiscovery
      match broker with
      | none => pure ()
      | some broker => discard (startRequested owner.limits.turnBudget.get evidence broker)
  else pure ()

/-- Route a call whose coordinator is known, and fail one whose key is not being discovered. -/
def examine (o : CoordinatorOwner) (waiting : WaitingCoordinatorCall) : Option CoordinatorFate :=
  match o.current waiting.key with
  | some route => some (.routed waiting.request route)
  | none =>
    if o.discoveryPending waiting.key then none
    else some (.failed waiting.request .routeUnavailable)

/-- Decide on waiting calls. -/
def drainWaiters (build : Build) (now : Moment) : CoordinatorM Unit := do
  let t ← get
  match t.owner.waiters.scan build waitPolicy now t.owner.limits.turnBudget (examine t.owner) with
  | (waiters, scan) => do
    set { t with owner := { t.owner with waiters } }
    tell (scan.due ++ scan.answered)

/-- End all barriers. -/
def failAllInvalidations : CoordinatorM Unit := do
  let held := (← get).owner.held
  tell (held.map (.invalidated · .unavailable))
  withOwner fun o =>
    let ended : CoordinatorOwner :=
      { o with entries := o.entries.map fun entry => { entry with invalidation := none } }
    ended.releaseInvalidationSubscribers held.length

/-- Fail every waiting call. -/
def failWaiters (failure : RequestError) : CoordinatorM Unit := do
  let t ← get
  match t.owner.waiters.failAll fun waiting => CoordinatorFate.failed waiting.request failure with
  | (waiters, fates) => do
    set { t with owner := { t.owner with waiters } }
    tell fates
    failAllInvalidations

end CoordinatorOwner

/-! ## Calls -/

open CoordinatorOwner in
/-- What the reactor asks of the owner. -/
inductive CoordinatorCall where
  | waitFor (waiting : CoordinatorWait) (broker : Option CoordinatorBroker) (now : Moment)
      (evidence : EvidenceStamp)
  | invalidate (route : CoordinatorRoute) (observedAt : OutcomeStamp) (completion : ℕ)
      (evidence : EvidenceStamp) (rpc : CoordinatorRpc)
  | invalidateUnobserved (route : CoordinatorRoute) (evidence : EvidenceStamp)
      (rpc : CoordinatorRpc)
  | drive (turn : CoordinatorDrive) (now : Moment) (evidence : EvidenceStamp)
  | drainWaiters (now : Moment)
  | failWaiters (failure : RequestError)

/-- What a call told callers, the steps machines took, and what it failed with. -/
structure CoordinatorAnswer where
  fates : List CoordinatorFate
  steps : List CoordinatorEvent
  failure : Option CoordinatorOwnerError

namespace CoordinatorOwner

/-- The operation a call runs. -/
def operation (build : Build) : CoordinatorCall → CoordinatorM Unit
  | .waitFor waiting broker now evidence => waitFor build waiting broker now evidence
  | .invalidate route observedAt completion evidence rpc =>
    invalidate route observedAt completion evidence rpc
  | .invalidateUnobserved route evidence rpc => discard (invalidateUnobserved route evidence rpc)
  | .drive turn now evidence => discard (drive turn now evidence)
  | .drainWaiters now => drainWaiters build now
  | .failWaiters failure => failWaiters failure

/-- Run a call. -/
def step (build : Build) (o : CoordinatorOwner) (call : CoordinatorCall) :
    CoordinatorOwner × CoordinatorAnswer :=
  match operation build call ⟨o, [], []⟩ with
  | .ok _ t => (t.owner, ⟨t.fates, t.steps, none⟩)
  | .error e t => (t.owner, ⟨t.fates, t.steps, some e⟩)

end CoordinatorOwner

end KafkaDriver
