import KafkaDriver.MetadataMachine
import KafkaDriver.Waiters
import KafkaDriver.Waiting

/-!
# What waits for metadata

Calls and demands that the current snapshot cannot answer wait at the metadata owner until a
refresh brings what they need or their query is over : calls for a partition leader, calls for
the controller or a broker, and demands for a topic view. The callers of an invalidation wait
in barriers, one for each route, until newer evidence is there (`MetadataInvalidations`).

How a waiter leaves is a `MetadataFate`. A completion is known by its number, and a request by
its ticket.
-/

namespace KafkaDriver

/-! ## Topic views -/

structure AvailableTopicPartition where
  partition : PartitionId
  brokerId : BrokerId
  leaderEpoch : Option LeaderEpoch
  deriving DecidableEq

/-- The facts of one topic copied from a snapshot. -/
structure TopicView where
  topic : TopicName
  topicId : Option KafkaTopicId
  generation : MetadataGeneration
  logicalPartitionCount : ℕ
  available : List AvailableTopicPartition
  deriving DecidableEq

/-- Why there is no view. -/
inductive TopicViewError where
  | deadlineExceeded
  | unavailable
  | refreshFailed
  | broker (errorCode : ℤ)
  | malformedMetadata
  | projectionAllocationFailed
  | queryCapacityReached (limit : ℕ)
  | capacityReached (callLimit byteLimit : ℕ)
  | draining
  deriving DecidableEq

/-- The leaders of one topic in a snapshot. -/
def MetadataSnapshot.leadersOf (s : MetadataSnapshot) (topic : TopicName) : List PartitionLeader :=
  s.leaders.entries.filter fun leader => leader.topic = topic

namespace TopicView

def project (leader : PartitionLeader) : AvailableTopicPartition :=
  ⟨leader.partition, leader.brokerId, leader.leaderEpoch⟩

/-- The view of a topic, if the snapshot knows it. Room for its leaders may be refused. -/
def fromSnapshot (reserve : ℕ → Bool) (s : MetadataSnapshot) (topic : TopicName) :
    Except TopicViewError (Option TopicView) :=
  match s.topicCounts.find topic with
  | none => .ok none
  | some count =>
    if !reserve (s.leadersOf topic).length then .error .projectionAllocationFailed
    else if (s.leadersOf topic).any fun leader => count.count.get ≤ leader.partition.raw then
      .error .malformedMetadata
    else
      .ok (some
        { topic
          topicId := count.topicId
          generation := s.generation
          logicalPartitionCount := count.count.get
          available := (s.leadersOf topic).map project })

end TopicView

/-- How recent the facts of a view must be. -/
inductive TopicViewRequirement where
  | current
  | newerThan (floor : MetadataGeneration)
  | afterOutcome (outcome : OutcomeStamp)
  deriving DecidableEq

variable (r : TopicViewRequirement) (machine : MetadataMachine) (s : MetadataSnapshot)
  (topic : TopicName)

namespace TopicViewRequirement

def requiresRefresh : Bool := r ≠ .current

/-- The snapshot is what was asked. -/
def satisfiedBy : Bool :=
  match r with
  | .current => true
  | .newerThan floor => floor < s.generation
  | .afterOutcome outcome =>
    (s.topicCounts.find topic).any fun count => count.evidence.isAfter outcome

/-- Whether a failed fetch of this evidence ends the wait. -/
def acceptsTerminalFrom (evidence : EvidenceStamp) : Bool :=
  match r with
  | .current => true
  | .newerThan _ => true
  | .afterOutcome outcome => evidence.isAfter outcome

end TopicViewRequirement

/-! ## Fates -/

/-- How an invalidation was answered. -/
inductive InvalidationDisposition where
  | applied
  | ignoredStale
  | unavailable
  | capacityReached
  deriving DecidableEq

/-- What a call for a cluster route asks for. -/
inductive ClusterRouteTarget where
  | controller
  | broker (brokerId : BrokerId)
  deriving DecidableEq

/-- What a waiter was told. A view is told with the topic and the requirement its caller
asked for. -/
inductive MetadataFate where
  | failed (request : Request) (failure : RequestError)
  | controllerRouted (request : Request) (target : ClusterRouteTarget) (route : BrokerRoute)
  | partitionRouted (request : Request) (route : PartitionRoute)
  | viewed (topic : TopicName) (requirement : TopicViewRequirement) (completion : ℕ)
      (result : Except TopicViewError TopicView)
  | invalidated (completion : ℕ) (disposition : InvalidationDisposition)
  deriving DecidableEq

namespace MetadataFate

/-- A request or a view that got an answer other than a route. -/
def isSettled : MetadataFate → Bool
  | .controllerRouted _ _ _ => false
  | .partitionRouted _ _ => false
  | _ => true

end MetadataFate

/-- What one turn over waiters amounts to. -/
structure WaitProgress where
  examined : ℕ
  settled : ℕ
  routed : ℕ
  moreWork : Bool

namespace WaitProgress

/-- Due waiters count as examined. -/
def ofCalls (scan : WaitScan MetadataFate) : WaitProgress :=
  { examined := scan.due.length + scan.examined
    settled := scan.due.length + scan.answered.countP (·.isSettled)
    routed := scan.answered.countP fun fate => !fate.isSettled
    moreWork := scan.moreWork }

/-- Due waiters do not count as examined. -/
def ofViews (scan : WaitScan MetadataFate) : WaitProgress :=
  { examined := scan.examined
    settled := scan.due.length + scan.answered.length
    routed := 0
    moreWork := scan.moreWork }

end WaitProgress

/-! ## Calls -/

/-- How waiting requests are failed. -/
def requestPolicy {α : Type*} (request : α → Request) : WaitPolicy α MetadataFate where
  expired := fun waiting => .failed (request waiting) .deadlineExceeded
  refused := fun callLimit byteLimit waiting =>
    .failed (request waiting) (.routeCapacityReached callLimit.get byteLimit.get)

/-- Establish the deadline of a request and queue it, or fail it. -/
def admitRequest {α : Type*} (w : Waiters α) (subject : Request → α) (origin : α → Request)
    (bytes : Request → ℕ) (request : Request) (now : Moment) :
    Waiters α × List MetadataFate × Bool :=
  match request.establishDeadline now with
  | .error failure => (w, [.failed request failure], false)
  | .ok (request, deadline) =>
    if deadline ≤ now then (w, [.failed request .deadlineExceeded], false)
    else w.admitEntry (requestPolicy origin) (subject request) (bytes request) deadline

/-- A call that waits for the leader of a partition. -/
structure WaitingPartitionCall where
  topic : TopicName
  partition : PartitionId
  request : Request

abbrev PartitionWaiters := Waiters WaitingPartitionCall

namespace PartitionWaiters

/-- The charge of a call : its request and the heap bytes of its topic. -/
def waitingBytes (topicHeapBytes : ℕ) (request : Request) : ℕ :=
  min (request.retainedBytes + topicHeapBytes) u64Max

/-- Keep a call for a partition. -/
def admitCall (w : PartitionWaiters) (topic : TopicName) (topicHeapBytes : ℕ)
    (partition : PartitionId) (request : Request) (now : Moment) :
    PartitionWaiters × List MetadataFate × Bool :=
  admitRequest w (fun request => ⟨topic, partition, request⟩) (·.request)
    (waitingBytes topicHeapBytes) request now

/-- Route a call whose leader is known, and fail one whose topic is not being fetched. -/
def examine (waiting : WaitingPartitionCall) : Option MetadataFate :=
  match machine.current.bind fun s => s.partitionRoute waiting.topic waiting.partition with
  | some route => some (.partitionRouted waiting.request route)
  | none =>
    if machine.queryPending (.topic waiting.topic) then none
    else some (.failed waiting.request .routeUnavailable)

/-- Look at calls within a budget. -/
def scanCalls (build : Build) (w : PartitionWaiters) (machine : MetadataMachine) (now : Moment)
    (budget : NonZeroUsize) : PartitionWaiters × WaitScan MetadataFate :=
  w.scan build (requestPolicy (·.request)) now budget (examine machine)

end PartitionWaiters

/-- A call that waits for the controller or a broker. -/
structure WaitingControllerCall where
  target : ClusterRouteTarget
  request : Request

abbrev ControllerWaiters := Waiters WaitingControllerCall

namespace ControllerWaiters

/-- Keep a call for a broker. -/
def admitCall (w : ControllerWaiters) (target : ClusterRouteTarget) (request : Request)
    (now : Moment) : ControllerWaiters × List MetadataFate × Bool :=
  admitRequest w (fun request => ⟨target, request⟩) (·.request) (·.retainedBytes) request now

def resolve : ClusterRouteTarget → Option BrokerRoute
  | .controller => machine.current.bind (·.controllerRoute)
  | .broker brokerId => machine.current.bind fun s => s.brokers.routeTo brokerId

/-- Route a call whose route is known, and fail one while the cluster is not being fetched. -/
def examine (waiting : WaitingControllerCall) : Option MetadataFate :=
  match resolve machine waiting.target with
  | some route => some (.controllerRouted waiting.request waiting.target route)
  | none =>
    if machine.queryPending .cluster then none
    else some (.failed waiting.request .routeUnavailable)

/-- Look at calls within a budget. -/
def scanCalls (build : Build) (w : ControllerWaiters) (machine : MetadataMachine) (now : Moment)
    (budget : NonZeroUsize) : ControllerWaiters × WaitScan MetadataFate :=
  w.scan build (requestPolicy (·.request)) now budget (examine machine)

end ControllerWaiters

/-! ## Views -/

/-- A demand for a view. `retainedBytes` are the bytes of the demand, its topic, its result and
its completion. -/
structure TopicViewWait where
  topic : TopicName
  requirement : TopicViewRequirement
  deadline : Moment
  retainedBytes : ℕ
  completion : ℕ

/-- A queued demand, with the failure of a fetch that ends it. -/
structure WaitingTopicView where
  topic : TopicName
  requirement : TopicViewRequirement
  completion : ℕ
  terminal : Option TopicViewError
  deriving DecidableEq

namespace WaitingTopicView

def complete (waiting : WaitingTopicView) (result : Except TopicViewError TopicView) :
    MetadataFate :=
  .viewed waiting.topic waiting.requirement waiting.completion result

end WaitingTopicView

abbrev TopicViewWaiters := Waiters WaitingTopicView

namespace TopicViewWaiters

/-- What views are told. -/
def policy : WaitPolicy WaitingTopicView MetadataFate where
  expired := fun waiting => waiting.complete (.error .deadlineExceeded)
  refused := fun callLimit byteLimit waiting =>
    waiting.complete (.error (.capacityReached callLimit.get byteLimit.get))

def admitView (w : TopicViewWaiters) (waiting : TopicViewWait) :
    TopicViewWaiters × List MetadataFate × Bool :=
  w.admitEntry policy ⟨waiting.topic, waiting.requirement, waiting.completion, none⟩
    waiting.retainedBytes waiting.deadline

/-- Note the first failure of a fetch on every demand it ends. -/
def markTerminal (w : TopicViewWaiters) (topic : TopicName) (evidence : EvidenceStamp)
    (terminal : TopicViewError) : TopicViewWaiters :=
  { w with
    calls := w.calls.iterMut fun charged =>
      if charged.value.topic = topic ∧
          charged.value.requirement.acceptsTerminalFrom evidence = true then
        { charged with
          value := { charged.value with terminal := charged.value.terminal.or (some terminal) } }
      else charged }

/-- The view of a demand, if the current snapshot has it and is recent enough. -/
def projected (reserve : ℕ → Bool) (machine : MetadataMachine) (topic : TopicName)
    (requirement : TopicViewRequirement) : Except TopicViewError (Option TopicView) :=
  match machine.current.filter fun s => requirement.satisfiedBy s topic with
  | none => .ok none
  | some s => TopicView.fromSnapshot reserve s topic

/-- A view has the count and the leaders of a snapshot that is recent enough. -/
theorem projected_eq {reserve : ℕ → Bool} {m : MetadataMachine} {topic : TopicName}
    {requirement : TopicViewRequirement} {view : TopicView}
    (h : projected reserve m topic requirement = .ok (some view)) :
    ∃ s, m.current = some s ∧ requirement.satisfiedBy s topic = true ∧ view.topic = topic ∧
      view.available = (s.leadersOf topic).map TopicView.project ∧
      ∃ n, s.topicCounts.find topic = some n ∧ view.topicId = n.topicId ∧
        view.logicalPartitionCount = n.count.get := by
  unfold projected at h
  split at h
  · cases h
  rename_i s recent
  obtain ⟨cur, hs⟩ := Option.filter_eq_some_iff.1 recent
  unfold TopicView.fromSnapshot at h
  split at h
  · cases h
  rename_i n hf
  split_ifs at h
  cases h
  exact ⟨s, cur, hs, rfl, rfl, n, hf, rfl, rfl⟩

/-- Complete a demand that failed, that the snapshot answers, or whose topic is not being
fetched. -/
def examine (reserve : ℕ → Bool) (machine : MetadataMachine) (waiting : WaitingTopicView) :
    Option MetadataFate :=
  match waiting.terminal with
  | some error => some (waiting.complete (.error error))
  | none =>
    match projected reserve machine waiting.topic waiting.requirement with
    | .ok (some view) => some (waiting.complete (.ok view))
    | .error error => some (waiting.complete (.error error))
    | .ok none =>
      if machine.queryPending (.topic waiting.topic) then none
      else some (waiting.complete (.error .unavailable))

/-- Look at views within a budget. -/
def scanViews (build : Build) (reserve : ℕ → Bool) (w : TopicViewWaiters)
    (machine : MetadataMachine) (now : Moment) (budget : NonZeroUsize) :
    TopicViewWaiters × WaitScan MetadataFate :=
  w.scan build policy now budget (examine reserve machine)

end TopicViewWaiters

/-! ## Barriers -/

/-- The callers that wait for newer evidence on one route. -/
structure PendingInvalidation where
  target : InvalidationTarget
  subscribers : List ℕ
  deriving DecidableEq

/-- Callers that wait for a refresh. -/
structure MetadataInvalidations where
  pending : List PendingInvalidation
  capacity : NonZeroUsize
  subscriberCount : ℕ
  scanRemaining : ℕ

/-- What joining came to. -/
inductive InvalidationJoin where
  | missing
  | joined
  | full

variable (i : MetadataInvalidations) (target : InvalidationTarget) (machine : MetadataMachine)

/-- What a barrier is told, if anything : newer evidence came, or none can come. -/
def InvalidationTarget.settled : Option InvalidationDisposition :=
  if !target.isPending machine.revocations then some .applied
  else if machine.queryPending target.query then none
  else some .unavailable

namespace MetadataInvalidations

def new (capacity : NonZeroUsize) : MetadataInvalidations := ⟨[], capacity, 0, 0⟩

def hasCapacity : Bool := i.subscriberCount < i.capacity.get

/-- Subscribe to the first barrier of the route. -/
def join (isSame : InvalidationTarget → Bool) (completion : ℕ) :
    MetadataInvalidations × InvalidationJoin :=
  match i.pending.findIdx? fun pending => isSame pending.target with
  | none => (i, .missing)
  | some index =>
    if !i.hasCapacity then (i, .full)
    else
      ({ i with
          pending := i.pending.modify index fun pending =>
            { pending with subscribers := pending.subscribers ++ [completion] }
          subscriberCount := i.subscriberCount + 1 },
        .joined)

def joinController (route : BrokerRoute) (completion : ℕ) :
    MetadataInvalidations × InvalidationJoin :=
  i.join (·.matchesController route) completion

def joinPartition (route : PartitionRoute) (completion : ℕ) :
    MetadataInvalidations × InvalidationJoin :=
  i.join (·.matchesPartition route) completion

/-- Subscribe to the barrier of a target. -/
def joinTarget (completion : ℕ) : MetadataInvalidations × InvalidationJoin :=
  match target with
  | .controller route => i.joinController route completion
  | .partition route => i.joinPartition route completion

/-- A new barrier with its first subscriber. -/
def push (completion : ℕ) : MetadataInvalidations :=
  { i with
    pending := i.pending ++ [⟨target, [completion]⟩]
    subscriberCount := i.subscriberCount + 1 }

/-- Subscribe to the barrier of a target, or make one. -/
def subscribe (completion : ℕ) : MetadataInvalidations × List MetadataFate :=
  match i.joinTarget target completion with
  | (i, .joined) => (i, [])
  | (i, .full) => (i, [.invalidated completion .capacityReached])
  | (i, .missing) =>
    if i.hasCapacity then (i.push target completion, [])
    else (i, [.invalidated completion .capacityReached])

/-- Look at every barrier again. -/
def beginScan : MetadataInvalidations :=
  { i with scanRemaining := i.pending.length }

/-- Examine barriers from the front. -/
def examineLoop (machine : MetadataMachine) :
    ℕ → MetadataInvalidations → MetadataInvalidations × List MetadataFate
  | 0, i => (i, [])
  | count + 1, i =>
    match i.pending with
    | [] => ({ i with scanRemaining := 0 }, [])
    | barrier :: rest =>
      match barrier.target.settled machine with
      | some disposition =>
        match examineLoop machine count
          { i with
            pending := rest
            scanRemaining := wrappingPred i.scanRemaining
            subscriberCount := wrappingSub i.subscriberCount barrier.subscribers.length } with
        | (i, fates) =>
          (i, barrier.subscribers.map (.invalidated · disposition) ++ fates)
      | none =>
        examineLoop machine count
          { i with
            pending := rest ++ [barrier]
            scanRemaining := wrappingPred i.scanRemaining }

/-- One turn over the barriers. -/
def scan (budget : NonZeroUsize) : MetadataInvalidations × List MetadataFate × WaitProgress :=
  let examined := min i.scanRemaining budget.get
  let rest := i.examineLoop machine examined
  (rest.1, rest.2,
    { examined, settled := rest.2.length, routed := 0, moreWork := rest.1.scanRemaining ≠ 0 })

/-- Tell every caller. -/
def failAll (i : MetadataInvalidations) : MetadataInvalidations × List MetadataFate :=
  ({ i with pending := [], subscriberCount := 0, scanRemaining := 0 },
    i.pending.flatMap fun barrier => barrier.subscribers.map (.invalidated · .unavailable))

end MetadataInvalidations

end KafkaDriver
