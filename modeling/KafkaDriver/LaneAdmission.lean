import KafkaDriver.BrokerMachine
import KafkaDriver.NameResolution
import KafkaDriver.Waiting

/-!
# Connection lanes and the admission of requests

A `DirectLane` is one physical connection to a broker : the broker machine that replaces its
generations, the requests that wait for it to become ready, and a `LaneStatus` with what
else admission and removal ask of it. Sessions and sockets are the environment : a
`LaneChange` has the inputs they give the broker machine and the status they leave.

`submitRequest` hands a request to a ready lane or queues it, `admitPending` drains the
queue under a budget. Both report the requests they hand over, in order.
-/

namespace KafkaDriver

structure LaneStatus where
  connection : Bool
  pendingRecovery : Bool
  sessionReady : Bool
  admissionOpen : Bool
  terminal : Bool
  lastCloseReason : Option CloseReason
  /-- Whether the lane holds anything else `reclaimable` asks for : an address refresh, a
  proof or authentication under way, a deadline, a turn to run or an operation context. -/
  occupied : Bool

structure DirectLane where
  owner : DirectRefreshOwner
  lifecycle : BrokerMachine
  status : LaneStatus
  pending : PendingRequests

/-- What the environment does to a lane. -/
structure LaneChange where
  inputs : List BrokerInput
  status : LaneStatus

/-- How an operation of a lane ends : what it did to the lane and whether it failed. -/
structure LaneReply where
  change : LaneChange
  failed : Bool

def BrokerState.hasLiveGeneration (s : BrokerState) : Bool :=
  s.phase = .connecting ∨ s.phase = .available ∨ s.phase = .draining

namespace DirectLane

/-- `INITIAL_EPOCH`. -/
def initialEpoch : ConnectionEpoch := ⟨1⟩

/-- A lane that just opened its initial epoch. -/
def started (owner : DirectRefreshOwner) (backoff : BackoffPolicy) (pending : PendingRequests)
    (opening : LaneChange) : DirectLane :=
  ⟨owner, ((BrokerMachine.new initialEpoch backoff).start.1).applyAll opening.inputs,
    opening.status, pending⟩

variable (lane : DirectLane)

def evolve (change : LaneChange) : DirectLane :=
  { lane with lifecycle := lane.lifecycle.applyAll change.inputs, status := change.status }

def isTerminal : Bool :=
  lane.status.terminal || lane.lifecycle.state.phase = .closed

def terminalAdmissionFailure : Option RequestError :=
  if lane.isTerminal then
    match lane.status.lastCloseReason with
    | some (.authenticationFailed failure) =>
      some (.rejected (.connectionClosed (.authenticationFailed failure)) .notSent)
    | _ => some .closed
  else none

def canAdmitPublic : Bool :=
  !lane.status.pendingRecovery && lane.status.connection &&
    lane.lifecycle.state.hasLiveGeneration && lane.status.sessionReady &&
    lane.status.admissionOpen

def reclaimable : Bool :=
  lane.isTerminal && !lane.status.connection && !lane.status.pendingRecovery &&
    lane.pending.isEmpty && !lane.status.admissionOpen && !lane.status.occupied

def submitRequest (request : Request) (now : Moment) (reply : LaneReply) :
    DirectLane × List RequestFate × Bool :=
  match lane.terminalAdmissionFailure with
  | some failure => (lane, [.failed request failure none], false)
  | none =>
    if lane.canAdmitPublic then
      (lane.evolve reply.change, [.admitted request], reply.failed)
    else
      match lane.pending.push request now with
      | (pending, fates) => ({ lane with pending }, fates, false)

/-- Admit queued requests, one for each reply, until the queue is empty, a reply fails or
the lane recovers or ends. -/
def admitLoop (build : Build) : List LaneReply → DirectLane → DirectLane × List RequestFate × Bool
  | [], lane => (lane, [], false)
  | reply :: replies, lane =>
    match lane.pending.pop build with
    | (pending, none) => ({ lane with pending }, [], false)
    | (pending, some request) =>
      let lane := ({ lane with pending }).evolve reply.change
      if reply.failed then (lane, [.admitted request], true)
      else if lane.status.pendingRecovery || lane.status.terminal then
        (lane, [.admitted request], false)
      else
        match admitLoop build replies lane with
        | (lane, fates, failed) => (lane, .admitted request :: fates, failed)

/-- `admit_pending` under a budget of as many requests as there are replies. -/
def admitPending (build : Build) (lane : DirectLane) (replies : List LaneReply) :
    DirectLane × List RequestFate × Bool :=
  if lane.canAdmitPublic then lane.admitLoop build replies else (lane, [], false)

end DirectLane

end KafkaDriver
