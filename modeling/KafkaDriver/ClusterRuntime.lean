import KafkaDriver.Fallible
import KafkaDriver.LaneAdmission
import KafkaDriver.RouteState
import KafkaDriver.SlotTable

/-!
# The cluster runtime

A `ClusterRuntime` owns the physical lanes of one cluster and the semantic routes over them.
Lanes lie in a dense list with an index by owner (`SlotTable`). A `BrokerFamily` reserves
one owner for each traffic class of a broker and marks the classes that have a lane.

An operation is a `Host`, an `EStateM` over the runtime : what it changed before it failed
stays changed. Every public operation ends with `finishHostResult`; a failure is fatal to the
host and fails every call that still waits.

The environment is a `LaneFactory`, which says whether a plan can be built and how a lane
opens, and a `LaneReply` for each operation of a lane. `fates` collects what was decided for
requests, `causality` is the reactor's sequence.
-/

namespace KafkaDriver

open Fallible

/-! ## Identities -/

/-- Why an operation of the host fails. -/
inductive HostError where
  | endpointIdentitiesExhausted
  | laneIdentitiesExhausted
  | directoryCapacityExceeded
  | directoryGenerationDiverged
  | resolutionPermitMissing
  | routeStateStale
  | resolutionStartDiverged
  | resolutionCompletionDiverged
  | dnsEpochExhausted
  | familyEndpointChanged
  | familyCapacityReached
  | familyStale
  | familyLaneStateDiverged
  | laneCapacityExceeded
  | laneOwnerReused
  | laneOwnerStale
  | activationPreflightDiverged
  | planUnavailable
  | laneFailed
  | pendingEndpointsDiverged
  | pendingRouteEvidenceChanged
  | noRetiredFamilyCapacity
  | retiredFamilyBusy
  | retiredFamilyNotReclaimable
  | advertisedFamilySelected
  | replacementOwnershipDiverged
  | replacementCountOverflowed
  | causalityExhausted
  | laneSlotDiverged
  | laneClaimedTwice
  | laneUnclaimed
  | seedOwnerStale
  | seedInstalled
  | seedNotInstalled
  | seedBootstrapStale
  | seedBootstrapDiverged
  | seedRefreshDiverged
  | seedRetirementRetained
  deriving DecidableEq

/-- Endpoint and lane numbers are handed out once, in order. -/
structure BorneraIdentityAllocator where
  nextEndpoint : Option ℕ
  nextLane : Option ℕ

namespace BorneraIdentityAllocator

/-- The first identities are 1. -/
def new : BorneraIdentityAllocator := ⟨some 1, some 1⟩

/-- A new endpoint with `count` lanes, the `k`-th of them `owners k`. -/
def reserveEndpointLanes (ids : BorneraIdentityAllocator) (count : ℕ) :
    Except HostError (BorneraIdentityAllocator × (ℕ → DirectRefreshOwner)) :=
  match ids.nextEndpoint, ids.nextLane with
  | none, _ => .error .endpointIdentitiesExhausted
  | some _, none => .error .laneIdentitiesExhausted
  | some endpoint, some lane =>
    if u32Max < lane + (count - 1) then .error .laneIdentitiesExhausted
    else
      .ok (⟨checkedSucc endpoint, if lane + count ≤ u32Max then some (lane + count) else none⟩,
        fun k => ⟨endpoint, lane + k⟩)

end BorneraIdentityAllocator

/-! ## Families, seed and runtime -/

/-- The lanes of one broker, one owner for each traffic class. -/
structure BrokerFamily where
  endpoint : BrokerEndpoint
  owners : TrafficClass → DirectRefreshOwner
  active : TrafficClass → Bool
  retiring : Bool

namespace BrokerFamily

/-- A family without lanes. -/
def new (endpoint : BrokerEndpoint) (owners : TrafficClass → DirectRefreshOwner) : BrokerFamily :=
  ⟨endpoint, owners, fun _ => false, false⟩

/-- A class gets its lane. -/
def markActive (f : BrokerFamily) (traffic : TrafficClass) : BrokerFamily :=
  { f with active := Function.update f.active traffic true }

/-- Whether an owner is of the family. -/
def contains (f : BrokerFamily) (owner : DirectRefreshOwner) : Bool :=
  TrafficClass.all.any fun traffic => f.owners traffic = owner

end BrokerFamily

/-- What a family has for a class. -/
inductive FamilyLaneState where
  | active (owner : DirectRefreshOwner) (index : ℕ)
  | dormant

/-- The lane used before a directory is known, and the pass that resolved it. -/
structure SeedSlot where
  owner : DirectRefreshOwner
  generation : ConnectionEpoch
  deriving DecidableEq

/-- How far the seed's own pass has come. -/
inductive SeedBootstrapState where
  | inactive
  | restartPending (seed : SeedSlot)
  | resolutionOwned (seed : SeedSlot)

/-- Why calls for the seed end, if they do. -/
structure SeedWaitingState where
  queuedFailure : Option RequestError
  draining : Bool

namespace SeedWaitingState

/-- Calls may wait. -/
def «open» : SeedWaitingState := ⟨none, false⟩

/-- The failure calls already queued get. -/
def queuedCallFailure (s : SeedWaitingState) : Option RequestError :=
  s.queuedFailure.or (if s.draining then some .draining else none)

/-- The failure a new call gets. -/
def admissionFailure (s : SeedWaitingState) : Option RequestError :=
  (if s.draining then some .draining else none).or s.queuedFailure

/-- Whether the seed must stay. -/
def blocksReplacement (s : SeedWaitingState) (hasWaiters : Bool) : Bool :=
  s.draining || (s.queuedFailure.isSome && hasWaiters)

/-- Whether calls may wait. -/
def isOpen (s : SeedWaitingState) : Bool := !s.draining && s.queuedFailure.isNone

end SeedWaitingState

/-- Seed, families and routes of a cluster. -/
structure ClusterRuntime where
  driver : DriverLimits
  identities : BorneraIdentityAllocator
  lanes : List DirectLane
  slots : OrdMap DirectRefreshOwner ℕ
  families : OrdMap BrokerId BrokerFamily
  directory : Option BrokerDirectory
  routes : OrdMap BrokerLane BrokerRouteState
  routeInstallCursor : ℕ
  seed : Option SeedSlot
  pendingResolvedSeed : Option ResolvedSeed
  seedBootstrap : SeedBootstrapState
  seedWaiting : PendingRequests
  seedWaitingState : SeedWaitingState
  clusterDraining : Bool
  causality : CausalSequence
  fates : List RequestFate

/-- An operation of the runtime. -/
abbrev Host (α : Type) := EStateM HostError ClusterRuntime α

/-- What the plan factory and the connection set answer : whether the plan of a broker lane
or of the seed can be built, its backoff, and how the lane of an owner opens. -/
structure LaneFactory where
  atResolved : BrokerLane → Bool
  seedAtResolved : Bool
  backoff : BackoffPolicy
  start : DirectRefreshOwner → Option LaneChange

namespace ClusterRuntime

/-- A runtime without lanes. -/
def new (driver : DriverLimits) : ClusterRuntime where
  driver := driver
  identities := .new
  lanes := []
  slots := .empty
  families := .empty
  directory := none
  routes := .empty
  routeInstallCursor := 0
  seed := none
  pendingResolvedSeed := none
  seedBootstrap := .inactive
  seedWaiting := .new driver.waitingCalls driver.waitingBytes
  seedWaitingState := .open
  clusterDraining := false
  causality := .new
  fates := []

variable (r : ClusterRuntime) (factory : LaneFactory) (owner : DirectRefreshOwner)
  (lane : DirectLane) (brokerId : BrokerId)

/-- How many families there may be. -/
def familyCapacity : ℕ := r.driver.maxBrokers.get

/-- `max_connections` of the shared set : every class of every broker, and the seed. -/
def laneCapacity : ℕ := r.driver.maxBrokers.get * 4 + 1

/-- The position of a lane. -/
def index (r : ClusterRuntime) (owner : DirectRefreshOwner) : Except HostError ℕ :=
  match r.slots.get owner with
  | some index => .ok index
  | none => .error .laneOwnerStale

/-! ## Recording -/

/-- Tell callers. -/
def record (fates : List RequestFate) : Host Unit :=
  modify fun r => { r with fates := r.fates ++ fates }

/-- Fail a call. -/
def failRequest (request : Request) (failure : RequestError)
    (observedAt : Option OutcomeStamp) : Host Unit :=
  record [.failed request failure observedAt]

/-! ## Lanes -/

/-- Check that there is room for the lanes. -/
def ensureLaneCapacity (lanes : ℕ) : Except HostError Unit :=
  if r.laneCapacity < lanes then .error .laneCapacityExceeded else .ok ()

/-- Draw owners for an endpoint's lanes. -/
def reserveEndpointLanes (count : ℕ) : Host (ℕ → DirectRefreshOwner) := fun r =>
  match r.identities.reserveEndpointLanes count with
  | .ok (identities, owners) => .ok owners { r with identities }
  | .error e => .error e r

/-- Let the factory open a lane. -/
def startClusterLane : Host DirectLane := do
  match factory.start owner with
  | none => throw .laneFailed
  | some opening =>
    let r ← get
    pure (.started owner factory.backoff
      (.new r.driver.mailboxCapacity r.driver.mailboxByteCapacity) opening)

/-- A lane at the end. -/
def pushLane : ClusterRuntime :=
  { r with lanes := r.lanes ++ [lane], slots := r.slots.insert lane.owner r.lanes.length }

/-- Take a lane out and move the last in its place. -/
def removeAt (index : ℕ) : ClusterRuntime :=
  match SlotTable.swapOut DirectLane.owner r.lanes r.slots owner index with
  | (lanes, slots) => { r with lanes, slots }

/-- Change the lane at `index`. -/
def modifyLane (index : ℕ) (f : DirectLane → DirectLane) : ClusterRuntime :=
  { r with lanes := r.lanes.modify index f }

/-- Give a request to the lane at `index`. -/
def submitToLane (index : ℕ) (lane : DirectLane) (request : Request) (now : Moment)
    (reply : LaneReply) : Host Unit := do
  match lane.submitRequest request now reply with
  | (lane, fates, failed) =>
    modify fun r => { r.modifyLane index fun _ => lane with fates := r.fates ++ fates }
    if failed then throw .laneFailed else pure ()

/-- Add a lane under its reserved owner. -/
def insertReserved : Host DirectRefreshOwner := do
  let r ← get
  query fun r => r.ensureLaneCapacity (r.lanes.length + 1)
  if (r.slots.get owner).isSome then throw .laneOwnerReused
  else
    let lane ← startClusterLane factory owner
    modify (·.pushLane lane)
    pure owner

/-! ## Family lanes -/

/-- Positions of the lanes of `owner`. -/
def positions : List ℕ :=
  (r.lanes.zipIdx.filter fun e => e.1.owner = owner).map Prod.snd

/-- The lane of a class, checked against the tables. -/
def familyLaneState (family : BrokerFamily) (traffic : TrafficClass) :
    Except HostError FamilyLaneState :=
  let owner := family.owners traffic
  match family.active traffic, r.slots.get owner, r.positions owner with
  | true, some index, [actual] =>
    if index = actual then .ok (.active owner index) else .error .familyLaneStateDiverged
  | false, none, [] => .ok .dormant
  | _, _, _ => .error .familyLaneStateDiverged

/-- The lane that serves a route. -/
def currentPhysicalOwner (lane : BrokerLane) (endpoint : BrokerEndpoint) :
    Except HostError (Option DirectRefreshOwner) :=
  match r.families.get lane.brokerId with
  | none => .ok none
  | some family =>
    if family.retiring ∨ family.endpoint ≠ endpoint then .ok none
    else
      match r.familyLaneState family lane.trafficClass with
      | .ok (.active owner _) => .ok (some owner)
      | .ok .dormant => .ok none
      | .error e => .error e

/-! ### Activation -/

/-- What activating a class takes. -/
inductive Activation where
  | active (owner : DirectRefreshOwner)
  | dormant (owner : DirectRefreshOwner)
  | new

/-- Find out what it takes. -/
def preflightActivation (traffic : TrafficClass) (endpoint : BrokerEndpoint) :
    Except HostError Activation :=
  match r.families.get brokerId with
  | some family =>
    if family.retiring ∨ family.endpoint ≠ endpoint then .error .familyEndpointChanged
    else do
      match ← r.familyLaneState family traffic with
      | .active owner _ => .ok (.active owner)
      | .dormant =>
        r.ensureLaneCapacity (r.lanes.length + 1)
        .ok (.dormant (family.owners traffic))
  | none =>
    if r.familyCapacity ≤ r.families.size then .error .familyCapacityReached
    else do
      r.ensureLaneCapacity (r.lanes.length + 1)
      .ok .new

/-- Whether an owner is in use. -/
def ownerIsReserved : Bool :=
  (r.slots.get owner).isSome || r.families.entries.any fun e => e.2.contains owner

/-- The owners a new family reserves, one for each class in stable order. -/
def familyOwners (owners : ℕ → DirectRefreshOwner) (traffic : TrafficClass) : DirectRefreshOwner :=
  owners traffic.stableOrder

/-- Open the lane of a class. -/
def startActivation (brokerId : BrokerId) (traffic : TrafficClass) (activation : Activation)
    (endpoint : BrokerEndpoint) (factory : LaneFactory) : Host DirectRefreshOwner := do
  match activation with
  | .dormant owner =>
    let lane ← startClusterLane factory owner
    modify fun r =>
      { r.pushLane lane with families := r.families.adjust brokerId (·.markActive traffic) }
    pure owner
  | .new =>
    let owners ← familyOwners <$> reserveEndpointLanes 4
    let r ← get
    if TrafficClass.all.any fun traffic => r.ownerIsReserved (owners traffic) then
      throw .laneOwnerReused
    else
      let lane ← startClusterLane factory (owners traffic)
      modify fun r =>
        { r.pushLane lane with
          families := r.families.insert brokerId
            ((BrokerFamily.new endpoint owners).markActive traffic) }
      pure (owners traffic)
  | .active _ => throw .activationPreflightDiverged

/-- The lane of a class, opened if need be. -/
def activateResolvedLane (lane : BrokerLane) (endpoint : BrokerEndpoint)
    (factory : LaneFactory) : Host DirectRefreshOwner := do
  match ← query (·.preflightActivation lane.brokerId lane.trafficClass endpoint) with
  | .active owner => pure owner
  | activation =>
    if factory.atResolved lane then
      startActivation lane.brokerId lane.trafficClass activation endpoint factory
    else throw .planUnavailable

/-! ### Retirement and removal -/

/-- The active lanes of a family, with their positions. -/
def familyRemovals : Except HostError (List (ℕ × DirectRefreshOwner)) :=
  match r.families.get brokerId with
  | none => .error .familyStale
  | some family =>
    TrafficClass.all.foldrM (fun traffic removals => do
      match ← r.familyLaneState family traffic with
      | .active owner index => .ok ((index, owner) :: removals)
      | .dormant => .ok removals) []

/-- Whether the lane at a position has ended. -/
def reclaimableAt (index : ℕ) : Bool :=
  (r.lanes[index]?).any DirectLane.reclaimable

/-- Whether all lanes of a family have. -/
def familyReclaimable : Except HostError Bool :=
  (r.familyRemovals brokerId).map fun removals => removals.all fun e => r.reclaimableAt e.1

/-- How many lanes a family has. -/
def familyActiveCount : Except HostError ℕ :=
  (r.familyRemovals brokerId).map List.length

/-- Remove the lanes from the highest position down, so that the lower ones stay put. -/
def removeLanes (removals : List (ℕ × DirectRefreshOwner)) : ClusterRuntime :=
  (removals.insertionSort fun a b => b.1 ≤ a.1).foldl (fun r e => r.removeAt e.2 e.1) r

/-- Forget a family and what routes hold of it. -/
def dropFamily : ClusterRuntime :=
  { r with
    families := r.families.erase brokerId
    routes := (r.routes.filter fun lane state =>
        lane.brokerId ≠ brokerId ∨ state.advertised.isSome).map fun _ state =>
      if state.lane.brokerId = brokerId then state.clearInstalled else state }

/-- Remove a family that has ended. -/
def removeTerminalFamily : Host Bool := do
  let removals ← query (·.familyRemovals brokerId)
  let r ← get
  if removals.all fun e => r.reclaimableAt e.1 then
    modify fun r => (r.removeLanes removals).dropFamily brokerId
    pure true
  else pure false

/-- Drain the lanes of a retiring family that did not end yet. -/
def drainLanes (drain : DirectRefreshOwner → LaneReply) :
    List (ℕ × DirectRefreshOwner) → Host Unit
  | [] => pure ()
  | (index, owner) :: rest => do
    let r ← get
    if (r.lanes[index]?).any DirectLane.isTerminal then drainLanes drain rest
    else
      modify fun r => r.modifyLane index (·.evolve (drain owner).change)
      if (drain owner).failed then throw .laneFailed else drainLanes drain rest

/-- Drain a family that is no longer used. -/
def beginFamilyRetirement (drain : DirectRefreshOwner → LaneReply) : Host Bool := do
  let removals ← query (·.familyRemovals brokerId)
  match (← get).families.get brokerId with
  | none => throw .familyStale
  | some family =>
    if family.retiring then pure false
    else
      modify fun r =>
        { r with families := r.families.adjust brokerId fun f => { f with retiring := true } }
      drainLanes drain removals
      pure true

/-! ## Fatal errors -/

/-- Position of the seed lane. -/
def seedLaneIndex : Except HostError (Option ℕ) :=
  match r.seed with
  | none => .ok none
  | some seed =>
    match r.slots.get seed.owner with
    | none => .error .seedOwnerStale
    | some index =>
      match r.lanes[index]? with
      | none => .error .seedOwnerStale
      | some lane => if lane.owner = seed.owner then .ok (some index) else .error .seedOwnerStale

/-- The failure a terminal seed lane leaves to waiting calls. A requested close leaves none :
it only makes room for a replacement. -/
def seedTerminalFailure : Option RequestError :=
  match lane.lifecycle.state with
  | .closed .requested => none
  | _ => lane.terminalAdmissionFailure

/-- Note the failure of an ended seed. -/
def captureSeedTerminalFailure : Except HostError ClusterRuntime :=
  if r.seedWaitingState.isOpen then do
    match ← r.seedLaneIndex with
    | none => .ok r
    | some index =>
      match (r.lanes[index]?).bind seedTerminalFailure with
      | none => .ok r
      | some failure =>
        .ok { r with seedWaitingState := { r.seedWaitingState with queuedFailure := some failure } }
  else .ok r

/-- Fail every call that waits for the seed. -/
def totalizeSeedWaiting (build : Build) (r : ClusterRuntime) : ClusterRuntime :=
  let failure := r.seedWaitingState.queuedCallFailure.getD .closed
  let state : SeedWaitingState :=
    if r.seedWaitingState.queuedCallFailure.isNone then
      { r.seedWaitingState with queuedFailure := some .closed }
    else r.seedWaitingState
  match r.seedWaiting.failAll build failure with
  | (seedWaiting, fates) =>
    { r with seedWaiting, seedWaitingState := state, fates := r.fates ++ fates }

/-- Fail every call that waits for a route. -/
def totalizeRouteWaiting (build : Build) (r : ClusterRuntime) : ClusterRuntime :=
  { r with
    routes := r.routes.map fun _ state => (state.failWaiting build .closed state.routeFailureAt).1
    fates := r.fates ++ r.routes.entries.flatMap fun e =>
      (e.2.failWaiting build .closed e.2.routeFailureAt).2 }

/-- End all that waits after a fatal error. -/
def totalizeAfterHostFailure (build : Build) (r : ClusterRuntime) : ClusterRuntime :=
  let r : ClusterRuntime := { r with pendingResolvedSeed := none }
  let r := match r.captureSeedTerminalFailure with
    | .ok captured => captured
    | .error _ => r
  (r.totalizeSeedWaiting build).totalizeRouteWaiting build

/-- A failure is fatal : it leaves no call waiting. -/
def finishHostResult {α : Type} (build : Build) (x : Host α) : Host α :=
  onError (·.totalizeAfterHostFailure build) x

end ClusterRuntime

end KafkaDriver
