import KafkaDriver.ClusterRuntime

/-!
# Route operations of the cluster runtime

`installDirectory` adopts a newer directory, `submitRoute` takes a call for a route,
`completeRouteResolution` takes a DNS outcome, `driveRouteInstalls` makes one step towards
the lanes that pending installations ask for, and `syncRouteFailures` notes connection
failures of installed lanes in their routes. The remaining operations are the services one
route gets in a turn.

A function `tryX` is the body of `X`, which passes its failures to `finishHostResult`.
-/

namespace KafkaDriver

open Fallible

namespace ClusterRuntime

/-! ## Directory -/

variable (build : Build) (r : ClusterRuntime) (directory : BrokerDirectory) (lane : BrokerLane)
  (route : BrokerRoute) (endpoint : BrokerEndpoint)

/-- What a directory advertises for a lane. -/
def advertised : Option AdvertisedRoute :=
  (directory.routeTo lane.brokerId).bind fun route =>
    match directory.resolve route with
    | .ok entry => some ⟨route, entry.endpoint⟩
    | .error _ => none

/-- The endpoint advertised for a route. -/
def resolveRoute : Option BrokerEndpoint :=
  r.directory.bind fun directory =>
    match directory.resolve route with
    | .ok entry => some entry.endpoint
    | .error _ => none

def routeIsCurrent : Bool :=
  r.resolveRoute route = some endpoint

/-- Bring one route state to a directory. -/
def readvertise (state : BrokerRouteState) : BrokerRouteState × List RequestFate :=
  match advertised directory state.lane with
  | none => state.retire build
  | some current => state.retainRoute build current.route current.endpoint

/-- Bring every route state to a directory and keep those it or a family still needs. -/
def adoptDirectory : ClusterRuntime :=
  { r with
    directory := some directory
    routes := (r.routes.map fun _ state => (readvertise build directory state).1).filter
      fun lane state => state.advertised.isSome || (r.families.get lane.brokerId).isSome
    fates := r.fates ++ r.routes.entries.flatMap fun e => (readvertise build directory e.2).2 }

/-- Take a newer directory. -/
def tryInstallDirectory : Host Bool := do
  let r ← get
  if r.driver.maxBrokers.get < directory.len then throw .directoryCapacityExceeded
  else
    match r.directory with
    | none =>
      modify (·.adoptDirectory build directory)
      pure true
    | some current =>
      if current = directory then pure false
      else if current.generation = directory.generation then throw .directoryGenerationDiverged
      else if directory.generation < current.generation then pure false
      else
        modify (·.adoptDirectory build directory)
        pure true

def installDirectory : Host Bool :=
  finishHostResult build (tryInstallDirectory build directory)

/-- Room for one more route state : four lanes for each broker, twice that while old families
keep theirs. -/
def hasRouteRoom : Bool :=
  (r.routes.entries.countP fun e => e.2.advertised.isSome) < r.driver.maxBrokers.get * 4 ∧
    r.routes.size < r.driver.maxBrokers.get * 4 * 2

/-- Make room for a route. -/
def insertRouteState : Host Bool := do
  let r ← get
  if (r.routes.get lane).isSome then pure true
  else if r.hasRouteRoom then
    modify fun r => { r with routes := r.routes.insert lane (.new lane route endpoint r.driver) }
    pure true
  else pure false

/-- Replace a route state and note what it decided for requests. -/
def putRoute (state : BrokerRouteState) (fates : List RequestFate) : Host Unit :=
  modify fun r => { r with routes := r.routes.insert lane state, fates := r.fates ++ fates }

/-! ## Submission -/

def failCurrentRouteRequest {α : Type} (request : Request) (error : HostError) : Host α := do
  failRequest request .identityConflict none
  throw error

def failStaleRoute (request : Request) : Host (Option (BrokerLane × DnsRequest)) := do
  failRequest request .routeUnavailable none
  pure none

variable (state : BrokerRouteState) (effectId : Option EffectId) (request : Request)
  (brokerId : BrokerId) (now : Moment) (target : BrokerId)

/-- Queue a call with its route. -/
def admitToRoute : Host Bool := do
  match state.waiting.admitCall request now with
  | (waiting, fates, admitted) =>
    putRoute lane { state with waiting } fates
    pure admitted

/-- Start a DNS lookup for a route. -/
def startRouteResolution (effectId : EffectId) : Host DnsRequest := do
  match (← get).routes.get lane with
  | none => throw .routeStateStale
  | some state =>
    match state.reserveDnsEpoch with
    | none => throw .dnsEpochExhausted
    | some (state, epoch) =>
      match state.resolution.apply (.start route endpoint epoch effectId) with
      | (resolution, transition) =>
        putRoute lane { state with resolution } []
        match transition.effects with
        | [.resolve request] => pure request
        | _ => throw .resolutionStartDiverged

/-- Give a call to the lane of its route, or queue it behind the calls that wait already. -/
def submitToPhysical (owner : DirectRefreshOwner) (request : Request) (now : Moment)
    (reply : LaneReply) : Host (Option (BrokerLane × DnsRequest)) := do
  match (← get).routes.get lane with
  | none => failCurrentRouteRequest request .routeStateStale
  | some state =>
    let state := state.markInstalled route endpoint owner
    putRoute lane state []
    if !state.waiting.isEmpty then
      let _ ← admitToRoute lane state request now
      pure none
    else
      let r ← get
      match r.slots.get owner with
      | none => failCurrentRouteRequest request .laneOwnerStale
      | some index =>
        match r.lanes[index]? with
        | none => failCurrentRouteRequest request .laneOwnerStale
        | some physical =>
          match physical.terminalAdmissionFailure with
          | some failure =>
            failRequest request failure none
            pure none
          | none =>
            if !physical.canAdmitPublic then
              let _ ← admitToRoute lane state request now
              pure none
            else
              submitToLane index physical request now reply
              pure none

/-- Submission to a route the directory resolves to `endpoint`, once its state is there. -/
def submitToRoute (physical : Option DirectRefreshOwner) (needsResolution : Bool)
    (effectId : Option EffectId) (request : Request) (now : Moment) (reply : LaneReply) :
    Host (Option (BrokerLane × DnsRequest)) := do
  match (← get).routes.get lane with
  | none => failCurrentRouteRequest request .routeStateStale
  | some state =>
    match state.retainRoute build route endpoint with
    | (state, fates) =>
      putRoute lane state fates
      match request.rejectsAfterRouteFailure, state.routeFailureAt with
      | true, some observedAt =>
        failRequest request .notReady (some observedAt)
        pure none
      | _, _ =>
        match physical with
        | some owner => submitToPhysical lane route endpoint owner request now reply
        | none =>
          let admitted ← admitToRoute lane state request now
          match admitted && needsResolution, effectId with
          | true, some effectId =>
            let resolution ← startRouteResolution lane route endpoint effectId
            pure (some (lane, resolution))
          | _, _ => pure none

variable (reply : LaneReply)

/-- Queue a call for a route. -/
def trySubmitRoute : Host (Option (BrokerLane × DnsRequest)) := do
  let r ← get
  if r.clusterDraining then
    failRequest request .draining none
    pure none
  else
    match r.resolveRoute route with
    | none => failStaleRoute request
    | some endpoint =>
      let lane : BrokerLane := ⟨route.brokerId, request.trafficClass⟩
      match r.currentPhysicalOwner lane endpoint with
      | .error error => failCurrentRouteRequest request error
      | .ok physical =>
        let needsResolution := match r.routes.get lane with
          | none => physical.isNone
          | some state => state.needsResolution route endpoint physical.isSome
        if needsResolution && effectId.isNone then
          failCurrentRouteRequest request .resolutionPermitMissing
        else
          let inserted ← insertRouteState lane route endpoint
          if inserted then
            submitToRoute build lane route endpoint physical needsResolution effectId request now
              reply
          else failStaleRoute request

def submitRoute : Host (Option (BrokerLane × DnsRequest)) :=
  finishHostResult build (trySubmitRoute build route effectId request now reply)

/-! ## Resolution -/

/-- What a DNS answer came to. -/
inductive RouteResolutionProgress where
  | ignored
  | failed (failure : DnsFailure)
  | deferred (pending : PendingInstall)
  | activated (owner : DirectRefreshOwner)

def routeInstallMustDefer : Bool :=
  match r.families.get lane.brokerId with
  | some family => family.retiring ∨ family.endpoint ≠ endpoint
  | none => r.familyCapacity ≤ r.families.size

/-- Record a failed lookup. -/
def finishResolutionFailure (failure : DnsFailure) : Host RouteResolutionProgress := do
  let r ← get
  match r.routes.get lane with
  | none => pure .ignored
  | some state =>
    if state.advertised.any fun current =>
        current.route = route && r.routeIsCurrent route current.endpoint then
      match ({ state with
          lastDnsFailure := some failure
          pendingInstall := none } : BrokerRouteState).failWaiting build
            (.nameResolutionFailed failure) none with
      | (state, fates) =>
        putRoute lane state fates
        pure (.failed failure)
    else pure .ignored

def installResolution (pending : PendingInstall) (factory : LaneFactory) :
    Host RouteResolutionProgress := do
  let r ← get
  match r.routes.get lane with
  | none => pure .ignored
  | some state =>
    if r.routeIsCurrent pending.route pending.endpoint &&
        state.advertises pending.route pending.endpoint then
      if r.routeInstallMustDefer lane pending.endpoint then
        putRoute lane { state with lastDnsFailure := none, pendingInstall := some pending } []
        pure (.deferred pending)
      else
        let owner ← match ← query (·.currentPhysicalOwner lane pending.endpoint) with
          | some owner => pure owner
          | none => activateResolvedLane lane pending.endpoint factory
        putRoute lane (state.markInstalled pending.route pending.endpoint owner) []
        pure (.activated owner)
    else pure .ignored

/-- Take a DNS answer. -/
def tryCompleteRouteResolution (outcome : DnsOutcome) (factory : LaneFactory) :
    Host RouteResolutionProgress := do
  let r ← get
  if r.clusterDraining then pure .ignored
  else
    match r.routes.get lane with
    | none => pure .ignored
    | some state =>
      match state.resolution.state with
      | .resolving route endpoint _ _ =>
        if state.advertises route endpoint && r.routeIsCurrent route endpoint then
          match state.resolution.apply (.resolutionCompleted outcome) with
          | (resolution, transition) =>
            putRoute lane { state with resolution } []
            match transition.effects with
            | [] => pure .ignored
            | [.failed route failure] => finishResolutionFailure build lane route failure
            | [.resolved route epoch endpoint addresses] =>
              installResolution lane ⟨route, epoch, endpoint, addresses⟩ factory
            | _ => throw .resolutionCompletionDiverged
        else pure .ignored
      | _ => pure .ignored

def completeRouteResolution (outcome : DnsOutcome) (factory : LaneFactory) :
    Host RouteResolutionProgress :=
  finishHostResult build (tryCompleteRouteResolution build lane outcome factory)

/-! ## Installation -/

/-- A lane a route waits for. -/
structure RouteDemand where
  lane : BrokerLane
  pending : PendingInstall

/-- A route state taken out of the map while a family is published for it. -/
structure OwnedDemand where
  lane : BrokerLane
  pending : PendingInstall
  state : BrokerRouteState

variable (demands : List RouteDemand) (factory : LaneFactory) (retire : Option BrokerId)
  (drain : DirectRefreshOwner → LaneReply) (owned : List OwnedDemand)

/-- What the pending installations of a broker ask for. -/
structure RouteDemands where
  target : Option BrokerEndpoint
  stale : List BrokerLane
  demands : List RouteDemand

/-- Collect the pending installations of a broker in lane order. -/
def collectDemands (r : ClusterRuntime) (brokerId : BrokerId) (now : Moment) :
    List (BrokerLane × BrokerRouteState) → RouteDemands → Except HostError RouteDemands
  | [], found => .ok found
  | (lane, state) :: rest, found =>
    match state.pendingInstall with
    | none => r.collectDemands brokerId now rest found
    | some pending =>
      if lane.brokerId ≠ brokerId then r.collectDemands brokerId now rest found
      else if !state.advertises pending.route pending.endpoint ||
          !r.routeIsCurrent pending.route pending.endpoint then
        r.collectDemands brokerId now rest { found with stale := found.stale ++ [lane] }
      else if found.target.any fun endpoint => endpoint ≠ pending.endpoint then
        .error .pendingEndpointsDiverged
      else
        r.collectDemands brokerId now rest
          { found with
            target := some pending.endpoint
            demands :=
              if state.waiting.hasLiveAfter now then found.demands ++ [⟨lane, pending⟩]
              else found.demands }

/-- Drop the pending installations of the lanes. -/
def clearPending (lanes : List BrokerLane) : ClusterRuntime :=
  { r with
    routes := r.routes.map fun lane state =>
      if lane ∈ lanes then { state with pendingInstall := none } else state }

def currentRouteDemands : Host (Option BrokerEndpoint × List RouteDemand) := do
  let found ← query fun r => r.collectDemands brokerId now r.routes.entries ⟨none, [], []⟩
  modify (·.clearPending found.stale)
  pure (found.target, found.demands)

def familyIsAdvertised : Bool :=
  (r.directory.bind (·.routeTo brokerId)).isSome

/-- The first family of a broker the directory no longer names that can make room : one to
remove, one to retire, else one that is retiring already. -/
def victimAmong (r : ClusterRuntime) (target : BrokerId) :
    List (BrokerId × BrokerFamily) → Option BrokerId → Except HostError (Option BrokerId)
  | [], blocked => .ok blocked
  | (brokerId, family) :: rest, blocked =>
    if brokerId = target ∨ r.familyIsAdvertised brokerId then r.victimAmong target rest blocked
    else do
      if ← r.familyReclaimable brokerId then .ok (some brokerId)
      else if !family.retiring then .ok (some brokerId)
      else r.victimAmong target rest (blocked.or (some brokerId))

/-- The family to give way. -/
def replacementVictim : Except HostError (Option BrokerId) :=
  r.victimAmong target r.families.entries none

/-- Put back the states that were taken out. -/
def restoreRouteStates : ClusterRuntime :=
  { r with routes := owned.foldl (fun routes d => routes.insert d.lane d.state) r.routes }

/-- Take the states of the demands out of the map. -/
def takeRouteStates : List RouteDemand → List OwnedDemand → Host (List OwnedDemand)
  | [], owned => pure owned
  | demand :: rest, owned => do
    match (← get).routes.get demand.lane with
    | none =>
      modify (·.restoreRouteStates owned)
      throw .routeStateStale
    | some state =>
      if state.pendingInstall = some demand.pending then
        modify fun r => { r with routes := r.routes.erase demand.lane }
        takeRouteStates rest (owned ++ [⟨demand.lane, demand.pending, state⟩])
      else
        modify (·.restoreRouteStates owned)
        throw .pendingRouteEvidenceChanged

/-- Give the first demand a lane of the family that is there already. -/
def activatePendingLanes : Host Bool := do
  match demands with
  | [] => pure false
  | demand :: _ =>
    let owned ← takeRouteStates [demand] []
    match owned with
    | [taken] =>
      let owner ← onError (·.restoreRouteStates owned)
        (activateResolvedLane taken.lane taken.pending.endpoint factory)
      putRoute taken.lane
        (taken.state.markInstalled taken.pending.route taken.pending.endpoint owner) []
      pure true
    | _ => throw .routeStateStale

def ensureFamilyReplacementCapacity : Except HostError Unit :=
  if (r.families.get target).isSome ≠ (retire = some target : Bool) then
    .error .replacementOwnershipDiverged
  else if r.families.size < retire.isSome.toNat then .error .replacementCountOverflowed
  else if r.familyCapacity < r.families.size - retire.isSome.toNat + 1 then
    .error .familyCapacityReached
  else .ok ()

def preflightFamilyPublication (demandCount : ℕ) : Except HostError Unit := do
  r.ensureFamilyReplacementCapacity brokerId retire
  let retired ← match retire with
    | none => .ok 0
    | some retired =>
      if retired ≠ brokerId ∧ r.familyIsAdvertised retired then .error .advertisedFamilySelected
      else do
        if ← r.familyReclaimable retired then r.familyActiveCount retired
        else .error .retiredFamilyNotReclaimable
  r.ensureLaneCapacity (r.lanes.length - retired + demandCount)

/-- Start one lane for each demand; the lanes join the runtime only at the commit. -/
def startPendingLanes (factory : LaneFactory) (owners : TrafficClass → DirectRefreshOwner) :
    List OwnedDemand → Host (List DirectLane)
  | [] => pure []
  | demand :: rest => do
    let lane ← startClusterLane factory (owners demand.lane.trafficClass)
    let lanes ← startPendingLanes factory owners rest
    pure (lane :: lanes)

/-- Publish one lane of the new family and give its route state back. -/
def commitLane (owners : TrafficClass → DirectRefreshOwner) (r : ClusterRuntime)
    (demand : OwnedDemand) (lane : DirectLane) : ClusterRuntime :=
  { r.pushLane lane with
    routes := r.routes.insert demand.lane
      (demand.state.markInstalled demand.pending.route demand.pending.endpoint
        (owners demand.lane.trafficClass)) }

/-- Install a family's lanes. -/
def commitPendingFamily (r : ClusterRuntime) (brokerId : BrokerId) (endpoint : BrokerEndpoint)
    (owners : TrafficClass → DirectRefreshOwner) (owned : List OwnedDemand)
    (lanes : List DirectLane) : ClusterRuntime :=
  let cleared : ClusterRuntime :=
    { r with
      routes := r.routes.map fun _ state =>
        if state.lane.brokerId = brokerId then state.clearInstalled else state }
  let committed := (owned.zip lanes).foldl (fun r e => r.commitLane owners e.1 e.2) cleared
  { committed with
    families := committed.families.insert brokerId
      (owned.foldl (fun family d => family.markActive d.lane.trafficClass)
        (.new endpoint owners)) }

/-- Remove the family that makes room, if one has to. -/
def removeRetired : Host (List OwnedDemand) := do
  match retire with
  | none => pure owned
  | some retired =>
    let removed ← onError (·.restoreRouteStates owned) (removeTerminalFamily retired)
    if removed then
      if retired = brokerId then
        pure (owned.map fun d => { d with state := d.state.clearInstalled })
      else pure owned
    else
      modify (·.restoreRouteStates owned)
      throw .retiredFamilyBusy

/-- Publish a waiting family. -/
def publishPendingFamily (retire : Option BrokerId) (endpoint : BrokerEndpoint)
    (demands : List RouteDemand) (factory : LaneFactory) : Host Bool := do
  query (·.preflightFamilyPublication brokerId retire demands.length)
  if demands.all fun demand => factory.atResolved demand.lane then
    let owned ← takeRouteStates demands []
    let owners ← onError (·.restoreRouteStates owned) (familyOwners <$> reserveEndpointLanes 4)
    let r ← get
    if TrafficClass.all.any fun traffic => r.ownerIsReserved (owners traffic) then
      modify (·.restoreRouteStates owned)
      throw .laneOwnerReused
    else
      let owned ← removeRetired brokerId retire owned
      let lanes ← onError (·.restoreRouteStates owned) (startPendingLanes factory owners owned)
      modify fun r => r.commitPendingFamily brokerId endpoint owners owned lanes
      pure true
  else throw .planUnavailable

/-- Remove a retired family. -/
def reapRetiringFamily : Host Bool := do
  let r ← get
  match r.families.get brokerId with
  | none => pure false
  | some family =>
    if family.retiring then
      if ← query (·.familyReclaimable brokerId) then removeTerminalFamily brokerId
      else pure false
    else pure false

/-- Replace a family of another endpoint, one stage at a time : retire it, wait for its
lanes to end, then remove it or publish its successor. -/
def reconcileStaleFamily (family : BrokerFamily) (endpoint : BrokerEndpoint)
    (demands : List RouteDemand) (factory : LaneFactory) (drain : DirectRefreshOwner → LaneReply) :
    Host Bool := do
  if !family.retiring then beginFamilyRetirement brokerId drain
  else if ← query (·.familyReclaimable brokerId) then
    if demands.isEmpty then removeTerminalFamily brokerId
    else publishPendingFamily brokerId (some brokerId) endpoint demands factory
  else pure false

/-- Publish a first family, in the room of another one if there is none left. -/
def reconcileNewFamily (endpoint : BrokerEndpoint) (demands : List RouteDemand)
    (factory : LaneFactory) (drain : DirectRefreshOwner → LaneReply) : Host Bool := do
  let r ← get
  if demands.isEmpty then pure false
  else if r.families.size < r.familyCapacity then
    publishPendingFamily brokerId none endpoint demands factory
  else
    match ← query (·.replacementVictim brokerId) with
    | none => throw .noRetiredFamilyCapacity
    | some victim =>
      if (r.families.get victim).any (·.retiring) then
        if ← query (·.familyReclaimable victim) then
          publishPendingFamily brokerId (some victim) endpoint demands factory
        else pure false
      else beginFamilyRetirement victim drain

/-- Serve one broker's demands. -/
def reconcileRouteFamily (endpoint : BrokerEndpoint) (demands : List RouteDemand)
    (factory : LaneFactory) (drain : DirectRefreshOwner → LaneReply) : Host Bool := do
  match (← get).families.get brokerId with
  | some family =>
    if family.retiring ∨ family.endpoint ≠ endpoint then
      reconcileStaleFamily brokerId family endpoint demands factory drain
    else activatePendingLanes demands factory
  | none => reconcileNewFamily brokerId endpoint demands factory drain

/-! ### Which broker is next -/

def advanceCursor (cursor selected lanes : ℕ) : ℕ :=
  let cursor := cursor % lanes
  let tail := lanes - cursor
  if selected < tail then cursor + selected else selected - tail

/-- The broker has a pending installation that its family does not serve, or waiting calls
behind one. -/
def asksForInstall : Bool :=
  match state.pendingInstall with
  | none => false
  | some pending =>
    !state.waiting.isEmpty || (r.families.get state.lane.brokerId).any fun family =>
      family.retiring ∨ family.endpoint ≠ pending.endpoint

/-- Brokers with installation work, ascending. -/
def routeInstallWorkBrokers : List BrokerId :=
  let asking := (r.routes.entries.filter fun e => r.asksForInstall e.2).map (·.2.lane.brokerId)
  let retiring := (r.families.entries.filter fun e => e.2.retiring).map Prod.fst
  ((asking ++ retiring).foldl (fun s b => s.insert b ()) (.empty : OrdMap BrokerId Unit)).keys

def pendingEndpoint : Option BrokerEndpoint :=
  (r.routes.entries.filter fun e => e.2.lane.brokerId = brokerId).findSome? fun e =>
    e.2.pendingInstall.map (·.endpoint)

/-- `family_reclaimable(..).unwrap_or(true)`. -/
def reclaimableOrDiverged : Bool :=
  match r.familyReclaimable brokerId with
  | .ok reclaimable => reclaimable
  | .error _ => true

def brokerInstallCanProgress : Bool :=
  match r.pendingEndpoint brokerId, r.families.get brokerId with
  | none, none => false
  | none, some family => family.retiring && r.reclaimableOrDiverged brokerId
  | some _, some family => !family.retiring || r.reclaimableOrDiverged brokerId
  | some _, none =>
    if r.families.size < r.familyCapacity then true
    else
      match r.replacementVictim brokerId with
      | .ok (some victim) => (r.families.get victim).any fun family =>
          !family.retiring || r.reclaimableOrDiverged victim
      | .ok none => false
      | .error _ => true

/-- The next broker to serve. -/
def nextRouteInstallBroker : Host (Option BrokerId) := do
  let r ← get
  let brokers := r.routeInstallWorkBrokers
  match brokers with
  | [] =>
    set { r with routeInstallCursor := 0 }
    pure none
  | _ :: _ =>
    let start := r.routeInstallCursor % brokers.length
    let order := (List.range brokers.length).map fun offset =>
      advanceCursor start offset brokers.length
    match order.find? fun i => (brokers[i]?).any r.brokerInstallCanProgress with
    | none => pure none
    | some i =>
      set { r with routeInstallCursor := advanceCursor i 1 brokers.length }
      pure brokers[i]?

/-- Serve one broker. -/
def tryDriveRouteInstalls (now : Moment) : Host Bool := do
  match ← nextRouteInstallBroker with
  | none => pure false
  | some brokerId =>
    match ← currentRouteDemands brokerId now with
    | (none, _) => reapRetiringFamily brokerId
    | (some endpoint, demands) => reconcileRouteFamily brokerId endpoint demands factory drain

def driveRouteInstalls (now : Moment) : Host Bool :=
  finishHostResult build (tryDriveRouteInstalls factory drain now)

/-! ## Connection failures -/

/-- The broker state of the lane installed for a route. -/
def installedBroker : Option BrokerState :=
  (state.installed.bind fun installed => SlotTable.find r.lanes r.slots installed.owner).map
    (·.lifecycle.state)

/-- Note what a probe found in one route. -/
def syncRoute (broker : Option BrokerState) : Host Bool := do
  let r ← get
  match r.routes.get lane with
  | none => pure false
  | some state =>
    match broker.bind BrokerState.failedEpoch with
    | some epoch =>
      if state.lastConnectionFailureEpoch = some epoch then pure false
      else
        let state := { state with lastConnectionFailureEpoch := some epoch }
        match r.causality.outcome with
        | none =>
          putRoute lane state []
          throw .causalityExhausted
        | some (causality, stamp) =>
          set { r with
            causality
            routes := r.routes.insert lane { state with routeFailureAt := some stamp } }
          pure true
    | none =>
      match broker, state.routeFailureAt with
      | some (.available _), some _ =>
        if state.waiting.isEmpty then
          putRoute lane { state with routeFailureAt := none } []
          pure true
        else pure false
      | _, _ => pure false

def syncRoutes : List (BrokerLane × Option BrokerState) → Host Bool
  | [] => pure false
  | (lane, broker) :: rest => do
    let progress ← syncRoute lane broker
    let others ← syncRoutes rest
    pure (progress || others)

/-- The lanes of all routes with the broker states found at the start of the call. -/
def probes : List (BrokerLane × Option BrokerState) :=
  r.routes.entries.map fun e => (e.1, r.installedBroker e.2)

/-- Stamp each newly lost epoch. -/
def syncRouteFailures : Host Bool := do
  syncRoutes (← get).probes

/-! ## Services of one route -/

/-- Fail one due call of a route. -/
def expireRoute : Host Bool := do
  match (← get).routes.get lane with
  | none => pure false
  | some state =>
    match state.waiting.expireDueBounded now state.routeFailureAt 1 with
    | (waiting, fates) =>
      putRoute lane { state with waiting } fates
      pure !fates.isEmpty

/-- Why a route's calls end. -/
def routeTerminalFailure : Except HostError (Option RequestError) :=
  match r.routes.get lane with
  | none => .ok none
  | some state =>
    if r.clusterDraining then .ok (some .draining)
    else
      match state.advertised with
      | none => .ok none
      | some current => do
        match ← r.currentPhysicalOwner lane current.endpoint with
        | none => .ok none
        | some owner =>
          let index ← r.index owner
          .ok ((r.lanes[index]?).bind DirectLane.terminalAdmissionFailure)

/-- Fail one call of a route whose lane ended, or that refuses to wait for a failed one. -/
def serviceFailedRoute : Host Bool := do
  let terminal ← query (·.routeTerminalFailure lane)
  match (← get).routes.get lane with
  | none => pure false
  | some state =>
    match terminal, state.routeFailureAt with
    | some failure, observedAt =>
      match state.waiting.failBounded build failure observedAt 1 with
      | (waiting, fates) =>
        putRoute lane { state with waiting } fates
        pure !fates.isEmpty
    | none, some observedAt =>
      match state.waiting.rejectFailedRouteOne build now observedAt with
      | (waiting, fates, worked) =>
        putRoute lane { state with waiting } fates
        pure worked
    | none, none => pure false

/-- Hand one call of a route to its ready lane. -/
def admitOneRoute : Host Bool := do
  let r ← get
  match (r.routes.get lane).bind fun state => state.advertised.map fun a => (state, a) with
  | none => pure false
  | some (state, current) =>
    match ← query (·.currentPhysicalOwner lane current.endpoint) with
    | none => pure false
    | some owner =>
      let index ← query (·.index owner)
      match r.lanes[index]? with
      | none => pure false
      | some physical =>
        if !physical.canAdmitPublic then pure false
        else
          match state.waiting.pop build now state.routeFailureAt with
          | (waiting, fates, .empty) =>
            putRoute lane { state with waiting, routeFailureAt := none } fates
            pure false
          | (waiting, fates, .settled) =>
            putRoute lane { state with waiting, routeFailureAt := none } fates
            pure true
          | (waiting, fates, .ready request) =>
            putRoute lane { state with waiting } fates
            submitToLane index physical request now reply
            putRoute lane { state with waiting, routeFailureAt := none } []
            pure true

end ClusterRuntime

end KafkaDriver
