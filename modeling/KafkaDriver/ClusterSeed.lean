import KafkaDriver.ClusterRuntime

/-!
# The seed of the cluster runtime

The seed is the one lane that belongs to no broker : calls go to it before a directory is
known. Its calls wait outside the lane, so that they survive its replacement by a seed of a
newer bootstrap pass.
-/

namespace KafkaDriver

open Fallible

namespace ClusterRuntime

/-- `capture_seed_terminal_failure` as an operation. -/
def captureSeed : Host Unit := fun r =>
  match r.captureSeedTerminalFailure with
  | .ok captured => .ok () captured
  | .error e => .error e r

/-! ## Waiting calls -/

variable (build : Build) (request : Request) (now : Moment)

/-- Let a call wait for the seed. -/
def pushSeedWaiting : Host Unit :=
  modify fun r =>
    match r.seedWaiting.push request now with
    | (seedWaiting, fates) => { r with seedWaiting, fates := r.fates ++ fates }

/-- Hand a call to the seed, or let it wait. -/
def trySubmitSeed (reply : LaneReply) : Host Unit := do
  onError (fun r => { r with fates := r.fates ++ [.failed request .identityConflict none] })
    captureSeed
  let r ← get
  match r.seedWaitingState.admissionFailure with
  | some failure => failRequest request failure none
  | none =>
    match r.seedLaneIndex with
    | .error error =>
      failRequest request .identityConflict none
      throw error
    | .ok none => pushSeedWaiting request now
    | .ok (some index) =>
      match r.lanes[index]? with
      | none => throw .seedOwnerStale
      | some lane =>
        if lane.canAdmitPublic then submitToLane index lane request now reply
        else pushSeedWaiting request now

variable (factory : LaneFactory) (seed : ResolvedSeed) (r : ClusterRuntime)

/-- `trySubmitSeed`, cleaning up a failure. -/
def submitSeed (reply : LaneReply) : Host Unit :=
  finishHostResult build (trySubmitSeed request now reply)

/-- Hand waiting calls to a ready seed lane, at most one for each reply. -/
def admitSeedWaiting (build : Build) (now : Moment) : List LaneReply → Host Unit
  | [] => pure ()
  | reply :: replies => do
    let r ← get
    match ← query (·.seedLaneIndex) with
    | none => pure ()
    | some index =>
      match r.lanes[index]? with
      | none => throw .seedOwnerStale
      | some lane =>
        if lane.canAdmitPublic then
          match r.seedWaiting.pop build with
          | (_, none) => pure ()
          | (seedWaiting, some request) =>
            set { r with seedWaiting }
            submitToLane index lane request now reply
            admitSeedWaiting build now replies
        else pure ()

/-- Deliver the failure of an ended seed to waiting calls; the number of calls failed. -/
def settleFailedSeedWaiting (budget : ℕ) : Host ℕ := modifyGet fun r =>
  match r.seedWaitingState.queuedCallFailure with
  | none => (0, r)
  | some failure =>
    match r.seedWaiting.failBounded build failure budget with
    | (seedWaiting, fates) =>
      (fates.length, { r with seedWaiting, fates := r.fates ++ fates })

/-- Fail calls for the seed that waited too long. -/
def expireSeedWaiting (budget : ℕ) : Host Unit := do
  let terminal ← settleFailedSeedWaiting build budget
  modify fun r =>
    if r.seedWaitingState.isOpen then
      match r.seedWaiting.expireDue now (budget - terminal) with
      | (seedWaiting, fates) => { r with seedWaiting, fates := r.fates ++ fates }
    else r

/-- One turn of the waiting calls under a budget of as many calls as there are replies. -/
def serviceSeedWaiting (replies : List LaneReply) : Host Unit := do
  let terminal ← settleFailedSeedWaiting build replies.length
  if (← get).seedWaitingState.isOpen then admitSeedWaiting build now (replies.drop terminal)
  else pure ()

/-! ## Installation and replacement -/

/-- Put a lane in the seed's place. -/
def installSeed (generation : ConnectionEpoch) (factory : LaneFactory) :
    Host DirectRefreshOwner := do
  if (← get).seed.isSome then throw .seedInstalled
  else
    let owners ← reserveEndpointLanes 1
    let key ← insertReserved factory (owners 0)
    modify fun r => { r with seed := some ⟨key, generation⟩ }
    pure key

/-- Install the seed of a pass. -/
def tryInstallResolvedSeed : Host DirectRefreshOwner := do
  if (← get).seed.isSome then throw .seedInstalled
  else if factory.seedAtResolved then installSeed seed.generation factory
  else throw .planUnavailable

/-- `tryInstallResolvedSeed`, cleaning up a failure. -/
def installResolvedSeed : Host DirectRefreshOwner :=
  finishHostResult build (tryInstallResolvedSeed factory seed)

/-- Whether a pass of the seed is still to begin. -/
def seedBootstrapBlocksReplacement (current : SeedSlot) : Except HostError Bool :=
  match r.seedBootstrap with
  | .inactive => .ok false
  | .restartPending seed => if seed = current then .ok true else .error .seedBootstrapDiverged
  | .resolutionOwned seed => if seed = current then .ok false else .error .seedBootstrapDiverged

/-- Replace the seed lane at `index` by one of a newer pass. -/
def replaceReclaimableSeed (current : SeedSlot) (index : ℕ) (generation : ConnectionEpoch)
    (factory : LaneFactory) : Host Unit := do
  let owners ← reserveEndpointLanes 1
  let lane ← startClusterLane factory (owners 0)
  modify fun r =>
    let lastCloseReason := (r.lanes[index]?).bind (·.status.lastCloseReason)
    { r with
      lanes := r.lanes.set index
        { lane with status := { lane.status with lastCloseReason := lastCloseReason } }
      slots := (r.slots.erase current.owner).insert (owners 0) index
      seed := some ⟨owners 0, generation⟩
      seedWaitingState := { r.seedWaitingState with queuedFailure := none }
      seedBootstrap := .inactive }

/-- Install the seed that was put off. -/
def tryRetryPendingResolvedSeed : Host Bool := do
  let r ← get
  match r.pendingResolvedSeed, r.seed with
  | none, _ => pure false
  | some _, none => throw .seedNotInstalled
  | some pending, some current =>
    if pending.generation ≤ current.generation then
      set { r with pendingResolvedSeed := none }
      pure false
    else if ← query (·.seedBootstrapBlocksReplacement current) then pure false
    else
      captureSeed
      let r ← get
      if r.seedWaitingState.blocksReplacement !r.seedWaiting.isEmpty then pure false
      else
        match ← query (·.seedLaneIndex) with
        | none => throw .seedNotInstalled
        | some index =>
          if r.reclaimableAt index then
            set { r with pendingResolvedSeed := none }
            if factory.seedAtResolved then
              replaceReclaimableSeed current index pending.generation factory
              pure true
            else throw .planUnavailable
          else pure false

/-- `tryRetryPendingResolvedSeed`, cleaning up a failure. -/
def retryPendingResolvedSeed : Host Bool :=
  finishHostResult build (tryRetryPendingResolvedSeed factory)

/-- What became of a replacement. -/
inductive ResolvedSeedReplacement where
  | replaced
  | retained
  | stale

/-- Replace the seed by a newer one. -/
def tryReplaceResolvedSeed : Host ResolvedSeedReplacement := do
  let r ← get
  match r.seed with
  | none => throw .seedNotInstalled
  | some current =>
    let bootstrapBlocked ← query (·.seedBootstrapBlocksReplacement current)
    if seed.generation ≤ current.generation then pure .stale
    else if r.seedWaitingState.draining then pure .stale
    else if r.pendingResolvedSeed.any fun pending => seed.generation ≤ pending.generation then
      pure .stale
    else
      set { r with pendingResolvedSeed := some seed }
      if bootstrapBlocked then pure .retained
      else
        let replaced ← tryRetryPendingResolvedSeed factory
        pure (if replaced then .replaced else .retained)

/-- `tryReplaceResolvedSeed`, cleaning up a failure. -/
def replaceResolvedSeed : Host ResolvedSeedReplacement :=
  finishHostResult build (tryReplaceResolvedSeed factory seed)

/-! ## Bootstrap restart -/

/-- The seed lane waits for fresh addresses. -/
def awaitsAddresses (lane : DirectLane) : Bool :=
  match lane.lifecycle.state with
  | .refreshing _ (.pending _) => true
  | _ => false

/-- Retire a seed whose addresses are used up. `fenced` says whether the lane still holds the
refresh of its own failed epoch. -/
def tryPrepareSeedBootstrapRestart (fenced : Bool) (drain : LaneReply) : Host Bool := do
  captureSeed
  let r ← get
  match r.seedBootstrap, r.seed with
  | .restartPending seed, current | .resolutionOwned seed, current =>
    if current = some seed then pure false else throw .seedBootstrapStale
  | .inactive, none => pure false
  | .inactive, some seed =>
    if !r.seedWaitingState.isOpen then pure false
    else
      let index ← query (·.index seed.owner)
      if !(r.lanes[index]?).any awaitsAddresses then pure false
      else if !fenced then throw .seedRefreshDiverged
      else
        modify fun r => r.modifyLane index (·.evolve drain.change)
        if drain.failed then throw .laneFailed
        else if (← get).reclaimableAt index then
          modify fun r => { r with seedBootstrap := .restartPending seed }
          pure true
        else throw .seedRetirementRetained

/-- `tryPrepareSeedBootstrapRestart`, cleaning up a failure. -/
def prepareSeedBootstrapRestart (fenced : Bool) (drain : LaneReply) : Host Bool :=
  finishHostResult build (tryPrepareSeedBootstrapRestart fenced drain)

/-- The pass of the seed was begun. -/
def tryMarkSeedBootstrapResolutionOwned : Host Unit := do
  captureSeed
  let r ← get
  match r.seedBootstrap with
  | .restartPending seed =>
    if r.seed = some seed then set { r with seedBootstrap := .resolutionOwned seed }
    else throw .seedBootstrapStale
  | .inactive | .resolutionOwned _ => throw .seedBootstrapDiverged

/-- `tryMarkSeedBootstrapResolutionOwned`, cleaning up a failure. -/
def markSeedBootstrapResolutionOwned : Host Unit :=
  finishHostResult build tryMarkSeedBootstrapResolutionOwned

/-! ## Drain -/

/-- Positions claimed by the seed and by active classes of families, in order. -/
def claims : Except HostError (List ℕ) := do
  let seed ← match r.seed with
    | none => .ok []
    | some seed =>
      match r.slots.get seed.owner with
      | none => .error .seedOwnerStale
      | some index => .ok [index]
  let families ← r.families.entries.mapM fun e => r.familyRemovals e.1
  .ok (seed ++ families.flatten.map Prod.fst)

/-- Check that the tables agree. -/
def validateClusterOwnership : Except HostError Unit :=
  if r.slots.size ≠ r.lanes.length then .error .laneSlotDiverged
  else if !(r.lanes.zipIdx.all fun e => r.slots.get e.1.owner = some e.2) then
    .error .laneSlotDiverged
  else do
    let claimed ← r.claims
    if ¬claimed.Nodup then .error .laneClaimedTwice
    else if !((List.range r.lanes.length).all fun i => i ∈ claimed) then .error .laneUnclaimed
    else .ok ()

/-- Close the runtime to new work. -/
def closeAdmission : ClusterRuntime :=
  let r : ClusterRuntime := { r with clusterDraining := true }
  let r := match r.captureSeedTerminalFailure with
    | .ok captured => captured
    | .error _ => r
  { r with
    pendingResolvedSeed := none
    seedWaitingState := { r.seedWaitingState with draining := true }
    seedBootstrap := .inactive
    routes := r.routes.map fun _ state =>
      { state with pendingInstall := none, lastDnsFailure := none, routeFailureAt := none } }

/-- Close the admission and drain every lane. -/
def tryBeginClusterDrain (drain : DirectRefreshOwner → LaneReply) : Host Unit := do
  query (·.validateClusterOwnership)
  modify closeAdmission
  let r ← get
  drainLanes drain (r.lanes.zipIdx.map fun e => (e.2, e.1.owner))

/-- `tryBeginClusterDrain`, cleaning up a failure. -/
def beginClusterDrain (drain : DirectRefreshOwner → LaneReply) : Host Unit :=
  finishHostResult build (tryBeginClusterDrain drain)

end ClusterRuntime

end KafkaDriver
