import KafkaDriver.ClusterRoutes
import KafkaDriver.ClusterSeed

/-!
# Runs of the cluster runtime

A `ClusterCall` is one operation of the runtime together with what the environment answers
to it. A turn of the reactor is a sequence of such calls : `drive` expires and serves some
routes and the seed, lets lanes run (`driveLane`), installs one route and notes failures.
Which routes a turn selects and in what order is left open, so the runs below contain every
schedule of the turns.

`stamp` is a draw from the causal sequence by another owner in the reactor.
-/

namespace KafkaDriver

open ClusterRuntime

inductive ClusterCall where
  | installDirectory (directory : BrokerDirectory)
  | submitRoute (route : BrokerRoute) (effectId : Option EffectId) (request : Request)
      (now : Moment) (reply : LaneReply)
  | completeRouteResolution (lane : BrokerLane) (outcome : DnsOutcome) (factory : LaneFactory)
  | driveRouteInstalls (factory : LaneFactory) (drain : DirectRefreshOwner → LaneReply)
      (now : Moment)
  | syncRouteFailures
  | expireRoute (lane : BrokerLane) (now : Moment)
  | serviceFailedRoute (lane : BrokerLane) (now : Moment)
  | admitOneRoute (lane : BrokerLane) (now : Moment) (reply : LaneReply)
  | driveLane (owner : DirectRefreshOwner) (reply : LaneReply)
  | submitSeed (request : Request) (now : Moment) (reply : LaneReply)
  | expireSeedWaiting (now : Moment) (budget : ℕ)
  | serviceSeedWaiting (now : Moment) (replies : List LaneReply)
  | installResolvedSeed (factory : LaneFactory) (seed : ResolvedSeed)
  | replaceResolvedSeed (factory : LaneFactory) (seed : ResolvedSeed)
  | retryPendingResolvedSeed (factory : LaneFactory)
  | prepareSeedBootstrapRestart (fenced : Bool) (drain : LaneReply)
  | markSeedBootstrapResolutionOwned
  | beginClusterDrain (drain : DirectRefreshOwner → LaneReply)
  | stamp

/-- What a call answers : a DNS request to make, or nothing the runs look at. -/
inductive ClusterAnswer where
  | resolve (request : Option (BrokerLane × DnsRequest))
  | done
  deriving DecidableEq

namespace ClusterRuntime

/-- Let the lane of an owner run. -/
def tryDriveLane (owner : DirectRefreshOwner) (reply : LaneReply) : Host Unit := do
  let index ← Fallible.query (·.index owner)
  modify fun r => r.modifyLane index (·.evolve reply.change)
  if reply.failed then throw .laneFailed else pure ()

/-- Draw a stamp for another owner. -/
def drawStamp : Host Unit := do
  let r ← get
  match r.causality.outcome with
  | none => throw .causalityExhausted
  | some (causality, _) => set { r with causality }

/-- The operation a call stands for. -/
def host (build : Build) : ClusterCall → Host ClusterAnswer
  | .installDirectory directory => (fun _ => .done) <$> installDirectory build directory
  | .submitRoute route effectId request now reply =>
    .resolve <$> submitRoute build route effectId request now reply
  | .completeRouteResolution lane outcome factory =>
    (fun _ => .done) <$> completeRouteResolution build lane outcome factory
  | .driveRouteInstalls factory drain now =>
    (fun _ => .done) <$> driveRouteInstalls build factory drain now
  | .syncRouteFailures => (fun _ => .done) <$> syncRouteFailures
  | .expireRoute lane now => (fun _ => .done) <$> expireRoute lane now
  | .serviceFailedRoute lane now =>
    (fun _ => .done) <$> finishHostResult build (serviceFailedRoute build lane now)
  | .admitOneRoute lane now reply =>
    (fun _ => .done) <$> finishHostResult build (admitOneRoute build lane now reply)
  | .driveLane owner reply =>
    (fun _ => .done) <$> finishHostResult build (tryDriveLane owner reply)
  | .submitSeed request now reply => (fun _ => .done) <$> submitSeed build request now reply
  | .expireSeedWaiting now budget => (fun _ => .done) <$> expireSeedWaiting build now budget
  | .serviceSeedWaiting now replies =>
    (fun _ => .done) <$> finishHostResult build (serviceSeedWaiting build now replies)
  | .installResolvedSeed factory seed =>
    (fun _ => .done) <$> installResolvedSeed build factory seed
  | .replaceResolvedSeed factory seed =>
    (fun _ => .done) <$> replaceResolvedSeed build factory seed
  | .retryPendingResolvedSeed factory =>
    (fun _ => .done) <$> retryPendingResolvedSeed build factory
  | .prepareSeedBootstrapRestart fenced drain =>
    (fun _ => .done) <$> prepareSeedBootstrapRestart build fenced drain
  | .markSeedBootstrapResolutionOwned =>
    (fun _ => .done) <$> markSeedBootstrapResolutionOwned build
  | .beginClusterDrain drain => (fun _ => .done) <$> beginClusterDrain build drain
  | .stamp => (fun _ => .done) <$> drawStamp

def step (build : Build) (r : ClusterRuntime) (call : ClusterCall) :
    ClusterRuntime × Except HostError ClusterAnswer :=
  match host build call r with
  | .ok answer r' => (r', .ok answer)
  | .error e r' => (r', .error e)

abbrev ClusterEvent := Runs.Event ClusterRuntime ClusterCall (Except HostError ClusterAnswer)

/-- The steps of a run from a new runtime. -/
def run (build : Build) (driver : DriverLimits) (calls : List ClusterCall) : List ClusterEvent :=
  Runs.trace (step build) (new driver) calls

/-- The runtime after a run. -/
def after (build : Build) (driver : DriverLimits) (calls : List ClusterCall) : ClusterRuntime :=
  Runs.final (step build) (new driver) calls

end ClusterRuntime

end KafkaDriver
