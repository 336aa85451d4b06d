import KafkaDriver.BrokerResolution
import KafkaDriver.NameResolution
import KafkaDriver.Waiting

/-!
# The state of one broker route

A `BrokerRouteState` outlives the physical lanes of its broker. It holds the route and
endpoint the directory advertises, the physical lane installed for it, the resolution of the
endpoint, an installation that waits for room, and the calls that wait for a lane.
-/

namespace KafkaDriver

structure AdvertisedRoute where
  route : BrokerRoute
  endpoint : BrokerEndpoint
  deriving DecidableEq

structure InstalledRoute where
  route : BrokerRoute
  endpoint : BrokerEndpoint
  owner : DirectRefreshOwner

/-- Resolved addresses that wait for room to install them. -/
structure PendingInstall where
  route : BrokerRoute
  dnsEpoch : ConnectionEpoch
  endpoint : BrokerEndpoint
  addresses : ResolvedAddressSet
  deriving DecidableEq

/-- Limits of the driver that the cluster runtime reads. The last field is what
`cluster_bounds` checks before it builds a runtime. -/
structure DriverLimits where
  maxBrokers : NonZeroUsize
  waitingCalls : NonZeroUsize
  waitingBytes : NonZeroUsize
  admissionBudget : NonZeroUsize
  mailboxCapacity : NonZeroUsize
  mailboxByteCapacity : NonZeroUsize
  lanes_le : maxBrokers.get * 4 + 1 ≤ u32Max

structure BrokerRouteState where
  lane : BrokerLane
  advertised : Option AdvertisedRoute
  installed : Option InstalledRoute
  resolution : BrokerResolutionMachine
  nextDnsEpoch : Option ℕ
  pendingInstall : Option PendingInstall
  waiting : RouteWaiting
  lastDnsFailure : Option DnsFailure
  routeFailureAt : Option OutcomeStamp
  lastConnectionFailureEpoch : Option ConnectionEpoch

namespace BrokerRouteState

def new (lane : BrokerLane) (route : BrokerRoute) (endpoint : BrokerEndpoint)
    (driver : DriverLimits) : BrokerRouteState where
  lane := lane
  advertised := some ⟨route, endpoint⟩
  installed := none
  resolution := .new lane.brokerId
  nextDnsEpoch := some 1
  pendingInstall := none
  waiting := .new driver.waitingCalls driver.waitingBytes driver.admissionBudget
  lastDnsFailure := none
  routeFailureAt := none
  lastConnectionFailureEpoch := none

variable (build : Build) (s : BrokerRouteState) (route : BrokerRoute) (endpoint : BrokerEndpoint)

def advertises : Bool :=
  s.advertised = some ⟨route, endpoint⟩

def isResolving : Bool :=
  match s.resolution.state with
  | .resolving current currentEndpoint _ _ => current = route ∧ currentEndpoint = endpoint
  | _ => false

def pendingIsCurrent : Bool :=
  match s.pendingInstall with
  | some pending => pending.route = route ∧ pending.endpoint = endpoint
  | none => false

def needsResolution (physicalIsCurrent : Bool) : Bool :=
  !physicalIsCurrent && !s.isResolving route endpoint && !s.pendingIsCurrent route endpoint

/-- Fail every waiting call. -/
def failWaiting (failure : RequestError) (observedAt : Option OutcomeStamp) :
    BrokerRouteState × List RequestFate :=
  match s.waiting.failAll build failure observedAt with
  | (waiting, fates) => ({ s with waiting }, fates)

/-- Advertise `route` and drop what belongs to another endpoint. -/
def retainRoute : BrokerRouteState × List RequestFate :=
  let routeChanged := s.advertised.any fun current => current.route ≠ route
  let endpointChanged := s.advertised.any fun current => current.endpoint ≠ endpoint
  let s : BrokerRouteState :=
    { s with
      advertised := some ⟨route, endpoint⟩
      routeFailureAt := if routeChanged then none else s.routeFailureAt
      lastDnsFailure := if routeChanged then none else s.lastDnsFailure
      installed := s.installed.map fun installed =>
        if installed.endpoint = endpoint then { installed with route } else installed
      pendingInstall := s.pendingInstall.bind fun pending =>
        if pending.endpoint = endpoint then some { pending with route } else none }
  if endpointChanged then s.failWaiting build .routeUnavailable none else (s, [])

theorem failWaiting_fst (err : RequestError) (t : Option OutcomeStamp) :
    (s.failWaiting build err t).1 = { s with waiting := (s.waiting.failAll build err t).1 } := rfl

theorem retainRoute_fst :
    (s.retainRoute build route endpoint).1 =
      { s with
        advertised := some ⟨route, endpoint⟩
        routeFailureAt :=
          if s.advertised.any fun cur => cur.route ≠ route then none else s.routeFailureAt
        lastDnsFailure :=
          if s.advertised.any fun cur => cur.route ≠ route then none else s.lastDnsFailure
        installed := s.installed.map fun inst =>
          if inst.endpoint = endpoint then { inst with route } else inst
        pendingInstall := s.pendingInstall.bind fun p =>
          if p.endpoint = endpoint then some { p with route } else none
        waiting :=
          if s.advertised.any fun cur => cur.endpoint ≠ endpoint then
            (s.waiting.failAll build .routeUnavailable none).1
          else s.waiting } := by
  unfold retainRoute
  dsimp only
  split_ifs <;> rfl

/-- A pending installation at the endpoint follows its route. -/
theorem pendingIsCurrent_retainRoute {s : BrokerRouteState} {rt : BrokerRoute}
    {old : BrokerRoute} {endpoint : BrokerEndpoint}
    (cur : s.pendingIsCurrent old endpoint = true) :
    (s.retainRoute build rt endpoint).1.pendingIsCurrent rt endpoint = true := by
  rw [retainRoute_fst]
  unfold pendingIsCurrent at cur ⊢
  cases pending : s.pendingInstall with
  | none =>
    rw [pending] at cur
    cases cur
  | some install =>
    have hs : install.endpoint = endpoint := by
      rw [pending] at cur
      simpa using (of_decide_eq_true cur).2
    simp [hs]

/-- The broker left the directory. -/
def retire : BrokerRouteState × List RequestFate :=
  ({ s with
      advertised := none
      pendingInstall := none
      lastDnsFailure := none
      routeFailureAt := none }).failWaiting build .routeUnavailable none

/-- The next DNS epoch, absent once the counter is exhausted. -/
def reserveDnsEpoch : Option (BrokerRouteState × ConnectionEpoch) :=
  s.nextDnsEpoch.map fun raw => ({ s with nextDnsEpoch := checkedSucc raw }, ⟨raw⟩)

def markInstalled (owner : DirectRefreshOwner) : BrokerRouteState :=
  { s with
    installed := some ⟨route, endpoint, owner⟩
    pendingInstall := none
    lastDnsFailure := none }

def clearInstalled : BrokerRouteState := { s with installed := none }

end BrokerRouteState

end KafkaDriver
