import KafkaDriver.Bootstrap
import KafkaDriver.OrdMap

/-!
# Name resolution

`NameResolution` owns the DNS capacity of one shard. A reservation takes a slot of the
pending queue, an effect identity and an entry of the ownership table; the permit it
returns is turned into a request or cancelled. A request the worker has no room for waits
in the pending queue, and `drive` collects outcomes, dispatches each to its owner and
offers waiting requests again.

The worker is the environment : a `Verdict` is its channel's answer to an offered request, a
`DriveTurn` what one `drive` finds in its outcome channel. `Resolver.inFlight` are the
requests it accepted and whose outcome was not collected yet.
-/

namespace KafkaDriver

/-! ## Jitter -/

/-- Splitmix generator of the jitter samples. -/
structure JitterEntropy where
  state : BitVec 64

/-- The next sample of `splitmix64`. -/
def JitterEntropy.nextSample (e : JitterEntropy) : JitterEntropy × ℕ :=
  let state := e.state + 0x9e3779b97f4a7c15#64
  let mixed := (state ^^^ (state >>> 30)) * 0xbf58476d1ce4e5b9#64
  let mixed := (mixed ^^^ (mixed >>> 27)) * 0x94d049bb133111eb#64
  (⟨state⟩, (mixed ^^^ (mixed >>> 31)).toNat)

/-! ## The ownership table -/

/-- Endpoint and lane of a direct address refresh. -/
structure DirectRefreshOwner where
  endpoint : ℕ
  lane : ℕ
  deriving DecidableEq

instance : LinearOrder DirectRefreshOwner :=
  LinearOrder.lift' (fun o => toLex (o.endpoint, o.lane)) fun a b h => by
    obtain ⟨h₁, h₂⟩ := Prod.mk.inj (toLex.injective h)
    cases a
    cases b
    exact congrArg₂ DirectRefreshOwner.mk h₁ h₂

/-- Who asks for a resolution. -/
inductive ResolutionOwner where
  | bootstrap
  | broker (lane : BrokerLane)
  | direct (owner : DirectRefreshOwner)
  deriving DecidableEq

/-- Why a request is not registered. -/
inductive ResolverOwnershipError where
  | capacityReached (limit : ℕ)
  | duplicate

/-- Who asked for which effect. -/
structure ResolverOwnership where
  owners : OrdMap EffectId ResolutionOwner
  capacity : NonZeroUsize

namespace ResolverOwnership

/-- An empty table. -/
def new (capacity : NonZeroUsize) : ResolverOwnership := ⟨.empty, capacity⟩

/-- Enter a request. -/
def register (t : ResolverOwnership) (effectId : EffectId) (owner : ResolutionOwner) :
    ResolverOwnership × Except ResolverOwnershipError Unit :=
  if (t.owners.get effectId).isSome then (t, .error .duplicate)
  else if t.owners.size = t.capacity.get then (t, .error (.capacityReached t.capacity.get))
  else ({ t with owners := t.owners.insert effectId owner }, .ok ())

/-- Take a request out. -/
def remove (t : ResolverOwnership) (effectId : EffectId) :
    ResolverOwnership × Option ResolutionOwner :=
  ({ t with owners := t.owners.erase effectId }, t.owners.get effectId)

end ResolverOwnership

/-- The next effect identity, absent once the `u64` range is used up. -/
structure ResolverEffectIds where
  next : Option ℕ

namespace ResolverEffectIds

/-- The first effect is 1. -/
def new : ResolverEffectIds := ⟨some 1⟩

/-- Draw an effect. -/
def reserve (ids : ResolverEffectIds) : ResolverEffectIds × Option EffectId :=
  match ids.next with
  | none => (ids, none)
  | some raw => (⟨checkedSucc raw⟩, some ⟨raw⟩)

end ResolverEffectIds

/-! ## The worker -/

/-- The bounds of the resolver. -/
structure ResolverLimits where
  requestCapacity : NonZeroUsize
  outcomeBudget : NonZeroUsize
  pendingCapacity : NonZeroUsize

/-- What the worker's request channel answers. -/
inductive Verdict where
  | accepted
  | full
  | closed

/-- Why the worker refuses a request. -/
inductive ResolverSubmitError where
  | full (request : DnsRequest)
  | closed (request : DnsRequest)

/-- How the worker fails. -/
inductive ResolverWorkerError where
  | lost

/-- What collecting came to. -/
structure ResolverProgress where
  outcomes : ℕ
  moreWork : Bool

/-- The reactor's half of the worker, with the requests it still has to answer. -/
structure Resolver where
  outcomeBudget : ℕ
  inFlight : List DnsRequest

namespace Resolver

/-- Hand a request to the worker. -/
def submit (r : Resolver) (request : DnsRequest) :
    Verdict → Resolver × Except ResolverSubmitError Unit
  | .accepted => ({ r with inFlight := r.inFlight ++ [request] }, .ok ())
  | .full => (r, .error (.full request))
  | .closed => (r, .error (.closed request))

/-- Collect `available` outcomes up to the budget. A lost channel is only noticed with
budget left. -/
def drainInto (r : Resolver) (available : List DnsOutcome) (lost : Bool) :
    Resolver × List DnsOutcome × Except ResolverWorkerError ResolverProgress :=
  let drained := available.take r.outcomeBudget
  ({ r with
      inFlight := r.inFlight.filter fun q => decide (q.effectId ∉ drained.map (·.effectId)) },
    drained,
    if lost = true ∧ available.length < r.outcomeBudget then .error .lost
    else .ok ⟨drained.length, drained.length = r.outcomeBudget⟩)

end Resolver

/-! ## Waiting requests -/

/-- A request and who asked for it. -/
structure OwnedResolution where
  owner : ResolutionOwner
  request : DnsRequest

/-- What offering came to. -/
structure SubmissionProgress where
  admitted : ℕ
  moreWork : Bool

/-- Requests that wait for the worker. -/
structure PendingResolutions where
  requests : List OwnedResolution
  capacity : ℕ
  reserved : ℕ
  retryBudget : ℕ

namespace PendingResolutions

/-- None waits. -/
def new (limits : ResolverLimits) : PendingResolutions :=
  ⟨[], limits.pendingCapacity.get, 0, limits.requestCapacity.get⟩

variable (p : PendingResolutions)

/-- Keep a place, if there is one. -/
def tryReserve : PendingResolutions × Bool :=
  if p.capacity ≤ min (p.requests.length + p.reserved) u64Max then (p, false)
  else ({ p with reserved := p.reserved + 1 }, true)

/-- Let a request wait in its place. -/
def retainReserved (owner : ResolutionOwner) (request : DnsRequest) : PendingResolutions :=
  { p with reserved := wrappingPred p.reserved, requests := p.requests ++ [⟨owner, request⟩] }

/-- Give a place back. -/
def releaseReservation : PendingResolutions :=
  { p with reserved := wrappingPred p.reserved }

/-- The retry loop with `fuel` admissions of its budget left. -/
def retryLoop (offered : EffectId → Verdict) (admitted : ℕ) :
    ℕ → PendingResolutions → Resolver →
      (PendingResolutions × Resolver) × Except ResolverSubmitError ℕ
  | 0, p, r => ((p, r), .ok admitted)
  | fuel + 1, p, r =>
    match p.requests with
    | [] => ((p, r), .ok admitted)
    | pending :: rest =>
      match r.submit pending.request (offered pending.request.effectId) with
      | (r', .ok ()) => retryLoop offered (admitted + 1) fuel { p with requests := rest } r'
      | (r', .error (.full request)) =>
        (({ p with requests := ⟨pending.owner, request⟩ :: rest }, r'), .ok admitted)
      | (r', .error (.closed request)) =>
        (({ p with requests := ⟨pending.owner, request⟩ :: rest }, r'), .error (.closed request))

/-- Offer the waiting requests again. -/
def retry (r : Resolver) (offered : EffectId → Verdict) :
    (PendingResolutions × Resolver) × Except ResolverSubmitError SubmissionProgress :=
  match retryLoop offered 0 p.retryBudget p r with
  | (s, .ok admitted) =>
    (s, .ok ⟨admitted, decide (admitted = p.retryBudget) && !s.1.requests.isEmpty⟩)
  | (s, .error error) => (s, .error error)

end PendingResolutions

/-! ## The joined owner -/

/-- Why resolution fails. -/
inductive NameResolutionError where
  | identityExhausted
  | reservationUnavailable
  | permitMismatch
  | ownership (error : ResolverOwnershipError)
  | resolver (error : ResolverSubmitError)
  | worker (error : ResolverWorkerError)
  | bootstrap (error : BootstrapOwnerError)

/-- Linear token of one reserved slot and effect. -/
structure ResolutionPermit where
  effectId : EffectId
  owner : ResolutionOwner
  deriving DecidableEq

/-- An outcome for a route. -/
structure BrokerDnsOutcome where
  lane : BrokerLane
  outcome : DnsOutcome

/-- An outcome for a physical lane. -/
structure DirectDnsOutcome where
  owner : DirectRefreshOwner
  outcome : DnsOutcome

/-- What a turn came to. -/
structure ResolutionProgress where
  outcomes : ℕ
  submissions : ℕ
  moreWork : Bool
  broker : Option ResolvedSeed
  restarted : Bool

/-- Resolves names for the bootstrap, the routes and the lanes. -/
structure NameResolution where
  resolver : Resolver
  bootstrap : BootstrapOwner
  bootstrapInFlight : Bool
  entropy : JitterEntropy
  effectIds : ResolverEffectIds
  ownership : ResolverOwnership
  pending : PendingResolutions
  lastBootstrapDnsFailure : Option DnsFailure

namespace NameResolution

/-- Keep a place, an effect and an entry. -/
def tryReserve (n : NameResolution) (owner : ResolutionOwner) :
    NameResolution × Except NameResolutionError (Option ResolutionPermit) :=
  match n.pending.tryReserve with
  | (_, false) => (n, .ok none)
  | (pending, true) =>
    match n.effectIds.reserve with
    | (effectIds, none) =>
      ({ n with effectIds, pending := pending.releaseReservation }, .error .identityExhausted)
    | (effectIds, some effectId) =>
      match n.ownership.register effectId owner with
      | (ownership, .ok ()) =>
        ({ n with effectIds, pending, ownership }, .ok (some ⟨effectId, owner⟩))
      | (ownership, .error (.capacityReached _)) =>
        ({ n with effectIds, ownership, pending := pending.releaseReservation }, .ok none)
      | (ownership, .error error) =>
        ({ n with effectIds, ownership, pending := pending.releaseReservation },
          .error (.ownership error))

variable (build : Build) (n : NameResolution) (permit : ResolutionPermit)

/-- For a route. -/
def tryReserveBroker (lane : BrokerLane) :
    NameResolution × Except NameResolutionError (Option ResolutionPermit) :=
  n.tryReserve (.broker lane)

/-- For a lane. -/
def tryReserveDirect (owner : DirectRefreshOwner) :
    NameResolution × Except NameResolutionError (Option ResolutionPermit) :=
  n.tryReserve (.direct owner)

/-- The table entry is removed inside a `debug_assert_eq!`. -/
def cancel : NameResolution :=
  match build with
  | .debug =>
    { n with
      pending := n.pending.releaseReservation
      ownership := (n.ownership.remove permit.effectId).1 }
  | .release => { n with pending := n.pending.releaseReservation }

/-- Hand over the request of a permit. -/
def submit (build : Build) (n : NameResolution) (permit : ResolutionPermit)
    (request : DnsRequest) (verdict : Verdict) :
    NameResolution × Except NameResolutionError Unit :=
  if permit.effectId ≠ request.effectId then (n.cancel build permit, .error .permitMismatch)
  else
    match n.resolver.submit request verdict with
    | (resolver, .ok ()) =>
      ({ n with resolver, pending := n.pending.releaseReservation }, .ok ())
    | (resolver, .error (.full request)) =>
      ({ n with resolver, pending := n.pending.retainReserved permit.owner request }, .ok ())
    | (resolver, .error (.closed request)) =>
      ({ n with
          resolver
          pending := n.pending.releaseReservation
          ownership := (n.ownership.remove permit.effectId).1 },
        .error (.resolver (.closed request)))

/-- Submit a bootstrap request and mark it in flight. -/
def submitBootstrap (request : DnsRequest) (verdict : Verdict) :
    NameResolution × Except NameResolutionError Unit :=
  match n.submit build permit request verdict with
  | (n', .ok ()) => ({ n' with bootstrapInFlight := true }, .ok ())
  | (n', .error error) => (n', .error error)

/-- Begin a pass of the bootstrap anew. -/
def restartBootstrap (offered : EffectId → Verdict) :
    NameResolution × Except NameResolutionError Bool :=
  if n.bootstrapInFlight then (n, .ok false)
  else
    match n.tryReserve .bootstrap with
    | (n, .error error) => (n, .error error)
    | (n, .ok none) => (n, .ok false)
    | (n, .ok (some permit)) =>
      match n.bootstrap.restart permit.effectId with
      | (bootstrap, .error error) =>
        (({ n with bootstrap }).cancel build permit, .error (.bootstrap error))
      | (bootstrap, .ok request) =>
        match ({ n with bootstrap }).submitBootstrap build permit request
            (offered request.effectId) with
        | (n, .ok ()) => (n, .ok true)
        | (n, .error error) => (n, .error error)

/-- Whether the retry deadline of an exhausted bootstrap has passed. -/
def retryDue (now : Moment) : Bool :=
  match n.bootstrap.retryDeadline with
  | none => false
  | some deadline => decide (deadline ≤ now)

/-- Begin a pass after its retry delay. -/
def restartExhaustedBootstrap (now : Moment) (offered : EffectId → Verdict) :
    NameResolution × Except NameResolutionError Bool :=
  if n.bootstrapInFlight || !n.retryDue now then (n, .ok false)
  else
    match n.tryReserve .bootstrap with
    | (n, .error error) => (n, .error error)
    | (n, .ok none) => (n, .ok false)
    | (n, .ok (some permit)) =>
      match n.bootstrap.retryElapsed now permit.effectId with
      | (bootstrap, .error error) =>
        (({ n with bootstrap }).cancel build permit, .error (.bootstrap error))
      | (bootstrap, .ok none) => (({ n with bootstrap }).cancel build permit, .ok false)
      | (bootstrap, .ok (some request)) =>
        match ({ n with bootstrap }).submitBootstrap build permit request
            (offered request.effectId) with
        | (n, .ok ()) => (n, .ok true)
        | (n, .error error) => (n, .error error)

/-- Offer the waiting requests again. -/
def retryPending (offered : EffectId → Verdict) :
    NameResolution × Except NameResolutionError SubmissionProgress :=
  match n.pending.retry n.resolver offered with
  | ((pending, resolver), .ok progress) => ({ n with pending, resolver }, .ok progress)
  | ((pending, resolver), .error error) => ({ n with pending, resolver }, .error (.resolver error))

end NameResolution

/-! ## Driving -/

/-- What one `drive` finds : the time, the outcomes in the channel and whether the worker
hung up behind them, and the verdicts on first offers and on retries. -/
structure DriveTurn where
  now : Moment
  available : List DnsOutcome
  lost : Bool
  offered : EffectId → Verdict
  retried : EffectId → Verdict

/-- What one `drive` has dispatched so far. -/
structure Dispatch where
  broker : Option ResolvedSeed
  brokerOutcomes : List BrokerDnsOutcome
  directOutcomes : List DirectDnsOutcome

namespace Dispatch

/-- No outcome yet. -/
def nothing : Dispatch := ⟨none, [], []⟩

end Dispatch

namespace NameResolution

variable (build : Build) (turn : DriveTurn) (n : NameResolution) (d : Dispatch)
  (outcome : DnsOutcome)

/-- Note the result of the bootstrap's request, which is no longer in flight. -/
def recordBootstrap : NameResolution :=
  { n with
    lastBootstrapDnsFailure := match outcome.result with
      | .ok _ => none
      | .error failure => some failure
    bootstrapInFlight := false }

/-- Give the outcome to the bootstrap owner and carry out its action under `permit`. -/
def actBootstrap (permit : ResolutionPermit) :
    (NameResolution × Dispatch) × Except NameResolutionError Unit :=
  match n.bootstrap.complete outcome permit.effectId turn.now n.entropy.nextSample.2 with
  | (bootstrap, .error error) =>
    ((({ n with entropy := n.entropy.nextSample.1, bootstrap }).cancel build permit, d),
      .error (.bootstrap error))
  | (bootstrap, .ok (.resolve request)) =>
    match ({ n with entropy := n.entropy.nextSample.1, bootstrap }).submitBootstrap build permit
        request (turn.offered request.effectId) with
    | (n, answer) => ((n, d), answer)
  | (bootstrap, .ok (.install seed)) =>
    let n := ({ n with entropy := n.entropy.nextSample.1, bootstrap }).cancel build permit
    match d.broker with
    | none => ((n, { d with broker := some seed }), .ok ())
    | some _ => ((n, d), .error (.bootstrap .unexpectedEffect))
  | (bootstrap, .ok .retryScheduled) =>
    ((({ n with entropy := n.entropy.nextSample.1, bootstrap }).cancel build permit, d), .ok ())

/-- The bootstrap branch of the drive loop, once the entry of `outcome` is removed. -/
def completeBootstrap : (NameResolution × Dispatch) × Except NameResolutionError Unit :=
  match (n.recordBootstrap outcome).tryReserve .bootstrap with
  | (n, .error error) => ((n, d), .error error)
  | (n, .ok none) => ((n, d), .error .reservationUnavailable)
  | (n, .ok (some permit)) => n.actBootstrap build turn d outcome permit

/-- One round of the drive loop. -/
def settle : (NameResolution × Dispatch) × Except NameResolutionError Unit :=
  match n.ownership.remove outcome.effectId with
  | (ownership, owner) =>
    let n := { n with ownership }
    match owner with
    | none => ((n, d), .ok ())
    | some (.broker lane) =>
      ((n, { d with brokerOutcomes := d.brokerOutcomes ++ [⟨lane, outcome⟩] }), .ok ())
    | some (.direct owner) =>
      ((n, { d with directOutcomes := d.directOutcomes ++ [⟨owner, outcome⟩] }), .ok ())
    | some .bootstrap => n.completeBootstrap build turn d outcome

/-- The drive loop. The outcomes behind the first error are dropped. -/
def settleAll (build : Build) (turn : DriveTurn) (n : NameResolution) (d : Dispatch) :
    List DnsOutcome → (NameResolution × Dispatch) × Except NameResolutionError Unit
  | [] => ((n, d), .ok ())
  | outcome :: later =>
    match n.settle build turn d outcome with
    | (s, .ok ()) => settleAll build turn s.1 s.2 later
    | (s, .error error) => (s, .error error)

/-- One turn : restart, collect, dispatch, offer. -/
def drive (build : Build) (n : NameResolution) (turn : DriveTurn) :
    (NameResolution × Dispatch) × Except NameResolutionError ResolutionProgress :=
  match n.restartExhaustedBootstrap build turn.now turn.offered with
  | (n, .error error) => ((n, .nothing), .error error)
  | (n, .ok restarted) =>
    match n.resolver.drainInto turn.available turn.lost with
    | (resolver, _, .error error) => (({ n with resolver }, .nothing), .error (.worker error))
    | (resolver, drained, .ok progress) =>
      match ({ n with resolver }).settleAll build turn .nothing drained with
      | (s, .error error) => (s, .error error)
      | ((n, d), .ok ()) =>
        match n.retryPending turn.retried with
        | (n, .error error) => ((n, d), .error error)
        | (n, .ok submissions) =>
          ((n, d), .ok
            { outcomes := progress.outcomes
              submissions := submissions.admitted
              moreWork := progress.moreWork || submissions.moreWork
              broker := d.broker
              restarted })

/-- `NameResolution::with_resolver` : reserve and submit the first bootstrap request. -/
def start (build : Build) (endpoints : BootstrapSet) (limits : ResolverLimits)
    (entropy : JitterEntropy) (verdict : Verdict) : Except NameResolutionError NameResolution :=
  match (PendingResolutions.new limits).tryReserve with
  | (_, false) => .error .reservationUnavailable
  | (pending, true) =>
    match ResolverEffectIds.new.reserve with
    | (_, none) => .error .identityExhausted
    | (effectIds, some effectId) =>
      match (ResolverOwnership.new limits.pendingCapacity).register effectId .bootstrap with
      | (_, .error error) => .error (.ownership error)
      | (ownership, .ok ()) =>
        match BootstrapOwner.start endpoints effectId with
        | (_, .error error) => .error (.bootstrap error)
        | (bootstrap, .ok request) =>
          let n : NameResolution :=
            { resolver := ⟨limits.outcomeBudget.get, []⟩
              bootstrap, bootstrapInFlight := false, entropy, effectIds, ownership, pending
              lastBootstrapDnsFailure := none }
          match n.submitBootstrap build ⟨effectId, .bootstrap⟩ request verdict with
          | (n, .ok ()) => .ok n
          | (_, .error error) => .error error

end NameResolution

end KafkaDriver
