import KafkaDriver.Session

/-!
# The connection machine

One `ConnectionMachine` owns one connection epoch : it opens a transport, negotiates API
versions, optionally authenticates, then admits calls into a bounded FIFO queue, matches
responses against its front, and drains or closes. An input is data, `apply` answers with
the ordered external effects of one transition or with an error, and a bounded trace keeps
the latest transition records.

Effects keep the order in which the source pushes them. Where the source swaps in a
placeholder state with `mem::replace`, the definition matches on the old state.
-/

namespace KafkaDriver

/-! ## Vocabulary -/

/-- Why a transport fails. -/
inductive TransportFailure where
  | refused
  | reset
  | security
  | timedOut
  | other
  deriving DecidableEq

/-- Why a connection epoch stopped or must stop. -/
inductive CloseReason where
  | drained
  | requested
  | openFailed (failure : TransportFailure)
  | transportLost (failure : TransportFailure)
  | negotiationFailed (failure : NegotiationFailure)
  | authenticationFailed (failure : AuthenticationFailure)
  | correlationMismatch (expected received : CorrelationId)
  | unexpectedResponse
  | malformedResponse
  | deadlineExceeded (callId : CallId)
  deriving DecidableEq

/-- What is wrong with a response. -/
inductive ResponseFault where
  | unexpected
  | malformed

/-- Why one admitted or refused call ended without a response. -/
inductive CallFailure where
  | notReady
  | draining
  | closed
  | capacityReached (limit : ℕ)
  | correlationSpaceExhausted
  | deadlineExceeded
  | locallyRejected
  | connectionClosed (reason : CloseReason)
  | correlationMismatch (expected received : CorrelationId)
  deriving DecidableEq

/-- The identities a call brings. -/
inductive IdentityKind where
  | call
  | writeEffect
  | deadlineTimer

/-- Inputs that are an error of the caller. -/
inductive ConnectionMachineError where
  | identityInUse (kind : IdentityKind)
  | transitionSequenceExhausted

/-- Bounds of one connection's pending work and diagnostics. -/
structure ConnectionLimits where
  maxInFlight : NonZeroUsize
  maxCapabilities : NonZeroUsize
  maxTraceRecords : ℕ

namespace ConnectionLimits

/-- How many capabilities a session may have. -/
def defaultMaxCapabilities : NonZeroUsize := ⟨128, by decide, by decide⟩

/-- Limits with the default number of capabilities. -/
def new (maxInFlight : NonZeroUsize) (maxTraceRecords : ℕ) : ConnectionLimits :=
  ⟨maxInFlight, defaultMaxCapabilities, maxTraceRecords⟩

end ConnectionLimits

/-- Reserved identities and timing of one negotiation attempt. -/
structure NegotiationAttempt where
  effectId : EffectId
  deadlineTimer : TimerId
  now : Moment
  deadline : Moment

/-- What a connection is told. -/
inductive ConnectionInput where
  | start (effectId : EffectId) (transportId : TransportId) (deadlineTimer : TimerId)
      (deadline : Moment)
  | transportOpened (epoch : ConnectionEpoch) (effectId : EffectId) (transportId : TransportId)
      (negotiation : NegotiationAttempt)
  | transportOpenFailed (epoch : ConnectionEpoch) (effectId : EffectId)
      (transportId : TransportId) (failure : TransportFailure)
  | apiVersionsNegotiated (epoch : ConnectionEpoch) (transportId : TransportId)
      (effectId : EffectId) (capabilities : NegotiatedCapabilities)
  | apiVersionsNegotiatedWithAuthentication (epoch : ConnectionEpoch)
      (transportId : TransportId) (effectId : EffectId) (capabilities : NegotiatedCapabilities)
      (authentication : AuthenticationAttempt)
  | apiVersionsFailed (epoch : ConnectionEpoch) (transportId : TransportId)
      (effectId : EffectId) (failure : NegotiationFailure)
  | authentication (input : AuthenticationInput)
  | submit (callId : CallId) (writeEffect : EffectId) (deadlineTimer : TimerId) (now : Moment)
      (deadline : Moment)
  | writeSubmitted (epoch : ConnectionEpoch) (transportId : TransportId) (effectId : EffectId)
  | abortUnsentCall (epoch : ConnectionEpoch) (transportId : TransportId) (callId : CallId)
      (effectId : EffectId)
  | writeFailed (epoch : ConnectionEpoch) (transportId : TransportId) (effectId : EffectId)
      (failure : TransportFailure)
  | responseReceived (epoch : ConnectionEpoch) (transportId : TransportId)
      (correlationId : CorrelationId)
  | responseRejected (epoch : ConnectionEpoch) (transportId : TransportId)
      (fault : ResponseFault)
  | deadlineElapsed (epoch : ConnectionEpoch) (timerId : TimerId) (now : Moment)
  | beginDrain
  | transportClosed (epoch : ConnectionEpoch) (transportId : TransportId)
      (failure : TransportFailure)

/-- Inputs without what they carry. -/
inductive ConnectionInputKind where
  | start
  | transportOpened
  | transportOpenFailed
  | apiVersionsNegotiated
  | apiVersionsNegotiatedWithAuthentication
  | apiVersionsFailed
  | authentication
  | submit
  | writeSubmitted
  | abortUnsentCall
  | writeFailed
  | responseReceived
  | responseRejected
  | deadlineElapsed
  | beginDrain
  | transportClosed
  deriving DecidableEq

/-- The kind of an input. -/
def ConnectionInput.kind : ConnectionInput → ConnectionInputKind
  | .start .. => .start
  | .transportOpened .. => .transportOpened
  | .transportOpenFailed .. => .transportOpenFailed
  | .apiVersionsNegotiated .. => .apiVersionsNegotiated
  | .apiVersionsNegotiatedWithAuthentication .. => .apiVersionsNegotiatedWithAuthentication
  | .apiVersionsFailed .. => .apiVersionsFailed
  | .authentication .. => .authentication
  | .submit .. => .submit
  | .writeSubmitted .. => .writeSubmitted
  | .abortUnsentCall .. => .abortUnsentCall
  | .writeFailed .. => .writeFailed
  | .responseReceived .. => .responseReceived
  | .responseRejected .. => .responseRejected
  | .deadlineElapsed .. => .deadlineElapsed
  | .beginDrain => .beginDrain
  | .transportClosed .. => .transportClosed

/-- One external action or owner-visible outcome. -/
inductive ConnectionEffect where
  | scheduleOpenDeadline (epoch : ConnectionEpoch) (timerId : TimerId) (at_ : Moment)
  | openTransport (epoch : ConnectionEpoch) (effectId : EffectId) (transportId : TransportId)
  | scheduleNegotiationDeadline (epoch : ConnectionEpoch) (timerId : TimerId) (at_ : Moment)
  | negotiateApiVersions (epoch : ConnectionEpoch) (transportId : TransportId)
      (effectId : EffectId) (correlationId : CorrelationId)
  | authentication (effect : AuthenticationEffect)
  | scheduleDeadline (epoch : ConnectionEpoch) (callId : CallId) (timerId : TimerId)
      (at_ : Moment)
  | writeRequest (epoch : ConnectionEpoch) (transportId : TransportId) (callId : CallId)
      (correlationId : CorrelationId) (effectId : EffectId)
  | cancelDeadline (timerId : TimerId)
  | completeResponse (callId : CallId) (correlationId : CorrelationId)
  | failCall (callId : CallId) (failure : CallFailure) (delivery : Delivery)
  | closeTransport (epoch : ConnectionEpoch) (transportId : TransportId) (reason : CloseReason)
  deriving DecidableEq

/-! ## Correlation allocation -/

/-- `i32::MAX`. -/
def i32Max : ℤ := 2 ^ 31 - 1

/-- The correlation to try next. -/
structure CorrelationAllocator where
  next : ℤ
  deriving DecidableEq

namespace CorrelationAllocator

/-- The next correlation, from zero again at the end. -/
def advance (next : ℤ) : ℤ := if next = i32Max then 0 else next + 1

/-- The allocator's loop, with `attempts` iterations left. -/
def allocateLoop (isInUse : CorrelationId → Bool) :
    ℕ → CorrelationAllocator → CorrelationAllocator × Option CorrelationId
  | 0, a => (a, none)
  | attempts + 1, a =>
    let candidate : CorrelationId := ⟨a.next⟩
    let a' : CorrelationAllocator := ⟨advance a.next⟩
    if isInUse candidate then allocateLoop isInUse attempts a' else (a', some candidate)

/-- Try `inUseCount + 1` consecutive values and take the first that is free. -/
def allocate (a : CorrelationAllocator) (inUseCount : ℕ) (isInUse : CorrelationId → Bool) :
    CorrelationAllocator × Option CorrelationId :=
  allocateLoop isInUse (inUseCount + 1) a

end CorrelationAllocator

/-! ## The pending queue -/

/-- What a call waits for. -/
inductive PendingPhase where
  | awaitingWrite
  | awaitingResponse
  deriving DecidableEq

/-- One call's response obligation. -/
structure PendingCall where
  callId : CallId
  correlationId : CorrelationId
  writeEffect : EffectId
  deadlineTimer : TimerId
  deadline : Moment
  delivery : Delivery
  phase : PendingPhase
  deriving DecidableEq

namespace PendingCall

/-- A call whose frame is not written. -/
def new (callId : CallId) (correlationId : CorrelationId) (writeEffect : EffectId)
    (deadlineTimer : TimerId) (deadline : Moment) : PendingCall :=
  ⟨callId, correlationId, writeEffect, deadlineTimer, deadline, .notSent, .awaitingWrite⟩

/-- The frame was taken by the writer. -/
def markSubmitted (p : PendingCall) : PendingCall :=
  { p with phase := .awaitingResponse, delivery := p.delivery.combine .possiblySent }

end PendingCall

/-- Bounded FIFO of calls awaiting write admission or a response. -/
structure PendingQueue where
  capacity : ℕ
  calls : List PendingCall
  deriving DecidableEq

namespace PendingQueue

/-- No calls. -/
def new (capacity : ℕ) : PendingQueue := ⟨capacity, []⟩

variable (q : PendingQueue) (callId : CallId) (effect effectId writeEffect : EffectId)
  (call : PendingCall)

/-- How many calls are pending. -/
def len : ℕ := q.calls.length

/-- Whether none is. -/
def isEmpty (q : PendingQueue) : Bool := q.calls.isEmpty

/-- Whether there is no room. -/
def isFull : Bool := q.calls.length ≥ q.capacity

/-- A call joins at the back. -/
def push : PendingQueue :=
  { q with calls := q.calls ++ [call] }

/-- The oldest call. -/
def front : Option PendingCall := q.calls.head?

/-- Without the oldest call. -/
def popFront : PendingQueue := { q with calls := q.calls.tail }

/-- The call of a write. -/
def byWriteEffect : Option PendingCall :=
  q.calls.find? fun call => call.writeEffect = effect

/-- Replace the first call of a list that waits on `effect`. -/
def updateFirst (effect : EffectId) (call : PendingCall) : List PendingCall → List PendingCall
  | [] => []
  | head :: rest =>
    if head.writeEffect = effect then call :: rest else head :: updateFirst effect call rest

/-- Write `call` back through the reference that `by_write_effect_mut` returned. -/
def setByWriteEffect : PendingQueue :=
  { q with calls := updateFirst effect call q.calls }

/-- Whether a call waits for this write. -/
def isAwaitingWrite : Bool :=
  call.callId = callId && call.writeEffect = effectId && call.phase = .awaitingWrite

/-- Take a call out whose frame is not written. -/
def removeAwaitingWrite : Option (PendingCall × PendingQueue) :=
  (q.calls.find? (isAwaitingWrite callId effectId)).map fun call =>
    (call, { q with calls := q.calls.eraseP (isAwaitingWrite callId effectId) })

/-- The call of a timer. -/
def byTimer (timer : TimerId) : Option PendingCall :=
  q.calls.find? fun call => call.deadlineTimer = timer

/-- Whether a pending call has the correlation. -/
def containsCorrelation (correlation : CorrelationId) : Bool :=
  q.calls.any fun call => call.correlationId = correlation

/-- Which of three identities some pending call already uses. -/
structure IdentityConflicts where
  call : Bool
  effect : Bool
  timer : Bool

/-- Which identities are in use. -/
def hasIdentities (deadlineTimer : TimerId) : IdentityConflicts where
  call := q.calls.any fun call => call.callId = callId
  effect := q.calls.any fun call => call.writeEffect = writeEffect
  timer := q.calls.any fun call => call.deadlineTimer = deadlineTimer

end PendingQueue

/-! ## States -/

/-- Whether an active connection takes calls. -/
inductive ActiveMode where
  | ready
  | draining
  deriving DecidableEq

/-- State owned by one negotiated connection epoch. -/
structure ActiveConnection where
  epoch : ConnectionEpoch
  transportId : TransportId
  correlations : CorrelationAllocator
  pending : PendingQueue
  capabilities : NegotiatedCapabilities
  deriving DecidableEq

/-- A connection without calls. -/
def ActiveConnection.new (epoch : ConnectionEpoch) (transportId : TransportId)
    (capabilities : NegotiatedCapabilities) (limits : ConnectionLimits) : ActiveConnection :=
  ⟨epoch, transportId, ⟨0⟩, .new limits.maxInFlight.get, capabilities⟩

/-- The phases of a connection. -/
inductive ConnectionPhase where
  | dormant
  | opening
  | negotiating
  | authenticating
  | ready
  | draining
  | closing
  | closed
  deriving DecidableEq

namespace Connection

/-- Lifecycle state of one connection epoch. -/
inductive StateData where
  | dormant (epoch : ConnectionEpoch)
  | opening (epoch : ConnectionEpoch) (effectId : EffectId) (transportId : TransportId)
      (deadlineTimer : TimerId) (deadline : Moment)
  | negotiating (epoch : ConnectionEpoch) (transportId : TransportId) (effectId : EffectId)
      (deadlineTimer : TimerId) (deadline : Moment)
  | authenticating (epoch : ConnectionEpoch) (transportId : TransportId)
      (capabilities : NegotiatedCapabilities) (authentication : AuthenticationMachine)
  | active (mode : ActiveMode) (connection : ActiveConnection)
  | closing (epoch : ConnectionEpoch) (transportId : TransportId) (reason : CloseReason)
  | closed (epoch : ConnectionEpoch) (reason : CloseReason)
  deriving DecidableEq

namespace StateData

/-- The epoch of a state. -/
def epoch : StateData → ConnectionEpoch
  | .dormant epoch | .opening epoch .. | .negotiating epoch .. | .authenticating epoch ..
  | .closing epoch .. | .closed epoch _ => epoch
  | .active _ connection => connection.epoch

/-- The phase of a state. -/
def phase : StateData → ConnectionPhase
  | .dormant _ => .dormant
  | .opening .. => .opening
  | .negotiating .. => .negotiating
  | .authenticating .. => .authenticating
  | .active .ready _ => .ready
  | .active .draining _ => .draining
  | .closing .. => .closing
  | .closed .. => .closed

end StateData

/-- What became of an input. -/
inductive TransitionDisposition where
  | applied
  | rejected
  | ignored
  | ignoredStale
  | fault

/-- Effects and disposition one handler decided on. -/
structure Decision where
  effects : List ConnectionEffect
  disposition : TransitionDisposition

namespace Decision

/-- Accepted. -/
def applied (effects : List ConnectionEffect) : Decision := ⟨effects, .applied⟩

/-- Refused. -/
def rejected (effects : List ConnectionEffect) : Decision := ⟨effects, .rejected⟩

/-- Nothing to do. -/
def ignored : Decision := ⟨[], .ignored⟩

/-- No longer meant. -/
def stale : Decision := ⟨[], .ignoredStale⟩

/-- Accepted as a fault. -/
def fault (effects : List ConnectionEffect) : Decision := ⟨effects, .fault⟩

end Decision

/-- Sanitised record of one transition. -/
structure TransitionRecord where
  sequence : ℕ
  epoch : ConnectionEpoch
  source : ConnectionPhase
  input : ConnectionInputKind
  target : ConnectionPhase
  disposition : TransitionDisposition
  effectCount : ℕ

/-- The latest `capacity` transition records. -/
structure TransitionTrace where
  capacity : ℕ
  records : List TransitionRecord

/-- Keep a record, dropping the oldest. -/
def TransitionTrace.push (t : TransitionTrace) (record : TransitionRecord) : TransitionTrace :=
  if t.capacity = 0 then t
  else if t.records.length = t.capacity then { t with records := t.records.tail ++ [record] }
  else { t with records := t.records ++ [record] }

end Connection

open Connection

/-- Returned effects and record of one successful step. -/
structure ConnectionTransition where
  effects : List ConnectionEffect
  record : TransitionRecord

/-- Policy owner of exactly one Kafka connection epoch. -/
structure ConnectionMachine where
  state : StateData
  limits : ConnectionLimits
  authentication : Option AuthenticationPolicy
  session : KafkaSessionMachine
  trace : TransitionTrace
  nextSequence : Option ℕ

namespace ConnectionMachine

/-- A connection without authentication. -/
def new (epoch : ConnectionEpoch) (limits : ConnectionLimits) : ConnectionMachine where
  state := .dormant epoch
  limits := limits
  authentication := none
  session := .new ⟨limits.maxCapabilities⟩
  trace := ⟨limits.maxTraceRecords, []⟩
  nextSequence := some 0

/-- A connection that must authenticate. -/
def newAuthenticated (epoch : ConnectionEpoch) (limits : ConnectionLimits)
    (authentication : AuthenticationPolicy) : ConnectionMachine where
  state := .dormant epoch
  limits := limits
  authentication := some authentication
  session := .newAuthenticated ⟨limits.maxCapabilities⟩ authentication
  trace := ⟨limits.maxTraceRecords, []⟩
  nextSequence := some 0

variable (m : ConnectionMachine) (epoch : ConnectionEpoch) (transportId : TransportId)
  (reason : CloseReason) (specificFailure : Option (CallId × CallFailure)) (callId : CallId)

/-- The session after one observation whose answer the caller drops. -/
def applySession (input : KafkaSessionInput) : ConnectionMachine :=
  { m with session := (m.session.apply input).1 }

/-! ## Closing an active epoch -/

/-- The failure of one drained call. -/
def drainedFailure (pending : PendingCall) : CallFailure :=
  match specificFailure.filter fun specific => specific.1 = pending.callId with
  | some (_, failure) => failure
  | none => .connectionClosed reason

/-- Effects that settle every drained call in queue order. -/
def appendFailures (calls : List PendingCall) (reason : CloseReason)
    (specificFailure : Option (CallId × CallFailure)) : List ConnectionEffect :=
  calls.flatMap fun pending =>
    [.cancelDeadline pending.deadlineTimer,
      .failCall pending.callId (drainedFailure reason specificFailure pending) pending.delivery]

/-- Begin to close an active connection. -/
def beginActiveClose : ConnectionMachine × List ConnectionEffect :=
  match m.state with
  | .active _ connection =>
    ({ m with state := .closing connection.epoch connection.transportId reason },
      .closeTransport connection.epoch connection.transportId reason ::
        appendFailures connection.pending.calls reason specificFailure)
  | state => ({ m with state := .closed state.epoch reason }, [])

/-- End an active connection. -/
def finishActiveClose : ConnectionMachine × List ConnectionEffect :=
  match m.state with
  | .active _ connection =>
    ({ m with state := .closed connection.epoch reason },
      appendFailures connection.pending.calls reason specificFailure)
  | state => ({ m with state := .closed state.epoch reason }, [])

/-! ## Opening and negotiation -/

/-- Open the transport. -/
def start (m : ConnectionMachine) (effectId : EffectId) (transportId : TransportId)
    (deadlineTimer : TimerId) (deadline : Moment) : ConnectionMachine × Decision :=
  match m.state with
  | .dormant epoch =>
    ({ m with state := .opening epoch effectId transportId deadlineTimer deadline },
      .applied [.scheduleOpenDeadline epoch deadlineTimer deadline,
        .openTransport epoch effectId transportId])
  | _ => (m, .ignored)

/-- The correlation of the negotiation. -/
def negotiationCorrelation : CorrelationId := ⟨0⟩

/-- Ask for the versions. -/
def beginNegotiation (attempt : NegotiationAttempt) : ConnectionMachine × Decision :=
  match m.session.apply (.transportOpened ⟨attempt.now, attempt.deadline⟩) with
  | (session, transition) =>
    if transition.disposition = .ignoredStale then ({ m with session }, .stale)
    else if attempt.deadline ≤ attempt.now then
      let reason := CloseReason.negotiationFailed .timeout
      ({ m with session, state := .closing epoch transportId reason },
        .applied [.closeTransport epoch transportId reason])
    else
      ({ m with
          session
          state := .negotiating epoch transportId attempt.effectId attempt.deadlineTimer
            attempt.deadline },
        .applied [.scheduleNegotiationDeadline epoch attempt.deadlineTimer attempt.deadline,
          .negotiateApiVersions epoch transportId attempt.effectId negotiationCorrelation])

/-- The transport is open. -/
def transportOpened (m : ConnectionMachine) (epoch : ConnectionEpoch) (effectId : EffectId)
    (transportId : TransportId) (negotiation : NegotiationAttempt) :
    ConnectionMachine × Decision :=
  match m.state with
  | .opening expectedEpoch expectedEffect expectedTransport deadlineTimer _ =>
    if epoch ≠ expectedEpoch ∨ effectId ≠ expectedEffect ∨ transportId ≠ expectedTransport then
      (m, .stale)
    else
      match m.beginNegotiation epoch transportId negotiation with
      | (m', decision) =>
        (m', { decision with effects := .cancelDeadline deadlineTimer :: decision.effects })
  | _ => (m, .stale)

/-- It could not be opened. -/
def transportOpenFailed (m : ConnectionMachine) (epoch : ConnectionEpoch) (effectId : EffectId)
    (transportId : TransportId) (failure : TransportFailure) : ConnectionMachine × Decision :=
  match m.state with
  | .opening expectedEpoch expectedEffect expectedTransport deadlineTimer _ =>
    if epoch ≠ expectedEpoch ∨ effectId ≠ expectedEffect ∨ transportId ≠ expectedTransport then
      (m, .stale)
    else
      ({ m with state := .closed epoch (.openFailed failure) },
        .applied [.cancelDeadline deadlineTimer])
  | _ => (m, .stale)

/-- End a negotiating epoch for `reason`. -/
def closeNegotiating : ConnectionMachine × Decision :=
  match m.state with
  | .negotiating epoch transportId _ deadlineTimer _ =>
    ({ m with state := .closing epoch transportId reason },
      .applied [.closeTransport epoch transportId reason, .cancelDeadline deadlineTimer])
  | _ => (m, .stale)

/-- Close for a failed negotiation. -/
def finishNegotiationFailure (failure : NegotiationFailure) : ConnectionMachine × Decision :=
  m.closeNegotiating (.negotiationFailed failure)

/-- Close for a failed authentication. -/
def finishAuthenticationSetupFailure (failure : AuthenticationFailure) :
    ConnectionMachine × Decision :=
  m.closeNegotiating (.authenticationFailed failure)

variable (effectId : EffectId) (failure : TransportFailure) (capabilities : NegotiatedCapabilities)

/-- The timer of the negotiation that the three identities name. -/
def matchingNegotiation : Option TimerId :=
  match m.state with
  | .negotiating expectedEpoch expectedTransport expectedEffect deadlineTimer _ =>
    if epoch = expectedEpoch ∧ transportId = expectedTransport ∧ effectId = expectedEffect then
      some deadlineTimer
    else none
  | _ => none

/-- Be ready, if no policy asks for more. -/
def apiVersionsNegotiated : ConnectionMachine × Decision :=
  match m.matchingNegotiation epoch transportId effectId with
  | none => (m, .stale)
  | some deadlineTimer =>
    match m.session.apply (.apiVersionsSucceeded capabilities) with
    | (session, transition) =>
      let m := { m with session }
      if transition.disposition = .ignoredStale then (m, .stale)
      else if capabilities.len > m.limits.maxCapabilities.get then
        m.finishNegotiationFailure .capacity
      else if m.authentication.isSome then m.finishAuthenticationSetupFailure .protocol
      else
        ({ m with
            state := .active .ready (.new epoch transportId capabilities m.limits) },
          .applied [.cancelDeadline deadlineTimer])

/-- Close without versions. -/
def apiVersionsFailed (m : ConnectionMachine) (epoch : ConnectionEpoch)
    (transportId : TransportId) (effectId : EffectId) (failure : NegotiationFailure) :
    ConnectionMachine × Decision :=
  match m.matchingNegotiation epoch transportId effectId with
  | none => (m, .stale)
  | some _ =>
    match m.session.apply (.apiVersionsFailed failure) with
    | (session, transition) =>
      let m := { m with session }
      if transition.disposition = .ignoredStale then (m, .stale)
      else m.finishNegotiationFailure failure

/-! ## Authentication -/

/-- Child effects the connection forwards. -/
def wrapEffects (effects : List AuthenticationEffect) : List ConnectionEffect :=
  effects.filterMap fun
    | .succeeded | .failed _ => none
    | effect => some (.authentication effect)

/-- What the session is told of it. -/
def sessionAuthenticationInput : AuthenticationInput → Option KafkaSessionInput
  | .start _ => none
  | .handshakeAccepted .. => some .authenticationHandshakeSucceeded
  | .handshakeFailed _ _ _ failure => some (.authenticationHandshakeFailed failure)
  | .exchangeCompleted _ _ _ round outcome => some (.authenticationExchangeCompleted round outcome)
  | .deadlineElapsed _ _ now => some (.deadlineElapsed now)

/-- Begin to authenticate. -/
def beginAuthentication (attempt : AuthenticationAttempt) : ConnectionMachine × Decision :=
  match m.matchingNegotiation epoch transportId effectId with
  | none => (m, .stale)
  | some deadlineTimer =>
    match m.session.apply (.apiVersionsSucceededWithAuthentication capabilities
        ⟨attempt.now, attempt.deadline⟩) with
    | (session, transition) =>
      let m := { m with session }
      if transition.disposition = .ignoredStale then (m, .stale)
      else if capabilities.len > m.limits.maxCapabilities.get then
        m.finishNegotiationFailure .capacity
      else
        match m.authentication with
        | none => m.finishAuthenticationSetupFailure .protocol
        | some policy =>
          match capabilities.version policy.handshakeApiKey,
              capabilities.version policy.authenticateApiKey with
          | some handshakeVersion, some authenticateVersion =>
            let protocol : SaslProtocol :=
              ⟨policy.mechanism, handshakeVersion, authenticateVersion⟩
            match (AuthenticationMachine.new epoch transportId protocol policy.limits).apply
                (.start attempt) with
            | (authentication, child) =>
              match authentication.state with
              | .failed failure => m.finishAuthenticationSetupFailure failure
              | _ =>
                ({ m with
                    state := .authenticating epoch transportId capabilities authentication },
                  .applied (.cancelDeadline deadlineTimer :: wrapEffects child.effects))
          | _, _ => m.finishAuthenticationSetupFailure .protocol

/-- Hand an input to the child. -/
def authenticationInput (input : AuthenticationInput) : ConnectionMachine × Decision :=
  match m.state with
  | .authenticating epoch transportId capabilities authentication =>
    match authentication.apply input with
    | (authentication, transition) =>
      let m := { m with state := .authenticating epoch transportId capabilities authentication }
      if transition.disposition = .ignoredStale then (m, .stale)
      else
        let m := (sessionAuthenticationInput input).elim m m.applySession
        match authentication.state with
        | .succeeded =>
          ({ m with
              state := .active .ready (.new epoch transportId capabilities m.limits) },
            .applied (wrapEffects transition.effects))
        | .failed failure =>
          let reason := CloseReason.authenticationFailed failure
          ({ m with state := .closing epoch transportId reason },
            .applied (.closeTransport epoch transportId reason ::
              wrapEffects transition.effects))
        | _ => (m, .applied (wrapEffects transition.effects))
  | _ => (m, .stale)

/-! ## Admission and writing -/

/-- Tell a caller that its call is refused. -/
def reject (failure : CallFailure) : Decision :=
  .rejected [.failCall callId failure .notSent]

/-- Why no call is taken. -/
def failureForClosedState : CallFailure :=
  match m.state with
  | .active .draining _ => .draining
  | .closing _ _ reason | .closed _ reason => .connectionClosed reason
  | _ => .notReady

/-- Take a call and write its request. -/
def submit (writeEffect : EffectId) (deadlineTimer : TimerId) (now deadline : Moment) :
    ConnectionMachine × Except ConnectionMachineError Decision :=
  match m.state with
  | .active .ready connection =>
    if deadline ≤ now then (m, .ok (reject callId .deadlineExceeded))
    else if connection.pending.isFull then
      (m, .ok (reject callId (.capacityReached m.limits.maxInFlight.get)))
    else
      let conflicts := connection.pending.hasIdentities callId writeEffect deadlineTimer
      if conflicts.call then (m, .error (.identityInUse .call))
      else if conflicts.effect then (m, .error (.identityInUse .writeEffect))
      else if conflicts.timer then (m, .error (.identityInUse .deadlineTimer))
      else
        match connection.correlations.allocate connection.pending.len
            connection.pending.containsCorrelation with
        | (correlations, none) =>
          ({ m with state := .active .ready { connection with correlations } },
            .ok (reject callId .correlationSpaceExhausted))
        | (correlations, some correlationId) =>
          let call := PendingCall.new callId correlationId writeEffect deadlineTimer deadline
          let pending := connection.pending.push call
          ({ m with state := .active .ready { connection with correlations, pending } },
            .ok (.applied
              [.scheduleDeadline connection.epoch callId deadlineTimer deadline,
                .writeRequest connection.epoch connection.transportId callId correlationId
                  writeEffect]))
  | _ => (m, .ok (reject callId m.failureForClosedState))

/-- The writer took a frame. -/
def writeSubmitted : ConnectionMachine × Decision :=
  match m.state with
  | .active mode connection =>
    if epoch ≠ connection.epoch ∨ transportId ≠ connection.transportId then (m, .stale)
    else
      match connection.pending.byWriteEffect effectId with
      | none => (m, .stale)
      | some pending =>
        if pending.phase = .awaitingResponse then (m, .stale)
        else
          let pending := connection.pending.setByWriteEffect effectId pending.markSubmitted
          ({ m with state := .active mode { connection with pending } }, .applied [])
  | _ => (m, .stale)

/-- Settle one call with `effects`, and close a draining epoch that this empties. -/
def settle (mode : ActiveMode) (connection : ActiveConnection) (effects : List ConnectionEffect) :
    ConnectionMachine × Decision :=
  if mode = .draining ∧ connection.pending.isEmpty then
    let m := m.applySession .drained
    ({ m with state := .closing connection.epoch connection.transportId .drained },
      .applied (effects ++
        [.closeTransport connection.epoch connection.transportId .drained]))
  else ({ m with state := .active mode connection }, .applied effects)

/-- Give up a call whose frame is not written. -/
def abortUnsentCall : ConnectionMachine × Decision :=
  match m.state with
  | .active mode connection =>
    if epoch ≠ connection.epoch ∨ transportId ≠ connection.transportId then (m, .stale)
    else
      match connection.pending.removeAwaitingWrite callId effectId with
      | none => (m, .stale)
      | some (aborted, pending) =>
        m.settle mode { connection with pending }
          [.cancelDeadline aborted.deadlineTimer, .failCall callId .locallyRejected .notSent]
  | _ => (m, .stale)

/-- A frame was not written : close. -/
def writeFailed : ConnectionMachine × Decision :=
  match m.state with
  | .active _ connection =>
    if epoch ≠ connection.epoch ∨ transportId ≠ connection.transportId ∨
        connection.pending.calls.all fun pending =>
          pending.writeEffect ≠ effectId || pending.phase ≠ .awaitingWrite then
      (m, .stale)
    else
      match m.beginActiveClose (.transportLost failure) none with
      | (m', effects) => (m', .applied effects)
  | _ => (m, .stale)

/-! ## Responses and deadlines -/

/-- Fail the session and close the active epoch for a protocol fault. -/
def protocolFault (m : ConnectionMachine) (failure : KafkaSessionProtocolFailure)
    (reason : CloseReason) (specificFailure : Option (CallId × CallFailure)) :
    ConnectionMachine × Decision :=
  match (m.applySession (.protocolFailed failure)).beginActiveClose reason specificFailure with
  | (m', effects) => (m', .fault effects)

/-- A response cannot be read : close. -/
def responseRejected (fault : ResponseFault) : ConnectionMachine × Decision :=
  match m.state with
  | .active _ connection =>
    if epoch ≠ connection.epoch ∨ transportId ≠ connection.transportId then (m, .stale)
    else
      match fault with
      | .unexpected => m.protocolFault .unexpected .unexpectedResponse none
      | .malformed => m.protocolFault .malformed .malformedResponse none
  | _ => (m, .stale)

/-- Complete the oldest call. -/
def responseReceived (received : CorrelationId) : ConnectionMachine × Decision :=
  match m.state with
  | .active mode connection =>
    if epoch ≠ connection.epoch ∨ transportId ≠ connection.transportId then (m, .stale)
    else
      match connection.pending.front with
      | none => m.protocolFault .unexpected .unexpectedResponse none
      | some front =>
        if front.phase ≠ .awaitingResponse then
          m.protocolFault .unexpected .unexpectedResponse none
        else if front.correlationId ≠ received then
          m.protocolFault .unexpected (.correlationMismatch front.correlationId received)
            (some (front.callId, .correlationMismatch front.correlationId received))
        else
          m.settle mode { connection with pending := connection.pending.popFront }
            [.cancelDeadline front.deadlineTimer,
              .completeResponse front.callId front.correlationId]
  | _ => (m, .stale)

/-- Close at a deadline, or wait on before it. -/
def deadlineElapsed (m : ConnectionMachine) (epoch : ConnectionEpoch) (timerId : TimerId)
    (now : Moment) : ConnectionMachine × Decision :=
  match m.state with
  | .opening expectedEpoch _ transportId deadlineTimer deadline =>
    if epoch ≠ expectedEpoch ∨ timerId ≠ deadlineTimer then (m, .stale)
    else if now < deadline then (m, .applied [.scheduleOpenDeadline epoch timerId deadline])
    else
      let reason := CloseReason.openFailed .timedOut
      ({ m with state := .closing epoch transportId reason },
        .applied [.closeTransport epoch transportId reason])
  | .authenticating .. => m.authenticationInput (.deadlineElapsed epoch timerId now)
  | .negotiating expectedEpoch transportId _ deadlineTimer deadline =>
    if epoch ≠ expectedEpoch ∨ timerId ≠ deadlineTimer then (m, .stale)
    else
      match m.session.apply (.deadlineElapsed now) with
      | (session, transition) =>
        let m := { m with session }
        if transition.disposition = .ignoredStale then (m, .stale)
        else if now < deadline then
          (m, .applied [.scheduleNegotiationDeadline epoch timerId deadline])
        else
          let reason := CloseReason.negotiationFailed .timeout
          ({ m with state := .closing epoch transportId reason },
            .applied [.closeTransport epoch transportId reason])
  | .active _ connection =>
    if epoch ≠ connection.epoch then (m, .stale)
    else
      match connection.pending.byTimer timerId with
      | none => (m, .stale)
      | some pending =>
        if now < pending.deadline then
          (m, .applied [.scheduleDeadline epoch pending.callId timerId pending.deadline])
        else
          match m.beginActiveClose (.deadlineExceeded pending.callId)
              (some (pending.callId, .deadlineExceeded)) with
          | (m', effects) => (m', .applied effects)
  | _ => (m, .stale)

/-! ## Drain and transport loss -/

/-- Take no more calls, and close when none is left. -/
def beginDrain (m : ConnectionMachine) : ConnectionMachine × Decision :=
  match m.state with
  | .dormant epoch => ({ m with state := .closed epoch .requested }, .applied [])
  | .opening epoch _ transportId deadlineTimer _ =>
    ({ m with state := .closing epoch transportId .requested },
      .applied [.closeTransport epoch transportId .requested, .cancelDeadline deadlineTimer])
  | .negotiating epoch transportId _ deadlineTimer _ =>
    ({ m.applySession .beginDrain with state := .closing epoch transportId .requested },
      .applied [.closeTransport epoch transportId .requested, .cancelDeadline deadlineTimer])
  | .authenticating epoch transportId _ authentication =>
    ({ m.applySession .beginDrain with state := .closing epoch transportId .requested },
      .applied (.closeTransport epoch transportId .requested ::
        (authentication.deadlineTimer.map fun timerId =>
          .authentication (.cancelDeadline timerId)).toList))
  | .active .ready connection =>
    if connection.pending.isEmpty then
      let m := (m.applySession .beginDrain).applySession .drained
      ({ m with state := .closing connection.epoch connection.transportId .drained },
        .applied [.closeTransport connection.epoch connection.transportId .drained])
    else
      ({ m.applySession .beginDrain with state := .active .draining connection }, .applied [])
  | .active .draining _ | .closing .. | .closed .. => (m, .ignored)

/-- The transport is gone. -/
def transportClosed : ConnectionMachine × Decision :=
  if epoch ≠ m.state.epoch then (m, .stale)
  else
    match m.state with
    | .opening _ _ expected deadlineTimer _ | .negotiating _ expected _ deadlineTimer _ =>
      if expected = transportId then
        ({ m.applySession .closed with state := .closed epoch (.transportLost failure) },
          .applied [.cancelDeadline deadlineTimer])
      else (m, .stale)
    | .authenticating _ expected _ authentication =>
      if expected = transportId then
        ({ m.applySession .closed with state := .closed epoch (.transportLost failure) },
          .applied (authentication.deadlineTimer.map fun timerId =>
            .authentication (.cancelDeadline timerId)).toList)
      else (m, .stale)
    | .active _ connection =>
      if connection.transportId = transportId then
        match (m.applySession .closed).finishActiveClose (.transportLost failure) none with
        | (m', effects) => (m', .applied effects)
      else (m, .stale)
    | .closing _ expected reason =>
      if expected = transportId then
        ({ m.applySession .closed with state := .closed epoch reason }, .applied [])
      else (m, .stale)
    | .dormant _ | .closed .. => (m, .stale)

/-! ## Dispatch -/

/-- A handler that cannot fail, as a fallible one. -/
def ok (answer : ConnectionMachine × Decision) :
    ConnectionMachine × Except ConnectionMachineError Decision :=
  (answer.1, .ok answer.2)

/-- Handle one input. -/
def dispatch :
    ConnectionInput → ConnectionMachine × Except ConnectionMachineError Decision
  | .start effectId transportId deadlineTimer deadline =>
    ok (m.start effectId transportId deadlineTimer deadline)
  | .transportOpened epoch effectId transportId negotiation =>
    ok (m.transportOpened epoch effectId transportId negotiation)
  | .transportOpenFailed epoch effectId transportId failure =>
    ok (m.transportOpenFailed epoch effectId transportId failure)
  | .apiVersionsNegotiated epoch transportId effectId capabilities =>
    ok (m.apiVersionsNegotiated epoch transportId effectId capabilities)
  | .apiVersionsNegotiatedWithAuthentication epoch transportId effectId capabilities attempt =>
    ok (m.beginAuthentication epoch transportId effectId capabilities attempt)
  | .apiVersionsFailed epoch transportId effectId failure =>
    ok (m.apiVersionsFailed epoch transportId effectId failure)
  | .authentication input => ok (m.authenticationInput input)
  | .submit callId writeEffect deadlineTimer now deadline =>
    m.submit callId writeEffect deadlineTimer now deadline
  | .writeSubmitted epoch transportId effectId => ok (m.writeSubmitted epoch transportId effectId)
  | .abortUnsentCall epoch transportId callId effectId =>
    ok (m.abortUnsentCall epoch transportId callId effectId)
  | .writeFailed epoch transportId effectId failure =>
    ok (m.writeFailed epoch transportId effectId failure)
  | .responseReceived epoch transportId correlationId =>
    ok (m.responseReceived epoch transportId correlationId)
  | .responseRejected epoch transportId fault => ok (m.responseRejected epoch transportId fault)
  | .deadlineElapsed epoch timerId now => ok (m.deadlineElapsed epoch timerId now)
  | .beginDrain => ok m.beginDrain
  | .transportClosed epoch transportId failure => ok (m.transportClosed epoch transportId failure)

/-- Apply one input and return ordered external effects. -/
def apply (input : ConnectionInput) :
    ConnectionMachine × Except ConnectionMachineError ConnectionTransition :=
  match m.nextSequence with
  | none => (m, .error .transitionSequenceExhausted)
  | some sequence =>
    match m.dispatch input with
    | (m', .error error) => (m', .error error)
    | (m', .ok decision) =>
      let record : TransitionRecord :=
        { sequence
          epoch := m'.state.epoch
          source := m.state.phase
          input := input.kind
          target := m'.state.phase
          disposition := decision.disposition
          effectCount := decision.effects.length }
      ({ m' with nextSequence := checkedSucc sequence, trace := m'.trace.push record },
        .ok ⟨decision.effects, record⟩)

end ConnectionMachine

end KafkaDriver
