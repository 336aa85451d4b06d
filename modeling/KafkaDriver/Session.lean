import KafkaDriver.Authentication

/-!
# The Kafka session machine

Transport-independent policy of one session : wait for a transport, negotiate API
versions, optionally authenticate, be ready, drain, close. A connection machine owns one
and feeds it the observations its own transitions accept, so the session knows no
identities, only stages and deadlines.
-/

namespace KafkaDriver

/-- Why initial API negotiation could not establish a session. -/
inductive NegotiationFailure where
  | broker
  | malformed
  | capacity
  | timeout
  deriving DecidableEq

/-- Replies that break the protocol. -/
inductive KafkaSessionProtocolFailure where
  | malformed
  | unexpected
  deriving DecidableEq

/-- Why a session closes. -/
inductive KafkaSessionCloseReason where
  | drained
  | requested
  | negotiationFailed (failure : NegotiationFailure)
  | authenticationFailed (failure : AuthenticationFailure)
  | protocolFailed (failure : KafkaSessionProtocolFailure)
  | transportClosed
  deriving DecidableEq

/-- An instant with the deadline set at it. -/
structure KafkaSessionDeadline where
  now : Moment
  deadline : Moment

/-- The bounds of a session. -/
structure KafkaSessionLimits where
  maxCapabilities : NonZeroUsize

/-- Observations a session accepts. -/
inductive KafkaSessionInput where
  | transportOpened (deadline : KafkaSessionDeadline)
  | apiVersionsSucceeded (capabilities : NegotiatedCapabilities)
  | apiVersionsSucceededWithAuthentication (capabilities : NegotiatedCapabilities)
      (deadline : KafkaSessionDeadline)
  | apiVersionsFailed (failure : NegotiationFailure)
  | authenticationHandshakeSucceeded
  | authenticationHandshakeFailed (failure : AuthenticationFailure)
  | authenticationExchangeCompleted (round : AuthenticationRound) (outcome : ExchangeOutcome)
  | deadlineElapsed (now : Moment)
  | beginDrain
  | drained
  | protocolFailed (failure : KafkaSessionProtocolFailure)
  | closed

/-- What the session asks of its connection. -/
inductive KafkaSessionEffect where
  | startApiVersions (deadline : Moment)
  | startAuthenticationHandshake (mechanism : SaslMechanism) (version : ApiVersion)
      (deadline : Moment)
  | startAuthenticationExchange (round : AuthenticationRound) (version : ApiVersion)
      (deadline : Moment)
  | rescheduleDeadline (at_ : Moment)
  | cancelDeadline
  | sessionReady
  | beginDrain
  | closeSession (reason : KafkaSessionCloseReason)
  deriving DecidableEq

/-- What became of an input. -/
inductive KafkaSessionDisposition where
  | applied
  | ignored
  | ignoredStale
  | fault
  deriving DecidableEq

/-- Ordered effects of one session input and its disposition. -/
structure KafkaSessionTransition where
  effects : List KafkaSessionEffect
  disposition : KafkaSessionDisposition

namespace KafkaSessionTransition

/-- Accepted. -/
def applied (effects : List KafkaSessionEffect) : KafkaSessionTransition := ⟨effects, .applied⟩

/-- Nothing to do. -/
def ignored : KafkaSessionTransition := ⟨[], .ignored⟩

/-- No longer meant. -/
def stale : KafkaSessionTransition := ⟨[], .ignoredStale⟩

/-- Accepted as a fault. -/
def fault (effects : List KafkaSessionEffect) : KafkaSessionTransition := ⟨effects, .fault⟩

end KafkaSessionTransition

namespace KafkaSession

/-- Which reply of the exchange is due. -/
inductive AuthenticationStage where
  | handshaking (deadline : Moment)
  | exchanging (round : AuthenticationRound) (deadline : Moment)

/-- When the reply is due. -/
def AuthenticationStage.deadline : AuthenticationStage → Moment
  | .handshaking deadline | .exchanging _ deadline => deadline

/-- Private state of a session. -/
inductive StateData where
  | awaitingTransport
  | negotiating (deadline : Moment)
  | authenticating (capabilities : NegotiatedCapabilities) (protocol : SaslProtocol)
      (stage : AuthenticationStage)
  | ready (capabilities : NegotiatedCapabilities)
  | draining (capabilities : NegotiatedCapabilities)
  | closing (reason : KafkaSessionCloseReason)
  | closed (reason : KafkaSessionCloseReason)

end KafkaSession

open KafkaSession

/-- Policy owner of one session, with the authentication policy it must satisfy. -/
structure KafkaSessionMachine where
  state : StateData
  limits : KafkaSessionLimits
  authentication : Option AuthenticationPolicy

namespace KafkaSessionMachine

/-- A session without authentication. -/
def new (limits : KafkaSessionLimits) : KafkaSessionMachine := ⟨.awaitingTransport, limits, none⟩

/-- A session that must authenticate. -/
def newAuthenticated (limits : KafkaSessionLimits) (authentication : AuthenticationPolicy) :
    KafkaSessionMachine :=
  ⟨.awaitingTransport, limits, some authentication⟩

/-! ## Closing -/

variable (m : KafkaSessionMachine)

/-- Begin to close. -/
def close (reason : KafkaSessionCloseReason) (cancelDeadline fault : Bool) :
    KafkaSessionMachine × KafkaSessionTransition :=
  let effects := .closeSession reason :: if cancelDeadline then [.cancelDeadline] else []
  ({ m with state := .closing reason }, if fault then .fault effects else .applied effects)

/-- Close for a failed negotiation. -/
def closeNegotiation (failure : NegotiationFailure) (cancelDeadline : Bool) :
    KafkaSessionMachine × KafkaSessionTransition :=
  m.close (.negotiationFailed failure) cancelDeadline false

/-- Close for a failed authentication. -/
def closeAuthentication (failure : AuthenticationFailure) (cancelDeadline : Bool) :
    KafkaSessionMachine × KafkaSessionTransition :=
  m.close (.authenticationFailed failure) cancelDeadline false

/-! ## Negotiation -/

/-- Ask for the versions. -/
def transportOpened (attempt : KafkaSessionDeadline) :
    KafkaSessionMachine × KafkaSessionTransition :=
  match m.state with
  | .awaitingTransport =>
    if attempt.deadline ≤ attempt.now then m.closeNegotiation .timeout false
    else
      ({ m with state := .negotiating attempt.deadline },
        .applied [.startApiVersions attempt.deadline])
  | _ => (m, .stale)

/-- Be ready, if no policy asks for more. -/
def apiVersionsSucceeded (capabilities : NegotiatedCapabilities) :
    KafkaSessionMachine × KafkaSessionTransition :=
  match m.state with
  | .negotiating _ =>
    if capabilities.len > m.limits.maxCapabilities.get then m.closeNegotiation .capacity true
    else if m.authentication.isSome then m.closeAuthentication .protocol true
    else ({ m with state := .ready capabilities }, .applied [.cancelDeadline, .sessionReady])
  | _ => (m, .stale)

/-- Begin to authenticate. -/
def apiVersionsSucceededWithAuthentication (capabilities : NegotiatedCapabilities)
    (attempt : KafkaSessionDeadline) : KafkaSessionMachine × KafkaSessionTransition :=
  match m.state with
  | .negotiating _ =>
    if capabilities.len > m.limits.maxCapabilities.get then m.closeNegotiation .capacity true
    else
      match m.authentication with
      | none => m.closeAuthentication .protocol true
      | some policy =>
        match capabilities.version policy.handshakeApiKey,
            capabilities.version policy.authenticateApiKey with
        | some handshakeVersion, some authenticateVersion =>
          if attempt.deadline ≤ attempt.now then m.closeAuthentication .timeout true
          else
            let protocol : SaslProtocol :=
              ⟨policy.mechanism, handshakeVersion, authenticateVersion⟩
            let stage := AuthenticationStage.handshaking attempt.deadline
            ({ m with state := .authenticating capabilities protocol stage },
              .applied [.cancelDeadline,
                .startAuthenticationHandshake policy.mechanism handshakeVersion attempt.deadline])
        | _, _ => m.closeAuthentication .protocol true
  | _ => (m, .stale)

/-- Close without versions. -/
def apiVersionsFailed (failure : NegotiationFailure) :
    KafkaSessionMachine × KafkaSessionTransition :=
  match m.state with
  | .negotiating _ => m.closeNegotiation failure true
  | _ => (m, .stale)

/-! ## Authentication -/

/-- Begin the first round. -/
def authenticationHandshakeSucceeded : KafkaSessionMachine × KafkaSessionTransition :=
  match m.state with
  | .authenticating capabilities protocol (.handshaking deadline) =>
    let stage := AuthenticationStage.exchanging .first deadline
    ({ m with state := .authenticating capabilities protocol stage },
      .applied [.startAuthenticationExchange .first protocol.authenticateVersion deadline])
  | _ => (m, .stale)

/-- Close, if it authenticates. -/
def authenticationFailed (failure : AuthenticationFailure) :
    KafkaSessionMachine × KafkaSessionTransition :=
  match m.state with
  | .authenticating _ _ _ => m.closeAuthentication failure true
  | _ => (m, .stale)

/-- Be ready after authentication. -/
def finishAuthentication : KafkaSessionMachine × KafkaSessionTransition :=
  match m.state with
  | .authenticating capabilities _ _ =>
    ({ m with state := .ready capabilities }, .applied [.cancelDeadline, .sessionReady])
  -- the source leaves its placeholder behind here; no caller reaches this arm
  | _ => ({ m with state := .closing .requested }, .stale)

/-- End or continue the rounds. -/
def authenticationExchangeCompleted (round : AuthenticationRound) (outcome : ExchangeOutcome) :
    KafkaSessionMachine × KafkaSessionTransition :=
  match m.state with
  | .authenticating capabilities protocol (.exchanging expected deadline) =>
    if round ≠ expected then (m, .stale)
    else
      match outcome with
      | .succeeded => m.finishAuthentication
      | .failed failure => m.authenticationFailed failure
      | .continue =>
        match round.next, m.authentication with
        | none, _ => m.authenticationFailed .tooManyRounds
        | some _, none => m.authenticationFailed .protocol
        | some next, some policy =>
          if next.get > policy.limits.maxExchangeRounds.get then
            m.authenticationFailed .tooManyRounds
          else
            let stage := AuthenticationStage.exchanging next deadline
            ({ m with state := .authenticating capabilities protocol stage },
              .applied [.startAuthenticationExchange next protocol.authenticateVersion deadline])
  | _ => (m, .stale)

/-! ## Deadlines and lifecycle -/

/-- Close at a deadline, or wait on before it. -/
def deadlineElapsed (now : Moment) : KafkaSessionMachine × KafkaSessionTransition :=
  match m.state with
  | .negotiating deadline =>
    if now < deadline then (m, .applied [.rescheduleDeadline deadline])
    else m.closeNegotiation .timeout false
  | .authenticating _ _ stage =>
    if now < stage.deadline then (m, .applied [.rescheduleDeadline stage.deadline])
    else m.closeAuthentication .timeout true
  | _ => (m, .stale)

/-- Drain a ready session, close any other. -/
def beginDrain (m : KafkaSessionMachine) : KafkaSessionMachine × KafkaSessionTransition :=
  match m.state with
  | .awaitingTransport => m.close .requested false false
  | .negotiating _ | .authenticating _ _ _ => m.close .requested true false
  | .ready capabilities =>
    ({ m with state := .draining capabilities }, .applied [.beginDrain])
  | .draining _ | .closing _ | .closed _ => (m, .ignored)

/-- Close what was draining. -/
def drained (m : KafkaSessionMachine) : KafkaSessionMachine × KafkaSessionTransition :=
  match m.state with
  | .draining _ => m.close .drained false false
  | _ => (m, .stale)

/-- Close for a broken reply. -/
def protocolFailed (m : KafkaSessionMachine) (failure : KafkaSessionProtocolFailure) :
    KafkaSessionMachine × KafkaSessionTransition :=
  match m.state with
  | .closing _ | .closed _ => (m, .stale)
  | .negotiating _ | .authenticating _ _ _ => m.close (.protocolFailed failure) true true
  | .awaitingTransport | .ready _ | .draining _ => m.close (.protocolFailed failure) false true

/-- The connection is gone. -/
def closed (m : KafkaSessionMachine) : KafkaSessionMachine × KafkaSessionTransition :=
  match m.state with
  | .closed _ => (m, .ignored)
  | .closing reason => ({ m with state := .closed reason }, .applied [])
  | _ => ({ m with state := .closed .transportClosed }, .applied [])

/-- Handle one input. -/
def apply :
    KafkaSessionInput → KafkaSessionMachine × KafkaSessionTransition
  | .transportOpened deadline => m.transportOpened deadline
  | .apiVersionsSucceeded capabilities => m.apiVersionsSucceeded capabilities
  | .apiVersionsSucceededWithAuthentication capabilities deadline =>
    m.apiVersionsSucceededWithAuthentication capabilities deadline
  | .apiVersionsFailed failure => m.apiVersionsFailed failure
  | .authenticationHandshakeSucceeded => m.authenticationHandshakeSucceeded
  | .authenticationHandshakeFailed failure => m.authenticationFailed failure
  | .authenticationExchangeCompleted round outcome =>
    m.authenticationExchangeCompleted round outcome
  | .deadlineElapsed now => m.deadlineElapsed now
  | .beginDrain => m.beginDrain
  | .drained => m.drained
  | .protocolFailed failure => m.protocolFailed failure
  | .closed => m.closed

end KafkaSessionMachine

end KafkaDriver
