import KafkaDriver.Identity
import KafkaDriver.Search

/-!
# Negotiated capabilities and the SASL child machine

`NegotiatedCapabilities` is the set of APIs usable on one connection, ascending by key,
looked up by binary search. `AuthenticationMachine` is the secret-free owner of one
connection epoch's SASL exchange : a handshake, then numbered exchange rounds up to a
configured bound, all under one deadline. Every outcome is fenced by epoch, transport,
effect and round.
-/

namespace KafkaDriver

/-! ## Capabilities -/

/-- Kafka API key, an `i16`. -/
structure ApiKey where
  raw : ℤ
  deriving DecidableEq

instance : LinearOrder ApiKey :=
  LinearOrder.lift' ApiKey.raw fun a b h => by cases a; cases b; simp_all

/-- Kafka API version, an `i16`. -/
structure ApiVersion where
  value : ℤ
  deriving DecidableEq

/-- One broker-and-driver version overlap. -/
structure NegotiatedApi where
  apiKey : ApiKey
  min : ApiVersion
  max : ApiVersion
  deriving DecidableEq

/-- The highest version of the overlap. -/
def NegotiatedApi.version (api : NegotiatedApi) : ApiVersion := api.max

/-- APIs usable on one connection epoch, ascending by key. -/
structure NegotiatedCapabilities where
  apis : List NegotiatedApi
  ascending : apis.Pairwise fun a b => a.apiKey < b.apiKey
  deriving DecidableEq

namespace NegotiatedCapabilities

def empty : NegotiatedCapabilities := ⟨[], .nil⟩

def len (c : NegotiatedCapabilities) : ℕ := c.apis.length

def api (c : NegotiatedCapabilities) (key : ApiKey) : Option NegotiatedApi :=
  Search.findBy (fun a => compare a.apiKey key) c.apis

def version (c : NegotiatedCapabilities) (key : ApiKey) : Option ApiVersion :=
  (c.api key).map NegotiatedApi.version

end NegotiatedCapabilities

/-! ## Vocabulary -/

/-- Why a connection could not establish an authenticated session. -/
inductive AuthenticationFailure where
  | unsupportedMechanism
  | rejected
  | malformed
  | policyLimitExceeded
  | localCapacity
  | invalidServerProof
  | tooManyRounds
  | timeout
  | protocol
  deriving DecidableEq

inductive SaslMechanism where
  | plain
  | scramSha256
  | scramSha512
  deriving DecidableEq

/-- A `NonZeroU8`. -/
@[ext]
structure NonZeroU8 where
  get : ℕ
  pos : 0 < get
  lt : get < 256

instance : DecidableEq NonZeroU8 := fun _ _ => decidable_of_iff _ NonZeroU8.ext_iff.symm

/-- One-based SASL exchange round. -/
structure AuthenticationRound where
  value : NonZeroU8
  deriving DecidableEq

namespace AuthenticationRound

def get (r : AuthenticationRound) : ℕ := r.value.get

def first : AuthenticationRound := ⟨⟨1, Nat.one_pos, by decide⟩⟩

/-- The next round, absent past `u8::MAX`. -/
def next (r : AuthenticationRound) : Option AuthenticationRound :=
  if h : r.get + 1 < 256 then some ⟨⟨r.get + 1, Nat.succ_pos _, h⟩⟩ else none

end AuthenticationRound

structure AuthenticationLimits where
  maxExchangeRounds : NonZeroU8
  deriving DecidableEq

/-- Non-secret policy naming the SASL mechanism and the wire APIs that carry it. -/
structure AuthenticationPolicy where
  mechanism : SaslMechanism
  handshakeApiKey : ApiKey
  authenticateApiKey : ApiKey
  limits : AuthenticationLimits

/-- Wire versions selected for one mechanism. -/
structure SaslProtocol where
  mechanism : SaslMechanism
  handshakeVersion : ApiVersion
  authenticateVersion : ApiVersion
  deriving DecidableEq

/-- Reserved identities and time bounds of one authentication attempt. -/
structure AuthenticationAttempt where
  effectId : EffectId
  deadlineTimer : TimerId
  now : Moment
  deadline : Moment

/-- What an exchange came to. -/
inductive ExchangeOutcome where
  | «continue»
  | succeeded
  | failed (failure : AuthenticationFailure)

/-- What the child is told. -/
inductive AuthenticationInput where
  | start (attempt : AuthenticationAttempt)
  | handshakeAccepted (epoch : ConnectionEpoch) (transportId : TransportId) (effectId : EffectId)
  | handshakeFailed (epoch : ConnectionEpoch) (transportId : TransportId) (effectId : EffectId)
      (failure : AuthenticationFailure)
  | exchangeCompleted (epoch : ConnectionEpoch) (transportId : TransportId) (effectId : EffectId)
      (round : AuthenticationRound) (outcome : ExchangeOutcome)
  | deadlineElapsed (epoch : ConnectionEpoch) (timerId : TimerId) (now : Moment)

/-- What the child asks for. -/
inductive AuthenticationEffect where
  | scheduleDeadline (epoch : ConnectionEpoch) (timerId : TimerId) (at_ : Moment)
  | sendHandshake (epoch : ConnectionEpoch) (transportId : TransportId) (effectId : EffectId)
      (correlationId : CorrelationId) (mechanism : SaslMechanism) (version : ApiVersion)
  | sendExchange (epoch : ConnectionEpoch) (transportId : TransportId) (effectId : EffectId)
      (round : AuthenticationRound) (correlationId : CorrelationId) (version : ApiVersion)
  | cancelDeadline (timerId : TimerId)
  | succeeded
  | failed (failure : AuthenticationFailure)
  deriving DecidableEq

/-- Where the child is. -/
inductive AuthenticationState where
  | dormant
  | handshaking (effectId : EffectId) (deadlineTimer : TimerId) (deadline : Moment)
  | exchanging (effectId : EffectId) (round : AuthenticationRound) (deadlineTimer : TimerId)
      (deadline : Moment)
  | succeeded
  | failed (failure : AuthenticationFailure)
  deriving DecidableEq

inductive AuthenticationDisposition where
  | applied
  | ignoredStale
  deriving DecidableEq

/-- Ordered effects of one authentication input and whether it changed the machine. -/
structure AuthenticationTransition where
  effects : List AuthenticationEffect
  disposition : AuthenticationDisposition

namespace AuthenticationTransition

def applied (effects : List AuthenticationEffect) : AuthenticationTransition :=
  ⟨effects, .applied⟩

def stale : AuthenticationTransition := ⟨[], .ignoredStale⟩

end AuthenticationTransition

/-! ## The machine -/

/-- Policy owner of one connection epoch's SASL exchange. -/
structure AuthenticationMachine where
  epoch : ConnectionEpoch
  transportId : TransportId
  protocol : SaslProtocol
  limits : AuthenticationLimits
  state : AuthenticationState
  deriving DecidableEq

namespace AuthenticationMachine

variable (m : AuthenticationMachine) (epoch : ConnectionEpoch) (transportId : TransportId)
  (effectId : EffectId)

def new (protocol : SaslProtocol) (limits : AuthenticationLimits) : AuthenticationMachine :=
  ⟨epoch, transportId, protocol, limits, .dormant⟩

def handshakeCorrelation : CorrelationId := ⟨1⟩

/-- The timer of the stage that is outstanding. -/
def deadlineTimer : Option TimerId :=
  match m.state with
  | .handshaking _ timer _ | .exchanging _ _ timer _ => some timer
  | .dormant | .succeeded | .failed _ => none

def activeDeadline : Option (TimerId × Moment) :=
  match m.state with
  | .handshaking _ timer deadline | .exchanging _ _ timer deadline => some (timer, deadline)
  | .dormant | .succeeded | .failed _ => none

def «matches» (expectedEffect : EffectId) : Bool :=
  epoch = m.epoch && transportId = m.transportId && effectId = expectedEffect

/-- The frame of an exchange. -/
def exchangeEffect (round : AuthenticationRound) : AuthenticationEffect :=
  .sendExchange m.epoch m.transportId effectId round ⟨(round.get : ℤ) + 1⟩
    m.protocol.authenticateVersion

def succeed (deadlineTimer : TimerId) : AuthenticationMachine × AuthenticationTransition :=
  ({ m with state := .succeeded }, .applied [.cancelDeadline deadlineTimer, .succeeded])

def fail (failure : AuthenticationFailure) (deadlineTimer : Option TimerId) :
    AuthenticationMachine × AuthenticationTransition :=
  ({ m with state := .failed failure },
    .applied ((deadlineTimer.map AuthenticationEffect.cancelDeadline).toList ++ [.failed failure]))

/-- Begin with the handshake. -/
def start (attempt : AuthenticationAttempt) : AuthenticationMachine × AuthenticationTransition :=
  if m.state ≠ .dormant then (m, .stale)
  else if attempt.deadline ≤ attempt.now then m.fail .timeout none
  else
    ({ m with state := .handshaking attempt.effectId attempt.deadlineTimer attempt.deadline },
      .applied [.scheduleDeadline m.epoch attempt.deadlineTimer attempt.deadline,
        .sendHandshake m.epoch m.transportId attempt.effectId handshakeCorrelation
          m.protocol.mechanism m.protocol.handshakeVersion])

/-- The mechanism was accepted. -/
def handshakeAccepted : AuthenticationMachine × AuthenticationTransition :=
  match m.state with
  | .handshaking expectedEffect timer deadline =>
    if m.matches epoch transportId effectId expectedEffect then
      ({ m with state := .exchanging effectId .first timer deadline },
        .applied [m.exchangeEffect effectId .first])
    else (m, .stale)
  | _ => (m, .stale)

/-- The handshake failed. -/
def handshakeFailed (failure : AuthenticationFailure) :
    AuthenticationMachine × AuthenticationTransition :=
  match m.state with
  | .handshaking expectedEffect timer _ =>
    if m.matches epoch transportId effectId expectedEffect then m.fail failure (some timer)
    else (m, .stale)
  | _ => (m, .stale)

/-- An exchange was answered. -/
def exchangeCompleted (round : AuthenticationRound) (outcome : ExchangeOutcome) :
    AuthenticationMachine × AuthenticationTransition :=
  match m.state with
  | .exchanging expectedEffect expectedRound timer deadline =>
    if !m.matches epoch transportId effectId expectedEffect || round ≠ expectedRound then
      (m, .stale)
    else
      match outcome with
      | .succeeded => m.succeed timer
      | .failed failure => m.fail failure (some timer)
      | .continue =>
        match round.next with
        | none => m.fail .tooManyRounds (some timer)
        | some next =>
          if next.get > m.limits.maxExchangeRounds.get then m.fail .tooManyRounds (some timer)
          else
            ({ m with state := .exchanging effectId next timer deadline },
              .applied [m.exchangeEffect effectId next])
  | _ => (m, .stale)

/-- The timer fired. -/
def deadlineElapsed (timerId : TimerId) (now : Moment) :
    AuthenticationMachine × AuthenticationTransition :=
  match m.activeDeadline with
  | none => (m, .stale)
  | some (expectedTimer, deadline) =>
    if epoch ≠ m.epoch ∨ timerId ≠ expectedTimer then (m, .stale)
    else if now < deadline then (m, .applied [.scheduleDeadline epoch timerId deadline])
    else m.fail .timeout (some timerId)

/-- Handle one input. -/
def apply (m : AuthenticationMachine) :
    AuthenticationInput → AuthenticationMachine × AuthenticationTransition
  | .start attempt => m.start attempt
  | .handshakeAccepted epoch transportId effectId => m.handshakeAccepted epoch transportId effectId
  | .handshakeFailed epoch transportId effectId failure =>
    m.handshakeFailed epoch transportId effectId failure
  | .exchangeCompleted epoch transportId effectId round outcome =>
    m.exchangeCompleted epoch transportId effectId round outcome
  | .deadlineElapsed epoch timerId now => m.deadlineElapsed epoch timerId now

end AuthenticationMachine

end KafkaDriver
