import KafkaDriver.CallQueue
import KafkaDriver.SessionGate

/-!
# The connection and the session inside it

A connection machine drives a session machine, and while it authenticates a SASL child as
well. The three decide capacity, policy, versions, rounds and deadlines each for itself.
`InStep` says that they agree : the session is in the stage the connection's state calls
for, with the same capabilities, round and deadline.

`Step` lists what one input can do to a connection that is in step with its session, and every
successful input does one of these things (`dispatch_moves`).
-/

namespace KafkaDriver

open Connection Runs List AuthenticationMachine KafkaSessionMachine PendingQueue

/-! ## What a state owns -/

namespace Connection.StateData

/-- The deadline timers a state owns. -/
def timers : StateData → List TimerId
  | .opening _ _ _ timer _ | .negotiating _ _ _ timer _ => [timer]
  | .authenticating _ _ _ authentication => authentication.deadlineTimer.toList
  | .active _ connection => connection.pending.calls.map PendingCall.deadlineTimer
  | .dormant _ | .closing .. | .closed .. => []

/-- The transport of an epoch that has opened one and not closed it. -/
def transport : StateData → Option TransportId
  | .opening _ _ transportId _ _ | .negotiating _ transportId _ _ _
  | .authenticating _ transportId _ _ => some transportId
  | .active _ connection => some connection.transportId
  | .dormant _ | .closing .. | .closed .. => none

end Connection.StateData

namespace ConnectionEffect

/-- The timer an effect arms. -/
def arms : ConnectionEffect → Option TimerId
  | .scheduleOpenDeadline _ timer _ | .scheduleNegotiationDeadline _ timer _
  | .authentication (.scheduleDeadline _ timer _) | .scheduleDeadline _ _ timer _ => some timer
  | _ => none

/-- The timer an effect disarms. -/
def disarms : ConnectionEffect → Option TimerId
  | .cancelDeadline timer | .authentication (.cancelDeadline timer) => some timer
  | _ => none

/-- Effects that only end what was begun : a timer or a call. -/
def isSettling : ConnectionEffect → Bool
  | .cancelDeadline _ | .authentication (.cancelDeadline _) | .completeResponse ..
  | .failCall .. => true
  | _ => false

section Simp

variable {timer : TimerId} {callId : CallId} {correlationId : CorrelationId}
  {failure : CallFailure} {delivery : Delivery} {epoch : ConnectionEpoch}
  {transportId : TransportId} {reason : CloseReason}

@[simp] theorem isSettling_cancelDeadline : (cancelDeadline timer).isSettling = true := rfl

@[simp] theorem isSettling_authentication :
    (authentication (.cancelDeadline timer)).isSettling = true := rfl

@[simp] theorem isSettling_completeResponse :
    (completeResponse callId correlationId).isSettling = true := rfl

@[simp] theorem isSettling_failCall : (failCall callId failure delivery).isSettling = true := rfl

@[simp] theorem isSettling_closeTransport :
    (closeTransport epoch transportId reason).isSettling = false := rfl

@[simp] theorem disarms_cancelDeadline : (cancelDeadline timer).disarms = some timer := rfl

@[simp] theorem disarms_authentication :
    (authentication (.cancelDeadline timer)).disarms = some timer := rfl

@[simp] theorem disarms_completeResponse : (completeResponse callId correlationId).disarms = none :=
  rfl

@[simp] theorem disarms_failCall : (failCall callId failure delivery).disarms = none := rfl

@[simp] theorem disarms_closeTransport :
    (closeTransport epoch transportId reason).disarms = none := rfl

end Simp

/-- Of effects that do one thing besides settling, each settles or is that thing. -/
theorem isSettling_or_eq {effs : List ConnectionEffect} {act f : ConnectionEffect}
    (once : effs.filter (fun f => !f.isSettling) = [act]) (mem : f ∈ effs) :
    f.isSettling = true ∨ f = act := by
  cases settling : f.isSettling with
  | true => exact .inl rfl
  | false =>
    have ho : f ∈ effs.filter fun f => !f.isSettling :=
      mem_filter.2 ⟨mem, by simp [settling]⟩
    rw [once, mem_singleton] at ho
    exact .inr ho

end ConnectionEffect

/-- The timer whose expiry an input reports, with the epoch it names. -/
def ConnectionInput.fired : ConnectionInput → Option (ConnectionEpoch × TimerId)
  | .deadlineElapsed epoch timer _ | .authentication (.deadlineElapsed epoch timer _) =>
    some (epoch, timer)
  | _ => none

/-- A decision that changes nothing but may tell a caller why. -/
def Connection.Decision.Refuses (d : Decision) : Prop :=
  d = .stale ∨ d = .ignored ∨ ∃ callId failure, d = ConnectionMachine.reject callId failure

/-! ## The session agrees with the connection -/

/-- The stage of a child's exchange as a session names it. -/
def AuthenticationMachine.stage (m : AuthenticationMachine) :
    Option KafkaSession.AuthenticationStage :=
  match m.state with
  | .handshaking _ _ deadline => some (.handshaking deadline)
  | .exchanging _ round _ deadline => some (.exchanging round deadline)
  | .dormant | .succeeded | .failed _ => none

/-- The child's answer to the exchange it waits for. -/
theorem AuthenticationMachine.exchangeCompleted_matching (child : AuthenticationMachine)
    {fx : EffectId} {round : AuthenticationRound} {t : TimerId} {due : Moment}
    (hg : child.state = .exchanging fx round t due) (out : ExchangeOutcome) :
    child.apply (.exchangeCompleted child.epoch child.transportId fx round out) =
      match out with
      | .succeeded => child.succeed t
      | .failed failure => child.fail failure (some t)
      | .continue =>
        match round.next with
        | none => child.fail .tooManyRounds (some t)
        | some next =>
          if next.get > child.limits.maxExchangeRounds.get then
            child.fail .tooManyRounds (some t)
          else
            ({ child with state := .exchanging fx next t due },
              .applied [child.exchangeEffect fx next]) := by
  cases out <;> cases following : round.next <;>
    simp [AuthenticationMachine.apply, AuthenticationMachine.exchangeCompleted, hg, following,
      AuthenticationMachine.matches]

/-- A correlation is looked for, with this result. -/
def ActiveConnection.Draws (connection : ActiveConnection)
    (result : CorrelationAllocator × Option CorrelationId) : Prop :=
  connection.correlations.allocate connection.pending.len connection.pending.containsCorrelation =
    result

namespace ConnectionMachine

/-- The session states a connection state allows. -/
def Agrees (authentication : Option AuthenticationPolicy) (session : KafkaSession.StateData) :
    StateData → Prop
  | .dormant _ | .opening .. => session = .awaitingTransport
  | .negotiating _ _ _ _ deadline => session = .negotiating deadline
  | .authenticating epoch transportId capabilities child =>
    child.epoch = epoch ∧ child.transportId = transportId ∧
    (∃ policy, authentication = some policy ∧ child.limits = policy.limits) ∧
    ∃ stage, child.stage = some stage ∧
      session = .authenticating capabilities child.protocol stage
  | .active .ready connection => session = .ready connection.capabilities
  | .active .draining connection => session = .draining connection.capabilities
  | .closing .. | .closed .. => True

/-- A connection and its session have the same bounds and are in the same stage. -/
structure InStep (m : ConnectionMachine) : Prop where
  bounds : m.session.limits.maxCapabilities = m.limits.maxCapabilities
  policy : m.session.authentication = m.authentication
  agrees : Agrees m.authentication m.session.state m.state

theorem InStep.agreed {m : ConnectionMachine} (hi : m.InStep) {state : StateData}
    (held : m.state = state) : Agrees m.authentication m.session.state state :=
  held ▸ hi.agrees

/-- The session `session` moved on to `state`. -/
def sessionAt (m : ConnectionMachine) (state : KafkaSession.StateData) : KafkaSessionMachine :=
  { m.session with state }

/-! ## What an input does -/

/-- Why an epoch can end without closing a transport. -/
inductive Ends (m : ConnectionMachine) : ConnectionInput → CloseReason → Prop
  | unstarted {epoch : ConnectionEpoch} (state : m.state = .dormant epoch) :
      Ends m .beginDrain .requested
  | unopened {epoch effectId transportId timer deadline} {failure : TransportFailure}
      (state : m.state = .opening epoch effectId transportId timer deadline) :
      Ends m (.transportOpenFailed epoch effectId transportId failure) (.openFailed failure)
  | lost {transportId : TransportId} {failure : TransportFailure}
      (live : m.state.transport = some transportId) :
      Ends m (.transportClosed m.state.epoch transportId failure) (.transportLost failure)
  | closed {epoch transportId reason} {failure : TransportFailure}
      (state : m.state = .closing epoch transportId reason) :
      Ends m (.transportClosed epoch transportId failure) reason

/-- `input` completes the exchange that `child` waits for, and `next` is the child's state
with the exchange that comes after it. -/
inductive Exchanges (child : AuthenticationMachine) :
    AuthenticationInput → EffectId → AuthenticationRound → TimerId → Moment → Prop
  | first {effectId timer deadline} (state : child.state = .handshaking effectId timer deadline) :
      Exchanges child (.handshakeAccepted child.epoch child.transportId effectId) effectId .first
        timer deadline
  | next {effectId previous round timer deadline}
      (state : child.state = .exchanging effectId previous timer deadline)
      (following : previous.next = some round)
      (room : round.get ≤ child.limits.maxExchangeRounds.get) :
      Exchanges child
        (.exchangeCompleted child.epoch child.transportId effectId previous .continue) effectId
        round timer deadline

/-- What one input can do to a connection that is in step with its session. -/
inductive Step (m : ConnectionMachine) :
    ConnectionInput → StateData → KafkaSessionMachine → Decision → Prop
  | kept {input decision} (refuses : decision.Refuses)
      (unheard : ∀ timer, input.fired = some (m.state.epoch, timer) → timer ∈ m.state.timers →
        input.kind = .authentication ∧ m.state.phase ≠ .authenticating) :
      Step m input m.state m.session decision
  | exhausted {input connection correlations callId} (state : m.state = .active .ready connection)
      (unfired : input.fired = none) (drawn : connection.Draws (correlations, none)) :
      Step m input (.active .ready { connection with correlations }) m.session
        (reject callId .correlationSpaceExhausted)
  | rearmed {input timer effect} (fired : input.fired = some (m.state.epoch, timer))
      (owned : timer ∈ m.state.timers) (arms : effect.arms = some timer) :
      Step m input m.state m.session (.applied [effect])
  | opens {epoch effectId transportId timer deadline} (state : m.state = .dormant epoch) :
      Step m (.start effectId transportId timer deadline)
        (.opening epoch effectId transportId timer deadline) m.session
        (.applied [.scheduleOpenDeadline epoch timer deadline,
          .openTransport epoch effectId transportId])
  | negotiates {epoch effectId transportId timer deadline attempt}
      (state : m.state = .opening epoch effectId transportId timer deadline) :
      Step m (.transportOpened epoch effectId transportId attempt)
        (.negotiating epoch transportId attempt.effectId attempt.deadlineTimer attempt.deadline)
        (m.sessionAt (.negotiating attempt.deadline))
        (.applied [.cancelDeadline timer,
          .scheduleNegotiationDeadline epoch attempt.deadlineTimer attempt.deadline,
          .negotiateApiVersions epoch transportId attempt.effectId negotiationCorrelation])
  | handshakes {epoch transportId effectId timer deadline capabilities attempt policy protocol}
      (state : m.state = .negotiating epoch transportId effectId timer deadline)
      (required : m.authentication = some policy) :
      Step m (.apiVersionsNegotiatedWithAuthentication epoch transportId effectId capabilities
          attempt)
        (.authenticating epoch transportId capabilities ⟨epoch, transportId, protocol,
          policy.limits, .handshaking attempt.effectId attempt.deadlineTimer attempt.deadline⟩)
        (m.sessionAt (.authenticating capabilities protocol (.handshaking attempt.deadline)))
        (.applied [.cancelDeadline timer,
          .authentication (.scheduleDeadline epoch attempt.deadlineTimer attempt.deadline),
          .authentication (.sendHandshake epoch transportId attempt.effectId
            handshakeCorrelation protocol.mechanism
            protocol.handshakeVersion)])
  | exchanges {epoch transportId capabilities child input effectId round timer deadline}
      (state : m.state = .authenticating epoch transportId capabilities child)
      (exchanges : Exchanges child input effectId round timer deadline) :
      Step m (.authentication input)
        (.authenticating epoch transportId capabilities
          { child with state := .exchanging effectId round timer deadline })
        (m.sessionAt (.authenticating capabilities child.protocol (.exchanging round deadline)))
        (.applied [.authentication (child.exchangeEffect effectId round)])
  | authenticated {epoch transportId capabilities child effectId round timer deadline}
      (state : m.state = .authenticating epoch transportId capabilities child)
      (exchanging : child.state = .exchanging effectId round timer deadline) :
      Step m (.authentication
          (.exchangeCompleted child.epoch child.transportId effectId round .succeeded))
        (.active .ready (.new epoch transportId capabilities m.limits))
        (m.sessionAt (.ready capabilities))
        (.applied [.authentication (.cancelDeadline timer)])
  | negotiated {epoch transportId effectId timer deadline capabilities}
      (state : m.state = .negotiating epoch transportId effectId timer deadline)
      (unrequired : m.authentication = none) :
      Step m (.apiVersionsNegotiated epoch transportId effectId capabilities)
        (.active .ready (.new epoch transportId capabilities m.limits))
        (m.sessionAt (.ready capabilities)) (.applied [.cancelDeadline timer])
  | submits {connection correlations callId correlationId effectId timer now deadline}
      (state : m.state = .active .ready connection)
      (fresh : timer ∉ connection.pending.calls.map PendingCall.deadlineTimer)
      (room : connection.pending.isFull = false)
      (drawn : connection.Draws (correlations, some correlationId)) :
      Step m (.submit callId effectId timer now deadline)
        (.active .ready { connection with
          correlations
          pending := connection.pending.push
            (.new callId correlationId effectId timer deadline) })
        m.session
        (.applied [.scheduleDeadline connection.epoch callId timer deadline,
          .writeRequest connection.epoch connection.transportId callId correlationId effectId])
  | marks {input mode connection pending} (state : m.state = .active mode connection)
      (unfired : input.fired = none)
      (timers : pending.calls.map PendingCall.deadlineTimer =
        connection.pending.calls.map PendingCall.deadlineTimer)
      (same : pending.capacity = connection.pending.capacity ∧
        pending.calls.map PendingCall.correlationId =
          connection.pending.calls.map PendingCall.correlationId) :
      Step m input (.active mode { connection with pending }) m.session (.applied [])
  | settles {input mode connection before call after pending effect}
      (state : m.state = .active mode connection) (unfired : input.fired = none)
      (calls : connection.pending.calls = before ++ call :: after)
      (rest : pending.calls = before ++ after)
      (left : mode = .draining → pending.calls ≠ [])
      (settling : effect.isSettling = true) (disarms : effect.disarms = none)
      (same : pending.capacity = connection.pending.capacity) :
      Step m input (.active mode { connection with pending }) m.session
        (.applied [.cancelDeadline call.deadlineTimer, effect])
  | drains {connection} (state : m.state = .active .ready connection)
      (left : connection.pending.calls ≠ []) :
      Step m .beginDrain (.active .draining connection)
        (m.sessionAt (.draining connection.capabilities)) (.applied [])
  | closes {input transportId reason session effects disposition}
      (live : m.state.transport = some transportId)
      (once : effects.filter (fun f => !f.isSettling) =
        [.closeTransport m.state.epoch transportId reason])
      (covers : ∀ timer ∈ m.state.timers, timer ∈ effects.filterMap ConnectionEffect.disarms ∨
        input.fired = some (m.state.epoch, timer)) :
      Step m input (.closing m.state.epoch transportId reason) session ⟨effects, disposition⟩
  | ends {input reason session effects} (ends : m.Ends input reason)
      (settling : ∀ f ∈ effects, f.isSettling = true)
      (covers : ∀ timer ∈ m.state.timers,
        timer ∈ effects.filterMap ConnectionEffect.disarms) :
      Step m input (.closed m.state.epoch reason) session (.applied effects)

/-- The decisions an input can get : accepted, with any effects, or refused with none, except that
a refused call is told so. -/
inductive Decides (input : ConnectionInput) (decision : Decision) : Prop
  | accepts (accepted : decision.disposition = .applied ∨ decision.disposition = .fault)
  | stale (eq : decision = .stale)
  | ignores (eq : decision = .ignored)
  | rejects {callId writeEffect timer now deadline failure}
      (submits : input = .submit callId writeEffect timer now deadline)
      (eq : decision = reject callId failure)

/-- Machines that differ in their state, and in how far their session has come. -/
structure Framed (m m' : ConnectionMachine) : Prop where
  limits : m'.limits = m.limits
  authentication : m'.authentication = m.authentication
  sessionLimits : m'.session.limits = m.session.limits
  sessionPolicy : m'.session.authentication = m.session.authentication

/-- A handler's answer is a step that leaves the bounds and the policy as they are, is one step of
the call queue, and is a decision the input can get. -/
structure Moves (m : ConnectionMachine) (input : ConnectionInput)
    (answer : ConnectionMachine × Decision) : Prop extends Framed m answer.1 where
  step : m.Step input answer.1.state answer.1.session answer.2
  queue : m.callQueue.Step input answer.2.disposition (callEffects answer.2.effects)
    answer.1.callQueue
  decides : Decides input answer.2

variable {m m' : ConnectionMachine} {input : ConnectionInput}

/-- Only the state is replaced. -/
theorem Framed.state (m : ConnectionMachine) (state : StateData) : Framed m { m with state } :=
  ⟨rfl, rfl, rfl, rfl⟩

/-- Whatever the session is told, its bounds and policy stay. -/
theorem Framed.session (m : ConnectionMachine) (q : KafkaSessionInput) (state : StateData) :
    Framed m { m with session := (m.session.apply q).1, state } :=
  ⟨rfl, rfl, m.session.apply_limits q, m.session.apply_authentication q⟩

theorem moves_stale (hu : input.fired = none) (c : input.kind ≠ .submit) :
    Moves m input (m, .stale) :=
  ⟨.state m _, .kept (.inl rfl) fun t hf => by simp [hu] at hf,
    .keep rfl (fun _ _ => rfl) c nofun, .stale rfl⟩

theorem moves_ignored (hu : input.fired = none) (c : input.kind ≠ .submit) :
    Moves m input (m, .ignored) :=
  ⟨.state m _, .kept (.inr (.inl rfl)) fun t hf => by simp [hu] at hf,
    .keep rfl (fun _ _ => rfl) c nofun, .ignores rfl⟩

theorem moves_rejected {cid : CallId} {effectId timer now deadline} {err : CallFailure}
    (ha : err ≠ .locallyRejected) :
    Moves m (.submit cid effectId timer now deadline) (m, reject cid err) :=
  ⟨.state m _, .kept (.inr (.inr ⟨cid, err, rfl⟩)) nofun, .refuse ha, .rejects rfl rfl⟩

/-- An expiry that the connection does not hear. -/
theorem moves_unheard (ha : input.Aside)
    (hu : ∀ timer, input.fired = some (m.state.epoch, timer) → timer ∈ m.state.timers →
      input.kind = .authentication ∧ m.state.phase ≠ .authenticating) :
    Moves m input (m, .stale) :=
  ⟨.state m _, .kept (.inl rfl) hu, .quiet ha rfl (fun _ _ => rfl) rfl, .stale rfl⟩

/-- An expiry of a timer the connection does not own. -/
theorem moves_unowned (ha : input.Aside) (hu : ∀ timer,
    input.fired = some (m.state.epoch, timer) → timer ∉ m.state.timers) :
    Moves m input (m, .stale) :=
  moves_unheard ha fun timer hf ho => absurd ho (hu timer hf)

/-- An expiry that comes early : the timer is armed again. -/
theorem moves_rearmed {t : TimerId} {effect : ConnectionEffect} (ha : input.Aside)
    (hf : input.fired = some (m.state.epoch, t)) (ho : t ∈ m.state.timers)
    (arms : effect.arms = some t) : Moves m input (m, .applied [effect]) := by
  refine ⟨.state m _, .rearmed hf ho arms,
    .quiet ha rfl (fun _ _ => rfl) (filterMap_cons_none ?_), .accepts (.inl rfl)⟩
  cases effect <;> first | rfl | cases arms

variable {state : StateData} {transportId : TransportId} {effects : List ConnectionEffect}

/-- A step between states without calls. -/
theorem Framed.quiet (hf : Framed m m') (held : m.state = state)
    (step : m.Step input m'.state m'.session (.applied effects)) (ha : input.Aside)
    (pre : state.callQueue.calls = []) (post : m'.callQueue.calls = [])
    (hs : callEffects effects = []) : Moves m input (m', .applied effects) :=
  have idle := calls_nil held pre
  ⟨hf, step, .quiet ha (post.trans idle.symm) (fun busy => absurd idle busy) hs,
    .accepts (.inl rfl)⟩

variable {epoch : ConnectionEpoch} {reason : CloseReason} {disposition : TransitionDisposition}

/-- Closing the transport of a state, with every timer of it disarmed or fired. -/
theorem Framed.closes (hf : Framed m m') (held : m.state = state)
    (post : m'.state = .closing state.epoch transportId reason)
    (hl : state.transport = some transportId)
    (once : effects.filter (fun f => !f.isSettling) =
      [.closeTransport state.epoch transportId reason])
    (hco : ∀ timer ∈ state.timers, timer ∈ effects.filterMap ConnectionEffect.disarms ∨
      input.fired = some (state.epoch, timer))
    (queue : m.callQueue.Step input disposition (callEffects effects) ⟨none, []⟩)
    (ok : disposition = .applied ∨ disposition = .fault) :
    Moves m input (m', ⟨effects, disposition⟩) := by
  subst held
  have hc : m'.callQueue = ⟨none, []⟩ := by rw [callQueue, post]; rfl
  refine ⟨hf, ?_, ?_, .accepts ok⟩
  · rw [post]
    exact .closes hl once hco
  · rw [hc]
    exact queue

/-- Closing the transport of a state without calls. -/
theorem Framed.shuts (hf : Framed m m') (held : m.state = state)
    (post : m'.state = .closing state.epoch transportId reason)
    (hl : state.transport = some transportId) (ha : input.Aside)
    (pre : state.callQueue.calls = []) (hsi : callEffects effects = [])
    (once : effects.filter (fun f => !f.isSettling) =
      [.closeTransport state.epoch transportId reason])
    (hc : ∀ timer ∈ state.timers, timer ∈ effects.filterMap ConnectionEffect.disarms ∨
      input.fired = some (state.epoch, timer)) : Moves m input (m', .applied effects) :=
  have idle := calls_nil held pre
  hf.closes held post hl once hc (.quiet ha idle.symm (fun busy => absurd idle busy) hsi) (.inl rfl)

/-! ## The session's answers -/

section Session

variable {s : KafkaSessionMachine} {deadline : Moment}

theorem transportOpened_answered (ha : s.state = .awaitingTransport) (a : KafkaSessionDeadline) :
    (s.apply (.transportOpened a)).2.disposition ≠ .ignoredStale := by
  simp only [KafkaSessionMachine.apply, KafkaSessionMachine.transportOpened, ha]
  split_ifs <;> rintro ⟨⟩

theorem apiVersionsSucceeded_answered (neg : s.state = .negotiating deadline)
    (caps : NegotiatedCapabilities) :
    (s.apply (.apiVersionsSucceeded caps)).2.disposition ≠ .ignoredStale := by
  simp only [KafkaSessionMachine.apply, apiVersionsSucceeded, neg]
  split_ifs <;> rintro ⟨⟩

theorem apiVersionsSucceededWithAuthentication_answered
    (neg : s.state = .negotiating deadline) (caps : NegotiatedCapabilities)
    (a : KafkaSessionDeadline) :
    (s.apply (.apiVersionsSucceededWithAuthentication caps a)).2.disposition ≠ .ignoredStale := by
  simp only [KafkaSessionMachine.apply, apiVersionsSucceededWithAuthentication, neg]
  split
  · rintro ⟨⟩
  split
  · rintro ⟨⟩
  · split
    · split <;> rintro ⟨⟩
    · rintro ⟨⟩

theorem apiVersionsFailed_answered (neg : s.state = .negotiating deadline)
    (err : NegotiationFailure) :
    (s.apply (.apiVersionsFailed err)).2.disposition ≠ .ignoredStale := by
  simp only [KafkaSessionMachine.apply, KafkaSessionMachine.apiVersionsFailed, neg]
  rintro ⟨⟩

/-- A session with a deadline answers its expiry. -/
theorem deadlineElapsed_answered (hg : s.state.deadline = some deadline) (now : Moment) :
    (s.apply (.deadlineElapsed now)).2.disposition ≠ .ignoredStale := by
  simp only [KafkaSessionMachine.apply, KafkaSessionMachine.deadlineElapsed]
  split
  · split_ifs <;> rintro ⟨⟩
  · split_ifs <;> rintro ⟨⟩
  · cases state : s.state <;> simp_all [KafkaSession.StateData.deadline]

theorem deadlineElapsed_rescheduled (hg : s.state.deadline = some deadline) {now : Moment}
    (he : now < deadline) : (s.apply (.deadlineElapsed now)).1 = s := by
  simp only [KafkaSessionMachine.apply, KafkaSessionMachine.deadlineElapsed]
  split
  all_goals simp_all [KafkaSession.StateData.deadline]

end Session

/-! ## Opening and negotiating -/

theorem start_moves (m : ConnectionMachine) (effectId transportId timer deadline) :
    Moves m (.start effectId transportId timer deadline)
      (m.start effectId transportId timer deadline) := by
  unfold start
  split
  · rename_i e st
    exact (Framed.state m _).quiet st (.opens st) ⟨nofun, nofun⟩ rfl rfl rfl
  · exact moves_ignored rfl nofun

theorem transportOpened_moves (hi : m.InStep) (epoch effectId transportId attempt) :
    Moves m (.transportOpened epoch effectId transportId attempt)
      (m.transportOpened epoch effectId transportId attempt) := by
  unfold transportOpened
  split
  · rename_i expectedEpoch expectedEffect expectedTransport timer deadline state
    split
    · exact moves_stale rfl nofun
    rename_i hs
    obtain ⟨rfl, rfl, rfl⟩ : epoch = expectedEpoch ∧ effectId = expectedEffect ∧
        transportId = expectedTransport := by simpa [not_or] using hs
    have ha : m.session.state = .awaitingTransport := hi.agreed state
    unfold beginNegotiation
    dsimp only
    rw [if_neg (transportOpened_answered ha _)]
    split_ifs with late
    · refine (Framed.session m _ _).shuts state rfl rfl ⟨nofun, nofun⟩ rfl rfl rfl ?_
      intro other mem
      obtain rfl := mem_singleton.1 mem
      exact .inl (by simp [Decision.applied])
    · have hm : (m.session.apply (.transportOpened ⟨attempt.now, attempt.deadline⟩)).1 =
          m.sessionAt (.negotiating attempt.deadline) := by
        simp [KafkaSessionMachine.apply, KafkaSessionMachine.transportOpened, ha, late, sessionAt]
      rw [hm]
      exact Framed.quiet ⟨rfl, rfl, rfl, rfl⟩ state (.negotiates state) ⟨nofun, nofun⟩ rfl rfl rfl
  · exact moves_stale rfl nofun

theorem transportOpenFailed_moves (m : ConnectionMachine) (epoch effectId transportId failure) :
    Moves m (.transportOpenFailed epoch effectId transportId failure)
      (m.transportOpenFailed epoch effectId transportId failure) := by
  unfold transportOpenFailed
  split
  · rename_i expectedEpoch expectedEffect expectedTransport t due st
    split
    · exact moves_stale rfl nofun
    rename_i hs
    obtain ⟨rfl, rfl, rfl⟩ : epoch = expectedEpoch ∧ effectId = expectedEffect ∧
        transportId = expectedTransport := by simpa [not_or] using hs
    have hs : m.state.epoch = epoch := by rw [st]; rfl
    refine (Framed.state m _).quiet st ?_ ⟨nofun, nofun⟩ rfl rfl rfl
    rw [← hs]
    refine .ends ?_ (by simp) ?_
    · rw [hs]
      exact .unopened st
    · simp [st, StateData.timers]
  · exact moves_stale rfl nofun

/-- A negotiating epoch that closes cancels its timer. -/
theorem closeNegotiating_moves {epoch transportId effectId timer deadline}
    (st : m.state = .negotiating epoch transportId effectId timer deadline)
    (hf : Framed m m') (hs : m'.state = m.state) (ha : input.Aside) :
    Moves m input (m'.closeNegotiating reason) := by
  have hc : Framed m { m' with state := .closing epoch transportId reason } := { hf with }
  unfold closeNegotiating
  rw [hs, st]
  refine hc.shuts st rfl rfl ha rfl rfl rfl ?_
  intro other mem
  obtain rfl := mem_singleton.1 mem
  exact .inl (by simp)

theorem apiVersionsNegotiated_moves (hi : m.InStep) (epoch transportId effectId capabilities) :
    Moves m (.apiVersionsNegotiated epoch transportId effectId capabilities)
      (m.apiVersionsNegotiated epoch transportId effectId capabilities) := by
  unfold apiVersionsNegotiated
  split
  · exact moves_stale rfl nofun
  rename_i t hf
  obtain ⟨due, st⟩ := matchingNegotiation_eq_some hf
  have neg : m.session.state = .negotiating due := hi.agreed st
  have hfr := Framed.session m (.apiVersionsSucceeded capabilities) m.state
  dsimp only
  rw [if_neg (apiVersionsSucceeded_answered neg capabilities)]
  split_ifs with large hr
  · exact closeNegotiating_moves st hfr rfl ⟨nofun, nofun⟩
  · exact closeNegotiating_moves st hfr rfl ⟨nofun, nofun⟩
  have hu : m.authentication = none := by simpa using hr
  have hm : (m.session.apply (.apiVersionsSucceeded capabilities)).1 =
      m.sessionAt (.ready capabilities) := by
    simp [KafkaSessionMachine.apply, apiVersionsSucceeded, neg,
      hi.bounds, hi.policy, hu, large, sessionAt]
  rw [hm]
  exact Framed.quiet ⟨rfl, rfl, rfl, rfl⟩ st (.negotiated st hu) ⟨nofun, nofun⟩ rfl rfl rfl

theorem apiVersionsFailed_moves (hi : m.InStep) (epoch transportId effectId failure) :
    Moves m (.apiVersionsFailed epoch transportId effectId failure)
      (m.apiVersionsFailed epoch transportId effectId failure) := by
  unfold apiVersionsFailed
  split
  · exact moves_stale rfl nofun
  rename_i t hf
  obtain ⟨due, st⟩ := matchingNegotiation_eq_some hf
  have neg : m.session.state = .negotiating due := hi.agreed st
  dsimp only
  rw [if_neg (apiVersionsFailed_answered neg failure)]
  exact closeNegotiating_moves st (Framed.session m _ m.state) rfl ⟨nofun, nofun⟩

theorem beginAuthentication_moves (hi : m.InStep) (epoch transportId effectId capabilities
    attempt) :
    Moves m (.apiVersionsNegotiatedWithAuthentication epoch transportId effectId capabilities
        attempt)
      (m.beginAuthentication epoch transportId effectId capabilities attempt) := by
  unfold beginAuthentication
  split
  · exact moves_stale rfl nofun
  rename_i t hf
  obtain ⟨due, st⟩ := matchingNegotiation_eq_some hf
  have neg : m.session.state = .negotiating due := hi.agreed st
  have hfr := Framed.session m (.apiVersionsSucceededWithAuthentication capabilities
    ⟨attempt.now, attempt.deadline⟩) m.state
  dsimp only
  rw [if_neg (apiVersionsSucceededWithAuthentication_answered neg capabilities _)]
  split_ifs with large
  · exact closeNegotiating_moves st hfr rfl ⟨nofun, nofun⟩
  split
  · exact closeNegotiating_moves st hfr rfl ⟨nofun, nofun⟩
  rename_i pol hr
  split
  · rename_i handshakeVersion authenticateVersion handshake authenticate
    by_cases late : attempt.deadline ≤ attempt.now
    · simp only [AuthenticationMachine.apply, AuthenticationMachine.start,
        AuthenticationMachine.new, fail, late, ne_eq,
        not_true_eq_false, if_true, if_false]
      exact closeNegotiating_moves st hfr rfl ⟨nofun, nofun⟩
    · have hm : (m.session.apply (.apiVersionsSucceededWithAuthentication capabilities
          ⟨attempt.now, attempt.deadline⟩)).1 = m.sessionAt (.authenticating capabilities
            ⟨pol.mechanism, handshakeVersion, authenticateVersion⟩
            (.handshaking attempt.deadline)) := by
        simp [KafkaSessionMachine.apply,
          apiVersionsSucceededWithAuthentication, neg,
          hi.bounds, hi.policy, hr, large, handshake, authenticate, late,
          sessionAt]
      simp only [AuthenticationMachine.apply, AuthenticationMachine.start,
        AuthenticationMachine.new, late, ne_eq, not_true_eq_false, if_false]
      rw [hm]
      exact Framed.quiet ⟨rfl, rfl, rfl, rfl⟩ st (.handshakes st hr) ⟨nofun, nofun⟩ rfl rfl rfl
  · exact closeNegotiating_moves st hfr rfl ⟨nofun, nofun⟩

/-! ## Authenticating -/

section Authenticating

variable {capabilities : NegotiatedCapabilities} {child : AuthenticationMachine}
  {q : AuthenticationInput}

/-- An input the child ignores is ignored. -/
theorem authenticationInput_stale
    (st : m.state = .authenticating epoch transportId capabilities child)
    (hst : child.apply q = (child, .stale)) :
    m.authenticationInput q = (m, .stale) := by
  have hs : { m with state := .authenticating epoch transportId capabilities child } = m := by
    rw [← st]
  simp only [authenticationInput, st, hst, AuthenticationTransition.stale, if_true]
  rw [hs]

theorem stale_moves (st : m.state = .authenticating epoch transportId capabilities child)
    (hst : child.apply q = (child, .stale))
    (hu : (ConnectionInput.authentication q).fired = none) :
    Moves m (.authentication q) (m.authenticationInput q) := by
  rw [authenticationInput_stale st hst]
  exact moves_stale hu nofun

/-- A child that fails closes the epoch and cancels its timer. -/
theorem authenticationInput_failed
    (state : m.state = .authenticating epoch transportId capabilities child)
    {timer : TimerId} (how : child.deadlineTimer = some timer) {failure : AuthenticationFailure}
    (hfa : child.apply q = child.fail failure (some timer)) (ha : input.Aside) :
    Moves m input (m.authenticationInput q) := by
  have hc : ∀ other ∈ child.deadlineTimer.toList, other = timer := by simp [how]
  simp only [authenticationInput, state, hfa, fail,
    AuthenticationTransition.applied, reduceCtorEq, if_false]
  cases asked : sessionAuthenticationInput q with
  | none =>
    refine (Framed.state m _).shuts state rfl rfl ha rfl rfl rfl fun other mem => .inl ?_
    simp [wrapEffects, hc other mem]
  | some question =>
    refine (Framed.session m question _).shuts state rfl rfl ha rfl rfl rfl
      fun other mem => .inl ?_
    simp [wrapEffects, hc other mem]

theorem handshakeAccepted_moves (hi : m.InStep)
    (state : m.state = .authenticating epoch transportId capabilities child) (e t f) :
    Moves m (.authentication (.handshakeAccepted e t f))
      (m.authenticationInput (.handshakeAccepted e t f)) := by
  obtain ⟨rfl, rfl, -, phase, atStage, session⟩ := hi.agreed state
  cases held : child.state with
  | handshaking effectId timer deadline =>
    by_cases same : child.matches e t f effectId = true
    · obtain ⟨⟨rfl, rfl⟩, rfl⟩ : (e = child.epoch ∧ t = child.transportId) ∧ f = effectId := by
        simpa [AuthenticationMachine.matches] using same
      obtain rfl : phase = .handshaking deadline := by
        simpa [stage, held, eq_comm] using atStage
      have hm : (m.session.apply .authenticationHandshakeSucceeded).1 =
          m.sessionAt (.authenticating capabilities child.protocol
            (.exchanging .first deadline)) := by
        simp [KafkaSessionMachine.apply, authenticationHandshakeSucceeded,
          session, sessionAt]
      simp only [authenticationInput, state, AuthenticationMachine.apply,
        handshakeAccepted, held, same, if_true,
        AuthenticationTransition.applied, reduceCtorEq, if_false, sessionAuthenticationInput,
        Option.elim_some, applySession, hm]
      exact Framed.quiet ⟨rfl, rfl, rfl, rfl⟩ state (.exchanges state (.first held))
        .authentication rfl rfl rfl
    · exact stale_moves state (by simp [AuthenticationMachine.apply, handshakeAccepted, held,
        same]) rfl
  | dormant | exchanging | succeeded | failed =>
    exact stale_moves state (by simp [AuthenticationMachine.apply, handshakeAccepted, held]) rfl

theorem handshakeFailed_moves
    (st : m.state = .authenticating epoch transportId capabilities child) (e t f failure) :
    Moves m (.authentication (.handshakeFailed e t f failure))
      (m.authenticationInput (.handshakeFailed e t f failure)) := by
  cases held : child.state with
  | handshaking fx timer deadline =>
    by_cases same : child.matches e t f fx = true
    · have ho : child.deadlineTimer = some timer := by
        simp [deadlineTimer, held]
      have hf : child.apply (.handshakeFailed e t f failure) = child.fail failure (some timer) := by
        simp [AuthenticationMachine.apply, handshakeFailed, held, same]
      exact authenticationInput_failed st ho hf .authentication
    · exact stale_moves st (by simp [AuthenticationMachine.apply, handshakeFailed, held, same]) rfl
  | dormant | exchanging | succeeded | failed =>
    exact stale_moves st (by simp [AuthenticationMachine.apply, handshakeFailed, held]) rfl

theorem exchangeCompleted_moves (hi : m.InStep)
    (state : m.state = .authenticating epoch transportId capabilities child)
    (e t f round outcome) :
    Moves m (.authentication (.exchangeCompleted e t f round outcome))
      (m.authenticationInput (.exchangeCompleted e t f round outcome)) := by
  obtain ⟨rfl, rfl, ⟨pol, hr, lim⟩, phase, atStage, session⟩ := hi.agreed state
  cases held : child.state with
  | exchanging fx expected timer deadline =>
    have ho : child.deadlineTimer = some timer := by
      simp [deadlineTimer, held]
    by_cases other : (!child.matches e t f fx || round ≠ expected) = true
    · exact stale_moves state (by simp only [AuthenticationMachine.apply, exchangeCompleted, held,
        other, if_true]) rfl
    obtain ⟨⟨⟨rfl, rfl⟩, rfl⟩, rfl⟩ : ((e = child.epoch ∧ t = child.transportId) ∧
        f = fx) ∧ round = expected := by
      simpa [AuthenticationMachine.matches] using other
    obtain rfl : phase = .exchanging round deadline := by
      simpa [stage, held, eq_comm] using atStage
    have ha := child.exchangeCompleted_matching held outcome
    cases outcome with
    | succeeded =>
      have hm : (m.session.apply (.authenticationExchangeCompleted round .succeeded)).1 =
          m.sessionAt (.ready capabilities) := by
        simp [KafkaSessionMachine.apply, authenticationExchangeCompleted,
          finishAuthentication, session, sessionAt]
      simp only [authenticationInput, state, ha, succeed,
        AuthenticationTransition.applied, reduceCtorEq, if_false, sessionAuthenticationInput,
        Option.elim_some, applySession, hm]
      exact Framed.quiet ⟨rfl, rfl, rfl, rfl⟩ state (.authenticated state held) .authentication
        rfl rfl rfl
    | failed failure => exact authenticationInput_failed state ho ha .authentication
    | «continue» =>
      cases following : round.next with
      | none =>
        simp only [following] at ha
        exact authenticationInput_failed state ho ha .authentication
      | some next =>
        simp only [following] at ha
        by_cases many : next.get > child.limits.maxExchangeRounds.get
        · simp only [many, if_true] at ha
          exact authenticationInput_failed state ho ha .authentication
        simp only [many, if_false] at ha
        have hm : (m.session.apply (.authenticationExchangeCompleted round .continue)).1 =
            m.sessionAt (.authenticating capabilities child.protocol
              (.exchanging next deadline)) := by
          rw [lim] at many
          simp [KafkaSessionMachine.apply,
            authenticationExchangeCompleted, session, following,
            hi.policy, hr, many, sessionAt]
        simp only [authenticationInput, state, ha, AuthenticationTransition.applied,
          reduceCtorEq, if_false, sessionAuthenticationInput, Option.elim_some, applySession,
          hm]
        exact Framed.quiet ⟨rfl, rfl, rfl, rfl⟩ state
          (.exchanges state (.next held following (Nat.le_of_not_lt many))) .authentication
          rfl rfl rfl
  | dormant | handshaking | succeeded | failed =>
    exact stale_moves state (by simp [AuthenticationMachine.apply, exchangeCompleted, held]) rfl

/-- The child's expiry, reported to it or to the connection. -/
theorem authenticationDeadline_moves (hi : m.InStep)
    (st : m.state = .authenticating epoch transportId capabilities child) {e timer}
    (now : Moment) (hf : input.fired = some (e, timer)) (ha : input.Aside) :
    Moves m input (m.authenticationInput (.deadlineElapsed e timer now)) := by
  obtain ⟨rfl, rfl, -, phase, atStage, session⟩ := hi.agreed st
  have hep : m.state.epoch = child.epoch := by rw [st]; rfl
  cases active : child.activeDeadline with
  | none =>
    cases held : child.state <;>
      simp [activeDeadline, stage, held]
        at active atStage
  | some pair =>
    obtain ⟨want, due⟩ := pair
    have ho : child.deadlineTimer = some want := by
      cases held : child.state <;>
        simp_all [activeDeadline, deadlineTimer]
    have deadline_eq : m.session.state.deadline = some due := by
      cases held : child.state <;>
        simp_all [activeDeadline, stage,
          KafkaSession.StateData.deadline, KafkaSession.AuthenticationStage.deadline] <;>
        simp_all [← atStage]
    by_cases other : e ≠ child.epoch ∨ timer ≠ want
    · rw [authenticationInput_stale st (by simp only [AuthenticationMachine.apply,
        AuthenticationMachine.deadlineElapsed, active, if_pos other])]
      refine moves_unowned ha fun t rep => ?_
      rw [hf, hep] at rep
      obtain ⟨rfl, rfl⟩ : e = child.epoch ∧ timer = t := by simpa using rep
      simpa [st, StateData.timers, ho, eq_comm] using other
    · obtain ⟨rfl, rfl⟩ : e = child.epoch ∧ timer = want := by simpa [not_or] using other
      by_cases early : now < due
      · have hr : child.apply (.deadlineElapsed child.epoch timer now) =
            (child, .applied [.scheduleDeadline child.epoch timer due]) := by
          simp only [AuthenticationMachine.apply, AuthenticationMachine.deadlineElapsed, active,
            if_neg other, if_pos early]
        have hu := deadlineElapsed_rescheduled deadline_eq early
        have hl : (∀ f, child.state ≠ .failed f) ∧ child.state ≠ .succeeded := by
          cases held : child.state <;> simp_all [activeDeadline]
        have hs : m.authenticationInput (.deadlineElapsed child.epoch timer now) =
            (m, .applied [.authentication (.scheduleDeadline child.epoch timer due)]) := by
          simp only [authenticationInput, st, hr, AuthenticationTransition.applied,
            reduceCtorEq, if_false, sessionAuthenticationInput, Option.elim_some, applySession,
            hu]
          split
          · exact absurd ‹_› hl.2
          · exact absurd ‹_› (hl.1 _)
          · rw [← st]
            rfl
        rw [hs]
        exact moves_rearmed ha (by rw [hf, hep]) (by simp [st, StateData.timers, ho]) rfl
      · have hfa : child.apply (.deadlineElapsed child.epoch timer now) =
            child.fail .timeout (some timer) := by
          simp only [AuthenticationMachine.apply, AuthenticationMachine.deadlineElapsed, active,
            if_neg other, if_neg early]
        exact authenticationInput_failed st ho hfa ha

theorem authenticationInput_moves (hi : m.InStep) (q : AuthenticationInput) :
    Moves m (.authentication q) (m.authenticationInput q) := by
  cases state : m.state with
  | authenticating epoch transportId capabilities child =>
    cases q with
    | start a =>
      obtain ⟨-, -, -, phase, atStage, -⟩ := hi.agreed state
      have hs : child.state ≠ .dormant := by
        intro hd
        simp [stage, hd] at atStage
      exact stale_moves state (by simp [AuthenticationMachine.apply, AuthenticationMachine.start,
        hs]) rfl
    | handshakeAccepted e t f => exact handshakeAccepted_moves hi state e t f
    | handshakeFailed e t f failure => exact handshakeFailed_moves state e t f failure
    | exchangeCompleted e t f round out =>
      exact exchangeCompleted_moves hi state e t f round out
    | deadlineElapsed e timer now =>
      exact authenticationDeadline_moves hi state now rfl ⟨nofun, nofun⟩
  | active mode connection =>
    have he : m.state.phase ≠ .authenticating := by
      cases mode <;> simp [state, StateData.phase]
    simp only [authenticationInput, state]
    exact moves_unheard ⟨nofun, nofun⟩ fun _ _ _ => ⟨rfl, he⟩
  | dormant | opening | negotiating | closing | closed =>
    have he : m.state.phase ≠ .authenticating := by simp [state, StateData.phase]
    simp only [authenticationInput, state]
    exact moves_unheard ⟨nofun, nofun⟩ fun _ _ _ => ⟨rfl, he⟩

end Authenticating

/-! ## Calls -/

section Calls

variable {mode : ActiveMode} {connection : ActiveConnection}
  {specific : Option (CallId × CallFailure)} {failure : KafkaSessionProtocolFailure}

theorem submit_moves (m : ConnectionMachine) (callId effectId timer now deadline) {m' d}
    (h : m.submit callId effectId timer now deadline = (m', .ok d)) :
    Moves m (.submit callId effectId timer now deadline) (m', d) := by
  unfold submit at h
  split at h
  · rename_i conn st
    dsimp only at h
    split_ifs at h with late hf c effect hu
    · cases h
      exact moves_rejected nofun
    · cases h
      exact moves_rejected nofun
    · cases h
    · cases h
    · cases h
    split at h
    · cases h
      refine ⟨.state m _, .exhausted st rfl ‹_›, ?_, .rejects rfl rfl⟩
      rw [callQueue_active st]
      exact .refuse nofun
    · rename_i ha
      cases h
      refine ⟨.state m _, .submits st ?_ (by simpa using hf) ha, ?_, .accepts (.inl rfl)⟩
      · simpa [hasIdentities] using hu
      · rw [callQueue_active st]
        exact .enqueue rfl (fresh_of_hasIdentities (by simpa using c) (by simpa using effect)
          (by simpa using hu) (allocateLoop_free ha))
  · cases h
    exact moves_rejected (failureForClosedState_ne m)

theorem writeSubmitted_moves (m : ConnectionMachine) (epoch transportId effectId) :
    Moves m (.writeSubmitted epoch transportId effectId)
      (m.writeSubmitted epoch transportId effectId) := by
  unfold writeSubmitted
  split
  · rename_i mode conn st
    split
    · exact moves_stale rfl nofun
    rename_i fence
    obtain ⟨rfl, rfl⟩ : epoch = conn.epoch ∧ transportId = conn.transportId := by
      simpa [not_or] using fence
    split
    · exact moves_stale rfl nofun
    rename_i c hf
    split
    · exact moves_stale rfl nofun
    rename_i phase
    obtain ⟨hw, pre, after, cs, first⟩ := find?_eq_some_iff_append.1 hf
    obtain rfl : c.writeEffect = effectId := by simpa using hw
    have hf' : ∀ r ∈ pre, r.writeEffect ≠ c.writeEffect := by simpa using first
    have hm : (conn.pending.setByWriteEffect c.writeEffect
        c.markSubmitted).calls = pre ++ c.markSubmitted :: after := by
      rw [setByWriteEffect, cs, updateFirst_eq rfl hf']
    refine ⟨.state m _, .marks st rfl ?_ ⟨rfl, ?_⟩, ?_, .accepts (.inl rfl)⟩
    · rw [hm, cs]
      simp [PendingCall.markSubmitted]
    · rw [hm, cs]
      simp [PendingCall.markSubmitted]
    · rw [callQueue_active st]
      simp only [callQueue, StateData.callQueue, hm]
      refine .accept rfl cs hf' ?_
      cases awaits : c.phase
      · rfl
      · exact absurd awaits phase
  · exact moves_stale rfl nofun

/-- Settling one of the calls, which closes a draining epoch with no other. -/
theorem settle_moves {pending : PendingQueue} {pre post : List PendingCall} {call : PendingCall}
    {effect : ConnectionEffect} (st : m.state = .active mode connection)
    (hu : input.fired = none) (calls : connection.pending.calls = pre ++ call :: post)
    (rest : pending.calls = pre ++ post) (hs : effect.isSettling = true)
    (hd : effect.disarms = none) (same : pending.capacity = connection.pending.capacity)
    (queue : ∀ q, q.calls = pre ++ post → m.callQueue.SameOwner q →
      m.callQueue.Step input .applied (callEffects [effect]) q) :
    Moves m input (m.settle mode { connection with pending }
      [.cancelDeadline call.deadlineTimer, effect]) := by
  unfold settle
  split
  · rename_i hdr
    have empty : pre ++ post = [] := by
      rw [← rest]
      simpa [PendingQueue.isEmpty] using hdr.2
    have hc := queue ⟨none, []⟩ empty.symm fun _ busy => absurd rfl busy
    obtain ⟨rfl, rfl⟩ := append_eq_nil_iff.1 empty
    refine (Framed.session m .drained _).closes st rfl rfl ?_ ?_
      (by simpa [ConnectionEffect.callEffect] using hc) (.inl rfl)
    · simp [hs, StateData.epoch]
    · intro timer mem
      obtain rfl : timer = call.deadlineTimer := by
        simpa [StateData.timers, calls] using mem
      exact .inl (by simp)
  · rename_i hun
    refine ⟨.state m _, .settles st hu calls rest ?_ hs hd same, queue _ rest fun _ _ => ?_,
      .accepts (.inl rfl)⟩
    · intro hdg empty
      exact hun ⟨hdg, by simp [PendingQueue.isEmpty, empty]⟩
    · rw [callQueue_active st]
      rfl

theorem abortUnsentCall_moves (m : ConnectionMachine) (epoch transportId callId effectId) :
    Moves m (.abortUnsentCall epoch transportId callId effectId)
      (m.abortUnsentCall epoch transportId callId effectId) := by
  unfold abortUnsentCall
  split
  · rename_i mode connection state
    split
    · exact moves_stale rfl nofun
    rename_i fence
    obtain ⟨rfl, rfl⟩ : epoch = connection.epoch ∧ transportId = connection.transportId := by
      simpa [not_or] using fence
    split
    · exact moves_stale rfl nofun
    rename_i call pending hr
    obtain ⟨sent, hf, eq⟩ := Option.map_eq_some_iff.1 hr
    cases eq
    obtain ⟨hw, before, after, calls, first⟩ := find?_eq_some_iff_append.1 hf
    obtain ⟨⟨rfl, rfl⟩, phase⟩ : (call.callId = callId ∧ call.writeEffect = effectId) ∧
        call.phase = .awaitingWrite := by
      simpa [isAwaitingWrite] using hw
    refine settle_moves state rfl calls ?_ rfl rfl rfl ?_
    · rw [calls, eraseP_append_right _ (by simpa using first), eraseP_cons_of_pos hw]
    · rw [callQueue_active state]
      exact fun q => .abort rfl calls phase
  · exact moves_stale rfl nofun

theorem filter_appendFailures (cs : List PendingCall) (reason specific) :
    (appendFailures cs reason specific).filter (fun f => !f.isSettling) = [] := by
  rw [filter_eq_nil_iff]
  intro f mem
  obtain ⟨c, -, rfl | rfl⟩ : ∃ c ∈ cs, f = .cancelDeadline c.deadlineTimer ∨
      f = .failCall c.callId (drainedFailure reason specific c) c.delivery := by
    simpa [appendFailures] using mem
  · simp
  · simp

theorem disarms_appendFailures (cs : List PendingCall) (reason specific) :
    (appendFailures cs reason specific).filterMap ConnectionEffect.disarms =
      cs.map PendingCall.deadlineTimer := by
  induction cs with
  | nil => rfl
  | cons c cs ih =>
    have hu : appendFailures (c :: cs) reason specific =
        .cancelDeadline c.deadlineTimer ::
          .failCall c.callId (drainedFailure reason specific c) c.delivery ::
            appendFailures cs reason specific := rfl
    rw [hu, filterMap_cons_some ConnectionEffect.disarms_cancelDeadline,
      filterMap_cons_none ConnectionEffect.disarms_failCall, ih, map_cons]

/-- Closing an active epoch fails every call with the delivery it reached. -/
theorem drains_queue (st : m.state = .active mode connection) (ha : input.Aside)
    (hc : ClosingFailure specific) :
    m.callQueue.Step input disposition
      (callEffects (appendFailures connection.pending.calls reason specific)) ⟨none, []⟩ := by
  rw [callEffects_appendFailures, callQueue_active st]
  exact .close (drainedFailure reason specific) (drainedFailure_ne hc reason) rfl
    ha.notSubmit ha.notWritten

/-- Closing an active epoch cancels the timer of every call. -/
theorem beginActiveClose_moves (st : m.state = .active mode connection)
    (hf : Framed m m') (hs : m'.state = m.state) (ha : input.Aside)
    (hc : ClosingFailure specific) (ok : disposition = .applied ∨ disposition = .fault) :
    Moves m input ((m'.beginActiveClose reason specific).1,
      ⟨(m'.beginActiveClose reason specific).2, disposition⟩) := by
  have hf' : Framed m { m' with
      state := .closing connection.epoch connection.transportId reason } := { hf with }
  unfold beginActiveClose
  rw [hs, st]
  refine hf'.closes st rfl rfl ?_ ?_ ?_ ok
  · simp [filter_appendFailures, StateData.epoch]
  · intro t mem
    refine .inl ?_
    rw [filterMap_cons_none rfl, disarms_appendFailures]
    exact mem
  · exact drains_queue st ha hc

theorem writeFailed_moves (m : ConnectionMachine) (epoch transportId effectId failure) :
    Moves m (.writeFailed epoch transportId effectId failure)
      (m.writeFailed epoch transportId effectId failure) := by
  unfold writeFailed
  split
  · rename_i st
    split
    · exact moves_stale rfl nofun
    · exact beginActiveClose_moves st (.state m _) rfl ⟨nofun, nofun⟩ closingFailure_none (.inl rfl)
  · exact moves_stale rfl nofun

theorem protocolFault_moves (st : m.state = .active mode connection) (ha : input.Aside)
    (hc : ClosingFailure specific) : Moves m input (m.protocolFault failure reason specific) :=
  beginActiveClose_moves st (Framed.session m (.protocolFailed failure) m.state) rfl ha
    hc (.inr rfl)

theorem responseRejected_moves (m : ConnectionMachine) (epoch transportId fault) :
    Moves m (.responseRejected epoch transportId fault)
      (m.responseRejected epoch transportId fault) := by
  unfold responseRejected
  split
  · rename_i st
    split
    · exact moves_stale rfl nofun
    · cases fault <;> exact protocolFault_moves st ⟨nofun, nofun⟩ closingFailure_none
  · exact moves_stale rfl nofun

theorem responseReceived_moves (m : ConnectionMachine) (epoch transportId received) :
    Moves m (.responseReceived epoch transportId received)
      (m.responseReceived epoch transportId received) := by
  unfold responseReceived
  split
  · rename_i mode connection state
    split
    · exact moves_stale rfl nofun
    rename_i fence
    obtain ⟨rfl, rfl⟩ : epoch = connection.epoch ∧ transportId = connection.transportId := by
      simpa [not_or] using fence
    split
    · exact protocolFault_moves state ⟨nofun, nofun⟩ closingFailure_none
    rename_i front hf
    split
    · exact protocolFault_moves state ⟨nofun, nofun⟩ closingFailure_none
    rename_i phase
    split
    · exact protocolFault_moves state ⟨nofun, nofun⟩ (closingFailure_some nofun)
    rename_i matching
    obtain rfl : front.correlationId = received := by simpa using matching
    obtain ⟨rest, calls⟩ := head?_eq_some_iff.1 hf
    have first : connection.pending.calls = [] ++ front :: rest := calls
    refine settle_moves state rfl first ?_ rfl rfl rfl ?_
    · simp [popFront, calls]
    · rw [callQueue_active state]
      exact fun q => .complete rfl calls (by simpa using phase)
  · exact moves_stale rfl nofun

end Calls

/-! ## Deadlines, drain and transport loss -/

theorem deadlineElapsed_moves (inStep : m.InStep) (epoch timer now) :
    Moves m (.deadlineElapsed epoch timer now) (m.deadlineElapsed epoch timer now) := by
  -- an expiry that names another epoch or another timer is of no timer the state owns
  have unowned : ∀ {expected : ConnectionEpoch} {owned : TimerId}, m.state.epoch = expected →
      m.state.timers = [owned] → epoch ≠ expected ∨ timer ≠ owned →
      Moves m (.deadlineElapsed epoch timer now) (m, .stale) := by
    intro expected owned hsa timers other
    refine moves_unowned ⟨nofun, nofun⟩ fun t hr mem => ?_
    obtain ⟨rfl, rfl⟩ : epoch = m.state.epoch ∧ timer = t := by
      simpa [ConnectionInput.fired] using hr
    rw [timers, mem_singleton] at mem
    rcases other with ne | ne
    · exact ne hsa
    · exact ne mem
  unfold deadlineElapsed
  split
  · rename_i expected fx transportId owned deadline st
    have hsa : m.state.epoch = expected := by rw [st]; rfl
    split
    · rename_i other
      exact unowned hsa (by rw [st]; rfl) other
    rename_i hs
    obtain ⟨rfl, rfl⟩ : epoch = expected ∧ timer = owned := by simpa [not_or] using hs
    split
    · exact moves_rearmed ⟨nofun, nofun⟩ (by rw [hsa]; rfl) (by simp [st, StateData.timers]) rfl
    · refine (Framed.state m _).shuts st rfl rfl ⟨nofun, nofun⟩ rfl rfl rfl
        fun t mem => .inr ?_
      obtain rfl := mem_singleton.1 mem
      rfl
  · rename_i st
    exact authenticationDeadline_moves inStep st now rfl ⟨nofun, nofun⟩
  · rename_i expected transportId fx owned deadline st
    have hsa : m.state.epoch = expected := by rw [st]; rfl
    split
    · rename_i other
      exact unowned hsa (by rw [st]; rfl) other
    rename_i hs
    obtain ⟨rfl, rfl⟩ : epoch = expected ∧ timer = owned := by simpa [not_or] using hs
    have hh : m.session.state.deadline = some deadline := by
      have negotiating : m.session.state = .negotiating deadline := inStep.agreed st
      rw [negotiating]
      rfl
    dsimp only
    rw [if_neg (deadlineElapsed_answered hh now)]
    split
    · rename_i early
      rw [deadlineElapsed_rescheduled hh early]
      exact moves_rearmed ⟨nofun, nofun⟩ (by rw [hsa]; rfl) (by simp [st, StateData.timers]) rfl
    · refine (Framed.session m (.deadlineElapsed now) _).shuts st rfl rfl ⟨nofun, nofun⟩
        rfl rfl rfl fun t mem => .inr ?_
      obtain rfl := mem_singleton.1 mem
      rfl
  · rename_i mode connection st
    have hsa : m.state.epoch = connection.epoch := by rw [st]; rfl
    split
    · rename_i other
      refine moves_unowned ⟨nofun, nofun⟩ fun t hr => absurd ?_ other
      simp only [ConnectionInput.fired, Option.some.injEq, Prod.mk.injEq] at hr
      exact hr.1.trans hsa
    · rename_i hs
      obtain rfl : epoch = connection.epoch := not_not.1 hs
      split
      · rename_i missing
        refine moves_unowned ⟨nofun, nofun⟩ fun t hr mem => ?_
        obtain rfl : timer = t := by
          simp only [ConnectionInput.fired, Option.some.injEq, Prod.mk.injEq] at hr
          exact hr.2
        simp only [byTimer, find?_eq_none, decide_eq_true_eq] at missing
        obtain ⟨call, pending, own⟩ : ∃ call ∈ connection.pending.calls,
            call.deadlineTimer = timer := by
          simpa [st, StateData.timers] using mem
        exact missing call pending own
      · rename_i call found
        split
        · refine moves_rearmed ⟨nofun, nofun⟩ (by rw [hsa]; rfl) ?_ rfl
          have own : call.deadlineTimer = timer := by simpa using find?_some found
          simp only [st, StateData.timers, mem_map]
          exact ⟨call, mem_of_find?_eq_some found, own⟩
        · exact beginActiveClose_moves st (.state m _) rfl ⟨nofun, nofun⟩
            (closingFailure_some nofun) (.inl rfl)
  · rename_i notOpening hn notNegotiating notActive
    refine moves_unowned ⟨nofun, nofun⟩ fun t _ mem => ?_
    cases st : m.state with
    | opening => exact notOpening _ _ _ _ _ st
    | authenticating => exact hn _ _ _ _ st
    | negotiating => exact notNegotiating _ _ _ _ _ st
    | active => exact notActive _ _ st
    | dormant | closing | closed => simp [st, StateData.timers] at mem

theorem beginDrain_moves (hi : m.InStep) : Moves m .beginDrain m.beginDrain := by
  unfold beginDrain
  split
  · rename_i epoch state
    have hs : m.state.epoch = epoch := by rw [state]; rfl
    refine (Framed.state m _).quiet state ?_ ⟨nofun, nofun⟩ rfl rfl rfl
    rw [← hs]
    exact .ends (.unstarted state) (by simp) (by simp [state, StateData.timers])
  · rename_i epoch fx transportId timer deadline state
    refine (Framed.state m _).shuts state rfl rfl ⟨nofun, nofun⟩ rfl rfl rfl fun t mem => .inl ?_
    obtain rfl := mem_singleton.1 mem
    simp
  · rename_i epoch transportId fx timer deadline state
    refine (Framed.session m .beginDrain _).shuts state rfl rfl ⟨nofun, nofun⟩ rfl rfl rfl
      fun t mem => .inl ?_
    obtain rfl := mem_singleton.1 mem
    simp
  · rename_i epoch transportId capabilities child state
    refine (Framed.session m .beginDrain _).shuts state rfl rfl ⟨nofun, nofun⟩ rfl ?_ ?_
      fun t mem => .inl ?_
    · cases child.deadlineTimer <;> rfl
    · cases child.deadlineTimer <;> rfl
    · have ho : child.deadlineTimer = some t := by simpa [StateData.timers] using mem
      simp [ho]
  · rename_i connection state
    split
    · rename_i empty
      have hf : Framed m { ((m.applySession .beginDrain).applySession .drained) with
          state := .closing connection.epoch connection.transportId .drained } := by
        refine ⟨rfl, rfl, ?_, ?_⟩ <;> simp [applySession]
      have idle : connection.pending.calls = [] := by simpa [PendingQueue.isEmpty] using empty
      refine hf.shuts state rfl rfl ⟨nofun, nofun⟩ idle rfl rfl fun t mem => ?_
      simp [StateData.timers, idle] at mem
    · rename_i pending
      have hr : m.session.state = .ready connection.capabilities := hi.agreed state
      have hm : (m.session.apply .beginDrain).1 =
          m.sessionAt (.draining connection.capabilities) := by
        simp [KafkaSessionMachine.apply, KafkaSessionMachine.beginDrain, hr, sessionAt]
      simp only [applySession, hm]
      refine ⟨⟨rfl, rfl, rfl, rfl⟩, .drains state (by simpa [PendingQueue.isEmpty] using pending),
        ?_, .accepts (.inl rfl)⟩
      rw [callQueue_active state]
      exact .quiet ⟨nofun, nofun⟩ rfl (fun _ _ => rfl) rfl
  · exact moves_ignored rfl nofun
  · exact moves_ignored rfl nofun
  · exact moves_ignored rfl nofun

/-- The transport of a state is lost, and every timer of it cancelled. -/
theorem lost_moves {err : TransportFailure} (hf : Framed m m') (held : m.state = state)
    (post : m'.state = .closed m.state.epoch (.transportLost err))
    (hl : state.transport = some transportId) (hs : ∀ f ∈ effects, f.isSettling = true)
    (hco : ∀ timer ∈ state.timers, timer ∈ effects.filterMap ConnectionEffect.disarms)
    (queue : m.callQueue.Step (.transportClosed m.state.epoch transportId err) .applied
      (callEffects effects) ⟨none, []⟩) :
    Moves m (.transportClosed m.state.epoch transportId err) (m', .applied effects) := by
  subst held
  have hc : m'.callQueue = ⟨none, []⟩ := by rw [callQueue, post]; rfl
  refine ⟨hf, ?_, ?_, .accepts (.inl rfl)⟩
  · rw [post]
    exact .ends (.lost hl) hs hco
  · rw [hc]
    exact queue

theorem transportClosed_moves (m : ConnectionMachine) (epoch transportId failure) :
    Moves m (.transportClosed epoch transportId failure)
      (m.transportClosed epoch transportId failure) := by
  have hsi : ∀ {state : StateData} {effects : List ConnectionEffect}, m.state = state →
      state.callQueue.calls = [] → callEffects effects = [] →
      m.callQueue.Step (.transportClosed epoch transportId failure) .applied (callEffects effects)
        ⟨none, []⟩ :=
    fun hh idle => .quiet ⟨nofun, nofun⟩ (calls_nil hh idle).symm
      fun busy => absurd (calls_nil hh idle) busy
  unfold transportClosed
  split
  · exact moves_stale rfl nofun
  rename_i same
  obtain rfl := not_not.1 same
  split
  · rename_i e f expected timer d state
    split
    · rename_i own
      subst own
      exact lost_moves (.session m .closed _) state rfl rfl (by simp) (by simp [StateData.timers])
        (hsi state rfl rfl)
    · exact moves_stale rfl nofun
  · rename_i e expected f timer d state
    split
    · rename_i own
      subst own
      exact lost_moves (.session m .closed _) state rfl rfl (by simp) (by simp [StateData.timers])
        (hsi state rfl rfl)
    · exact moves_stale rfl nofun
  · rename_i e expected c child state
    split
    · rename_i own
      subst own
      refine lost_moves (.session m .closed _) state rfl rfl ?_ ?_
        (hsi state rfl (by cases child.deadlineTimer <;> rfl))
      · cases child.deadlineTimer <;> simp
      · cases owned : child.deadlineTimer <;> simp [StateData.timers, owned]
    · exact moves_stale rfl nofun
  · rename_i mode connection state
    split
    · rename_i own
      subst own
      have hc : (m.applySession .closed).finishActiveClose (.transportLost failure) none =
          ({ m.applySession .closed with
              state := .closed m.state.epoch (.transportLost failure) },
            appendFailures connection.pending.calls (.transportLost failure) none) := by
        simp [finishActiveClose, applySession, state, StateData.epoch]
      rw [hc]
      refine lost_moves (.session m .closed _) state rfl rfl ?_ ?_
        (drains_queue state ⟨nofun, nofun⟩ closingFailure_none)
      · simpa [filter_eq_nil_iff] using
          filter_appendFailures connection.pending.calls (.transportLost failure) none
      · simp [disarms_appendFailures, StateData.timers]
    · exact moves_stale rfl nofun
  · rename_i e expected reason state
    split
    · rename_i own
      subst own
      have hs : m.state.epoch = e := by rw [state]; rfl
      refine (Framed.session m .closed _).quiet state ?_ ⟨nofun, nofun⟩ rfl rfl rfl
      refine .ends ?_ (by simp) (by simp [state, StateData.timers])
      rw [hs]
      exact .closed state
    · exact moves_stale rfl nofun
  · exact moves_stale rfl nofun
  · exact moves_stale rfl nofun

/-! ## Every input -/

/-- Every input that succeeds is one of the steps. -/
theorem dispatch_moves (hi : m.InStep) {d : Decision}
    (h : m.dispatch input = (m', .ok d)) : Moves m input (m', d) := by
  have f : ∀ {ans}, Moves m input ans → ok ans = (m', .ok d) → Moves m input (m', d) := by
    intro ans hm eq
    obtain ⟨rfl, ⟨⟩⟩ := Prod.mk.inj eq
    exact hm
  cases input with
  | start => exact f (start_moves m _ _ _ _) h
  | transportOpened => exact f (transportOpened_moves hi _ _ _ _) h
  | transportOpenFailed => exact f (transportOpenFailed_moves m _ _ _ _) h
  | apiVersionsNegotiated => exact f (apiVersionsNegotiated_moves hi _ _ _ _) h
  | apiVersionsNegotiatedWithAuthentication =>
    exact f (beginAuthentication_moves hi _ _ _ _ _) h
  | apiVersionsFailed => exact f (apiVersionsFailed_moves hi _ _ _ _) h
  | authentication q => exact f (authenticationInput_moves hi q) h
  | submit => exact submit_moves m _ _ _ _ _ h
  | writeSubmitted => exact f (writeSubmitted_moves m _ _ _) h
  | abortUnsentCall => exact f (abortUnsentCall_moves m _ _ _ _) h
  | writeFailed => exact f (writeFailed_moves m _ _ _ _) h
  | responseReceived => exact f (responseReceived_moves m _ _ _) h
  | responseRejected => exact f (responseRejected_moves m _ _ _) h
  | deadlineElapsed => exact f (deadlineElapsed_moves hi _ _ _) h
  | beginDrain => exact f (beginDrain_moves hi) h
  | transportClosed => exact f (transportClosed_moves m _ _ _) h

/-- A step leaves the connection and its session in step. -/
theorem InStep.moves (hi : m.InStep) {d : Decision} (hm : Moves m input (m', d)) : m'.InStep := by
  obtain ⟨⟨lim, auth, sessionLimits, sessionPolicy⟩, step, -, -⟩ := hm
  have ha := hi.agrees
  dsimp only at step lim auth sessionLimits sessionPolicy
  refine ⟨by rw [sessionLimits, lim, hi.bounds], by rw [sessionPolicy, auth, hi.policy], ?_⟩
  rw [auth]
  generalize m'.state = state', m'.session = session' at step
  cases step with
  | kept | rearmed => exact ha
  | exhausted st | submits st =>
    rw [st] at ha
    exact ha
  | @marks _ mode _ _ st | @settles _ mode _ _ _ _ _ _ st =>
    rw [st] at ha
    cases mode <;> exact ha
  | opens st =>
    rw [st] at ha
    exact ha
  | negotiates | authenticated | negotiated | drains => rfl
  | handshakes _ hr => exact ⟨rfl, rfl, ⟨_, hr, rfl⟩, _, rfl, rfl⟩
  | exchanges st =>
    rw [st] at ha
    obtain ⟨hep, hs, pol, -⟩ := ha
    exact ⟨hep, hs, pol, _, rfl, rfl⟩
  | closes | ends => trivial

theorem Initial.inStep (initial : m.Initial) : m.InStep := by
  cases initial <;> exact ⟨rfl, rfl, rfl⟩

/-- An input that succeeds is a step, and one that fails changes nothing. -/
theorem apply_moves (hi : m.InStep) (i : ConnectionInput) :
    (∃ err, m.apply i = (m, .error err)) ∨
      ∃ m' tr, m.apply i = (m', .ok tr) ∧ Moves m i (m', ⟨tr.effects, tr.record.disposition⟩) := by
  rcases applied : m.apply i with ⟨m', err | tr⟩
  · obtain rfl := apply_error applied
    exact .inl ⟨err, rfl⟩
  refine .inr ⟨m', tr, rfl, ?_⟩
  unfold apply at applied
  split at applied
  · cases applied
  split at applied
  · cases applied
  · rename_i m₁ decision hd
    have hm := dispatch_moves hi hd
    cases applied
    exact { hm with }

/-- The rule for runs : what holds at first, and is kept by a refused input and by a step,
holds after every run. -/
theorem step_induction {P : List ConnectionEvent → ConnectionMachine → Prop} (hi : m.InStep)
    (start : P [] m)
    (hr : ∀ past m₁ input err, m₁.apply input = (m₁, .error err) → P past m₁ →
      P (past ++ [⟨m₁, input, m₁, .error err⟩]) m₁)
    (step : ∀ past m₁ input m₂ tr, m₁.InStep →
      Moves m₁ input (m₂, ⟨tr.effects, tr.record.disposition⟩) → P past m₁ →
      P (past ++ [⟨m₁, input, m₂, .ok tr⟩]) m₂)
    (inputs : List ConnectionInput) :
    (m.after inputs).InStep ∧ P (m.run inputs) (m.after inputs) := by
  refine run_induction apply (P := fun _ past m => m.InStep ∧ P past m) ⟨hi, start⟩ ?_ inputs
  rintro is input ⟨hg, pre⟩
  rcases apply_moves hg input with ⟨err, hf⟩ | ⟨m₂, tr, ha, hm⟩
  · simp only [event, hf]
    exact ⟨hg, hr _ _ input err hf pre⟩
  · simp only [event, ha]
    exact ⟨hg.moves hm, step _ _ input m₂ tr hg hm pre⟩

theorem Initial.inStep_after (initial : m.Initial) (is : List ConnectionInput) :
    (m.after is).InStep :=
  (step_induction (P := fun _ _ => True) initial.inStep trivial (fun _ _ _ _ _ _ => trivial)
    (fun _ _ _ _ _ _ _ _ => trivial) is).1

end ConnectionMachine

end KafkaDriver
