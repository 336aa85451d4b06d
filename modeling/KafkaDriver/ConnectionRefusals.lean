import KafkaDriver.CallSettlement

/-!
# Inputs a connection does not accept

Several handlers ask the session, swap a placeholder into the state or put a cancelled timer
in front of their effects before they find that an input is stale. None of these half-done
branches is among the decisions an input can get from a machine that is in step with its session
(`Decides`).

With the steps of `ConnectionSteps`, `refusals_inert` says that a refused input changes
nothing the machine owns, and that an input which names another epoch or another transport
is always refused.
-/

namespace KafkaDriver

open Connection Runs StateData

/-- The epoch an external report names. -/
def ConnectionInput.reportedEpoch : ConnectionInput → Option ConnectionEpoch
  | .transportOpened epoch .. | .transportOpenFailed epoch .. | .apiVersionsNegotiated epoch ..
  | .apiVersionsNegotiatedWithAuthentication epoch .. | .apiVersionsFailed epoch ..
  | .writeSubmitted epoch .. | .abortUnsentCall epoch .. | .writeFailed epoch ..
  | .responseReceived epoch .. | .responseRejected epoch .. | .deadlineElapsed epoch ..
  | .transportClosed epoch .. => some epoch
  | .authentication (.handshakeAccepted epoch ..) | .authentication (.handshakeFailed epoch ..)
  | .authentication (.exchangeCompleted epoch ..)
  | .authentication (.deadlineElapsed epoch ..) => some epoch
  | .start .. | .authentication (.start _) | .submit .. | .beginDrain => none

/-- The transport an external report names. -/
def ConnectionInput.reportedTransport : ConnectionInput → Option TransportId
  | .transportOpened _ _ transportId _ | .transportOpenFailed _ _ transportId _
  | .apiVersionsNegotiated _ transportId _ _
  | .apiVersionsNegotiatedWithAuthentication _ transportId _ _ _
  | .apiVersionsFailed _ transportId _ _ | .writeSubmitted _ transportId _
  | .abortUnsentCall _ transportId _ _ | .writeFailed _ transportId _ _
  | .responseReceived _ transportId _ | .responseRejected _ transportId _
  | .transportClosed _ transportId _ => some transportId
  | .authentication (.handshakeAccepted _ transportId _)
  | .authentication (.handshakeFailed _ transportId _ _)
  | .authentication (.exchangeCompleted _ transportId _ _ _) => some transportId
  | .start .. | .authentication _ | .submit .. | .deadlineElapsed .. | .beginDrain => none

/-- The transport of an epoch, until it is closed. -/
def Connection.StateData.ownTransport : StateData → Option TransportId
  | .closing _ transportId _ => some transportId
  | state => state.transport

namespace ConnectionMachine

/-- A report that names another epoch or another transport than the machine's own. -/
def Foreign (m : ConnectionMachine) (input : ConnectionInput) : Prop :=
  (∃ epoch, input.reportedEpoch = some epoch ∧ epoch ≠ m.state.epoch) ∨
    ∃ transportId, input.reportedTransport = some transportId ∧
      m.state.ownTransport ≠ some transportId

/-- A call was refused : the state is the one before, but for the allocator that searched the
whole correlation space. -/
def KeepsCalls (state state' : StateData) : Prop :=
  state' = state ∨ ∃ connection correlations,
    state = .active .ready connection ∧ state' = .active .ready { connection with correlations }

variable {m m' : ConnectionMachine} {input : ConnectionInput} {decision : Decision}

/-! ## What a refused input leaves -/

theorem refuses_disposition_ne (hr : decision.Refuses) : decision.disposition ≠ .applied := by
  rcases hr with rfl | rfl | ⟨cid, err, rfl⟩ <;> nofun

theorem isSettling_of_refuses (hr : decision.Refuses) :
    ∀ f ∈ decision.effects, f.isSettling = true := by
  rcases hr with rfl | rfl | ⟨cid, err, rfl⟩
  · nofun
  · nofun
  · simp [reject, Decision.rejected]

/-- A step that accepts nothing keeps the session and, unless it refuses a call, the state. -/
theorem Step.kept_of_refuses {st' : StateData} {session' : KafkaSessionMachine}
    (step : m.Step input st' session' decision) (hr : decision.Refuses) :
    session' = m.session ∧ KeepsCalls m.state st' ∧
      (decision.disposition ≠ .rejected → st' = m.state) := by
  cases step with
  | kept => exact ⟨rfl, .inl rfl, fun _ => rfl⟩
  | exhausted st =>
    exact ⟨rfl, .inr ⟨_, _, st, rfl⟩, fun hu => absurd rfl hu⟩
  | @closes _ tid reason _ effs _ hl once =>
    -- closing a transport is no answer to a caller
    have mem : .closeTransport m.state.epoch tid reason ∈ effs :=
      List.mem_of_mem_filter (once ▸ List.mem_singleton_self _)
    exact absurd (isSettling_of_refuses hr _ mem) (by simp)
  | _ => exact absurd rfl (refuses_disposition_ne hr)

/-! ## Reports of another epoch or transport -/

section Foreign

variable {epoch : ConnectionEpoch} {transportId : TransportId}

section Named

variable (foreign : epoch ≠ m.state.epoch ∨ m.state.ownTransport ≠ some transportId)

include foreign

/-- The opening transport such a report does not speak of. -/
theorem opening_foreign {expected : ConnectionEpoch} {effectId opening timer deadline}
    (st : m.state = .opening expected effectId opening timer deadline) :
    epoch ≠ expected ∨ transportId ≠ opening := by
  simpa [st, StateData.epoch, StateData.ownTransport, StateData.transport, eq_comm] using foreign

theorem transportOpened_foreign
    (effectId attempt) : m.transportOpened epoch effectId transportId attempt = (m, .stale) := by
  unfold transportOpened
  split
  · rename_i st
    have ne := opening_foreign foreign st
    rw [if_pos (by tauto)]
  · rfl

theorem transportOpenFailed_foreign (effectId failure) :
    m.transportOpenFailed epoch effectId transportId failure = (m, .stale) := by
  unfold transportOpenFailed
  split
  · rename_i st
    have ne := opening_foreign foreign st
    rw [if_pos (by tauto)]
  · rfl

theorem matchingNegotiation_foreign
    (fx : EffectId) : m.matchingNegotiation epoch transportId fx = none := by
  cases found : m.matchingNegotiation epoch transportId fx with
  | none => rfl
  | some t =>
    obtain ⟨due, st⟩ := matchingNegotiation_eq_some found
    simp [st, StateData.epoch, StateData.ownTransport, StateData.transport] at foreign

/-- The active connection such a report does not speak of. -/
theorem active_foreign {mode : ActiveMode} {conn : ActiveConnection}
    (st : m.state = .active mode conn) :
    epoch ≠ conn.epoch ∨ transportId ≠ conn.transportId := by
  simpa [st, StateData.epoch, StateData.ownTransport, StateData.transport, eq_comm] using foreign

theorem writeSubmitted_foreign
    (fx : EffectId) : m.writeSubmitted epoch transportId fx = (m, .stale) := by
  unfold writeSubmitted
  split
  · rename_i st
    rw [if_pos (active_foreign foreign st)]
  · rfl

theorem abortUnsentCall_foreign (callId effectId) :
    m.abortUnsentCall epoch transportId callId effectId = (m, .stale) := by
  unfold abortUnsentCall
  split
  · rename_i st
    rw [if_pos (active_foreign foreign st)]
  · rfl

theorem writeFailed_foreign
    (effectId failure) : m.writeFailed epoch transportId effectId failure = (m, .stale) := by
  unfold writeFailed
  split
  · rename_i st
    have ne := active_foreign foreign st
    rw [if_pos (by tauto)]
  · rfl

theorem responseReceived_foreign (received : CorrelationId) :
    m.responseReceived epoch transportId received = (m, .stale) := by
  unfold responseReceived
  split
  · rename_i st
    rw [if_pos (active_foreign foreign st)]
  · rfl

theorem responseRejected_foreign
    (fault : ResponseFault) : m.responseRejected epoch transportId fault = (m, .stale) := by
  unfold responseRejected
  split
  · rename_i st
    rw [if_pos (active_foreign foreign st)]
  · rfl

theorem transportClosed_foreign (err : TransportFailure) :
    m.transportClosed epoch transportId err = (m, .stale) := by
  unfold transportClosed
  split
  · rfl
  rename_i hs
  have ho : m.state.ownTransport ≠ some transportId := foreign.resolve_left hs
  cases state : m.state with
  | dormant | closed => rfl
  | opening | negotiating | authenticating | active | closing =>
    simp_all [ownTransport, transport]

end Named

variable {q : AuthenticationInput}

/-- The child hears only reports of its own epoch and transport. -/
theorem child_foreign {child : AuthenticationMachine}
    (foreign : (∃ epoch, (ConnectionInput.authentication q).reportedEpoch = some epoch ∧
      epoch ≠ child.epoch) ∨
      ∃ transportId, (ConnectionInput.authentication q).reportedTransport =
        some transportId ∧ transportId ≠ child.transportId) :
    child.apply q = (child, .stale) := by
  have hu : ∀ {epoch transportId} (fx want : EffectId),
      epoch ≠ child.epoch ∨ transportId ≠ child.transportId →
      child.matches epoch transportId fx want = false := by
    intro epoch transportId fx want ne
    rcases ne with ne | ne <;> simp [AuthenticationMachine.matches, ne]
  cases q with
  | start => simp [ConnectionInput.reportedEpoch, ConnectionInput.reportedTransport] at foreign
  | handshakeAccepted epoch transportId fx =>
    have ne : epoch ≠ child.epoch ∨ transportId ≠ child.transportId := by
      simpa [ConnectionInput.reportedEpoch, ConnectionInput.reportedTransport] using foreign
    simp only [AuthenticationMachine.apply, AuthenticationMachine.handshakeAccepted, hu _ _ ne]
    split <;> rfl
  | handshakeFailed epoch transportId fx err =>
    have ne : epoch ≠ child.epoch ∨ transportId ≠ child.transportId := by
      simpa [ConnectionInput.reportedEpoch, ConnectionInput.reportedTransport] using foreign
    simp only [AuthenticationMachine.apply, AuthenticationMachine.handshakeFailed, hu _ _ ne]
    split <;> rfl
  | exchangeCompleted epoch transportId fx round out =>
    have ne : epoch ≠ child.epoch ∨ transportId ≠ child.transportId := by
      simpa [ConnectionInput.reportedEpoch, ConnectionInput.reportedTransport] using foreign
    simp only [AuthenticationMachine.apply, AuthenticationMachine.exchangeCompleted, hu _ _ ne]
    split <;> rfl
  | deadlineElapsed epoch t now =>
    have ne : epoch ≠ child.epoch := by
      simpa [ConnectionInput.reportedEpoch, ConnectionInput.reportedTransport] using foreign
    simp only [AuthenticationMachine.apply, AuthenticationMachine.deadlineElapsed]
    split
    · rfl
    · rw [if_pos (.inl ne)]

theorem authenticationInput_foreign (hi : m.InStep)
    (foreign : m.Foreign (.authentication q)) : m.authenticationInput q = (m, .stale) := by
  cases state : m.state with
  | authenticating own transport caps child =>
    obtain ⟨rfl, rfl, -⟩ := hi.agreed state
    refine authenticationInput_stale state (child_foreign ?_)
    simpa [Foreign, state, epoch, ownTransport, transport, eq_comm] using foreign
  | _ => simp only [authenticationInput, state]

theorem deadlineElapsed_foreign (hi : m.InStep) (ne : epoch ≠ m.state.epoch)
    (timer now) : m.deadlineElapsed epoch timer now = (m, .stale) := by
  have foreign : m.Foreign (.authentication (.deadlineElapsed epoch timer now)) :=
    .inl ⟨epoch, rfl, ne⟩
  unfold deadlineElapsed
  split
  · rename_i st
    rw [st] at ne
    rw [if_pos (.inl ne)]
  · exact authenticationInput_foreign hi foreign
  · rename_i st
    rw [st] at ne
    rw [if_pos (.inl ne)]
  · rename_i mode conn st
    have own : m.state.epoch = conn.epoch := by rw [st]; rfl
    rw [if_pos (own ▸ ne)]
  · rfl

end Foreign

/-- A report of another epoch or transport is stale. -/
theorem dispatch_foreign (hi : m.InStep) (foreign : m.Foreign input) :
    m.dispatch input = (m, .ok .stale) := by
  -- a report with both identities, as the handlers compare them
  have hn : ∀ {epoch tid}, input.reportedEpoch = some epoch → input.reportedTransport = some tid →
      epoch ≠ m.state.epoch ∨ m.state.ownTransport ≠ some tid := by
    intro epoch tid hep hs
    rcases foreign with ⟨ne, rep, different⟩ | ⟨ne, rep, different⟩
    · obtain rfl : ne = epoch := by simpa [rep] using hep
      exact .inl different
    · obtain rfl : ne = tid := by simpa [rep] using hs
      exact .inr different
  cases input with
  | start | submit | beginDrain =>
    simp [Foreign, ConnectionInput.reportedEpoch, ConnectionInput.reportedTransport] at foreign
  | transportOpened => simp [dispatch, ok, transportOpened_foreign (hn rfl rfl)]
  | transportOpenFailed => simp [dispatch, ok, transportOpenFailed_foreign (hn rfl rfl)]
  | apiVersionsNegotiated =>
    simp [dispatch, ok, apiVersionsNegotiated, matchingNegotiation_foreign (hn rfl rfl)]
  | apiVersionsNegotiatedWithAuthentication =>
    simp [dispatch, ok, beginAuthentication, matchingNegotiation_foreign (hn rfl rfl)]
  | apiVersionsFailed =>
    simp [dispatch, ok, apiVersionsFailed, matchingNegotiation_foreign (hn rfl rfl)]
  | authentication => simp [dispatch, ok, authenticationInput_foreign hi foreign]
  | writeSubmitted => simp [dispatch, ok, writeSubmitted_foreign (hn rfl rfl)]
  | abortUnsentCall => simp [dispatch, ok, abortUnsentCall_foreign (hn rfl rfl)]
  | writeFailed => simp [dispatch, ok, writeFailed_foreign (hn rfl rfl)]
  | responseReceived => simp [dispatch, ok, responseReceived_foreign (hn rfl rfl)]
  | responseRejected => simp [dispatch, ok, responseRejected_foreign (hn rfl rfl)]
  | transportClosed => simp [dispatch, ok, transportClosed_foreign (hn rfl rfl)]
  | deadlineElapsed epoch =>
    have ne : epoch ≠ m.state.epoch := by
      simpa [Foreign, ConnectionInput.reportedEpoch, ConnectionInput.reportedTransport]
        using foreign
    simp [dispatch, ok, deadlineElapsed_foreign hi ne]

/-! ## Refusals -/

/-- What `input` leaves of `m` when `m` does not accept it. -/
structure Inert (m : ConnectionMachine) (input : ConnectionInput) : Prop where
  failed : ∀ m' error, m.apply input = (m', .error error) → m' = m
  ignored : ∀ m' transition, m.apply input = (m', .ok transition) →
    transition.record.disposition = .ignored ∨ transition.record.disposition = .ignoredStale →
    transition.effects = [] ∧ m'.state = m.state ∧ m'.session = m.session
  rejected : ∀ m' transition, m.apply input = (m', .ok transition) →
    transition.record.disposition = .rejected →
    ∃ callId writeEffect timer now deadline failure,
      input = .submit callId writeEffect timer now deadline ∧
      transition.effects = [.failCall callId failure .notSent] ∧
      KeepsCalls m.state m'.state ∧ m'.session = m.session
  foreign : m.Foreign input →
    (∃ m' transition, m.apply input = (m', .ok transition) ∧
      transition.record.disposition = .ignoredStale) ∨
    m.nextSequence = none ∧ (m.apply input).2 = .error .transitionSequenceExhausted

/-- What a transition tells, as the decision behind it. -/
theorem apply_decides (hi : m.InStep) {tr : ConnectionTransition}
    (ha : m.apply input = (m', .ok tr)) :
    Moves m input (m', ⟨tr.effects, tr.record.disposition⟩) := by
  rcases apply_moves hi input with ⟨err, hf⟩ | ⟨_, _, ok, hm⟩
  · cases hf.symm.trans ha
  · cases ok.symm.trans ha
    exact hm

/-- A decision that an input's disposition names as refused. -/
theorem Decides.refuses (hd : Decides input decision)
    (hu : decision.disposition ≠ .applied ∧ decision.disposition ≠ .fault) :
    decision.Refuses := by
  cases hd with
  | accepts ok => tauto
  | stale eq => exact .inl eq
  | ignores eq => exact .inr (.inl eq)
  | rejects _ eq => exact .inr (.inr ⟨_, _, eq⟩)

theorem inert_of_inStep (hi : m.InStep) (i : ConnectionInput) : m.Inert i where
  failed _ _ := apply_error
  ignored m' transition applied disposition := by
    have hm := apply_decides hi applied
    have hr := hm.decides.refuses (by rcases disposition with h | h <;> simp [h])
    obtain ⟨s, -, st⟩ := hm.step.kept_of_refuses hr
    refine ⟨?_, st (by rcases disposition with h | h <;> simp [h]), s⟩
    rcases hr with eq | eq | ⟨cid, err, eq⟩
    · exact congrArg Decision.effects eq
    · exact congrArg Decision.effects eq
    · have rejected := congrArg Decision.disposition eq
      rcases disposition with h | h <;> simp [h, reject, Decision.rejected] at rejected
  rejected m' transition applied disposition := by
    have hm := apply_decides hi applied
    obtain ⟨s, cs, -⟩ :=
      hm.step.kept_of_refuses (hm.decides.refuses (by simp [disposition]))
    cases hm.decides with
    | accepts ok => simp [disposition] at ok
    | stale eq =>
      have ne := congrArg Decision.disposition eq
      simp [disposition, Decision.stale] at ne
    | ignores eq =>
      have ne := congrArg Decision.disposition eq
      simp [disposition, Decision.ignored] at ne
    | rejects submits eq =>
      exact ⟨_, _, _, _, _, _, submits, congrArg Decision.effects eq, cs, s⟩
  foreign ne := by
    cases left : m.nextSequence with
    | none => exact .inr ⟨rfl, by simp [apply, left]⟩
    | some sequence =>
      refine .inl ?_
      simp only [apply, left, dispatch_foreign hi ne]
      exact ⟨_, _, rfl, rfl⟩

/-- In every reachable state, an input that is not accepted changes nothing the machine owns,
and a report of another epoch or transport is stale. -/
theorem refusals_inert (initial : m.Initial) (inputs : List ConnectionInput)
    (input : ConnectionInput) : (m.after inputs).Inert input :=
  inert_of_inStep (initial.inStep_after inputs) input

/-- A response for another transport, while the second of two calls waits. -/
theorem refusals_inert_twoCalls :
    let m := (ConnectionMachine.new ⟨1⟩ smallLimits).after (twoCalls.take 7)
    m.Foreign (.responseReceived ⟨1⟩ ⟨5⟩ ⟨1⟩) ∧
      ∃ m' tr, m.apply (.responseReceived ⟨1⟩ ⟨5⟩ ⟨1⟩) = (m', .ok tr) ∧
        tr.record.disposition = .ignoredStale ∧ m'.state = m.state := by
  intro m
  have foreign : m.Foreign (.responseReceived ⟨1⟩ ⟨5⟩ ⟨1⟩) := .inr ⟨_, rfl, by decide +kernel⟩
  have hi := refusals_inert (.plain ⟨1⟩ smallLimits) (twoCalls.take 7)
    (.responseReceived ⟨1⟩ ⟨5⟩ ⟨1⟩)
  refine ⟨foreign, ?_⟩
  rcases hi.foreign foreign with ⟨m', tr, ha, hs⟩ | ⟨he, -⟩
  · exact ⟨m', tr, ha, hs, (hi.ignored m' tr ha (.inr hs)).2.1⟩
  · exact absurd he (by decide +kernel)

end ConnectionMachine

end KafkaDriver
