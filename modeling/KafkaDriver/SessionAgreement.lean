import KafkaDriver.CallSettlement

/-!
# The session stays in step

The handlers of a connection that ask its session a question treat the answer `ignoredStale`
as if the input were stale. `consults` is the question that the handler of an input asks,
behind the same guards. In a connection that is in step with its session the answer is never
`ignoredStale`, so these branches are dead.

The versions in use are those of one ApiVersions outcome : `outcomes` lists the outcomes that
took an epoch out of its negotiation, and an active epoch has exactly one.
-/

namespace KafkaDriver

open Connection Runs Option KafkaSessionMachine StateData

/-! ## The versions in use -/

namespace KafkaSessionMachine

/-- The capabilities a session retains. -/
def capabilities (m : KafkaSessionMachine) : Option NegotiatedCapabilities :=
  match m.state with
  | .authenticating capabilities _ _ | .ready capabilities | .draining capabilities =>
    some capabilities
  | .awaitingTransport | .negotiating _ | .closing _ | .closed _ => none

def negotiatedVersion (m : KafkaSessionMachine) (apiKey : ApiKey) : Option ApiVersion :=
  m.capabilities.bind fun capabilities => capabilities.version apiKey

end KafkaSessionMachine

namespace ConnectionMachine

def active (m : ConnectionMachine) : Option ActiveConnection :=
  match m.state with
  | .active _ connection => some connection
  | _ => none

/-- The version of an API that the active epoch uses. -/
def negotiatedVersion (m : ConnectionMachine) (apiKey : ApiKey) : Option ApiVersion :=
  m.active.bind fun _ => m.session.negotiatedVersion apiKey

/-! ## What the connection asks its session -/

/-- What the child's input asks the session, once the child itself has accepted it. -/
def consultsAuthentication (m : ConnectionMachine) (query : AuthenticationInput) :
    Option KafkaSessionInput :=
  match m.state with
  | .authenticating _ _ _ authentication =>
    if (authentication.apply query).2.disposition = .ignoredStale then none
    else sessionAuthenticationInput query
  | _ => none

/-- The question the handler of an input asks the session and whose answer it checks. -/
def consults (m : ConnectionMachine) : ConnectionInput → Option KafkaSessionInput
  | .transportOpened epoch effectId transportId attempt =>
    match m.state with
    | .opening expectedEpoch expectedEffect expectedTransport _ _ =>
      if epoch ≠ expectedEpoch ∨ effectId ≠ expectedEffect ∨ transportId ≠ expectedTransport then
        none
      else some (.transportOpened ⟨attempt.now, attempt.deadline⟩)
    | _ => none
  | .apiVersionsNegotiated epoch transportId effectId capabilities =>
    (m.matchingNegotiation epoch transportId effectId).map fun _ =>
      .apiVersionsSucceeded capabilities
  | .apiVersionsNegotiatedWithAuthentication epoch transportId effectId capabilities attempt =>
    (m.matchingNegotiation epoch transportId effectId).map fun _ =>
      .apiVersionsSucceededWithAuthentication capabilities ⟨attempt.now, attempt.deadline⟩
  | .apiVersionsFailed epoch transportId effectId failure =>
    (m.matchingNegotiation epoch transportId effectId).map fun _ => .apiVersionsFailed failure
  | .authentication query => m.consultsAuthentication query
  | .deadlineElapsed epoch timer now =>
    match m.state with
    | .authenticating .. => m.consultsAuthentication (.deadlineElapsed epoch timer now)
    | .negotiating expectedEpoch _ _ deadlineTimer _ =>
      if epoch ≠ expectedEpoch ∨ timer ≠ deadlineTimer then none
      else some (.deadlineElapsed now)
    | _ => none
  | _ => none

/-! ## Every question is answered -/

section Answers

variable {m : ConnectionMachine} {question : KafkaSessionInput}

/-- An answer of the session that is not stale. -/
def Answers (m : ConnectionMachine) (question : KafkaSessionInput) : Prop :=
  (m.session.apply question).2.disposition ≠ .ignoredStale

/-- A session that exchanges answers the outcome of its round. -/
theorem exchangeCompleted_answered {s : KafkaSessionMachine} {capabilities protocol round deadline}
    (he : s.state = .authenticating capabilities protocol (.exchanging round deadline))
    (out : ExchangeOutcome) :
    (s.apply (.authenticationExchangeCompleted round out)).2.disposition ≠ .ignoredStale := by
  have hf : ∀ err, (s.authenticationFailed err).2.disposition ≠ .ignoredStale := by
    intro err
    simp [KafkaSessionMachine.authenticationFailed, he,
      KafkaSessionMachine.closeAuthentication, KafkaSessionMachine.close,
      KafkaSessionTransition.applied]
  simp only [KafkaSessionMachine.apply, KafkaSessionMachine.authenticationExchangeCompleted,
    he, ne_eq, not_true_eq_false, if_false]
  split
  · simp [KafkaSessionMachine.finishAuthentication, he, KafkaSessionTransition.applied]
  · exact hf _
  split
  · exact hf _
  · exact hf _
  · split
    · exact hf _
    · rintro ⟨⟩

variable {query : AuthenticationInput} {input : ConnectionInput}

/-- A child that accepts an input is in the stage the input completes, and so is the session. -/
theorem answers_authentication (hi : m.InStep)
    (asks : m.consultsAuthentication query = some question) : m.Answers question := by
  unfold consultsAuthentication at asks
  split at asks
  · rename_i epoch tid caps child st
    split at asks
    · cases asks
    rename_i ok
    obtain ⟨-, -, -, stage, atStage, s⟩ := hi.agreed st
    unfold Answers
    cases query with
    | start => cases asks
    | handshakeAccepted e t f =>
      cases asks
      cases hg : child.state <;> simp [AuthenticationMachine.apply,
        AuthenticationMachine.handshakeAccepted, hg, AuthenticationTransition.stale] at ok
      obtain rfl : stage = .handshaking _ := by
        simpa [AuthenticationMachine.stage, hg, eq_comm] using atStage
      simp [KafkaSessionMachine.apply, KafkaSessionMachine.authenticationHandshakeSucceeded,
        s, KafkaSessionTransition.applied]
    | handshakeFailed e t f err =>
      cases asks
      simp [KafkaSessionMachine.apply, KafkaSessionMachine.authenticationFailed, s,
        KafkaSessionMachine.closeAuthentication, KafkaSessionMachine.close,
        KafkaSessionTransition.applied]
    | exchangeCompleted e t f round out =>
      cases asks
      cases hg : child.state <;> simp only [AuthenticationMachine.apply,
        AuthenticationMachine.exchangeCompleted, hg, AuthenticationTransition.stale,
        not_true_eq_false] at ok
      rename_i fx want timer due
      split at ok
      · exact absurd rfl ok
      rename_i hs
      obtain ⟨-, rfl⟩ : child.matches e t f fx = true ∧ round = want := by
        simpa using hs
      obtain rfl : stage = .exchanging round due := by
        simpa [AuthenticationMachine.stage, hg, eq_comm] using atStage
      exact exchangeCompleted_answered s out
    | deadlineElapsed e timer now =>
      cases asks
      have hg : m.session.state.deadline = some stage.deadline := by
        rw [s]
        rfl
      exact deadlineElapsed_answered hg now
  · cases asks

/-- In a connection that is in step, the session answers everything it is asked. -/
theorem answers_of_consults (hi : m.InStep) (ha : m.consults input = some question) :
    m.Answers question := by
  have neg : ∀ {epoch tid fx t}, m.matchingNegotiation epoch tid fx = some t →
      ∃ due, m.session.state = .negotiating due := by
    intro epoch tid fx t hf
    obtain ⟨due, st⟩ := matchingNegotiation_eq_some hf
    exact ⟨due, hi.agreed st⟩
  cases input with
  | transportOpened epoch fx tid a =>
    simp only [consults] at ha
    split at ha
    · rename_i st
      split at ha
      · cases ha
      · cases ha
        exact transportOpened_answered (hi.agreed st) _
    · cases ha
  | apiVersionsNegotiated epoch tid fx caps =>
    obtain ⟨t, hf, rfl⟩ := map_eq_some_iff.1 ha
    obtain ⟨due, s⟩ := neg hf
    exact apiVersionsSucceeded_answered s caps
  | apiVersionsNegotiatedWithAuthentication epoch tid fx caps a =>
    obtain ⟨t, hf, rfl⟩ := map_eq_some_iff.1 ha
    obtain ⟨due, s⟩ := neg hf
    exact apiVersionsSucceededWithAuthentication_answered s caps _
  | apiVersionsFailed epoch tid fx err =>
    obtain ⟨t, hf, rfl⟩ := map_eq_some_iff.1 ha
    obtain ⟨due, s⟩ := neg hf
    exact apiVersionsFailed_answered s err
  | authentication q => exact answers_authentication hi ha
  | deadlineElapsed epoch t now =>
    simp only [consults] at ha
    split at ha
    · exact answers_authentication hi ha
    · rename_i due st
      split at ha
      · cases ha
      cases ha
      have s : m.session.state = .negotiating due := hi.agreed st
      have hg : m.session.state.deadline = some due := by
        rw [s]
        rfl
      exact deadlineElapsed_answered hg now
    · cases ha
  | start | transportOpenFailed | submit | writeSubmitted | abortUnsentCall | writeFailed
  | responseReceived | responseRejected | beginDrain | transportClosed => cases ha

/-! ## A handler that asks decides -/

/-- The handler's answer is what became of the question, and it is not stale. -/
def Decided (m : ConnectionMachine) (question : KafkaSessionInput)
    (answer : ConnectionMachine × Decision) : Prop :=
  answer.1.session = (m.session.apply question).1 ∧ answer.2.disposition ≠ .ignoredStale

theorem closeNegotiating_decided {epoch transportId effectId timer deadline}
    (st : m.state = .negotiating epoch transportId effectId timer deadline)
    (reason : CloseReason) :
    m.Decided question
      (closeNegotiating { m with session := (m.session.apply question).1 } reason) := by
  simp [Decided, closeNegotiating, st, Decision.applied]

theorem authenticationInput_decided (ha : m.consultsAuthentication query = some question) :
    m.Decided question (m.authenticationInput query) := by
  unfold consultsAuthentication at ha
  split at ha
  · rename_i st
    split at ha
    · cases ha
    · rename_i ok
      simp only [authenticationInput, st, ok, if_false, ha, elim_some,
        applySession]
      split <;> simp [Decided, Decision.applied]
  · cases ha

theorem dispatch_decided (hi : m.InStep) (asks : m.consults input = some question)
    {m' : ConnectionMachine} {d : Decision} (h : m.dispatch input = (m', .ok d)) :
    m.Decided question (m', d) := by
  have ha : (m.session.apply question).2.disposition ≠ .ignoredStale :=
    answers_of_consults hi asks
  have f : ∀ {ans}, m.Decided question ans → ok ans = (m', .ok d) → m.Decided question (m', d) := by
    intro ans hd eq
    obtain ⟨rfl, ⟨⟩⟩ := Prod.mk.inj eq
    exact hd
  cases input with
  | transportOpened epoch fx tid a =>
    refine f ?_ h
    simp only [consults] at asks
    split at asks
    · rename_i st
      split at asks
      · cases asks
      · rename_i hs
        cases asks
        simp only [transportOpened, st, hs, if_false, beginNegotiation, ha]
        split <;> simp [Decided, Decision.applied]
    · cases asks
  | apiVersionsNegotiated epoch tid fx caps =>
    refine f ?_ h
    obtain ⟨t, hf, rfl⟩ := map_eq_some_iff.1 asks
    obtain ⟨due, st⟩ := matchingNegotiation_eq_some hf
    simp only [apiVersionsNegotiated, hf, ha, if_false]
    split
    · exact closeNegotiating_decided st _
    · split
      · exact closeNegotiating_decided st _
      · simp [Decided, Decision.applied]
  | apiVersionsNegotiatedWithAuthentication epoch tid fx caps a =>
    refine f ?_ h
    obtain ⟨t, hf, rfl⟩ := map_eq_some_iff.1 asks
    obtain ⟨due, st⟩ := matchingNegotiation_eq_some hf
    simp only [beginAuthentication, hf, ha, if_false]
    split
    · exact closeNegotiating_decided st _
    split
    · exact closeNegotiating_decided st _
    split
    · split
      · exact closeNegotiating_decided st _
      · simp [Decided, Decision.applied]
    · exact closeNegotiating_decided st _
  | apiVersionsFailed epoch tid fx err =>
    refine f ?_ h
    obtain ⟨t, hf, rfl⟩ := map_eq_some_iff.1 asks
    obtain ⟨due, st⟩ := matchingNegotiation_eq_some hf
    simp only [apiVersionsFailed, hf, ha, if_false]
    exact closeNegotiating_decided st _
  | authentication q => exact f (authenticationInput_decided asks) h
  | deadlineElapsed epoch t now =>
    refine f ?_ h
    simp only [consults] at asks
    split at asks
    · rename_i st
      simp only [deadlineElapsed, st]
      exact authenticationInput_decided asks
    · rename_i st
      split at asks
      · cases asks
      · rename_i hs
        cases asks
        simp only [deadlineElapsed, st, hs, if_false, ha]
        split <;> simp [Decided, Decision.applied]
    · cases asks
  | start | transportOpenFailed | submit | writeSubmitted | abortUnsentCall | writeFailed
  | responseReceived | responseRejected | beginDrain | transportClosed => cases asks

end Answers

end ConnectionMachine

/-! ## One outcome for each epoch -/

/-- The capabilities an input reports. -/
def ConnectionInput.capabilities : ConnectionInput → Option NegotiatedCapabilities
  | .apiVersionsNegotiated _ _ _ capabilities
  | .apiVersionsNegotiatedWithAuthentication _ _ _ capabilities _ => some capabilities
  | _ => none

/-- The ApiVersions outcome that took an epoch out of its negotiation, towards readiness. -/
def ConnectionEvent.outcome (e : ConnectionEvent) : Option NegotiatedCapabilities :=
  if e.before.state.phase = .negotiating ∧
      (e.after.state.phase = .authenticating ∨ e.after.state.phase = .ready) then
    e.input.capabilities
  else none

def outcomes (run : List ConnectionEvent) : List NegotiatedCapabilities :=
  run.filterMap ConnectionEvent.outcome

/-- The outcomes that lead to a state. -/
def Outcomes (run : List ConnectionEvent) : StateData → Prop
  | .dormant _ | .opening .. | .negotiating .. => outcomes run = []
  | .authenticating _ _ capabilities _ => outcomes run = [capabilities]
  | .active _ connection => outcomes run = [connection.capabilities]
  | .closing .. | .closed .. => True

variable {run : List ConnectionEvent} {e : ConnectionEvent} {m : ConnectionMachine}

/-- A step that stays outside the negotiation, or in it, adds no outcome. -/
theorem outcomes_concat (silent : e.outcome = none) : outcomes (run ++ [e]) = outcomes run := by
  simp [outcomes, silent]

theorem outcome_of_ne (he : e.before.state.phase ≠ .negotiating) : e.outcome = none := by
  simp [ConnectionEvent.outcome, he]

theorem outcome_of_eq (hs : e.after.state = e.before.state) : e.outcome = none := by
  unfold ConnectionEvent.outcome
  rw [hs]
  split_ifs with hm
  · obtain ⟨neg, ne⟩ := hm
    simp [neg] at ne
  · rfl

open ConnectionMachine in
/-- A step keeps the outcomes in line with the state. -/
theorem Outcomes.step {m' : ConnectionMachine} {i : ConnectionInput} {d : Decision}
    {ans : Except ConnectionMachineError ConnectionTransition} (hg : Outcomes run m.state)
    (hm : Moves m i (m', d)) : Outcomes (run ++ [⟨m, i, m', ans⟩]) m'.state := by
  have step := hm.step
  -- all but two kinds of steps leave the list of outcomes alone
  have hs : m'.state = m.state → Outcomes (run ++ [⟨m, i, m', ans⟩]) m'.state := by
    intro hu
    unfold Outcomes
    rw [outcomes_concat (outcome_of_eq hu), hu]
    exact hg
  have ho : m.state.phase ≠ .negotiating → Outcomes run m'.state →
      Outcomes (run ++ [⟨m, i, m', ans⟩]) m'.state := by
    intro he post
    unfold Outcomes
    rw [outcomes_concat (outcome_of_ne he)]
    exact post
  generalize post : m'.state = state', m'.session = session' at step
  dsimp only at step
  cases step with
  | kept | rearmed => rw [← post]; exact hs post
  | opens st | negotiates st | exchanges st | authenticated st | exhausted st
  | submits st | drains st =>
    rw [st] at hg
    rw [← post]
    exact ho (by simp [st, phase]) (by rw [post]; exact hg)
  | @marks _ mode _ _ st | @settles _ mode _ _ _ _ _ _ st =>
    rw [st] at hg
    rw [← post]
    exact ho (by cases mode <;> simp [st, phase]) (by rw [post]; exact hg)
  | handshakes st | negotiated st =>
    rw [st] at hg
    change outcomes run = [] at hg
    change outcomes (run ++ [_]) = [_]
    rw [outcomes, List.filterMap_append, ← outcomes, hg]
    simp [ConnectionEvent.outcome, st, post, phase, ConnectionInput.capabilities,
      ActiveConnection.new]
  | closes | ends => trivial

theorem outcomes_run (initial : m.Initial) (is : List ConnectionInput) :
    Outcomes (m.run is) (m.after is).state :=
  (ConnectionMachine.step_induction (P := fun past m => Outcomes past m.state) initial.inStep
    (by cases initial <;> rfl)
    (fun past m₁ i err _ hg => by
      unfold Outcomes at hg ⊢
      rwa [outcomes_concat (outcome_of_eq rfl)])
    (fun _ _ _ _ _ _ hm hg => hg.step hm) is).2

/-! ## Every run -/

/-- What it means for the session to stay in step with a connection after a run. -/
structure Follows (run : List ConnectionEvent) (m : ConnectionMachine) : Prop where
  /-- The session is in the stage the connection's state calls for. -/
  agrees : ConnectionMachine.Agrees m.authentication m.session.state m.state
  /-- No question to the session is answered as stale. -/
  answers : ∀ input question, m.consults input = some question → m.Answers question
  /-- A handler that asks the session passes the question on and does not decide stale. -/
  decides : ∀ input question m' d, m.consults input = some question →
    m.dispatch input = (m', .ok d) → m.Decided question (m', d)
  /-- An active epoch uses the versions of the one outcome that made it active. -/
  versions : ∀ mode connection, m.state = .active mode connection →
    ∃ capabilities, outcomes run = [capabilities] ∧
      ∀ apiKey, m.negotiatedVersion apiKey = capabilities.version apiKey

/-- The versions an active connection answers with are those it holds. -/
theorem negotiatedVersion_eq (hi : m.InStep) {mode connection}
    (st : m.state = .active mode connection) (apiKey : ApiKey) :
    m.negotiatedVersion apiKey = connection.capabilities.version apiKey := by
  have ha := hi.agreed st
  cases mode with
  | ready | draining =>
    change m.session.state = _ at ha
    simp [ConnectionMachine.negotiatedVersion, ConnectionMachine.active, st,
      negotiatedVersion, capabilities, ha]

/-- After every run the session is in step with the connection that drives it. -/
theorem session_follows (initial : m.Initial) (inputs : List ConnectionInput) :
    Follows (m.run inputs) (m.after inputs) := by
  have hi := initial.inStep_after inputs
  refine ⟨hi.agrees, fun input question => ConnectionMachine.answers_of_consults hi,
    fun input question m' d ha => ConnectionMachine.dispatch_decided hi ha, ?_⟩
  intro mode conn st
  have out := outcomes_run initial inputs
  rw [st] at out
  exact ⟨conn.capabilities, out, negotiatedVersion_eq hi st⟩

theorem session_follows_twoCalls :
    let m := ConnectionMachine.new ⟨1⟩ smallLimits
    (m.after (twoCalls.take 5)).state.phase = .ready ∧
      Follows (m.run (twoCalls.take 5)) (m.after (twoCalls.take 5)) :=
  ⟨by decide +kernel, session_follows (.plain ⟨1⟩ smallLimits) _⟩

end KafkaDriver
