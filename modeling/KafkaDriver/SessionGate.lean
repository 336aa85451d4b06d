import KafkaDriver.Runs
import KafkaDriver.Session

/-!
# The session as a one-shot gate

A session counts its exchanges from one, becomes ready at most once, closes at most once,
and owns one deadline for as long as it waits for an answer. What an input can do to a
session is said by `Step`, one constructor for each kind of transition. The history of a
run is the list of its effects : `OpensOnce`, `ClosesOnce` and `Counted` say what that list
tells of the state, and a step keeps each of them. `one_shot` collects what follows for
every run.
-/

namespace KafkaDriver

open Runs KafkaSession List KafkaSessionMachine StateData

/-- The deadline a state owns. -/
def KafkaSession.StateData.deadline : StateData → Option Moment
  | .negotiating deadline => some deadline
  | .authenticating _ _ stage => some stage.deadline
  | _ => none

/-- Neither closing nor closed. -/
def KafkaSession.StateData.isOpen : StateData → Bool
  | .closing _ | .closed _ => false
  | _ => true

namespace KafkaSessionMachine

/-! ## What an input does -/

/-- `input` completes `stage`, and `round` is the exchange that comes next. -/
def NextRound (m : KafkaSessionMachine) (input : KafkaSessionInput) (stage : AuthenticationStage)
    (round : AuthenticationRound) : Prop :=
  (∃ deadline, stage = .handshaking deadline ∧ input = .authenticationHandshakeSucceeded ∧
    round = .first) ∨
  ∃ previous deadline policy, stage = .exchanging previous deadline ∧
    input = .authenticationExchangeCompleted previous .continue ∧ previous.next = some round ∧
    m.authentication = some policy ∧ round.get ≤ policy.limits.maxExchangeRounds.get

/-- `input` is the last one a session with these capabilities waits for. -/
def Completes (m : KafkaSessionMachine) (input : KafkaSessionInput)
    (capabilities : NegotiatedCapabilities) : Prop :=
  (∃ deadline, m.state = .negotiating deadline ∧ m.authentication = none ∧
    input = .apiVersionsSucceeded capabilities) ∨
  ∃ protocol round deadline,
    m.state = .authenticating capabilities protocol (.exchanging round deadline) ∧
    input = .authenticationExchangeCompleted round .succeeded

/-- What one input can do, by the state and the transition it leads to. -/
inductive Step (m : KafkaSessionMachine) (input : KafkaSessionInput) :
    StateData → KafkaSessionTransition → Prop
  | kept {disposition : KafkaSessionDisposition} (unapplied : disposition ≠ .applied)
      (unfired : ∀ now, input = .deadlineElapsed now → m.state.deadline = none)
      (ended : input = .closed → m.state.deadline = none)
      (draining : input = .beginDrain → (∃ c, m.state = .draining c) ∨ m.state.isOpen = false) :
      Step m input m.state ⟨[], disposition⟩
  | rescheduled {now deadline : Moment} (asked : input = .deadlineElapsed now)
      (held : m.state.deadline = some deadline) :
      Step m input m.state (.applied [.rescheduleDeadline deadline])
  | negotiates {attempt : KafkaSessionDeadline} (state : m.state = .awaitingTransport)
      (asked : input = .transportOpened attempt) :
      Step m input (.negotiating attempt.deadline) (.applied [.startApiVersions attempt.deadline])
  | handshakes {previous : Moment} {capabilities : NegotiatedCapabilities}
      {attempt : KafkaSessionDeadline} {policy : AuthenticationPolicy} {protocol : SaslProtocol}
      (state : m.state = .negotiating previous)
      (asked : input = .apiVersionsSucceededWithAuthentication capabilities attempt)
      (required : m.authentication = some policy) :
      Step m input (.authenticating capabilities protocol (.handshaking attempt.deadline))
        (.applied [.cancelDeadline, .startAuthenticationHandshake protocol.mechanism
          protocol.handshakeVersion attempt.deadline])
  | exchanges {capabilities : NegotiatedCapabilities} {protocol : SaslProtocol}
      {stage : AuthenticationStage} {round : AuthenticationRound}
      (state : m.state = .authenticating capabilities protocol stage)
      (next : m.NextRound input stage round) :
      Step m input (.authenticating capabilities protocol (.exchanging round stage.deadline))
        (.applied [.startAuthenticationExchange round protocol.authenticateVersion stage.deadline])
  | opens {capabilities : NegotiatedCapabilities} (completes : m.Completes input capabilities) :
      Step m input (.ready capabilities) (.applied [.cancelDeadline, .sessionReady])
  | drains {capabilities : NegotiatedCapabilities} (state : m.state = .ready capabilities)
      (asked : input = .beginDrain) :
      Step m input (.draining capabilities) (.applied [.beginDrain])
  | closes {reason : KafkaSessionCloseReason} {cancels : Bool}
      {disposition : KafkaSessionDisposition} (alive : m.state.isOpen = true)
      (covers : cancels = false → m.state.deadline = none ∨ ∃ now, input = .deadlineElapsed now) :
      Step m input (.closing reason)
        ⟨.closeSession reason :: if cancels then [.cancelDeadline] else [], disposition⟩
  | closed {reason : KafkaSessionCloseReason} (asked : input = .closed) :
      Step m input (.closed reason) (.applied [])

variable {m : KafkaSessionMachine} {input : KafkaSessionInput}

theorem close_step {reason : KafkaSessionCloseReason} {cancels fault : Bool}
    (ha : m.state.isOpen = true)
    (hc : cancels = false → m.state.deadline = none ∨ ∃ now, input = .deadlineElapsed now) :
    Step m input (m.close reason cancels fault).1.state (m.close reason cancels fault).2 := by
  cases fault
  · exact .closes ha hc
  · exact .closes ha hc

/-- An answer that belongs to no stage the session is in. -/
theorem stale_step (hun : ∀ now, input ≠ .deadlineElapsed now) (he : input ≠ .closed)
    (hu : input ≠ .beginDrain) : Step m input m.state .stale :=
  .kept nofun (fun now ha => absurd ha (hun now)) (fun ha => absurd ha he) fun ha => absurd ha hu

section

variable (m)

theorem transportOpened_step (a : KafkaSessionDeadline) :
    Step m (.transportOpened a) (m.transportOpened a).1.state (m.transportOpened a).2 := by
  unfold transportOpened
  split
  · rename_i st
    split_ifs
    · exact close_step (by rw [st]; rfl) fun _ => .inl (by rw [st]; rfl)
    · exact .negotiates st rfl
  · exact stale_step nofun nofun nofun

theorem apiVersionsSucceeded_step (caps : NegotiatedCapabilities) :
    Step m (.apiVersionsSucceeded caps) (m.apiVersionsSucceeded caps).1.state
      (m.apiVersionsSucceeded caps).2 := by
  unfold apiVersionsSucceeded
  split
  · rename_i due st
    have ha : m.state.isOpen = true := by rw [st]; rfl
    split_ifs with large hr
    · exact close_step ha nofun
    · exact close_step ha nofun
    · exact .opens (.inl ⟨due, st, by simpa using hr, rfl⟩)
  · exact stale_step nofun nofun nofun

theorem apiVersionsSucceededWithAuthentication_step (caps : NegotiatedCapabilities)
    (a : KafkaSessionDeadline) :
    Step m (.apiVersionsSucceededWithAuthentication caps a)
      (m.apiVersionsSucceededWithAuthentication caps a).1.state
      (m.apiVersionsSucceededWithAuthentication caps a).2 := by
  unfold apiVersionsSucceededWithAuthentication
  split
  · rename_i due st
    have ha : m.state.isOpen = true := by rw [st]; rfl
    split
    · exact close_step ha nofun
    split
    · exact close_step ha nofun
    rename_i pol hr
    split
    · split_ifs
      · exact close_step ha nofun
      · exact .handshakes st rfl hr
    · exact close_step ha nofun
  · exact stale_step nofun nofun nofun

theorem apiVersionsFailed_step (err : NegotiationFailure) :
    Step m (.apiVersionsFailed err) (m.apiVersionsFailed err).1.state
      (m.apiVersionsFailed err).2 := by
  unfold apiVersionsFailed
  split
  · rename_i due st
    exact close_step (by rw [st]; rfl) nofun
  · exact stale_step nofun nofun nofun

theorem authenticationHandshakeSucceeded_step :
    Step m .authenticationHandshakeSucceeded m.authenticationHandshakeSucceeded.1.state
      m.authenticationHandshakeSucceeded.2 := by
  unfold authenticationHandshakeSucceeded
  split
  · rename_i due st
    exact .exchanges st (.inl ⟨due, rfl, rfl, rfl⟩)
  · exact stale_step nofun nofun nofun

end

theorem authenticationFailed_step (err : AuthenticationFailure)
    (hun : ∀ now, input ≠ .deadlineElapsed now) (he : input ≠ .closed)
    (hu : input ≠ .beginDrain) :
    Step m input (m.authenticationFailed err).1.state (m.authenticationFailed err).2 := by
  unfold authenticationFailed
  split
  · rename_i st
    exact close_step (by rw [st]; rfl) nofun
  · exact stale_step hun he hu

variable (m input)

theorem authenticationExchangeCompleted_step (round : AuthenticationRound) (out : ExchangeOutcome) :
    Step m (.authenticationExchangeCompleted round out)
      (m.authenticationExchangeCompleted round out).1.state
      (m.authenticationExchangeCompleted round out).2 := by
  unfold authenticationExchangeCompleted
  split
  · rename_i caps proto want due st
    split
    · exact stale_step nofun nofun nofun
    rename_i hs
    obtain rfl := not_not.1 hs
    split
    · simp only [finishAuthentication, st]
      exact .opens (.inr ⟨proto, round, due, st, rfl⟩)
    · exact authenticationFailed_step _ nofun nofun nofun
    split
    · exact authenticationFailed_step _ nofun nofun nofun
    · exact authenticationFailed_step _ nofun nofun nofun
    · rename_i next pol hf hr
      split_ifs with hm
      · exact authenticationFailed_step _ nofun nofun nofun
      · exact .exchanges st (.inr ⟨round, due, pol, rfl, rfl, hf, hr, Nat.le_of_not_lt hm⟩)
  · exact stale_step nofun nofun nofun

theorem deadlineElapsed_step (now : Moment) :
    Step m (.deadlineElapsed now) (m.deadlineElapsed now).1.state (m.deadlineElapsed now).2 := by
  unfold deadlineElapsed
  split
  · rename_i deadline state
    split_ifs
    · exact .rescheduled rfl (by rw [state]; rfl)
    · exact close_step (by rw [state]; rfl) fun _ => .inr ⟨now, rfl⟩
  · rename_i stage state
    split_ifs
    · exact .rescheduled rfl (by rw [state]; rfl)
    · exact close_step (by rw [state]; rfl) nofun
  · rename_i hun hu
    refine .kept nofun (fun _ _ => ?_) nofun nofun
    cases state : m.state <;> simp_all [deadline]

theorem beginDrain_step : Step m .beginDrain m.beginDrain.1.state m.beginDrain.2 := by
  unfold beginDrain
  split <;> rename_i st
  · exact close_step (by rw [st]; rfl) fun _ => .inl (by rw [st]; rfl)
  · exact close_step (by rw [st]; rfl) nofun
  · exact close_step (by rw [st]; rfl) nofun
  · exact .drains st rfl
  · exact .kept nofun nofun nofun fun _ => .inl ⟨_, st⟩
  · exact .kept nofun nofun nofun fun _ => .inr (by rw [st]; rfl)
  · exact .kept nofun nofun nofun fun _ => .inr (by rw [st]; rfl)

theorem drained_step : Step m .drained m.drained.1.state m.drained.2 := by
  unfold drained
  split
  · rename_i st
    exact close_step (by rw [st]; rfl) fun _ => .inl (by rw [st]; rfl)
  · exact stale_step nofun nofun nofun

theorem protocolFailed_step (err : KafkaSessionProtocolFailure) :
    Step m (.protocolFailed err) (m.protocolFailed err).1.state (m.protocolFailed err).2 := by
  unfold protocolFailed
  split <;> rename_i st
  · exact stale_step nofun nofun nofun
  · exact stale_step nofun nofun nofun
  · exact close_step (by rw [st]; rfl) nofun
  · exact close_step (by rw [st]; rfl) nofun
  · exact close_step (by rw [st]; rfl) fun _ => .inl (by rw [st]; rfl)
  · exact close_step (by rw [st]; rfl) fun _ => .inl (by rw [st]; rfl)
  · exact close_step (by rw [st]; rfl) fun _ => .inl (by rw [st]; rfl)

theorem closed_step : Step m .closed m.closed.1.state m.closed.2 := by
  unfold closed
  split
  · rename_i st
    exact .kept nofun nofun (fun _ => by rw [st]; rfl) nofun
  · exact .closed rfl
  · exact .closed rfl

theorem apply_step : Step m input (m.apply input).1.state (m.apply input).2 := by
  cases input with
  | transportOpened a => exact m.transportOpened_step a
  | apiVersionsSucceeded caps => exact m.apiVersionsSucceeded_step caps
  | apiVersionsSucceededWithAuthentication caps a =>
    exact m.apiVersionsSucceededWithAuthentication_step caps a
  | apiVersionsFailed err => exact m.apiVersionsFailed_step err
  | authenticationHandshakeSucceeded => exact m.authenticationHandshakeSucceeded_step
  | authenticationHandshakeFailed err =>
    exact authenticationFailed_step err nofun nofun nofun
  | authenticationExchangeCompleted round out =>
    exact m.authenticationExchangeCompleted_step round out
  | deadlineElapsed now => exact m.deadlineElapsed_step now
  | beginDrain => exact m.beginDrain_step
  | drained => exact m.drained_step
  | protocolFailed err => exact m.protocolFailed_step err
  | closed => exact m.closed_step

theorem apply_configuration :
    (m.apply input).1.authentication = m.authentication ∧ (m.apply input).1.limits = m.limits := by
  cases input <;>
    simp only [apply, transportOpened, apiVersionsSucceeded,
      apiVersionsSucceededWithAuthentication, apiVersionsFailed, authenticationHandshakeSucceeded,
      authenticationFailed, finishAuthentication, authenticationExchangeCompleted, deadlineElapsed,
      beginDrain, drained, protocolFailed, closed, closeNegotiation, closeAuthentication, close] <;>
    (repeat' split) <;> exact ⟨rfl, rfl⟩

@[simp] theorem apply_authentication : (m.apply input).1.authentication = m.authentication :=
  (m.apply_configuration input).1

@[simp] theorem apply_limits : (m.apply input).1.limits = m.limits :=
  (m.apply_configuration input).2

end KafkaSessionMachine

/-! ## The history of a run -/

abbrev SessionEvent := Event KafkaSessionMachine KafkaSessionInput KafkaSessionTransition

/-- A session before its first input, with the policy it must satisfy if there is one. -/
def KafkaSessionMachine.initial (limits : KafkaSessionLimits) :
    Option AuthenticationPolicy → KafkaSessionMachine
  | none => .new limits
  | some policy => .newAuthenticated limits policy

@[simp] theorem KafkaSessionMachine.initial_eq (lim : KafkaSessionLimits)
    (authentication : Option AuthenticationPolicy) :
    initial lim authentication = ⟨.awaitingTransport, lim, authentication⟩ := by
  cases authentication <;> rfl

namespace SessionGate

/-- The effects of a run, in the order they were emitted. -/
def effectsOf (run : List SessionEvent) : List KafkaSessionEffect :=
  run.flatMap fun e => e.answer.effects

@[simp] theorem effectsOf_concat (run : List SessionEvent) (e : SessionEvent) :
    effectsOf (run ++ [e]) = effectsOf run ++ e.answer.effects := by
  simp [effectsOf]

/-- An effect that starts work of the peer. -/
def IsStart : KafkaSessionEffect → Bool
  | .startApiVersions _ | .startAuthenticationHandshake _ _ _
  | .startAuthenticationExchange _ _ _ => true
  | _ => false

/-- The round and the deadline an effect starts an exchange with. -/
def exchangeOf : KafkaSessionEffect → Option (AuthenticationRound × Moment)
  | .startAuthenticationExchange round _ deadline => some (round, deadline)
  | _ => none

def handshakeOf : KafkaSessionEffect → Option Moment
  | .startAuthenticationHandshake _ _ deadline => some deadline
  | _ => none

/-- The rounds started, in order. -/
def rounds (effects : List KafkaSessionEffect) : List AuthenticationRound :=
  (effects.filterMap exchangeOf).map Prod.fst

/-- The deadlines the exchanges were started with. -/
def exchangeDeadlines (effects : List KafkaSessionEffect) : List Moment :=
  (effects.filterMap exchangeOf).map Prod.snd

def handshakeDeadlines (effects : List KafkaSessionEffect) : List Moment :=
  effects.filterMap handshakeOf

@[simp] theorem exchangeDeadlines_append (pre after : List KafkaSessionEffect) :
    exchangeDeadlines (pre ++ after) = exchangeDeadlines pre ++ exchangeDeadlines after := by
  simp [exchangeDeadlines]

@[simp] theorem handshakeDeadlines_append (pre after : List KafkaSessionEffect) :
    handshakeDeadlines (pre ++ after) = handshakeDeadlines pre ++ handshakeDeadlines after := by
  simp [handshakeDeadlines]

/-! ### The one deadline -/

/-- The deadline that is set once an effect has been carried out. -/
def setBy (deadline : Option Moment) : KafkaSessionEffect → Option Moment
  | .startApiVersions next | .startAuthenticationHandshake _ _ next
  | .startAuthenticationExchange _ _ next | .rescheduleDeadline next => some next
  | .cancelDeadline => none
  | .sessionReady | .beginDrain | .closeSession _ => deadline

/-- The inputs that tell of a deadline that is gone. -/
def Clears : KafkaSessionInput → Bool
  | .deadlineElapsed _ | .closed => true
  | _ => false

def deadlineAfter (deadline : Option Moment) (e : SessionEvent) : Option Moment :=
  e.answer.effects.foldl setBy (if Clears e.input then none else deadline)

/-- The deadline a run leaves set. -/
def deadlineOf (run : List SessionEvent) : Option Moment :=
  run.foldl deadlineAfter none

@[simp] theorem deadlineOf_concat (run : List SessionEvent) (e : SessionEvent) :
    deadlineOf (run ++ [e]) = deadlineAfter (deadlineOf run) e := by
  simp [deadlineOf]

open KafkaSessionMachine in
/-- A step that finds the state's deadline set leaves the next state's deadline set. -/
theorem deadlineAfter_step {m : KafkaSessionMachine} {i : KafkaSessionInput}
    {next : KafkaSessionMachine} {ans : KafkaSessionTransition}
    (step : Step m i next.state ans) :
    deadlineAfter m.state.deadline ⟨m, i, next, ans⟩ = next.state.deadline := by
  generalize next.state = state at step
  unfold deadlineAfter
  cases step with
  | kept hun hud he draining =>
    cases i <;> simp_all [Clears]
  | rescheduled ha hg => simp [KafkaSessionTransition.applied, setBy, hg]
  | negotiates _ ha | handshakes _ ha hr | exchanges _ hf | opens completes => rfl
  | drains hg ha =>
    simp [KafkaSessionTransition.applied, setBy, hg, ha, Clears, deadline]
  | @closes reason cancels _ hal hc =>
    cases cancels
    · rcases hc rfl with hu | ⟨now, rfl⟩
      · change _ = none
        simp [setBy, hu]
      · rfl
    · rfl
  | closed ha => simp [KafkaSessionTransition.applied, ha, Clears, deadline]

/-! ### Opening and closing once -/

/-- Still before the session can be used. -/
def IsWaiting : StateData → Bool
  | .awaitingTransport | .negotiating _ | .authenticating _ _ _ => true
  | _ => false

def IsClose : KafkaSessionEffect → Bool
  | .closeSession _ => true
  | _ => false

section Steps

variable {m : KafkaSessionMachine} {input : KafkaSessionInput} {next : StateData}
  {ans : KafkaSessionTransition} {effects : List KafkaSessionEffect}

open KafkaSessionMachine KafkaSessionTransition

theorem isWaiting_of_step (step : Step m input next ans) (ws : IsWaiting next = true) :
    IsWaiting m.state = true ∧ .sessionReady ∉ ans.effects := by
  cases step with
  | kept => exact ⟨ws, by simp⟩
  | rescheduled => exact ⟨ws, by simp [applied]⟩
  | negotiates st | handshakes st | exchanges st => simp [st, IsWaiting, applied]
  | opens | drains | closes | closed => cases ws

theorem waiting_of_sessionReady (step : Step m input next ans) (hr : .sessionReady ∈ ans.effects) :
    IsWaiting m.state = true ∧ ans.effects.count .sessionReady = 1 := by
  cases step with
  | opens completes =>
    refine ⟨?_, rfl⟩
    rcases completes with ⟨due, st, -⟩ | ⟨proto, round, due, st, -⟩ <;>
      simp [st, IsWaiting]
  | @closes _ cancels => cases cancels <;> simp at hr
  | kept | rescheduled | negotiates | handshakes | exchanges | drains | closed =>
    simp [applied] at hr

/-- The session has not been opened while it waits, and has been opened at most once. -/
structure OpensOnce (effects : List KafkaSessionEffect) (state : StateData) : Prop where
  unready : IsWaiting state = true → .sessionReady ∉ effects
  atMostOnce : effects.count .sessionReady ≤ 1

theorem OpensOnce.step (ho : OpensOnce effects m.state) (step : Step m input next ans) :
    OpensOnce (effects ++ ans.effects) next where
  unready waiting := by
    obtain ⟨pre, unready⟩ := isWaiting_of_step step waiting
    simp [ho.unready pre, unready]
  atMostOnce := by
    by_cases ready : .sessionReady ∈ ans.effects
    · obtain ⟨pre, once⟩ := waiting_of_sessionReady step ready
      rw [count_append, once, count_eq_zero.2 (ho.unready pre)]
    · rw [count_append, count_eq_zero.2 ready]
      exact ho.atMostOnce

theorem isOpen_of_step (step : Step m input next ans) (ha : next.isOpen = true) :
    m.state.isOpen = true ∧ ∀ f ∈ ans.effects, IsClose f = false := by
  cases step with
  | kept => exact ⟨ha, by simp⟩
  | rescheduled => exact ⟨ha, by simp [applied, IsClose]⟩
  | negotiates st | handshakes st | exchanges st | drains st =>
    simp [st, isOpen, applied, IsClose]
  | opens completes =>
    refine ⟨?_, by simp [applied, IsClose]⟩
    rcases completes with ⟨due, st, -⟩ | ⟨proto, round, due, st, -⟩ <;>
      simp [st, isOpen]
  | closes | closed => cases ha

theorem effects_of_not_isOpen (step : Step m input next ans)
    (he : m.state.isOpen = false) : ans.effects = [] := by
  cases step with
  | kept | closed => rfl
  | rescheduled had hh =>
    cases state : m.state <;> simp_all [isOpen, deadline]
  | negotiates state | handshakes state | exchanges state | drains state =>
    simp [state, isOpen] at he
  | opens completes =>
    rcases completes with ⟨deadline, state, -⟩ | ⟨protocol, round, deadline, state, -⟩ <;>
      simp [state, isOpen] at he
  | closes ha => simp [ha] at he

/-- After a close nothing is emitted but the cancellation of the deadline. -/
def Sealed (effects : List KafkaSessionEffect) : Prop :=
  effects.Pairwise fun f g => IsClose f = true → g = .cancelDeadline

theorem sealed_of_step (step : Step m input next ans) : Sealed ans.effects := by
  cases step with
  | @closes _ cancels => cases cancels <;> simp [Sealed]
  | kept | rescheduled | negotiates | handshakes | exchanges | opens | drains | closed =>
    simp [Sealed, applied, IsClose]

/-- The session has not been closed while it is open, and nothing follows its close. -/
structure ClosesOnce (effects : List KafkaSessionEffect) (state : StateData) : Prop where
  unclosed : state.isOpen = true → ∀ f ∈ effects, IsClose f = false
  isSealed : Sealed effects

theorem ClosesOnce.step (closes : ClosesOnce effects m.state) (step : Step m input next ans) :
    ClosesOnce (effects ++ ans.effects) next where
  unclosed alive := by
    obtain ⟨pre, unclosed⟩ := isOpen_of_step step alive
    intro f mem
    rcases mem_append.1 mem with old | new
    · exact closes.unclosed pre f old
    · exact unclosed f new
  isSealed := by
    refine pairwise_append.2 ⟨closes.isSealed, sealed_of_step step, ?_⟩
    intro f old g new hi
    cases alive : m.state.isOpen with
    | true => simp [closes.unclosed alive f old] at hi
    | false => simp [effects_of_not_isOpen step alive] at new

/-! ### Draining -/

/-- A drain has been asked for, or there is nothing left to drain. -/
def HasDrained : StateData → Bool
  | .draining _ | .closing _ | .closed _ => true
  | _ => false

theorem hasDrained_of_step (step : Step m input next ans)
    (hd : HasDrained m.state = true ∨ input = .beginDrain) :
    HasDrained next = true ∧ ∀ f ∈ ans.effects, IsStart f = false ∧ f ≠ .sessionReady := by
  cases step with
  | kept _ _ _ draining =>
    refine ⟨?_, by simp⟩
    rcases hd with hg | ha
    · exact hg
    · rcases draining ha with ⟨c, hg⟩ | he
      · simp [hg, HasDrained]
      · cases st : m.state <;> simp_all [isOpen, HasDrained]
  | rescheduled ha hg =>
    refine ⟨?_, by simp [applied, IsStart]⟩
    rcases hd with hg | rfl
    · exact hg
    · cases ha
  | negotiates st ha | handshakes st ha =>
    simp [st, HasDrained, ha] at hd
  | exchanges st hf =>
    rcases hf with ⟨_, -, ha, -⟩ | ⟨_, _, _, -, ha, -⟩ <;>
      simp [st, HasDrained, ha] at hd
  | opens completes =>
    rcases completes with ⟨_, st, -, ha⟩ | ⟨_, _, _, st, ha⟩ <;>
      simp [st, HasDrained, ha] at hd
  | drains | closed => exact ⟨rfl, by simp [applied, IsStart]⟩
  | @closes _ cancels => exact ⟨rfl, by cases cancels <;> simp [IsStart]⟩

/-! ### The rounds -/

/-- The handshakes and exchanges that lead to a state. -/
def Staged (effects : List KafkaSessionEffect) : StateData → Prop
  | .awaitingTransport | .negotiating _ =>
    handshakeDeadlines effects = [] ∧ effects.filterMap exchangeOf = []
  | .authenticating _ _ (.handshaking deadline) =>
    handshakeDeadlines effects = [deadline] ∧ effects.filterMap exchangeOf = []
  | .authenticating _ _ (.exchanging round deadline) =>
    handshakeDeadlines effects = [deadline] ∧ (rounds effects).getLast? = some round
  | .ready _ | .draining _ | .closing _ | .closed _ => True

/-- `round` is one that `authentication` has room for. -/
def Allowed (authentication : Option AuthenticationPolicy) (round : AuthenticationRound) : Prop :=
  ∃ policy, authentication = some policy ∧ round.get ≤ policy.limits.maxExchangeRounds.get

/-- The rounds are counted from one, within the policy and under the handshake's deadline. -/
structure Counted (effects : List KafkaSessionEffect) (state : StateData)
    (authentication : Option AuthenticationPolicy) : Prop where
  required : ∀ c p s, state = .authenticating c p s → ∃ policy, authentication = some policy
  staged : Staged effects state
  numbered : (rounds effects).map AuthenticationRound.get = range' 1 (rounds effects).length
  allowed : ∀ round ∈ rounds effects, Allowed authentication round
  sameDeadline : ∀ d ∈ exchangeDeadlines effects, handshakeDeadlines effects = [d]

variable {started : List AuthenticationRound} {round : AuthenticationRound}

/-- In a list of rounds counted from one, the last round is the number of rounds. -/
theorem get_of_getLast? (hn : started.map AuthenticationRound.get = range' 1 started.length)
    (last : started.getLast? = some round) : round.get = started.length := by
  have hm := congrArg getLast? hn
  rw [getLast?_map, last, getLast?_range'] at hm
  split_ifs at hm with empty
  · simp at hm
  · simp only [Option.map_some, Option.some.injEq] at hm
    omega

theorem numbered_concat (hn : started.map AuthenticationRound.get = range' 1 started.length)
    (next : round.get = started.length + 1) :
    (started ++ [round]).map AuthenticationRound.get = range' 1 (started ++ [round]).length := by
  rw [map_append, hn, length_append, length_singleton, range'_concat]
  simp [next, Nat.add_comm]

theorem get_of_next {prev : AuthenticationRound} (next : prev.next = some round) :
    round.get = prev.get + 1 := by
  unfold AuthenticationRound.next at next
  split_ifs at next
  cases next
  rfl

variable {authentication : Option AuthenticationPolicy} {state : StateData}

/-- Before the first exchange there is nothing to count. -/
theorem Counted.unstarted
    (hr : ∀ c p s, next = .authenticating c p s → ∃ pol, authentication = some pol)
    (hn : effects.filterMap exchangeOf = []) (hs : Staged effects next) :
    Counted effects next authentication where
  required := hr
  staged := hs
  numbered := by simp [rounds, hn]
  allowed := by
    intro round mem
    simp [rounds, hn] at mem
  sameDeadline := by
    intro d mem
    simp [exchangeDeadlines, hn] at mem

/-- Effects that start neither a handshake nor an exchange leave the count as it is. -/
theorem Counted.silent (cnt : Counted effects state authentication)
    {new : List KafkaSessionEffect} (hn : new.filterMap exchangeOf = [])
    (hno : handshakeDeadlines new = [])
    (hr : ∀ c p s, next = .authenticating c p s → ∃ pol, authentication = some pol)
    (hst : Staged effects next) : Counted (effects ++ new) next authentication := by
  have hsa : rounds (effects ++ new) = rounds effects := by simp [rounds, hn]
  have hs : handshakeDeadlines (effects ++ new) = handshakeDeadlines effects := by
    simp [hno]
  refine ⟨hr, ?_, ?_, ?_, ?_⟩
  · unfold Staged at hst ⊢
    rwa [hsa, hs, filterMap_append, hn, append_nil]
  · rw [hsa]
    exact cnt.numbered
  · rw [hsa]
    exact cnt.allowed
  · rw [hs, exchangeDeadlines, filterMap_append, hn, append_nil]
    exact cnt.sameDeadline

/-- Starting an exchange under the handshake's deadline with the number that comes next. -/
theorem Counted.exchange (cnt : Counted effects state authentication)
    {caps : NegotiatedCapabilities} {proto : SaslProtocol} {version : ApiVersion}
    {due : Moment} (hh : handshakeDeadlines effects = [due])
    (hf : round.get = (rounds effects).length + 1) (ha : Allowed authentication round) :
    Counted (effects ++ [.startAuthenticationExchange round version due])
      (.authenticating caps proto (.exchanging round due)) authentication := by
  have hm : rounds (effects ++ [.startAuthenticationExchange round version due]) =
      rounds effects ++ [round] := by simp [rounds, exchangeOf]
  have hs : handshakeDeadlines
      (effects ++ [.startAuthenticationExchange round version due]) = [due] := by
    rw [handshakeDeadlines_append, hh]
    rfl
  refine ⟨fun _ _ _ _ => ?_, ⟨hs, ?_⟩, ?_, ?_, ?_⟩
  · obtain ⟨pol, hg, -⟩ := ha
    exact ⟨pol, hg⟩
  · simp [hm]
  · rw [hm]
    exact numbered_concat cnt.numbered hf
  · intro r mem
    rw [hm] at mem
    rcases mem_append.1 mem with old | new
    · exact cnt.allowed r old
    · rwa [mem_singleton.1 new]
  · intro d mem
    rw [exchangeDeadlines_append] at mem
    rcases mem_append.1 mem with old | new
    · rw [hs, ← hh]
      exact cnt.sameDeadline d old
    · rw [hs]
      simp_all [exchangeDeadlines, exchangeOf]

theorem Counted.step (cnt : Counted effects m.state m.authentication)
    (step : Step m input next ans) :
    Counted (effects ++ ans.effects) next m.authentication := by
  have hs := cnt.staged
  cases step with
  | kept | rescheduled => exact cnt.silent rfl rfl cnt.required hs
  | negotiates hg =>
    rw [hg] at hs
    exact cnt.silent rfl rfl nofun hs
  | @handshakes prev caps a pol proto hg _ hr =>
    -- the first handshake : none was started before and no exchange can have been
    rw [hg] at hs
    obtain ⟨hno, hn⟩ := hs
    refine .unstarted (fun _ _ _ _ => ⟨pol, hr⟩) ?_ ⟨?_, ?_⟩
    · simp [hn, applied, exchangeOf]
    · rw [handshakeDeadlines_append, hno]
      rfl
    · simp [hn, applied, exchangeOf]
  | exchanges hg hf =>
    obtain ⟨pol, hr⟩ := cnt.required _ _ _ hg
    rw [hg] at hs
    rcases hf with ⟨due, rfl, -, rfl⟩ | ⟨prev, due, pol, rfl, -, hf, hg, room⟩
    · obtain ⟨hh, hn⟩ := hs
      refine cnt.exchange hh ?_ ⟨pol, hr, pol.limits.maxExchangeRounds.pos⟩
      simp [rounds, hn, AuthenticationRound.get, AuthenticationRound.first]
    · obtain ⟨hh, last⟩ := hs
      refine cnt.exchange hh ?_ ⟨pol, hg, room⟩
      rw [get_of_next hf, get_of_getLast? cnt.numbered last]
  | opens | drains | closed => exact cnt.silent rfl rfl nofun trivial
  | @closes _ cancels =>
    cases cancels <;> exact cnt.silent rfl rfl nofun trivial

end Steps

/-! ## Every run -/

section Runs

variable (limits : KafkaSessionLimits) (authentication : Option AuthenticationPolicy)

/-- The steps of a session on the inputs `inputs`. -/
def run (inputs : List KafkaSessionInput) : List SessionEvent :=
  trace apply (.initial limits authentication) inputs

/-- The session after the inputs `inputs`. -/
def after (inputs : List KafkaSessionInput) : KafkaSessionMachine :=
  final apply (.initial limits authentication) inputs

variable (inputs : List KafkaSessionInput)

theorem after_authentication :
    (after limits authentication inputs).authentication = authentication :=
  final_invariant _ (I := fun m : KafkaSessionMachine => m.authentication = authentication)
    (fun m i hs => by rw [m.apply_authentication, hs]) (by simp) inputs

/-- What a step keeps of the effects and the state holds after every run. -/
theorem effects_invariant {I : List KafkaSessionEffect → StateData → Prop}
    (start : I [] .awaitingTransport)
    (hk : ∀ effects (m : KafkaSessionMachine) input next ans,
      m.authentication = authentication → m.Step input next ans →
      I effects m.state → I (effects ++ ans.effects) next)
    (inputs : List KafkaSessionInput) :
    I (effectsOf (run limits authentication inputs)) (after limits authentication inputs).state :=
  run_induction apply (P := fun _ past m => I (effectsOf past) m.state)
    (by simpa [effectsOf] using start)
    (fun is i hg => by
      rw [effectsOf_concat]
      exact hk _ _ i _ _ (after_authentication limits authentication is) (apply_step _ i) hg) inputs

theorem opensOnce_run :
    OpensOnce (effectsOf (run limits authentication inputs))
      (after limits authentication inputs).state :=
  effects_invariant limits authentication (I := OpensOnce) ⟨by simp, by simp⟩
    (fun _ _ _ _ _ _ step hg => hg.step step) inputs

theorem closesOnce_run :
    ClosesOnce (effectsOf (run limits authentication inputs))
      (after limits authentication inputs).state :=
  effects_invariant limits authentication (I := ClosesOnce) ⟨by simp, List.Pairwise.nil⟩
    (fun _ _ _ _ _ _ step hg => hg.step step) inputs

theorem counted_run :
    Counted (effectsOf (run limits authentication inputs))
      (after limits authentication inputs).state authentication :=
  effects_invariant limits authentication (I := fun effs st => Counted effs st authentication)
    (.unstarted nofun rfl ⟨rfl, rfl⟩)
    (fun _ _ _ _ _ hs step hg => by
      subst hs
      exact hg.step step) inputs

theorem deadlineOf_run :
    deadlineOf (run limits authentication inputs) =
      (after limits authentication inputs).state.deadline :=
  run_induction apply (P := fun _ past m => deadlineOf past = m.state.deadline) (by simp; rfl)
    (fun is i hg => by
      rw [deadlineOf_concat, hg]
      exact deadlineAfter_step (apply_step _ i)) inputs

theorem hasDrained_run :
    (∃ e ∈ run limits authentication inputs, e.input = .beginDrain) →
      HasDrained (after limits authentication inputs).state = true :=
  run_induction apply
    (P := fun _ past m => (∃ e ∈ past, e.input = .beginDrain) → HasDrained m.state = true)
    (by simp)
    (fun is i hg => by
      rintro ⟨e, mem, ha⟩
      have hd : HasDrained (final apply
          (.initial limits authentication) is).state = true ∨ i = .beginDrain := by
        rcases mem_append.1 mem with old | new
        · exact .inl (hg ⟨e, old, ha⟩)
        · rw [mem_singleton.1 new] at ha
          exact .inr ha
      exact (hasDrained_of_step (apply_step _ i) hd).1) inputs

/-- Everything that makes a run of a session one pass through one gate. -/
structure OneShot (run : List SessionEvent) (state : StateData)
    (authentication : Option AuthenticationPolicy) : Prop where
  /-- The session becomes ready at most once. -/
  readyOnce : (effectsOf run).count .sessionReady ≤ 1
  /-- A session with a policy becomes ready by the success of the round started last. -/
  readyBySuccess : authentication.isSome → ∀ past e rest, run = past ++ e :: rest →
    .sessionReady ∈ e.answer.effects → ∃ round,
      e.input = .authenticationExchangeCompleted round .succeeded ∧
      (rounds (effectsOf past)).getLast? = some round
  /-- The rounds started are one, two, three and so on. -/
  numbered : (rounds (effectsOf run)).map AuthenticationRound.get =
    range' 1 (rounds (effectsOf run)).length
  /-- No round exceeds the policy's limit. -/
  allowed : ∀ round ∈ rounds (effectsOf run), Allowed authentication round
  /-- The deadline left set is the one the state owns, and none if it owns none. -/
  deadline : deadlineOf run = state.deadline
  /-- There is one handshake, and every exchange runs under its deadline. -/
  sameDeadline : ∀ d ∈ exchangeDeadlines (effectsOf run),
    handshakeDeadlines (effectsOf run) = [d]
  /-- There is one close, and nothing but the cancellation of the deadline follows it. -/
  isSealed : Sealed (effectsOf run)
  /-- From a drain on nothing is started and the session does not become ready. -/
  drained : ∀ past e rest, run = past ++ e :: rest →
    (∃ d ∈ past ++ [e], d.input = .beginDrain) →
    ∀ f ∈ e.answer.effects, IsStart f = false ∧ f ≠ .sessionReady

/-- Only the completion of the last thing a session waits for makes it ready. -/
theorem completes_of_sessionReady {m : KafkaSessionMachine} {i : KafkaSessionInput}
    {next : StateData} {ans : KafkaSessionTransition} (step : m.Step i next ans)
    (hr : .sessionReady ∈ ans.effects) :
    ∃ caps, m.Completes i caps := by
  cases step with
  | @opens caps completes => exact ⟨caps, completes⟩
  | @closes _ cancels => cases cancels <;> simp at hr
  | kept | rescheduled | negotiates | handshakes | exchanges | drains | closed =>
    simp [KafkaSessionTransition.applied] at hr

/-- Every run of a session, under any inputs, is one pass through one gate. -/
theorem one_shot :
    OneShot (run limits authentication inputs) (after limits authentication inputs).state
      authentication where
  readyOnce := (opensOnce_run limits authentication inputs).atMostOnce
  readyBySuccess := by
    intro hr past e rest split hre
    obtain ⟨before, input, rfl, rfl⟩ := of_trace_eq_append_cons _ split
    obtain ⟨caps, completes⟩ := completes_of_sessionReady (apply_step _ input) hre
    rcases completes with ⟨_, -, hu, -⟩ | ⟨_, round, due, state, ha⟩
    · have same := after_authentication limits authentication before
      rw [after, hu] at same
      simp [← same] at hr
    · have hs := (counted_run limits authentication before).staged
      rw [after, state] at hs
      exact ⟨round, ha, hs.2⟩
  numbered := (counted_run limits authentication inputs).numbered
  allowed := (counted_run limits authentication inputs).allowed
  deadline := deadlineOf_run limits authentication inputs
  sameDeadline := (counted_run limits authentication inputs).sameDeadline
  isSealed := (closesOnce_run limits authentication inputs).isSealed
  drained := by
    intro past e rest split
    obtain ⟨before, input, rfl, rfl⟩ := of_trace_eq_append_cons _ split
    rintro ⟨d, mem, ha⟩
    refine (hasDrained_of_step (apply_step _ input) ?_).2
    rcases mem_append.1 mem with old | new
    · exact .inl (hasDrained_run limits authentication before ⟨d, old, ha⟩)
    · rw [mem_singleton.1 new] at ha
      exact .inr ha

end Runs

end SessionGate

end KafkaDriver
