import KafkaDriver.Authentication
import KafkaDriver.Bootstrap
import KafkaDriver.Runs

/-!
# The broker machine

`BrokerMachine` is the policy of one broker across its connection generations. It opens the
initial epoch, and after a failure waits for a deadline or for fresh addresses before it
opens the next one.

A failure is recorded with its epoch in `backoff` and `refreshing`, and `failedEpoch` reads
it back. `MayFail` lists the epochs a state can still record : no input adds one, so what is
recorded after a failure of epoch `e` is `e` itself or a later epoch.
-/

namespace KafkaDriver

/-- The phases of a lane. -/
inductive BrokerPhase where
  | dormant
  | connecting
  | available
  | backoff
  | refreshing
  | draining
  | closed
  deriving DecidableEq

/-- Why a lane is closed. -/
inductive BrokerCloseReason where
  | requested
  | epochExhausted
  | retryExhausted
  | retryResourcesUnavailable
  | clockOverflow
  | authenticationFailed (failure : AuthenticationFailure)
  | endpointResolutionFailed (failure : DnsFailure)

/-- How far the addresses are asked for anew. -/
inductive AddressRefreshState where
  | pending (lastRetry : Option RetryOrdinal)
  | resolving (lastRetry : Option RetryOrdinal)
  | backoff (retry : RetryOrdinal) (timerId : TimerId) (deadline : Moment)

/-- A failed generation and when its successor may open. -/
structure RecoveryGeneration where
  failedEpoch : ConnectionEpoch
  nextEpoch : ConnectionEpoch
  retry : RetryOrdinal
  timerId : TimerId
  deadline : Moment
  succ : nextEpoch.raw = failedEpoch.raw + 1

/-- The state of a lane. -/
inductive BrokerState where
  | dormant (initialEpoch : ConnectionEpoch)
  | connecting (epoch : ConnectionEpoch) (retry : Option RetryOrdinal)
  | available (epoch : ConnectionEpoch)
  | backoff (recovery : RecoveryGeneration)
  | refreshing (recovery : RecoveryGeneration) (refresh : AddressRefreshState)
  | draining (epoch : ConnectionEpoch)
  | closed (reason : BrokerCloseReason)

/-- The phase of a state. -/
def BrokerState.phase : BrokerState → BrokerPhase
  | .dormant _ => .dormant
  | .connecting .. => .connecting
  | .available _ => .available
  | .backoff .. => .backoff
  | .refreshing .. => .refreshing
  | .draining _ => .draining
  | .closed _ => .closed

/-- Timer, time and jitter a retry is scheduled with. -/
structure ReconnectSchedule where
  timerId : TimerId
  now : Moment
  jitter : ℕ

/-- What the machine is told. -/
inductive BrokerInput where
  | start
  | connectionReady (epoch : ConnectionEpoch)
  | connectionFailed (epoch : ConnectionEpoch) (reconnect : ReconnectSchedule)
  | endpointExhausted (epoch : ConnectionEpoch) (reconnect : ReconnectSchedule)
  | endpointRefreshStarted (failedEpoch : ConnectionEpoch)
  | endpointRefreshDeferred (failedEpoch : ConnectionEpoch)
  | endpointRefreshFailed (failedEpoch : ConnectionEpoch) (failure : DnsFailure)
      (retry : Option ReconnectSchedule)
  | endpointRefreshRetryElapsed (failedEpoch : ConnectionEpoch) (timerId : TimerId) (now : Moment)
  | endpointRefreshed (failedEpoch : ConnectionEpoch) (now : Moment)
  | connectionRejected (epoch : ConnectionEpoch) (failure : AuthenticationFailure)
  | connectionDrained (epoch : ConnectionEpoch)
  | reconnectElapsed (failedEpoch : ConnectionEpoch) (timerId : TimerId) (now : Moment)
  | beginDrain

/-- What the machine asks for. -/
inductive BrokerEffect where
  | openConnection (epoch : ConnectionEpoch)
  | scheduleReconnect (failedEpoch : ConnectionEpoch) (timerId : TimerId) («at» : Moment)
  | scheduleEndpointRefreshRetry (failedEpoch : ConnectionEpoch) (timerId : TimerId)
      («at» : Moment)
  | cancelReconnect (timerId : TimerId)
  | cancelEndpointRefreshRetry (timerId : TimerId)
  | drainConnection (epoch : ConnectionEpoch)

/-- What became of an input. -/
inductive BrokerDisposition where
  | applied
  | ignored
  | ignoredStale

/-- The answer to an input. -/
structure BrokerTransition where
  effects : List BrokerEffect
  disposition : BrokerDisposition

namespace BrokerTransition

/-- Accepted. -/
def applied (effects : List BrokerEffect) : BrokerTransition := ⟨effects, .applied⟩

/-- Nothing to do. -/
def ignored : BrokerTransition := ⟨[], .ignored⟩

/-- No longer meant. -/
def stale : BrokerTransition := ⟨[], .ignoredStale⟩

end BrokerTransition

/-- The life of a broker's lane. -/
structure BrokerMachine where
  state : BrokerState
  backoff : BackoffPolicy

namespace BrokerMachine

open BrokerTransition

/-- A lane not started yet. -/
def new (initialEpoch : ConnectionEpoch) (backoff : BackoffPolicy) : BrokerMachine :=
  ⟨.dormant initialEpoch, backoff⟩

variable (m : BrokerMachine) (epoch : ConnectionEpoch) (reconnect : ReconnectSchedule)
  (failedEpoch : ConnectionEpoch) (timerId : TimerId) (now : Moment)

/-- Close for good. -/
def close (reason : BrokerCloseReason) : BrokerMachine × BrokerTransition :=
  ({ m with state := .closed reason }, applied [])

/-- Open the first epoch. -/
def start : BrokerMachine × BrokerTransition :=
  match m.state with
  | .dormant initialEpoch =>
    ({ m with state := .connecting initialEpoch none }, applied [.openConnection initialEpoch])
  | _ => (m, ignored)

/-- The epoch that connects is ready. -/
def connectionReady : BrokerMachine × BrokerTransition :=
  match m.state with
  | .connecting expected _ =>
    if epoch ≠ expected then (m, stale) else ({ m with state := .available epoch }, applied [])
  | _ => (m, stale)

/-- The broker refuses the credentials. -/
def connectionRejected (failure : AuthenticationFailure) : BrokerMachine × BrokerTransition :=
  match m.state with
  | .connecting expected _ =>
    if epoch ≠ expected then (m, stale) else m.close (.authenticationFailed failure)
  | _ => (m, stale)

/-! ### Failures -/

/-- The retry number a failure of `epoch` gets, absent if the epoch is not the live one; the
inner absence is an exhausted counter. -/
def failureRetry : Option (Option RetryOrdinal) :=
  match m.state with
  | .connecting expected retry =>
    if epoch = expected then some (retry.elim (some .first) RetryOrdinal.next) else none
  | .available expected => if epoch = expected then some (some .first) else none
  | _ => none

/-- What to do after an epoch failed. -/
def recoveryAfter : Except (BrokerMachine × BrokerTransition) RecoveryGeneration :=
  match m.failureRetry epoch with
  | none => .error (m, stale)
  | some none => .error (m.close .retryExhausted)
  | some (some retry) =>
    match next : checkedSucc epoch.raw with
    | none => .error (m.close .epochExhausted)
    | some nextEpoch =>
      match reconnect.now.checkedAdd (m.backoff.delay retry reconnect.jitter) with
      | none => .error (m.close .clockOverflow)
      | some deadline =>
        .ok ⟨epoch, ⟨nextEpoch⟩, retry, reconnect.timerId, deadline,
          (checkedSucc_eq_some.1 next).2⟩

/-- Wait before the next epoch. -/
def connectionFailed : BrokerMachine × BrokerTransition :=
  match m.recoveryAfter epoch reconnect with
  | .error transition => transition
  | .ok recovery =>
    ({ m with state := .backoff recovery },
      applied [.scheduleReconnect epoch recovery.timerId recovery.deadline])

/-- Ask for addresses before the next epoch. -/
def endpointExhausted : BrokerMachine × BrokerTransition :=
  match m.recoveryAfter epoch reconnect with
  | .error transition => transition
  | .ok recovery =>
    ({ m with state := .refreshing recovery (.pending none) }, applied [])

/-! ### Address refresh -/

/-- The addresses are being asked for. -/
def endpointRefreshStarted : BrokerMachine × BrokerTransition :=
  match m.state with
  | .refreshing recovery (.pending lastRetry) =>
    if failedEpoch ≠ recovery.failedEpoch then (m, stale)
    else ({ m with state := .refreshing recovery (.resolving lastRetry) }, applied [])
  | _ => (m, stale)

/-- They could not be asked for. -/
def endpointRefreshDeferred : BrokerMachine × BrokerTransition :=
  match m.state with
  | .refreshing recovery (.resolving lastRetry) =>
    if failedEpoch ≠ recovery.failedEpoch then (m, stale)
    else ({ m with state := .refreshing recovery (.pending lastRetry) }, applied [])
  | _ => (m, stale)

/-- They were not found : wait to ask again. -/
def endpointRefreshFailed (failure : DnsFailure) (schedule : Option ReconnectSchedule) :
    BrokerMachine × BrokerTransition :=
  match m.state with
  | .refreshing recovery (.resolving lastRetry) =>
    if failedEpoch ≠ recovery.failedEpoch then (m, stale)
    else if failure = .noUsableAddress then m.close (.endpointResolutionFailed failure)
    else
      match schedule with
      | none => m.close .retryResourcesUnavailable
      | some schedule =>
        match lastRetry.elim (some .first) RetryOrdinal.next with
        | none => m.close .retryExhausted
        | some retry =>
          match schedule.now.checkedAdd (m.backoff.delay retry schedule.jitter) with
          | none => m.close .clockOverflow
          | some deadline =>
            ({ m with
                state := .refreshing recovery
                  (.backoff retry schedule.timerId deadline) },
              applied [.scheduleEndpointRefreshRetry failedEpoch schedule.timerId deadline])
  | _ => (m, stale)

/-- Ask again once it is time. -/
def endpointRefreshRetryElapsed : BrokerMachine × BrokerTransition :=
  match m.state with
  | .refreshing recovery (.backoff retry expectedTimer deadline) =>
    if failedEpoch ≠ recovery.failedEpoch ∨ timerId ≠ expectedTimer then (m, stale)
    else if now < deadline then
      (m, applied [.scheduleEndpointRefreshRetry failedEpoch timerId deadline])
    else
      ({ m with state := .refreshing recovery (.pending (some retry)) }, applied [])
  | _ => (m, stale)

/-- With new addresses, wait or connect. -/
def endpointRefreshed : BrokerMachine × BrokerTransition :=
  match m.state with
  | .refreshing recovery (.resolving _) =>
    if failedEpoch ≠ recovery.failedEpoch then (m, stale)
    else if now < recovery.deadline then
      ({ m with state := .backoff recovery },
        applied [.scheduleReconnect failedEpoch recovery.timerId recovery.deadline])
    else
      ({ m with state := .connecting recovery.nextEpoch (some recovery.retry) },
        applied [.openConnection recovery.nextEpoch])
  | _ => (m, stale)

/-! ### Reconnect and drain -/

/-- Connect once it is time. -/
def reconnectElapsed : BrokerMachine × BrokerTransition :=
  match m.state with
  | .backoff recovery =>
    if failedEpoch ≠ recovery.failedEpoch ∨ timerId ≠ recovery.timerId then (m, stale)
    else if now < recovery.deadline then
      (m, applied [.scheduleReconnect failedEpoch timerId recovery.deadline])
    else
      ({ m with state := .connecting recovery.nextEpoch (some recovery.retry) },
        applied [.openConnection recovery.nextEpoch])
  | _ => (m, stale)

/-- Drain an open epoch, or close at once. -/
def beginDrain : BrokerMachine × BrokerTransition :=
  match m.state with
  | .dormant _ => m.close .requested
  | .connecting epoch _ | .available epoch =>
    ({ m with state := .draining epoch }, applied [.drainConnection epoch])
  | .backoff recovery =>
    ({ m with state := .closed .requested }, applied [.cancelReconnect recovery.timerId])
  | .refreshing _ (.backoff _ timerId _) =>
    ({ m with state := .closed .requested }, applied [.cancelEndpointRefreshRetry timerId])
  | .refreshing .. => ({ m with state := .closed .requested }, applied [])
  | .draining _ | .closed _ => (m, ignored)

/-- Close after the drain. -/
def connectionDrained : BrokerMachine × BrokerTransition :=
  match m.state with
  | .draining expected => if epoch ≠ expected then (m, stale) else m.close .requested
  | _ => (m, stale)

/-- Handle one input. -/
def apply : BrokerInput → BrokerMachine × BrokerTransition
  | .start => m.start
  | .connectionReady epoch => m.connectionReady epoch
  | .connectionFailed epoch reconnect => m.connectionFailed epoch reconnect
  | .endpointExhausted epoch reconnect => m.endpointExhausted epoch reconnect
  | .endpointRefreshStarted failedEpoch => m.endpointRefreshStarted failedEpoch
  | .endpointRefreshDeferred failedEpoch => m.endpointRefreshDeferred failedEpoch
  | .endpointRefreshFailed failedEpoch failure retry =>
    m.endpointRefreshFailed failedEpoch failure retry
  | .endpointRefreshRetryElapsed failedEpoch timerId now =>
    m.endpointRefreshRetryElapsed failedEpoch timerId now
  | .endpointRefreshed failedEpoch now => m.endpointRefreshed failedEpoch now
  | .connectionRejected epoch failure => m.connectionRejected epoch failure
  | .connectionDrained epoch => m.connectionDrained epoch
  | .reconnectElapsed failedEpoch timerId now => m.reconnectElapsed failedEpoch timerId now
  | .beginDrain => m.beginDrain

/-- The machine after a list of inputs. -/
def applyAll (inputs : List BrokerInput) : BrokerMachine :=
  inputs.foldl (fun m input => (m.apply input).1) m

end BrokerMachine

/-! ## What one input can do -/

/-- The changes of state one input can make. -/
inductive BrokerStep : BrokerState → BrokerState → Prop
  | same {s} : BrokerStep s s
  | opened {epoch} : BrokerStep (.dormant epoch) (.connecting epoch none)
  | ready {epoch retry} : BrokerStep (.connecting epoch retry) (.available epoch)
  | lostConnecting {recovery retry} :
    BrokerStep (.connecting recovery.failedEpoch retry) (.backoff recovery)
  | lostAvailable {recovery} : BrokerStep (.available recovery.failedEpoch) (.backoff recovery)
  | spentConnecting {recovery retry} :
    BrokerStep (.connecting recovery.failedEpoch retry) (.refreshing recovery (.pending none))
  | spentAvailable {recovery} :
    BrokerStep (.available recovery.failedEpoch) (.refreshing recovery (.pending none))
  | refresh {recovery refresh refresh'} :
    BrokerStep (.refreshing recovery refresh) (.refreshing recovery refresh')
  | refreshed {recovery refresh} : BrokerStep (.refreshing recovery refresh) (.backoff recovery)
  | reopenedRefreshed {recovery refresh} :
    BrokerStep (.refreshing recovery refresh)
      (.connecting recovery.nextEpoch (some recovery.retry))
  | reopened {recovery} :
    BrokerStep (.backoff recovery) (.connecting recovery.nextEpoch (some recovery.retry))
  | drainConnecting {epoch retry} : BrokerStep (.connecting epoch retry) (.draining epoch)
  | drainAvailable {epoch} : BrokerStep (.available epoch) (.draining epoch)
  | closed {s reason} : BrokerStep s (.closed reason)

namespace BrokerMachine

variable (m : BrokerMachine)

theorem start_step : BrokerStep m.state m.start.1.state := by
  unfold start
  split
  · rename_i hl
    rw [hl]
    exact .opened
  · exact .same

theorem connectionReady_step (e : ConnectionEpoch) :
    BrokerStep m.state (m.connectionReady e).1.state := by
  unfold connectionReady
  split
  · rename_i hl
    split_ifs with ne
    · exact .same
    · obtain rfl := not_not.1 ne
      rw [hl]
      exact .ready
  · exact .same

theorem connectionRejected_step (e : ConnectionEpoch) (err : AuthenticationFailure) :
    BrokerStep m.state (m.connectionRejected e err).1.state := by
  unfold connectionRejected
  split
  · split_ifs
    · exact .same
    · exact .closed
  · exact .same

variable {epoch : ConnectionEpoch} {reconnect : ReconnectSchedule}

/-- A recovery is granted to the live epoch only. -/
theorem recoveryAfter_ok {recovery : RecoveryGeneration}
    (hg : m.recoveryAfter epoch reconnect = .ok recovery) :
    (∃ retry, m.state = .connecting recovery.failedEpoch retry) ∨
      m.state = .available recovery.failedEpoch := by
  unfold recoveryAfter at hg
  split at hg
  · cases hg
  · cases hg
  rename_i retry hl
  split at hg
  · cases hg
  split at hg
  · cases hg
  cases hg
  unfold failureRetry at hl
  split at hl
  · split_ifs at hl with hs
    subst hs
    exact Or.inl ⟨_, ‹_›⟩
  · split_ifs at hl with hs
    subst hs
    exact Or.inr ‹_›
  · cases hl

/-- Without a recovery the machine stays as it is or closes. -/
theorem recoveryAfter_error {tr : BrokerMachine × BrokerTransition}
    (hr : m.recoveryAfter epoch reconnect = .error tr) :
    BrokerStep m.state tr.1.state := by
  unfold recoveryAfter at hr
  split at hr
  · cases hr
    exact .same
  · cases hr
    exact .closed
  split at hr
  · cases hr
    exact .closed
  · split at hr
    · cases hr
      exact .closed
    · cases hr

variable (epoch) (failedEpoch : ConnectionEpoch)

theorem connectionFailed_step (reconnect : ReconnectSchedule) :
    BrokerStep m.state (m.connectionFailed epoch reconnect).1.state := by
  unfold connectionFailed
  split
  · exact m.recoveryAfter_error ‹_›
  rcases m.recoveryAfter_ok ‹_› with ⟨retry, hl⟩ | hl
  · rw [hl]
    exact .lostConnecting
  · rw [hl]
    exact .lostAvailable

theorem endpointExhausted_step (reconnect : ReconnectSchedule) :
    BrokerStep m.state (m.endpointExhausted epoch reconnect).1.state := by
  unfold endpointExhausted
  split
  · exact m.recoveryAfter_error ‹_›
  rcases m.recoveryAfter_ok ‹_› with ⟨retry, hl⟩ | hl
  · rw [hl]
    exact .spentConnecting
  · rw [hl]
    exact .spentAvailable

theorem endpointRefreshStarted_step :
    BrokerStep m.state (m.endpointRefreshStarted failedEpoch).1.state := by
  unfold endpointRefreshStarted
  split
  · rename_i hl
    split_ifs
    · exact .same
    · rw [hl]
      exact .refresh
  · exact .same

theorem endpointRefreshDeferred_step :
    BrokerStep m.state (m.endpointRefreshDeferred failedEpoch).1.state := by
  unfold endpointRefreshDeferred
  split
  · rename_i hl
    split_ifs
    · exact .same
    · rw [hl]
      exact .refresh
  · exact .same

theorem endpointRefreshFailed_step (err : DnsFailure) (retry : Option ReconnectSchedule) :
    BrokerStep m.state (m.endpointRefreshFailed failedEpoch err retry).1.state := by
  unfold endpointRefreshFailed
  split
  · rename_i hl
    split_ifs
    · exact .same
    · exact .closed
    split
    · exact .closed
    split
    · exact .closed
    · split
      · exact .closed
      · rw [hl]
        exact .refresh
  · exact .same

theorem endpointRefreshRetryElapsed_step (timerId : TimerId) (now : Moment) :
    BrokerStep m.state (m.endpointRefreshRetryElapsed failedEpoch timerId now).1.state := by
  unfold endpointRefreshRetryElapsed
  split
  · rename_i hl
    split_ifs
    · exact .same
    · exact .same
    · rw [hl]
      exact .refresh
  · exact .same

theorem endpointRefreshed_step (now : Moment) :
    BrokerStep m.state (m.endpointRefreshed failedEpoch now).1.state := by
  unfold endpointRefreshed
  split
  · rename_i hl
    split_ifs
    · exact .same
    · rw [hl]
      exact .refreshed
    · rw [hl]
      exact .reopenedRefreshed
  · exact .same

theorem reconnectElapsed_step (timerId : TimerId) (now : Moment) :
    BrokerStep m.state (m.reconnectElapsed failedEpoch timerId now).1.state := by
  unfold reconnectElapsed
  split
  · rename_i hl
    split_ifs
    · exact .same
    · exact .same
    · rw [hl]
      exact .reopened
  · exact .same

theorem beginDrain_step : BrokerStep m.state m.beginDrain.1.state := by
  unfold beginDrain
  split
  · exact .closed
  · rename_i hl
    rw [hl]
    exact .drainConnecting
  · rename_i hl
    rw [hl]
    exact .drainAvailable
  · exact .closed
  · exact .closed
  · exact .closed
  · exact .same
  · exact .same

theorem connectionDrained_step : BrokerStep m.state (m.connectionDrained epoch).1.state := by
  unfold connectionDrained
  split
  · split_ifs
    · exact .same
    · exact .closed
  · exact .same

theorem apply_step (i : BrokerInput) : BrokerStep m.state (m.apply i).1.state := by
  cases i with
  | start => exact m.start_step
  | connectionReady e => exact m.connectionReady_step e
  | connectionFailed e reconnect => exact m.connectionFailed_step e reconnect
  | endpointExhausted e reconnect => exact m.endpointExhausted_step e reconnect
  | endpointRefreshStarted failedEpoch => exact m.endpointRefreshStarted_step failedEpoch
  | endpointRefreshDeferred failedEpoch => exact m.endpointRefreshDeferred_step failedEpoch
  | endpointRefreshFailed failedEpoch err retry =>
    exact m.endpointRefreshFailed_step failedEpoch err retry
  | endpointRefreshRetryElapsed failedEpoch timerId now =>
    exact m.endpointRefreshRetryElapsed_step failedEpoch timerId now
  | endpointRefreshed failedEpoch now => exact m.endpointRefreshed_step failedEpoch now
  | connectionRejected e err => exact m.connectionRejected_step e err
  | connectionDrained e => exact m.connectionDrained_step e
  | reconnectElapsed failedEpoch timerId now =>
    exact m.reconnectElapsed_step failedEpoch timerId now
  | beginDrain => exact m.beginDrain_step

end BrokerMachine

/-! ## Which epochs can still fail -/

namespace BrokerState

/-- The epoch whose failure the state records. -/
def failedEpoch : BrokerState → Option ConnectionEpoch
  | .backoff recovery | .refreshing recovery _ => some recovery.failedEpoch
  | _ => none

/-- The state records the failure of `epoch`, or can come to. -/
def MayFail (epoch : ConnectionEpoch) : BrokerState → Prop
  | .dormant live | .connecting live _ | .available live => live ≤ epoch
  | .backoff recovery | .refreshing recovery _ => recovery.failedEpoch ≤ epoch
  | .draining _ | .closed _ => False

variable {epoch : ConnectionEpoch}

theorem mayFail_of_failedEpoch {s : BrokerState} (hf : s.failedEpoch = some epoch) :
    s.MayFail epoch := by
  cases s <;> simp_all [failedEpoch, MayFail]

theorem le_of_mayFail {s : BrokerState} {lost : ConnectionEpoch}
    (hf : s.failedEpoch = some epoch) (may : s.MayFail lost) : epoch ≤ lost := by
  cases s <;> simp_all [failedEpoch, MayFail]

end BrokerState

theorem RecoveryGeneration.failedEpoch_le (recovery : RecoveryGeneration) :
    recovery.failedEpoch ≤ recovery.nextEpoch := by
  have := recovery.succ
  exact le_of_lt (ConnectionEpoch.lt_def.2 (by omega))

variable {epoch : ConnectionEpoch}

/-- No input adds to the epochs that can still fail. -/
theorem BrokerStep.mayFail {s s' : BrokerState} (step : BrokerStep s s') (may : s'.MayFail epoch) :
    s.MayFail epoch := by
  cases step with
  | closed | drainConnecting | drainAvailable => exact may.elim
  | reopened | reopenedRefreshed => exact (RecoveryGeneration.failedEpoch_le _).trans may
  | _ => exact may

theorem BrokerMachine.mayFail_of_applyAll {m : BrokerMachine} {is : List BrokerInput}
    (may : (m.applyAll is).state.MayFail epoch) : m.state.MayFail epoch := by
  induction is generalizing m with
  | nil => exact may
  | cons i rest ih => exact (m.apply_step i).mayFail (ih may)

/-! ## Which epochs open -/

/-- The epoch that opens next, absent while draining and when closed. -/
def BrokerState.upcoming : BrokerState → Option ℕ
  | .dormant epoch => some epoch.raw
  | .connecting epoch _ | .available epoch => some (epoch.raw + 1)
  | .backoff recovery | .refreshing recovery _ => some recovery.nextEpoch.raw
  | .draining _ | .closed _ => none

/-- The epoch an effect opens. -/
def BrokerEffect.opens : BrokerEffect → Option ℕ
  | .openConnection epoch => some epoch.raw
  | _ => none

namespace BrokerMachine

open Runs List BrokerTransition BrokerState BrokerEffect

/-- Nothing opens, and what would open next stays so or is given up, or it opens now. -/
def Opens (m : BrokerMachine) (answer : BrokerMachine × BrokerTransition) : Prop :=
  (answer.2.effects.filterMap opens = [] ∧
    ∀ e ∈ answer.1.state.upcoming, e ∈ m.state.upcoming) ∨
  ∃ e, answer.2.effects.filterMap opens = [e] ∧ m.state.upcoming = some e ∧
    answer.1.state.upcoming = some (e + 1)

variable {m : BrokerMachine}

theorem opens_of_error {reconnect : ReconnectSchedule} {answer : BrokerMachine × BrokerTransition}
    (hr : m.recoveryAfter epoch reconnect = .error answer) : Opens m answer := by
  unfold recoveryAfter at hr
  repeat' split at hr
  all_goals cases hr
  all_goals simp [Opens, close, applied, stale, upcoming]

theorem apply_opens (m : BrokerMachine) (i : BrokerInput) : Opens m (m.apply i) := by
  cases i with
  | connectionFailed e reconnect | endpointExhausted e reconnect =>
    simp only [apply, connectionFailed, endpointExhausted]
    split
    · exact opens_of_error ‹_›
    · rename_i r hr
      refine .inl ⟨rfl, ?_⟩
      rcases m.recoveryAfter_ok hr with ⟨_, hm⟩ | hm <;> simp [hm, upcoming, r.succ]
  | _ =>
    -- the other handlers read it off the state
    simp only [apply, start, connectionReady, endpointRefreshStarted, endpointRefreshDeferred,
      endpointRefreshFailed, endpointRefreshRetryElapsed, endpointRefreshed, connectionRejected,
      connectionDrained, reconnectElapsed, beginDrain, close]
    repeat' split
    all_goals simp_all [Opens, applied, stale, ignored, upcoming, opens]

/-- The epochs opened in a run are the initial one and those after it, each once, and the state
goes on with the one after the last. -/
theorem epochs_consecutive (initial : ConnectionEpoch) (backoff : BackoffPolicy)
    (inputs : List BrokerInput) :
    ∃ n, (trace apply (new initial backoff) inputs).flatMap
        (·.answer.effects.filterMap opens) = range' initial.raw n ∧
      ∀ e ∈ (final apply (new initial backoff) inputs).state.upcoming, e = initial.raw + n := by
  refine run_induction apply (P := fun _ past m => ∃ n,
    past.flatMap (·.answer.effects.filterMap opens) = range' initial.raw n ∧
      ∀ e ∈ m.state.upcoming, e = initial.raw + n)
    ⟨0, rfl, by simp [new, upcoming]⟩ (fun is i ⟨n, run, next⟩ => ?_) inputs
  rcases apply_opens (final apply (new initial backoff) is) i with ⟨hn, kept⟩ | ⟨e, one, had, has⟩
  · exact ⟨n, by simp [run, event, hn], fun e mem => next e (kept e mem)⟩
  have last := next e had
  refine ⟨n + 1, ?_, ?_⟩
  · rw [flatMap_append, run, range'_1_concat, ← last]
    simp [event, one]
  · rw [has, ← Nat.add_assoc, ← last]
    simp

end BrokerMachine

end KafkaDriver
