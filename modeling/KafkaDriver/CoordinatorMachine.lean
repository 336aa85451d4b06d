import KafkaDriver.MetadataSnapshot
import KafkaDriver.Runs

/-!
# The coordinator machine

`CoordinatorMachine` finds the broker that coordinates one key. At most one discovery is
active : in flight (`discovering`) or waiting out a rejection (`retrying`). A demand the active
discovery must not meet is noted as its follow-up, of which there is one slot, and starts the
next discovery when the active one ends.

A route observed to fail is invalidated : the machine withdraws it and remembers the
observation as its revocation. A discovery that began no later than the observation is then
followed by another, whatever it found.

What an input can do is said once, by `Step`, and every step keeps the invariants.
-/

namespace KafkaDriver

open Option

/-! ## Keys, epochs and routes -/

/-- What is coordinated. -/
inductive CoordinatorKind where
  | group
  | transaction
  | share
  deriving DecidableEq

/-- A nonempty key of at most `i16::MAX` bytes. -/
@[ext]
structure CoordinatorKey where
  kind : CoordinatorKind
  value : String
  nonempty : value ≠ ""
  short : value.utf8ByteSize ≤ 32767

instance : DecidableEq CoordinatorKey := fun _ _ => decidable_of_iff _ CoordinatorKey.ext_iff.symm

/-- Discovery generation of one key. -/
structure CoordinatorEpoch where
  raw : ℕ
  deriving DecidableEq

/-- The next epoch, absent once the epochs are exhausted. -/
def CoordinatorEpoch.next (epoch : CoordinatorEpoch) : Option CoordinatorEpoch :=
  (checkedSucc epoch.raw).map CoordinatorEpoch.mk

/-- A discovered coordinator. -/
structure CoordinatorRoute where
  key : CoordinatorKey
  brokerId : BrokerId
  endpoint : BrokerEndpoint
  epoch : CoordinatorEpoch
  evidence : EvidenceStamp
  deriving DecidableEq

/-- The same broker for the same key. -/
def CoordinatorRoute.isSameTarget (a b : CoordinatorRoute) : Bool :=
  a.key = b.key ∧ a.brokerId = b.brokerId ∧ a.endpoint = b.endpoint

/-- A withdrawn route and the latest observation of its failure. -/
structure CoordinatorRevocation where
  target : CoordinatorRoute
  requiredAfter : OutcomeStamp

namespace CoordinatorRevocation

variable (r : CoordinatorRevocation) (route : CoordinatorRoute)

/-- Whether the route is the one withdrawn. -/
def matchesRoute : Bool :=
  r.target.isSameTarget route

/-- Raise the watermark, unless the observation is no later. -/
def observe (observedAt : OutcomeStamp) : CoordinatorRevocation × Bool :=
  if observedAt ≤ r.requiredAfter then (r, false)
  else ({ r with requiredAfter := max r.requiredAfter observedAt }, true)

/-- Whether the route is newer than every report. -/
def accepts : Bool :=
  route.evidence.isAfter r.requiredAfter

end CoordinatorRevocation

/-! ## Inputs, effects and states -/

/-- What a machine is told. -/
inductive CoordinatorInput where
  | resolve (operationId : OperationId)
  | refresh (operationId : OperationId)
  | invalidate (route : CoordinatorRoute) (observedAt : OutcomeStamp) (operationId : OperationId)
  | withdraw (route : CoordinatorRoute) (operationId : OperationId)
  | discoverySucceeded (operationId : OperationId) (epoch : CoordinatorEpoch)
      (brokerId : BrokerId) (endpoint : BrokerEndpoint) (evidence : EvidenceStamp)
      (followupOperationId : OperationId)
  | discoveryFailed (operationId : OperationId) (epoch : CoordinatorEpoch)
      (followupOperationId : OperationId)
  | discoveryRejected (operationId : OperationId) (epoch : CoordinatorEpoch) (now : Moment)
      (followupOperationId : OperationId)
  | retryElapsed (operationId : OperationId) (epoch : CoordinatorEpoch) (now : Moment)
      (retryOperationId : OperationId)

/-- What a machine asks for. -/
inductive CoordinatorEffect where
  | find (operationId : OperationId) (key : CoordinatorKey) (epoch : CoordinatorEpoch)
  | waitUntil (operationId : OperationId) (epoch : CoordinatorEpoch) (due : Moment)
  | epochExhausted
  deriving DecidableEq

/-- How an input was taken. -/
inductive CoordinatorDisposition where
  | applied
  | alreadyKnown
  | coalesced
  | refreshQueued
  | ignoredStale
  deriving DecidableEq

/-- The answer to one input. -/
structure CoordinatorTransition where
  effects : List CoordinatorEffect
  disposition : CoordinatorDisposition

namespace CoordinatorTransition

/-- Send a discovery. -/
def find (operationId : OperationId) (key : CoordinatorKey) (epoch : CoordinatorEpoch) :
    CoordinatorTransition :=
  ⟨[.find operationId key epoch], .applied⟩

/-- Taken without effect. -/
def applied : CoordinatorTransition := ⟨[], .applied⟩

/-- The route is known. -/
def known : CoordinatorTransition := ⟨[], .alreadyKnown⟩

/-- Covered by the active discovery. -/
def coalesced : CoordinatorTransition := ⟨[], .coalesced⟩

/-- A follow-up is queued. -/
def queued : CoordinatorTransition := ⟨[], .refreshQueued⟩

/-- Too late to matter. -/
def stale : CoordinatorTransition := ⟨[], .ignoredStale⟩

/-- No epoch is left. -/
def exhausted : CoordinatorTransition := ⟨[.epochExhausted], .applied⟩

/-- Wait before the next attempt. -/
def wait (operationId : OperationId) (epoch : CoordinatorEpoch) (due : Moment) :
    CoordinatorTransition :=
  ⟨[.waitUntil operationId epoch due], .applied⟩

end CoordinatorTransition

/-- Why an active discovery is followed by another. -/
inductive CoordinatorFollowup where
  | refresh
  | revocation
  deriving DecidableEq

/-- What an active discovery owns, in flight or between retries. -/
structure CoordinatorDiscovery where
  current : Option CoordinatorRoute
  operationId : OperationId
  targetEpoch : CoordinatorEpoch
  followup : Option CoordinatorFollowup
  retries : ℕ

/-- Idle, discovering, waiting to retry, or settled. -/
inductive CoordinatorState where
  | unknown (nextEpoch : CoordinatorEpoch)
  | discovering (discovery : CoordinatorDiscovery)
  | retrying (discovery : CoordinatorDiscovery) (due : Moment)
  | ready (route : CoordinatorRoute)

namespace CoordinatorState

/-- The active discovery. -/
def discovery : CoordinatorState → Option CoordinatorDiscovery
  | .discovering d => some d
  | .retrying d _ => some d
  | _ => none

/-- The last route, also during rediscovery. -/
def current : CoordinatorState → Option CoordinatorRoute
  | .unknown _ => none
  | .discovering d | .retrying d _ => d.current
  | .ready route => some route

/-- The same state with another active discovery. -/
def setDiscovery (s : CoordinatorState) (d : CoordinatorDiscovery) : CoordinatorState :=
  match s with
  | .discovering _ => .discovering d
  | .retrying _ due => .retrying d due
  | s => s

end CoordinatorState

/-! ## The machine -/

/-- The coordinator of one key. -/
structure CoordinatorMachine where
  key : CoordinatorKey
  state : CoordinatorState
  revocation : Option CoordinatorRevocation

/-- 100 milliseconds. -/
def discoveryRetryBackoff : ℕ := 100000000

/-- Retries of one discovery. -/
def maxDiscoveryRetries : ℕ := 8

variable (m : CoordinatorMachine) (route : CoordinatorRoute) (operationId : OperationId)
  (key : CoordinatorKey) (epoch : CoordinatorEpoch)

namespace CoordinatorMachine

/-- A machine that knows no route. -/
def withInitialEpoch : CoordinatorMachine :=
  ⟨key, .unknown epoch, none⟩

/-- Epochs count from one. -/
def new : CoordinatorMachine := withInitialEpoch key ⟨1⟩

/-- The route to use. -/
def current (m : CoordinatorMachine) : Option CoordinatorRoute := m.state.current

/-- Whether the route is withdrawn. -/
def revocationPending : Bool :=
  m.revocation.any fun revocation => revocation.matchesRoute route

/-- Begin a discovery. -/
def start (m : CoordinatorMachine) (current : Option CoordinatorRoute) (operationId : OperationId)
    (targetEpoch : CoordinatorEpoch) : CoordinatorMachine × CoordinatorTransition :=
  ({ m with state := .discovering ⟨current, operationId, targetEpoch, none, 0⟩ },
    .find operationId m.key targetEpoch)

/-- Withdraw the route an active discovery keeps, and let another follow. -/
def queueRevocation (d : CoordinatorDiscovery) : CoordinatorMachine × CoordinatorTransition :=
  ({ m with
      state := m.state.setDiscovery { d with current := none, followup := some .revocation } },
    if d.followup = some .revocation then .coalesced else .queued)

/-- Ask, unless a route is known. -/
def resolve : CoordinatorMachine × CoordinatorTransition :=
  match m.state with
  | .unknown nextEpoch => m.start none operationId nextEpoch
  | .discovering _ | .retrying _ _ => (m, .coalesced)
  | .ready _ => (m, .known)

/-- Ask for a newer route. -/
def refresh (m : CoordinatorMachine) (operationId : OperationId) :
    CoordinatorMachine × CoordinatorTransition :=
  match m.state with
  | .discovering d | .retrying d _ =>
    if d.followup.isSome then (m, .coalesced)
    else ({ m with state := m.state.setDiscovery { d with followup := some .refresh } }, .queued)
  | .unknown nextEpoch => m.start none operationId nextEpoch
  | .ready route =>
    match route.epoch.next with
    | none => (m, .exhausted)
    | some epoch => m.start (some route) operationId epoch

/-- Raise the watermark of a route withdrawn already, or withdraw a current route not
rediscovered since. -/
def invalidate (m : CoordinatorMachine) (route : CoordinatorRoute) (observedAt : OutcomeStamp)
    (operationId : OperationId) : CoordinatorMachine × CoordinatorTransition :=
  match m.revocation.filter fun revocation => revocation.matchesRoute route with
  | some revocation =>
    match revocation.observe observedAt with
    | (revocation, false) => ({ m with revocation := some revocation }, .coalesced)
    | (revocation, true) => { m with revocation := some revocation }.refresh operationId
  | none =>
    match m.state with
    | .unknown _ => (m, .stale)
    | .ready current =>
      if !current.isSameTarget route || current.evidence.isAfter observedAt then (m, .stale)
      else
        match current.epoch.next with
        | none => (m, .exhausted)
        | some epoch =>
          { m with revocation := some ⟨route, observedAt⟩ }.start none operationId epoch
    | .discovering d | .retrying d _ =>
      if d.current.all fun current =>
          !current.isSameTarget route || current.evidence.isAfter observedAt then
        (m, .stale)
      else { m with revocation := some ⟨route, observedAt⟩ }.queueRevocation d

/-- Withdraw a current route whose broker is gone, without an observed failure. -/
def withdraw : CoordinatorMachine × CoordinatorTransition :=
  match m.state with
  | .unknown _ => (m, .stale)
  | .ready current =>
    if current ≠ route then (m, .stale)
    else
      match current.epoch.next with
      | none => (m, .exhausted)
      | some epoch => m.start none operationId epoch
  | .discovering d | .retrying d _ =>
    if d.current ≠ some route then (m, .stale) else m.queueRevocation d

/-- Install a route, or go on with the follow-up. -/
def install (m : CoordinatorMachine) (d : CoordinatorDiscovery) (route : CoordinatorRoute)
    (followupOperationId : OperationId) : CoordinatorMachine × CoordinatorTransition :=
  match d.followup with
  | none => ({ m with state := .ready route }, .applied)
  | some reason =>
    match d.targetEpoch.next with
    | none =>
      ({ m with
          state :=
            match reason with
            | .refresh => .ready route
            | .revocation => .unknown d.targetEpoch },
        .exhausted)
    | some nextEpoch =>
      m.start
        (match reason with
          | .refresh => some route
          | .revocation => none)
        followupOperationId nextEpoch

/-- The discovery found a broker. -/
def succeed (brokerId : BrokerId) (endpoint : BrokerEndpoint) (evidence : EvidenceStamp)
    (followupOperationId : OperationId) : CoordinatorMachine × CoordinatorTransition :=
  match m.state with
  | .discovering d =>
    if operationId ≠ d.operationId ∨ epoch ≠ d.targetEpoch then (m, .stale)
    else
      let route : CoordinatorRoute := ⟨m.key, brokerId, endpoint, d.targetEpoch, evidence⟩
      match m.revocation with
      | none => m.install d route followupOperationId
      | some revocation =>
        if revocation.accepts route then
          if d.followup = some .revocation then
            ({ m with state := .ready route, revocation := none }, .applied)
          else { m with revocation := none }.install d route followupOperationId
        else
          match d.targetEpoch.next with
          | none => ({ m with state := .unknown d.targetEpoch, revocation := none }, .exhausted)
          | some nextEpoch => m.start none followupOperationId nextEpoch
  | _ => (m, .stale)

/-- The discovery failed. -/
def fail (followupOperationId : OperationId) : CoordinatorMachine × CoordinatorTransition :=
  match m.state with
  | .discovering d | .retrying d _ =>
    if operationId ≠ d.operationId ∨ epoch ≠ d.targetEpoch then (m, .stale)
    else
      match d.followup with
      | some reason =>
        m.start
          (match reason with
            | .refresh => d.current
            | .revocation => none)
          followupOperationId d.targetEpoch
      | none =>
        if m.revocation.isSome then
          ({ m with state := .unknown d.targetEpoch, revocation := none }, .applied)
        else
          ({ m with
              state :=
                match d.current with
                | some route => .ready route
                | none => .unknown d.targetEpoch },
            .applied)
  | _ => (m, .stale)

/-- The broker turned the discovery away. -/
def reject (now : Moment) (followupOperationId : OperationId) :
    CoordinatorMachine × CoordinatorTransition :=
  match m.state with
  | .discovering d =>
    if operationId ≠ d.operationId ∨ epoch ≠ d.targetEpoch then (m, .stale)
    else if maxDiscoveryRetries < d.retries + 1 then m.fail operationId epoch followupOperationId
    else
      match now.checkedAdd discoveryRetryBackoff with
      | none => m.fail operationId epoch followupOperationId
      | some due =>
        ({ m with state := .retrying { d with retries := d.retries + 1 } due },
          .wait operationId epoch due)
  | _ => (m, .stale)

/-- The retry delay is over. -/
def retryElapsed (now : Moment) (retryOperationId : OperationId) :
    CoordinatorMachine × CoordinatorTransition :=
  match m.state with
  | .retrying d due =>
    if operationId ≠ d.operationId ∨ epoch ≠ d.targetEpoch then (m, .stale)
    else if now < due then (m, .wait operationId epoch due)
    else
      ({ m with state := .discovering { d with operationId := retryOperationId } },
        .find retryOperationId m.key d.targetEpoch)
  | _ => (m, .stale)

/-- Handle one input. -/
def apply (m : CoordinatorMachine) : CoordinatorInput → CoordinatorMachine × CoordinatorTransition
  | .resolve operationId => m.resolve operationId
  | .refresh operationId => m.refresh operationId
  | .invalidate route observedAt operationId => m.invalidate route observedAt operationId
  | .withdraw route operationId => m.withdraw route operationId
  | .discoverySucceeded operationId epoch brokerId endpoint evidence followupOperationId =>
    m.succeed operationId epoch brokerId endpoint evidence followupOperationId
  | .discoveryFailed operationId epoch followupOperationId =>
    m.fail operationId epoch followupOperationId
  | .discoveryRejected operationId epoch now followupOperationId =>
    m.reject operationId epoch now followupOperationId
  | .retryElapsed operationId epoch now retryOperationId =>
    m.retryElapsed operationId epoch now retryOperationId

end CoordinatorMachine

/-! ## What an input does -/

/-- When the failure an invalidation reports was observed. -/
def CoordinatorInput.observation : CoordinatorInput → Option OutcomeStamp
  | .invalidate _ observedAt _ => some observedAt
  | _ => none

/-- When the discovery that succeeded began. -/
def CoordinatorInput.evidence : CoordinatorInput → Option EvidenceStamp
  | .discoverySucceeded _ _ _ _ evidence _ => some evidence
  | _ => none

/-- A discovery failed, was rejected or is to be retried. -/
def CoordinatorInput.isSetback : CoordinatorInput → Bool
  | .discoveryFailed _ _ _ => true
  | .discoveryRejected _ _ _ _ => true
  | .retryElapsed _ _ _ _ => true
  | _ => false

namespace CoordinatorTransition

/-- A discovery is sent. -/
def sends (t : CoordinatorTransition) : Bool :=
  t.effects.any fun
    | .find _ _ _ => true
    | _ => false

/-- The demand was neither stale nor stopped by exhaustion. -/
def accepted (t : CoordinatorTransition) : Bool :=
  t.disposition ∈ [.applied, .refreshQueued, .coalesced] ∧ .epochExhausted ∉ t.effects

end CoordinatorTransition

namespace CoordinatorState

variable {s : CoordinatorState} {d d' : CoordinatorDiscovery}

@[simp] theorem setDiscovery_discovery (act : s.discovery = some d) :
    (s.setDiscovery d').discovery = some d' := by
  cases s <;> simp_all [discovery, setDiscovery]

theorem setDiscovery_self (act : s.discovery = some d) : s.setDiscovery d = s := by
  cases s <;> simp_all [discovery, setDiscovery]

theorem current_of_discovery (act : s.discovery = some d) : s.current = d.current := by
  cases s <;> simp_all [discovery, current]

end CoordinatorState

namespace CoordinatorMachine

variable (input : CoordinatorInput)

/-- `input` reports the route as the answer of the active discovery, and no revocation
refuses it. -/
def Answers (route : CoordinatorRoute) : Prop :=
  ∃ d followupOperationId, m.state = .discovering d ∧
    input = .discoverySucceeded d.operationId d.targetEpoch route.brokerId route.endpoint
      route.evidence followupOperationId ∧
    ∀ r ∈ m.revocation, r.accepts route

/-- A route withdrawn since the discovery began is discovered by it with evidence later than the
failure : the follow-up is dropped. -/
def Drops : Prop :=
  ∃ d brokerId endpoint evidence followupOperationId r, m.state = .discovering d ∧
    d.followup = some .revocation ∧
    input = .discoverySucceeded d.operationId d.targetEpoch brokerId endpoint evidence
      followupOperationId ∧
    m.revocation = some r ∧ evidence.isAfter r.requiredAfter = true

/-- While a route is withdrawn a discovery is active, and there is no current route. -/
def Withdrawn : Prop :=
  m.revocation.isSome → m.state.discovery.isSome ∧ m.current = none

/-- What one input can do. -/
inductive Step (m : CoordinatorMachine) (input : CoordinatorInput) :
    CoordinatorMachine × CoordinatorTransition → Prop
  | kept {transition : CoordinatorTransition} (silent : transition.sends = false)
      (covered : ∀ t ∈ input.observation, transition.accepted →
        ∃ r ∈ m.revocation, t ≤ r.requiredAfter) : Step m input (m, transition)
  | started {current : Option CoordinatorRoute} {operationId : OperationId}
      {targetEpoch : CoordinatorEpoch} {revocation : Option CoordinatorRevocation}
      (carried : ∀ route ∈ current, m.current = some route ∨ m.Answers input route)
      (withdrawn : revocation.isSome → current = none)
      (observed : ∀ t ∈ input.observation, ∃ r ∈ revocation, t ≤ r.requiredAfter)
      (followed : input.isSetback → ∃ d ∈ m.state.discovery, d.followup.isSome) :
      Step m input
        ({ m with
            state := .discovering ⟨current, operationId, targetEpoch, none, 0⟩
            revocation := revocation },
          .find operationId m.key targetEpoch)
  | queued {d : CoordinatorDiscovery} {current : Option CoordinatorRoute}
      {followup : CoordinatorFollowup} {revocation : Option CoordinatorRevocation}
      {transition : CoordinatorTransition} (active : m.state.discovery = some d)
      (demand : input.isSetback = false) (silent : transition.sends = false)
      (carried : ∀ route ∈ current, d.current = some route)
      (withdrawn : revocation.isSome → current = none)
      (raised : ∀ r ∈ m.revocation, ∃ r' ∈ revocation, r.requiredAfter ≤ r'.requiredAfter)
      (observed : ∀ t ∈ input.observation, ∃ r ∈ revocation, t ≤ r.requiredAfter) :
      Step m input
        ({ m with
            state := m.state.setDiscovery { d with current := current, followup := some followup }
            revocation := revocation },
          transition)
  | rejected {d : CoordinatorDiscovery} {now due : Moment} {followupOperationId : OperationId}
      (state : m.state = .discovering d)
      (asked : input = .discoveryRejected d.operationId d.targetEpoch now followupOperationId)
      (room : d.retries < maxDiscoveryRetries)
      (later : now.checkedAdd discoveryRetryBackoff = some due) :
      Step m input
        ({ m with state := .retrying { d with retries := d.retries + 1 } due },
          .wait d.operationId d.targetEpoch due)
  | retried {d : CoordinatorDiscovery} {now due : Moment} {retryOperationId : OperationId}
      (state : m.state = .retrying d due)
      (asked : input = .retryElapsed d.operationId d.targetEpoch now retryOperationId)
      (elapsed : due ≤ now) :
      Step m input
        ({ m with state := .discovering { d with operationId := retryOperationId } },
          .find retryOperationId m.key d.targetEpoch)
  | rested {d : CoordinatorDiscovery} {state : CoordinatorState}
      {transition : CoordinatorTransition} (active : m.state.discovery = some d)
      (idle : state.discovery = none) (silent : transition.sends = false)
      (unobserved : input.observation = none)
      (carried : ∀ route ∈ state.current, m.current = some route ∨ m.Answers input route)
      (owed : d.followup.isSome → .epochExhausted ∈ transition.effects ∨ m.Drops input) :
      Step m input ({ m with state := state, revocation := none }, transition)

variable {m : CoordinatorMachine} {input : CoordinatorInput}

/-- An idle machine has no revocation. -/
theorem Withdrawn.none_of_idle (hg : m.Withdrawn) (hi : m.state.discovery = none) :
    m.revocation = none := by
  by_contra pending
  have act := (hg (isSome_iff_ne_none.2 pending)).1
  simp [hi] at act

variable (operationId : OperationId) (route : CoordinatorRoute) (followupOperationId : OperationId)
  (epoch : CoordinatorEpoch)

theorem resolve_step (m : CoordinatorMachine) :
    Step m (.resolve operationId) (m.resolve operationId) := by
  unfold resolve
  split
  · exact .started nofun (fun _ => rfl) nofun nofun
  · exact .kept rfl nofun
  · exact .kept rfl nofun
  · exact .kept rfl nofun

variable {d : CoordinatorDiscovery} {r r' : CoordinatorRevocation} {observedAt : OutcomeStamp}

/-- A refresh behind an active discovery is its follow-up. -/
theorem refresh_of_active (act : m.state.discovery = some d) (op : OperationId) :
    m.refresh op =
      if d.followup.isSome then (m, .coalesced)
      else
        ({ m with state := m.state.setDiscovery { d with followup := some .refresh } },
          .queued) := by
  unfold refresh
  cases h : m.state <;> simp_all [CoordinatorState.discovery]

theorem refresh_step (gone : m.Withdrawn) :
    Step m (.refresh operationId) (m.refresh operationId) := by
  cases active : m.state.discovery with
  | some d =>
    rw [refresh_of_active active]
    split_ifs
    · exact .kept rfl nofun
    · refine .queued active rfl rfl (fun _ => id) (fun p => ?_) (fun r hg => ⟨r, hg, le_rfl⟩) nofun
      rw [← CoordinatorState.current_of_discovery active]
      exact (gone p).2
  | none =>
    have hu := gone.none_of_idle active
    unfold refresh
    split
    · simp_all [CoordinatorState.discovery]
    · simp_all [CoordinatorState.discovery]
    · exact .started nofun (fun _ => rfl) nofun nofun
    rename_i rt st
    split
    · exact .kept rfl nofun
    · refine .started (fun r hc => .inl ?_) (by simp [hu]) nofun nofun
      simpa [current, st, CoordinatorState.current] using hc

/-- The route an active discovery keeps is withdrawn. -/
theorem queueRevocation_step {rev : Option CoordinatorRevocation}
    (act : m.state.discovery = some d) (demand : input.isSetback = false)
    (hr : ∀ r ∈ m.revocation, ∃ r' ∈ rev, r.requiredAfter ≤ r'.requiredAfter)
    (seen : ∀ t ∈ input.observation, ∃ r ∈ rev, t ≤ r.requiredAfter) :
    Step m input ({ m with revocation := rev }.queueRevocation d) := by
  refine .queued act demand ?_ nofun (fun _ => rfl) hr seen
  split_ifs <;> rfl

theorem lt_of_observe (hr : r.observe observedAt = (r', true)) :
    r.requiredAfter ≤ r'.requiredAfter ∧ observedAt ≤ r'.requiredAfter := by
  unfold CoordinatorRevocation.observe at hr
  split_ifs at hr
  · cases hr
  · obtain rfl := (Prod.mk.inj hr).1
    exact ⟨le_max_left _ _, le_max_right _ _⟩

theorem le_of_not_observe (hk : r.observe observedAt = (r', false)) :
    r' = r ∧ observedAt ≤ r.requiredAfter := by
  unfold CoordinatorRevocation.observe at hk
  split_ifs at hk with hn
  · exact ⟨(Prod.mk.inj hk).1.symm, hn⟩
  · cases hk

/-- A route kept by an active discovery means that none is withdrawn. -/
theorem Withdrawn.none_of_current (hw : m.Withdrawn) (act : m.state.discovery = some d)
    (hk : d.current ≠ none) : m.revocation = none := by
  by_contra pending
  have hg := (hw (isSome_iff_ne_none.2 pending)).2
  rw [current, CoordinatorState.current_of_discovery act] at hg
  exact hk hg

theorem invalidate_active_step (hw : m.Withdrawn) (act : m.state.discovery = some d)
    (seen : OutcomeStamp) :
    Step m (.invalidate route seen operationId)
      (if d.current.all fun cur =>
          !cur.isSameTarget route || cur.evidence.isAfter seen then
        (m, .stale)
      else { m with revocation := some ⟨route, seen⟩ }.queueRevocation d) := by
  split_ifs with hun
  · exact .kept rfl (by simp [CoordinatorTransition.accepted, CoordinatorTransition.stale])
  · have hu := hw.none_of_current act fun hg => hun (by rw [hg]; rfl)
    refine queueRevocation_step act rfl (by simp [hu]) ?_
    rintro t ⟨⟩
    exact ⟨_, rfl, le_rfl⟩

theorem invalidate_step (hw : m.Withdrawn) (seen : OutcomeStamp) :
    Step m (.invalidate route seen operationId) (m.invalidate route seen operationId) := by
  unfold invalidate
  split
  · rename_i r hf
    have hg : m.revocation = some r := (filter_eq_some_iff.1 hf).1
    split
    · rename_i r' hu
      obtain ⟨rfl, hn⟩ := le_of_not_observe hu
      rw [show ({ m with revocation := some r' } : CoordinatorMachine) = m by rw [← hg]]
      refine .kept rfl ?_
      rintro t ⟨⟩ -
      exact ⟨r', hg, hn⟩
    · rename_i r' hr
      obtain ⟨ha, hc⟩ := lt_of_observe hr
      obtain ⟨hi, gone⟩ := hw (by rw [hg]; rfl)
      obtain ⟨d, act⟩ := isSome_iff_exists.1 hi
      rw [current, CoordinatorState.current_of_discovery act] at gone
      rw [refresh_of_active (m := { m with revocation := some r' }) act]
      have step : ∀ fu tr, tr.sends = false →
          Step m (.invalidate route seen operationId)
            ({ m with
                state := m.state.setDiscovery { d with followup := some fu }
                revocation := some r' },
              tr) := by
        intro fu tr hsi
        refine .queued act rfl hsi (fun _ => id) (fun _ => gone) ?_ ?_
        · intro r₀ p
          rw [hg] at p
          obtain rfl := some.inj p
          exact ⟨r', rfl, ha⟩
        · rintro t ⟨⟩
          exact ⟨r', rfl, hc⟩
      split_ifs with hfo
      · obtain ⟨fu, hno⟩ := isSome_iff_exists.1 hfo
        have hs := step fu .coalesced rfl
        rwa [← hno, CoordinatorState.setDiscovery_self act] at hs
      · exact step .refresh .queued rfl
  · split
    · exact .kept rfl (by simp [CoordinatorTransition.accepted, CoordinatorTransition.stale])
    · split_ifs
      · exact .kept rfl (by simp [CoordinatorTransition.accepted, CoordinatorTransition.stale])
      split
      · exact .kept rfl (by simp [CoordinatorTransition.accepted, CoordinatorTransition.exhausted])
      · refine .started nofun (fun _ => rfl) ?_ nofun
        rintro t ⟨⟩
        exact ⟨_, rfl, le_rfl⟩
    · rename_i d st
      exact invalidate_active_step operationId route hw (by rw [st]; rfl) seen
    · rename_i d due st
      exact invalidate_active_step operationId route hw (by rw [st]; rfl) seen

theorem withdraw_active_step (hg : m.Withdrawn) (act : m.state.discovery = some d) :
    Step m (.withdraw route operationId)
      (if d.current ≠ some route then (m, .stale) else m.queueRevocation d) := by
  split_ifs with ne
  · exact .kept rfl nofun
  · have hu := hg.none_of_current act (by simp [not_not.1 ne])
    exact queueRevocation_step act rfl (by simp [hu]) nofun

theorem withdraw_step (hg : m.Withdrawn) :
    Step m (.withdraw route operationId) (m.withdraw route operationId) := by
  unfold withdraw
  split
  · exact .kept rfl nofun
  · split_ifs
    · exact .kept rfl nofun
    · split
      · exact .kept rfl nofun
      · exact .started nofun (fun _ => rfl) nofun nofun
  · rename_i d st
    exact withdraw_active_step operationId route hg (by rw [st]; rfl)
  · rename_i d due st
    exact withdraw_active_step operationId route hg (by rw [st]; rfl)

/-! ### Outcomes -/

/-- A route no revocation refuses is installed, or the follow-up starts. -/
theorem install_step {rt : CoordinatorRoute} (st : m.state = .discovering d)
    (ans : m.Answers input rt) (hu : input.observation = none)
    (hs : input.isSetback = false) :
    Step m input ({ m with revocation := none }.install d rt followupOperationId) := by
  have act : m.state.discovery = some d := by rw [st]; rfl
  unfold install
  split
  · rename_i hun
    refine .rested act rfl rfl hu ?_ (by simp [hun])
    rintro r ⟨⟩
    exact .inr ans
  · split
    · refine .rested act ?_ rfl hu ?_ fun _ => .inl List.mem_cons_self
      · split <;> rfl
      · split
        · rintro r ⟨⟩
          exact .inr ans
        · nofun
    · refine .started ?_ nofun (by simp [hu]) (by simp [hs])
      split
      · rintro r ⟨⟩
        exact .inr ans
      · nofun

theorem succeed_step (m : CoordinatorMachine) (bid : BrokerId) (ep : BrokerEndpoint)
    (ev : EvidenceStamp) :
    Step m (.discoverySucceeded operationId epoch bid ep ev followupOperationId)
      (m.succeed operationId epoch bid ep ev followupOperationId) := by
  unfold succeed
  split
  · rename_i d st
    have act : m.state.discovery = some d := by rw [st]; rfl
    split
    · exact .kept rfl nofun
    rename_i hfe
    obtain ⟨rfl, rfl⟩ := not_or.1 hfe |>.imp not_not.1 not_not.1
    dsimp only
    have ans : (∀ r ∈ m.revocation, r.accepts ⟨m.key, bid, ep, d.targetEpoch,
        ev⟩) → m.Answers _ ⟨m.key, bid, ep, d.targetEpoch, ev⟩ :=
      fun ok => ⟨d, followupOperationId, st, rfl, ok⟩
    split
    · rename_i hu
      have step := install_step followupOperationId st (ans (by simp [hu])) rfl rfl
      rwa [← hu] at step
    · rename_i r hr
      split
      · rename_i ok
        have ha := ans (by simpa [hr] using ok)
        split
        · rename_i hf
          refine .rested act rfl rfl rfl ?_ fun _ => .inr
            ⟨d, bid, ep, ev, followupOperationId, r, st, hf, rfl, hr, ok⟩
          rintro rt ⟨⟩
          exact .inr ha
        · exact install_step followupOperationId st ha rfl rfl
      · split
        · exact .rested act rfl rfl rfl nofun fun _ => .inl List.mem_cons_self
        · exact .started nofun (fun _ => rfl) nofun nofun
  · exact .kept rfl nofun

/-- The active discovery fails. -/
theorem fail_of_active (act : m.state.discovery = some d) :
    m.fail d.operationId d.targetEpoch followupOperationId =
      match d.followup with
      | some reason =>
        m.start
          (match reason with
            | .refresh => d.current
            | .revocation => none)
          followupOperationId d.targetEpoch
      | none =>
        if m.revocation.isSome then
          ({ m with state := .unknown d.targetEpoch, revocation := none }, .applied)
        else
          ({ m with
              state :=
                match d.current with
                | some route => .ready route
                | none => .unknown d.targetEpoch },
            .applied) := by
  unfold fail
  cases st : m.state <;> rw [st] at act <;> cases act
  · exact if_neg (by simp)
  · exact if_neg (by simp)

variable {operationId epoch} in
/-- The failure of a discovery that is not active is stale. -/
theorem fail_of_foreign (hf : ¬ ∃ d, m.state.discovery = some d ∧ operationId = d.operationId ∧
      epoch = d.targetEpoch) :
    m.fail operationId epoch followupOperationId = (m, .stale) := by
  unfold fail
  cases st : m.state with
  | discovering d | retrying d =>
    exact if_pos (not_and_or.1 fun same => hf ⟨d, by rw [st]; rfl, same⟩)
  | unknown e | ready rt => rfl

/-- The active discovery ends without an answer. -/
theorem fail_active_step (hg : m.Withdrawn) (act : m.state.discovery = some d)
    (hu : input.observation = none) :
    Step m input (m.fail d.operationId d.targetEpoch followupOperationId) := by
  rw [fail_of_active _ act]
  have hi : m.current = d.current := CoordinatorState.current_of_discovery act
  split
  · rename_i reason hf
    refine .started ?_ ?_ (by simp [hu]) fun _ => ⟨d, act, by rw [hf]; rfl⟩
    · split
      · exact fun route hc => .inl (hi.trans hc)
      · nofun
    · intro p
      split
      · exact hi.symm.trans (hg p).2
      · rfl
  · rename_i hud
    split_ifs with p
    · exact .rested act rfl rfl hu nofun (by simp [hud])
    have hun : m.revocation = none := by simpa using p
    have step : Step m input
        ({ m with
            state :=
              match d.current with
              | some route => .ready route
              | none => .unknown d.targetEpoch
            revocation := none },
          .applied) := by
      refine .rested act ?_ rfl hu ?_ (by simp [hud])
      · split <;> rfl
      · intro route hc
        refine .inl (hi.trans ?_)
        split at hc
        · rename_i hk
          rw [hk]
          exact hc
        · cases hc
    rwa [← hun] at step

theorem fail_step (hg : m.Withdrawn) (hu : input.observation = none) :
    Step m input (m.fail operationId epoch followupOperationId) := by
  by_cases act : ∃ d, m.state.discovery = some d ∧ operationId = d.operationId ∧
      epoch = d.targetEpoch
  · obtain ⟨d, act, rfl, rfl⟩ := act
    exact fail_active_step followupOperationId hg act hu
  · rw [fail_of_foreign _ act]
    exact .kept rfl (by simp [hu])

theorem reject_step (hg : m.Withdrawn) (now : Moment) :
    Step m (.discoveryRejected operationId epoch now followupOperationId)
      (m.reject operationId epoch now followupOperationId) := by
  unfold reject
  split
  · rename_i d st
    split_ifs with hf hs
    · exact .kept rfl nofun
    · exact fail_step operationId followupOperationId epoch hg rfl
    obtain ⟨rfl, rfl⟩ := not_or.1 hf |>.imp not_not.1 not_not.1
    split
    · exact fail_step _ followupOperationId _ hg rfl
    · rename_i due hl
      exact .rejected st rfl (Nat.lt_of_succ_le (Nat.le_of_not_lt hs)) hl
  · exact .kept rfl nofun

theorem retryElapsed_step (m : CoordinatorMachine) (now : Moment) (retry : OperationId) :
    Step m (.retryElapsed operationId epoch now retry)
      (m.retryElapsed operationId epoch now retry) := by
  unfold retryElapsed
  split
  · rename_i d due st
    split_ifs with hf he
    · exact .kept rfl nofun
    · exact .kept rfl nofun
    · obtain ⟨rfl, rfl⟩ := not_or.1 hf |>.imp not_not.1 not_not.1
      exact .retried st rfl (not_lt.1 he)
  · exact .kept rfl nofun

theorem apply_step (hg : m.Withdrawn) (i : CoordinatorInput) : Step m i (m.apply i) := by
  cases i with
  | resolve op => exact m.resolve_step op
  | refresh op => exact refresh_step op hg
  | invalidate rt t op =>
    exact invalidate_step op rt hg t
  | withdraw rt op => exact withdraw_step op rt hg
  | discoverySucceeded op e bid ep ev next =>
    exact m.succeed_step op next e bid ep ev
  | discoveryFailed op e next =>
    exact fail_step op next e hg rfl
  | discoveryRejected op e now next =>
    exact reject_step op next e hg now
  | retryElapsed op e now retry =>
    exact m.retryElapsed_step op e now retry

/-! ## Withdrawn routes -/

theorem Withdrawn.step {res : CoordinatorMachine × CoordinatorTransition}
    (hw : m.Withdrawn) (step : Step m input res) : res.1.Withdrawn := by
  cases step with
  | kept => exact hw
  | started hc hg => exact fun p => ⟨rfl, hg p⟩
  | queued act _ _ _ hg =>
    refine fun p => ⟨?_, ?_⟩
    · rw [CoordinatorState.setDiscovery_discovery act]
      rfl
    · rw [current,
        CoordinatorState.current_of_discovery (CoordinatorState.setDiscovery_discovery act)]
      exact hg p
  | rejected st | retried st =>
    intro p
    have hg := (hw p).2
    rw [current, st] at hg
    exact ⟨rfl, hg⟩
  | rested => nofun

theorem Withdrawn.apply (hg : m.Withdrawn) (i : CoordinatorInput) : (m.apply i).1.Withdrawn :=
  hg.step (apply_step hg i)

/-- Withdrawn routes are gone, in every run. -/
theorem withdrawn_run (key : CoordinatorKey) (e : CoordinatorEpoch) (is : List CoordinatorInput) :
    (Runs.final CoordinatorMachine.apply (withInitialEpoch key e) is).Withdrawn :=
  Runs.final_invariant _ (fun _ i hg => hg.apply i) nofun is

end CoordinatorMachine

end KafkaDriver
