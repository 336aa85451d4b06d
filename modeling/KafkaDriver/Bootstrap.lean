import KafkaDriver.Identity

/-!
# Bootstrap endpoints, their resolution and retry

`BootstrapMachine` makes one pass over the configured endpoints : it resolves the next one
in round-robin order, and on a failure goes on to another until all of them failed once.
`BootstrapRetryMachine` waits a capped exponential delay between two failed passes, and
`BootstrapOwner` joins the two and numbers the passes.
-/

namespace KafkaDriver

/-! ## DNS vocabulary -/

/-- A host and a port to resolve. -/
structure BrokerEndpoint where
  host : String
  port : ℕ
  deriving DecidableEq

/-- An address and a port to connect to. -/
structure ResolvedAddress where
  ip : List ℕ
  port : ℕ
  deriving DecidableEq

/-- Nonempty resolved addresses in resolver order. -/
structure ResolvedAddressSet where
  addresses : List ResolvedAddress
  nonempty : addresses ≠ []
  deriving DecidableEq

/-- Why names were not resolved. -/
inductive DnsFailure where
  | nameNotFound
  | temporary
  | noUsableAddress
  deriving DecidableEq

/-- A request to the resolver. -/
structure DnsRequest where
  epoch : ConnectionEpoch
  effectId : EffectId
  endpoint : BrokerEndpoint
  deriving DecidableEq

/-- The worker's answer, echoing the epoch and effect of its request. -/
structure DnsOutcome where
  epoch : ConnectionEpoch
  effectId : EffectId
  result : Except DnsFailure ResolvedAddressSet

/-! ## Backoff -/

/-- `u32::MAX`. -/
def u32Max : ℕ := 2 ^ 32 - 1

/-- One-based retry number, a nonzero `u32`. -/
@[ext]
structure RetryOrdinal where
  get : ℕ
  pos : 0 < get
  le : get ≤ u32Max

namespace RetryOrdinal

/-- The first retry. -/
def first : RetryOrdinal := ⟨1, Nat.one_pos, by decide⟩

/-- The retry after, if it can be counted. -/
def next (r : RetryOrdinal) : Option RetryOrdinal :=
  if h : r.get + 1 ≤ u32Max then some ⟨r.get + 1, Nat.succ_pos _, h⟩ else none

end RetryOrdinal

/-- How long to wait between retries. -/
structure BackoffPolicy where
  baseNanos : ℕ
  maxNanos : ℕ
  base_pos : 0 < baseNanos
  base_le : baseNanos ≤ maxNanos
  max_le : maxNanos ≤ u64Max

namespace BackoffPolicy

/-- From 100 ms up to 10 s. -/
def default : BackoffPolicy :=
  ⟨100000000, 10000000000, by decide, by decide, by decide⟩

/-- Delay in nanoseconds : at least half of the capped exponential bound, jittered up to it. -/
def delay (policy : BackoffPolicy) (retry : RetryOrdinal) (jitter : ℕ) : ℕ :=
  let exponent := min (retry.get - 1) 63
  let cap := min (min (policy.baseNanos * 2 ^ exponent) u64Max) policy.maxNanos
  let floor := (cap + 1) / 2
  let width := cap - floor + 1
  floor + jitter % width

end BackoffPolicy

/-! ## One pass over the endpoints -/

/-- Nonempty configured endpoints in stable order, each once. -/
structure BootstrapSet where
  endpoints : List BrokerEndpoint
  nonempty : endpoints ≠ []
  nodup : endpoints.Nodup

namespace BootstrapSet

/-- How many endpoints there are. -/
def len (s : BootstrapSet) : ℕ := s.endpoints.length

theorem len_pos (s : BootstrapSet) : 0 < s.len := List.length_pos_iff.2 s.nonempty

end BootstrapSet

/-- The position of the next endpoint to try. -/
abbrev BootstrapCursor (s : BootstrapSet) := Fin s.len

/-- Select the next endpoint and advance with wraparound. -/
def BootstrapCursor.selectNext {s : BootstrapSet} (c : BootstrapCursor s) :
    BootstrapCursor s × BrokerEndpoint :=
  (⟨(c.val + 1) % s.len, Nat.mod_lt _ s.len_pos⟩, s.endpoints.get c)

/-- How far a pass has come. -/
inductive BootstrapState where
  | dormant
  | resolving (epoch : ConnectionEpoch) (effectId : EffectId) (endpoint : BrokerEndpoint)
      (remaining : ℕ)
  | resolved (epoch : ConnectionEpoch)
  | exhausted (epoch : ConnectionEpoch) (lastFailure : DnsFailure)

/-- The epoch of the last pass. -/
def BootstrapState.currentEpoch : BootstrapState → Option ConnectionEpoch
  | .dormant => none
  | .resolving epoch .. | .resolved epoch | .exhausted epoch _ => some epoch

/-- What the machine is told. -/
inductive BootstrapInput where
  | start (epoch : ConnectionEpoch) (effectId : EffectId)
  | resolutionCompleted (outcome : DnsOutcome) (retryEffectId : EffectId)

/-- What the machine asks for or reports. -/
inductive BootstrapEffect where
  | resolve (request : DnsRequest)
  | resolved (epoch : ConnectionEpoch) (endpoint : BrokerEndpoint)
      (addresses : ResolvedAddressSet)
  | exhausted (epoch : ConnectionEpoch) (lastFailure : DnsFailure)

/-- What became of an input. -/
inductive BootstrapDisposition where
  | applied
  | ignoredStale
  | ignoredBusy
  deriving DecidableEq

/-- The answer to an input. -/
structure BootstrapTransition where
  effects : List BootstrapEffect
  disposition : BootstrapDisposition

/-- Owner of one bounded pass through the configured endpoints. -/
structure BootstrapMachine where
  endpoints : BootstrapSet
  cursor : BootstrapCursor endpoints
  state : BootstrapState

namespace BootstrapMachine

/-- Before the first pass. -/
def new (endpoints : BootstrapSet) : BootstrapMachine :=
  ⟨endpoints, ⟨0, endpoints.len_pos⟩, .dormant⟩

variable (m : BootstrapMachine) (epoch : ConnectionEpoch) (effectId : EffectId)

/-- Resolve the next endpoint, with `remaining` others left in the pass. -/
def resolveNext (remaining : ℕ) : BootstrapMachine × BootstrapTransition :=
  match m.cursor.selectNext with
  | (cursor, endpoint) =>
    ({ m with cursor, state := .resolving epoch effectId endpoint remaining },
      ⟨[.resolve ⟨epoch, effectId, endpoint⟩], .applied⟩)

/-- Begin a pass with a newer epoch. -/
def start : BootstrapMachine × BootstrapTransition :=
  match m.state.currentEpoch with
  | none => m.resolveNext epoch effectId (m.endpoints.len - 1)
  | some current =>
    if epoch < current then (m, ⟨[], .ignoredStale⟩)
    else if epoch = current then (m, ⟨[], .ignoredBusy⟩)
    else m.resolveNext epoch effectId (m.endpoints.len - 1)

/-- Go on with the next endpoint. -/
def retry (remaining : ℕ) : BootstrapMachine × BootstrapTransition :=
  m.resolveNext epoch effectId remaining

/-- Take the outcome of the request in flight. -/
def complete (outcome : DnsOutcome) (retryEffectId : EffectId) :
    BootstrapMachine × BootstrapTransition :=
  match m.state with
  | .resolving epoch effectId endpoint remaining =>
    if outcome.epoch ≠ epoch ∨ outcome.effectId ≠ effectId then (m, ⟨[], .ignoredStale⟩)
    else
      match outcome.result with
      | .ok addresses =>
        ({ m with state := .resolved epoch }, ⟨[.resolved epoch endpoint addresses], .applied⟩)
      | .error lastFailure =>
        if remaining = 0 then
          ({ m with state := .exhausted epoch lastFailure },
            ⟨[.exhausted epoch lastFailure], .applied⟩)
        else m.retry epoch retryEffectId (remaining - 1)
  | _ => (m, ⟨[], .ignoredStale⟩)

/-- Handle one input. -/
def apply : BootstrapInput → BootstrapMachine × BootstrapTransition
  | .start epoch effectId => m.start epoch effectId
  | .resolutionCompleted outcome retryEffectId => m.complete outcome retryEffectId

end BootstrapMachine

/-! ## Retry between passes -/

/-- Whether a pass may begin. -/
inductive BootstrapRetryState where
  | ready (retry : RetryOrdinal)
  | waiting (retry : RetryOrdinal) (at_ : Moment)

/-- What the retries are told. -/
inductive BootstrapRetryInput where
  | exhausted (now : Moment) (jitter : ℕ)
  | elapsed (now : Moment)
  | succeeded

/-- What the retries ask for. -/
inductive BootstrapRetryEffect where
  | waitUntil (at_ : Moment)
  | restart

/-- Why a retry cannot be scheduled. -/
inductive BootstrapRetryError where
  | deadlineOverflow

/-- Owner of the delay between complete passes. An answer is the list of effects. -/
structure BootstrapRetryMachine where
  policy : BackoffPolicy
  state : BootstrapRetryState

namespace BootstrapRetryMachine

/-- No pass failed yet. -/
def new (policy : BackoffPolicy) : BootstrapRetryMachine := ⟨policy, .ready .first⟩

/-- When the next pass is due. -/
def deadline (m : BootstrapRetryMachine) : Option Moment :=
  match m.state with
  | .ready _ => none
  | .waiting _ at_ => some at_

/-- Begin the pass that is due. -/
def elapsed (m : BootstrapRetryMachine) (now : Moment) :
    BootstrapRetryMachine × List BootstrapRetryEffect :=
  match m.state with
  | .ready _ => (m, [])
  | .waiting retry at_ =>
    if now < at_ then (m, [.waitUntil at_])
    else ({ m with state := .ready (retry.next.getD retry) }, [.restart])

/-- Handle one input. -/
def apply (m : BootstrapRetryMachine) :
    BootstrapRetryInput →
      BootstrapRetryMachine × Except BootstrapRetryError (List BootstrapRetryEffect)
  | .exhausted now jitter =>
    match m.state with
    | .waiting .. => (m, .ok [])
    | .ready retry =>
      match now.checkedAdd (m.policy.delay retry jitter) with
      | none => (m, .error .deadlineOverflow)
      | some at_ => ({ m with state := .waiting retry at_ }, .ok [.waitUntil at_])
  | .elapsed now =>
    match m.elapsed now with
    | (m', effects) => (m', .ok effects)
  | .succeeded => ({ m with state := .ready .first }, .ok [])

end BootstrapRetryMachine

/-! ## The owner -/

/-- Why the owner fails. -/
inductive BootstrapOwnerError where
  | unexpectedEffect
  | epochExhausted
  | retry (error : BootstrapRetryError)

/-- Resolved seed with the pass that found it. -/
structure ResolvedSeed where
  generation : ConnectionEpoch
  endpoint : BrokerEndpoint
  addresses : ResolvedAddressSet

/-- What the owner does next. -/
inductive BootstrapAction where
  | resolve (request : DnsRequest)
  | install (seed : ResolvedSeed)
  | retryScheduled

/-- Bootstrap policy with its retry delay and the number of the next pass. -/
structure BootstrapOwner where
  machine : BootstrapMachine
  retry : BootstrapRetryMachine
  nextEpoch : Option ℕ

namespace BootstrapOwner

/-- Read the one effect of a pass. -/
def interpret (b : BootstrapOwner) :
    List BootstrapEffect → BootstrapOwner × Except BootstrapOwnerError BootstrapAction
  | [.resolve request] => (b, .ok (.resolve request))
  | [.resolved epoch endpoint addresses] =>
    match b.retry.apply .succeeded with
    | (retry, .ok _) => ({ b with retry }, .ok (.install ⟨epoch, endpoint, addresses⟩))
    | (retry, .error error) => ({ b with retry }, .error (.retry error))
  | _ => (b, .error .unexpectedEffect)

/-- Read it, or wait after a pass that failed. -/
def interpretCompletion (b : BootstrapOwner) (effects : List BootstrapEffect) (now : Moment)
    (jitter : ℕ) : BootstrapOwner × Except BootstrapOwnerError BootstrapAction :=
  match effects with
  | [.exhausted _ _] =>
    match b.retry.apply (.exhausted now jitter) with
    | (retry, .error error) => ({ b with retry }, .error (.retry error))
    | (retry, .ok [.waitUntil _]) => ({ b with retry }, .ok .retryScheduled)
    | (retry, .ok _) => ({ b with retry }, .error .unexpectedEffect)
  | _ => b.interpret effects

/-- Begin the pass `raw` and ask for its first endpoint. -/
def begin (b : BootstrapOwner) (raw : ℕ) (effectId : EffectId) :
    BootstrapOwner × Except BootstrapOwnerError DnsRequest :=
  match b.machine.apply (.start ⟨raw⟩ effectId) with
  | (machine, transition) =>
    match ({ b with machine }).interpret transition.effects with
    | (b', .ok (.resolve request)) => (b', .ok request)
    | (b', .ok _) => (b', .error .unexpectedEffect)
    | (b', .error error) => (b', .error error)

variable (endpoints : BootstrapSet) (b : BootstrapOwner) (retryEffectId : EffectId) (now : Moment)
  (jitter : ℕ) (effectId : EffectId)

/-- Begin the first pass. -/
def start : BootstrapOwner × Except BootstrapOwnerError DnsRequest :=
  ({ machine := .new endpoints, retry := .new .default, nextEpoch := some 2 } :
    BootstrapOwner).begin 1 effectId

/-- Take an outcome. -/
def complete (b : BootstrapOwner) (outcome : DnsOutcome) (retryEffectId : EffectId)
    (now : Moment) (jitter : ℕ) : BootstrapOwner × Except BootstrapOwnerError BootstrapAction :=
  match b.machine.apply (.resolutionCompleted outcome retryEffectId) with
  | (machine, transition) =>
    ({ b with machine }).interpretCompletion transition.effects now jitter

/-- Begin a pass anew. -/
def restart : BootstrapOwner × Except BootstrapOwnerError DnsRequest :=
  match b.nextEpoch with
  | none => (b, .error .epochExhausted)
  | some raw => ({ b with nextEpoch := checkedSucc raw }).begin raw effectId

/-- When the next pass is due. -/
def retryDeadline : Option Moment := b.retry.deadline

/-- Begin the pass that is due. -/
def retryElapsed : BootstrapOwner × Except BootstrapOwnerError (Option DnsRequest) :=
  match b.retry.apply (.elapsed now) with
  | (retry, .error error) => ({ b with retry }, .error (.retry error))
  | (retry, .ok [.restart]) =>
    match ({ b with retry }).restart effectId with
    | (b', .ok request) => (b', .ok (some request))
    | (b', .error error) => (b', .error error)
  | (retry, .ok [.waitUntil _]) | (retry, .ok []) => ({ b with retry }, .ok none)
  | (retry, .ok _) => ({ b with retry }, .error .unexpectedEffect)

/-- The first pass asks for its first endpoint. -/
theorem start_resolves :
    ∃ b req, start endpoints effectId = (b, .ok req) ∧ req.epoch = ⟨1⟩ ∧ req.effectId = effectId ∧
      b.machine.state = .resolving ⟨1⟩ effectId req.endpoint (endpoints.len - 1) ∧
      b.nextEpoch = some 2 ∧ b.retryDeadline = none :=
  ⟨_, _, rfl, rfl, rfl, rfl, rfl, rfl⟩

/-- A pass with a fresh number asks for its first endpoint. -/
theorem restart_resolves {b : BootstrapOwner} {raw : ℕ} (next : b.nextEpoch = some raw)
    (hn : ∀ e, b.machine.state.currentEpoch = some e → e < ⟨raw⟩) :
    ∃ b' req, b.restart effectId = (b', .ok req) ∧ req.epoch = ⟨raw⟩ ∧ req.effectId = effectId ∧
      b'.machine.state = .resolving ⟨raw⟩ effectId req.endpoint (b.machine.endpoints.len - 1) ∧
      b'.nextEpoch = checkedSucc raw ∧ b'.retry = b.retry := by
  have hs : b.machine.start ⟨raw⟩ effectId =
      b.machine.resolveNext ⟨raw⟩ effectId (b.machine.endpoints.len - 1) := by
    unfold BootstrapMachine.start
    cases current : b.machine.state.currentEpoch with
    | none => rfl
    | some e =>
      have ha := hn e current
      simp only [not_lt_of_gt ha, ha.ne', if_false]
  refine ⟨⟨(b.machine.resolveNext ⟨raw⟩ effectId (b.machine.endpoints.len - 1)).1, b.retry,
    checkedSucc raw⟩, ⟨⟨raw⟩, effectId, b.machine.cursor.selectNext.2⟩, ?_, rfl, rfl, rfl, rfl, rfl⟩
  simp only [restart, next, begin, BootstrapMachine.apply, hs]
  rfl

/-- A failure inside a pass asks for the next endpoint of the same pass. -/
theorem complete_resolves {b : BootstrapOwner} {out : DnsOutcome} {ep : BrokerEndpoint}
    {left : ℕ} {err : DnsFailure}
    (st : b.machine.state = .resolving out.epoch out.effectId ep (left + 1))
    (hf : out.result = .error err) :
    ∃ b' req, b.complete out retryEffectId now jitter = (b', .ok (.resolve req)) ∧
      req.epoch = out.epoch ∧ req.effectId = retryEffectId ∧
      b'.machine.state = .resolving out.epoch retryEffectId req.endpoint left ∧
      b'.nextEpoch = b.nextEpoch ∧ b'.retry = b.retry := by
  have hr : b.machine.complete out retryEffectId =
      b.machine.resolveNext out.epoch retryEffectId left := by
    simp [BootstrapMachine.complete, BootstrapMachine.retry, st, hf]
  refine ⟨{ b with machine := (b.machine.resolveNext out.epoch retryEffectId left).1 },
    ⟨out.epoch, retryEffectId, b.machine.cursor.selectNext.2⟩, ?_, rfl, rfl, rfl, rfl, rfl⟩
  simp only [complete, BootstrapMachine.apply, hr]
  rfl

end BootstrapOwner

end KafkaDriver
