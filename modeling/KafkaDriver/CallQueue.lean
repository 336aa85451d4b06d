import KafkaDriver.Connection
import KafkaDriver.Runs

/-!
# The call queue inside a connection

Of everything a connection machine does, its calls see a FIFO queue that one transport
owns. `CallQueue` is that queue with its owner, `CallEffect` the effects a call can
observe, and `CallQueue.Step` lists the seven things one input can do to it : leave it
alone, refuse a submission, admit one at the back, have the writer accept a frame, abort a
frame that was never written, complete the front, or fail every call in order.

Every successful input of the machine is one of these seven, so that the machine refines the
queue (`ConnectionMachine.Moves.queue`) and what is proved of calls looks at the queue only.
-/

namespace KafkaDriver

open Connection Runs PendingQueue

/-! ## The abstract queue -/

/-- An effect that one call can observe. -/
inductive CallEffect where
  | write (epoch : ConnectionEpoch) (transportId : TransportId) (callId : CallId)
      (correlationId : CorrelationId) (effectId : EffectId)
  | complete (callId : CallId) (correlationId : CorrelationId)
  | fail (callId : CallId) (failure : CallFailure) (delivery : Delivery)

/-- The part of an effect that concerns calls. -/
def ConnectionEffect.callEffect : ConnectionEffect → Option CallEffect
  | .writeRequest epoch transportId callId correlationId effectId =>
    some (.write epoch transportId callId correlationId effectId)
  | .completeResponse callId correlationId => some (.complete callId correlationId)
  | .failCall callId failure delivery => some (.fail callId failure delivery)
  | _ => none

def callEffects (effects : List ConnectionEffect) : List CallEffect :=
  effects.filterMap ConnectionEffect.callEffect

@[simp]
theorem callEffects_cons (x : ConnectionEffect) (xs : List ConnectionEffect) :
    callEffects (x :: xs) = x.callEffect.toList ++ callEffects xs := by
  cases h : x.callEffect <;> simp [callEffects, h]

/-- Pending calls in FIFO order with the epoch and transport that carry them. -/
structure CallQueue where
  owner : Option (ConnectionEpoch × TransportId)
  calls : List PendingCall
  deriving DecidableEq

/-- A queue keeps its owner as long as it keeps a call. -/
def CallQueue.SameOwner (q q' : CallQueue) : Prop :=
  q.calls ≠ [] → q'.calls ≠ [] → q'.owner = q.owner

/-- No pending call uses one of the four identities. -/
def CallQueue.Fresh (q : CallQueue) (callId : CallId) (correlationId : CorrelationId)
    (writeEffect : EffectId) (deadlineTimer : TimerId) : Prop :=
  ∀ p ∈ q.calls, p.callId ≠ callId ∧ p.correlationId ≠ correlationId ∧
    p.writeEffect ≠ writeEffect ∧ p.deadlineTimer ≠ deadlineTimer

/-- What one input, answered with a disposition, does to the queue and to its calls. -/
inductive CallQueue.Step (q : CallQueue) :
    ConnectionInput → TransitionDisposition → List CallEffect → CallQueue → Prop
  | keep {input disposition q'} (calls : q'.calls = q.calls) (owner : q.SameOwner q')
      (notSubmit : input.kind ≠ .submit)
      (notAccepted : ¬(input.kind = .writeSubmitted ∧ disposition = .applied)) :
      Step q input disposition [] q'
  | refuse {callId writeEffect deadlineTimer now deadline failure}
      (failure_ne : failure ≠ .locallyRejected) :
      Step q (.submit callId writeEffect deadlineTimer now deadline) .rejected
        [.fail callId failure .notSent] q
  | enqueue {callId correlationId writeEffect deadlineTimer now deadline epoch transportId}
      (owner : q.owner = some (epoch, transportId))
      (fresh : q.Fresh callId correlationId writeEffect deadlineTimer) :
      Step q (.submit callId writeEffect deadlineTimer now deadline) .applied
        [.write epoch transportId callId correlationId writeEffect]
        ⟨q.owner, q.calls ++ [.new callId correlationId writeEffect deadlineTimer deadline]⟩
  | accept {pre p post epoch transportId} (owner : q.owner = some (epoch, transportId))
      (calls : q.calls = pre ++ p :: post) (first : ∀ r ∈ pre, r.writeEffect ≠ p.writeEffect)
      (phase : p.phase = .awaitingWrite) :
      Step q (.writeSubmitted epoch transportId p.writeEffect) .applied []
        ⟨q.owner, pre ++ p.markSubmitted :: post⟩
  | abort {pre p post epoch transportId q'} (owner : q.owner = some (epoch, transportId))
      (calls : q.calls = pre ++ p :: post) (phase : p.phase = .awaitingWrite)
      (calls' : q'.calls = pre ++ post) (owner' : q.SameOwner q') :
      Step q (.abortUnsentCall epoch transportId p.callId p.writeEffect) .applied
        [.fail p.callId .locallyRejected .notSent] q'
  | complete {p rest epoch transportId q'} (owner : q.owner = some (epoch, transportId))
      (calls : q.calls = p :: rest) (phase : p.phase = .awaitingResponse)
      (calls' : q'.calls = rest) (owner' : q.SameOwner q') :
      Step q (.responseReceived epoch transportId p.correlationId) .applied
        [.complete p.callId p.correlationId] q'
  | close {input disposition q'} (failure : PendingCall → CallFailure)
      (failure_ne : ∀ p, failure p ≠ .locallyRejected) (calls' : q'.calls = [])
      (notSubmit : input.kind ≠ .submit) (notWritten : input.kind ≠ .writeSubmitted) :
      Step q input disposition (q.calls.map fun p => .fail p.callId (failure p) p.delivery) q'

/-- Inputs that neither submit a call nor report that its frame was written. -/
structure ConnectionInput.Aside (input : ConnectionInput) : Prop where
  notSubmit : input.kind ≠ .submit
  notWritten : input.kind ≠ .writeSubmitted

theorem ConnectionInput.Aside.authentication {q : AuthenticationInput} :
    (ConnectionInput.authentication q).Aside :=
  ⟨nofun, nofun⟩

/-- What no call can observe. -/
theorem CallQueue.Step.quiet {q q' : CallQueue} {i : ConnectionInput}
    {disp : TransitionDisposition} {effs : List CallEffect} (ha : i.Aside)
    (cs : q'.calls = q.calls) (o : q.SameOwner q') (hs : effs = []) :
    q.Step i disp effs q' := by
  rw [hs]
  exact .keep cs o ha.notSubmit fun ok => ha.notWritten ok.1

/-! ## The queue a machine holds -/

def Connection.StateData.callQueue : StateData → CallQueue
  | .active _ connection => ⟨some (connection.epoch, connection.transportId),
      connection.pending.calls⟩
  | _ => ⟨none, []⟩

namespace ConnectionMachine

/-- The call queue of a machine, empty and without owner outside the active states. -/
def callQueue (m : ConnectionMachine) : CallQueue := m.state.callQueue

variable {m : ConnectionMachine} {input : ConnectionInput}

theorem callQueue_active {mode connection} (h : m.state = .active mode connection) :
    m.callQueue = ⟨some (connection.epoch, connection.transportId), connection.pending.calls⟩ := by
  simp [callQueue, h, StateData.callQueue]

theorem callEffects_appendFailures (cs : List PendingCall) (reason specific) :
    callEffects (appendFailures cs reason specific) =
      cs.map fun p => .fail p.callId (drainedFailure reason specific p) p.delivery := by
  induction cs with
  | nil => rfl
  | cons p cs ih =>
    have hu : appendFailures (p :: cs) reason specific =
        .cancelDeadline p.deadlineTimer ::
          .failCall p.callId (drainedFailure reason specific p) p.delivery ::
            appendFailures cs reason specific := rfl
    rw [hu]
    simp [ConnectionEffect.callEffect, ih]

/-- A close fails no call as locally rejected. -/
def ClosingFailure (specific : Option (CallId × CallFailure)) : Prop :=
  ∀ c f, specific = some (c, f) → f ≠ .locallyRejected

theorem drainedFailure_ne {specific} (h : ClosingFailure specific) (reason p) :
    drainedFailure reason specific p ≠ .locallyRejected := by
  unfold drainedFailure
  split
  · next c f hf => exact h c f ((Option.filter_eq_some_iff.1 hf).1)
  · simp

theorem closingFailure_none : ClosingFailure none := by
  intro c f h
  cases h

theorem closingFailure_some {cid : CallId} {err : CallFailure}
    (ha : err ≠ .locallyRejected) : ClosingFailure (some (cid, err)) := by
  intro c f h
  cases h
  exact ha

/-- Outside the active states there are no calls. -/
theorem calls_nil {st : StateData} (hg : m.state = st) (idle : st.callQueue.calls = []) :
    m.callQueue.calls = [] := by
  rw [callQueue, hg]
  exact idle

theorem matchingNegotiation_eq_some {epoch t e timer}
    (h : m.matchingNegotiation epoch t e = some timer) :
    ∃ due, m.state = .negotiating epoch t e timer due := by
  unfold matchingNegotiation at h
  split at h
  · next hs =>
    split_ifs at h with ids
    obtain ⟨rfl, rfl, rfl⟩ := ids
    cases h
    exact ⟨_, hs⟩
  · cases h

theorem fresh_of_hasIdentities {q : PendingQueue} {callId correlationId writeEffect timer}
    {o : Option (ConnectionEpoch × TransportId)}
    (c : (q.hasIdentities callId writeEffect timer).call = false)
    (effect : (q.hasIdentities callId writeEffect timer).effect = false)
    (due : (q.hasIdentities callId writeEffect timer).timer = false)
    (hc : q.containsCorrelation correlationId = false) :
    CallQueue.Fresh ⟨o, q.calls⟩ callId correlationId writeEffect timer := by
  simp only [hasIdentities, containsCorrelation, List.any_eq_false,
    decide_eq_true_eq] at c effect due hc
  intro p hp
  exact ⟨c p hp, hc p hp, effect p hp, due p hp⟩

theorem allocateLoop_free {inUse : CorrelationId → Bool} {n : ℕ} {a a' : CorrelationAllocator}
    {c : CorrelationId} (h : CorrelationAllocator.allocateLoop inUse n a = (a', some c)) :
    inUse c = false := by
  induction n generalizing a with
  | zero => simp [CorrelationAllocator.allocateLoop] at h
  | succ n ih =>
    simp only [CorrelationAllocator.allocateLoop] at h
    split_ifs at h with hu
    · exact ih h
    · cases h
      simpa using hu

theorem failureForClosedState_ne (m : ConnectionMachine) :
    m.failureForClosedState ≠ .locallyRejected := by
  unfold failureForClosedState
  split <;> simp

theorem updateFirst_eq {effect : EffectId} {pre post : List PendingCall} {p p' : PendingCall}
    (hp : p.writeEffect = effect) (first : ∀ r ∈ pre, r.writeEffect ≠ effect) :
    updateFirst effect p' (pre ++ p :: post) = pre ++ p' :: post := by
  induction pre with
  | nil => simp [updateFirst, hp]
  | cons r pre ih =>
    have here : r.writeEffect ≠ effect := first r List.mem_cons_self
    have rest := ih fun s hs => first s (List.mem_cons_of_mem _ hs)
    simp [updateFirst, here, rest]

theorem dispatch_error {m' e} (h : m.dispatch input = (m', .error e)) : m' = m := by
  cases input with
  | submit =>
    simp only [dispatch, submit] at h
    split at h
    · split_ifs at h
      · cases h
      · cases h
      · cases h; rfl
      · cases h; rfl
      · cases h; rfl
      · split at h <;> cases h
    · cases h
  | _ => cases h

/-- An input that fails changes nothing. -/
theorem apply_error {m' e} (h : m.apply input = (m', .error e)) : m' = m := by
  unfold apply at h
  split at h
  · cases h
    rfl
  split at h
  · next dispatched =>
    cases h
    exact dispatch_error dispatched
  · cases h

end ConnectionMachine

/-! ## Runs of a connection -/

/-- One applied input of a connection machine with the answer it got. -/
abbrev ConnectionEvent :=
  Event ConnectionMachine ConnectionInput (Except ConnectionMachineError ConnectionTransition)

namespace ConnectionEvent

/-- Effects an event emitted, none if the machine refused the input. -/
def effects (x : ConnectionEvent) : List ConnectionEffect :=
  match x.answer with
  | .ok transition => transition.effects
  | .error _ => []

/-- The call of a submission the machine answered with `Ok`. -/
def submitted (x : ConnectionEvent) : Option CallId :=
  match x.input, x.answer with
  | .submit callId .., .ok _ => some callId
  | _, _ => none

end ConnectionEvent

namespace ConnectionMachine

def run (m : ConnectionMachine) (inputs : List ConnectionInput) : List ConnectionEvent :=
  Runs.trace apply m inputs

/-- The machine after a list of inputs. -/
def after (m : ConnectionMachine) (inputs : List ConnectionInput) : ConnectionMachine :=
  final apply m inputs

/-- Machines as the two constructors make them. -/
inductive Initial : ConnectionMachine → Prop
  | plain (epoch : ConnectionEpoch) (limits : ConnectionLimits) : Initial (new epoch limits)
  | authenticated (epoch : ConnectionEpoch) (limits : ConnectionLimits)
      (authentication : AuthenticationPolicy) :
      Initial (newAuthenticated epoch limits authentication)

theorem Initial.callQueue {m : ConnectionMachine} (h : Initial m) : m.callQueue = ⟨none, []⟩ := by
  cases h <;> rfl

end ConnectionMachine

end KafkaDriver
