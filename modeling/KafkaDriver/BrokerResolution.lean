import KafkaDriver.Directory

/-!
# Resolution of one advertised broker endpoint

A `BrokerResolutionMachine` owns the DNS work of one broker : a start supersedes the work of
an older epoch, and an outcome is taken only if it echoes the epoch and effect of the
request in flight.
-/

namespace KafkaDriver

/-- How far a broker's names are resolved. -/
inductive BrokerResolutionState where
  | dormant
  | resolving (route : BrokerRoute) (endpoint : BrokerEndpoint) (epoch : ConnectionEpoch)
      (effectId : EffectId)
  | resolved (route : BrokerRoute) (epoch : ConnectionEpoch)
  | failed (route : BrokerRoute) (epoch : ConnectionEpoch) (failure : DnsFailure)

/-- The route and epoch of the last request. -/
def BrokerResolutionState.currentIdentity :
    BrokerResolutionState → Option (BrokerRoute × ConnectionEpoch)
  | .dormant => none
  | .resolving route _ epoch _ | .resolved route epoch | .failed route epoch _ =>
    some (route, epoch)

/-- What the machine is told. -/
inductive BrokerResolutionInput where
  | start (route : BrokerRoute) (endpoint : BrokerEndpoint) (epoch : ConnectionEpoch)
      (effectId : EffectId)
  | resolutionCompleted (outcome : DnsOutcome)

/-- What the machine asks for or reports. -/
inductive BrokerResolutionEffect where
  | resolve (request : DnsRequest)
  | resolved (route : BrokerRoute) (epoch : ConnectionEpoch) (endpoint : BrokerEndpoint)
      (addresses : ResolvedAddressSet)
  | failed (route : BrokerRoute) (failure : DnsFailure)

/-- What became of an input. -/
inductive BrokerResolutionDisposition where
  | applied
  | ignoredStale
  | ignoredBusy
  | rejectedBroker
  deriving DecidableEq

/-- The answer to an input. -/
structure BrokerResolutionTransition where
  effects : List BrokerResolutionEffect
  disposition : BrokerResolutionDisposition

/-- Resolves the names of one broker. -/
structure BrokerResolutionMachine where
  brokerId : BrokerId
  state : BrokerResolutionState

namespace BrokerResolutionMachine

/-- Nothing was asked yet. -/
def new (brokerId : BrokerId) : BrokerResolutionMachine := ⟨brokerId, .dormant⟩

variable (m : BrokerResolutionMachine) (route : BrokerRoute) (endpoint : BrokerEndpoint)
  (epoch : ConnectionEpoch) (effectId : EffectId)

/-- Take up the work of `epoch`. -/
def begin : BrokerResolutionMachine × BrokerResolutionTransition :=
  ({ m with state := .resolving route endpoint epoch effectId },
    ⟨[.resolve ⟨epoch, effectId, endpoint⟩], .applied⟩)

/-- Ask for a newer route or epoch. -/
def start : BrokerResolutionMachine × BrokerResolutionTransition :=
  if route.brokerId ≠ m.brokerId then (m, ⟨[], .rejectedBroker⟩)
  else
    match m.state.currentIdentity with
    | none => m.begin route endpoint epoch effectId
    | some (currentRoute, currentEpoch) =>
      if route.generation < currentRoute.generation ∨ epoch < currentEpoch then
        (m, ⟨[], .ignoredStale⟩)
      else if epoch = currentEpoch then (m, ⟨[], .ignoredBusy⟩)
      else m.begin route endpoint epoch effectId

/-- Take the outcome of the request in flight. -/
def complete (outcome : DnsOutcome) : BrokerResolutionMachine × BrokerResolutionTransition :=
  match m.state with
  | .resolving route endpoint epoch effectId =>
    if outcome.epoch ≠ epoch ∨ outcome.effectId ≠ effectId then (m, ⟨[], .ignoredStale⟩)
    else
      match outcome.result with
      | .ok addresses =>
        ({ m with state := .resolved route epoch },
          ⟨[.resolved route epoch endpoint addresses], .applied⟩)
      | .error failure =>
        ({ m with state := .failed route epoch failure }, ⟨[.failed route failure], .applied⟩)
  | _ => (m, ⟨[], .ignoredStale⟩)

/-- Handle one input. -/
def apply :
    BrokerResolutionInput → BrokerResolutionMachine × BrokerResolutionTransition
  | .start route endpoint epoch effectId => m.start route endpoint epoch effectId
  | .resolutionCompleted outcome => m.complete outcome

/-- A start takes up its own work or changes nothing. -/
theorem start_cases :
    m.start route endpoint epoch effectId = m.begin route endpoint epoch effectId ∨
      ∃ disp, m.start route endpoint epoch effectId = (m, ⟨[], disp⟩) := by
  unfold start
  split_ifs
  · exact .inr ⟨_, rfl⟩
  split
  · exact .inl rfl
  · split_ifs
    · exact .inr ⟨_, rfl⟩
    · exact .inr ⟨_, rfl⟩
    · exact .inl rfl

/-- An outcome ends the work in flight or changes nothing. -/
theorem complete_cases {m : BrokerResolutionMachine} {rt : BrokerRoute}
    {ep : BrokerEndpoint} {e : ConnectionEpoch} {fx : EffectId}
    (hf : m.state = .resolving rt ep e fx) (out : DnsOutcome) :
    m.complete out = (m, ⟨[], .ignoredStale⟩) ∨
      (∃ addresses, m.complete out = ({ m with state := .resolved rt e },
        ⟨[.resolved rt e ep addresses], .applied⟩)) ∨
      ∃ err, m.complete out = ({ m with state := .failed rt e err },
        ⟨[.failed rt err], .applied⟩) := by
  unfold complete
  rw [hf]
  dsimp only
  split_ifs
  · exact .inl rfl
  · split
    · exact .inr (.inl ⟨_, rfl⟩)
    · exact .inr (.inr ⟨_, rfl⟩)

end BrokerResolutionMachine

end KafkaDriver
