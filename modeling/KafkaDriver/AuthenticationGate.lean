import KafkaDriver.ConnectionSteps

/-!
# No request before the authentication

A connection with an authentication policy writes its first request only after the whole
exchange : ApiVersions negotiated for an authentication, the handshake accepted, and the
exchange that was outstanding completed with success. `Staged` says how much of this has
happened when the connection is in a given state, and a step keeps it. A connection without
a policy never authenticates.
-/

namespace KafkaDriver

open Connection Runs List ConnectionMachine

/-! ## What has happened -/

namespace ConnectionEvent

/-- The machine answered the input and applied it. -/
def Applied (e : ConnectionEvent) : Prop :=
  ∃ transition, e.answer = .ok transition ∧ transition.record.disposition = .applied

/-- The negotiation that is outstanding ends in the start of an authentication. -/
def BeginsAuthentication (_ : List ConnectionEvent) (e : ConnectionEvent) : Prop :=
  e.Applied ∧ e.after.state.phase = .authenticating ∧
    ∃ epoch transportId effectId timer deadline capabilities attempt,
      e.before.state = .negotiating epoch transportId effectId timer deadline ∧
      e.input = .apiVersionsNegotiatedWithAuthentication epoch transportId effectId capabilities
        attempt

/-- The handshake is accepted, after an authentication began. -/
def AcceptsHandshake (past : List ConnectionEvent) (e : ConnectionEvent) : Prop :=
  Happened BeginsAuthentication past ∧ e.Applied ∧
    ∃ epoch transportId effectId,
      e.input = .authentication (.handshakeAccepted epoch transportId effectId)

end ConnectionEvent

/-- The identities of one exchange that was sent. -/
structure Exchange where
  epoch : ConnectionEpoch
  transportId : TransportId
  effectId : EffectId
  round : AuthenticationRound

/-- The exchange an effect sends. -/
def ConnectionEffect.sent : ConnectionEffect → Option Exchange
  | .authentication (.sendExchange epoch transportId effectId round _ _) =>
    some ⟨epoch, transportId, effectId, round⟩
  | _ => none

/-- The exchanges a run has sent, in order. -/
def sentOf (run : List ConnectionEvent) : List Exchange :=
  run.flatMap fun e => e.effects.filterMap ConnectionEffect.sent

theorem sentOf_concat (run : List ConnectionEvent) (e : ConnectionEvent) :
    sentOf (run ++ [e]) = sentOf run ++ e.effects.filterMap ConnectionEffect.sent := by
  simp [sentOf]

/-- The exchange sent last succeeds, after the handshake was accepted. -/
def ConnectionEvent.Authenticates (past : List ConnectionEvent) (e : ConnectionEvent) : Prop :=
  Happened ConnectionEvent.AcceptsHandshake past ∧ e.Applied ∧
    ∃ x, (sentOf past).getLast? = some x ∧ e.input = .authentication
      (.exchangeCompleted x.epoch x.transportId x.effectId x.round .succeeded)

/-! ## What a state tells of its history -/

/-- How far the authentication has come when a connection is in a state. -/
def Staged (past : List ConnectionEvent) : StateData → Prop
  | .dormant _ | .opening .. | .negotiating .. => sentOf past = []
  | .authenticating epoch transportId _ child =>
    match child.state with
    | .handshaking .. => Happened ConnectionEvent.BeginsAuthentication past ∧ sentOf past = []
    | .exchanging effectId round _ _ =>
      Happened ConnectionEvent.AcceptsHandshake past ∧
        (sentOf past).getLast? = some ⟨epoch, transportId, effectId, round⟩
    | .dormant | .succeeded | .failed _ => True
  | .active .. => Happened ConnectionEvent.Authenticates past
  | .closing .. | .closed .. => True

/-- The rounds sent are counted from one and stay within the policy. -/
structure RoundsWithin (policy : AuthenticationPolicy) (sent : List Exchange) : Prop where
  numbered : (sent.map Exchange.round).map AuthenticationRound.get =
    range' 1 (sent.map Exchange.round).length
  within : ∀ x ∈ sent, x.round.get ≤ policy.limits.maxExchangeRounds.get

variable {policy : AuthenticationPolicy} {f : ConnectionEffect} {past : List ConnectionEvent}
  {i : ConnectionInput}

theorem RoundsWithin.length_le {history : List Exchange} (hr : RoundsWithin policy history) :
    history.length ≤ policy.limits.maxExchangeRounds.get := by
  rcases eq_nil_or_concat history with rfl | ⟨pre, x, rfl⟩
  · simp
  have last : ((pre ++ [x]).map Exchange.round).getLast? = some x.round := by simp
  have n := SessionGate.get_of_getLast? (by simpa using hr.numbered) last
  have hb := hr.within x (by simp)
  rw [length_map] at n
  rw [concat_eq_append]
  omega

theorem RoundsWithin.concat {history : List Exchange} {x : Exchange}
    (hr : RoundsWithin policy history) (hf : x.round.get = history.length + 1)
    (room : x.round.get ≤ policy.limits.maxExchangeRounds.get) :
    RoundsWithin policy (history ++ [x]) where
  numbered := by
    rw [map_append, map_singleton]
    exact SessionGate.numbered_concat hr.numbered (by rw [length_map, hf])
  within := by
    intro y mem
    rcases mem_append.1 mem with old | new
    · exact hr.within y old
    · rwa [mem_singleton.1 new]

/-! ## One step -/

theorem sent_of_isSettling (hs : f.isSettling = true) : f.sent = none := by
  unfold ConnectionEffect.isSettling at hs
  split at hs
  all_goals first | rfl | cases hs

theorem sent_of_arms {t : TimerId} (ha : f.arms = some t) : f.sent = none := by
  unfold ConnectionEffect.arms at ha
  split at ha
  all_goals first | rfl | cases ha

/-- Closing a transport sends no exchange. -/
theorem sent_of_closes {effs : List ConnectionEffect} {epoch transportId reason}
    (once : effs.filter (fun f => !f.isSettling) = [.closeTransport epoch transportId reason]) :
    effs.filterMap ConnectionEffect.sent = [] := by
  rw [filterMap_eq_nil_iff]
  intro f mem
  rcases ConnectionEffect.isSettling_or_eq once mem with hs | rfl
  · exact sent_of_isSettling hs
  · rfl

/-- What has happened stays so when a step sends nothing. -/
theorem Staged.concat {st : StateData} (hst : Staged past st) {e : ConnectionEvent}
    (hsi : e.effects.filterMap ConnectionEffect.sent = []) : Staged (past ++ [e]) st := by
  have hs : sentOf (past ++ [e]) = sentOf past := by rw [sentOf_concat, hsi, append_nil]
  unfold Staged at hst ⊢
  rw [hs]
  split <;> simp only at hst
  · exact hst
  · exact hst
  · exact hst
  · split <;> simp_all only
    · exact ⟨hst.1.concat e, trivial⟩
    · exact ⟨hst.1.concat e, trivial⟩
  · exact hst.concat e
  · trivial
  · trivial

/-- A connection with a policy, and what its history has to do with its state. -/
structure Gated (policy : AuthenticationPolicy) (past : List ConnectionEvent)
    (m : ConnectionMachine) : Prop where
  required : m.authentication = some policy
  staged : Staged past m.state
  rounds : RoundsWithin policy (sentOf past)

open ConnectionMachine in
theorem Gated.step {m m' : ConnectionMachine} {tr : ConnectionTransition}
    (hga : Gated policy past m) (hi : m.InStep)
    (hm : Moves m i (m', ⟨tr.effects, tr.record.disposition⟩)) :
    Gated policy (past ++ [⟨m, i, m', .ok tr⟩]) m' := by
  have hr : m'.authentication = some policy := by
    rw [hm.authentication, hga.required]
  -- a step that sends nothing, and leads to a state of which the history so far tells enough
  have hsi : tr.effects.filterMap ConnectionEffect.sent = [] →
      Staged past m'.state → Gated policy (past ++ [⟨m, i, m', .ok tr⟩]) m' := by
    intro hn hs
    refine ⟨hr, hs.concat hn, ?_⟩
    rw [sentOf_concat]
    simpa [ConnectionEvent.effects, hn] using hga.rounds
  have step := hm.step
  have hs := hga.staged
  generalize decided : (⟨tr.effects, tr.record.disposition⟩ : Decision) = d at step
  generalize after : m'.state = state', m'.session = session' at step
  have effs : tr.effects = d.effects := by rw [← decided]
  have disp : tr.record.disposition = d.disposition := by rw [← decided]
  dsimp only at step
  cases step with
  | kept hre =>
    refine hsi ?_ (by rwa [after])
    rw [effs]
    rcases hre with rfl | rfl | ⟨cid, err, rfl⟩ <;> rfl
  | exhausted st | submits st | drains st =>
    rw [st] at hs
    exact hsi (by rw [effs]; rfl) (by rw [after]; exact hs)
  | rearmed _ _ arms =>
    refine hsi ?_ (by rwa [after])
    rw [effs]
    exact filterMap_cons_none (sent_of_arms arms)
  | opens st | negotiates st =>
    rw [st] at hs
    exact hsi (by rw [effs]; rfl) (by rw [after]; exact hs)
  | @handshakes e tid fx t due caps a _ _ st hg =>
    rw [st] at hs
    change sentOf past = [] at hs
    have hn : tr.effects.filterMap ConnectionEffect.sent = [] := by
      rw [effs]
      rfl
    refine ⟨hr, ?_, ?_⟩
    · rw [after]
      refine ⟨Happened.last ⟨⟨tr, rfl, disp⟩, by rw [after]; rfl, e,
        tid, fx, t, due, caps, a, st, rfl⟩, ?_⟩
      rw [sentOf_concat, hs]
      exact hn
    · rw [sentOf_concat]
      simpa [ConnectionEvent.effects, hn] using hga.rounds
  | @exchanges e tid caps child q fx round t due st exchanges =>
    obtain ⟨rfl, rfl, ⟨pol', hg, lim⟩, -⟩ := hi.agreed st
    obtain rfl : pol' = policy := by simpa [hg] using hga.required
    rw [st] at hs
    have more : sentOf (past ++ [⟨m, .authentication q, m', .ok tr⟩]) =
        sentOf past ++ [⟨child.epoch, child.transportId, fx, round⟩] := by
      rw [sentOf_concat]
      simp only [ConnectionEvent.effects, effs]
      rfl
    have last : (sentOf (past ++ [⟨m, .authentication q, m', .ok tr⟩])).getLast? =
        some ⟨child.epoch, child.transportId, fx, round⟩ := by
      rw [more, getLast?_concat]
    cases exchanges with
    | first hh =>
      simp only [Staged, hh] at hs
      refine ⟨hr, ?_, ?_⟩
      · rw [after]
        exact ⟨Happened.last ⟨hs.1, ⟨tr, rfl, disp⟩, child.epoch, child.transportId, fx, rfl⟩, last⟩
      · rw [more]
        refine hga.rounds.concat ?_ pol'.limits.maxExchangeRounds.pos
        rw [hs.2]
        rfl
    | next he hf room =>
      simp only [Staged, he] at hs
      refine ⟨hr, ?_, ?_⟩
      · rw [after]
        exact ⟨hs.1.concat _, last⟩
      · rw [more]
        refine hga.rounds.concat ?_ (by rwa [← lim])
        have n := SessionGate.get_of_getLast? hga.rounds.numbered (by rw [getLast?_map, hs.2]; rfl)
        rw [length_map] at n
        rw [SessionGate.get_of_next hf, n]
  | @authenticated e tid caps child fx round t due st he =>
    obtain ⟨rfl, rfl, -⟩ := hi.agreed st
    rw [st] at hs
    simp only [Staged, he] at hs
    have hn : tr.effects.filterMap ConnectionEffect.sent = [] := by
      rw [effs]
      rfl
    refine ⟨hr, ?_, ?_⟩
    · rw [after]
      exact Happened.last ⟨hs.1, ⟨tr, rfl, disp⟩,
        ⟨child.epoch, child.transportId, fx, round⟩, hs.2, rfl⟩
    · rw [sentOf_concat]
      simpa [ConnectionEvent.effects, hn] using hga.rounds
  | negotiated _ hu =>
    rw [hga.required] at hu
    cases hu
  | marks st =>
    rw [st] at hs
    exact hsi (by rw [effs]; rfl) (by rw [after]; exact hs)
  | settles st _ _ _ _ hse =>
    rw [st] at hs
    refine hsi ?_ (by rw [after]; exact hs)
    rw [effs]
    exact filterMap_cons_none (sent_of_isSettling hse)
  | closes _ once =>
    refine hsi ?_ (by rw [after]; trivial)
    rw [effs]
    exact sent_of_closes once
  | ends _ hse =>
    refine hsi ?_ (by rw [after]; trivial)
    rw [effs, filterMap_eq_nil_iff]
    exact fun f mem => sent_of_isSettling (hse f mem)

variable (epoch : ConnectionEpoch) (limits : ConnectionLimits) (inputs : List ConnectionInput)

theorem gated_run (pol : AuthenticationPolicy) :
    Gated pol ((newAuthenticated epoch limits pol).run inputs)
      ((newAuthenticated epoch limits pol).after inputs) :=
  (step_induction (P := Gated pol) (ConnectionMachine.Initial.authenticated epoch limits pol).inStep
    ⟨rfl, rfl, rfl, nofun⟩
    (fun _ _ _ _ _ hg => by
      refine ⟨hg.required, hg.staged.concat rfl, ?_⟩
      rw [sentOf_concat]
      simpa [ConnectionEvent.effects] using hg.rounds)
    (fun _ _ _ _ _ hi hm hg => hg.step hi hm) inputs).2

/-! ## Every run -/

def ConnectionEffect.isWrite : ConnectionEffect → Bool
  | .writeRequest .. => true
  | _ => false

open ConnectionMachine in
/-- Only an active epoch writes requests. -/
theorem active_of_write {m : ConnectionMachine} {st' : StateData}
    {session' : KafkaSessionMachine} {d : Decision} (step : m.Step i st' session' d)
    (mem : f ∈ d.effects) (hw : f.isWrite = true) :
    ∃ mode conn, m.state = .active mode conn := by
  have hu : f.isSettling = false := by cases f <;> first | rfl | cases hw
  cases step with
  | kept hr =>
    rcases hr with rfl | rfl | ⟨cid, err, rfl⟩ <;>
      simp [Decision.stale, Decision.ignored, reject, Decision.rejected] at mem
    subst mem
    cases hw
  | exhausted st | submits st | marks st | settles st | drains st =>
    exact ⟨_, _, st⟩
  | rearmed _ _ ha =>
    obtain rfl := mem_singleton.1 mem
    have hun : f.arms = none := by cases f <;> first | rfl | cases hw
    simp [hun] at ha
  | opens | negotiates | handshakes | exchanges | authenticated | negotiated =>
    simp only [Decision.applied, mem_cons, not_mem_nil, or_false] at mem
    rcases mem with rfl | rfl | rfl <;> cases hw
  | closes _ once =>
    rcases ConnectionEffect.isSettling_or_eq once mem with hs | rfl
    · simp [hs] at hu
    · cases hw
  | ends _ hs => simp [hs f mem] at hu

/-- A connection that was given no policy does not authenticate. -/
theorem phase_ne_authenticating :
    ((new epoch limits).after inputs).state.phase ≠ .authenticating := by
  have hu : ((new epoch limits).after inputs).authentication = none :=
    (step_induction (P := fun _ m => m.authentication = none)
      (ConnectionMachine.Initial.plain epoch limits).inStep rfl (fun _ _ _ _ _ hh => hh)
      (fun _ _ _ _ _ _ hm hh => by rw [← hh]; exact hm.authentication) inputs).2
  have ha := ((ConnectionMachine.Initial.plain epoch limits).inStep_after inputs).agrees
  intro hau
  cases state : ((new epoch limits).after inputs).state with
  | authenticating e t c child =>
    rw [state, hu] at ha
    obtain ⟨-, -, ⟨policy, hh, -⟩, -⟩ := ha
    cases hh
  | active mode conn =>
    rw [state] at hau
    cases mode <;> cases hau
  | dormant | opening | negotiating | closing | closed =>
    rw [state] at hau
    cases hau

/-- Requests wait for the authentication, whose exchanges are bounded. -/
structure WritesGated (policy : AuthenticationPolicy) (run : List ConnectionEvent) : Prop where
  /-- Before a request is written the whole authentication has happened, in order. -/
  authenticated : ∀ past e rest, run = past ++ e :: rest → (∃ f ∈ e.effects, f.isWrite = true) →
    Happened ConnectionEvent.Authenticates past
  /-- No more exchanges are sent than the policy allows. -/
  exchanges : (sentOf run).length ≤ policy.limits.maxExchangeRounds.get

/-- With a policy no request is written before the authentication has succeeded, and without
one there is no authentication. -/
theorem writes_gated :
    (∀ policy, WritesGated policy
      ((ConnectionMachine.newAuthenticated epoch limits policy).run inputs)) ∧
    ((ConnectionMachine.new epoch limits).after inputs).state.phase ≠ .authenticating := by
  refine ⟨fun policy => ⟨?_, (gated_run epoch limits inputs policy).rounds.length_le⟩,
    phase_ne_authenticating epoch limits inputs⟩
  rintro past e rest split ⟨f, mem, hw⟩
  obtain ⟨pre, i, rfl, rfl⟩ := of_trace_eq_append_cons _ split
  have hi := (ConnectionMachine.Initial.authenticated epoch limits policy).inStep_after pre
  have hs := (gated_run epoch limits pre policy).staged
  rcases ConnectionMachine.apply_moves hi i with
    ⟨error, failed⟩ | ⟨m', transition, applied, moves⟩
  · simp only [ConnectionMachine.after] at failed
    simp [event, failed, ConnectionEvent.effects] at mem
  have he : f ∈ transition.effects := by
    simp only [ConnectionMachine.after] at applied
    simpa [event, applied, ConnectionEvent.effects] using mem
  obtain ⟨mode, conn, st⟩ := active_of_write moves.step he hw
  rw [st] at hs
  exact hs

end KafkaDriver
