import KafkaDriver.CallSettlement

/-!
# One transport for each epoch

An epoch opens at most one transport and closes at most that one. `Transported` says what the
effects emitted so far tell of the state : nothing was opened before the start, the transport
of a live state is the one that was opened and has not been closed, and an epoch that closes
has asked for it once, with the reason it keeps. The phase of an epoch only moves forward.
-/

namespace KafkaDriver

open Connection Runs List ConnectionMachine StateData

/-! ## The transports of a run -/

/-- The transport an effect opens. -/
def ConnectionEffect.opened : ConnectionEffect → Option (ConnectionEpoch × TransportId)
  | .openTransport epoch _ transportId => some (epoch, transportId)
  | _ => none

/-- The transport an effect closes, and why. -/
def ConnectionEffect.closed :
    ConnectionEffect → Option (ConnectionEpoch × TransportId × CloseReason)
  | .closeTransport epoch transportId reason => some (epoch, transportId, reason)
  | _ => none

/-- The transports that effects open, in order. -/
def opensOf (effects : List ConnectionEffect) : List (ConnectionEpoch × TransportId) :=
  effects.filterMap ConnectionEffect.opened

/-- The transports that effects close, in order. -/
def closesOf (effects : List ConnectionEffect) :
    List (ConnectionEpoch × TransportId × CloseReason) :=
  effects.filterMap ConnectionEffect.closed

@[simp] theorem opensOf_append (pre after : List ConnectionEffect) :
    opensOf (pre ++ after) = opensOf pre ++ opensOf after := by
  simp [opensOf]

@[simp] theorem closesOf_append (pre after : List ConnectionEffect) :
    closesOf (pre ++ after) = closesOf pre ++ closesOf after := by
  simp [closesOf]

/-- The effects of a run, in order. -/
def effectsOf (run : List ConnectionEvent) : List ConnectionEffect :=
  run.flatMap ConnectionEvent.effects

theorem effectsOf_concat (run : List ConnectionEvent) (e : ConnectionEvent) :
    effectsOf (run ++ [e]) = effectsOf run ++ e.effects := by
  simp [effectsOf]

/-- The order of the phases of an epoch. -/
def ConnectionPhase.rank : ConnectionPhase → ℕ
  | .dormant => 0
  | .opening => 1
  | .negotiating => 2
  | .authenticating => 3
  | .ready => 4
  | .draining => 5
  | .closing => 6
  | .closed => 7

/-! ## What one step opens and closes -/

theorem opened_of_isSettling {f : ConnectionEffect} (hs : f.isSettling = true) :
    f.opened = none ∧ f.closed = none := by
  unfold ConnectionEffect.isSettling at hs
  split at hs
  all_goals first | exact ⟨rfl, rfl⟩ | cases hs

theorem opened_of_arms {f : ConnectionEffect} {t : TimerId} (ha : f.arms = some t) :
    f.opened = none ∧ f.closed = none := by
  unfold ConnectionEffect.arms at ha
  split at ha
  all_goals first | exact ⟨rfl, rfl⟩ | cases ha

variable {effects : List ConnectionEffect} {state state' : StateData} {transportId : TransportId}
  {m : ConnectionMachine} {input : ConnectionInput} {session' : KafkaSessionMachine}

theorem opensOf_settling (hs : ∀ f ∈ effects, f.isSettling = true) : opensOf effects = [] := by
  rw [opensOf, filterMap_eq_nil_iff]
  exact fun f mem => (opened_of_isSettling (hs f mem)).1

theorem closesOf_settling (hs : ∀ f ∈ effects, f.isSettling = true) : closesOf effects = [] := by
  rw [closesOf, filterMap_eq_nil_iff]
  exact fun f mem => (opened_of_isSettling (hs f mem)).2

/-- Effects that do one thing besides settling open and close what that thing does. -/
theorem opensOf_once {act : ConnectionEffect}
    (once : effects.filter (fun f => !f.isSettling) = [act]) :
    opensOf effects = opensOf [act] ∧ closesOf effects = closesOf [act] := by
  have split : ∀ {β : Type} (g : ConnectionEffect → Option β),
      (∀ f, f.isSettling = true → g f = none) →
      effects.filterMap g = (effects.filter fun f => !f.isSettling).filterMap g := by
    intro β g hsi
    rw [filterMap_filter]
    congr 1
    funext f
    cases hs : f.isSettling <;> simp [hsi f, hs]
  constructor
  · rw [opensOf, split _ fun f hs => (opened_of_isSettling hs).1, once]
    rfl
  · rw [closesOf, split _ fun f hs => (opened_of_isSettling hs).2, once]
    rfl

/-- A state with a transport has opened it and is not yet closing. -/
theorem phase_of_transport (hl : state.transport = some transportId) :
    0 < state.phase.rank ∧ state.phase.rank < ConnectionPhase.closing.rank := by
  cases state with
  | active mode conn => cases mode <;> simp [phase, ConnectionPhase.rank]
  | opening | negotiating | authenticating => simp [phase, ConnectionPhase.rank]
  | dormant | closing | closed => cases hl

/-- What a step does to the transport : nothing, open it, close it, or find it gone. -/
inductive TransportStep (m : ConnectionMachine) (input : ConnectionInput) (state' : StateData)
    (effects : List ConnectionEffect) : Prop
  | keeps (opens : opensOf effects = []) (closes : closesOf effects = [])
      (same : state' = m.state)
  | carries (opens : opensOf effects = []) (closes : closesOf effects = [])
      (epoch : state'.epoch = m.state.epoch) {transportId : TransportId}
      (before : m.state.transport = some transportId)
      (after : state'.transport = some transportId)
      (forward : m.state.phase.rank ≤ state'.phase.rank)
  | opens {transportId : TransportId} (dormant : m.state.phase = .dormant)
      (opening : state'.phase = .opening) (epoch : state'.epoch = m.state.epoch)
      (after : state'.transport = some transportId)
      (opens : opensOf effects = [(m.state.epoch, transportId)])
      (closes : closesOf effects = [])
  | closes {transportId : TransportId} {reason : CloseReason}
      (live : m.state.transport = some transportId)
      (closing : state' = .closing m.state.epoch transportId reason)
      (opens : opensOf effects = [])
      (closes : closesOf effects = [(m.state.epoch, transportId, reason)])
  | ends {reason : CloseReason} (ends : m.Ends input reason)
      (closed : state' = .closed m.state.epoch reason) (opens : opensOf effects = [])
      (closes : closesOf effects = [])

open ConnectionMachine in
theorem transportStep {d : Decision} (step : m.Step input state' session' d) :
    TransportStep m input state' d.effects := by
  cases step with
  | kept hr =>
    rcases hr with rfl | rfl | ⟨cid, err, rfl⟩ <;> exact .keeps rfl rfl rfl
  | rearmed _ _ ha =>
    refine .keeps ?_ ?_ rfl
    · exact filterMap_cons_none (opened_of_arms ha).1
    · exact filterMap_cons_none (opened_of_arms ha).2
  | opens st =>
    refine .opens ?_ rfl ?_ rfl ?_ rfl <;> rw [st] <;> rfl
  | exhausted st | submits st =>
    exact .carries rfl rfl (by rw [st]; rfl) (by rw [st]; rfl) rfl (by rw [st]; rfl)
  | @marks _ mode _ _ st =>
    exact .carries rfl rfl (by rw [st]; rfl) (by rw [st]; rfl) rfl (by rw [st]; cases mode <;> rfl)
  | @settles _ mode _ _ _ _ _ _ st _ _ _ _ hs =>
    refine .carries ?_ ?_ (by rw [st]; rfl) (by rw [st]; rfl) rfl (by rw [st]; cases mode <;> rfl)
    · exact filterMap_cons_none (opened_of_isSettling hs).1
    · exact filterMap_cons_none (opened_of_isSettling hs).2
  | negotiates st | handshakes st | exchanges st | authenticated st
  | negotiated st | drains st =>
    refine .carries rfl rfl (by rw [st]; rfl) (by rw [st]; rfl) rfl ?_
    rw [st]
    simp [phase, ConnectionPhase.rank]
  | closes hl once => exact .closes hl rfl (opensOf_once once).1 (opensOf_once once).2
  | ends ends hs => exact .ends ends rfl (opensOf_settling hs) (closesOf_settling hs)

theorem TransportStep.rank_le (step : TransportStep m input state' effects) :
    m.state.phase.rank ≤ state'.phase.rank := by
  cases step with
  | keeps _ _ hs => rw [hs]
  | carries _ _ _ _ _ forward => exact forward
  | opens hd ho => simp [hd, ho, ConnectionPhase.rank]
  | closes hl hc =>
    have pre := phase_of_transport hl
    rw [hc]
    exact pre.2.le
  | ends _ hcl =>
    rw [hcl]
    change m.state.phase.rank ≤ 7
    cases m.state.phase <;> simp [ConnectionPhase.rank]

/-- A step enters the phase of closing exactly if it asks for a close. -/
theorem TransportStep.enters_closing (step : TransportStep m input state' effects) :
    m.state.phase ≠ .closing ∧ state'.phase = .closing ↔ closesOf effects ≠ [] := by
  cases step with
  | keeps _ hc hs => simp [hc, hs]
  | carries _ hc _ _ post _ =>
    have hl := (phase_of_transport post).2
    simp only [hc, ne_eq, not_true_eq_false, iff_false, not_and]
    intro _ hcl
    rw [hcl] at hl
    exact lt_irrefl _ hl
  | opens _ ho _ _ _ hc => simp [hc, ho]
  | closes hl hcl _ hc =>
    have pre := (phase_of_transport hl).2
    simp only [hc, ne_eq, reduceCtorEq, not_false_eq_true, iff_true]
    refine ⟨fun hs => ?_, by rw [hcl]; rfl⟩
    rw [hs] at pre
    exact lt_irrefl _ pre
  | ends _ hcd _ hc => simp [hc, hcd, phase]

/-! ## What the effects tell of the state -/

/-- The transports opened and closed on the way to a state. -/
structure Transported (effects : List ConnectionEffect) (state : StateData) : Prop where
  unopened : state.phase = .dormant → opensOf effects = [] ∧ closesOf effects = []
  live : ∀ transportId, state.transport = some transportId →
    opensOf effects = [(state.epoch, transportId)] ∧ closesOf effects = []
  closing : ∀ epoch transportId reason, state = .closing epoch transportId reason →
    opensOf effects = [(epoch, transportId)] ∧ closesOf effects = [(epoch, transportId, reason)]
  closed : ∀ epoch reason, state = .closed epoch reason →
    (closesOf effects = [] ∧ (opensOf effects).length ≤ 1) ∨
      ∃ transportId, opensOf effects = [(epoch, transportId)] ∧
        closesOf effects = [(epoch, transportId, reason)]

/-- A live state is neither dormant nor closing nor closed. -/
theorem Transported.of_live (post : state.transport = some transportId)
    (ho : opensOf effects = [(state.epoch, transportId)]) (hc : closesOf effects = []) :
    Transported effects state where
  unopened dormant := by
    have hs := (phase_of_transport post).1
    rw [dormant] at hs
    exact absurd hs (lt_irrefl 0)
  live other same := by
    rw [post] at same
    cases same
    exact ⟨ho, hc⟩
  closing _ _ _ state := by
    rw [state] at post
    cases post
  closed _ _ state := by
    rw [state] at post
    cases post

theorem Transported.step {new : List ConnectionEffect} (ht : Transported effects m.state)
    (step : TransportStep m input state' new) : Transported (effects ++ new) state' := by
  cases step with
  | keeps ho hc hs =>
    obtain ⟨hun, hl, hcg, hcl⟩ := ht
    subst hs
    constructor <;> simpa [ho, hc]
  | carries ho hc e pre post _ =>
    obtain ⟨hop, hu⟩ := ht.live _ pre
    exact .of_live post (by simp [hop, ho, e]) (by simp [hu, hc])
  | opens hd _ e post ho hc =>
    obtain ⟨hun, hu⟩ := ht.unopened hd
    exact .of_live post (by simp [hun, ho, e]) (by simp [hu, hc])
  | closes hl hcg ho hc =>
    obtain ⟨hop, hu⟩ := ht.live _ hl
    subst hcg
    refine ⟨nofun, nofun, ?_, nofun⟩
    rintro _ _ _ ⟨⟩
    simp [hop, hu, ho, hc]
  | @ends reason ends hcl ho hc =>
    subst hcl
    refine ⟨nofun, nofun, nofun, ?_⟩
    rintro _ _ ⟨⟩
    simp only [opensOf_append, closesOf_append, ho, hc, append_nil]
    cases ends with
    | unstarted st =>
      obtain ⟨hun, hu⟩ := ht.unopened (by rw [st]; rfl)
      exact .inl ⟨hu, by simp [hun]⟩
    | unopened st =>
      obtain ⟨hop, hu⟩ := ht.live _ (by rw [st]; rfl)
      exact .inl ⟨hu, by simp [hop]⟩
    | lost hl =>
      obtain ⟨hop, hu⟩ := ht.live _ hl
      exact .inl ⟨hu, by simp [hop]⟩
    | closed st =>
      obtain ⟨hop, hcl⟩ := ht.closing _ _ _ st
      rw [st]
      exact .inr ⟨_, hop, hcl⟩

/-- However an epoch ended up, it opened at most one transport and closed at most one. -/
theorem Transported.atMostOnce (ht : Transported effects state) :
    (opensOf effects).length ≤ 1 ∧ (closesOf effects).length ≤ 1 := by
  have hl : ∀ transportId, state.transport = some transportId →
      (opensOf effects).length ≤ 1 ∧ (closesOf effects).length ≤ 1 := by
    intro transportId hh
    obtain ⟨ho, hu⟩ := ht.live transportId hh
    simp [ho, hu]
  cases state with
  | dormant epoch =>
    obtain ⟨hun, hu⟩ := ht.unopened rfl
    simp [hun, hu]
  | opening | negotiating | authenticating | active => exact hl _ rfl
  | closing =>
    obtain ⟨ho, hc⟩ := ht.closing _ _ _ rfl
    simp [ho, hc]
  | closed =>
    rcases ht.closed _ _ rfl with ⟨hu, once⟩ | ⟨transportId, ho, hc⟩
    · simp [hu, once]
    · simp [ho, hc]

/-! ## Draining -/

/-- A draining epoch has a call to wait for. -/
def DrainsSomething (state : StateData) : Prop :=
  ∀ connection, state = .active .draining connection → connection.pending.calls ≠ []

open ConnectionMachine in
theorem drainsSomething_step {d : Decision} (step : m.Step input state' session' d)
    (hg : DrainsSomething m.state) : DrainsSomething state' := by
  cases step with
  | kept | rearmed => exact hg
  | marks st _ timers =>
    rintro _ ⟨⟩ empty
    have pre := hg _ st
    rw [empty] at timers
    simp_all
  | settles st _ _ _ left =>
    rintro _ ⟨⟩
    exact left rfl
  | drains _ left =>
    rintro _ ⟨⟩
    exact left
  | exhausted | opens | negotiates | handshakes | exchanges | authenticated | negotiated | submits
  | closes | ends => nofun

/-! ## Every run -/

theorem transported_run (initial : m.Initial) (is : List ConnectionInput) :
    Transported (effectsOf (m.run is)) (m.after is).state ∧ DrainsSomething (m.after is).state := by
  refine (step_induction
    (P := fun past m => Transported (effectsOf past) m.state ∧ DrainsSomething m.state)
    initial.inStep ?_ ?_ ?_ is).2
  · cases initial <;> exact ⟨⟨fun _ => ⟨rfl, rfl⟩, nofun, nofun, nofun⟩, nofun⟩
  · rintro past m₁ i err - hg
    simpa [effectsOf_concat, ConnectionEvent.effects] using hg
  · rintro past m₁ i m₂ tr - hm ⟨ht, hd⟩
    rw [effectsOf_concat]
    exact ⟨ht.step (transportStep hm.step), drainsSomething_step hm.step hd⟩

/-- Each step of a run, with what the effects before it tell. -/
theorem transportStep_of_split (initial : m.Initial) {is : List ConnectionInput}
    {past rest : List ConnectionEvent} {e : ConnectionEvent}
    (split : m.run is = past ++ e :: rest) :
    Transported (effectsOf past) e.before.state ∧
      TransportStep e.before e.input e.after.state e.effects := by
  obtain ⟨pre, i, rfl, rfl⟩ := of_trace_eq_append_cons _ split
  refine ⟨(transported_run initial pre).1, ?_⟩
  rcases ConnectionMachine.apply_moves (initial.inStep_after pre) i with
    ⟨error, failed⟩ | ⟨m', transition, applied, moves⟩
  · rw [ConnectionMachine.after] at failed
    simp only [event, failed, ConnectionEvent.effects]
    exact .keeps rfl rfl rfl
  · rw [ConnectionMachine.after] at applied moves
    simp only [event, applied, ConnectionEvent.effects]
    exact transportStep moves.step

/-- A matching failure to open, or a matching loss of the transport. -/
def ConnectionEvent.LosesTransport (e : ConnectionEvent) : Prop :=
  (∃ epoch effectId transportId timer deadline failure,
    e.before.state = .opening epoch effectId transportId timer deadline ∧
    e.input = .transportOpenFailed epoch effectId transportId failure) ∨
  ∃ transportId failure, e.before.state.transport = some transportId ∧
    e.input = .transportClosed e.before.state.epoch transportId failure

/-- The life of one epoch's transport. -/
structure Lifecycle (run : List ConnectionEvent) (state : StateData) : Prop where
  opensOnce : (opensOf (effectsOf run)).length ≤ 1
  closesOnce : (closesOf (effectsOf run)).length ≤ 1
  /-- What is closed was opened by an earlier step, in the same epoch. -/
  closesOpened : ∀ past e rest, run = past ++ e :: rest → ∀ epoch transportId reason,
    (epoch, transportId, reason) ∈ closesOf e.effects →
    (epoch, transportId) ∈ opensOf (effectsOf past)
  /-- The phase never moves backwards. -/
  forward : ∀ e ∈ run, e.before.state.phase.rank ≤ e.after.state.phase.rank
  entersClosing : ∀ e ∈ run, (e.before.state.phase ≠ .closing ∧ e.after.state.phase = .closing) ↔
    closesOf e.effects ≠ []
  /-- An epoch that ends without having closed its transport has lost it. -/
  endsByLoss : ∀ past e rest, run = past ++ e :: rest → e.before.state.phase ≠ .dormant →
    e.before.state.phase ≠ .closed → e.after.state.phase = .closed →
    closesOf (effectsOf past) = [] → e.LosesTransport
  /-- The reason a transport was closed for is the reason the epoch keeps. -/
  reasonKept : ∀ epoch transportId reason,
    (epoch, transportId, reason) ∈ closesOf (effectsOf run) →
    state = .closing epoch transportId reason ∨ state = .closed epoch reason
  drainsSomething : DrainsSomething state

/-- Every run opens its transport at most once, closes it at most once and never strands it. -/
theorem transport_lifecycle (initial : m.Initial) (inputs : List ConnectionInput) :
    Lifecycle (m.run inputs) (m.after inputs).state := by
  obtain ⟨ht, hd⟩ := transported_run initial inputs
  have hst : ∀ e ∈ m.run inputs, TransportStep e.before e.input e.after.state e.effects := by
    intro e mem
    obtain ⟨past, rest, split⟩ := append_of_mem mem
    exact (transportStep_of_split initial split).2
  refine ⟨ht.atMostOnce.1, ht.atMostOnce.2, ?_, fun e mem => (hst e mem).rank_le,
    fun e mem => (hst e mem).enters_closing, ?_, ?_, hd⟩
  · intro past e rest split epoch transportId reason hc
    obtain ⟨pre, step⟩ := transportStep_of_split initial split
    cases step with
    | closes hl _ _ hcl =>
      rw [hcl, mem_singleton] at hc
      cases hc
      rw [(pre.live _ hl).1]
      exact mem_singleton.2 rfl
    | keeps _ hu | carries _ hu | opens _ _ _ _ _ hu | ends _ _ _ hu =>
      rw [hu] at hc
      cases hc
  · intro past e rest split hs unclosed he hu
    obtain ⟨pre, step⟩ := transportStep_of_split initial split
    cases step with
    | keeps _ _ same =>
      rw [same] at he
      exact absurd he unclosed
    | carries _ _ _ _ post =>
      have hl := (phase_of_transport post).2
      rw [he] at hl
      simp [ConnectionPhase.rank] at hl
    | opens _ ho =>
      rw [ho] at he
      cases he
    | closes _ hcg =>
      rw [hcg] at he
      cases he
    | ends ends =>
      generalize asked : e.input = input at ends
      cases ends with
      | unstarted state =>
        rw [state] at hs
        exact absurd rfl hs
      | unopened state => exact .inl ⟨_, _, _, _, _, _, state, asked⟩
      | lost hl => exact .inr ⟨_, _, hl, asked⟩
      | closed state =>
        have hcl := (pre.closing _ _ _ state).2
        rw [hu] at hcl
        cases hcl
  · intro epoch transportId reason hc
    generalize (m.after inputs).state = state at ht ⊢
    have hu : closesOf (effectsOf (m.run inputs)) ≠ [] := ne_nil_of_mem hc
    cases state with
    | dormant => exact absurd (ht.unopened rfl).2 hu
    | opening | negotiating | authenticating | active =>
      exact absurd (ht.live _ rfl).2 hu
    | closing =>
      rw [(ht.closing _ _ _ rfl).2, mem_singleton] at hc
      cases hc
      exact .inl rfl
    | closed =>
      rcases ht.closed _ _ rfl with ⟨missing, -⟩ | ⟨_, -, hcl⟩
      · exact absurd missing hu
      · rw [hcl, mem_singleton] at hc
        cases hc
        exact .inr rfl

/-- Two calls, one answered, and a drain that waits for the other. -/
def drainedCalls : List ConnectionInput :=
  twoCalls.take 7 ++ [.beginDrain, .writeSubmitted ⟨1⟩ ⟨0⟩ ⟨3⟩, .responseReceived ⟨1⟩ ⟨0⟩ ⟨1⟩,
    .transportClosed ⟨1⟩ ⟨0⟩ .reset]

theorem transport_lifecycle_drainedCalls :
    let m := new ⟨1⟩ smallLimits
    closesOf (effectsOf (m.run drainedCalls)) = [(⟨1⟩, ⟨0⟩, .drained)] ∧
      (m.after drainedCalls).state = .closed ⟨1⟩ .drained ∧
      Lifecycle (m.run drainedCalls) (m.after drainedCalls).state :=
  ⟨by decide +kernel, by decide +kernel, transport_lifecycle (.plain ⟨1⟩ smallLimits) _⟩

end KafkaDriver
