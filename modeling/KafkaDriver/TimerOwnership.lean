import KafkaDriver.CallSettlement
import Mathlib.Data.Finset.Dedup

/-!
# Deadline timers never outlive their owner

The effects of a run arm and disarm timers, and an input that reports an expiry takes its
timer away. `armedOf` folds a run into the set of timers left armed. It is the set of timers
the state owns : the one of the stage an epoch waits in, one for each pending call of an
active epoch, and none before the start and after the end (`armed_eq_owned`).

The expiry of a SASL timer may come wrapped as an input of the authentication child. Outside
the authentication such an input is stale whatever timer it names, so the law is about runs
that report only the child's timer that way (`Routed`); `wrapped_expiry_forgets` is one that
does not.
-/

namespace KafkaDriver

open Connection Runs List AuthenticationMachine ConnectionMachine

/-! ## Armed timers -/

/-- The armed timers once an effect has been carried out. -/
def ConnectionEffect.carry (armed : Finset TimerId) (f : ConnectionEffect) : Finset TimerId :=
  match f.arms, f.disarms with
  | some timer, _ => insert timer armed
  | none, some timer => armed.erase timer
  | none, none => armed

/-- The armed timers once the expiry an input reports to an epoch is accounted for. -/
def ConnectionInput.expire (input : ConnectionInput) (epoch : ConnectionEpoch)
    (armed : Finset TimerId) : Finset TimerId :=
  match input.fired with
  | some (reported, timer) => if reported = epoch then armed.erase timer else armed
  | none => armed

namespace ConnectionEvent

/-- The armed timers after one step; an input the machine answers with an error is none. -/
def armedAfter (armed : Finset TimerId) (e : ConnectionEvent) : Finset TimerId :=
  match e.answer with
  | .ok transition =>
    transition.effects.foldl ConnectionEffect.carry (e.input.expire e.before.state.epoch armed)
  | .error _ => armed

/-- An expiry wrapped for the child is not of a timer that another stage owns. -/
def Routed (e : ConnectionEvent) : Prop :=
  ∀ timer, e.input.kind = .authentication →
    e.input.fired = some (e.before.state.epoch, timer) →
    e.before.state.phase ≠ .authenticating → timer ∉ e.before.state.timers

end ConnectionEvent

/-- The timers a run leaves armed. -/
def armedOf (run : List ConnectionEvent) : Finset TimerId :=
  run.foldl ConnectionEvent.armedAfter ∅

theorem armedOf_concat (run : List ConnectionEvent) (e : ConnectionEvent) :
    armedOf (run ++ [e]) = e.armedAfter (armedOf run) := by
  simp [armedOf]

/-! ## Folding effects -/

theorem isSettling_arms {f : ConnectionEffect} (hs : f.isSettling = true) : f.arms = none := by
  unfold ConnectionEffect.isSettling at hs
  split at hs
  all_goals first | rfl | cases hs

variable {effs : List ConnectionEffect} {input : ConnectionInput} {epoch : ConnectionEpoch}

/-- Effects that arm nothing leave what they do not disarm. -/
theorem foldl_carry (hu : ∀ f ∈ effs, f.arms = none) (armed : Finset TimerId) :
    effs.foldl ConnectionEffect.carry armed =
      armed \ (effs.filterMap ConnectionEffect.disarms).toFinset := by
  induction effs generalizing armed with
  | nil => simp
  | cons f effs ih =>
    have rest := ih (fun g mem => hu g (mem_cons_of_mem _ mem))
    have first : f.arms = none := hu f mem_cons_self
    rw [foldl_cons, rest]
    cases disarmed : f.disarms with
    | none => simp [ConnectionEffect.carry, first, disarmed, filterMap_cons_none disarmed]
    | some t =>
      rw [filterMap_cons_some disarmed]
      ext other
      simp only [ConnectionEffect.carry, first, disarmed, Finset.mem_sdiff, Finset.mem_erase,
        toFinset_cons, Finset.mem_insert, mem_toFinset]
      tauto

theorem expire_of_unfired (hu : input.fired = none) (e : ConnectionEpoch)
    (armed : Finset TimerId) : input.expire e armed = armed := by
  simp [ConnectionInput.expire, hu]

theorem expire_of_fired {timer : TimerId} (hf : input.fired = some (epoch, timer))
    (armed : Finset TimerId) : input.expire epoch armed = armed.erase timer := by
  simp [ConnectionInput.expire, hf]

/-- An expiry of no armed timer changes nothing. -/
theorem expire_of_unarmed {armed : Finset TimerId}
    (hu : ∀ t, input.fired = some (epoch, t) → t ∉ armed) :
    input.expire epoch armed = armed := by
  unfold ConnectionInput.expire
  split
  · rename_i rep t hf
    split_ifs with hs
    · subst hs
      exact Finset.erase_eq_of_notMem (hu t hf)
    · rfl
  · rfl

/-- Nothing is left armed once every timer has been disarmed or has expired. -/
theorem foldl_carry_expire_eq_empty {owned : List TimerId} (hu : ∀ f ∈ effs, f.arms = none)
    (hc : ∀ t ∈ owned, t ∈ effs.filterMap ConnectionEffect.disarms ∨
      input.fired = some (epoch, t)) :
    effs.foldl ConnectionEffect.carry (input.expire epoch owned.toFinset) = ∅ := by
  rw [foldl_carry hu, Finset.sdiff_eq_empty_iff_subset]
  intro t mem
  have ho : t ∈ owned := by
    unfold ConnectionInput.expire at mem
    split at mem
    · split_ifs at mem
      · exact mem_toFinset.1 (Finset.mem_of_mem_erase mem)
      · exact mem_toFinset.1 mem
    · exact mem_toFinset.1 mem
  rcases hc t ho with hd | hf
  · exact mem_toFinset.2 hd
  · rw [expire_of_fired hf] at mem
    exact absurd rfl (Finset.ne_of_mem_erase mem)

/-! ## One step -/

open ConnectionMachine in
/-- A step leaves armed what the next state owns. -/
theorem armed_step {m : ConnectionMachine} {st' : StateData} {session' : KafkaSessionMachine}
    {d : Decision} (step : m.Step input st' session' d) (hn : m.state.timers.Nodup)
    (hro : ∀ timer, input.kind = .authentication →
      input.fired = some (m.state.epoch, timer) → m.state.phase ≠ .authenticating →
      timer ∉ m.state.timers) :
    d.effects.foldl ConnectionEffect.carry
        (input.expire m.state.epoch m.state.timers.toFinset) = st'.timers.toFinset ∧
      st'.timers.Nodup := by
  cases step with
  | kept hr hud =>
    refine ⟨?_, hn⟩
    have hun : ∀ timer, input.fired = some (m.state.epoch, timer) →
        timer ∉ m.state.timers.toFinset := by
      intro timer hf ho
      have ho := mem_toFinset.1 ho
      obtain ⟨hw, elsewhere⟩ := hud timer hf ho
      exact hro timer hw hf elsewhere ho
    rw [expire_of_unarmed hun]
    rcases hr with rfl | rfl | ⟨cid, err, rfl⟩ <;> rfl
  | exhausted st hu =>
    rw [st] at hn ⊢
    rw [expire_of_unfired hu]
    exact ⟨rfl, hn⟩
  | @rearmed _ timer effect hf ho ha =>
    refine ⟨?_, hn⟩
    rw [expire_of_fired hf]
    simp only [Decision.applied, foldl_cons, foldl_nil, ConnectionEffect.carry, ha]
    exact Finset.insert_erase (mem_toFinset.2 ho)
  | opens st =>
    rw [st]
    exact ⟨rfl, nodup_singleton _⟩
  | @negotiates _ _ _ timer _ a st =>
    refine ⟨?_, nodup_singleton _⟩
    rw [st, expire_of_unfired rfl]
    simp [Decision.applied, ConnectionEffect.carry, ConnectionEffect.arms,
      ConnectionEffect.disarms, StateData.timers]
  | @handshakes _ _ _ timer _ _ a _ _ st _ =>
    refine ⟨?_, nodup_singleton _⟩
    rw [st, expire_of_unfired rfl]
    simp [Decision.applied, ConnectionEffect.carry, ConnectionEffect.arms,
      ConnectionEffect.disarms, StateData.timers, deadlineTimer]
  | @exchanges _ _ _ child q _ _ timer _ st exchanges =>
    have ho : child.deadlineTimer = some timer := by
      cases exchanges with
      | first hg | next hg => simp [deadlineTimer, hg]
    have hu : (ConnectionInput.authentication q).fired = none := by
      cases exchanges <;> rfl
    refine ⟨?_, nodup_singleton _⟩
    rw [expire_of_unfired hu, st]
    change _ = [timer].toFinset
    simp [Decision.applied, ConnectionEffect.carry, ConnectionEffect.arms,
      ConnectionEffect.disarms, exchangeEffect, StateData.timers, ho]
  | @authenticated _ _ _ child _ _ timer _ st he =>
    refine ⟨?_, nodup_nil⟩
    rw [expire_of_unfired rfl, st]
    simp [Decision.applied, ConnectionEffect.carry, ConnectionEffect.arms,
      ConnectionEffect.disarms, StateData.timers, deadlineTimer, he,
      ActiveConnection.new, PendingQueue.new]
  | negotiated st =>
    refine ⟨?_, nodup_nil⟩
    rw [expire_of_unfired rfl, st]
    simp [Decision.applied, ConnectionEffect.carry, ConnectionEffect.arms,
      ConnectionEffect.disarms, StateData.timers, ActiveConnection.new, PendingQueue.new]
  | @submits conn _ _ _ _ timer _ _ st fresh =>
    rw [st] at hn ⊢
    rw [expire_of_unfired rfl]
    constructor
    · ext other
      simp [Decision.applied, ConnectionEffect.carry, ConnectionEffect.arms,
        ConnectionEffect.disarms, StateData.timers, PendingQueue.push, PendingCall.new]
    · simp only [StateData.timers, PendingQueue.push, map_append, map_cons, map_nil]
      refine List.Nodup.append hn (nodup_singleton _) ?_
      simpa [PendingCall.new] using fresh
  | marks st hu timers =>
    rw [st] at hn ⊢
    rw [expire_of_unfired hu]
    simp only [StateData.timers] at hn ⊢
    rw [timers]
    exact ⟨rfl, hn⟩
  | @settles _ _ _ pre call post pend effect st hu cs rest _ hs disarms =>
    rw [st] at hn ⊢
    rw [expire_of_unfired hu]
    simp only [StateData.timers, cs, rest, map_append, map_cons] at hn ⊢
    have hm := nodup_middle.1 hn
    refine ⟨?_, (nodup_cons.1 hm).2⟩
    have hab : call.deadlineTimer ∉ pre.map PendingCall.deadlineTimer ++
        post.map PendingCall.deadlineTimer := (nodup_cons.1 hm).1
    simp only [Decision.applied, foldl_cons, foldl_nil, ConnectionEffect.carry,
      isSettling_arms hs, disarms]
    ext other
    simp only [ConnectionEffect.arms, ConnectionEffect.disarms_cancelDeadline, Finset.mem_erase,
      mem_toFinset, mem_append, mem_cons]
    rw [mem_append] at hab
    constructor
    · tauto
    · intro mem
      refine ⟨?_, by tauto⟩
      rintro rfl
      exact hab mem
  | drains st =>
    rw [st] at hn ⊢
    exact ⟨rfl, hn⟩
  | closes hl once hc =>
    refine ⟨foldl_carry_expire_eq_empty (fun f mem => ?_) hc, nodup_nil⟩
    rcases ConnectionEffect.isSettling_or_eq once mem with hs | rfl
    · exact isSettling_arms hs
    · rfl
  | ends _ hs hc =>
    exact ⟨foldl_carry_expire_eq_empty (fun f mem => isSettling_arms (hs f mem))
      fun timer ho => .inl (hc timer ho), nodup_nil⟩

/-! ## Every run -/

/-- The timers left armed are those the state owns, each once. -/
structure OwnsArmed (run : List ConnectionEvent) (state : StateData) : Prop where
  armed : armedOf run = state.timers.toFinset
  once : state.timers.Nodup

/-- In every run that reports expiries where they belong, the armed timers are those that the
state reached owns. -/
theorem armed_eq_owned {m : ConnectionMachine} (initial : m.Initial)
    (inputs : List ConnectionInput) (routed : ∀ e ∈ m.run inputs, e.Routed) :
    OwnsArmed (m.run inputs) (m.after inputs).state := by
  refine (step_induction
    (P := fun past m => (∀ e ∈ past, e.Routed) → OwnsArmed past m.state) initial.inStep ?_ ?_ ?_
    inputs).2 routed
  · intro _
    cases initial <;> exact ⟨rfl, nodup_nil⟩
  · intro past m₁ input error _ hh rts
    obtain ⟨ha, once⟩ := hh fun e mem => rts e (mem_append_left _ mem)
    refine ⟨?_, once⟩
    rw [armedOf_concat, ha]
    rfl
  · intro past m₁ input m₂ tr _ hm hh rts
    obtain ⟨ha, once⟩ := hh fun e mem => rts e (mem_append_left _ mem)
    have here := rts _ (mem_append_right _ (mem_singleton.2 rfl))
    obtain ⟨ha', once'⟩ := armed_step hm.step once here
    refine ⟨?_, once'⟩
    rw [armedOf_concat, ha]
    exact ha'

theorem armed_eq_owned_twoCalls :
    let m := new ⟨1⟩ smallLimits
    armedOf (m.run (twoCalls.take 5)) = {⟨2⟩, ⟨3⟩} ∧
      OwnsArmed (m.run (twoCalls.take 5)) (m.after (twoCalls.take 5)).state := by
  refine ⟨by decide +kernel, armed_eq_owned (.plain ⟨1⟩ smallLimits) _ fun e mem => ?_⟩
  have hu : ∀ input ∈ twoCalls.take 5, input.kind ≠ .authentication := by decide
  intro timer hw
  exact absurd hw (hu e.input (input_mem _ mem))

/-! ## An expiry that nobody hears -/

/-- The timer an input brings along. -/
def ConnectionInput.supplies : ConnectionInput → Option TimerId
  | .start _ _ timer _ | .submit _ _ timer _ _ => some timer
  | .transportOpened _ _ _ attempt => some attempt.deadlineTimer
  | .apiVersionsNegotiatedWithAuthentication _ _ _ _ attempt
  | .authentication (.start attempt) => some attempt.deadlineTimer
  | _ => none

/-- The timer of an opening epoch, reported as if it were the child's. -/
def wrappedExpiry : List ConnectionInput :=
  [.start ⟨0⟩ ⟨0⟩ ⟨1⟩ ⟨10⟩, .authentication (.deadlineElapsed ⟨1⟩ ⟨1⟩ ⟨0⟩)]

/-- The epoch still owns its timer, and no timer is armed any more. -/
theorem wrapped_expiry_forgets :
    let m := new ⟨1⟩ smallLimits
    (wrappedExpiry.filterMap ConnectionInput.supplies).Nodup ∧
      (m.after wrappedExpiry).state.phase = .opening ∧
      (m.after wrappedExpiry).state.timers = [⟨1⟩] ∧ armedOf (m.run wrappedExpiry) = ∅ := by
  decide +kernel

end KafkaDriver
