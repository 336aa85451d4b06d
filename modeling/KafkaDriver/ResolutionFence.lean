import KafkaDriver.BrokerResolution
import KafkaDriver.Runs

/-!
# Results of a broker resolution are fenced to the latest start

A start that is applied is newer than every start applied before, in the generation of its
route and strictly in its epoch. The request in flight is the latest of them, so that a result
is that start's own : it carries its identities, it was asked for by them, and none was given
since it started (`results_fenced`).
-/

namespace KafkaDriver

open Runs List

/-- The identities of a start. -/
structure ResolutionStart where
  route : BrokerRoute
  endpoint : BrokerEndpoint
  epoch : ConnectionEpoch
  effectId : EffectId

abbrev ResolutionEvent :=
  Event BrokerResolutionMachine BrokerResolutionInput BrokerResolutionTransition

/-- The start that a step applied. -/
def ResolutionEvent.started (e : ResolutionEvent) : Option ResolutionStart :=
  match e.input with
  | .start route endpoint epoch effectId =>
    if e.answer.disposition = .applied then some ⟨route, endpoint, epoch, effectId⟩ else none
  | .resolutionCompleted _ => none

namespace BrokerResolutionEffect

/-- The route that an effect names. -/
def route : BrokerResolutionEffect → Option BrokerRoute
  | .resolve _ => none
  | .resolved route _ _ _ | .failed route _ => some route

/-- `effect` is a result of the start `s`. -/
def ResultOf (s : ResolutionStart) : BrokerResolutionEffect → Prop
  | .resolve _ => False
  | .resolved route epoch endpoint _ => route = s.route ∧ epoch = s.epoch ∧ endpoint = s.endpoint
  | .failed route _ => route = s.route

theorem ResultOf.route_eq {s : ResolutionStart} {effect : BrokerResolutionEffect}
    (h : effect.ResultOf s) : effect.route = some s.route := by
  cases effect with
  | resolve => exact h.elim
  | resolved => exact congrArg some h.1
  | failed => exact congrArg some h

end BrokerResolutionEffect

/-- A step that gives a result. -/
def ResolutionEvent.Concludes (e : ResolutionEvent) : Prop :=
  ∃ effect ∈ e.answer.effects, effect.route.isSome

/-- The start `s` is the latest, and no result was given since. -/
def Outstanding (s : ResolutionStart) : List ResolutionEvent → Prop :=
  Since (fun _ e => e.started = some s) fun e => e.started.isSome ∨ e.Concludes

/-- What a step may do after the steps `past`. -/
structure FencedStep (broker : BrokerId) (past : List ResolutionEvent) (e : ResolutionEvent) :
    Prop where
  newest : ∀ s, e.started = some s → s.route.brokerId = broker ∧
    ∀ a ∈ past.filterMap ResolutionEvent.started,
      a.route.generation ≤ s.route.generation ∧ a.epoch < s.epoch
  /-- A result is that of the latest start, whose outcome it follows. -/
  result : ∀ effect ∈ e.answer.effects, effect.route.isSome → ∃ s out, Outstanding s past ∧
    effect.ResultOf s ∧ e.input = .resolutionCompleted out ∧ out.epoch = s.epoch ∧
      out.effectId = s.effectId
  /-- A request is that of the start it is made for. -/
  request : ∀ req, .resolve req ∈ e.answer.effects →
    ∃ s, e.started = some s ∧ req = ⟨s.epoch, s.effectId, s.endpoint⟩
  single : e.answer.effects.length ≤ 1
  owned : ∀ effect ∈ e.answer.effects, ∀ route ∈ effect.route, route.brokerId = broker
  unchanged : e.answer.disposition ≠ .applied → e.after = e.before ∧ e.answer.effects = []

namespace BrokerResolutionMachine

/-! ## One step -/

/-- What one input can do. -/
inductive Step (m : BrokerResolutionMachine) : BrokerResolutionInput →
    BrokerResolutionMachine × BrokerResolutionTransition → Prop
  | kept (input) {disp : BrokerResolutionDisposition} (unapplied : disp ≠ .applied) :
      Step m input (m, ⟨[], disp⟩)
  | starts (s : ResolutionStart) (own : s.route.brokerId = m.brokerId)
      (newer : ∀ rt e, m.state.currentIdentity = some (rt, e) →
        rt.generation ≤ s.route.generation ∧ e < s.epoch) :
      Step m (.start s.route s.endpoint s.epoch s.effectId)
        (m.begin s.route s.endpoint s.epoch s.effectId)
  | concludes {s : ResolutionStart} {out : DnsOutcome} {st : BrokerResolutionState}
      {effect : BrokerResolutionEffect}
      (flight : m.state = .resolving s.route s.endpoint s.epoch s.effectId)
      (epoch : out.epoch = s.epoch) (effectId : out.effectId = s.effectId)
      (result : effect.ResultOf s) (identity : st.currentIdentity = some (s.route, s.epoch))
      (idle : ∀ rt ep e fx, st ≠ .resolving rt ep e fx) :
      Step m (.resolutionCompleted out) ({ m with state := st }, ⟨[effect], .applied⟩)

theorem apply_step (m : BrokerResolutionMachine) (i : BrokerResolutionInput) :
    m.Step i (m.apply i) := by
  cases i with
  | start rt ep e fx =>
    change m.Step _ (m.start rt ep e fx)
    unfold start
    split_ifs with ho
    · exact .kept _ (by simp)
    have own := not_not.1 ho
    split
    · rename_i idle
      exact .starts ⟨rt, ep, e, fx⟩ own fun rt' e' held => by rw [idle] at held; cases held
    rename_i rt' e' cur
    split_ifs with old hs
    · exact .kept _ (by simp)
    · exact .kept _ (by simp)
    · obtain ⟨gen, epoch⟩ := not_or.1 old
      refine .starts ⟨rt, ep, e, fx⟩ own fun rt₁ e₁ cur' => ?_
      obtain ⟨rfl, rfl⟩ := Prod.mk.inj (Option.some.inj (cur.symm.trans cur'))
      exact ⟨not_lt.1 gen, lt_of_le_of_ne (not_lt.1 epoch) (Ne.symm hs)⟩
  | resolutionCompleted out =>
    change m.Step _ (m.complete out)
    unfold complete
    split
    · rename_i rt ep e fx hf
      split_ifs with ho
      · exact .kept _ (by simp)
      obtain ⟨epoch, effectId⟩ := not_or.1 ho
      split
      · exact .concludes (s := ⟨rt, ep, e, fx⟩) hf (not_not.1 epoch) (not_not.1 effectId)
          ⟨rfl, rfl, rfl⟩ rfl (by simp)
      · exact .concludes (s := ⟨rt, ep, e, fx⟩) hf (not_not.1 epoch) (not_not.1 effectId)
          rfl rfl (by simp)
    · exact .kept _ (by simp)

/-! ## Runs -/

/-- What the steps taken say of the machine they reach. -/
structure Tracks (broker : BrokerId) (past : List ResolutionEvent)
    (m : BrokerResolutionMachine) : Prop where
  own : m.brokerId = broker
  newest : ∀ a ∈ past.filterMap ResolutionEvent.started, ∃ rt e,
    m.state.currentIdentity = some (rt, e) ∧ a.route.generation ≤ rt.generation ∧ a.epoch ≤ e
  flight : ∀ rt ep e fx, m.state = .resolving rt ep e fx →
    rt.brokerId = broker ∧ Outstanding ⟨rt, ep, e, fx⟩ past

variable {broker : BrokerId} {past : List ResolutionEvent} {m : BrokerResolutionMachine}

/-- A machine that tracks its history takes a fenced step, and tracks it still. -/
theorem Tracks.step (h : Tracks broker past m) {input} {res} (step : m.Step input res) :
    FencedStep broker past ⟨m, input, res.1, res.2⟩ ∧
      Tracks broker (past ++ [⟨m, input, res.1, res.2⟩]) res.1 := by
  cases step with
  | @kept _ disp hu =>
    have hs : ResolutionEvent.started ⟨m, input, m, ⟨[], disp⟩⟩ = none := by
      cases input <;> simp [ResolutionEvent.started, hu]
    refine ⟨⟨by simp [hs], by simp, by simp, by simp, by simp, by simp⟩, h.own, ?_, ?_⟩
    · simpa [filterMap_append, hs] using h.newest
    · intro rt ep e fx hf
      refine (h.flight rt ep e fx hf).imp_right fun hsi => since_concat.2 (.inr ⟨hsi, ?_⟩)
      simp [hs, ResolutionEvent.Concludes]
  | starts s own hn =>
    have now : ResolutionEvent.started ⟨m, .start s.route s.endpoint s.epoch s.effectId,
        (m.begin s.route s.endpoint s.epoch s.effectId).1,
        (m.begin s.route s.endpoint s.epoch s.effectId).2⟩ = some s := rfl
    have ha : ∀ a ∈ past.filterMap ResolutionEvent.started,
        a.route.generation ≤ s.route.generation ∧ a.epoch < s.epoch := by
      intro a mem
      obtain ⟨rt, e, cur, gen, epoch⟩ := h.newest a mem
      obtain ⟨generation', epoch'⟩ := hn rt e cur
      exact ⟨gen.trans generation', epoch.trans_lt epoch'⟩
    refine ⟨⟨?_, by simp [begin, BrokerResolutionEffect.route], ?_, le_rfl,
      by simp [begin, BrokerResolutionEffect.route], fun ne => absurd rfl ne⟩, h.own, ?_, ?_⟩
    · intro s' eq
      obtain rfl := Option.some.inj (now.symm.trans eq)
      exact ⟨own.trans h.own, ha⟩
    · intro req mem
      exact ⟨s, now, by simpa [begin] using mem⟩
    · intro a mem
      refine ⟨s.route, s.epoch, rfl, ?_⟩
      rw [filterMap_append, mem_append] at mem
      rcases mem with old | new
      · exact (ha a old).imp_right le_of_lt
      · obtain rfl : a = s := by simpa [now] using new
        exact ⟨le_rfl, le_rfl⟩
    · rintro rt ep e fx ⟨⟩
      exact ⟨own.trans h.own, since_concat.2 (.inl now)⟩
  | @concludes s out st effect hf epoch effectId result x hi =>
    obtain ⟨own, hsi⟩ := h.flight _ _ _ _ hf
    have ho : ∀ f ∈ [effect], f.ResultOf s := by simpa using result
    refine ⟨⟨by simp [ResolutionEvent.started], ?_, ?_, le_rfl, ?_, fun ne => absurd rfl ne⟩,
      h.own, ?_, ?_⟩
    · intro f mem _
      exact ⟨s, out, hsi, ho f mem, rfl, epoch, effectId⟩
    · intro req mem
      exact (ho _ mem).elim
    · intro f mem rt hna
      rw [(ho f mem).route_eq] at hna
      obtain rfl := Option.some.inj hna
      exact own
    · intro a mem
      rw [filterMap_append, mem_append] at mem
      rcases mem with old | new
      · obtain ⟨rt, e, cur, hn⟩ := h.newest a old
        rw [hf] at cur
        exact ⟨rt, e, x.trans cur, hn⟩
      · cases new
    · intro rt ep e fx hb
      exact absurd hb (hi rt ep e fx)

theorem tracks_run (broker : BrokerId) (is : List BrokerResolutionInput) :
    Tracks broker (trace apply (new broker) is) (final apply (new broker) is) :=
  run_induction apply (P := fun _ past m => Tracks broker past m) ⟨rfl, by simp, by simp [new]⟩
    (fun _ i h => (h.step (apply_step _ i)).2) is

/-- Over the applied starts of any run generations never decrease and epochs strictly increase.
Every result carries the identities of the latest applied start, follows an outcome with its
epoch and effect id, and is the only one since that start. No effect names another broker, and
an input that is not applied changes nothing. -/
theorem results_fenced (broker : BrokerId) (inputs : List BrokerResolutionInput) :
    ((trace apply (new broker) inputs).filterMap ResolutionEvent.started).Pairwise (fun a b =>
      a.route.generation ≤ b.route.generation ∧ a.epoch < b.epoch) ∧
    ∀ past e rest, trace apply (new broker) inputs = past ++ e :: rest →
      FencedStep broker past e := by
  have hf : ∀ past e rest, trace apply (new broker) inputs = past ++ e :: rest →
      FencedStep broker past e := by
    intro past e rest split
    obtain ⟨js, i, rfl, rfl⟩ := of_trace_eq_append_cons apply split
    exact ((tracks_run broker js).step (apply_step _ i)).1
  refine ⟨?_, hf⟩
  generalize trace apply (new broker) inputs = run at hf
  induction run using reverseRecOn with
  | nil => exact .nil
  | append_singleton past e ih =>
    rw [filterMap_append, pairwise_append]
    refine ⟨ih fun pre x rest split => hf pre x (rest ++ [e]) (by simp [split]), ?_, ?_⟩
    · cases now : ResolutionEvent.started e <;> simp [now]
    · intro a mem b last
      have now : ResolutionEvent.started e = some b := by simpa using last
      exact ((hf past e [] rfl).newest b now).2 a mem

end BrokerResolutionMachine

end KafkaDriver
