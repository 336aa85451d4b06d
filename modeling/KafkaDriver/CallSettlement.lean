import KafkaDriver.ConnectionSteps

/-!
# Every call is settled exactly once

A run of a connection machine is the list of its events (`ConnectionMachine.run`). Three
multisets of call identities are read off it : the calls whose submission succeeded, the
calls a terminal effect names, and the calls still pending. One step moves a call between
them and never drops or copies one, so over a run the first is the sum of the other two
(`settled_append_pending_perm`). With distinct submissions this is the exactly-once law.
-/

namespace KafkaDriver

open Connection Runs List ConnectionMachine

/-- What an event does to the call queue : one step, or nothing if the input failed. -/
theorem ConnectionEvent.queueStep {m : ConnectionMachine} (hi : m.InStep) (i : ConnectionInput) :
    let x : ConnectionEvent := event apply m i
    (∃ tr, x.answer = .ok tr ∧
      m.callQueue.Step i tr.record.disposition (callEffects tr.effects) x.after.callQueue) ∨
    ((∃ err, x.answer = .error err) ∧ x.after = m) := by
  dsimp only [event]
  rcases apply_moves hi i with ⟨err, hf⟩ | ⟨m', tr, ha, hm⟩
  · rw [hf]
    exact .inr ⟨⟨err, rfl⟩, rfl⟩
  · rw [ha]
    exact .inl ⟨tr, rfl, hm.queue⟩

/-! ## The three multisets -/

/-- The call a terminal effect settles. -/
def ConnectionEffect.settles : ConnectionEffect → Option CallId
  | .completeResponse callId _ => some callId
  | .failCall callId _ _ => some callId
  | _ => none

def CallEffect.settles : CallEffect → Option CallId
  | .write .. => none
  | .complete callId _ => some callId
  | .fail callId _ _ => some callId

/-- Calls named by the terminal effects of a run, with repetition. -/
def settledCalls (t : List ConnectionEvent) : List CallId :=
  t.flatMap fun x => x.effects.filterMap ConnectionEffect.settles

/-- Calls whose submission succeeded in a run. -/
def submittedCalls (t : List ConnectionEvent) : List CallId :=
  t.filterMap ConnectionEvent.submitted

def CallQueue.callIds (q : CallQueue) : List CallId := q.calls.map PendingCall.callId

theorem filterMap_settles (effs : List ConnectionEffect) :
    effs.filterMap ConnectionEffect.settles = (callEffects effs).filterMap CallEffect.settles := by
  rw [callEffects, filterMap_filterMap]
  congr 1
  funext effect
  cases effect <;> rfl

/-- One step of the queue moves calls between submitted, pending and settled. -/
theorem CallQueue.Step.perm {q q' : CallQueue} {input disposition effects}
    (h : q.Step input disposition effects q') {submitted : Option CallId}
    (hs : ∀ cid, submitted = some cid ↔ ∃ w t now d, input = .submit cid w t now d) :
    (effects.filterMap CallEffect.settles ++ q'.callIds).Perm (submitted.toList ++ q.callIds) := by
  have hsi : input.kind ≠ .submit → submitted = none := by
    intro kind
    rw [Option.eq_none_iff_forall_ne_some]
    intro cid eq
    obtain ⟨w, t, now, d, rfl⟩ := (hs cid).1 eq
    exact kind rfl
  cases h with
  | keep cs _ hn =>
    rw [hsi hn]
    simp [callIds, cs]
  | @refuse cid =>
    rw [(hs cid).2 ⟨_, _, _, _, rfl⟩]
    simp [CallEffect.settles]
  | @enqueue cid =>
    rw [(hs cid).2 ⟨_, _, _, _, rfl⟩]
    simp [filterMap_cons, CallEffect.settles, callIds, PendingCall.new]
  | accept _ cs =>
    rw [hsi (by rintro ⟨⟩)]
    simp [callIds, cs, PendingCall.markSubmitted]
  | @abort pre p post _ _ _ _ cs _ cs' =>
    rw [hsi (by rintro ⟨⟩)]
    simpa [CallEffect.settles, callIds, cs, cs'] using perm_middle.symm
  | complete _ cs _ cs' =>
    rw [hsi (by rintro ⟨⟩)]
    simp [CallEffect.settles, callIds, cs, cs']
  | close err _ cs' hn =>
    rw [hsi hn]
    simp [callIds, cs', filterMap_map, Function.comp_def, CallEffect.settles]

theorem ConnectionEvent.submitted_eq_some {x : ConnectionEvent} {transition}
    (h : x.answer = .ok transition) (cid : CallId) :
    x.submitted = some cid ↔ ∃ w t now d, x.input = .submit cid w t now d := by
  unfold submitted
  rw [h]
  cases x.input <;> simp

theorem ConnectionEvent.perm {m : ConnectionMachine} (inStep : m.InStep) (input : ConnectionInput) :
    let x : ConnectionEvent := event apply m input
    (x.effects.filterMap ConnectionEffect.settles ++ x.after.callQueue.callIds).Perm
      (x.submitted.toList ++ m.callQueue.callIds) := by
  intro x
  rcases queueStep inStep input with ⟨tr, ans, step⟩ | ⟨⟨error, ans⟩, unchanged⟩
  · have effects : x.effects = tr.effects := by
      unfold effects
      rw [ans]
    rw [effects, filterMap_settles]
    exact step.perm (submitted_eq_some ans)
  · have effects : x.effects = [] := by
      unfold effects
      rw [ans]
    have submitted : x.submitted = none := by
      unfold submitted
      rw [ans]
      cases x.input <;> rfl
    have after : x.after = m := unchanged
    rw [effects, submitted, after]
    rfl

variable {m : ConnectionMachine}

/-- Over a run, submitted calls are the settled and the pending ones together. -/
theorem settled_append_pending_perm (h : m.Initial) (inputs : List ConnectionInput) :
    (settledCalls (m.run inputs) ++ (m.after inputs).callQueue.callIds).Perm
      (submittedCalls (m.run inputs)) := by
  refine run_induction apply (P := fun _ t m' =>
    (settledCalls t ++ m'.callQueue.callIds).Perm (submittedCalls t)) ?_ ?_ inputs
  · rw [h.callQueue]
    rfl
  · intro is i ih
    have step := ConnectionEvent.perm (h.inStep_after is) i
    set t := trace apply m is with ht
    set x : ConnectionEvent := event apply (m.after is) i with hx
    have hd : settledCalls (t ++ [x]) =
        settledCalls t ++ x.effects.filterMap ConnectionEffect.settles := by
      simp [settledCalls]
    have hsu : submittedCalls (t ++ [x]) = submittedCalls t ++ x.submitted.toList := by
      cases hs : x.submitted <;> simp [submittedCalls, hs]
    show (settledCalls (t ++ [x]) ++ x.after.callQueue.callIds).Perm (submittedCalls (t ++ [x]))
    rw [hd, hsu, append_assoc]
    calc settledCalls t ++ (x.effects.filterMap ConnectionEffect.settles ++
          x.after.callQueue.callIds)
        |>.Perm (settledCalls t ++ (x.submitted.toList ++ (m.after is).callQueue.callIds)) :=
          step.append_left _
      _ |>.Perm ((settledCalls t ++ (m.after is).callQueue.callIds) ++ x.submitted.toList) := by
          rw [append_assoc]
          exact perm_append_comm.append_left _
      _ |>.Perm (submittedCalls t ++ x.submitted.toList) := ih.append_right _

/-! ## Exactly once -/

/-- The call a submission carries. -/
def ConnectionInput.submitCall : ConnectionInput → Option CallId
  | .submit callId .. => some callId
  | _ => none

theorem submittedCalls_sublist (m : ConnectionMachine) (is : List ConnectionInput) :
    (submittedCalls (m.run is)).Sublist (is.filterMap ConnectionInput.submitCall) := by
  induction is generalizing m with
  | nil => exact nil_sublist _
  | cons i is ih =>
    set x : ConnectionEvent := event apply m i
    have here : x.submitted.toList.Sublist i.submitCall.toList := by
      unfold ConnectionEvent.submitted
      split
      · next callId _ _ _ _ _ submit _ =>
        have hc : i.submitCall = some callId := congrArg ConnectionInput.submitCall submit
        rw [hc]
      · exact nil_sublist _
    have head : submittedCalls (m.run (i :: is)) =
        x.submitted.toList ++ submittedCalls ((m.apply i).1.run is) := by
      show submittedCalls (x :: _) = _
      cases hs : x.submitted <;> simp [submittedCalls, hs, run]
    have hh' : (i :: is).filterMap ConnectionInput.submitCall =
        i.submitCall.toList ++ is.filterMap ConnectionInput.submitCall := by
      cases hs : i.submitCall <;> simp [hs]
    rw [head, hh']
    exact here.append (ih _)

/-- A closing or closed machine holds no call. -/
theorem callQueue_of_closed (h : m.state.phase = .closing ∨ m.state.phase = .closed) :
    m.callQueue.calls = [] := by
  unfold callQueue
  cases hs : m.state with
  | active mode conn => cases mode <;> simp [hs, StateData.phase] at h
  | _ => rfl

/-- Every call whose submission succeeded is, at each point of a run with distinct
submissions, either pending and not yet settled or settled by exactly one terminal effect
and gone. A closing or closed machine has settled them all, and no terminal effect names a
call that was not submitted. -/
theorem every_call_settled_once (initial : m.Initial) {inputs past : List ConnectionInput}
    (point : past <+: inputs) (distinct : (inputs.filterMap ConnectionInput.submitCall).Nodup) :
    let t := m.run past
    let q := (m.after past).callQueue
    (∀ callId ∈ submittedCalls t, (settledCalls t).count callId ≤ 1 ∧
      (callId ∈ q.callIds ∧ (settledCalls t).count callId = 0 ∨
        callId ∉ q.callIds ∧ (settledCalls t).count callId = 1) ∧
      ((m.after past).state.phase = .closing ∨ (m.after past).state.phase = .closed →
        (settledCalls t).count callId = 1)) ∧
    ∀ callId ∈ settledCalls t, callId ∈ submittedCalls t := by
  intro t q
  have perm := settled_append_pending_perm initial past
  have hn : (submittedCalls t).Nodup :=
    (submittedCalls_sublist m past).nodup
      ((point.sublist.filterMap ConnectionInput.submitCall).nodup distinct)
  have ht : ∀ callId ∈ submittedCalls t,
      (settledCalls t).count callId + q.callIds.count callId = 1 := by
    intro callId mem
    rw [← count_append, perm.count_eq]
    exact count_eq_one_of_mem hn mem
  constructor
  · intro callId mem
    have split := ht callId mem
    refine ⟨by omega, ?_, ?_⟩
    · by_cases pending : callId ∈ q.callIds
      · have := count_pos_iff.2 pending
        exact Or.inl ⟨pending, by omega⟩
      · have := count_eq_zero.2 pending
        exact Or.inr ⟨pending, by omega⟩
    · intro hc
      have empty : q.callIds = [] := by
        simp [q, CallQueue.callIds, callQueue_of_closed hc]
      simpa [empty] using split
  · intro callId mem
    exact perm.subset (mem_append_left _ mem)

/-- A driver that opens, negotiates nothing, submits two calls, has one answered and loses
its transport. -/
def twoCalls : List ConnectionInput :=
  [.start ⟨0⟩ ⟨0⟩ ⟨0⟩ ⟨10⟩, .transportOpened ⟨1⟩ ⟨0⟩ ⟨0⟩ ⟨⟨1⟩, ⟨1⟩, ⟨0⟩, ⟨10⟩⟩,
    .apiVersionsNegotiated ⟨1⟩ ⟨0⟩ ⟨1⟩ .empty,
    .submit ⟨7⟩ ⟨2⟩ ⟨2⟩ ⟨1⟩ ⟨9⟩, .submit ⟨8⟩ ⟨3⟩ ⟨3⟩ ⟨1⟩ ⟨9⟩, .writeSubmitted ⟨1⟩ ⟨0⟩ ⟨2⟩,
    .responseReceived ⟨1⟩ ⟨0⟩ ⟨0⟩, .transportClosed ⟨1⟩ ⟨0⟩ .reset]

/-- Limits of the small machines used in examples. -/
def smallLimits : ConnectionLimits := .new .two 4

theorem every_call_settled_once_twoCalls :
    let m := new ⟨1⟩ smallLimits
    submittedCalls (m.run twoCalls) = [⟨7⟩, ⟨8⟩] ∧
    ∀ callId ∈ submittedCalls (m.run twoCalls),
      (settledCalls (m.run twoCalls)).count callId = 1 := by
  refine ⟨by decide, fun callId mem => ?_⟩
  have law := every_call_settled_once (.plain ⟨1⟩ smallLimits) (prefix_refl twoCalls) (by decide)
  exact (law.1 callId mem).2.2 (Or.inr (by decide))

end KafkaDriver
