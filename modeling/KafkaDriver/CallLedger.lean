import KafkaDriver.CallSettlement

/-!
# Responses and failures in the order of the requests

`Ledger` annotates the requests that a run has written, in the order of their writes, with
what became of each : still waiting, completed or failed at some event, and with the delivery
certainty it reached. The waiting ones are the queue, in order. A ledger exists at every point
of a run (`exists_ledger`), one rule per kind of queue step.

From it follow the two laws of the connection. Responses complete requests in the order in
which they were written, each only after the writer accepted its frame and everything
written before it was settled. A failure says `possiblySent` exactly if the writer had
accepted the frame while the call was pending.
-/

namespace KafkaDriver

open Connection Runs List ConnectionMachine

/-! ## What the queue keeps -/

/-- Two pending calls share none of their identities. -/
def PendingCall.Distinct (a b : PendingCall) : Prop :=
  a.callId ≠ b.callId ∧ a.correlationId ≠ b.correlationId ∧ a.writeEffect ≠ b.writeEffect ∧
    a.deadlineTimer ≠ b.deadlineTimer

/-- Pending identities are pairwise distinct, and a call may have been sent exactly if it
awaits its response. -/
structure CallQueue.Valid (q : CallQueue) : Prop where
  distinct : q.calls.Pairwise PendingCall.Distinct
  phase : ∀ p ∈ q.calls, p.phase = .awaitingResponse ↔ p.delivery = .possiblySent

theorem CallQueue.Valid.of_sublist {q q' : CallQueue} (h : q.Valid)
    (sub : q'.calls.Sublist q.calls) : q'.Valid :=
  ⟨h.distinct.sublist sub, fun p hp => h.phase p (sub.subset hp)⟩

theorem CallQueue.Step.valid {q q' : CallQueue} {input disposition effects}
    (h : q.Step input disposition effects q') (hv : q.Valid) : q'.Valid := by
  cases h with
  | keep cs => exact hv.of_sublist (by rw [cs])
  | refuse => exact hv
  | enqueue _ hf =>
    refine ⟨pairwise_append.2 ⟨hv.distinct, pairwise_singleton _ _, ?_⟩, ?_⟩
    · intro p hp new hnew
      obtain rfl := mem_singleton.1 hnew
      exact hf p hp
    · intro p hp
      rcases mem_append.1 hp with old | new
      · exact hv.phase p old
      · obtain rfl := mem_singleton.1 new
        simp [PendingCall.new]
  | accept _ cs =>
    have before := hv.distinct
    rw [cs] at before
    refine ⟨?_, ?_⟩
    · simpa [pairwise_append, pairwise_cons, PendingCall.Distinct,
        PendingCall.markSubmitted] using before
    · intro p hp
      rcases mem_append.1 hp with old | hl
      · exact hv.phase p (by rw [cs]; exact mem_append_left _ old)
      · rcases mem_cons.1 hl with rfl | old
        · simp [PendingCall.markSubmitted]
        · exact hv.phase p (by simp [cs, old])
  | abort _ cs _ cs' | complete _ cs _ cs' => exact hv.of_sublist (by rw [cs, cs']; simp)
  | close _ _ cs' => exact ⟨by simp [cs'], by simp [cs']⟩

/-! ## Reading a run -/

/-- Call effects of a run, each with the index of the event that emitted it. -/
def callLog (t : List ConnectionEvent) : List (ℕ × CallEffect) :=
  t.zipIdx.flatMap fun (x, k) => (callEffects x.effects).map fun effect => (k, effect)

theorem callLog_concat (t : List ConnectionEvent) (x : ConnectionEvent) :
    callLog (t ++ [x]) = callLog t ++ (callEffects x.effects).map fun e => (t.length, e) := by
  simp [callLog, zipIdx_append]

/-- One written request : the event that wrote it and what the effect carried. -/
structure Written where
  at_ : ℕ
  epoch : ConnectionEpoch
  transportId : TransportId
  callId : CallId
  correlationId : CorrelationId
  effectId : EffectId

def CallEffect.written (k : ℕ) : CallEffect → Option Written
  | .write epoch transportId callId correlationId effectId =>
    some ⟨k, epoch, transportId, callId, correlationId, effectId⟩
  | _ => none

def CallEffect.completion (k : ℕ) : CallEffect → Option (ℕ × CallId × CorrelationId)
  | .complete callId correlationId => some (k, callId, correlationId)
  | _ => none

/-- Requests written in a run, in order. -/
def writes (t : List ConnectionEvent) : List Written :=
  (callLog t).filterMap fun (k, effect) => effect.written k

/-- Responses completed in a run, in order, each with its event. -/
def completions (t : List ConnectionEvent) : List (ℕ × CallId × CorrelationId) :=
  (callLog t).filterMap fun (k, effect) => effect.completion k

theorem writes_concat (t : List ConnectionEvent) (x : ConnectionEvent) :
    writes (t ++ [x]) =
      writes t ++ (callEffects x.effects).filterMap (CallEffect.written t.length) := by
  simp [writes, callLog_concat, filterMap_map]

theorem completions_concat (t : List ConnectionEvent) (x : ConnectionEvent) :
    completions (t ++ [x]) =
      completions t ++ (callEffects x.effects).filterMap (CallEffect.completion t.length) := by
  simp [completions, callLog_concat, filterMap_map]

/-- The queue holds the call of `w`. -/
def CallQueue.Holds (q : CallQueue) (w : Written) : Prop :=
  ∃ p ∈ q.calls, p.callId = w.callId ∧ p.correlationId = w.correlationId ∧
    p.writeEffect = w.effectId

/-- The event reports, and the machine applies, that the writer took the frame of `w`. -/
def ConnectionEvent.Accepts (x : ConnectionEvent) (w : Written) : Prop :=
  x.input = .writeSubmitted w.epoch w.transportId w.effectId ∧
    ∃ transition, x.answer = .ok transition ∧ transition.record.disposition = .applied

/-- The writer took the frame of `w` after it was written and before event `k`. -/
def AcceptedBefore (t : List ConnectionEvent) (w : Written) (k : ℕ) : Prop :=
  ∃ j x, w.at_ < j ∧ j < k ∧ t[j]? = some x ∧ x.Accepts w

/-- The call of `w` is pending from its write up to event `k`. -/
def PendingUntil (t : List ConnectionEvent) (w : Written) (k : ℕ) : Prop :=
  ∀ j x, w.at_ < j → j ≤ k → t[j]? = some x → x.before.callQueue.Holds w

/-- Event `k` takes the pending call of `w` out of the queue and settles it. -/
def SettledAt (t : List ConnectionEvent) (w : Written) (k : ℕ) : Prop :=
  w.at_ < k ∧ PendingUntil t w k ∧ ∃ x, t[k]? = some x ∧ ¬x.after.callQueue.Holds w ∧
    ∃ effect ∈ callEffects x.effects, effect.settles = some w.callId

/-- Event `k` is a submission of the call that the machine rejected. -/
def RefusedAt (t : List ConnectionEvent) (callId : CallId) (k : ℕ) : Prop :=
  ∃ x transition, t[k]? = some x ∧ x.input.submitCall = some callId ∧
    x.answer = .ok transition ∧ transition.record.disposition = .rejected

variable {t : List ConnectionEvent} {x y : ConnectionEvent} {w : Written} {j k : ℕ}

theorem getElem?_concat (h : t[j]? = some y) : (t ++ [x])[j]? = some y := by
  obtain ⟨hj, -⟩ := List.getElem?_eq_some_iff.1 h
  rw [List.getElem?_append_left hj, h]

theorem getElem?_of_concat (h : (t ++ [x])[j]? = some y) :
    t[j]? = some y ∨ j = t.length ∧ y = x := by
  rcases Nat.lt_or_ge j t.length with hj | hj
  · rw [List.getElem?_append_left hj] at h
    exact .inl h
  · obtain ⟨hj', hy⟩ := List.getElem?_eq_some_iff.1 h
    obtain rfl : j = t.length := by simp at hj'; omega
    exact .inr ⟨rfl, by simpa using hy.symm⟩

/-- Later events do not change what happened before event `k`. -/
theorem acceptedBefore_concat (hk : k ≤ t.length) :
    AcceptedBefore (t ++ [x]) w k ↔ AcceptedBefore t w k := by
  constructor
  · rintro ⟨j, y, hw, hj, hy, ha⟩
    rcases getElem?_of_concat hy with old | ⟨rfl, -⟩
    · exact ⟨j, y, hw, hj, old, ha⟩
    · omega
  · rintro ⟨j, y, hw, hj, hy, ha⟩
    exact ⟨j, y, hw, hj, getElem?_concat hy, ha⟩

/-- One more event adds its own acceptance. -/
theorem acceptedBefore_succ (hw : w.at_ < t.length) :
    AcceptedBefore (t ++ [x]) w (t.length + 1) ↔ AcceptedBefore t w t.length ∨ x.Accepts w := by
  constructor
  · rintro ⟨j, y, hj, hj', hy, ha⟩
    rcases getElem?_of_concat hy with old | ⟨rfl, rfl⟩
    · obtain ⟨hb, -⟩ := List.getElem?_eq_some_iff.1 old
      exact .inl ⟨j, y, hj, hb, old, ha⟩
    · exact .inr ha
  · rintro (⟨j, y, hj, hj', hy, ha⟩ | ha)
    · exact ⟨j, y, hj, by omega, getElem?_concat hy, ha⟩
    · exact ⟨t.length, x, hw, by omega, by simp, ha⟩

theorem PendingUntil.concat (h : PendingUntil t w k) (hk : k < t.length) :
    PendingUntil (t ++ [x]) w k := by
  intro j y hj hjk hy
  rcases getElem?_of_concat hy with old | ⟨rfl, -⟩
  · exact h j y hj hjk old
  · omega

/-- A call that is pending after the run so far is pending until the next event. -/
theorem PendingUntil.succ (h : PendingUntil t w (t.length - 1))
    (holds : x.before.callQueue.Holds w) :
    PendingUntil (t ++ [x]) w t.length := by
  intro j y hj hjk hy
  rcases getElem?_of_concat hy with old | ⟨rfl, rfl⟩
  · obtain ⟨hb, -⟩ := List.getElem?_eq_some_iff.1 old
    exact h j y hj (by omega) old
  · exact holds

theorem SettledAt.lt_length (h : SettledAt t w k) : k < t.length := by
  obtain ⟨-, -, y, hy, -⟩ := h
  exact (List.getElem?_eq_some_iff.1 hy).1

theorem SettledAt.concat (h : SettledAt t w k) : SettledAt (t ++ [x]) w k := by
  have hb := h.lt_length
  obtain ⟨hw, pend, y, hy, hg, hs⟩ := h
  exact ⟨hw, pend.concat hb, y, getElem?_concat hy, hg, hs⟩

/-! ## The ledger -/

/-- What became of a written request. -/
inductive Fate where
  | waiting
  | completed (at_ : ℕ)
  | failed (at_ : ℕ)
  deriving DecidableEq

def Fate.settledAt : Fate → Option ℕ
  | .waiting => none
  | .completed k | .failed k => some k

/-- A written request with the delivery certainty it reached and its fate. -/
structure LedgerEntry where
  write : Written
  delivery : Delivery
  fate : Fate

namespace LedgerEntry

def isWaiting (e : LedgerEntry) : Bool := e.fate = .waiting

def completion (e : LedgerEntry) : Option (ℕ × CallId × CorrelationId) :=
  match e.fate with
  | .completed k => some (k, e.write.callId, e.write.correlationId)
  | _ => none

/-- What the queue shows of a waiting request. -/
def view (e : LedgerEntry) : CallId × CorrelationId × EffectId × Delivery :=
  (e.write.callId, e.write.correlationId, e.write.effectId, e.delivery)

/-- The run did to the request what its entry says. -/
def Faithful (t : List ConnectionEvent) (e : LedgerEntry) : Prop :=
  match e.fate with
  | .waiting => e.write.at_ < t.length ∧ PendingUntil t e.write (t.length - 1) ∧
      (e.delivery = .possiblySent ↔ AcceptedBefore t e.write t.length)
  | .completed k => SettledAt t e.write k ∧ AcceptedBefore t e.write k ∧
      ∃ x, t[k]? = some x ∧
        x.input = .responseReceived e.write.epoch e.write.transportId e.write.correlationId
  | .failed k => SettledAt t e.write k ∧
      (e.delivery = .possiblySent ↔ AcceptedBefore t e.write k)

end LedgerEntry

def PendingCall.view (p : PendingCall) : CallId × CorrelationId × EffectId × Delivery :=
  (p.callId, p.correlationId, p.writeEffect, p.delivery)

open LedgerEntry

variable {q q' : CallQueue} {l : List LedgerEntry} {e e' : LedgerEntry}

theorem LedgerEntry.view_eq_iff {p : PendingCall} :
    e.view = p.view ↔ e.write.callId = p.callId ∧ e.write.correlationId = p.correlationId ∧
      e.write.effectId = p.writeEffect ∧ e.delivery = p.delivery := by
  simp [LedgerEntry.view, PendingCall.view]

/-- A failure reports a refused submission or an entry that failed with its delivery. -/
def Explained (t : List ConnectionEvent) (l : List LedgerEntry) (k : ℕ) (callId : CallId)
    (failure : CallFailure) (delivery : Delivery) : Prop :=
  RefusedAt t callId k ∧ delivery = .notSent ∧ failure ≠ .locallyRejected ∨
    ∃ e ∈ l, e.write.callId = callId ∧ e.fate = .failed k ∧ e.delivery = delivery ∧
      (failure = .locallyRejected → delivery = .notSent)

/-- The list `l` accounts for every request written in `t`, with `q` the queue after it. -/
structure Ledger (t : List ConnectionEvent) (q : CallQueue) (l : List LedgerEntry) : Prop where
  written : l.map write = writes t
  completed : l.filterMap completion = completions t
  pending : (l.filter isWaiting).map view = q.calls.map PendingCall.view
  owner : ∀ e ∈ l, e.fate = .waiting → q.owner = some (e.write.epoch, e.write.transportId)
  sorted : l.Pairwise fun a b => a.write.at_ < b.write.at_
  faithful : ∀ e ∈ l, e.Faithful t
  inOrder : ∀ a ∈ l, ∀ b ∈ l, a.write.at_ < b.write.at_ → ∀ k, b.fate = .completed k →
    ∃ k' < k, a.fate.settledAt = some k'
  failures : ∀ k c f d, (k, .fail c f d) ∈ callLog t → Explained t l k c f d

namespace Ledger

theorem start : Ledger [] ⟨none, []⟩ [] := by
  constructor <;> simp [writes, completions, callLog]

/-- Every waiting request has its call in the queue. -/
theorem exists_call (h : Ledger t q l) (he : e ∈ l) (ws : e.fate = .waiting) :
    ∃ p ∈ q.calls, e.view = p.view := by
  have mem : e.view ∈ q.calls.map PendingCall.view := by
    rw [← h.pending]
    exact mem_map_of_mem (mem_filter.2 ⟨he, by simp [isWaiting, ws]⟩)
  simpa [eq_comm] using mem

theorem holds (h : Ledger t q l) (he : e ∈ l) (ws : e.fate = .waiting) : q.Holds e.write := by
  obtain ⟨p, hp, shows⟩ := h.exists_call he ws
  obtain ⟨callId, cid, fx, -⟩ := view_eq_iff.1 shows
  exact ⟨p, hp, callId.symm, cid.symm, fx.symm⟩

theorem at_lt_length (h : Ledger t q l) (he : e ∈ l) : e.write.at_ < t.length := by
  have hf := h.faithful e he
  unfold Faithful at hf
  split at hf
  · exact hf.1
  · have hb := hf.1.lt_length
    have after := hf.1.1
    omega
  · have hb := hf.1.lt_length
    have after := hf.1.1
    omega

end Ledger

/-! ## One more event -/

theorem LedgerEntry.Faithful.settled (h : e.Faithful t) (hk : e.fate.settledAt = some k) :
    SettledAt t e.write k := by
  unfold Faithful at h
  unfold Fate.settledAt at hk
  split at h
  · next fate => simp [fate] at hk
  · next fate => rw [fate] at hk; cases hk; exact h.1
  · next fate => rw [fate] at hk; cases hk; exact h.1

/-- Later events do not touch a settled request. -/
theorem LedgerEntry.Faithful.concat (h : e.Faithful t) (hd : e.fate ≠ .waiting) :
    e.Faithful (t ++ [x]) := by
  unfold Faithful at h ⊢
  split at h
  · next fate => exact absurd fate hd
  · obtain ⟨at_, ok, y, hy, i⟩ := h
    exact ⟨at_.concat, (acceptedBefore_concat at_.lt_length.le).2 ok, y, getElem?_concat hy, i⟩
  · obtain ⟨at_, delivery⟩ := h
    exact ⟨at_.concat, delivery.trans (acceptedBefore_concat at_.lt_length.le).symm⟩

theorem Explained.mono {l l' : List LedgerEntry} {c f d} (h : Explained t l k c f d)
    (hk : ∀ e ∈ l, e.fate ≠ .waiting → e ∈ l') : Explained (t ++ [x]) l' k c f d := by
  rcases h with ⟨⟨y, tr, hy, rest⟩, ne⟩ | ⟨e, he, call, fate, rest⟩
  · exact .inl ⟨⟨y, tr, getElem?_concat hy, rest⟩, ne⟩
  · exact .inr ⟨e, hk e he (by simp [fate]), call, fate, rest⟩

namespace Ledger

/-- An event that writes nothing changes waiting requests only. -/
theorem advance (h : Ledger t q l) {g : LedgerEntry → LedgerEntry}
    (hwr : ∀ e ∈ l, (g e).write = e.write) (hs : ∀ e ∈ l, e.fate ≠ .waiting → g e = e)
    (hn : (callEffects x.effects).filterMap (CallEffect.written t.length) = [])
    (pend : ((l.map g).filter isWaiting).map view =
      x.after.callQueue.calls.map PendingCall.view)
    (owner : q.SameOwner x.after.callQueue)
    (hfl : ∀ e ∈ l, e.fate = .waiting → (g e).Faithful (t ++ [x]))
    (hc : (l.map g).filterMap completion = completions t ++
      (callEffects x.effects).filterMap (CallEffect.completion t.length))
    (hi : ∀ b ∈ l, b.fate = .waiting → ∀ k, (g b).fate = .completed k →
      k = t.length ∧ ∀ a ∈ l, a.write.at_ < b.write.at_ → a.fate ≠ .waiting)
    (hfa : ∀ c f d, CallEffect.fail c f d ∈ callEffects x.effects →
      Explained (t ++ [x]) (l.map g) t.length c f d) :
    Ledger (t ++ [x]) x.after.callQueue (l.map g) where
  written := by
    rw [writes_concat, hn, append_nil, ← h.written, map_map]
    exact map_congr_left hwr
  completed := by rw [hc, completions_concat]
  pending := pend
  owner := by
    intro e' he' ws
    obtain ⟨e, he, rfl⟩ := mem_map.1 he'
    have before : e.fate = .waiting := by
      by_contra hne
      exact hne (by rwa [hs e he hne] at ws)
    rw [hwr e he, ← h.owner e he before]
    refine owner ?_ ?_
    · obtain ⟨p, hp, -⟩ := h.exists_call he before
      exact ne_nil_of_mem hp
    · intro empty
      rw [empty, map_nil, map_eq_nil_iff] at pend
      have mem : g e ∈ (l.map g).filter isWaiting :=
        mem_filter.2 ⟨he', by simp [isWaiting, ws]⟩
      rw [pend] at mem
      cases mem
  sorted := by
    rw [pairwise_map]
    refine h.sorted.imp_of_mem ?_
    intro a b ha hb lt
    rwa [hwr a ha, hwr b hb]
  faithful := by
    intro e' he'
    obtain ⟨e, he, rfl⟩ := mem_map.1 he'
    by_cases ws : e.fate = .waiting
    · exact hfl e he ws
    · rw [hs e he ws]
      exact (h.faithful e he).concat ws
  inOrder := by
    intro a' ha' b' hb' lt k hk
    obtain ⟨a, ha, rfl⟩ := mem_map.1 ha'
    obtain ⟨b, hb, rfl⟩ := mem_map.1 hb'
    rw [hwr a ha, hwr b hb] at lt
    by_cases ws : b.fate = .waiting
    · obtain ⟨rfl, earlier⟩ := hi b hb ws k hk
      have done := earlier a ha lt
      rw [hs a ha done]
      cases hf : a.fate with
      | waiting => exact absurd hf done
      | completed k' | failed k' =>
        exact ⟨k', ((h.faithful a ha).settled (by rw [hf]; rfl)).lt_length, rfl⟩
    · rw [hs b hb ws] at hk
      obtain ⟨k', lt', done⟩ := h.inOrder a ha b hb lt k hk
      have hne : a.fate ≠ .waiting := by
        intro hw
        rw [hw] at done
        cases done
      exact ⟨k', lt', by rw [hs a ha hne, done]⟩
  failures := by
    intro k c f d mem
    rw [callLog_concat, mem_append] at mem
    rcases mem with old | new
    · refine (h.failures k c f d old).mono ?_
      intro e he hne
      exact mem_map.2 ⟨e, he, hs e he hne⟩
    · obtain ⟨effect, mem, eq⟩ := mem_map.1 new
      cases eq
      exact hfa c f d mem

/-- A waiting request stays as it was through an event that does not accept its frame. -/
theorem stays (h : Ledger t q l) (hx : x.before.callQueue = q) (he : e ∈ l)
    (ws : e.fate = .waiting) (hq : ¬x.Accepts e.write) : e.Faithful (t ++ [x]) := by
  have hb := h.at_lt_length he
  have hf := h.faithful e he
  have hg : x.before.callQueue.Holds e.write := hx ▸ h.holds he ws
  simp only [Faithful, ws] at hf ⊢
  obtain ⟨-, pend, delivery⟩ := hf
  refine ⟨by simp; omega, by simpa using pend.succ hg, ?_⟩
  rw [delivery, length_append, length_singleton, acceptedBefore_succ hb]
  simp [hq]

/-- The calls of an event that takes the call of `e` out of the queue. -/
theorem settledAt_of_gone (h : Ledger t q l) (hx : x.before.callQueue = q) (he : e ∈ l)
    (ws : e.fate = .waiting) (gone : ¬x.after.callQueue.Holds e.write)
    (hs : ∃ effect ∈ callEffects x.effects, effect.settles = some e.write.callId) :
    SettledAt (t ++ [x]) e.write t.length := by
  have hf := h.faithful e he
  have hg : x.before.callQueue.Holds e.write := hx ▸ h.holds he ws
  simp only [Faithful, ws] at hf
  exact ⟨hf.1, hf.2.1.succ hg, x, by simp, gone, hs⟩

/-- An event without call effects that accepts no frame. -/
theorem keep (h : Ledger t q l) (hx : x.before.callQueue = q)
    (cs : x.after.callQueue.calls = q.calls) (o : q.SameOwner x.after.callQueue)
    (hs : callEffects x.effects = []) (hq : ∀ w, ¬x.Accepts w) :
    Ledger (t ++ [x]) x.after.callQueue l := by
  have hm := h.advance (x := x) (g := id) (fun _ _ => rfl) (fun _ _ _ => rfl)
    (by simp [hs]) (by rw [map_id, cs, h.pending]) o
    (fun e he ws => h.stays hx he ws (hq _))
    (by simp [hs, h.completed]) (fun b _ ws k hk => by simp [ws] at hk)
    (by simp [hs])
  simpa using hm

/-- A refused submission. -/
theorem refuse (h : Ledger t q l) (hx : x.before.callQueue = q) (after : x.after.callQueue = q)
    {callId failure transition} (effs : callEffects x.effects = [.fail callId failure .notSent])
    (failure_ne : failure ≠ .locallyRejected) (hs : x.input.submitCall = some callId)
    (ans : x.answer = .ok transition) (hr : transition.record.disposition = .rejected)
    (hq : ∀ w, ¬x.Accepts w) : Ledger (t ++ [x]) x.after.callQueue l := by
  have hm := h.advance (x := x) (g := id) (fun _ _ => rfl) (fun _ _ _ => rfl)
    (by simp [effs, filterMap_cons, CallEffect.written])
    (by rw [map_id, after, h.pending]) (by rw [after]; exact fun _ _ => rfl)
    (fun e he ws => h.stays hx he ws (hq _))
    (by simp [effs, h.completed, filterMap_cons, CallEffect.completion])
    (fun b _ ws k hk => by simp [ws] at hk) ?_
  · simpa using hm
  · intro c f d mem
    rw [effs, mem_singleton] at mem
    cases mem
    exact .inl ⟨⟨x, transition, by simp, hs, ans, hr⟩, rfl, failure_ne⟩

/-- A written request joins the ledger at its end. -/
theorem enqueue (h : Ledger t q l) (hx : x.before.callQueue = q) {epoch transportId callId
      correlationId writeEffect deadlineTimer deadline}
    (o : q.owner = some (epoch, transportId))
    (after : x.after.callQueue = ⟨q.owner, q.calls ++
      [.new callId correlationId writeEffect deadlineTimer deadline]⟩)
    (effs : callEffects x.effects = [.write epoch transportId callId correlationId writeEffect])
    (hq : ∀ w, ¬x.Accepts w) :
    Ledger (t ++ [x]) x.after.callQueue (l ++ [⟨⟨t.length, epoch, transportId, callId,
      correlationId, writeEffect⟩, .notSent, .waiting⟩]) := by
  set new : LedgerEntry := ⟨⟨t.length, epoch, transportId, callId, correlationId, writeEffect⟩,
    .notSent, .waiting⟩ with hnew
  have hf : new.Faithful (t ++ [x]) := by
    refine ⟨by simp [hnew], ?_, ?_⟩
    · intro j y hj hjk
      simp only [hnew, length_append, length_singleton] at hj hjk
      omega
    · constructor
      · intro hd
        cases hd
      · rintro ⟨j, y, hj, hjk, -⟩
        simp only [hnew, length_append, length_singleton] at hj hjk
        omega
  constructor
  · rw [map_append, h.written, writes_concat, effs]
    rfl
  · rw [filterMap_append, h.completed, completions_concat, effs]
    rfl
  · rw [filter_append, map_append, h.pending, after, map_append]
    rfl
  · intro e he ws
    rw [after]
    rcases mem_append.1 he with old | last
    · exact h.owner e old ws
    · obtain rfl := mem_singleton.1 last
      exact o
  · refine pairwise_append.2 ⟨h.sorted, pairwise_singleton _ _, ?_⟩
    intro a ha b hb
    obtain rfl := mem_singleton.1 hb
    exact h.at_lt_length ha
  · intro e he
    rcases mem_append.1 he with old | last
    · by_cases ws : e.fate = .waiting
      · exact h.stays hx old ws (hq _)
      · exact (h.faithful e old).concat ws
    · obtain rfl := mem_singleton.1 last
      exact hf
  · intro a ha b hb lt k hk
    rcases mem_append.1 hb with oldb | lastb
    · rcases mem_append.1 ha with olda | lasta
      · exact h.inOrder a olda b oldb lt k hk
      · obtain rfl := mem_singleton.1 lasta
        have hbo := h.at_lt_length oldb
        simp only [hnew] at lt
        omega
    · obtain rfl := mem_singleton.1 lastb
      cases hk
  · intro k c f d mem
    rw [callLog_concat, effs] at mem
    have old : (k, .fail c f d) ∈ callLog t := by simpa using mem
    exact (h.failures k c f d old).mono fun e he _ => mem_append_left _ he

/-! ### Events about one waiting request -/

/-- Change the entry written at event `a`. -/
def modifyAt (a : ℕ) (f : LedgerEntry → LedgerEntry) (e : LedgerEntry) : LedgerEntry :=
  if e.write.at_ = a then f e else e

theorem map_modifyAt {pre post : List LedgerEntry} {f : LedgerEntry → LedgerEntry}
    (sorted : (pre ++ e :: post).Pairwise fun a b => a.write.at_ < b.write.at_) :
    (pre ++ e :: post).map (modifyAt e.write.at_ f) = pre ++ f e :: post := by
  obtain ⟨-, hl, old⟩ := pairwise_append.1 sorted
  have before : pre.map (modifyAt e.write.at_ f) = pre := by
    refine (map_congr_left ?_).trans (map_id pre)
    intro a ha
    have lt := old a ha e mem_cons_self
    simp [modifyAt, lt.ne]
  have after : post.map (modifyAt e.write.at_ f) = post := by
    refine (map_congr_left ?_).trans (map_id post)
    intro a ha
    have lt := (pairwise_cons.1 hl).1 a ha
    simp [modifyAt, lt.ne']
  rw [map_append, map_cons, before, after]
  simp [modifyAt]

variable {pre post : List PendingCall} {p : PendingCall} {after before : List LedgerEntry}

/-- The entry of a call, with the entries around it. -/
theorem exists_entry (h : Ledger t q l) (cs : q.calls = pre ++ p :: post) :
    ∃ before e after, l = before ++ e :: after ∧ e.fate = .waiting ∧ e.view = p.view ∧
      (before.filter isWaiting).map view = pre.map PendingCall.view ∧
      (after.filter isWaiting).map view = post.map PendingCall.view := by
  have pend := h.pending
  rw [cs, map_append, map_cons, map_eq_append_iff] at pend
  obtain ⟨l₁, l₂, split, first, second⟩ := pend
  obtain ⟨e, l₃, rfl, view, third⟩ := map_eq_cons_iff.1 second
  obtain ⟨before₁, rest, rfl, rfl, tail⟩ := filter_eq_append_iff.1 split
  obtain ⟨before₂, after, rfl, hd, ws, rfl⟩ := filter_eq_cons_iff.1 tail
  refine ⟨before₁ ++ before₂, e, after, by simp, by simpa [isWaiting] using ws,
    view, ?_, third⟩
  have settled : before₂.filter isWaiting = [] :=
    filter_eq_nil_iff.2 fun a ha => by simpa using hd a ha
  rw [filter_append, settled, append_nil, first]

theorem eq_of_at (h : Ledger t q l) (he : e ∈ l) (he' : e' ∈ l) (hs : e'.write.at_ = e.write.at_) :
    e' = e := by
  by_contra hne
  have hd : l.Pairwise fun a b => a.write.at_ ≠ b.write.at_ := h.sorted.imp fun lt => lt.ne
  have : Std.Symm fun a b : LedgerEntry => a.write.at_ ≠ b.write.at_ := ⟨fun _ _ => Ne.symm⟩
  exact hd.forall he' he hne hs

/-- Two waiting requests do not share a write effect. -/
theorem waiting_distinct (h : Ledger t q l) (hva : q.Valid) (he : e ∈ l) (he' : e' ∈ l)
    (ws : e.fate = .waiting) (ws' : e'.fate = .waiting) (hne : e' ≠ e) :
    e'.write.effectId ≠ e.write.effectId := by
  have hv : (q.calls.map PendingCall.view).Pairwise fun v v' => v.2.2.1 ≠ v'.2.2.1 :=
    pairwise_map.2 (hva.distinct.imp fun d => d.2.2.1)
  rw [← h.pending, pairwise_map] at hv
  have mem : ∀ {b : LedgerEntry}, b ∈ l → b.fate = .waiting → b ∈ l.filter isWaiting :=
    fun hb hw => mem_filter.2 ⟨hb, by simp [isWaiting, hw]⟩
  have : Std.Symm fun a b : LedgerEntry => a.view.2.2.1 ≠ b.view.2.2.1 :=
    ⟨fun _ _ => Ne.symm⟩
  exact hv.forall (mem he' ws') (mem he ws) hne

/-- An event that replaces one waiting entry `e` by `e₁`. -/
theorem advanceOne (h : Ledger t q l) (hx : x.before.callQueue = q) (e₁ : LedgerEntry)
    (split : l = before ++ e :: after) (ws : e.fate = .waiting) (hw : e₁.write = e.write)
    (hn : (callEffects x.effects).filterMap (CallEffect.written t.length) = [])
    (pend : ((before ++ e₁ :: after).filter isWaiting).map view =
      x.after.callQueue.calls.map PendingCall.view)
    (o : q.SameOwner x.after.callQueue)
    (hq : ∀ e' ∈ l, e'.fate = .waiting → e' ≠ e → ¬x.Accepts e'.write)
    (hfa : e₁.Faithful (t ++ [x]))
    (hc : (before ++ e₁ :: after).filterMap completion = completions t ++
      (callEffects x.effects).filterMap (CallEffect.completion t.length))
    (hi : ∀ k, e₁.fate = .completed k → k = t.length ∧ ∀ a ∈ before, a.fate ≠ .waiting)
    (hf : ∀ c f d, CallEffect.fail c f d ∈ callEffects x.effects →
      Explained (t ++ [x]) (before ++ e₁ :: after) t.length c f d) :
    Ledger (t ++ [x]) x.after.callQueue (before ++ e₁ :: after) := by
  have mem : e ∈ l := by simp [split]
  have hso := h.sorted
  rw [split] at hso
  have hr : l.map (modifyAt e.write.at_ fun _ => e₁) = before ++ e₁ :: after := by
    rw [split, map_modifyAt hso]
  have here : ∀ e' ∈ l, e'.write.at_ = e.write.at_ → e' = e := fun e' he' => h.eq_of_at mem he'
  rw [← hr] at pend hc hf ⊢
  refine h.advance ?_ ?_ hn pend o ?_ hc ?_ hf
  · intro e' he'
    unfold modifyAt
    split_ifs with hs
    · rw [hw, here e' he' hs]
    · rfl
  · intro e' he' hd
    unfold modifyAt
    split_ifs with hs
    · exact absurd (here e' he' hs ▸ ws) hd
    · rfl
  · intro e' he' ws'
    unfold modifyAt
    split_ifs with hs
    · exact hfa
    · exact h.stays hx he' ws' (hq e' he' ws' fun eq => hs (by rw [eq]))
  · intro b hb waitingb k hk
    unfold modifyAt at hk
    split_ifs at hk with hs
    · obtain ⟨rfl, old⟩ := hi k hk
      refine ⟨rfl, fun a ha lt => ?_⟩
      rw [split, mem_append, mem_cons] at ha
      rcases ha with first | rfl | last
      · exact old a first
      · omega
      · have order := (pairwise_cons.1 (pairwise_append.1 hso).2.1).1 a last
        omega
    · rw [waitingb] at hk
      cases hk

/-- Replacing a waiting entry by one that is not completed leaves the completions. -/
theorem completed_replace (h : Ledger t q l) {e₁ : LedgerEntry} (split : l = before ++ e :: after)
    (ws : e.fate = .waiting) (blank : e₁.completion = none) :
    (before ++ e₁ :: after).filterMap completion = completions t := by
  have old : e.completion = Option.none := by simp [completion, ws]
  rw [← h.completed, split]
  simp [blank, old]

/-- The writer accepts the frame of a waiting request. -/
theorem accept (h : Ledger t q l) (hv : q.Valid) (hx : x.before.callQueue = q)
    {epoch transportId transition} (o : q.owner = some (epoch, transportId))
    (cs : q.calls = pre ++ p :: post)
    (after : x.after.callQueue = ⟨q.owner, pre ++ p.markSubmitted :: post⟩)
    (i : x.input = .writeSubmitted epoch transportId p.writeEffect)
    (ans : x.answer = .ok transition) (hap : transition.record.disposition = .applied)
    (hsi : callEffects x.effects = []) : ∃ l', Ledger (t ++ [x]) x.after.callQueue l' := by
  obtain ⟨first, e, last, split, ws, shows, viewFirst, viewLast⟩ := h.exists_entry cs
  have mem : e ∈ l := by simp [split]
  obtain ⟨callId, cid, fx, delivery⟩ := view_eq_iff.1 shows
  have ho := h.owner e mem ws
  obtain ⟨rfl, rfl⟩ : epoch = e.write.epoch ∧ transportId = e.write.transportId := by
    simpa using o.symm.trans ho
  have ha : x.Accepts e.write := ⟨by rw [i, fx], transition, ans, hap⟩
  refine ⟨_, h.advanceOne hx { e with delivery := .possiblySent } split ws rfl
    (by simp [hsi]) ?_ (by rw [after]; exact fun _ _ => rfl) ?_ ?_ ?_ ?_ (by simp [hsi])⟩
  · rw [filter_append, filter_cons_of_pos (by simp [isWaiting, ws]),
      map_append, map_cons, viewFirst, viewLast, after]
    simp [view, PendingCall.view, PendingCall.markSubmitted, callId, cid, fx]
  · intro e' he' ws' hne ne
    have hd := h.waiting_distinct hv mem he' ws ws' hne
    have hs := ne.1.symm.trans ha.1
    simp only [ConnectionInput.writeSubmitted.injEq] at hs
    exact hd hs.2.2
  · have hb := h.at_lt_length mem
    have hf := h.faithful e mem
    have hg : x.before.callQueue.Holds e.write := hx ▸ h.holds mem ws
    simp only [Faithful, ws] at hf ⊢
    refine ⟨by simp; omega, by simpa using hf.2.1.succ hg, ?_⟩
    rw [length_append, length_singleton, acceptedBefore_succ hb]
    simp [ha]
  · rw [h.completed_replace split ws (by simp [completion, ws]), hsi]
    simp
  · intro k hk
    simp [ws] at hk

/-- The queue without `p` does not hold a request that shows as `p`. -/
theorem not_holds (hv : q.Valid) (cs : q.calls = pre ++ p :: post) (cs' : q'.calls = pre ++ post)
    (cid : w.callId = p.callId) : ¬q'.Holds w := by
  rintro ⟨r, hr, hs, -⟩
  have hd := hv.distinct
  rw [cs] at hd
  obtain ⟨-, hl, old⟩ := pairwise_append.1 hd
  rw [cs', mem_append] at hr
  rcases hr with first | last
  · exact (old r first p mem_cons_self).1 (hs.trans cid)
  · exact ((pairwise_cons.1 hl).1 r last).1 (cid.symm.trans hs.symm)

/-- A waiting request whose frame was never accepted is aborted. -/
theorem abort (h : Ledger t q l) (hv : q.Valid) (hx : x.before.callQueue = q)
    (cs : q.calls = pre ++ p :: post) (hp : p.phase = .awaitingWrite)
    (cs' : x.after.callQueue.calls = pre ++ post) (o : q.SameOwner x.after.callQueue)
    (effs : callEffects x.effects = [.fail p.callId .locallyRejected .notSent])
    (hq : ∀ w, ¬x.Accepts w) : ∃ l', Ledger (t ++ [x]) x.after.callQueue l' := by
  obtain ⟨first, e, last, split, ws, shows, viewFirst, viewLast⟩ := h.exists_entry cs
  have mem : e ∈ l := by simp [split]
  obtain ⟨callId, cid, fx, delivery⟩ := view_eq_iff.1 shows
  have hn : e.delivery = .notSent := by
    have hu := hv.phase p (by simp [cs])
    rw [hp] at hu
    rw [delivery]
    cases hd : p.delivery with
    | notSent => rfl
    | possiblySent => exact absurd (hu.2 hd) (by simp)
  refine ⟨_, h.advanceOne hx { e with fate := .failed t.length } split ws rfl
    (by simp [effs, filterMap_cons, CallEffect.written]) ?_ o
    (fun _ _ _ _ => hq _) ?_ ?_ (fun k hk => by cases hk) ?_⟩
  · rw [filter_append, filter_cons_of_neg (by simp [isWaiting]),
      map_append, viewFirst, viewLast, cs', map_append]
  · have hs := h.settledAt_of_gone hx mem ws (not_holds hv cs cs' callId)
      ⟨_, by rw [effs]; exact mem_singleton_self _, by rw [callId]; rfl⟩
    have hf := h.faithful e mem
    simp only [Faithful, ws] at hf
    exact ⟨hs, hf.2.2.trans (acceptedBefore_concat le_rfl).symm⟩
  · rw [h.completed_replace split ws rfl, effs]
    simp [filterMap_cons, CallEffect.completion]
  · intro c f d fail
    rw [effs, mem_singleton] at fail
    cases fail
    exact .inr ⟨{ e with fate := .failed t.length }, by simp, callId, rfl, hn, fun _ => rfl⟩

/-- The front request is completed by its response. -/
theorem complete (h : Ledger t q l) (hv : q.Valid) (hx : x.before.callQueue = q)
    {rest : List PendingCall} {epoch transportId} (o : q.owner = some (epoch, transportId))
    (cs : q.calls = p :: rest) (hp : p.phase = .awaitingResponse)
    (cs' : x.after.callQueue.calls = rest) (ho' : q.SameOwner x.after.callQueue)
    (i : x.input = .responseReceived epoch transportId p.correlationId)
    (effs : callEffects x.effects = [.complete p.callId p.correlationId])
    (hq : ∀ w, ¬x.Accepts w) : ∃ l', Ledger (t ++ [x]) x.after.callQueue l' := by
  have front : q.calls = [] ++ p :: rest := cs
  obtain ⟨first, e, last, split, ws, shows, viewFirst, viewLast⟩ := h.exists_entry front
  have mem : e ∈ l := by simp [split]
  obtain ⟨callId, cid, fx, delivery⟩ := view_eq_iff.1 shows
  have ho := h.owner e mem ws
  obtain ⟨rfl, rfl⟩ : epoch = e.write.epoch ∧ transportId = e.write.transportId := by
    simpa using o.symm.trans ho
  have done : ∀ a ∈ first, a.fate ≠ .waiting := by
    intro a ha waitinga
    rw [map_nil, map_eq_nil_iff, filter_eq_nil_iff] at viewFirst
    exact viewFirst a ha (by simp [isWaiting, waitinga])
  have hs : e.delivery = .possiblySent := by
    rw [delivery]
    exact (hv.phase p (by simp [cs])).1 hp
  -- nothing written after the front can have been completed before it
  have none_last : last.filterMap completion = [] := by
    rw [filterMap_eq_nil_iff]
    intro b hb
    have hm : b ∈ l := by simp [split, hb]
    have hso := h.sorted
    rw [split] at hso
    have order := (pairwise_cons.1 (pairwise_append.1 hso).2.1).1 b hb
    unfold completion
    split
    · next k f =>
      obtain ⟨k', -, hd⟩ := h.inOrder e mem b hm order k f
      rw [ws] at hd
      cases hd
    · rfl
  refine ⟨_, h.advanceOne hx { e with fate := .completed t.length } split ws rfl
    (by simp [effs, filterMap_cons, CallEffect.written]) ?_ ho'
    (fun _ _ _ _ => hq _) ?_ ?_ ?_ (by simp [effs])⟩
  · rw [filter_append, filter_cons_of_neg (by simp [isWaiting]),
      map_append, viewFirst, viewLast, cs', map_nil, nil_append]
  · have hd := h.settledAt_of_gone hx mem ws (not_holds hv front cs' callId)
      ⟨_, by rw [effs]; exact mem_singleton_self _, by rw [callId]; rfl⟩
    have hf := h.faithful e mem
    simp only [Faithful, ws] at hf
    refine ⟨hd, (acceptedBefore_concat le_rfl).2 (hf.2.2.1 hs), x, by simp, ?_⟩
    rw [i, cid]
  · have before : first.filterMap completion = completions t := by
      have none_e : e.completion = none := by simp [completion, ws]
      rw [← h.completed, split]
      simp [none_e, none_last]
    simp [before, none_last, effs, completion, CallEffect.completion, callId, cid]
  · intro k hk
    cases hk
    exact ⟨rfl, done⟩

/-- Every waiting request fails with the delivery its call reached. -/
theorem close (h : Ledger t q l) (hx : x.before.callQueue = q) (err : PendingCall → CallFailure)
    (failure_ne : ∀ p, err p ≠ .locallyRejected) (cs' : x.after.callQueue.calls = [])
    (effs : callEffects x.effects = q.calls.map fun p => .fail p.callId (err p) p.delivery) :
    ∃ l', Ledger (t ++ [x]) x.after.callQueue l' := by
  let g (e : LedgerEntry) : LedgerEntry :=
    if e.isWaiting then { e with fate := .failed t.length } else e
  have hwa : ∀ {e : LedgerEntry}, e.fate = .waiting → g e = { e with fate := .failed t.length } :=
    fun hw => by simp [g, isWaiting, hw]
  have hn : ∀ e : LedgerEntry, (g e).isWaiting = false := by
    intro e
    by_cases hw : e.fate = .waiting
    · simp [hwa hw, isWaiting]
    · simp [g, isWaiting, hw]
  refine ⟨_, h.advance (g := g) ?_ ?_ ?_ ?_ (fun _ after => absurd cs' after) ?_ ?_ ?_ ?_⟩
  · intro e _
    simp only [g]
    split_ifs <;> rfl
  · intro e _ hd
    simp [g, isWaiting, hd]
  · rw [effs, filterMap_map]
    simp [Function.comp_def, CallEffect.written]
  · rw [cs', filter_eq_nil_iff.2 (by simp [hn])]
    rfl
  · intro e he ws
    obtain ⟨p, hp, shows⟩ := h.exists_call he ws
    obtain ⟨callId, -⟩ := view_eq_iff.1 shows
    have hd := h.settledAt_of_gone hx he ws (by rintro ⟨r, hr, -⟩; rw [cs'] at hr; cases hr)
      ⟨_, by rw [effs]; exact mem_map_of_mem hp, by rw [callId]; rfl⟩
    have hfa := h.faithful e he
    simp only [Faithful, ws] at hfa
    rw [hwa ws]
    exact ⟨hd, hfa.2.2.trans (acceptedBefore_concat le_rfl).symm⟩
  · rw [effs, filterMap_map, filterMap_map, ← h.completed]
    have none_new : (q.calls.filterMap
        (CallEffect.completion t.length ∘ fun p => .fail p.callId (err p) p.delivery)) = [] := by
      simp [Function.comp_def, CallEffect.completion]
    rw [none_new, append_nil]
    refine filterMap_congr fun e _ => ?_
    cases hf : e.isWaiting
    · simp [g, hf]
    · have ws : e.fate = .waiting := by simpa [isWaiting] using hf
      simp [hwa ws, completion, ws]
  · intro b _ ws k hk
    rw [hwa ws] at hk
    cases hk
  · intro c f d fail
    rw [effs, mem_map] at fail
    obtain ⟨p, hp, eq⟩ := fail
    cases eq
    have hs : p.view ∈ (l.filter isWaiting).map view := by
      rw [h.pending]
      exact mem_map_of_mem hp
    obtain ⟨e, he, shows⟩ := mem_map.1 hs
    obtain ⟨he, hw⟩ := mem_filter.1 he
    have ws : e.fate = .waiting := by simpa [isWaiting] using hw
    obtain ⟨callId, -, -, delivery⟩ := view_eq_iff.1 shows
    refine .inr ⟨g e, mem_map_of_mem he, ?_, ?_, ?_, fun hl => absurd hl (failure_ne p)⟩
    · rw [hwa ws]
      exact callId
    · rw [hwa ws]
    · rw [hwa ws]
      exact delivery

end Ledger

/-! ## Runs have ledgers -/

theorem ConnectionEvent.effects_ok {transition} (ans : x.answer = .ok transition) :
    x.effects = transition.effects := by
  unfold effects
  rw [ans]

theorem ConnectionEvent.effects_error {error} (ans : x.answer = .error error) : x.effects = [] := by
  unfold effects
  rw [ans]

/-- An event of another kind accepts no frame. -/
theorem ConnectionEvent.not_accepts (kind : x.input.kind ≠ .writeSubmitted) (w : Written) :
    ¬x.Accepts w := by
  rintro ⟨i, -⟩
  exact kind (by rw [i]; rfl)

variable {m : ConnectionMachine}

/-- Every event of the machine extends a ledger. -/
theorem Ledger.event (h : Ledger t m.callQueue l) (hv : m.callQueue.Valid) (hin : m.InStep)
    (i : ConnectionInput) :
    let x : ConnectionEvent := event apply m i
    ∃ l', Ledger (t ++ [x]) x.after.callQueue l' := by
  intro x
  have hx : x.before.callQueue = m.callQueue := rfl
  have hi : x.input = i := rfl
  rcases ConnectionEvent.queueStep hin i with ⟨tr, ans, step⟩ | ⟨⟨error, ans⟩, hs⟩
  · have effs := ConnectionEvent.effects_ok (x := x) ans
    rw [← effs] at step
    generalize hd : tr.record.disposition = disposition at step
    generalize he : callEffects x.effects = calls at step
    generalize ha : x.after.callQueue = q' at step
    rw [← ha]
    cases step with
    | keep hk o hno hn =>
      refine ⟨l, h.keep hx (by rw [ha, hk]) (by rw [ha]; exact o) he ?_⟩
      rintro w ⟨ok, transition', answer', hap⟩
      obtain rfl : tr = transition' := Except.ok.inj (ans.symm.trans answer')
      exact hn ⟨by rw [← hi, ok]; rfl, by rw [← hd, hap]⟩
    | refuse failure_ne =>
      exact ⟨l, h.refuse hx ha he failure_ne (by rw [hi]; rfl) ans hd
        (ConnectionEvent.not_accepts (by rw [hi]; nofun))⟩
    | enqueue o hf =>
      exact ⟨_, h.enqueue hx o ha he (ConnectionEvent.not_accepts (by rw [hi]; nofun))⟩
    | accept o cs' first hp =>
      exact h.accept hv hx o cs' ha hi ans hd he
    | abort o cs' hp after ho' =>
      exact h.abort hv hx cs' hp (by rw [ha, after]) (by rw [ha]; exact ho') he
        (ConnectionEvent.not_accepts (by rw [hi]; nofun))
    | complete o cs' hp after ho' =>
      exact h.complete hv hx o cs' hp (by rw [ha, after]) (by rw [ha]; exact ho')
        hi he (ConnectionEvent.not_accepts (by rw [hi]; nofun))
    | close err failure_ne after =>
      exact h.close hx err failure_ne (by rw [ha, after]) he
  · have hu : x.after.callQueue = m.callQueue := congrArg callQueue hs
    refine ⟨l, h.keep hx (by rw [hu]) (by rw [hu]; exact fun _ _ => rfl)
      (by rw [ConnectionEvent.effects_error (x := x) ans]; rfl) ?_⟩
    rintro w ⟨-, tr, answer', -⟩
    cases ans.symm.trans answer'

/-- Every run of a connection has a ledger, and its queue is valid. -/
theorem exists_ledger (initial : m.Initial) (inputs : List ConnectionInput) :
    (m.after inputs).callQueue.Valid ∧ ∃ l, Ledger (m.run inputs) (m.after inputs).callQueue l := by
  refine run_induction apply (P := fun _ t m' =>
    m'.callQueue.Valid ∧ ∃ l, Ledger t m'.callQueue l) ?_ ?_ inputs
  · rw [initial.callQueue]
    exact ⟨⟨List.Pairwise.nil, by simp⟩, [], .start⟩
  · rintro is i ⟨hv, l, ledger⟩
    have hi : (final apply m is).InStep := initial.inStep_after is
    refine ⟨?_, ledger.event hv hi i⟩
    rcases ConnectionEvent.queueStep hi i with
      ⟨transition, -, step⟩ | ⟨-, same⟩
    · exact step.valid hv
    · rw [show (apply _ i).1 = _ from same]
      exact hv

/-! ## Responses pair with requests in order -/

theorem mem_callLog {effect : CallEffect} :
    (k, effect) ∈ callLog t ↔ ∃ x, t[k]? = some x ∧ effect ∈ callEffects x.effects := by
  simp only [callLog, mem_flatMap, mem_map, Prod.mk.injEq, Prod.exists, mk_mem_zipIdx_iff_getElem?]
  constructor
  · rintro ⟨x, j, hx, e, he, rfl, rfl⟩
    exact ⟨x, hx, he⟩
  · rintro ⟨x, hx, he⟩
    exact ⟨x, k, hx, effect, he, rfl, rfl⟩

/-- Completed requests of a ledger with the events that completed them. -/
def completedEntries (l : List LedgerEntry) : List (Written × ℕ) :=
  l.filterMap fun e => match e.fate with
    | .completed k => some (e.write, k)
    | _ => none

theorem completedEntries_sublist (l : List LedgerEntry) :
    ((completedEntries l).map Prod.fst).Sublist (l.map write) := by
  induction l with
  | nil => exact List.Sublist.refl _
  | cons e l ih =>
    cases hf : e.fate with
    | completed k => simpa [completedEntries, hf] using ih.cons_cons e.write
    | waiting | failed k => simpa [completedEntries, hf] using ih.cons e.write

theorem completedEntries_completion (l : List LedgerEntry) :
    (completedEntries l).map (fun (w, k) => (k, w.callId, w.correlationId)) =
      l.filterMap completion := by
  rw [completedEntries, map_filterMap]
  refine filterMap_congr fun e _ => ?_
  cases hf : e.fate <;> simp [completion, hf]

/-- Completions are, in order, some of the written requests, each with that request's call
and correlation. A request is completed only by a response that carries its correlation,
after its frame was accepted, and after every request written before it was settled. -/
theorem responses_pair_in_order (initial : m.Initial) (inputs : List ConnectionInput) :
    let t := m.run inputs
    ∃ matched : List (Written × ℕ), (matched.map Prod.fst).Sublist (writes t) ∧
      matched.map (fun (w, k) => (k, w.callId, w.correlationId)) = completions t ∧
      ∀ w k, (w, k) ∈ matched → w.at_ < k ∧ AcceptedBefore t w k ∧
        (∃ x, t[k]? = some x ∧ x.input = .responseReceived w.epoch w.transportId w.correlationId) ∧
        ∀ w' ∈ writes t, w'.at_ < w.at_ → ∃ k' < k, SettledAt t w' k' := by
  intro t
  obtain ⟨-, l, ledger⟩ := exists_ledger initial inputs
  refine ⟨completedEntries l, ?_, ?_, ?_⟩
  · rw [← ledger.written]
    exact completedEntries_sublist l
  · rw [completedEntries_completion, ledger.completed]
  · intro w k mem
    obtain ⟨e, he, eq⟩ := mem_filterMap.1 mem
    cases hf : e.fate with
    | completed k' =>
      simp only [hf, Option.some.injEq, Prod.mk.injEq] at eq
      obtain ⟨rfl, rfl⟩ := eq
      have hfa := ledger.faithful e he
      simp only [Faithful, hf] at hfa
      obtain ⟨hs, hac, resp⟩ := hfa
      refine ⟨hs.1, hac, resp, fun w' hw' old => ?_⟩
      rw [← ledger.written, mem_map] at hw'
      obtain ⟨a, ha, rfl⟩ := hw'
      obtain ⟨k'', lt, done⟩ := ledger.inOrder a ha e he old k' hf
      exact ⟨k'', lt, (ledger.faithful a ha).settled done⟩
    | waiting | failed k' => simp [hf] at eq

theorem responses_pair_in_order_twoCalls :
    let t := (new ⟨1⟩ smallLimits).run twoCalls
    completions t = [(6, ⟨7⟩, ⟨0⟩)] ∧ ∃ w ∈ writes t, AcceptedBefore t w 6 := by
  refine ⟨by decide, ?_⟩
  obtain ⟨matched, sub, eq, law⟩ := responses_pair_in_order (.plain ⟨1⟩ smallLimits) twoCalls
  have one : completions ((new ⟨1⟩ smallLimits).run twoCalls) = [(6, ⟨7⟩, ⟨0⟩)] := by decide
  rw [one] at eq
  obtain ⟨⟨w, k⟩, rest, rfl, head, -⟩ := map_eq_cons_iff.1 eq
  obtain ⟨rfl, -⟩ := Prod.mk.inj head
  exact ⟨w, sub.subset (by simp), (law w _ (by simp)).2.1⟩

/-! ## Failures report what was delivered -/

/-- A failed call was refused when it was submitted, and then nothing was sent, or it is a
written request, and then it was possibly sent exactly if the writer accepted its frame
while it was pending. An accepted frame is never reported as rejected locally. -/
theorem failures_report_delivery (initial : m.Initial) (inputs : List ConnectionInput) :
    let t := m.run inputs
    ∀ k x callId err delivery, t[k]? = some x → .failCall callId err delivery ∈ x.effects →
      (RefusedAt t callId k ∧ delivery = .notSent ∧ err ≠ .locallyRejected) ∨
      ∃ w ∈ writes t, w.callId = callId ∧ SettledAt t w k ∧
        (delivery = .possiblySent ↔ AcceptedBefore t w k) ∧
        (err = .locallyRejected → ¬AcceptedBefore t w k) := by
  intro t k x callId err delivery hx mem
  obtain ⟨-, l, ledger⟩ := exists_ledger initial inputs
  have hl : (k, .fail callId err delivery) ∈ callLog t :=
    mem_callLog.2 ⟨x, hx, mem_filterMap.2 ⟨_, mem, rfl⟩⟩
  rcases ledger.failures k callId err delivery hl with hre | ⟨e, he, call, fate, rest⟩
  · exact .inl hre
  obtain ⟨rfl, hu⟩ := rest
  have hf := ledger.faithful e he
  simp only [Faithful, fate] at hf
  refine .inr ⟨e.write, ?_, call, hf.1, hf.2, ?_⟩
  · rw [← ledger.written]
    exact mem_map_of_mem he
  · intro hr ha
    have hs := hf.2.2 ha
    rw [hu hr] at hs
    cases hs

theorem failures_report_delivery_twoCalls :
    let t := (new ⟨1⟩ smallLimits).run twoCalls
    ∃ w ∈ writes t, w.callId = ⟨8⟩ ∧ SettledAt t w 7 ∧ ¬AcceptedBefore t w 7 := by
  set t := (new ⟨1⟩ smallLimits).run twoCalls with ht
  have hc : ∃ x, t[7]? = some x ∧ .failCall ⟨8⟩ (.connectionClosed (.transportLost .reset))
      .notSent ∈ x.effects ∧ x.input.submitCall = none := by
    refine ⟨_, rfl, by decide, by decide⟩
  obtain ⟨x, hx, mem, hn⟩ := hc
  rcases failures_report_delivery (.plain ⟨1⟩ smallLimits) twoCalls 7 x _ _ _ hx mem with
    ⟨⟨y, -, hy, submit, -⟩, -⟩ | ⟨w, hw, call, settled, delivery, -⟩
  · rw [show t[7]? = some y from hy] at hx
    cases hx
    rw [hn] at submit
    cases submit
  · exact ⟨w, hw, call, settled, fun ha => by simpa using delivery.2 ha⟩

end KafkaDriver
