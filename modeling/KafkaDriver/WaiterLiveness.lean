import KafkaDriver.InvalidationLiveness
import KafkaDriver.TopicViewFreshness

/-!
# No waiter is stranded

Only scans look at waiters, and a scan carried out over several turns leaves the waiters it
could not decide behind those that came since. `Attended` says that this never loses one :
behind the waiters the pending scan still has to reach, everyone waits for a query that is in
flight or queued. A query ends only with the outcome of its fetch, and with that a new scan of
everyone begins, so every move keeps it (`attended_move`).

So a waiter whose query is over is one the pending scan will reach, route or fail
(`no_waiter_stranded`).
-/

namespace KafkaDriver

open Fallible Runs List Waiters

/-! ## What a demand keeps -/

namespace MetadataOwner.IsDemand

variable {m : MetadataMachine} {i : MetadataInput}

theorem outstanding_subset (d : IsDemand i) : m.outstanding ⊆ (m.apply i).1.outstanding := by
  cases d with
  | resolve q op | refresh q op => exact (m.admitQuery_admission q op _).outstanding_subset

/-- A demand without room changes nothing. -/
theorem eq_of_full (d : IsDemand i)
    (hf : (m.apply i).2.disposition = .queryCapacityReached) : (m.apply i).1 = m := by
  cases d with
  | resolve q op | refresh q op => exact (m.admitQuery_admission q op _).eq_of_full hf

end MetadataOwner.IsDemand

/-! ## Attended waiters -/

namespace WaitClass

variable {c : WaitClass} {m m' : MetadataMachine} {w w' : Waiters c.Subject}

/-- Behind the pending scan everyone waits for an outstanding query. -/
structure Attended (c : WaitClass) (m : MetadataMachine) (w : Waiters c.Subject) : Prop where
  scannable : w.Scannable
  pending : ∀ entry ∈ w.waiting.drop w.scanRemaining,
    c.query entry.value.value ∈ m.outstanding

theorem Attended.mono (ha : c.Attended m w) (more : m.outstanding ⊆ m'.outstanding) :
    c.Attended m' w :=
  ⟨ha.scannable, fun e mem => more (ha.pending e mem)⟩

/-- A scan that just began reaches everyone. -/
theorem attended_beginScan (hs : w.Scannable) : c.Attended m w.beginScan := by
  refine ⟨hs.beginScan, fun e mem => ?_⟩
  have past : w.waiting.drop w.calls.len = [] :=
    drop_eq_nil_of_le (WaitQueue.len_eq w.calls).ge
  have mem : e ∈ w.waiting.drop w.calls.len := mem
  rw [past] at mem
  cases mem

theorem attended_failAll (err : c.Subject → MetadataFate) : c.Attended m (w.failAll err).1 := by
  refine ⟨w.failAll_scannable err, fun e mem => ?_⟩
  cases mem_of_mem_drop mem

variable {v : c.Subject}

/-- A waiter that is not answered waits for an outstanding query. -/
theorem pending_of_examine {reserve : ℕ → Bool} (stays : c.examine reserve m v = none) :
    c.query v ∈ m.outstanding := by
  cases c with
  | partition =>
    simp only [examine, PartitionWaiters.examine] at stays
    split at stays
    · cases stays
    · split_ifs at stays with p
      exact of_decide_eq_true p
  | controller =>
    simp only [examine, ControllerWaiters.examine] at stays
    split at stays
    · cases stays
    · split_ifs at stays with p
      exact of_decide_eq_true p
  | view =>
    simp only [examine, TopicViewWaiters.examine] at stays
    split at stays
    · cases stays
    split at stays
    · cases stays
    · cases stays
    · split_ifs at stays with p
      exact of_decide_eq_true p

theorem pending_of_answer {reserve : ℕ → Bool} {now : Moment} {e : WaitEntry (Charged c.Subject)}
    (stays : answer c.policy now (c.examine reserve m) e = none) :
    c.query e.value.value ∈ m.outstanding := by
  unfold answer verdict at stays
  split_ifs at stays
  exact pending_of_examine stays

theorem Attended.scan (ha : c.Attended m w) (build : Build) (reserve : ℕ → Bool)
    (now : Moment) (b : NonZeroUsize) :
    c.Attended m (w.scan build c.policy now b (c.examine reserve m)).1 := by
  have hs := ha.scannable
  refine ⟨(hs.scan build c.policy now b _).1, fun e mem => ?_⟩
  rcases hs.scan_waiting c.policy now build b (c.examine reserve m) with
    ⟨idle, spent, fewer⟩ | ⟨remaining, waiting⟩
  · refine ha.pending e ?_
    rw [spent, drop_zero] at mem
    rw [idle, drop_zero]
    exact fewer.subset mem
  · -- the waiters behind the scan, and those it just left undecided
    have hc := hs.covered
    rw [remaining, waiting, drop_append_of_le_length (by rw [length_drop]; omega),
      drop_drop, Nat.add_sub_cancel' (min_le_left _ _)] at mem
    rcases mem_append.1 mem with hb | stays
    · exact ha.pending e hb
    · exact pending_of_answer (Option.isNone_iff_eq_none.1 (mem_filter.1 stays).2)

/-- A waiter queued with its demand. -/
theorem Attended.admitted (ha : c.Attended m w) {bytes : ℕ} {due : Moment} {fs : List MetadataFate}
    (ans : w.admitEntry c.policy v bytes due = (w', fs, true))
    (met : c.query v ∈ m.outstanding) : c.Attended m w' := by
  obtain ⟨hs, left, ws⟩ := ha.scannable.of_admitted ans
  refine ⟨hs, fun e mem => ?_⟩
  rw [left, ws, drop_append_of_le_length ha.scannable.covered] at mem
  rcases mem_append.1 mem with pre | new
  · exact ha.pending e pre
  · rw [mem_singleton.1 new]
    exact met

/-- The demand of a waiter is outstanding after it was met. -/
theorem demand_outstanding {op : OperationId}
    (met : (m.apply (c.demand v op)).2.disposition ≠ .queryCapacityReached)
    (hr : .generationExhausted ∉ (m.apply (c.demand v op)).2.effects) :
    c.query v ∈ (m.apply (c.demand v op)).1.outstanding := by
  cases c with
  | partition | controller => exact (m.admitQuery_admission _ op _).mem_outstanding met hr
  | view =>
    simp only [demand] at met hr ⊢
    split_ifs at met hr ⊢
    · exact (m.admitQuery_admission _ op _).mem_outstanding met hr
    · exact (m.admitQuery_admission _ op _).mem_outstanding met hr

end WaitClass

/-! ## Moves and runs -/

namespace MetadataOwner

variable {build : Build} {o : MetadataOwner} {call : MetadataCall} {t t' : OwnerTurn}

/-- The waiters of all classes are attended. -/
def Attends (o : MetadataOwner) : Prop := ∀ c : WaitClass, c.Attended o.machine (c.get o)

theorem Attends.frame {o' : MetadataOwner} (ha : Attends o)
    (hs : ∀ c : WaitClass, c.get o' = c.get o)
    (more : o.machine.outstanding ⊆ o'.machine.outstanding) : Attends o' := by
  intro c
  rw [hs]
  exact (ha c).mono more

theorem Attends.put {c : WaitClass} {w : Waiters c.Subject} {o' : MetadataOwner}
    (ha : Attends o) (hs : ∀ c' : WaitClass, c'.get o' = c'.get o)
    (more : o.machine.outstanding ⊆ o'.machine.outstanding) (own : c.Attended o'.machine w) :
    Attends (c.put o' w) := by
  intro c'
  rw [c.put_machine]
  by_cases isOwn : c' = c
  · subst isOwn
    rw [WaitClass.get_put]
    exact own
  · rw [WaitClass.get_put_of_ne isOwn, hs]
    exact (ha c').mono more

theorem get_beginScans (c : WaitClass) (o : MetadataOwner) :
    c.get o.beginScans = (c.get o).beginScan := by
  cases c <;> rfl

theorem attended_move (hm : OwnerMove build o call t t') (ha : Attends t.owner) :
    Attends t'.owner := by
  cases hm with
  | drawn ids initialRefresh | submitted hk free =>
    exact ha.frame (fun c => by cases c <;> rfl) fun _ => id
  | begun =>
    intro c
    rw [OwnerTurn.withOwner, get_beginScans]
    exact WaitClass.attended_beginScan (ha c).scannable
  | answered hd | unqueued req err => exact ha
  | drained c reserve now had =>
    exact ha.put (fun _ => rfl) (fun _ => id) ((ha c).scan build reserve now _)
  | barriersDrained b => exact ha.frame (fun c => by cases c <;> rfl) fun _ => id
  | @refused t c v bytes due w fs ans =>
    refine ha.put (fun _ => rfl) (fun _ => id) ?_
    rw [(ha c).scannable.of_refused ans]
    exact ha c
  | @queued t c v bytes due w fs op ev slots had ans met hse =>
    have more := (c.demand_isDemand v op).outstanding_subset (m := t.owner.machine)
    refine ha.put (fun c' => by cases c' <;> rfl) more ?_
    exact ((ha c).mono more).admitted ans (WaitClass.demand_outstanding met hse.room)
  | @turnedAway t c v ws bytes due w w' fs op isMeant ans hf ht =>
    have hs := (c.demand_isDemand v op).eq_of_full hf
    obtain ⟨hsc, left, queue⟩ := (ha c).scannable.of_retracted ans ht
    refine ha.put (fun c' => by cases c' <;> rfl) (by rw [OwnerTurn.asked, hs]; exact fun _ => id)
      ⟨hsc, ?_⟩
    rw [left, queue, OwnerTurn.asked, hs]
    exact (ha c).pending
  | asked d hse =>
    exact ha.frame (fun c => by cases c <;> rfl) d.outstanding_subset
  | @invalidated ids tgt seen done op ev slots had hse =>
    refine ha.frame (fun c => by cases c <;> rfl) ?_
    change _ ⊆ (o.machine.apply (invalidationInput tgt seen op)).1.outstanding
    rw [apply_invalidationInput]
    exact MetadataMachine.invalidateTarget_outstanding
  | @completed t turn fetch i err ids ev slots had ho machine lim hg rs hse =>
    intro c
    rw [OwnerTurn.withOwner, get_beginScans]
    refine WaitClass.attended_beginScan ?_
    cases c with
    | partition => cases err <;> exact (ha .partition).scannable
    | controller => cases err <;> exact (ha .controller).scannable
    | view => exact markTerminal_scannable _ _ _ (ha .view).scannable
  | failed err =>
    intro c
    cases c with
    | partition =>
      exact WaitClass.attended_failAll (c := .partition) fun ws =>
        .failed ws.request err
    | controller =>
      exact WaitClass.attended_failAll (c := .controller) fun ws =>
        .failed ws.request err
    | view =>
      exact WaitClass.attended_failAll (c := .view) fun ws =>
        ws.complete (.error .draining)

variable (build) (limits : MetadataLimits)

theorem attends_new : Attends (new limits) := by
  intro c
  cases c <;> exact ⟨new_scannable _ _, nofun⟩

theorem attends_run (cs : List MetadataCall)
    (hs : ∀ e ∈ trace (step build) (new limits) cs, e.answer.failure = none) :
    Attends (final (step build) (new limits) cs) :=
  run_calls (I := fun _ o => Attends o) (G := fun _ e => e.answer.failure = none)
    (attends_new limits)
    (fun _ _ _ ok ha => steps_invariant (J := fun t => Attends t.owner)
      (fun _ _ => attended_move) (step_moves ok) ha)
    cs fun _ e _ split => hs e (by simp [split])

/-- Where a waiter stands whose query is over : the pending scan reaches it, and answers it. -/
structure Reached (build : Build) (o : MetadataOwner) (c : WaitClass) (i : ℕ)
    (entry : WaitEntry (Charged c.Subject)) : Prop where
  ahead : i < (c.get o).scanRemaining
  answered : ∀ reserve now, i < (c.budget o.limits).get →
    ∃ fate, answer c.policy now (c.examine reserve o.machine) entry = some fate ∧
      fate ∈ (c.scan build reserve now o).2.answered

/-- Every waiter has its query in flight or queued, or the pending scan reaches it and routes or
fails it. -/
theorem no_waiter_stranded (calls : List MetadataCall)
    (succeeded : ∀ e ∈ trace (step build) (new limits) calls, e.answer.failure = none)
    (c : WaitClass) (i : ℕ) (entry : WaitEntry (Charged c.Subject))
    (waits : (c.get (final (step build) (new limits) calls)).waiting[i]? = some entry) :
    (final (step build) (new limits) calls).machine.queryPending
      (c.query entry.value.value) = true ∨
      Reached build (final (step build) (new limits) calls) c i entry := by
  have ha := attends_run build limits calls succeeded c
  generalize final (step build) (new limits) calls = o at ha waits
  by_cases pending : c.query entry.value.value ∈ o.machine.outstanding
  · exact .inl (decide_eq_true pending)
  have hah : i < (c.get o).scanRemaining := by
    by_contra behind
    refine pending (ha.pending entry (mem_of_getElem? (i := i - (c.get o).scanRemaining) ?_))
    rw [getElem?_drop, Nat.add_sub_cancel' (not_lt.1 behind)]
    exact waits
  refine .inr ⟨hah, fun reserve now hi => ?_⟩
  obtain ⟨fate, ht⟩ : ∃ fate,
      answer c.policy now (c.examine reserve o.machine) entry = some fate :=
    Option.ne_none_iff_exists'.1 fun hu => pending (WaitClass.pending_of_answer hu)
  refine ⟨fate, ht, ?_⟩
  have han := (ha.scannable.scan build c.policy now (c.budget o.limits)
    (c.examine reserve o.machine)).2.2
  rw [WaitClass.scan, han]
  refine mem_filterMap.2 ⟨entry, mem_of_getElem? (i := i) ?_, ht⟩
  rw [front, getElem?_take_of_lt (lt_min hah hi)]
  exact waits

/-- The fetch of the topic has ended, and the view that waits for it is yet to be scanned. -/
theorem no_waiter_stranded_topicFetched :
    let o := final (step .debug) (new smallLimits) (topicFetched.take 4)
    let entry : WaitEntry (Charged WaitingTopicView) := ⟨⟨⟨soleTopic, .current, 0, none⟩, 1⟩, ⟨9⟩⟩
    o.machine.queryPending (.topic soleTopic) = false ∧
      (o.machine.queryPending (.topic soleTopic) = true ∨ Reached .debug o .view 0 entry) :=
  ⟨by decide +kernel, no_waiter_stranded .debug smallLimits (topicFetched.take 4)
    (by decide +kernel) .view 0 ⟨⟨⟨soleTopic, .current, 0, none⟩, 1⟩, ⟨9⟩⟩ (by decide +kernel)⟩

end MetadataOwner

end KafkaDriver
