import KafkaDriver.OwnerSteps

/-!
# Invalidation barriers and the fetches they wait for

The caller of an invalidation waits in a barrier until the route is no longer withdrawn, or no
fetch that could bring newer evidence is left. Only scans look at barriers, and a scan begins
when a fetch ends, so a barrier must be `Live` : its query is in flight or queued, or a
pending scan will reach it.

The machine answers a repeated report `coalesced` when the route is withdrawn already and the
report is no later than the last one, whether or not a fetch is left. A failed fetch ends the
first report and leaves the route withdrawn; the same report after that is told that work in
flight covers it, and its barrier is never looked at (`coalesced_barrier_stranded`). In runs
without such a report (`Abandoned`) every barrier is live and every `coalesced` answer true
(`barriers_live`).
-/

namespace KafkaDriver

open Fallible Runs List MetadataInvalidations MetadataMachine

/-! ## The machine's answer -/

namespace MetadataMachine

variable {m : MetadataMachine} {target : InvalidationTarget} {observedAt : OutcomeStamp}
  {operationId : OperationId}

/-- The route is withdrawn, the report is no later than the last one, and the fetch that one
asked for is over. -/
def Abandoned (m : MetadataMachine) (target : InvalidationTarget) (observedAt : OutcomeStamp) :
    Prop :=
  target.isPending m.revocations = true ∧ target.requires m.revocations observedAt = false ∧
    m.queryPending target.query = false

instance : Decidable (m.Abandoned target observedAt) :=
  inferInstanceAs (Decidable (_ ∧ _ ∧ _))

theorem withdraw_outstanding :
    (m.withdraw target observedAt operationId).1.outstanding =
        (m.refresh target.query operationId).1.outstanding ∧
      (m.withdraw target observedAt operationId).2 = (m.refresh target.query operationId).2 := by
  unfold withdraw
  cases m.refresh target.query operationId with
  | mk m' tr =>
    dsimp only
    split_ifs
    · exact ⟨rfl, rfl⟩
    · exact ⟨mapCurrent_outstanding _ _, rfl⟩

/-- An invalidation ends no fetch. -/
theorem invalidateTarget_outstanding :
    m.outstanding ⊆ (m.invalidateTarget target observedAt operationId).1.outstanding := by
  rcases m.invalidateTarget_cases target observedAt operationId with hs | ⟨-, -, hr⟩ | hg
  · rw [hs]
    exact fun _ => id
  · rw [hr]
    exact fun _ => id
  · rw [hg, withdraw_outstanding.1]
    exact (m.admitQuery_admission target.query operationId .mustFollowCurrent).outstanding_subset

/-- An invalidation that waits for evidence has its fetch in flight or queued, unless it
repeats a report whose fetch is over. -/
theorem invalidateTarget_pending
    (hw : MetadataOwner.waitsForEvidence
      (m.invalidateTarget target observedAt operationId).2.disposition = true)
    (hr : .generationExhausted ∉ (m.invalidateTarget target observedAt operationId).2.effects)
    (ht : ¬ m.Abandoned target observedAt) :
    target.query ∈ (m.invalidateTarget target observedAt operationId).1.outstanding := by
  rcases m.invalidateTarget_cases target observedAt operationId with hs | ⟨p, hn, hre⟩ | hg
  · rw [hs] at hw
    cases hw
  · rw [hre]
    by_contra ended
    exact ht ⟨p, hn, decide_eq_false ended⟩
  · rw [hg, withdraw_outstanding.2] at hw hr
    rw [hg, withdraw_outstanding.1]
    refine (m.admitQuery_admission target.query operationId .mustFollowCurrent).mem_outstanding ?_
      hr
    intro hf
    rw [refresh, hf] at hw
    cases hw

/-- A coalesced report has no effect. -/
theorem effects_of_coalesced
    (hc : (m.invalidateTarget target observedAt operationId).2.disposition = .coalesced) :
    (m.invalidateTarget target observedAt operationId).2.effects = [] := by
  rcases m.invalidateTarget_cases target observedAt operationId with
    stale | ⟨-, -, repeated⟩ | withdrawn
  · rw [stale]
    rfl
  · rw [repeated]
    rfl
  · rw [withdrawn, withdraw_outstanding.2] at hc ⊢
    exact (m.admitQuery_admission target.query operationId _).effects_of_coalesced hc

end MetadataMachine

/-! ## Live barriers -/

namespace MetadataOwner

/-- The fetch of every barrier is in flight or queued, or a pending scan covers the barrier. -/
def Live (o : MetadataOwner) : Prop :=
  ∀ index barrier, o.invalidations.pending[index]? = some barrier →
    o.machine.queryPending barrier.target.query = true ∨ index < o.invalidations.scanRemaining

/-- The routes of the barriers. -/
def targets (i : MetadataInvalidations) : List InvalidationTarget := i.pending.map (·.target)

/-- The pending scan is inside the queue, and the barriers behind it have their fetches. -/
structure Tended (machine : MetadataMachine) (i : MetadataInvalidations) : Prop where
  covered : i.scanRemaining ≤ (targets i).length
  fetched : ∀ target ∈ (targets i).drop i.scanRemaining, target.query ∈ machine.outstanding

theorem Tended.live {o : MetadataOwner} (h : Tended o.machine o.invalidations) : o.Live := by
  intro k bar hg
  by_cases reached : k < o.invalidations.scanRemaining
  · exact .inr reached
  · refine .inl (decide_eq_true (h.fetched bar.target ?_))
    refine mem_iff_getElem?.2 ⟨k - o.invalidations.scanRemaining, ?_⟩
    rw [getElem?_drop, Nat.add_sub_cancel' (Nat.le_of_not_lt reached), targets, getElem?_map, hg]
    rfl

variable {machine machine' : MetadataMachine} {i : MetadataInvalidations}

theorem Tended.mono (h : Tended machine i) (more : machine.outstanding ⊆ machine'.outstanding) :
    Tended machine' i :=
  ⟨h.covered, fun tgt hb => more (h.fetched tgt hb)⟩

/-- A scan that just began covers every barrier. -/
theorem tended_beginScan (machine : MetadataMachine) (i : MetadataInvalidations) :
    Tended machine i.beginScan := by
  have all : (targets i.beginScan).length = i.beginScan.scanRemaining := length_map _
  refine ⟨all.ge, ?_⟩
  rw [← all, drop_length]
  simp

variable {target : InvalidationTarget}

/-- An examined barrier that stays has its fetch. -/
theorem settled_eq_none (hs : target.settled machine = none) :
    target.query ∈ machine.outstanding := by
  unfold InvalidationTarget.settled at hs
  split_ifs at hs with _ hf
  exact of_decide_eq_true hf

theorem Tended.examineLoop (h : Tended machine i) {count : ℕ} (p : count ≤ i.scanRemaining) :
    Tended machine (i.examineLoop machine count).1 := by
  induction count generalizing i with
  | zero => exact h
  | succ count ih =>
    obtain ⟨bar, rest, front⟩ : ∃ bar rest, i.pending = bar :: rest := by
      refine exists_cons_of_length_pos ?_
      have hc := h.covered
      rw [targets, length_map] at hc
      omega
    have one : wrappingPred i.scanRemaining = i.scanRemaining - 1 :=
      if_neg (Nat.ne_zero_of_lt p)
    have hc := h.covered
    have hf := h.fetched
    obtain ⟨left, remaining⟩ : ∃ n, i.scanRemaining = n + 1 :=
      Nat.exists_eq_succ_of_ne_zero (Nat.ne_zero_of_lt p)
    simp only [targets, front, map_cons, length_cons, remaining, drop_succ_cons,
      Nat.succ_le_succ_iff, length_map] at hc hf
    rw [remaining, Nat.succ_sub_one] at one
    unfold examineLoop
    rw [front]
    dsimp only
    split
    · refine ih ⟨?_, ?_⟩ ?_
      · simpa [targets, remaining, one] using hc
      · simpa [targets, remaining, one] using hf
      · simp only [remaining, one]
        omega
    · rename_i hs
      refine ih ⟨?_, ?_⟩ ?_
      · simp only [targets, remaining, one, map_append, length_append, length_map]
        omega
      · simp only [targets, remaining, one, map_append]
        rw [drop_append_of_le_length (by simpa using hc)]
        intro tgt hb
        rcases mem_append.1 hb with hb | last
        · exact hf tgt hb
        · rw [mem_singleton.1 last]
          exact settled_eq_none hs
      · simp only [remaining, one]
        omega

theorem Tended.barrierStep {i' : MetadataInvalidations} (h : Tended machine i)
    (step : BarrierStep machine i i') : Tended machine i' := by
  cases step with
  | same => exact h
  | begun => exact tended_beginScan machine i
  | scanned b => exact h.examineLoop (min_le_left _ _)
  | failed => exact ⟨Nat.zero_le _, by simp [targets, failAll]⟩

/-- A new subscriber leaves the routes as they are. -/
theorem targets_join (i : MetadataInvalidations) (meant : InvalidationTarget → Bool) (done : ℕ) :
    (i.join meant done).1.scanRemaining = i.scanRemaining ∧
      targets (i.join meant done).1 = targets i := by
  unfold join
  split
  · exact ⟨rfl, rfl⟩
  rename_i k hf
  split_ifs
  · exact ⟨rfl, rfl⟩
  refine ⟨rfl, ext_getElem? fun n => ?_⟩
  simp only [targets, getElem?_map, getElem?_modify]
  cases i.pending[n]? with
  | none => rfl
  | some barrier => by_cases same : k = n <;> simp [same]

/-- Subscribing keeps the routes of the barriers, or adds one behind them. -/
theorem targets_subscribe (i : MetadataInvalidations) (tgt : InvalidationTarget) (done : ℕ) :
    (i.subscribe tgt done).1.scanRemaining = i.scanRemaining ∧
      (targets (i.subscribe tgt done).1 = targets i ∨
        targets (i.subscribe tgt done).1 = targets i ++ [tgt]) := by
  have hj : (i.joinTarget tgt done).1.scanRemaining = i.scanRemaining ∧
      targets (i.joinTarget tgt done).1 = targets i := by
    cases tgt with
    | controller rt | partition rt => exact targets_join i _ done
  unfold subscribe
  split
  · rename_i hs
    rw [hs] at hj
    exact ⟨hj.1, .inl hj.2⟩
  · rename_i hs
    rw [hs] at hj
    exact ⟨hj.1, .inl hj.2⟩
  · rename_i hs
    rw [hs] at hj
    split_ifs
    · refine ⟨hj.1, .inr ?_⟩
      rw [← hj.2]
      exact map_append
    · exact ⟨hj.1, .inl hj.2⟩

theorem Tended.subscribe (h : Tended machine i) (hf : target.query ∈ machine.outstanding)
    (done : ℕ) : Tended machine (i.subscribe target done).1 := by
  obtain ⟨left, hs | ha⟩ := targets_subscribe i target done
  · exact ⟨by rw [left, hs]; exact h.covered, by rw [left, hs]; exact h.fetched⟩
  · refine ⟨?_, ?_⟩
    · rw [left, ha, length_append]
      exact h.covered.trans (Nat.le_add_right _ _)
    · rw [left, ha, drop_append_of_le_length h.covered]
      intro ne hb
      rcases mem_append.1 hb with hb | last
      · exact h.fetched ne hb
      · rw [mem_singleton.1 last]
        exact hf

/-! ## Steps and runs -/

/-- Effects that were carried out are not those of an exhausted generation. -/
theorem Sends.room {ev : EvidenceStamp} {effs : List MetadataEffect}
    {slots slots' : FetchSlots}
    (hs : Sends ev effs slots slots') : .generationExhausted ∉ effs := by
  cases hs <;> simp

/-- A call without an abandoned report keeps every barrier tended. -/
theorem Tended.step {o : MetadataOwner} {c : MetadataCall} {t t' : OwnerTurn}
    (ht : ∀ target observedAt, c.invalidation = some (target, observedAt) →
      ¬ o.machine.Abandoned target observedAt)
    (step : OwnerStep o c t t') (h : Tended t.owner.machine t.owner.invalidations) :
    Tended t'.owner.machine t'.owner.invalidations := by
  cases step with
  | quiet hq =>
    rw [hq.machine]
    exact h.barrierStep hq.invalidations
  | submitted hk hf => exact h
  | demanded _ d ha hs bs =>
    rw [ha.machine, bs]
    cases d with
    | resolve q op | refresh q op =>
      exact h.mono (admitQuery_admission _ _ _ _).outstanding_subset
  | invalidated ev done had first ha hs bs =>
    rename_i target observedAt op
    rw [apply_invalidationInput] at hs bs
    rw [ha.machine, apply_invalidationInput, bs]
    have hk : Tended (t.owner.machine.invalidateTarget target observedAt op).1
        t.owner.invalidations := h.mono invalidateTarget_outstanding
    unfold subscribed
    split_ifs with hw
    · refine hk.subscribe (invalidateTarget_pending hw hs.room ?_) done
      rw [first]
      exact ht target observedAt had
    · exact hk
  | completed _ hg out ha hs bs =>
    rw [bs]
    exact tended_beginScan _ _

/-- Every barrier is live and every `coalesced` answer is true, in every run in which no
failure is reported again after the fetch its first report asked for is over. -/
theorem barriers_live (build : Build) (limits : MetadataLimits) (calls : List MetadataCall)
    (succeeded : ∀ e ∈ trace (step build) (new limits) calls, e.answer.failure = none)
    (tended : ∀ e ∈ trace (step build) (new limits) calls, ∀ target observedAt,
      e.input.invalidation = some (target, observedAt) →
        ¬ e.before.machine.Abandoned target observedAt) :
    (final (step build) (new limits) calls).Live ∧
      ∀ e ∈ trace (step build) (new limits) calls, ∀ target observedAt operationId,
        e.input.invalidation = some (target, observedAt) →
        (e.before.machine.invalidateTarget target observedAt operationId).2.disposition =
          .coalesced →
        (e.before.machine.invalidateTarget target observedAt operationId).1.queryPending
          target.query = true := by
  constructor
  · refine Tended.live (run_owner (I := fun _ o => Tended o.machine o.invalidations)
      (G := fun _ e =>
      ∀ target observedAt, e.input.invalidation = some (target, observedAt) →
        ¬ e.before.machine.Abandoned target observedAt) ?_ ?_ calls succeeded ?_)
    · exact ⟨Nat.zero_le _, by simp [targets, new, MetadataInvalidations.new]⟩
    · intro past e h hg _ steps
      exact steps_invariant (J := fun t => Tended t.owner.machine t.owner.invalidations)
        (fun _ _ => Tended.step hg) steps h
    · intro past e rest split
      exact tended e (by simp [split])
  · intro e mem target observedAt operationId ha hc
    refine decide_eq_true (invalidateTarget_pending (by rw [hc]; rfl) ?_
      (tended e mem target observedAt ha))
    rw [effects_of_coalesced hc]
    exact not_mem_nil

/-! ## A report after its fetch failed -/

/-- The controller of the first snapshot. -/
def firstController : BrokerRoute := ⟨⟨1⟩, ⟨1⟩, ⟨1⟩⟩

/-- The controller is found, reported, and the fetch for it fails. -/
def reportedOnce : List MetadataCall :=
  [.drive (openTurn .pending) ⟨1⟩,
    .drive (openTurn (.responded (soleResponse []))) ⟨2⟩,
    .invalidateBrokerRoute firstController ⟨5⟩ 0 openRpc ⟨6⟩,
    .drive (openTurn .failed) ⟨7⟩,
    .drainInvalidationWaiters]

/-- The same failure reported again. -/
def reportedAgain : List MetadataCall :=
  reportedOnce ++ [.invalidateBrokerRoute firstController ⟨5⟩ 1 openRpc ⟨8⟩]

/-- The second report is told that work in flight covers it, and waits for nothing. -/
theorem coalesced_barrier_stranded :
    (∀ e ∈ trace (step .debug) (new smallLimits) reportedAgain, e.answer.failure = none) ∧
      ((final (step .debug) (new smallLimits) reportedOnce).machine.invalidate firstController ⟨5⟩
        ⟨5⟩).2.disposition = .coalesced ∧
      (final (step .debug) (new smallLimits) reportedAgain).machine.queryPending .cluster = false ∧
      ¬ (final (step .debug) (new smallLimits) reportedAgain).Live := by
  refine ⟨by decide +kernel, by decide +kernel, by decide +kernel, fun hl => ?_⟩
  have hh : (final (step .debug) (new smallLimits) reportedAgain).invalidations.pending[0]? =
      some ⟨.controller firstController, [1]⟩ := by decide +kernel
  rcases hl 0 _ hh with hf | hr
  · exact absurd hf (by decide +kernel)
  · exact absurd hr (by decide +kernel)

/-- The barrier of the first report is live. -/
theorem barriers_live_reportedOnce :
    let o := final (step .debug) (new smallLimits) (reportedOnce.take 3)
    o.invalidations.pending.length = 1 ∧ o.Live := by
  refine ⟨by decide +kernel, (barriers_live .debug smallLimits _ (by decide +kernel) ?_).1⟩
  have hg : ∀ e ∈ trace (step .debug) (new smallLimits) (reportedOnce.take 3),
      (e.input.invalidation.all fun report =>
        !decide (e.before.machine.Abandoned report.1 report.2)) = true := by decide +kernel
  intro e mem target observedAt ha
  have first := hg e mem
  rw [ha] at first
  simpa using first

end MetadataOwner

end KafkaDriver
