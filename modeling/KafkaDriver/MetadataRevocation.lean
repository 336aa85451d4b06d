import KafkaDriver.MetadataMachine

/-!
# Withdrawn routes stay withdrawn until newer evidence

An invalidation the machine accepts leaves a revocation with a watermark : the latest
observation of the route's failure (`watermark`). One input changes the watermark of a
target in two ways only (`watermark_step`). An accepted invalidation of the target raises
it, and an applied refresh of the target's query with evidence after it removes it. While
it stands, the current snapshot has no route to the target (`Withdrawn`).
-/

namespace KafkaDriver

open List Option MetadataRevocations InvalidationTarget Runs

/-! ## Watermarks -/

namespace InvalidationTarget

/-- Two invalidations are about one route. -/
def same : InvalidationTarget → InvalidationTarget → Bool
  | .controller a, .controller b => a.isSameBroker b
  | .partition a, .partition b => a.isSameAssignment b
  | _, _ => false

/-- The latest observation of the target's failure, while it is withdrawn. -/
def watermark (t : InvalidationTarget) (r : MetadataRevocations) : Option OutcomeStamp :=
  match t with
  | .controller route =>
    (r.controller.filter fun revocation => revocation.route.isSameBroker route).map
      (·.requiredAfter)
  | .partition route =>
    (r.partitions.find? fun revocation => revocation.route.isSameAssignment route).map
      (·.requiredAfter)

/-- The snapshot has no route to the target. -/
def Absent (t : InvalidationTarget) (s : MetadataSnapshot) : Prop :=
  match t with
  | .controller _ => s.controllerRoute = none
  | .partition route => s.partitionRoute route.topic route.partition = none

theorem same_refl (t : InvalidationTarget) : t.same t := by
  cases t <;> simp [same, BrokerRoute.isSameBroker]

variable {t t' : InvalidationTarget} {r : MetadataRevocations} {s : MetadataSnapshot}

theorem isPending_iff : t.isPending r ↔ (t.watermark r).isSome := by
  cases t with
  | controller rt =>
    cases h : r.controller <;>
      simp [isPending, watermark, h, controllerPending]
  | partition rt => simp [isPending, watermark, partitionPending]

variable {w observedAt : OutcomeStamp} {other route : PartitionRoute}

theorem controller_watermark_eq_some {rt : BrokerRoute} :
    (controller rt).watermark r = some w ↔
      ∃ rev, r.controller = some rev ∧ rev.route.isSameBroker rt ∧ rev.requiredAfter = w := by
  simp only [watermark, map_eq_some_iff, filter_eq_some_iff, and_assoc]

theorem partition_watermark_eq_some :
    (partition route).watermark r = some w ↔
      ∃ rev ∈ r.partitions, rev.route.isSameAssignment route ∧ rev.requiredAfter = w := by
  constructor
  · intro hg
    obtain ⟨rev, hf, rfl⟩ := map_eq_some_iff.1 hg
    exact ⟨rev, mem_of_find?_eq_some hf, by simpa using find?_some hf, rfl⟩
  · rintro ⟨rev, mem, hs, rfl⟩
    have hm : (r.partitions.find? fun e => e.route.isSameAssignment route).isSome :=
      find?_isSome.2 ⟨rev, mem, hs⟩
    obtain ⟨first, hf⟩ := isSome_iff_exists.1 hm
    have hfi : first.route.isSameAssignment route := by simpa using find?_some hf
    have hu : first = rev := by
      by_contra different
      have : Std.Symm fun a b : PartitionRevocation => ¬ a.route.isSameAssignment b.route :=
        ⟨fun _ _ h h' => h (PartitionRoute.isSameAssignment_symm h')⟩
      exact r.distinct.forall (mem_of_find?_eq_some hf) mem different
        (PartitionRoute.isSameAssignment_trans hfi (PartitionRoute.isSameAssignment_symm hs))
    rw [watermark, hf, hu]
    rfl

/-- An observation that asks for nothing more is not after the watermark. -/
theorem le_watermark_of_not_requires (p : t.isPending r)
    (hc : t.requires r observedAt = false) : ∃ w, t.watermark r = some w ∧ observedAt ≤ w := by
  obtain ⟨w, hg⟩ := isSome_iff_exists.1 (isPending_iff.1 p)
  refine ⟨w, hg, ?_⟩
  cases t with
  | controller rt =>
    obtain ⟨rev, hf, hs, rfl⟩ := controller_watermark_eq_some.1 hg
    simpa [requires, controllerRequires, hf, hs] using hc
  | partition rt =>
    obtain ⟨rev, mem, hs, rfl⟩ := partition_watermark_eq_some.1 hg
    have hn := any_eq_false.1 hc rev mem
    simpa [hs] using hn

/-- The watermark after a further observation. -/
def raise (w : Option OutcomeStamp) (observedAt : OutcomeStamp) : OutcomeStamp :=
  w.elim observedAt (max · observedAt)

theorem le_raise (w : Option OutcomeStamp) (seen : OutcomeStamp) : seen ≤ raise w seen := by
  cases w with
  | none => exact le_rfl
  | some w => exact le_max_right w seen

theorem watermark_revokeController {route : BrokerRoute}
    (ha : r.controllerPending route ∨ r.controller = none) (other : BrokerRoute) :
    (controller other).watermark (r.revokeController route observedAt) =
      if route.isSameBroker other then some (raise ((controller other).watermark r) observedAt)
      else (controller other).watermark r := by
  cases held : r.controller with
  | none =>
    by_cases isSame : route.isSameBroker other <;>
      simp [watermark, revokeController, held, isSame, raise, Option.filter]
  | some rev =>
    have own : rev.route.isSameBroker route := by
      simpa [controllerPending, held] using ha
    have ht : rev.route.isSameBroker other = route.isSameBroker other := by
      simp only [BrokerRoute.isSameBroker, decide_eq_true_eq] at own ⊢
      rw [own]
    by_cases isSame : route.isSameBroker other <;>
      simp [watermark, revokeController, held, own, ht, isSame, raise, Option.filter]

theorem watermark_revokePartition_self (hs : route.isSameAssignment other) :
    (partition other).watermark (r.revokePartition route observedAt) =
      some (raise ((partition other).watermark r) observedAt) := by
  rw [partition_watermark_eq_some]
  unfold revokePartition
  split_ifs with ha
  · refine ⟨⟨route, observedAt⟩, mem_append_right _ mem_cons_self, hs, ?_⟩
    have : (partition other).watermark r = none := by
      rw [eq_none_iff_forall_not_mem]
      intro w hg
      obtain ⟨rev, mem, hh, -⟩ := partition_watermark_eq_some.1 hg
      exact any_eq_false.1 ha rev mem
        (PartitionRoute.isSameAssignment_trans hh (PartitionRoute.isSameAssignment_symm hs))
    rw [this]
    rfl
  · obtain ⟨rev, mem, own⟩ := any_eq_true.1 (Bool.eq_true_of_not_eq_false ha)
    have hh := PartitionRoute.isSameAssignment_trans own hs
    refine ⟨rev.observe observedAt, mem_map.2 ⟨rev, mem, if_pos own⟩, hh, ?_⟩
    rw [partition_watermark_eq_some.2 ⟨rev, mem, hh, rfl⟩]
    rfl

theorem watermark_revokePartition_of_not_same (ha : ¬ route.isSameAssignment other) :
    (partition other).watermark (r.revokePartition route observedAt) =
      (partition other).watermark r := by
  ext w
  rw [partition_watermark_eq_some, partition_watermark_eq_some]
  unfold revokePartition
  -- an entry of `other` is neither the new one nor one whose watermark was raised
  have hn : ∀ rev : PartitionRevocation, rev.route.isSameAssignment other →
      ¬ rev.route.isSameAssignment route := fun _ hh own =>
    ha (PartitionRoute.isSameAssignment_trans (PartitionRoute.isSameAssignment_symm own) hh)
  split_ifs with hab
  · constructor
    · rintro ⟨rev, mem, hh, rfl⟩
      rcases mem_append.1 mem with old | new
      · exact ⟨rev, old, hh, rfl⟩
      · rw [mem_singleton.1 new] at hh
        exact absurd hh ha
    · rintro ⟨rev, mem, hh, rfl⟩
      exact ⟨rev, mem_append_left _ mem, hh, rfl⟩
  · constructor
    · rintro ⟨_, mem, hh, rfl⟩
      obtain ⟨rev, old, rfl⟩ := mem_map.1 mem
      split_ifs at hh ⊢ with own
      · exact absurd own (hn rev hh)
      · exact ⟨rev, old, hh, rfl⟩
    · rintro ⟨rev, mem, hh, rfl⟩
      exact ⟨rev, mem_map.2 ⟨rev, mem, if_neg (hn rev hh)⟩, hh,
        rfl⟩

/-- No revocation stands for another controller. -/
def Alone (t : InvalidationTarget) (r : MetadataRevocations) : Prop :=
  match t with
  | .controller route => r.controllerPending route ∨ r.controller = none
  | .partition _ => True

/-- Recording an observation raises the watermark of its target and of no other. -/
theorem watermark_record (ha : t.Alone r) (seen : OutcomeStamp) :
    t'.watermark (t.record r seen) =
      if t.same t' then some (raise (t'.watermark r) seen) else t'.watermark r := by
  cases t with
  | controller rt =>
    cases t' with
    | controller ne => exact watermark_revokeController ha ne
    | partition ne => rfl
  | partition rt =>
    cases t' with
    | controller ne =>
      have hk : (r.revokePartition rt seen).controller = r.controller := by
        unfold revokePartition
        split_ifs <;> rfl
      change (controller ne).watermark (r.revokePartition rt seen) = _
      rw [watermark, hk]
      rfl
    | partition ne =>
      split_ifs with hs
      · exact watermark_revokePartition_self hs
      · exact watermark_revokePartition_of_not_same hs

/-- A fetch removes the watermarks its query and evidence satisfy. -/
theorem watermark_apply (snap : MetadataSnapshot) (q : MetadataQuery) :
    t.watermark (r.apply snap q).1 =
      (t.watermark r).filter fun w =>
        ¬ (q = t.query ∧ snap.brokers.evidence.isAfter w) := by
  ext w
  rw [filter_eq_some_iff]
  cases t with
  | controller rt =>
    simp only [controller_watermark_eq_some, apply,
      applyController, InvalidationTarget.query]
    cases r.controller with
    | none => simp
    | some rev =>
      dsimp only
      split_ifs with hs
      · constructor
        · rintro ⟨_, ⟨⟩, -⟩
        · rintro ⟨⟨_, ⟨⟩, -, rfl⟩, hu⟩
          exact absurd hs (of_decide_eq_true hu)
      · constructor
        · rintro ⟨_, ⟨⟩, hh, rfl⟩
          exact ⟨⟨_, rfl, hh, rfl⟩, decide_eq_true hs⟩
        · exact And.left
  | partition rt =>
    simp only [partition_watermark_eq_some, apply, held,
      mem_filter, PartitionRevocation.satisfied, InvalidationTarget.query]
    constructor
    · rintro ⟨rev, ⟨mem, hu⟩, hh, rfl⟩
      refine ⟨⟨rev, mem, hh, rfl⟩, ?_⟩
      have ht : rev.route.topic = rt.topic := by
        simp only [PartitionRoute.isSameAssignment, decide_eq_true_eq] at hh
        exact hh.1
      simpa [ht] using hu
    · rintro ⟨⟨rev, mem, hh, rfl⟩, hu⟩
      refine ⟨rev, ⟨mem, ?_⟩, hh, rfl⟩
      have ht : rev.route.topic = rt.topic := by
        simp only [PartitionRoute.isSameAssignment, decide_eq_true_eq] at hh
        exact hh.1
      simpa [ht] using hu

/-! ## Absence -/

theorem absent_revoke (hs : t.same t') (s : MetadataSnapshot) : t'.Absent (t.revoke s) := by
  cases t with
  | controller rt =>
    cases t' with
    | controller ne => rfl
    | partition ne => cases hs
  | partition rt =>
    cases t' with
    | controller ne => cases hs
    | partition ne =>
      simp only [same, PartitionRoute.isSameAssignment, decide_eq_true_eq] at hs
      simp only [Absent, revoke, MetadataSnapshot.revokePartition_partitionRoute]
      rw [if_pos ⟨hs.1.symm, hs.2.1.symm⟩]

theorem Absent.revoke (ha : t'.Absent s) : t'.Absent (t.revoke s) := by
  cases t with
  | controller rt =>
    cases t' with
    | controller ne => rfl
    | partition ne => exact ha
  | partition rt =>
    cases t' with
    | controller ne => exact ha
    | partition ne =>
      simp only [Absent, revoke, MetadataSnapshot.revokePartition_partitionRoute] at ha ⊢
      split_ifs
      · rfl
      · exact ha

/-- A target still withdrawn after a fetch has no route in the snapshot it installs. -/
theorem absent_apply {snap : MetadataSnapshot} {q : MetadataQuery}
    (p : t.isPending (r.apply snap q).1) :
    t.Absent (r.apply snap q).2 := by
  cases t with
  | controller rt =>
    simp only [isPending, controllerPending, apply] at p
    simp only [Absent, apply, withdrawAll_controllerRoute]
    unfold applyController at p ⊢
    split at p
    · cases p
    · split_ifs at p ⊢
      · cases p
      · rfl
  | partition rt =>
    obtain ⟨rev, mem, hs⟩ := any_eq_true.1 p
    simp only [PartitionRoute.isSameAssignment, decide_eq_true_eq] at hs
    simp only [Absent, MetadataSnapshot.partitionRoute_eq_none, apply, find_withdrawAll]
    exact if_pos ⟨rev, mem, hs.1, hs.2.1⟩

/-- A route that is current has not been withdrawn. -/
theorem not_absent_of_currentEvidence {ev : EvidenceStamp}
    (hk : t.currentEvidence s = some ev) : ¬ t.Absent s := by
  intro ha
  cases t with
  | controller rt =>
    rw [currentEvidence, show s.controllerRoute = none from ha] at hk
    cases hk
  | partition rt =>
    rw [currentEvidence, show s.partitionRoute rt.topic rt.partition = none from ha] at hk
    cases hk

end InvalidationTarget

namespace MetadataMachine

/-! ## The invariant -/

/-- Withdrawn routes are absent from the current snapshot, and no partition is withdrawn
twice. -/
structure Withdrawn (m : MetadataMachine) : Prop where
  absent : ∀ t : InvalidationTarget, t.isPending m.revocations →
    ∀ s, m.current = some s → t.Absent s
  keys : m.revocations.partitions.Pairwise fun a b => a.route.key ≠ b.route.key

/-- The ways an invalidation is answered. -/
inductive Invalidation (m : MetadataMachine) (target : InvalidationTarget)
    (observedAt : OutcomeStamp) (operationId : OperationId) :
    MetadataMachine × MetadataTransition → Prop
  | ignored : Invalidation m target observedAt operationId (m, .stale)
  | refused {transition : MetadataTransition}
      (full : transition.disposition = .queryCapacityReached) :
      Invalidation m target observedAt operationId (m, transition)
  | covered {w : OutcomeStamp} (held : target.watermark m.revocations = some w)
      (notLater : observedAt ≤ w) : Invalidation m target observedAt operationId (m, .coalesced)
  | withdrawn {m' : MetadataMachine} {transition : MetadataTransition}
      (admission : Admission m target.query operationId (m', transition))
      (met : transition.disposition ≠ .queryCapacityReached)
      (known : target.isPending m.revocations ∨ ∃ s evidence, m.current = some s ∧
        target.currentEvidence s = some evidence ∧ evidence.isAfter observedAt = false) :
      Invalidation m target observedAt operationId
        ({ m'.mapCurrent target.revoke with
            revocations := target.record m.revocations observedAt },
          transition)

variable {m : MetadataMachine} {target : InvalidationTarget} {observedAt : OutcomeStamp}
  {operationId : OperationId} {res : MetadataMachine × MetadataTransition}

theorem withdraw_invalidation
    (hk : target.isPending m.revocations ∨ ∃ s ev, m.current = some s ∧
      target.currentEvidence s = some ev ∧ ev.isAfter observedAt = false) :
    Invalidation m target observedAt operationId (m.withdraw target observedAt operationId) := by
  have adm := m.admitQuery_admission target.query operationId .mustFollowCurrent
  unfold withdraw refresh
  generalize m.admitQuery target.query operationId .mustFollowCurrent = res at adm
  obtain ⟨m', tr⟩ := res
  dsimp only
  split_ifs with hf
  · rw [show m' = m from adm.eq_of_full hf]
    exact .refused hf
  · rw [show m'.revocations = m.revocations from adm.revocations_eq]
    exact .withdrawn adm hf hk

section

variable (m observedAt operationId)

theorem invalidateTarget_invalidation (tgt : InvalidationTarget) :
    Invalidation m tgt observedAt operationId (m.invalidateTarget tgt observedAt operationId) := by
  unfold invalidateTarget
  split_ifs with p requires
  · exact withdraw_invalidation (.inl p)
  · obtain ⟨w, hg, hn⟩ := le_watermark_of_not_requires p (Bool.eq_false_of_not_eq_true requires)
    exact .covered hg hn
  split
  · exact .ignored
  rename_i ev hk
  split_ifs with hne
  · exact .ignored
  · obtain ⟨s, cur, hk⟩ := bind_eq_some_iff.1 hk
    exact withdraw_invalidation (.inr ⟨s, ev, cur, hk, Bool.eq_false_of_not_eq_true hne⟩)

theorem fail_kept (fu : OperationId) :
    (m.fail operationId fu).1.current = m.current ∧
      (m.fail operationId fu).1.revocations = m.revocations := by
  unfold fail
  split
  · rename_i st
    split_ifs
    · exact ⟨rfl, rfl⟩
    split
    · refine ⟨?_, rfl⟩
      simp only [current, st]
      split <;> rename_i hr <;> split at hr <;> simp_all
    · exact ⟨by simp [restart, current, st], rfl⟩
  · exact ⟨rfl, rfl⟩

/-- The ways a refresh is reported to succeed. -/
inductive Success (m : MetadataMachine) (operationId : OperationId) (snapshot : MetadataSnapshot) :
    MetadataMachine × MetadataTransition → Prop
  | kept {m' : MetadataMachine} {transition : MetadataTransition}
      (current : m'.current = m.current) (revocations : m'.revocations = m.revocations)
      (unapplied : transition.disposition ≠ .applied) :
      Success m operationId snapshot (m', transition)
  | installed {m' : MetadataMachine} {transition : MetadataTransition}
      {previous : Option MetadataSnapshot} {query : MetadataQuery}
      {targetGeneration : MetadataGeneration} {queued : List MetadataQuery}
      (state : m.state = .refreshing previous operationId query targetGeneration queued)
      (generation : snapshot.generation = targetGeneration)
      (monotone : regresses query snapshot previous = false)
      (current : m'.current = some (m.revocations.apply snapshot query).2)
      (revocations : m'.revocations = (m.revocations.apply snapshot query).1)
      (applied : transition.disposition = .applied) :
      Success m operationId snapshot (m', transition)

theorem succeed_success (snap : MetadataSnapshot) (fu : OperationId) :
    Success m operationId snap (m.succeed operationId snap fu) := by
  unfold succeed
  split
  · rename_i st
    split_ifs with hf hr
    · exact .kept rfl rfl nofun
    · exact .kept (m.fail_kept operationId fu).1 (m.fail_kept operationId fu).2 nofun
    obtain ⟨rfl, gen⟩ := not_or.1 hf |>.imp not_not.1 not_not.1
    have hm := Bool.eq_false_of_not_eq_true hr
    unfold install
    split
    · exact .installed st gen hm rfl rfl rfl
    · split
      · exact .installed st gen hm rfl rfl rfl
      · exact .installed st gen hm rfl rfl rfl
  · exact .kept rfl rfl nofun

end

/-- A route may be recorded as withdrawn : no other controller is. -/
theorem Withdrawn.alone (gone : m.Withdrawn)
    (hk : target.isPending m.revocations ∨ ∃ s ev, m.current = some s ∧
      target.currentEvidence s = some ev ∧ ev.isAfter observedAt = false) :
    target.Alone m.revocations := by
  cases target with
  | partition rt => trivial
  | controller rt =>
    rcases hk with p | ⟨s, ev, cur, hk, -⟩
    · exact .inl p
    · refine .inr (eq_none_iff_forall_not_mem.2 fun rev hg => ?_)
      have p : (controller rev.route).isPending m.revocations := by
        simp [isPending, controllerPending, mem_def.1 hg, BrokerRoute.isSameBroker]
      exact not_absent_of_currentEvidence hk (gone.absent _ p s cur)

/-- Recording keeps one revocation for a partition. -/
theorem Withdrawn.keys_record (hw : m.Withdrawn)
    (hk : target.isPending m.revocations ∨ ∃ s ev, m.current = some s ∧
      target.currentEvidence s = some ev ∧ ev.isAfter observedAt = false) :
    (target.record m.revocations observedAt).partitions.Pairwise
      fun a b => a.route.key ≠ b.route.key := by
  cases target with
  | controller rt => exact hw.keys
  | partition rt =>
    simp only [record, revokePartition]
    split_ifs with ha
    · refine pairwise_append.2 ⟨hw.keys, pairwise_singleton _ _, ?_⟩
      intro rev mem new only hs
      rw [mem_singleton.1 only] at hs
      rcases hk with p | ⟨s, ev, cur, hk, -⟩
      · exact absurd (ha.symm.trans p) nofun
      -- the partition has a leader, so no revocation of it can be standing
      have p : (partition rev.route).isPending m.revocations :=
        any_eq_true.2 ⟨rev, mem, PartitionRoute.isSameAssignment_refl _⟩
      have hg : s.partitionRoute rev.route.topic rev.route.partition = none :=
        hw.absent _ p s cur
      obtain ⟨ht, hp⟩ := Prod.mk.inj (toLex.injective hs)
      dsimp only at ht hp
      rw [ht, hp] at hg
      exact not_absent_of_currentEvidence hk hg
    · refine pairwise_map.2 (hw.keys.imp fun {a b} hap => ?_)
      split_ifs <;> exact hap

theorem Withdrawn.kept {m' : MetadataMachine} (hg : m.Withdrawn)
    (cur : m'.current = m.current) (revs : m'.revocations = m.revocations) :
    m'.Withdrawn := by
  refine ⟨fun t p s => ?_, revs ▸ hg.keys⟩
  rw [cur]
  exact hg.absent t (revs ▸ p) s

theorem Withdrawn.invalidation (hw : m.Withdrawn)
    (step : Invalidation m target observedAt operationId res) : res.1.Withdrawn := by
  cases step with
  | ignored | refused | covered => exact hw
  | withdrawn ha met hk =>
    refine ⟨fun t pend s cur => ?_, hw.keys_record hk⟩
    have hm := (mapCurrent_current _ target.revoke).symm.trans cur
    obtain ⟨previous, pre, rfl⟩ := map_eq_some_iff.1 hm
    have hp : m.current = some previous := ha.current_eq.symm.trans pre
    by_cases isSame : target.same t
    · exact absent_revoke isSame previous
    · rw [isPending_iff, watermark_record (hw.alone hk), if_neg isSame, ← isPending_iff] at pend
      exact (hw.absent t pend previous hp).revoke

theorem Withdrawn.success (hw : m.Withdrawn) {snap : MetadataSnapshot}
    (step : Success m operationId snap res) : res.1.Withdrawn := by
  cases step with
  | kept cur revocations => exact hw.kept cur revocations
  | installed _ _ _ cur revocations =>
    refine ⟨fun t pend s hi => ?_, ?_⟩
    · dsimp only at pend hi
      rw [revocations] at pend
      rw [cur] at hi
      exact some.inj hi ▸ absent_apply pend
    · dsimp only
      rw [revocations]
      exact hw.keys.sublist filter_sublist

theorem Withdrawn.apply (hg : m.Withdrawn) (i : MetadataInput) : (m.apply i).1.Withdrawn := by
  cases i with
  | resolve q op =>
    have adm := m.admitQuery_admission q op .currentMaySatisfy
    exact hg.kept adm.current_eq adm.revocations_eq
  | refresh q op =>
    have adm := m.admitQuery_admission q op .mustFollowCurrent
    exact hg.kept adm.current_eq adm.revocations_eq
  | invalidateBrokerRoute rt seen op | invalidatePartitionRoute rt seen op =>
    exact hg.invalidation (m.invalidateTarget_invalidation seen op _)
  | refreshSucceeded op snap fu =>
    exact hg.success (m.succeed_success op snap fu)
  | refreshFailed op fu =>
    exact hg.kept (m.fail_kept op fu).1 (m.fail_kept op fu).2

theorem withdrawn_run (initial : MetadataGeneration) (lim : MetadataQueryLimits)
    (is : List MetadataInput) :
    (final apply (withQueryLimits initial lim) is).Withdrawn :=
  final_invariant apply (fun _ i hg => hg.apply i)
    ⟨fun t p => absurd p (by cases t <;> nofun), .nil⟩ is

end MetadataMachine

/-! ## Steps that move a watermark -/

/-- One input applied to a metadata machine. -/
abbrev MetadataEvent := Runs.Event MetadataMachine MetadataInput MetadataTransition

/-- The route an input invalidates, and when its failure was observed. -/
def MetadataInput.invalidation : MetadataInput → Option (InvalidationTarget × OutcomeStamp)
  | .invalidateBrokerRoute route observedAt _ => some (.controller route, observedAt)
  | .invalidatePartitionRoute route observedAt _ => some (.partition route, observedAt)
  | _ => none

/-- An invalidation was neither stale nor refused. -/
def MetadataDisposition.accepted (d : MetadataDisposition) : Bool :=
  d ≠ .ignoredStale ∧ d ≠ .queryCapacityReached

/-- The query of an applied refresh and the snapshot it reported. -/
def appliedRefresh (e : MetadataEvent) : Option (MetadataQuery × MetadataSnapshot) :=
  match e.input, e.before.state with
  | .refreshSucceeded _ snapshot _, .refreshing _ _ query _ _ =>
    if e.answer.disposition = .applied then some (query, snapshot) else none
  | _, _ => none

namespace InvalidationTarget

/-- The observation an accepted invalidation of the target brought. -/
def observedBy (t : InvalidationTarget) (e : MetadataEvent) : Option OutcomeStamp :=
  match e.input.invalidation with
  | some (target, observedAt) =>
    if target.same t ∧ e.answer.disposition.accepted then some observedAt else none
  | none => none

/-- The evidence an applied refresh of the target's query brought. -/
def refreshedBy (t : InvalidationTarget) (e : MetadataEvent) : Option EvidenceStamp :=
  match appliedRefresh e with
  | some (query, snapshot) => if query = t.query then some snapshot.brokers.evidence else none
  | none => none

/-- Routes of one target have one watermark. -/
theorem watermark_congr {t t' : InvalidationTarget} (hs : t.same t')
    (r : MetadataRevocations) : t'.watermark r = t.watermark r := by
  cases t with
  | controller rt =>
    cases t' with
    | partition ne => cases hs
    | controller ne =>
      simp only [same, BrokerRoute.isSameBroker, decide_eq_true_eq] at hs
      simp only [watermark, BrokerRoute.isSameBroker, hs]
  | partition rt =>
    cases t' with
    | controller ne => cases hs
    | partition ne =>
      simp only [same, PartitionRoute.isSameAssignment, decide_eq_true_eq] at hs
      obtain ⟨h₁, h₂, h₃, h₄⟩ := hs
      simp only [watermark, PartitionRoute.isSameAssignment, h₁, h₂, h₃, h₄]

end InvalidationTarget

namespace MetadataMachine

/-- What one step makes of a watermark. -/
def WatermarkStep (t : InvalidationTarget) (e : MetadataEvent) : Prop :=
  t.watermark e.after.revocations =
    match t.observedBy e with
    | some observedAt =>
      some (raise (t.watermark e.before.revocations) observedAt)
    | none =>
      match t.refreshedBy e with
      | some evidence => (t.watermark e.before.revocations).filter fun w => ¬ evidence.isAfter w
      | none => t.watermark e.before.revocations

variable {m : MetadataMachine} {operationId : OperationId}
  {res : MetadataMachine × MetadataTransition} {t : InvalidationTarget}
  {past : List MetadataEvent}

theorem Withdrawn.watermark_invalidation (hw : m.Withdrawn) {i : MetadataInput}
    {target : InvalidationTarget} {observedAt : OutcomeStamp}
    (ha : i.invalidation = some (target, observedAt))
    (step : Invalidation m target observedAt operationId res) (t : InvalidationTarget) :
    WatermarkStep t ⟨m, i, res.1, res.2⟩ := by
  have hu : appliedRefresh ⟨m, i, res.1, res.2⟩ = none := by
    unfold appliedRefresh
    split
    · rename_i hi _
      rw [show i = _ from hi] at ha
      cases ha
    · rfl
  unfold WatermarkStep
  simp only [observedBy, refreshedBy, ha, hu]
  cases step with
  | ignored => simp [MetadataDisposition.accepted, MetadataTransition.stale]
  | refused hf => simp [MetadataDisposition.accepted, hf]
  | covered hh hn =>
    split_ifs with ho
    · rw [watermark_congr ho.1, hh]
      exact congrArg some (max_eq_left hn).symm
    · rfl
  | withdrawn had met hk =>
    have hac : MetadataDisposition.accepted _ = true :=
      decide_eq_true ⟨had.not_stale, met⟩
    simp only [watermark_record (hw.alone hk), hac, and_true]
    split_ifs <;> rfl

theorem Withdrawn.watermark_success {fu : OperationId} {snap : MetadataSnapshot}
    (step : Success m operationId snap res) (t : InvalidationTarget) :
    WatermarkStep t ⟨m, .refreshSucceeded operationId snap fu, res.1, res.2⟩ := by
  unfold WatermarkStep
  simp only [observedBy, MetadataInput.invalidation, refreshedBy, appliedRefresh]
  cases step with
  | kept cur revs hu =>
    cases st : m.state <;> simp [revs, hu]
  | installed st _ _ cur revs hap =>
    simp only [revs, st, hap, if_true, watermark_apply]
    split_ifs with ha
    · simp only [ha, true_and]
    · simp only [ha, false_and, not_false_eq_true, decide_true]
      cases t.watermark m.revocations <;> rfl

/-- One step raises the watermark of a target it observes to fail, removes the one it
brings newer evidence for, and leaves every other. -/
theorem Withdrawn.watermark_step (hg : m.Withdrawn) (i : MetadataInput)
    (t : InvalidationTarget) : WatermarkStep t (event MetadataMachine.apply m i) := by
  cases i with
  | resolve q op =>
    exact congrArg t.watermark (m.admitQuery_admission q op .currentMaySatisfy).revocations_eq
  | refresh q op =>
    exact congrArg t.watermark (m.admitQuery_admission q op .mustFollowCurrent).revocations_eq
  | invalidateBrokerRoute rt seen op =>
    exact hg.watermark_invalidation rfl (m.invalidateTarget_invalidation seen op (.controller rt)) t
  | invalidatePartitionRoute rt seen op =>
    exact hg.watermark_invalidation rfl (m.invalidateTarget_invalidation seen op (.partition rt)) t
  | refreshSucceeded op snap fu =>
    exact watermark_success (m.succeed_success op snap fu) t
  | refreshFailed op fu =>
    exact congrArg t.watermark (m.fail_kept op fu).2

/-! ## Runs -/

/-- After each of the steps the target is withdrawn, with a watermark not below any
observation accepted for it in `past` or so far. -/
def Standing (t : InvalidationTarget) (past events : List MetadataEvent) : Prop :=
  ∀ seen e later, events = seen ++ e :: later →
    ∃ w, t.watermark e.after.revocations = some w ∧
      ∀ observedAt ∈ (past ++ seen ++ [e]).filterMap t.observedBy, observedAt ≤ w

/-- The step brings evidence for the target after its watermark, which is not below any
observation accepted for it in `past`. -/
def Answers (t : InvalidationTarget) (past : List MetadataEvent) (e : MetadataEvent) : Prop :=
  ∃ evidence w, t.refreshedBy e = some evidence ∧ t.watermark e.before.revocations = some w ∧
    evidence.isAfter w ∧ ∀ observedAt ∈ past.filterMap t.observedBy, observedAt ≤ w

theorem standing_cons {events : List MetadataEvent} {e : MetadataEvent} {w : OutcomeStamp}
    (hg : t.watermark e.after.revocations = some w)
    (hb : ∀ observedAt ∈ (past ++ [e]).filterMap t.observedBy, observedAt ≤ w)
    (hs : Standing t (past ++ [e]) events) : Standing t past (e :: events) := by
  intro seen x later split
  cases seen with
  | nil =>
    obtain ⟨rfl, -⟩ := cons.inj split
    exact ⟨w, hg, by simpa using hb⟩
  | cons first seen =>
    obtain ⟨rfl, rest⟩ := cons.inj split
    simpa using hs seen x later rest

/-- From a state in which the target is withdrawn, it stands through the run or up to the
step that answers it. -/
theorem standing_or_answered (gone : m.Withdrawn) {w : OutcomeStamp}
    (hg : t.watermark m.revocations = some w)
    (hb : ∀ observedAt ∈ past.filterMap t.observedBy, observedAt ≤ w)
    (is : List MetadataInput) :
    Standing t past (trace apply m is) ∨
      ∃ pre e post, trace apply m is = pre ++ e :: post ∧
        Standing t past pre ∧ Answers t (past ++ pre) e := by
  induction is generalizing m past w with
  | nil => exact .inl fun seen e later split => by simp [trace] at split
  | cons i is ih =>
    have step := gone.watermark_step i t
    have hl := gone.apply i
    rw [trace]
    set e := event apply m i with event
    have mark : t.watermark e.before.revocations = some w := hg
    -- a step that keeps or raises the watermark leaves the rest of the run to the induction
    have go {w' : OutcomeStamp} (hg' : t.watermark e.after.revocations = some w')
        (hb' : ∀ observedAt ∈ (past ++ [e]).filterMap t.observedBy, observedAt ≤ w') :
        Standing t past (e :: trace apply e.after is) ∨
          ∃ pre x post, e :: trace apply e.after is = pre ++ x :: post ∧
            Standing t past pre ∧ Answers t (past ++ pre) x := by
      rcases ih hl hg' hb' with hs | ⟨pre, x, post, split, hs, ans⟩
      · exact .inl (standing_cons hg' hb' hs)
      · refine .inr ⟨e :: pre, x, post, congrArg (e :: ·) split, standing_cons hg' hb' hs, ?_⟩
        simpa using ans
    unfold WatermarkStep at step
    cases observed : t.observedBy e with
    | some observedAt =>
      simp only [observed, mark] at step
      refine go step fun earlier mem => ?_
      simp only [filterMap_append, filterMap_cons, observed, filterMap_nil,
        mem_append, mem_singleton] at mem
      rcases mem with old | rfl
      · exact (hb earlier old).trans (le_max_left w observedAt)
      · exact le_max_right w earlier
    | none =>
      have hk : ∀ earlier ∈ (past ++ [e]).filterMap t.observedBy, earlier ≤ w := by
        simpa [filterMap_append, observed] using hb
      simp only [observed, mark] at step
      cases refreshed : t.refreshedBy e with
      | none => exact go (by simpa [refreshed] using step) hk
      | some ev =>
        simp only [refreshed, filter_some] at step
        by_cases post : ev.isAfter w
        · exact .inr ⟨[], e, _, rfl, fun seen x later split => by simp at split,
            ev, w, refreshed, mark, post, by simpa using hb⟩
        · exact go (by simpa [post] using step) hk

/-- In every state of a run, a withdrawn route is absent from the current snapshot, and the
controller and each partition are withdrawn once at most. An invalidation accepted in it
leaves the route withdrawn, with a watermark not below the observation, through every
continuation `later` or up to the first applied refresh of its query whose evidence is
after every accepted observation. -/
theorem withdrawn_until_newer_evidence (initial : MetadataGeneration)
    (limits : MetadataQueryLimits) (inputs : List MetadataInput) (m : MetadataMachine)
    (reached : m = final apply (withQueryLimits initial limits) inputs) :
    (∀ route s, m.controllerRevocationPending route → m.current = some s →
      s.controllerRoute = none) ∧
    (∀ route s, m.partitionRevocationPending route → m.current = some s →
      s.partitionRoute route.topic route.partition = none) ∧
    (m.revocations.partitions.Pairwise fun a b =>
      ¬ (a.route.topic = b.route.topic ∧ a.route.partition = b.route.partition)) ∧
    (∀ a b, m.controllerRevocationPending a → m.controllerRevocationPending b →
      a.brokerId = b.brokerId) ∧
    ∀ (input : MetadataInput) (later : List MetadataInput) (t : InvalidationTarget)
      (observedAt : OutcomeStamp), input.invalidation = some (t, observedAt) →
      (m.apply input).2.disposition ≠ .ignoredStale →
      (m.apply input).2.disposition ≠ .queryCapacityReached →
      Standing t [] (trace apply m (input :: later)) ∨
        ∃ before e after, trace apply m (input :: later) =
            event apply m input :: before ++ e :: after ∧
          Standing t [] (event apply m input :: before) ∧
          Answers t (event apply m input :: before) e := by
  have hw : m.Withdrawn := reached ▸ withdrawn_run initial limits inputs
  refine ⟨fun route s pend => hw.absent (.controller route) pend s,
    fun route s pend => hw.absent (.partition route) pend s, ?_, ?_, ?_⟩
  · refine hw.keys.imp fun {a b} hap => ?_
    rintro ⟨ht, hp⟩
    exact hap (by rw [PartitionRoute.key, ht, hp]; rfl)
  · intro a b ha hb
    obtain ⟨revoked, hf, hsa⟩ := (any_eq_true _ _).1 ha
    obtain ⟨held', found', hs⟩ := (any_eq_true _ _).1 hb
    obtain rfl := some.inj (hf.symm.trans found')
    exact (of_decide_eq_true hsa).symm.trans (of_decide_eq_true hs)
  · intro input later t observedAt hab hn hno
    set e := event apply m input with event
    have ho : t.observedBy e = some observedAt := by
      have hac : e.answer.disposition.accepted = true := decide_eq_true ⟨hn, hno⟩
      have hi := t.same_refl
      simp only [observedBy]
      rw [show e.input.invalidation = some (t, observedAt) from hab]
      exact if_pos ⟨hi, hac⟩
    have hr := hw.watermark_step input t
    unfold WatermarkStep at hr
    rw [← event] at hr
    simp only [ho] at hr
    have hbo : ∀ o ∈ ([] ++ [e]).filterMap t.observedBy, o ≤
        raise (t.watermark e.before.revocations) observedAt := by
      simp only [nil_append, filterMap_cons, ho, filterMap_nil, mem_singleton, forall_eq]
      exact le_raise _ observedAt
    rcases standing_or_answered (hw.apply input) hr hbo later with
      standing | ⟨before, x, after, split, standing, answers⟩
    · exact .inl (standing_cons hr hbo standing)
    · exact .inr ⟨before, x, after, congrArg (e :: ·) split, standing_cons hr hbo standing, answers⟩

def soleBrokers (generation evidence : ℕ) : BrokerDirectory :=
  ⟨⟨generation⟩, ⟨evidence⟩, [⟨⟨7⟩, ⟨"broker", 9092⟩⟩], pairwise_singleton _ _⟩

/-- A cluster of one broker, which is its controller. -/
def soleSnapshot (generation evidence : ℕ) : MetadataSnapshot :=
  ⟨soleBrokers generation evidence, some ⟨⟨generation⟩, ⟨7⟩, ⟨evidence⟩⟩, .empty, .empty, by
    rintro _ ⟨⟩
    exact BrokerDirectory.routeTo_of_mem (d := soleBrokers generation evidence)
      mem_cons_self, nofun⟩

/-- A machine that fetched the cluster once. -/
def soleMachine : MetadataMachine :=
  final apply (withQueryLimits ⟨1⟩ ⟨.one⟩)
    [.resolve .cluster ⟨1⟩, .refreshSucceeded ⟨1⟩ (soleSnapshot 1 1) ⟨2⟩]

theorem withdrawn_until_newer_evidence_sole :
    (soleMachine.apply (.invalidateBrokerRoute ⟨⟨1⟩, ⟨7⟩, ⟨1⟩⟩ ⟨2⟩ ⟨3⟩)).2.disposition = .applied ∧
      (Standing (.controller ⟨⟨1⟩, ⟨7⟩, ⟨1⟩⟩) []
          (trace apply soleMachine
            [.invalidateBrokerRoute ⟨⟨1⟩, ⟨7⟩, ⟨1⟩⟩ ⟨2⟩ ⟨3⟩,
              .refreshSucceeded ⟨3⟩ (soleSnapshot 2 3) ⟨4⟩]) ∨
        ∃ before e after, trace apply soleMachine
            [.invalidateBrokerRoute ⟨⟨1⟩, ⟨7⟩, ⟨1⟩⟩ ⟨2⟩ ⟨3⟩,
              .refreshSucceeded ⟨3⟩ (soleSnapshot 2 3) ⟨4⟩] =
            event apply soleMachine (.invalidateBrokerRoute ⟨⟨1⟩, ⟨7⟩, ⟨1⟩⟩ ⟨2⟩ ⟨3⟩) ::
              before ++ e :: after ∧
          Standing (.controller ⟨⟨1⟩, ⟨7⟩, ⟨1⟩⟩) []
            (event apply soleMachine (.invalidateBrokerRoute ⟨⟨1⟩, ⟨7⟩, ⟨1⟩⟩ ⟨2⟩ ⟨3⟩) ::
              before) ∧
          Answers (.controller ⟨⟨1⟩, ⟨7⟩, ⟨1⟩⟩)
            (event apply soleMachine (.invalidateBrokerRoute ⟨⟨1⟩, ⟨7⟩, ⟨1⟩⟩ ⟨2⟩ ⟨3⟩) ::
              before) e) := by
  have ha : (soleMachine.apply
      (.invalidateBrokerRoute ⟨⟨1⟩, ⟨7⟩, ⟨1⟩⟩ ⟨2⟩ ⟨3⟩)).2.disposition = .applied := by
    decide +kernel
  refine ⟨ha, (withdrawn_until_newer_evidence ⟨1⟩ _ _ soleMachine rfl).2.2.2.2 _ _ _ _ rfl
    ?_ ?_⟩
  · rw [ha]
    nofun
  · rw [ha]
    nofun

end MetadataMachine

end KafkaDriver
