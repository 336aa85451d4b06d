import KafkaDriver.MetadataRevocation

/-!
# Leader epochs over a run

A topic refresh is rejected when one of its leaders regresses from the leader the current
snapshot has for the partition : a lower epoch, or another broker at the same epoch. The
current snapshot is the only memory of that check. An invalidation takes the leader out of
it, and so does a refresh that reports none, or one of unknown epoch, and then any leader is
accepted (`withdrawn_epoch_regresses`).

`Since` collects the leaders installed for a partition after its last cluster refresh. A run
in which a partition whose known epoch was forgotten is not reported behind them (`Fenced`)
never moves a leader backwards.
-/

namespace KafkaDriver

open List Option Runs PartitionLeaderSet

open PartitionLeaderSet (assignmentRegresses)

/-- A leader that does not regress from `b`, which does not regress from `a`, does not
regress from `a`, if the epoch of `b` is known. -/
theorem assignmentRegresses_trans {a b c : PartitionLeader} (hk : b.leaderEpoch.isSome)
    (ab : assignmentRegresses a b = false) (bc : assignmentRegresses b c = false) :
    assignmentRegresses a c = false := by
  obtain ⟨eb, hb⟩ := isSome_iff_exists.1 hk
  unfold assignmentRegresses at *
  cases ha : a.leaderEpoch with
  | none => simp
  | some ea =>
    cases hc : c.leaderEpoch with
    | none => simp
    | some ec =>
      simp only [ha, hb, hc, decide_eq_false_iff_not, not_or, not_lt, not_and, not_not] at *
      obtain ⟨ab, ab'⟩ := ab
      obtain ⟨bc, bc'⟩ := bc
      refine ⟨ab.trans bc, fun hs => ?_⟩
      have first : eb = ea := le_antisymm (hs ▸ bc) ab
      have second : ec = eb := hs.trans first.symm
      exact (bc' second).trans (ab' first)

namespace MetadataMachine

/-- The leader the current snapshot has for a partition. -/
def leaderAt (m : MetadataMachine) (topic : TopicName) (partition : PartitionId) :
    Option PartitionLeader :=
  m.current.bind fun snapshot => snapshot.leaders.find topic partition

variable (e : MetadataEvent) (topic : TopicName) (partition : PartitionId)

/-- The leader an applied topic refresh installed for a partition. -/
def installs : Option PartitionLeader :=
  match appliedRefresh e with
  | some (.topic _, _) => e.after.leaderAt topic partition
  | _ => none

/-- The step applied a cluster refresh. -/
def RefreshesCluster : Prop :=
  ∃ snapshot, appliedRefresh e = some (.cluster, snapshot)

/-- A topic refresh installed the leader, and no cluster refresh was applied since. -/
def Since (past : List MetadataEvent) (leader : PartitionLeader) : Prop :=
  ∃ before e between, past = before ++ e :: between ∧ installs e topic partition = some leader ∧
    ∀ x ∈ between, ¬ RefreshesCluster x

/-- The step reports a refresh of a topic, under the operation and generation in flight. -/
def Reports (snapshot : MetadataSnapshot) : Prop :=
  ∃ current operationId topic queued followup,
    e.before.state = .refreshing current operationId (.topic topic) snapshot.generation queued ∧
    e.input = .refreshSucceeded operationId snapshot followup

/-- No topic refresh reports a leader behind one installed before for the partition, where
the current snapshot has no known epoch to compare it with. -/
def Fenced (run : List MetadataEvent) : Prop :=
  ∀ past e later snapshot, run = past ++ e :: later → Reports e snapshot →
    (∀ current, e.before.leaderAt topic partition = some current → current.leaderEpoch = none) →
    ∀ earlier reported, Since topic partition past earlier →
      snapshot.leaders.find topic partition = some reported →
      assignmentRegresses earlier reported = false

variable {topic : TopicName} {partition : PartitionId}

variable {past after before : List MetadataEvent} {leader earlier : PartitionLeader}
  {m : MetadataMachine} {i : MetadataInput} {snapshot : MetadataSnapshot}

theorem since_concat {e : MetadataEvent} :
    Since topic partition (past ++ [e]) leader ↔
      installs e topic partition = some leader ∨
        Since topic partition past leader ∧ ¬ RefreshesCluster e :=
  Runs.since_concat

/-- What an applied refresh found and left. -/
theorem of_appliedRefresh {q : MetadataQuery}
    (ha : appliedRefresh (event apply m i) = some (q, snapshot)) :
    ∃ prev op queued fu, m.state = .refreshing prev op q snapshot.generation queued ∧
      i = .refreshSucceeded op snapshot fu ∧
      regresses q snapshot prev = false ∧
      (m.apply i).1.current = some (m.revocations.apply snapshot q).2 := by
  cases i with
  | refreshSucceeded op rep fu =>
    have hs := m.succeed_success op rep fu
    simp only [event, apply] at ha ⊢
    generalize m.succeed op rep fu = result at hs ha ⊢
    cases hs with
    | kept _ _ hu =>
      simp only [appliedRefresh, hu, if_false] at ha
      split at ha <;> cases ha
    | installed st gen hm cur _ disp =>
      simp only [appliedRefresh, st, disp, if_true] at ha
      obtain ⟨rfl, rfl⟩ := Prod.mk.inj (some.inj ha)
      exact ⟨_, op, _, fu, gen ▸ st, rfl, hm, cur⟩
  | _ => cases ha

theorem find_of_revoke {t : InvalidationTarget} {s : MetadataSnapshot}
    (hf : (t.revoke s).leaders.find topic partition = some leader) :
    s.leaders.find topic partition = some leader := by
  cases t with
  | controller rt => exact hf
  | partition rt =>
    simp only [InvalidationTarget.revoke, MetadataSnapshot.revokePartition_leaders,
      find_remove] at hf
    split_ifs at hf
    exact hf

theorem leaderAt_of_current_eq {m' : MetadataMachine} (cur : m'.current = m.current) :
    m'.leaderAt topic partition = m.leaderAt topic partition := by
  unfold leaderAt
  rw [cur]

theorem Invalidation.leaderAt_of {tgt : InvalidationTarget} {t : OutcomeStamp}
    {op : OperationId} {res : MetadataMachine × MetadataTransition}
    (step : Invalidation m tgt t op res)
    (hf : res.1.leaderAt topic partition = some leader) :
    m.leaderAt topic partition = some leader := by
  cases step with
  | ignored | refused | covered => exact hf
  | withdrawn adm =>
    obtain ⟨s, cur, hi⟩ := bind_eq_some_iff.1 hf
    have hm := (mapCurrent_current _ tgt.revoke).symm.trans cur
    obtain ⟨prev, pre, rfl⟩ := map_eq_some_iff.1 hm
    exact bind_eq_some_iff.2 ⟨prev, adm.current_eq.symm.trans pre, find_of_revoke hi⟩

/-- A step that applies no refresh installs no leader. -/
theorem leaderAt_of_not_applied (hq : appliedRefresh (Runs.event apply m i) = none)
    (hf : (m.apply i).1.leaderAt topic partition = some leader) :
    m.leaderAt topic partition = some leader := by
  cases i with
  | resolve q op =>
    exact (leaderAt_of_current_eq
      (m.admitQuery_admission q op .currentMaySatisfy).current_eq).symm.trans hf
  | refresh q op =>
    exact (leaderAt_of_current_eq
      (m.admitQuery_admission q op .mustFollowCurrent).current_eq).symm.trans hf
  | invalidateBrokerRoute rt t op | invalidatePartitionRoute rt t op =>
    exact (m.invalidateTarget_invalidation t op _).leaderAt_of hf
  | refreshFailed op fu =>
    exact (leaderAt_of_current_eq (m.fail_kept op fu).1).symm.trans hf
  | refreshSucceeded op snap fu =>
    have hs := m.succeed_success op snap fu
    simp only [event, apply] at hq hf
    generalize m.succeed op snap fu = result at hs hq hf
    cases hs with
    | kept cur => exact (leaderAt_of_current_eq cur).symm.trans hf
    | installed st _ _ _ _ disp =>
      simp only [appliedRefresh, st, disp, if_true] at hq
      cases hq

/-- The leader an applied refresh installs is one it reported. -/
theorem find_of_apply {r : MetadataRevocations} {q : MetadataQuery}
    (hf : (r.apply snapshot q).2.leaders.find topic partition = some leader) :
    snapshot.leaders.find topic partition = some leader := by
  simp only [MetadataRevocations.apply, MetadataRevocations.find_withdrawAll] at hf
  split_ifs at hf
  unfold MetadataRevocations.applyController at hf
  split at hf
  · exact hf
  · split_ifs at hf <;> exact hf

/-- An applied topic refresh reports no leader behind the current one. -/
theorem not_regresses {prev : Option MetadataSnapshot} {name : TopicName}
    (hm : regresses (.topic name) snapshot prev = false)
    {cur rep : PartitionLeader}
    (pre : (prev.bind fun s => s.leaders.find topic partition) = some cur)
    (hf : snapshot.leaders.find topic partition = some rep) :
    assignmentRegresses cur rep = false := by
  obtain ⟨s, rfl, hi⟩ := bind_eq_some_iff.1 pre
  obtain ⟨mem, rfl, rfl⟩ := find_eq_some.1 hf
  have hc := any_eq_false.1 hm rep mem
  simpa [hi] using hc

/-- No leader of the current snapshot is behind one installed since the last cluster
refresh, as far as its epoch is known. -/
def Ahead (topic : TopicName) (partition : PartitionId) (past : List MetadataEvent)
    (m : MetadataMachine) : Prop :=
  ∀ earlier current, Since topic partition past earlier →
    m.leaderAt topic partition = some current → current.leaderEpoch.isSome →
    assignmentRegresses earlier current = false

/-- An applied topic refresh installs a leader that is not behind those before it. -/
theorem Ahead.not_behind (ahead : Ahead topic partition past m)
    (fenced : Fenced topic partition (past ++ [event apply m i]))
    (since : Since topic partition past earlier)
    (inst : installs (event apply m i) topic partition = some leader) :
    assignmentRegresses earlier leader = false := by
  unfold installs at inst
  split at inst
  · rename_i had snap ha
    obtain ⟨prev, op, queued, fu, st, hi, monotone, cur⟩ :=
      of_appliedRefresh ha
    have rep : snap.leaders.find topic partition = some leader := by
      have hf : (m.apply i).1.leaderAt topic partition = some leader := inst
      rw [leaderAt, cur, bind_some] at hf
      exact find_of_apply hf
    by_cases forgotten : ∀ l, m.leaderAt topic partition = some l → l.leaderEpoch = none
    · exact fenced past _ [] snap rfl ⟨prev, op, had, queued, fu, st,
        hi⟩ forgotten earlier leader since rep
    push Not at forgotten
    obtain ⟨known, hf, epoch⟩ := forgotten
    have hb := ahead earlier known since hf (isSome_iff_ne_none.2 epoch)
    have hp : (prev.bind fun s => s.leaders.find topic partition) = some known := by
      rw [← hf, leaderAt, MetadataMachine.current, st]
    exact assignmentRegresses_trans (isSome_iff_ne_none.2 epoch) hb
      (not_regresses monotone hp rep)
  · cases inst

theorem assignmentRegresses_self (ld : PartitionLeader) : assignmentRegresses ld ld = false := by
  unfold assignmentRegresses
  cases ld.leaderEpoch <;> simp

theorem Ahead.step (ha : Ahead topic partition past m)
    (hfe : Fenced topic partition (past ++ [event apply m i])) :
    Ahead topic partition (past ++ [event apply m i]) (m.apply i).1 := by
  intro old cur hsi hf hk
  rw [since_concat] at hsi
  cases applied : appliedRefresh (event apply m i) with
  | none =>
    have hu := leaderAt_of_not_applied applied hf
    rcases hsi with inst | ⟨hsi, -⟩
    · rw [installs, applied] at inst
      cases inst
    · exact ha old cur hsi hu hk
  | some install =>
    obtain ⟨q, snap⟩ := install
    cases q with
    | cluster =>
      rcases hsi with inst | ⟨-, hc⟩
      · rw [installs, applied] at inst
        cases inst
      · exact absurd ⟨snap, applied⟩ hc
    | topic name =>
      have inst : installs (event apply m i) topic partition = some cur := by
        rw [installs, applied]
        exact hf
      rcases hsi with hs | ⟨hsi, -⟩
      · obtain rfl := some.inj (hs.symm.trans inst)
        exact assignmentRegresses_self old
      · exact ha.not_behind hfe hsi inst

theorem Fenced.of_append (hf : Fenced topic partition (before ++ after)) :
    Fenced topic partition before := by
  rintro past e later snap rfl
  exact hf past e (later ++ after) snap (by simp)

theorem ahead_run {start : MetadataMachine} (is : List MetadataInput)
    (hf : Fenced topic partition (trace apply start is)) :
    Ahead topic partition (trace apply start is) (final apply start is) := by
  refine run_induction apply
    (P := fun _ past m => Fenced topic partition past → Ahead topic partition past m) ?_ ?_ is
    hf
  · rintro - old cur ⟨pre, e, between, split, -⟩
    simp at split
  · intro is i ih hf
    exact (ih hf.of_append).step hf

/-- In a fenced run, a topic refresh installs no leader of a lower epoch, and no other
broker at the same epoch, than a topic refresh installed for the partition before it with
no cluster refresh between them. -/
theorem leader_epochs_monotone (initial : MetadataGeneration) (limits : MetadataQueryLimits)
    (inputs : List MetadataInput) (topic : TopicName) (partition : PartitionId)
    (fenced : Fenced topic partition (trace apply (withQueryLimits initial limits) inputs))
    {between : List MetadataEvent} {e e' : MetadataEvent}
    (run : trace apply (withQueryLimits initial limits) inputs =
      before ++ e :: (between ++ e' :: after))
    {later : PartitionLeader} (first : installs e topic partition = some earlier)
    (second : installs e' topic partition = some later)
    (noCluster : ∀ x ∈ between, ¬ RefreshesCluster x) :
    ∀ old new, earlier.leaderEpoch = some old → later.leaderEpoch = some new →
      old ≤ new ∧ (new = old → later.brokerId = earlier.brokerId) := by
  have split : trace apply (withQueryLimits initial limits) inputs =
      (before ++ e :: between) ++ e' :: after := by
    rw [run, append_assoc, cons_append]
  obtain ⟨past, i, hp, rfl⟩ := of_trace_eq_append_cons apply split
  rw [split, hp, append_cons] at fenced
  have ha := ahead_run past fenced.of_append.of_append
  have hs : Since topic partition (trace apply (withQueryLimits initial limits) past)
      earlier := ⟨before, e, between, hp.symm, first, noCluster⟩
  have ho := ha.not_behind fenced.of_append hs second
  intro old new hol hn
  simpa [assignmentRegresses, hol, hn] using ho

/-- The leader a refresh reports for a partition, applied or not. -/
def reported (e : MetadataEvent) (topic : TopicName) (partition : PartitionId) :
    Option PartitionLeader :=
  match e.input with
  | .refreshSucceeded _ snapshot _ => snapshot.leaders.find topic partition
  | _ => none

/-- A run is fenced if no leader is reported behind one installed before. -/
theorem fenced_of_pairwise {run : List MetadataEvent}
    (ord : run.Pairwise fun x e => ∀ earlier ∈ installs x topic partition,
      ∀ leader ∈ reported e topic partition, assignmentRegresses earlier leader = false) :
    Fenced topic partition run := by
  rintro past e later snap rfl ⟨_, op, _, _, fu, -, hi⟩ - earlier leader
    ⟨before, x, between, rfl, installed, -⟩ found
  have mem : x ∈ before ++ x :: between := by simp
  refine (pairwise_append.1 ord).2.2 x mem e mem_cons_self earlier installed leader ?_
  rw [reported, hi]
  exact found

/-! ## A withdrawn leader -/

theorem orders_named : "orders" ≠ "" := by decide

def orders : TopicName := ⟨"orders", orders_named, by decide⟩

def brokerPair : List BrokerDirectoryEntry := [⟨⟨7⟩, ⟨"a", 9092⟩⟩, ⟨⟨9⟩, ⟨"b", 9092⟩⟩]

/-- Two brokers, one of which leads partition 3 of the topic. -/
def leaderSnapshot (generation evidence epoch : ℕ) {leader : BrokerDirectoryEntry}
    (mem : leader ∈ brokerPair) : MetadataSnapshot :=
  ⟨⟨⟨generation⟩, ⟨evidence⟩, brokerPair, by decide⟩, none,
    ⟨[⟨orders, ⟨3⟩, leader.brokerId, some ⟨epoch⟩, ⟨generation⟩, ⟨evidence⟩⟩],
      pairwise_singleton _ _⟩,
    .empty, nofun, by
      simp only [mem_singleton, forall_eq]
      rw [BrokerDirectory.routeTo_of_mem mem]
      rfl⟩

/-- Broker 7 leads at epoch 11 and is observed to fail, and broker 9 is reported at `epoch`. -/
def failingRun (epoch : ℕ) : List MetadataEvent :=
  trace apply (withQueryLimits ⟨1⟩ ⟨.one⟩)
    [.resolve (.topic orders) ⟨1⟩,
      .refreshSucceeded ⟨1⟩ (leaderSnapshot 1 1 11 mem_cons_self) ⟨2⟩,
      .invalidatePartitionRoute
        ⟨⟨⟨1⟩, ⟨7⟩, ⟨1⟩⟩, orders, ⟨3⟩, some ⟨11⟩, ⟨1⟩, ⟨1⟩⟩ ⟨2⟩ ⟨3⟩,
      .refreshSucceeded ⟨3⟩
        (leaderSnapshot 2 3 epoch (mem_cons_of_mem _ mem_cons_self)) ⟨4⟩]

/-- Epoch 10 is installed after epoch 11, by topic refreshes with no cluster refresh between
them : the invalidation took the leader out of the set the refresh is compared with. -/
theorem withdrawn_epoch_regresses :
    (failingRun 10).map
        (fun e => (installs e orders ⟨3⟩).map fun l => (l.brokerId, l.leaderEpoch)) =
      [none, some (⟨7⟩, some ⟨11⟩), none, some (⟨9⟩, some ⟨10⟩)] ∧
    (failingRun 10).map (fun e => (appliedRefresh e).map Prod.fst) =
      [none, some (.topic orders), none, some (.topic orders)] := by
  decide +kernel

/-- Broker 9 at epoch 12, once the leader at epoch 11 was withdrawn. -/
theorem leader_epochs_monotone_orders :
    Fenced orders ⟨3⟩ (failingRun 12) ∧
      ∃ before e between e' after, failingRun 12 = before ++ e :: (between ++ e' :: after) ∧
        installs e orders ⟨3⟩ = some ⟨orders, ⟨3⟩, ⟨7⟩, some ⟨11⟩, ⟨1⟩, ⟨1⟩⟩ ∧
        installs e' orders ⟨3⟩ = some ⟨orders, ⟨3⟩, ⟨9⟩, some ⟨12⟩, ⟨2⟩, ⟨3⟩⟩ ∧
        LeaderEpoch.mk 11 ≤ ⟨12⟩ := by
  have hf : Fenced orders ⟨3⟩ (failingRun 12) := fenced_of_pairwise (by decide +kernel)
  have first : (failingRun 12)[1]?.bind (installs · orders ⟨3⟩) =
      some ⟨orders, ⟨3⟩, ⟨7⟩, some ⟨11⟩, ⟨1⟩, ⟨1⟩⟩ := by decide +kernel
  have second : (failingRun 12)[3]?.bind (installs · orders ⟨3⟩) =
      some ⟨orders, ⟨3⟩, ⟨9⟩, some ⟨12⟩, ⟨2⟩, ⟨3⟩⟩ := by decide +kernel
  have hq : (failingRun 12)[2]?.bind appliedRefresh = none := by decide +kernel
  obtain ⟨a, e, x, e', run⟩ : ∃ a e x e', failingRun 12 = [a] ++ e :: ([x] ++ e' :: []) :=
    ⟨_, _, _, _, rfl⟩
  rw [run] at first second hq
  have hm := leader_epochs_monotone ⟨1⟩ ⟨.one⟩ _ orders ⟨3⟩ hf run
    first second (by simp [RefreshesCluster, show appliedRefresh x = none from hq]) ⟨11⟩ ⟨12⟩
    rfl rfl
  exact ⟨hf, [a], e, [x], e', [], run, first, second, hm.1⟩

end MetadataMachine

end KafkaDriver
