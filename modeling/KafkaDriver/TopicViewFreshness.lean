import KafkaDriver.FetchMirror
import KafkaDriver.MetadataRevocation

/-!
# How recent the facts of a topic view are

A caller may ask for a view of a topic that is newer than a generation it has seen. The owner
compares that floor with the generation of the current snapshot. A refresh of something else
installs a snapshot of a new generation too, and carries the partition count of the topic
over, so the snapshot may be newer than the floor and the facts of the topic older
(`view_of_retained_count`).

The facts of a topic in the current snapshot are those its last refresh installed
(`Descends`), less what was withdrawn since. So where the last refresh of the topic is itself
newer than the floor whenever the snapshot is (`Fenced`), a view has only newer facts
(`views_newer_than`).
-/

namespace KafkaDriver

open Fallible Runs List Option TopicViewWaiters

/-! ## Snapshots with fewer facts -/

/-- Every count and every leader of `s'` is one of `s`, and both are of one directory. -/
structure MetadataSnapshot.Carries (s s' : MetadataSnapshot) : Prop where
  brokers : s'.brokers = s.brokers
  counts : s'.topicCounts.entries ⊆ s.topicCounts.entries
  leaders : s'.leaders.entries ⊆ s.leaders.entries

namespace MetadataSnapshot

variable (s : MetadataSnapshot)

theorem carries_refl : s.Carries s := ⟨rfl, fun _ => id, fun _ => id⟩

theorem Carries.trans {s₁ s₂ s₃ : MetadataSnapshot} (first : s₁.Carries s₂)
    (second : s₂.Carries s₃) : s₁.Carries s₃ :=
  ⟨second.brokers.trans first.brokers, List.Subset.trans second.counts first.counts,
    List.Subset.trans second.leaders first.leaders⟩

theorem carries_revokeController : s.Carries s.revokeController :=
  ⟨rfl, fun _ => id, fun _ => id⟩

theorem carries_revokePartition (topic : TopicName) (part : PartitionId) :
    s.Carries (s.revokePartition topic part) :=
  ⟨rfl, fun _ => id, (Canonical.remove_sublist _ _).subset⟩

theorem carries_revoke (t : InvalidationTarget) : s.Carries (t.revoke s) := by
  cases t with
  | controller rt => exact s.carries_revokeController
  | partition rt => exact s.carries_revokePartition rt.topic rt.partition

theorem carries_withdrawAll (held : List PartitionRevocation) :
    s.Carries (MetadataRevocations.withdrawAll s held) := by
  unfold MetadataRevocations.withdrawAll
  induction held generalizing s with
  | nil => exact s.carries_refl
  | cons rev held ih => exact (s.carries_revokePartition _ _).trans (ih _)

theorem carries_apply (r : MetadataRevocations) (q : MetadataQuery) :
    s.Carries (r.apply s q).2 := by
  refine Carries.trans ?_ (carries_withdrawAll _ _)
  unfold MetadataRevocations.applyController
  split
  · exact s.carries_refl
  · split_ifs
    · exact s.carries_refl
    · exact s.carries_revokeController

end MetadataSnapshot

/-! ## The refreshes of a topic -/

/-- The snapshot installed by an applied refresh of the topic. -/
def installedFor (topic : TopicName) (e : MetadataEvent) : Option MetadataSnapshot :=
  (appliedRefresh e).bind fun applied =>
    if applied.1 = .topic topic then e.after.current else none

/-- The snapshots installed by refreshes of the topic, in order. -/
def refreshesOf (topic : TopicName) (past : List MetadataEvent) : List MetadataSnapshot :=
  past.filterMap (installedFor topic)

/-- The snapshot installed by the last refresh of the topic. -/
def lastRefresh (topic : TopicName) (past : List MetadataEvent) : Option MetadataSnapshot :=
  (refreshesOf topic past).getLast?

variable {past : List MetadataEvent} {e : MetadataEvent} {topic : TopicName}
  {s s' : MetadataSnapshot}

theorem lastRefresh_of_some (inst : installedFor topic e = some s) :
    lastRefresh topic (past ++ [e]) = some s := by
  simp [lastRefresh, refreshesOf, inst]

theorem lastRefresh_of_none (ne : installedFor topic e = none) :
    lastRefresh topic (past ++ [e]) = lastRefresh topic past := by
  simp [lastRefresh, refreshesOf, ne]

/-- Every fact of a topic was reported to the last refresh of the topic. -/
structure Descends (past : List MetadataEvent) (s : MetadataSnapshot) : Prop where
  counts : ∀ count ∈ s.topicCounts.entries, ∃ installed ∈ lastRefresh count.topic past,
    count ∈ installed.topicCounts.entries ∧ count.evidence = installed.brokers.evidence
  leaders : ∀ leader ∈ s.leaders.entries, ∃ installed ∈ lastRefresh leader.topic past,
    leader ∈ installed.leaders.entries ∧ leader.evidence = installed.brokers.evidence

theorem Descends.carries (hd : Descends past s) (hc : s.Carries s') : Descends past s' :=
  ⟨fun n mem => hd.counts n (hc.counts mem), fun ld mem => hd.leaders ld (hc.leaders mem)⟩

/-- A step without an applied refresh adds no fact. -/
theorem Descends.concat (hu : appliedRefresh e = none) (hd : Descends past s) :
    Descends (past ++ [e]) s := by
  have hs : ∀ topic, lastRefresh topic (past ++ [e]) = lastRefresh topic past :=
    fun topic => lastRefresh_of_none (by rw [installedFor, hu]; rfl)
  constructor
  · intro n mem
    rw [hs]
    exact hd.counts n mem
  · intro ld mem
    rw [hs]
    exact hd.leaders ld mem

/-- An applied refresh installs facts of its own and facts of the snapshot before. -/
theorem descends_installed {resp : MetadataResponse}
    {prov : MetadataResponse.MetadataResponseProvenance} {snap : MetadataSnapshot}
    {cap : NonZeroUsize} {lim : PartitionLeaderLimits}
    (hb : resp.snapshotFromResponse prov e.before.current cap lim = .ok snap)
    (ha : appliedRefresh e = some (prov.query, snap))
    (cur : e.after.current = some s) (hc : snap.Carries s)
    (pre : ∀ s ∈ e.before.current, Descends past s) : Descends (past ++ [e]) s := by
  obtain ⟨leaders, hco⟩ :=
    MetadataResponse.topicFacts_origin (MetadataResponse.snapshotFromResponse_eq_ok hb).2.1
  have ev := (MetadataResponse.snapshotFromResponse_stamps hb).2
  have own : ∀ {topic}, prov.query = .topic topic → installedFor topic e = some s := by
    intro topic q
    simp [installedFor, ha, q, cur]
  have ne : ∀ {topic}, prov.query ≠ .topic topic → installedFor topic e = none := by
    intro topic q
    simp [installedFor, ha, q]
  constructor
  · intro n mem
    rcases hco n (hc.counts mem) with ⟨q, hf⟩ | ⟨q, hr⟩
    · refine ⟨s, lastRefresh_of_some (own q), mem, ?_⟩
      rw [hf, hc.brokers, ev]
    rw [lastRefresh_of_none (ne q)]
    cases previous : e.before.current with
    | none =>
      rw [previous] at hr
      cases hr
    | some s =>
      rw [previous] at hr
      exact (pre s previous).counts n hr
  · intro ld mem
    rcases leaders ld (hc.leaders mem) with ⟨q, hf⟩ | ⟨q, hr⟩
    · refine ⟨s, lastRefresh_of_some (own q), mem, ?_⟩
      rw [hf, hc.brokers, ev]
    rw [lastRefresh_of_none (ne q)]
    cases previous : e.before.current with
    | none =>
      rw [previous] at hr
      cases hr
    | some s =>
      rw [previous] at hr
      exact (pre s previous).leaders ld hr

namespace MetadataOwner

open MetadataMachine

/-! ## The machine's history in a run of the owner -/

/-- The machine's steps on `inputs`. -/
def machineTrace (limits : MetadataLimits) (inputs : List MetadataInput) : List MetadataEvent :=
  trace apply (withQueryLimits ⟨1⟩ limits.queries) inputs

/-- The inputs the machine got in a run of the owner. -/
def inputsOf (past : List CallEvent) : List MetadataInput := past.flatMap (·.answer.inputs)

/-- The machine's state and its facts are those its inputs led to. -/
structure Traced (limits : MetadataLimits) (inputs : List MetadataInput) (o : MetadataOwner) :
    Prop where
  machine : o.machine = final apply (withQueryLimits ⟨1⟩ limits.queries) inputs
  mirrors : Mirrors o
  descends : ∀ s ∈ o.machine.current, Descends (machineTrace limits inputs) s

variable {limits : MetadataLimits} {inputs : List MetadataInput} {o : MetadataOwner}
  {call : MetadataCall} {t t' : OwnerTurn}

variable {i : MetadataInput}

/-- A step of the machine keeps `Traced` if it keeps the facts apart. -/
theorem Traced.applied (ht : Traced limits inputs t.owner) (ha : Applies i t t')
    (hm : Mirrors t'.owner) (hd : ∀ s ∈ (t.owner.machine.apply i).1.current,
      Descends (machineTrace limits inputs ++ [event apply t.owner.machine i]) s) :
    Traced limits (inputs ++ [i]) t'.owner := by
  refine ⟨?_, hm, ?_⟩
  · rw [ha.machine, ht.machine, final_concat]
  · rw [machineTrace, trace_concat, ← ht.machine, ha.machine]
    exact hd

theorem Traced.demanded (ht : Traced limits inputs t.owner) (d : IsDemand i)
    (s : MetadataSnapshot) (cur : s ∈ (t.owner.machine.apply i).1.current) :
    Descends (machineTrace limits inputs ++ [event apply t.owner.machine i]) s := by
  cases d with
  | resolve q op =>
    have hk := (t.owner.machine.admitQuery_admission q op .currentMaySatisfy).current_eq
    exact (ht.descends s (hk ▸ cur)).concat rfl
  | refresh q op =>
    have hk := (t.owner.machine.admitQuery_admission q op .mustFollowCurrent).current_eq
    exact (ht.descends s (hk ▸ cur)).concat rfl

theorem Traced.invalidated (ht : Traced limits inputs t.owner) (tgt : InvalidationTarget)
    (seen : OutcomeStamp) (op : OperationId) (s : MetadataSnapshot)
    (cur : s ∈ (t.owner.machine.apply (invalidationInput tgt seen op)).1.current) :
    Descends (machineTrace limits inputs ++
      [event apply t.owner.machine (invalidationInput tgt seen op)]) s := by
  refine Descends.concat (by cases tgt <;> rfl) ?_
  rw [apply_invalidationInput] at cur
  have step := t.owner.machine.invalidateTarget_invalidation seen op tgt
  generalize t.owner.machine.invalidateTarget tgt seen op = result at step cur
  cases step with
  | ignored | refused | covered => exact ht.descends s cur
  | withdrawn adm =>
    have hm := (mapCurrent_current _ tgt.revoke).symm.trans cur
    rw [adm.current_eq] at hm
    obtain ⟨prev, pre, rfl⟩ := map_eq_some_iff.1 hm
    exact (ht.descends prev pre).carries (prev.carries_revoke tgt)

theorem Traced.completed {fetch : MetadataFetch} (ht : Traced limits inputs t.owner)
    (hh : t.owner.pending = some fetch) (out : IsOutcome t.owner fetch i)
    (s : MetadataSnapshot) (cur : s ∈ (t.owner.machine.apply i).1.current) :
    Descends (machineTrace limits inputs ++ [event apply t.owner.machine i]) s := by
  cases out with
  | failed followup =>
    have hk := (t.owner.machine.fail_kept fetch.operationId followup).1
    exact (ht.descends s (hk ▸ cur)).concat rfl
  | @succeeded resp snap hb followup =>
    have step := t.owner.machine.succeed_success fetch.operationId snap followup
    rw [apply] at cur
    cases h : t.owner.machine.succeed fetch.operationId snap followup with
    | mk m tr =>
      rw [h] at step cur
      cases step with
      | kept hk _ hu =>
        refine (ht.descends s (hk ▸ cur)).concat ?_
        unfold appliedRefresh
        split
        · exact if_neg (by simpa [event, apply, h] using hu)
        · rfl
      | @installed _ _ prev q targetGeneration queued st _ _ inst _ ha =>
        -- the machine waits for the owner's fetch, so it asked the query of the response
        have hw := (ht.mirrors.awaiting hh).1
        rw [awaiting_eq_some.2 ⟨prev, queued, st⟩] at hw
        have had : q = (provenance fetch).query :=
          (Prod.mk.inj (Prod.mk.inj (some.inj hw)).2).2
        have hi : some (t.owner.machine.revocations.apply snap q).2 = some s :=
          inst.symm.trans cur
        refine descends_installed hb ?_ (by simpa [event, apply, h] using cur)
          (some.inj hi ▸ MetadataSnapshot.carries_apply _ _ _) ht.descends
        simp [appliedRefresh, event, apply, h, st, ha, had]

theorem Traced.step (step : OwnerStep o call t t')
    (ht : Traced limits (inputs ++ t.inputs) t.owner) :
    Traced limits (inputs ++ t'.inputs) t'.owner := by
  have hm := ht.mirrors.step step
  cases step with
  | quiet hq =>
    rw [hq.inputs]
    exact ⟨hq.machine.trans ht.machine, hm, hq.machine ▸ ht.descends⟩
  | submitted hk hf => exact ⟨ht.machine, hm, ht.descends⟩
  | demanded _ d ha hs bs =>
    rw [ha.inputs, ← append_assoc]
    exact ht.applied ha hm (ht.demanded d)
  | invalidated _ done had first ha hs bs =>
    rw [ha.inputs, ← append_assoc]
    exact ht.applied ha hm (ht.invalidated _ _ _)
  | completed _ hg out ha hs bs =>
    rw [ha.inputs, ← append_assoc]
    exact ht.applied ha hm (ht.completed hg out)

theorem traced_run (b : Build) (lim : MetadataLimits) (cs : List MetadataCall)
    (ok : ∀ e ∈ trace (step b) (new lim) cs, e.answer.failure = none) :
    (final (step b) (new lim) cs).topicViews.Scannable ∧
      Traced lim (inputsOf (trace (step b) (new lim) cs)) (final (step b) (new lim) cs) := by
  refine run_owner (I := fun past o => o.topicViews.Scannable ∧ Traced lim (inputsOf past) o)
    (G := fun _ _ => True) ⟨Waiters.new_scannable _ _, rfl, rfl, nofun⟩ ?_ cs ok
    fun _ _ _ _ => trivial
  intro past e ⟨_, ht⟩ _ hv steps
  refine ⟨steps_invariant (J := fun t => t.owner.topicViews.Scannable)
    (fun _ _ => scannable_step) steps hv, ?_⟩
  have post := steps_invariant (J := fun t => Traced lim (inputsOf past ++ t.inputs) t.owner)
    (fun _ _ => Traced.step) steps (by simpa using ht)
  simpa [inputsOf] using post

/-! ## Views -/

/-- A step of the machine delivers no view. -/
theorem Applies.told_before (ha : Applies i t t') {f : MetadataFate}
    (hi : f.IsView) (ht : f ∈ t'.fates) : f ∈ t.fates := by
  obtain ⟨new, fs, hs⟩ := ha.fates
  rw [fs] at ht
  rcases mem_append.1 ht with old | hf
  · exact old
  · exact absurd hi (hs f hf)

/-- A view a call delivers is one it examined, of the snapshot it started with. -/
theorem delivered (steps : Relation.ReflTransGen (OwnerStep o call) ⟨o, [], []⟩ t)
    {req : TopicViewRequirement} {done : ℕ} {view : TopicView}
    (ht : .viewed topic req done (.ok view) ∈ t.fates) :
    (topic, req) ∈ o.examines call ∧
      ∃ reserve, projected reserve o.machine topic req = .ok (some view) := by
  refine steps_invariant (J := fun t => .viewed topic req done (.ok view) ∈ t.fates →
    (topic, req) ∈ o.examines call ∧ ∃ reserve,
      projected reserve o.machine topic req = .ok (some view))
    ?_ steps nofun ht
  intro t t' step pre ht
  have hi : (MetadataFate.viewed topic req done (.ok view)).IsView :=
    ⟨topic, req, done, view, rfl⟩
  cases step with
  | quiet hq =>
    obtain ⟨new, fs, hj⟩ := hq.fates
    rw [fs] at ht
    rcases mem_append.1 ht with old | hf
    · exact pre old
    · exact (hj _ hf topic req done view rfl).2.2
  | submitted hk free => exact pre ht
  | demanded _ d ha hs bs => exact pre (ha.told_before hi ht)
  | invalidated _ done had first ha hs bs | completed _ hg out ha hs bs =>
    exact pre (ha.told_before hi ht)

/-- The count and the leaders of a view are of the topic in `s`, reported to the refresh that
installed `s`. -/
def ReportedIn (s : MetadataSnapshot) (view : TopicView) : Prop :=
  (∃ count ∈ s.topicCounts.entries, count.topic = view.topic ∧
    count.evidence = s.brokers.evidence ∧ view.topicId = count.topicId ∧
    view.logicalPartitionCount = count.count.get) ∧
  ∀ available ∈ view.available, ∃ leader ∈ s.leaders.entries, leader.topic = view.topic ∧
    leader.evidence = s.brokers.evidence ∧ available = TopicView.project leader

/-- Every demand for a newer view the call holds against a snapshot that is newer finds a
topic that was refreshed since. -/
def Fenced (limits : MetadataLimits) (past : List CallEvent) (e : CallEvent) : Prop :=
  ∀ topic floor, (topic, .newerThan floor) ∈ e.before.examines e.input →
    ∀ s ∈ e.before.machine.current, floor < s.generation → (s.topicCounts.find topic).isSome →
      ∃ installed ∈ lastRefresh topic (machineTrace limits (inputsOf past)),
        floor < installed.generation

/-- Every view delivered for a demand for newer facts has only facts that a refresh of the
topic of a generation above the floor brought, in every run in which the topic was refreshed
since, whenever such a demand meets a newer snapshot. -/
theorem views_newer_than (build : Build) (limits : MetadataLimits) (calls : List MetadataCall)
    (succeeded : ∀ e ∈ trace (step build) (new limits) calls, e.answer.failure = none)
    (fenced : ∀ past e rest, trace (step build) (new limits) calls = past ++ e :: rest →
      Fenced limits past e)
    {past : List CallEvent} {e : CallEvent} {rest : List CallEvent}
    (split : trace (step build) (new limits) calls = past ++ e :: rest) (topic : TopicName)
    (floor : MetadataGeneration) (completion : ℕ) (view : TopicView)
    (told : .viewed topic (.newerThan floor) completion (.ok view) ∈ e.answer.fates) :
    ∃ installed ∈ refreshesOf topic (machineTrace limits (inputsOf past)),
      floor < installed.generation ∧ view.topic = topic ∧ ReportedIn installed view := by
  have hg := fenced past e rest split
  have hsu : e.answer.failure = none := succeeded e (by simp [split])
  have hs : ∀ e ∈ past, e.answer.failure = none :=
    fun e mem => succeeded e (by simp [split, mem])
  obtain ⟨old, call, rfl, rfl⟩ := of_trace_eq_append_cons (step build) split
  obtain ⟨hv, ht⟩ := traced_run build limits old hs
  obtain ⟨he, reserve, hp⟩ := delivered (step_steps hv hsu) told
  obtain ⟨s, cur, hne, hn, hav, count, hf, topicId, partitions⟩ :=
    TopicViewWaiters.projected_eq hp
  obtain ⟨installed, last, ha⟩ := hg topic floor he s cur
    (by simpa [TopicViewRequirement.satisfiedBy] using hne) (by simp [hf])
  have hd := ht.descends s cur
  obtain ⟨hc, ofTopic⟩ := TopicPartitionCountSet.find_eq_some.1 hf
  refine ⟨installed, mem_of_getLast? last, ha, hn, ?_, ?_⟩
  · obtain ⟨source, his, hr, ev⟩ := hd.counts count hc
    rw [ofTopic] at his
    obtain rfl := some.inj (his.symm.trans last)
    exact ⟨count, hr, ofTopic.trans hn.symm, ev, topicId, partitions⟩
  · intro part mem
    rw [hav] at mem
    obtain ⟨leader, led, rfl⟩ := mem_map.1 mem
    obtain ⟨led, isOf⟩ := mem_filter.1 led
    obtain ⟨source, his, hr, ev⟩ := hd.leaders leader led
    rw [of_decide_eq_true isOf] at his
    obtain rfl := some.inj (his.symm.trans last)
    exact ⟨leader, hr, (of_decide_eq_true isOf).trans hn.symm, ev, rfl⟩

/-! ## A count carried over -/

def soleTopic : TopicName := ⟨"t", by decide, by decide⟩

/-- The topic with one partition, led by the only broker. -/
def soleTopicResponse : MetadataResponse := soleResponse [⟨0, some "t", 7, [⟨0, 0, 1, 4⟩]⟩]

/-- A caller asks for a view of the topic. -/
def askTopicView (newerThan : Option MetadataGeneration) (completion : ℕ)
    (evidence : EvidenceStamp) : MetadataCall :=
  .processTopicView (fun _ => true) soleTopic newerThan ⟨9⟩ 1 completion openRpc ⟨0⟩ evidence

/-- The cluster is fetched in generation 1 and the topic in generation 2. -/
def topicFetched : List MetadataCall :=
  [.drive (openTurn .pending) ⟨1⟩,
    .drive (openTurn (.responded (soleResponse []))) ⟨2⟩,
    askTopicView none 0 ⟨3⟩,
    .drive (openTurn (.responded soleTopicResponse)) ⟨4⟩,
    .drainTopicViewWaiters (fun _ => true) ⟨1⟩]

theorem mirrors_run_topicFetched : Mirrors (final (step .debug) (new smallLimits) topicFetched) :=
  mirrors_run .debug smallLimits topicFetched (by decide +kernel)

/-- The cluster is fetched again, in generation 3. -/
def clusterRefetched : List MetadataCall :=
  topicFetched ++ [.resolveCoordinatorDirectory openRpc ⟨5⟩,
    .drive (openTurn (.responded (soleResponse []))) ⟨6⟩]

/-- The view of the topic, as the last refresh of the cluster left it. -/
def retainedView : TopicView := ⟨soleTopic, some ⟨7, by decide⟩, ⟨3⟩, 1, []⟩

/-- A demand for facts newer than generation 2 is met at once with the count of generation
2. -/
theorem view_of_retained_count :
    let past := trace (step .debug) (new smallLimits) clusterRefetched
    let o := final (step .debug) (new smallLimits) clusterRefetched
    (∀ e ∈ past, e.answer.failure = none) ∧
      (o.step .debug (askTopicView (some ⟨2⟩) 1 ⟨7⟩)).2.failure = none ∧
      .viewed soleTopic (.newerThan ⟨2⟩) 1 (.ok retainedView) ∈
        (o.step .debug (askTopicView (some ⟨2⟩) 1 ⟨7⟩)).2.fates ∧
      ∀ newer ∈ refreshesOf soleTopic (machineTrace smallLimits (inputsOf past)),
        newer.generation = ⟨2⟩ := by
  refine ⟨by decide +kernel, by decide +kernel, by decide +kernel, by decide +kernel⟩

/-- The view of the topic, as its refresh left it. -/
def refreshedView : TopicView :=
  ⟨soleTopic, some ⟨7, by decide⟩, ⟨2⟩, 1, [⟨⟨0⟩, ⟨1⟩, some ⟨4⟩⟩]⟩

/-- Before the cluster is fetched again, a demand for facts newer than generation 1 gets those
of generation 2. -/
theorem view_newer_than_topicFetched :
    ∃ installed ∈ refreshesOf soleTopic (machineTrace smallLimits
        (inputsOf (trace (step .debug) (new smallLimits) topicFetched))),
      ⟨1⟩ < installed.generation ∧ refreshedView.topic = soleTopic ∧
        ReportedIn installed refreshedView := by
  refine views_newer_than .debug smallLimits (topicFetched ++ [askTopicView (some ⟨1⟩) 1 ⟨5⟩])
    (by decide +kernel) ?_ (trace_concat _ _ _ _) soleTopic ⟨1⟩ 1 refreshedView (by decide +kernel)
  have hu : ∀ e ∈ trace (step .debug) (new smallLimits) topicFetched,
      ∀ demand ∈ e.before.examines e.input, demand.2 = .current := by decide +kernel
  have hr : ((lastRefresh soleTopic (machineTrace smallLimits (inputsOf
      (trace (step .debug) (new smallLimits) topicFetched)))).any fun installed =>
        decide (⟨1⟩ < installed.generation)) = true := by decide +kernel
  intro past e rest split topic generation ha s _ _ _
  rcases of_trace_concat_eq (step .debug) split with ⟨rfl, rfl⟩ | pre
  · obtain ⟨rfl, hs⟩ := Prod.mk.inj (mem_singleton.1 ha)
    cases hs
    simpa [Option.any_eq_true] using hr
  · cases hu e pre _ ha

end MetadataOwner

end KafkaDriver
