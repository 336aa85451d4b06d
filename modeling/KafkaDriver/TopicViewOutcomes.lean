import KafkaDriver.MetadataDemand
import KafkaDriver.SnapshotReplacement
import KafkaDriver.WaiterLiveness

/-!
# Topic views after an outcome

A caller that saw a failure asks for a view of the topic that is later than it : built from
evidence after the outcome, or answered with a failure that is itself later. The count and the
leaders of a topic are two sets, refreshed together and withdrawn apart. They stay `Coherent` :
every leader has a count of its topic, of the same evidence and above its partition. So the
evidence of the count is that of the whole view, and no view is malformed.

A failed fetch is noted on the waiting views that accept its evidence (`markTerminal`), and a
scan hands the note out later. `Noted` follows the note back to the turn that saw the failure.
`ToldAfter` lists all that a caller can be told, each with its reason.
-/

namespace KafkaDriver

open Fallible Runs List TopicViewWaiters MetadataRevocations Waiters TopicPartitionCountSet

/-! ## Coherent snapshots -/

namespace MetadataSnapshot

/-- Every leader has a count of its topic, of the same evidence and above its partition. -/
def Coherent (s : MetadataSnapshot) : Prop :=
  ∀ leader ∈ s.leaders.entries, ∃ count ∈ s.topicCounts.entries,
    count.topic = leader.topic ∧ count.evidence = leader.evidence ∧
      leader.partition.raw < count.count.get

/-- `s'` is `s` without some of its leaders or its controller. -/
structure Sheds (s s' : MetadataSnapshot) : Prop where
  topicCounts : s'.topicCounts = s.topicCounts
  leaders : s'.leaders.entries ⊆ s.leaders.entries

variable {s s' : MetadataSnapshot}

theorem sheds_refl (s : MetadataSnapshot) : s.Sheds s := ⟨rfl, fun _ => id⟩

theorem sheds_revoke (tgt : InvalidationTarget) (s : MetadataSnapshot) :
    s.Sheds (tgt.revoke s) := by
  refine ⟨?_, (carries_revoke s tgt).leaders⟩
  cases tgt <;> rfl

theorem sheds_apply (r : MetadataRevocations) (s : MetadataSnapshot) (q : MetadataQuery) :
    s.Sheds (r.apply s q).2 := by
  refine ⟨?_, (carries_apply s r q).leaders⟩
  simp only [apply, withdrawAll_topicCounts]
  unfold applyController
  split
  · rfl
  · split_ifs <;> rfl

theorem Coherent.sheds (hc : s.Coherent) (hs : s.Sheds s') : s'.Coherent := by
  intro ld mem
  rw [hs.topicCounts]
  exact hc ld (hs.leaders mem)

/-- The leaders of a coherent snapshot are below the count of their topic. -/
theorem Coherent.of_find (hc : s.Coherent) {topic : TopicName} {n : TopicPartitionCount}
    (hf : s.topicCounts.find topic = some n) {ld : PartitionLeader}
    (mem : ld ∈ s.leadersOf topic) :
    ld.evidence = n.evidence ∧ ld.partition.raw < n.count.get := by
  obtain ⟨mem, ofTopic⟩ := mem_filter.1 mem
  obtain ⟨own, cnt, ht, ev, hb⟩ := hc ld mem
  have hs : s.topicCounts.find topic = some own :=
    find_eq_some.2 ⟨cnt, ht.trans (of_decide_eq_true ofTopic)⟩
  obtain rfl := Option.some.inj (hs.symm.trans hf)
  exact ⟨ev.symm, hb⟩

/-- A view of a coherent snapshot is not malformed. -/
theorem Coherent.wellFormed (hc : s.Coherent) (reserve : ℕ → Bool) (topic : TopicName) :
    TopicView.fromSnapshot reserve s topic ≠ .error .malformedMetadata := by
  unfold TopicView.fromSnapshot
  split
  · nofun
  rename_i n hf
  split_ifs with hr beyond
  · nofun
  · obtain ⟨ld, mem, ha⟩ := any_eq_true.1 beyond
    have hb := (hc.of_find hf mem).2
    exact absurd (of_decide_eq_true ha) (not_le.2 hb)
  · nofun

end MetadataSnapshot

/-- A response keeps snapshots coherent. -/
theorem MetadataResponse.snapshotFromResponse_coherent {resp : MetadataResponse}
    {prov : MetadataResponseProvenance} {cur : Option MetadataSnapshot}
    {cap : NonZeroUsize} {lim : PartitionLeaderLimits} {s : MetadataSnapshot}
    (hb : resp.snapshotFromResponse prov cur cap lim = .ok s)
    (pre : ∀ s ∈ cur, s.Coherent) : s.Coherent := by
  have hg := (snapshotFromResponse_eq_ok hb).2.1
  intro ld mem
  cases query : prov.query with
  | cluster =>
    rw [(topicFacts_cluster query hg).1] at mem
    cases mem
  | topic topic =>
    obtain ⟨leaders, hc⟩ := topicFacts_topic query hg
    rcases (leaders ld).1 mem with ⟨hr, ne, -⟩ | own
    · obtain ⟨prev, hi, led⟩ := mem_retainedLeaders.1 hr
      obtain ⟨n, cnt, ht, rest⟩ := pre prev hi ld led
      refine ⟨n, (hc n).2 (.inl ⟨?_, ht ▸ ne⟩), ht, rest⟩
      rw [hi]
      exact cnt
    · obtain ⟨n, rep, hbe⟩ := topicFacts_reported_lt query hg own
      obtain ⟨ht, ev⟩ := of_mem_reportedLeaders own
      refine ⟨n, (hc n).2 (.inr rep), ?_, ?_, hbe⟩
      · obtain ⟨_, _, _, hn, _⟩ := rep
        exact hn.trans ht.symm
      · obtain ⟨_, _, _, _, _, _, hs⟩ := rep
        exact hs.trans ev.symm

namespace MetadataMachine

/-- The current snapshot after an input sheds the one before, or the one the input brought. -/
theorem current_sheds (m : MetadataMachine) (i : MetadataInput) {s' : MetadataSnapshot}
    (cur : (m.apply i).1.current = some s') :
    (∃ s, m.current = some s ∧ s.Sheds s') ∨
      ∃ op snap followup, i = .refreshSucceeded op snap followup ∧ snap.Sheds s' := by
  have hi : ∀ tgt seen op, (m.invalidateTarget tgt seen op).1.current = some s' →
      ∃ s, m.current = some s ∧ s.Sheds s' := by
    intro tgt seen op cur
    have step := m.invalidateTarget_invalidation seen op tgt
    generalize m.invalidateTarget tgt seen op = result at step cur
    cases step with
    | ignored | refused | covered => exact ⟨s', cur, s'.sheds_refl⟩
    | withdrawn adm =>
      have hm := (mapCurrent_current _ tgt.revoke).symm.trans cur
      rw [adm.current_eq] at hm
      obtain ⟨prev, pre, rfl⟩ := Option.map_eq_some_iff.1 hm
      exact ⟨prev, pre, prev.sheds_revoke tgt⟩
  cases i with
  | resolve q op =>
    rw [apply, resolve, (m.admitQuery_admission q op _).current_eq] at cur
    exact .inl ⟨s', cur, s'.sheds_refl⟩
  | refresh q op =>
    rw [apply, refresh, (m.admitQuery_admission q op _).current_eq] at cur
    exact .inl ⟨s', cur, s'.sheds_refl⟩
  | invalidateBrokerRoute rt seen op | invalidatePartitionRoute rt seen op =>
    exact .inl (hi _ _ _ cur)
  | refreshFailed op followup =>
    rw [apply, (m.fail_kept op followup).1] at cur
    exact .inl ⟨s', cur, s'.sheds_refl⟩
  | refreshSucceeded op snap followup =>
    have step := m.succeed_success op snap followup
    rw [apply] at cur
    generalize m.succeed op snap followup = result at step cur
    cases step with
    | kept hk => exact .inl ⟨s', hk.symm.trans cur, s'.sheds_refl⟩
    | @installed _ _ prev q targetGeneration queued st _ _ inst _ _ =>
      have his : some (m.revocations.apply snap q).2 = some s' :=
        inst.symm.trans cur
      obtain rfl := Option.some.inj his
      exact .inr ⟨op, snap, followup, rfl, snap.sheds_apply _ _⟩

end MetadataMachine

namespace MetadataOwner

variable {build : Build} {o : MetadataOwner} {call : MetadataCall} {t t' : OwnerTurn}

/-- The current snapshot is coherent. -/
def CoherentNow (m : MetadataMachine) : Prop := ∀ s ∈ m.current, s.Coherent

variable {m : MetadataMachine} {i : MetadataInput} {reserve : ℕ → Bool}
  {err : Option (TopicName × TopicViewError)} {error : TopicViewError}
  {requirement : TopicViewRequirement} {topic : TopicName}

theorem CoherentNow.apply (hc : CoherentNow m) (hb : ∀ op snap fu,
      i = .refreshSucceeded op snap fu → snap.Coherent) :
    CoherentNow (m.apply i).1 := by
  intro s' cur
  rcases m.current_sheds i cur with ⟨s, pre, hs⟩ | ⟨_, _, _, out, hs⟩
  · exact (hc s pre).sheds hs
  · exact (hb _ _ _ out).sheds hs

theorem coherent_step (step : OwnerStep o call t t') (hc : CoherentNow t.owner.machine) :
    CoherentNow t'.owner.machine := by
  cases step with
  | quiet hq => exact hq.machine ▸ hc
  | submitted hk hf => exact hc
  | demanded _ d ha hs bs =>
    rw [ha.machine]
    exact hc.apply fun _ _ _ out => by subst out; cases d
  | @invalidated t tgt seen op _ done had first ha hs bs =>
    rw [ha.machine]
    exact hc.apply fun _ _ _ out => by cases tgt <;> cases out
  | completed _ hg out ha hs bs =>
    rw [ha.machine]
    refine hc.apply fun _ _ _ hi => ?_
    subst hi
    cases out with
    | succeeded hb fu => exact MetadataResponse.snapshotFromResponse_coherent hb hc

theorem coherent_run (b : Build) (lim : MetadataLimits) (cs : List MetadataCall)
    (ok : ∀ e ∈ trace (step b) (new lim) cs, e.answer.failure = none) :
    CoherentNow (final (step b) (new lim) cs).machine :=
  run_owner (I := fun _ o => CoherentNow o.machine) (G := fun _ _ => True) nofun
    (fun _ _ hc _ _ steps => steps_invariant (J := fun t => CoherentNow t.owner.machine)
      (fun _ _ => coherent_step) steps hc)
    cs ok fun _ _ _ _ => trivial

/-! ## Delivered views -/

/-- The count and the leaders of a view are facts of `s` about the topic, of evidence after the
outcome. -/
structure BackedAfter (s : MetadataSnapshot) (topic : TopicName) (outcome : OutcomeStamp)
    (view : TopicView) : Prop where
  named : view.topic = topic
  count : ∃ count ∈ s.topicCounts.entries, count.topic = topic ∧
    count.evidence.isAfter outcome = true ∧ view.topicId = count.topicId ∧
    view.logicalPartitionCount = count.count.get
  leaders : ∀ available ∈ view.available, ∃ leader ∈ s.leaders.entries, leader.topic = topic ∧
    leader.evidence.isAfter outcome = true ∧ available = TopicView.project leader

theorem backed_of_projected {out : OutcomeStamp} {view : TopicView} (hc : CoherentNow m)
    (proj : TopicViewWaiters.projected reserve m topic (.afterOutcome out) = .ok (some view)) :
    ∃ s ∈ m.current, BackedAfter s topic out view := by
  obtain ⟨s, cur, hs, hn, ha, n, hf, topicId, partitions⟩ := TopicViewWaiters.projected_eq proj
  have hl : n.evidence.isAfter out = true := by
    simpa [TopicViewRequirement.satisfiedBy, hf] using hs
  obtain ⟨cnt, ofTopic⟩ := find_eq_some.1 hf
  refine ⟨s, cur, hn, ⟨n, cnt, ofTopic, hl, topicId, partitions⟩, ?_⟩
  intro part mem
  rw [ha] at mem
  obtain ⟨ld, led, rfl⟩ := mem_map.1 mem
  have ev := ((hc s cur).of_find hf led).1
  obtain ⟨led, isOf⟩ := mem_filter.1 led
  exact ⟨ld, led, of_decide_eq_true isOf, ev ▸ hl, rfl⟩

/-! ## Failures noted on waiting views -/

/-- The failure a turn reports for the topic of the fetch it sees the outcome of. -/
def failureReported (o : MetadataOwner) (turn : DriveTurn) : Option (TopicName × TopicViewError) :=
  (o.observedFetch turn).bind fun fetch =>
    match turn.result with
    | .pending => none
    | .failed => topicError fetch.query .refreshFailed
    | .responded response =>
      match response.snapshotFromResponse (provenance fetch) o.machine.current
        o.limits.brokerDirectory o.limits.partitionLeaders with
      | .error _ =>
        (responseTopicError fetch.query response).or (topicError fetch.query .malformedMetadata)
      | .ok _ => responseTopicError fetch.query response

theorem Reports.failureReported_eq {turn : DriveTurn} {fetch : MetadataFetch}
    (rs : Reports t.owner fetch turn.result i err)
    (seen : o.observedFetch turn = some fetch) (machine : t.owner.machine = o.machine)
    (lim : t.owner.limits = o.limits) : o.failureReported turn = err := by
  unfold failureReported
  rw [seen, Option.bind_some]
  generalize turn.result = result at rs
  cases rs with
  | failed => rfl
  | rejected hr =>
    rw [machine, lim] at hr
    simp only [hr]
  | succeeded hb =>
    rw [machine, lim] at hb
    simp only [hb]

/-- A failure is about the topic of its fetch. -/
theorem Reports.query_eq {fetch : MetadataFetch} {res : CallResult} (rs : Reports o fetch res i err)
    (hf : err = some (topic, error)) : fetch.query = .topic topic := by
  have ht : ∀ {error'}, topicError fetch.query error' = some (topic, error) →
      fetch.query = .topic topic := by
    intro error' hn
    unfold topicError at hn
    split at hn
    · cases hn
    · rename_i q
      cases hn
      exact q
  have hr : ∀ {resp}, responseTopicError fetch.query resp = some (topic, error) →
      fetch.query = .topic topic := by
    intro resp hn
    unfold responseTopicError at hn
    split at hn
    · cases hn
    rename_i q
    split_ifs at hn
    · cases hn
      exact q
    split at hn
    · split_ifs at hn
      · cases hn
        exact q
      · cases hn
        exact q
    · cases hn
      exact q
  cases rs with
  | failed => exact ht hf
  | rejected =>
    rcases Option.or_eq_some_iff.1 hf with own | ⟨-, hm⟩
    · exact hr own
    · exact ht hm
  | succeeded => exact hr hf

/-- A turn of the past saw a fetch of the topic fail in this way, with evidence the requirement
accepts. -/
def NotedIn (past : List CallEvent) (topic : TopicName) (requirement : TopicViewRequirement)
    (error : TopicViewError) : Prop :=
  ∃ e ∈ past, ∃ turn evidence fetch, e.input = .drive turn evidence ∧
    e.before.observedFetch turn = some fetch ∧ fetch.query = .topic topic ∧
    e.before.failureReported turn = some (topic, error) ∧
    requirement.acceptsTerminalFrom fetch.evidence = true

/-- The failures noted on waiting views were seen in the past. -/
def Noted (past : List CallEvent) (w : TopicViewWaiters) : Prop :=
  ∀ entry ∈ w.waiting, ∀ error ∈ entry.value.value.terminal,
    NotedIn past entry.value.value.topic entry.value.value.requirement error

variable {past : List CallEvent} {w w' : TopicViewWaiters}

theorem NotedIn.mono {past' : List CallEvent} (more : past ⊆ past')
    (hn : NotedIn past topic requirement error) : NotedIn past' topic requirement error := by
  obtain ⟨e, mem, rest⟩ := hn
  exact ⟨e, more mem, rest⟩

theorem Noted.subset (hn : Noted past w) (hf : w'.waiting ⊆ w.waiting) : Noted past w' :=
  fun e mem => hn e (hf mem)

/-- A turn over the views adds none. -/
theorem scan_subset (hv : w.Scannable) (build : Build) (now : Moment) (b : NonZeroUsize)
    (examine : WaitingTopicView → Option MetadataFate) :
    (w.scan build policy now b examine).1.waiting ⊆ w.waiting := by
  intro e mem
  rcases hv.scan_waiting policy now build b examine with
    ⟨-, -, fewer⟩ | ⟨-, waiting⟩
  · exact fewer.subset mem
  · rw [waiting] at mem
    rcases mem_append.1 mem with hb | stays
    · exact mem_of_mem_drop hb
    · exact mem_of_mem_take (mem_filter.1 stays).1

/-- A marked view is an old one, with the failure noted if it accepts the evidence. -/
theorem of_mem_markTerminal {ev : EvidenceStamp} {e : WaitEntry (Charged WaitingTopicView)}
    (mem : e ∈ (w.markTerminal topic ev error).waiting) :
    ∃ old ∈ w.waiting, e.value.value.topic = old.value.value.topic ∧
      e.value.value.requirement = old.value.value.requirement ∧
      ∀ noted ∈ e.value.value.terminal, noted ∈ old.value.value.terminal ∨
        noted = error ∧ old.value.value.topic = topic ∧
          old.value.value.requirement.acceptsTerminalFrom ev = true := by
  rw [waiting, TopicViewWaiters.markTerminal, WaitQueue.waiting_iterMut] at mem
  obtain ⟨old, hq, rfl⟩ := mem_map.1 mem
  refine ⟨old, hq, ?_⟩
  dsimp only
  split_ifs with ha
  · refine ⟨rfl, rfl, fun noted hm => ?_⟩
    rcases Option.or_eq_some_iff.1 hm with pre | ⟨-, hs⟩
    · exact .inl pre
    · exact .inr ⟨(Option.some.inj hs).symm, ha⟩
  · exact ⟨rfl, rfl, fun _ => .inl⟩

theorem noted_move (move : OwnerMove build o call t t') (hv : t.owner.topicViews.Scannable)
    {e : CallEvent} (now : e ∈ past) (pre : e.before = o) (i : e.input = call)
    (hn : Noted past t.owner.topicViews) : Noted past t'.owner.topicViews := by
  cases move with
  | drained c reserve now ha =>
    cases c with
    | partition | controller => exact hn
    | view => exact hn.subset (scan_subset hv build now _ _)
  | @refused t c value bytes due w fates ans =>
    cases c with
    | partition | controller => exact hn
    | view => exact Waiters.Scannable.of_refused hv ans ▸ hn
  | @queued t c value bytes due w fates op ev slots ha ans met sends =>
    cases c with
    | partition | controller => exact hn
    | view =>
      obtain ⟨-, -, ws⟩ := Waiters.Scannable.of_admitted hv ans
      intro entry mem error hm
      have mem : entry ∈ w.waiting := mem
      rw [ws] at mem
      rcases mem_append.1 mem with old | new
      · exact hn entry old error hm
      · rw [mem_singleton.1 new] at hm
        cases ha.symm.trans hm
  | @turnedAway t c value ws bytes due w w' fates op isMeant ans full ht =>
    cases c with
    | partition | controller => exact hn
    | view =>
      obtain ⟨-, -, queue⟩ := Waiters.Scannable.of_retracted hv ans ht
      exact hn.subset fun entry mem => queue ▸ mem
  | @completed t turn fetch outcome err ids ev slots ha observed machine limits held
      reports sends =>
    cases isFailure : err with
    | none => exact hn
    | some failure =>
      obtain ⟨topic, error⟩ := failure
      intro entry mem error' hm
      obtain ⟨old, hq, hsa, hs, source⟩ := of_mem_markTerminal mem
      rw [hsa, hs]
      rcases source error' hm with earlier | ⟨rfl, rfl, hac⟩
      · exact hn old hq error' earlier
      · exact ⟨e, now, turn, ev, fetch, i.trans ha, pre ▸ observed, reports.query_eq isFailure,
          pre ▸ (reports.failureReported_eq observed machine limits).trans isFailure, hac⟩
  | failed err => exact hn.subset nofun
  | _ => exact hn

theorem noted_run (b : Build) (lim : MetadataLimits) (cs : List MetadataCall)
    (hs : ∀ e ∈ trace (step b) (new lim) cs, e.answer.failure = none) :
    Attends (final (step b) (new lim) cs) ∧
      Noted (trace (step b) (new lim) cs) (final (step b) (new lim) cs).topicViews := by
  refine run_calls (I := fun past o => Attends o ∧ Noted past o.topicViews)
    (G := fun _ e => e.answer.failure = none) ⟨attends_new lim, nofun⟩ ?_ cs
    fun _ e _ split => hs e (by simp [split])
  intro past o c ok ⟨ha, hn⟩
  refine steps_invariant (J := fun t => Attends t.owner ∧
    Noted (past ++ [event (step b) o c]) t.owner.topicViews) ?_ (step_moves ok)
    ⟨ha, fun entry mem error hm =>
      (hn entry mem error hm).mono (subset_append_left _ _)⟩
  intro t t' move ⟨ha, hn⟩
  exact ⟨attended_move move ha, noted_move move (ha .view).scannable
    (mem_append_right _ mem_cons_self) rfl rfl hn⟩

/-! ## What callers are told -/

/-- What a caller that wants a view later than an outcome can be told by a call of `o`, after
the calls of `past`. -/
inductive ToldAfter (past : List CallEvent) (o : MetadataOwner) (topic : TopicName)
    (outcome : OutcomeStamp) : Except TopicViewError TopicView → Prop
  | viewed {s : MetadataSnapshot} {view : TopicView} (current : o.machine.current = some s)
      (backed : BackedAfter s topic outcome view) : ToldAfter past o topic outcome (.ok view)
  | failed {error : TopicViewError} (noted : NotedIn past topic (.afterOutcome outcome) error) :
      ToldAfter past o topic outcome (.error error)
  | unavailable (ended : o.machine.queryPending (.topic topic) = false)
      (older : ∀ s ∈ o.machine.current, ∀ count ∈ s.topicCounts.find topic,
        count.evidence.isAfter outcome = false) :
      ToldAfter past o topic outcome (.error .unavailable)
  | late : ToldAfter past o topic outcome (.error .deadlineExceeded)
  | refused (callLimit byteLimit : ℕ) :
      ToldAfter past o topic outcome (.error (.capacityReached callLimit byteLimit))
  | crowdedOut (limit : ℕ) : ToldAfter past o topic outcome (.error (.queryCapacityReached limit))
  | unprojected : ToldAfter past o topic outcome (.error .projectionAllocationFailed)
  | draining : ToldAfter past o topic outcome (.error .draining)

variable {outcome : OutcomeStamp} {completion : ℕ} {result : Except TopicViewError TopicView}

/-- A view of a coherent snapshot fails only for want of room. -/
theorem projected_error (hc : CoherentNow m)
    (proj : TopicViewWaiters.projected reserve m topic requirement = .error error) :
    error = .projectionAllocationFailed := by
  unfold TopicViewWaiters.projected at proj
  split at proj
  · cases proj
  rename_i s hi
  have hw := (hc s (Option.filter_eq_some_iff.1 hi).1).wellFormed reserve topic
  unfold TopicView.fromSnapshot at proj hw
  split at proj
  · cases proj
  rename_i n hf
  simp only [hf] at hw
  split_ifs at proj hw
  · cases proj
    rfl
  · exact absurd rfl hw

/-- Without a view the snapshot has no count after the outcome. -/
theorem older_of_unprojected
    (proj : TopicViewWaiters.projected reserve m topic (.afterOutcome outcome) = .ok none)
    (s : MetadataSnapshot) (cur : s ∈ m.current) (n : TopicPartitionCount)
    (hf : n ∈ s.topicCounts.find topic) : n.evidence.isAfter outcome = false := by
  by_contra later
  have hs : TopicViewRequirement.satisfiedBy (.afterOutcome outcome) s topic = true := by
    simpa [TopicViewRequirement.satisfiedBy, Option.mem_def.1 hf] using later
  rw [TopicViewWaiters.projected, Option.mem_def.1 cur, Option.filter_some, hs] at proj
  simp only [if_true, TopicView.fromSnapshot, Option.mem_def.1 hf] at proj
  split_ifs at proj
  cases proj

/-- What a waiting view is told when it is examined. -/
theorem told_of_examine {ws : WaitingTopicView} (hc : CoherentNow o.machine)
    (hn : ∀ error ∈ ws.terminal, NotedIn past ws.topic ws.requirement error)
    (hs : examine reserve o.machine ws =
      some (.viewed topic (.afterOutcome outcome) completion result)) :
    ToldAfter past o topic outcome result := by
  obtain ⟨_, _, _, terminal⟩ := ws
  unfold examine at hs
  cases terminal with
  | some error =>
    cases hs
    exact .failed (hn error rfl)
  | none =>
    dsimp only at hs
    split at hs
    · rename_i view proj
      cases hs
      obtain ⟨s, cur, hb⟩ := backed_of_projected hc proj
      exact .viewed cur hb
    · rename_i error proj
      cases hs
      rw [projected_error hc proj]
      exact .unprojected
    · rename_i proj
      split_ifs at hs with p
      cases hs
      exact .unavailable (Bool.eq_false_iff.2 p) (older_of_unprojected proj)

/-- Waiters of a class that are refused, late or crowded out. -/
theorem told_of_refused (c : WaitClass) {maxC maxB : NonZeroUsize} {value : c.Subject}
    (hr : .viewed topic (.afterOutcome outcome) completion result =
      c.policy.refused maxC maxB value) : ToldAfter past o topic outcome result := by
  cases c with
  | partition | controller => cases hr
  | view =>
    injection hr with _ _ _ hi
    rw [hi]
    exact .refused _ _

theorem told_of_expired (c : WaitClass) {value : c.Subject}
    (expired : .viewed topic (.afterOutcome outcome) completion result = c.policy.expired value) :
    ToldAfter past o topic outcome result := by
  cases c with
  | partition | controller => cases expired
  | view =>
    injection expired with _ _ _ hi
    rw [hi]
    exact .late

theorem told_of_crowdedOut (c : WaitClass) {owner : MetadataOwner} {value : c.Subject}
    (ht : .viewed topic (.afterOutcome outcome) completion result = c.crowdedOut owner value) :
    ToldAfter past o topic outcome result := by
  cases c with
  | partition | controller => cases ht
  | view =>
    injection ht with _ _ _ hi
    rw [hi]
    exact .crowdedOut _

theorem told_of_direct
    (hd : Direct o call (.viewed topic (.afterOutcome outcome) completion result)) :
    ToldAfter past o topic outcome result := by
  generalize wanted : TopicViewRequirement.afterOutcome outcome = requirement at hd
  cases hd with
  | late => exact .late
  | @examined _ _ carried =>
    -- such a caller asks for the current view or for one of a newer generation
    cases carried <;> cases wanted

theorem told_of_admitted {c : WaitClass} {w w' : Waiters c.Subject} {v : c.Subject} {bytes : ℕ}
    {due : Moment} {fs : List MetadataFate} {adm : Bool}
    (ans : w.admitEntry c.policy v bytes due = (w', fs, adm))
    (ht : .viewed topic (.afterOutcome outcome) completion result ∈ fs) :
    ToldAfter past o topic outcome result := by
  have hr := w.admitEntry_told c.policy v bytes due
    (.viewed topic (.afterOutcome outcome) completion result)
  rw [ans] at hr
  obtain ⟨v, hi⟩ := hr ht
  exact told_of_refused c hi

theorem told_of_drained (c : WaitClass) {now : Moment} (hc : CoherentNow o.machine)
    (hv : o.topicViews.Scannable) (hn : Noted past o.topicViews)
    (ht : .viewed topic (.afterOutcome outcome) completion result ∈
      (c.scan build reserve now o).2.due ++ (c.scan build reserve now o).2.answered) :
    ToldAfter past o topic outcome result := by
  by_cases other : c ≠ .view
  · obtain ⟨v, he | ⟨_, _, hr⟩ | hs⟩ := scan_told _ _ now build _ _ _ ht
    · exact told_of_expired c he
    · exact told_of_refused c hr
    · cases WaitClass.ofView_examined other hs
  · rw [not_not] at other
    subst other
    obtain ⟨-, due, ha⟩ := hv.scan build policy now
      o.limits.topicViewAdmissionBudget (examine reserve o.machine)
    rcases mem_append.1 ht with he | ht
    · obtain ⟨v, hi⟩ := due _ he
      exact told_of_expired .view hi
    have ht : MetadataFate.viewed topic (.afterOutcome outcome) completion result ∈
        (o.topicViews.scan build policy now o.limits.topicViewAdmissionBudget
          (examine reserve o.machine)).2.answered := ht
    rw [ha] at ht
    obtain ⟨e, front, hs⟩ := mem_filterMap.1 ht
    unfold answer verdict at hs
    split_ifs at hs with hi
    · exact told_of_expired .view (Option.some.inj hs).symm
    · exact told_of_examine hc (hn e (mem_of_mem_take front)) hs

theorem told_move (hm : OwnerMove build o call t t') (hc : CoherentNow o.machine)
    (hv : o.topicViews.Scannable) (hn : Noted past o.topicViews)
    (pre : .viewed topic (.afterOutcome outcome) completion result ∈ t.fates →
      ToldAfter past o topic outcome result)
    (told : .viewed topic (.afterOutcome outcome) completion result ∈ t'.fates) :
    ToldAfter past o topic outcome result := by
  cases hm with
  | answered hd => exact told_of_direct (mem_singleton.1 told ▸ hd)
  | unqueued req err => exact pre (by simpa using told)
  | drained c reserve now ha => exact told_of_drained c hc hv hn told
  | barriersDrained b =>
    rcases mem_append.1 told with old | never
    · exact pre old
    · cases examineLoop_ofView _ _ _ _ never
  | @refused t c v bytes due w fs ans | @queued t c v bytes due w fs op ev slots ha ans met hse =>
    exact (mem_append.1 told).elim pre (told_of_admitted ans)
  | @turnedAway t c v ws bytes due w w' fs op isMeant ans hf ht =>
    rcases mem_append.1 told with old | told
    · exact pre old
    · rcases mem_append.1 told with adm | last
      · exact told_of_admitted ans adm
      · exact told_of_crowdedOut c (mem_singleton.1 last)
  | invalidated ha hse => cases subscribed_ofView _ _ _ _ _ told
  | failed err =>
    simp only [failedTurn, failAll, MetadataInvalidations.failAll, mem_append,
      mem_map, mem_flatMap] at told
    rcases told with ((⟨_, -, never⟩ | ⟨_, -, never⟩) | ⟨_, -, his⟩) | ⟨_, -, _, -, never⟩
    · cases never
    · cases never
    · injection his with _ _ _ hi
      rw [← hi]
      exact .draining
    · cases never
  | _ => exact pre told

/-- Every snapshot of a run is coherent, so no view of it is malformed. A caller that wants a
view later than an outcome gets one whose count and leaders are of later evidence, or the
failure of a fetch of the topic that is of later evidence, or an answer that no fetch gave. -/
theorem topic_views_after_outcome (build : Build) (limits : MetadataLimits)
    (calls : List MetadataCall)
    (succeeded : ∀ e ∈ trace (step build) (new limits) calls, e.answer.failure = none) :
    (∀ s ∈ (final (step build) (new limits) calls).machine.current, s.Coherent ∧
      ∀ reserve topic, TopicView.fromSnapshot reserve s topic ≠ .error .malformedMetadata) ∧
    ∀ past e rest, trace (step build) (new limits) calls = past ++ e :: rest →
      ∀ topic outcome completion result,
        .viewed topic (.afterOutcome outcome) completion result ∈ e.answer.fates →
          ToldAfter past e.before topic outcome result := by
  refine ⟨fun s cur => ?_, ?_⟩
  · have hc := coherent_run build limits calls succeeded s cur
    exact ⟨hc, hc.wellFormed⟩
  · intro past e rest split topic outcome completion result ht
    have hsu : e.answer.failure = none := succeeded e (by simp [split])
    have hs : ∀ e ∈ past, e.answer.failure = none :=
      fun e mem => succeeded e (by simp [split, mem])
    obtain ⟨old, call, rfl, rfl⟩ := of_trace_eq_append_cons (step build) split
    have hc := coherent_run build limits old hs
    obtain ⟨ha, hn⟩ := noted_run build limits old hs
    exact steps_invariant
      (J := fun t : OwnerTurn => .viewed topic (.afterOutcome outcome) completion result ∈ t.fates →
        ToldAfter _ _ topic outcome result)
      (fun _ _ hm pre => told_move hm hc (ha .view).scannable hn pre)
      (step_moves hsu) nofun ht

/-- A caller saw a failure after the topic was fetched, and the fetch made for it fails. -/
def topicFailed : List MetadataCall :=
  topicFetched ++
    [.processTopicViewAfterFailure soleTopic ⟨5⟩ ⟨9⟩ 1 1 openRpc ⟨1⟩ ⟨6⟩,
      .drive (openTurn (.responded (soleResponse [⟨3, some "t", 7, []⟩]))) ⟨7⟩]

theorem topic_views_after_outcome_topicFailed :
    NotedIn (trace (step .debug) (new smallLimits) topicFailed) soleTopic (.afterOutcome ⟨5⟩)
      (.broker 3) := by
  have ht := (topic_views_after_outcome .debug smallLimits
    (topicFailed ++ [.drainTopicViewWaiters (fun _ => true) ⟨2⟩]) (by decide +kernel)).2 _ _ []
    (trace_concat _ _ _ _) soleTopic ⟨5⟩ 1 (.error (.broker 3)) (by decide +kernel)
  cases ht with
  | failed hf => exact hf

end MetadataOwner

end KafkaDriver
