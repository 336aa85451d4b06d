import KafkaDriver.MetadataResponse

/-!
# What a metadata response replaces

`snapshotFromResponse` chains the facts carried over from the current snapshot with those of
the response through three bounded indexes and a final check. `snapshot_replaces` says what
comes out : a refresh of a topic replaces its count and leaders by what the response reports
(`reportedLeaders`, `ReportsCount`) and leaves every other topic alone, but for leaders whose
broker is gone; a refresh of the cluster keeps every count and no leader.

Each function of the chain gets a lemma that says when it succeeds, as an equivalence. So the
order in which a response lists its brokers or the partitions of a topic does not matter
(`snapshotFromResponse_permuted`).
-/

namespace KafkaDriver

open Fallible List Option Canonical PartitionLeaderSet TopicPartitionCountSet

/-! ## Directories -/

namespace BrokerDirectory

variable {generation : MetadataGeneration} {evidence : EvidenceStamp}
  {entries : List BrokerDirectoryEntry} {maxBrokers : NonZeroUsize} {d : BrokerDirectory}

theorem tryFromIterWithEvidence_eq_ok :
    tryFromIterWithEvidence generation evidence entries maxBrokers = .ok d ↔
      entries.length ≤ maxBrokers.get ∧ d.generation = generation ∧ d.evidence = evidence ∧
      d.entries = Canonical.sorted BrokerDirectoryEntry.brokerId entries := by
  unfold tryFromIterWithEvidence
  split
  · rename_i hm
    exact ⟨nofun, fun ok => absurd ok.1 hm.not_ge⟩
  rename_i hm
  split
  · rename_i bid duplicate
    refine ⟨nofun, ?_⟩
    rintro ⟨-, -, -, own⟩
    have asc : Canonical.Ascending BrokerDirectoryEntry.brokerId d.entries := d.ascending
    rw [own] at asc
    have hu := asc.firstDuplicate_eq_none
    rw [firstDuplicate_eq, canonical, ← Canonical.sorted, hu] at duplicate
    cases duplicate
  · constructor
    · rintro ⟨⟩
      exact ⟨Nat.le_of_not_lt hm, rfl, rfl, rfl⟩
    · rintro ⟨-, rfl, rfl, own⟩
      obtain ⟨_, _, _, _⟩ := d
      obtain rfl : _ = _ := own
      rfl

theorem tryFromIterWithEvidence_perm {entries' : List BrokerDirectoryEntry}
    (perm : entries.Perm entries')
    (hb : tryFromIterWithEvidence generation evidence entries maxBrokers = .ok d) :
    tryFromIterWithEvidence generation evidence entries' maxBrokers = .ok d := by
  obtain ⟨hw, rfl, rfl, own⟩ := tryFromIterWithEvidence_eq_ok.1 hb
  have asc : Canonical.Ascending BrokerDirectoryEntry.brokerId d.entries := d.ascending
  have hs : d.entries.Perm entries' := own ▸ (sorted_perm entries).trans perm
  exact tryFromIterWithEvidence_eq_ok.2 ⟨perm.length_eq ▸ hw, rfl, rfl, (asc.sorted_eq hs).symm⟩

/-- A broker is routed if it is a member. -/
theorem routeTo_isSome {bid : BrokerId} :
    (d.routeTo bid).isSome ↔ ∃ e ∈ d.entries, e.brokerId = bid := by
  rw [routeTo, isSome_map, isSome_iff_exists]
  simp only [find_eq_some]

end BrokerDirectory

/-! ## The topics of a set of leaders -/

namespace PartitionLeaderSet

/-- The topics of a list of leaders. -/
def topics (entries : List PartitionLeader) : Finset TopicName :=
  (entries.map PartitionLeader.topic).toFinset

theorem topics_cons (ld : PartitionLeader) (es : List PartitionLeader) :
    topics (ld :: es) = insert ld.topic (topics es) := by
  simp [topics]

/-- Counting goes on from the last topic seen. -/
theorem topicCount_from {es : List PartitionLeader} {seen : TopicName} {n : ℕ}
    (ord : es.Pairwise fun a b => a.topic ≤ b.topic)
    (hl : ∀ leader ∈ es, seen ≤ leader.topic) :
    (es.foldl
      (fun (seen : Option TopicName × ℕ) leader =>
        (some leader.topic, if seen.1 = some leader.topic then seen.2 else seen.2 + 1))
      (some seen, n)).2 = n + ((topics es).erase seen).card := by
  induction es generalizing seen n with
  | nil => simp [topics]
  | cons leader rest ih =>
    obtain ⟨hle, ord⟩ := pairwise_cons.1 ord
    rw [foldl_cons, ih ord hle, topics_cons]
    by_cases same : seen = leader.topic
    · subst same
      rw [if_pos rfl, Finset.erase_insert_eq_erase]
    -- the topics that follow are all after the one seen
    have hab : seen < leader.topic := lt_of_le_of_ne (hl leader mem_cons_self) same
    have ha : seen ∉ insert leader.topic (topics rest) := by
      intro mem
      rcases Finset.mem_insert.1 mem with eq | mem
      · exact same eq
      · obtain ⟨ne, hi, eq⟩ : ∃ ne ∈ rest, ne.topic = seen := by
          simpa [topics] using mem
        exact absurd (hle ne hi) (eq ▸ hab).not_ge
    have more := Finset.card_erase_add_one (Finset.mem_insert_self leader.topic (topics rest))
    rw [Finset.erase_insert_eq_erase] at more
    rw [if_neg (by simpa using same), Finset.erase_eq_of_notMem ha]
    omega

/-- A set of leaders counts each of its topics once. -/
theorem topicCount_eq (s : PartitionLeaderSet) :
    topicCount s.entries = (topics s.entries).card := by
  have ord : s.entries.Pairwise fun a b => a.topic ≤ b.topic := by
    refine s.ascending.imp fun {a b} hb => ?_
    rcases Prod.Lex.lt_iff.1 hb with first | second
    · exact first.le
    · exact second.1.le
  unfold topicCount
  cases entries : s.entries with
  | nil => rfl
  | cons ld rest =>
    rw [entries] at ord
    obtain ⟨hl, ord⟩ := pairwise_cons.1 ord
    have more := Finset.card_erase_add_one (Finset.mem_insert_self ld.topic (topics rest))
    rw [Finset.erase_insert_eq_erase] at more
    rw [foldl_cons, topicCount_from ord hl, topics_cons, ← more]
    simp [Nat.add_comm]

end PartitionLeaderSet

/-! ## What a response reports -/

namespace MetadataResponse

/-- The leader a partition reports. -/
def reportedLeader (topic : TopicName) (revision : MetadataRevision) (evidence : EvidenceStamp)
    (partition : MetadataResponsePartition) : PartitionLeader :=
  ⟨topic, ⟨partition.partitionIndex.toNat⟩, ⟨partition.leaderId.toNat⟩,
    if partition.leaderEpoch = -1 then none else some ⟨partition.leaderEpoch.toNat⟩, revision,
    evidence⟩

/-- The leaders of a topic that is reported without an error : those of its partitions that
have one and are reported without an error themselves. -/
def topicReport (topic : MetadataResponseTopic) (name : TopicName) (revision : MetadataRevision)
    (evidence : EvidenceStamp) : List PartitionLeader :=
  (topic.partitions.filter fun partition =>
    partition.errorCode = 0 ∧ partition.leaderId ≠ -1).map (reportedLeader name revision evidence)

/-- The leaders a response reports. -/
def reportedLeaders (response : MetadataResponse) (name : TopicName) (revision : MetadataRevision)
    (evidence : EvidenceStamp) : List PartitionLeader :=
  response.topics.flatMap fun topic =>
    if topic.errorCode = 0 then topicReport topic name revision evidence else []

/-- The count a response reports, of a topic without an error. -/
def ReportsCount (response : MetadataResponse) (name : TopicName) (evidence : EvidenceStamp)
    (count : TopicPartitionCount) : Prop :=
  ∃ topic ∈ response.topics, topic.errorCode = 0 ∧ count.topic = name ∧
    count.topicId = KafkaTopicId.fromBytes topic.topicId ∧
    count.count.get = topic.partitions.length ∧ count.evidence = evidence

section Values

/-- An identity is accepted if its value is not negative. -/
theorem new_eq_ok {α : Type} {mk : ℕ → α} {v : ℤ} {a : α} :
    mk <$> nonnegative v = .ok a ↔ 0 ≤ v ∧ a = mk v.toNat := by
  rw [map_eq_ok]
  unfold nonnegative
  split_ifs with negative
  · exact ⟨(fun ⟨_, hr, _⟩ => nomatch hr), fun ok => by omega⟩
  constructor
  · rintro ⟨_, ⟨⟩, rfl⟩
    exact ⟨by omega, rfl⟩
  · rintro ⟨-, rfl⟩
    exact ⟨_, rfl, rfl⟩

variable {revision : MetadataRevision} {evidence : EvidenceStamp}

/-- A partition that is accepted reports its leader, or none. -/
theorem partitionLeader_eq {topic : TopicName} {part : MetadataResponsePartition}
    {ans : Option PartitionLeader}
    (h : partitionLeader topic revision evidence part = .ok ans) :
    ans =
      if part.leaderId = -1 then none
      else some (reportedLeader topic revision evidence part) := by
  unfold partitionLeader at h
  obtain ⟨partitionId, k, h⟩ := bind_eq_ok.1 h
  obtain ⟨leaderEpoch, e, h⟩ := bind_eq_ok.1 h
  split_ifs at h ⊢ with ha
  · cases h
    rfl
  obtain ⟨bid, b, h⟩ := bind_eq_ok.1 h
  cases h
  obtain ⟨-, rfl⟩ := new_eq_ok.1 (mapError_eq_ok.1 k)
  obtain ⟨-, rfl⟩ := new_eq_ok.1 (mapError_eq_ok.1 b)
  have hs : leaderEpoch =
      if part.leaderEpoch = -1 then none else some ⟨part.leaderEpoch.toNat⟩ := by
    unfold leaderEpochOf at e
    split_ifs at e ⊢
    · cases e
      rfl
    · obtain ⟨epoch, ok, rfl⟩ := map_eq_ok.1 (mapError_eq_ok.1 e)
      obtain ⟨-, rfl⟩ := new_eq_ok.1 ok
      rfl
  rw [hs]
  rfl

theorem topicLeaders_eq {topic : MetadataResponseTopic} {name : TopicName}
    {leaders : List PartitionLeader} (h : topicLeaders topic name revision evidence = .ok leaders) :
    leaders = topicReport topic name revision evidence := by
  obtain ⟨ans, ha, h⟩ := bind_eq_ok.1 h
  cases h
  rw [eq_map_of_mapM ha fun _ _ => partitionLeader_eq, topicReport]
  generalize topic.partitions = partitions
  induction partitions with
  | nil => rfl
  | cons part partitions ih =>
    by_cases clean : part.errorCode = 0 <;> by_cases absent : part.leaderId = -1 <;>
      simpa [clean, absent, reduceOption] using ih

end Values

/-! ## The partitions of one topic -/

/-- The partition indexes of a topic. -/
def partitionIds (topic : MetadataResponseTopic) : Except MetadataBuildError (List PartitionId) :=
  topic.partitions.mapM fun partition =>
    (PartitionId.new partition.partitionIndex).mapError .partitionId

theorem firstMissing_eq_none {want : ℕ} {l : List PartitionId} :
    firstMissing want l = none ↔ l.map PartitionId.raw = range' want l.length := by
  induction l generalizing want with
  | nil => simp [firstMissing]
  | cons actual rest ih =>
    rw [firstMissing, map_cons, length_cons, range'_succ, cons.injEq]
    split_ifs with hs
    · rw [ih]
      simp [hs]
    · simp [hs]

/-- A topic is accepted if its partitions are numbered from zero, each once. -/
theorem validateLogicalRange_eq_ok {topic : MetadataResponseTopic} :
    validateLogicalRange topic = .ok () ↔
      topic.partitions ≠ [] ∧ ∃ ids, partitionIds topic = .ok ids ∧
        Canonical.Ascending id (sorted id ids) ∧
        (sorted id ids).map PartitionId.raw = range' 0 ids.length := by
  unfold validateLogicalRange
  split_ifs with empty
  · exact ⟨nofun, fun ok => absurd empty ok.1⟩
  rw [bind_eq_ok, ← partitionIds]
  simp only [ne_eq, empty, not_false_eq_true, true_and]
  refine exists_congr fun ids => and_congr_right fun _ => ?_
  have length : (sorted id ids).length = ids.length :=
    (sorted_perm ids).length_eq
  rw [← length, ← firstMissing_eq_none]
  split
  · rename_i duplicate hf
    refine ⟨nofun, fun ok => ?_⟩
    rw [ok.1.firstDuplicate_eq_none] at hf
    cases hf
  · rename_i hu
    have asc := ascending_of_firstDuplicate (sorted_ordered ids) hu
    split
    · rename_i hm
      exact ⟨nofun, fun ok => nomatch hm.symm.trans ok.2⟩
    · rename_i complete
      exact ⟨fun _ => ⟨asc, complete⟩, fun _ => rfl⟩

/-- What a response for one topic brings. -/
inductive RefreshesTopic (response : MetadataResponse) (name : TopicName)
    (revision : MetadataRevision) (evidence : EvidenceStamp) (limits : PartitionLeaderLimits) :
    TopicPartitionSnapshot → Prop
  | reported {topic : MetadataResponseTopic} {raw : String} {count : NonZeroU32}
      {leaders : List PartitionLeader} {set : PartitionLeaderSet}
      (topics : response.topics = [topic]) (named : topic.name = some raw)
      (asked : TopicName.new raw = .ok name) (clean : topic.errorCode = 0)
      (range : validateLogicalRange topic = .ok ())
      (counted : partitionCount topic.partitions.length = .ok count)
      (led : topicLeaders topic name revision evidence = .ok leaders)
      (built : tryFromIter leaders limits = .ok set) :
      RefreshesTopic response name revision evidence limits
        ⟨set, some ⟨name, KafkaTopicId.fromBytes topic.topicId, count, evidence⟩⟩
  | unavailable {topic : MetadataResponseTopic} {raw : String} {set : PartitionLeaderSet}
      (topics : response.topics = [topic]) (named : topic.name = some raw)
      (asked : TopicName.new raw = .ok name) (failed : topic.errorCode ≠ 0)
      (built : tryFromIter [] limits = .ok set) :
      RefreshesTopic response name revision evidence limits ⟨set, none⟩

theorem partitionFactsForTopic_eq_ok {resp : MetadataResponse} {name : TopicName}
    {revision : MetadataRevision} {ev : EvidenceStamp} {lim : PartitionLeaderLimits}
    {facts : TopicPartitionSnapshot} :
    partitionFactsForTopic resp name revision ev lim = .ok facts ↔
      enforceInputBounds resp lim = .ok () ∧
      RefreshesTopic resp name revision ev lim facts := by
  unfold partitionFactsForTopic
  rw [bind_eq_ok]
  constructor
  · rintro ⟨_, hbo, h⟩
    refine ⟨hbo, ?_⟩
    split at h
    · rename_i topic topics
      split at h
      · cases h
      rename_i raw hn
      obtain ⟨own, ha, h⟩ := bind_eq_ok.1 h
      split_ifs at h with hs clean
      · rw [hs] at h ha
        obtain ⟨_, range, h⟩ := bind_eq_ok.1 h
        obtain ⟨n, cnt, h⟩ := bind_eq_ok.1 h
        obtain ⟨leaders, led, h⟩ := bind_eq_ok.1 h
        obtain ⟨set, hb, h⟩ := bind_eq_ok.1 h
        cases h
        exact .reported topics hn (mapError_eq_ok.1 ha) clean range cnt led (mapError_eq_ok.1 hb)
      · rw [hs] at ha
        obtain ⟨set, hb, h⟩ := bind_eq_ok.1 h
        cases h
        exact .unavailable topics hn (mapError_eq_ok.1 ha) clean (mapError_eq_ok.1 hb)
    · cases h
  · rintro ⟨hbo, hr⟩
    refine ⟨(), hbo, ?_⟩
    cases hr with
    | reported topics hn ha clean range cnt led hb =>
      simp only [topics, hn]
      refine bind_eq_ok.2 ⟨name, mapError_eq_ok.2 ha, ?_⟩
      rw [if_pos rfl, if_pos clean]
      refine bind_eq_ok.2 ⟨(), range, bind_eq_ok.2 ⟨_, cnt, bind_eq_ok.2 ⟨_, led, ?_⟩⟩⟩
      exact bind_eq_ok.2 ⟨_, mapError_eq_ok.2 hb, rfl⟩
    | unavailable topics hn ha hf hb =>
      simp only [topics, hn]
      refine bind_eq_ok.2 ⟨name, mapError_eq_ok.2 ha, ?_⟩
      rw [if_pos rfl, if_neg hf]
      exact bind_eq_ok.2 ⟨_, mapError_eq_ok.2 hb, rfl⟩

section Refreshed

variable {response : MetadataResponse} {name : TopicName} {revision : MetadataRevision}
  {evidence : EvidenceStamp} {limits : PartitionLeaderLimits} {facts : TopicPartitionSnapshot}

variable {leader : PartitionLeader}

/-- A refreshed topic has the leaders the response reports. -/
theorem RefreshesTopic.mem_leaders
    (hr : RefreshesTopic response name revision evidence limits facts) :
    leader ∈ facts.leaders.entries ↔ leader ∈ reportedLeaders response name revision evidence := by
  cases hr with
  | reported topics hn ha clean range cnt led hb =>
    rw [mem_of_tryFromIter hb, topicLeaders_eq led]
    simp [reportedLeaders, topics, clean]
  | unavailable topics hn ha hf hb =>
    rw [mem_of_tryFromIter hb]
    simp [reportedLeaders, topics, hf]

theorem partitionCount_eq_ok {n : ℕ} {count : NonZeroU32} (h : partitionCount n = .ok count) :
    count.get = n := by
  unfold partitionCount at h
  split_ifs at h
  cases h
  rfl

/-- A refreshed topic has the count the response reports. -/
theorem RefreshesTopic.count_eq_some
    (hr : RefreshesTopic response name revision evidence limits facts)
    {n : TopicPartitionCount} :
    facts.count = some n ↔ ReportsCount response name evidence n := by
  cases hr with
  | @reported topic raw number leaders set topics hn ha clean range cnt led hb =>
    have number_eq := partitionCount_eq_ok cnt
    simp only [ReportsCount, topics, mem_singleton, exists_eq_left, clean, true_and, some.injEq]
    constructor
    · rintro rfl
      exact ⟨rfl, rfl, number_eq, rfl⟩
    · rintro ⟨topic_eq, id_eq, count_eq, evidence_eq⟩
      obtain ⟨_, _, ⟨_, _, _⟩, _⟩ := n
      obtain ⟨_, _, _⟩ := number
      simp_all
  | unavailable topics hn ha hf hb => simp [ReportsCount, topics, hf]

/-- The leaders of a topic are of partitions below its count. -/
theorem RefreshesTopic.partition_lt
    (hr : RefreshesTopic response name revision evidence limits facts)
    (mem : leader ∈ facts.leaders.entries) :
    ∃ n, facts.count = some n ∧ leader.partition.raw < n.count.get := by
  cases hr with
  | @reported topic raw number leaders set topics hna ha clean range cnt led hb =>
    refine ⟨_, rfl, ?_⟩
    rw [mem_of_tryFromIter hb, topicLeaders_eq led] at mem
    obtain ⟨part, hi, rfl⟩ := mem_map.1 mem
    obtain ⟨-, ids, hn, -, complete⟩ := validateLogicalRange_eq_ok.1 range
    obtain ⟨id, hl, own⟩ := mem_mapM_of_mem hn (mem_of_mem_filter hi)
    obtain ⟨-, rfl⟩ := new_eq_ok.1 (mapError_eq_ok.1 own)
    have hin : part.partitionIndex.toNat ∈ range' 0 ids.length := by
      rw [← complete]
      exact mem_map.2 ⟨_, mem_sorted.2 hl, rfl⟩
    have length : ids.length = topic.partitions.length :=
      (mapM_eq_ok.1 hn).length_eq.symm
    rw [partitionCount_eq_ok cnt, ← length]
    simpa [reportedLeader] using hin
  | unavailable topics hna ha hf hb =>
    rw [mem_of_tryFromIter hb] at mem
    cases mem

end Refreshed

/-! ## The facts of a snapshot -/

section Facts

variable {response : MetadataResponse} {provenance : MetadataResponseProvenance}
  {brokers : BrokerDirectory} {current : Option MetadataSnapshot} {limits : PartitionLeaderLimits}
  {facts : PartitionLeaderSet × TopicPartitionCountSet} {topic : TopicName}

/-- The facts of the topic a refresh asked for are those of the response, and the others are
kept, leaders only while their broker is a member. -/
theorem topicFacts_topic (q : provenance.query = .topic topic)
    (h : topicFacts response provenance brokers current limits = .ok facts) :
    (∀ leader, leader ∈ facts.1.entries ↔
      (leader ∈ retainedLeaders current ∧ leader.topic ≠ topic ∧
        (brokers.routeTo leader.brokerId).isSome) ∨
      leader ∈ reportedLeaders response topic ⟨provenance.operationId.raw⟩ provenance.evidence) ∧
    ∀ n, n ∈ facts.2.entries ↔ (n ∈ retainedCounts current ∧ n.topic ≠ topic) ∨
      ReportsCount response topic provenance.evidence n := by
  simp only [topicFacts, q] at h
  obtain ⟨snap, own, h⟩ := bind_eq_ok.1 h
  obtain ⟨leaders, builtLeaders, h⟩ := bind_eq_ok.1 h
  obtain ⟨topicCounts, builtCounts, h⟩ := bind_eq_ok.1 h
  cases h
  have hr := (partitionFactsForTopic_eq_ok.1 own).2
  constructor
  · intro leader
    rw [mem_of_tryFromIter (mapError_eq_ok.1 builtLeaders), mem_append,
      hr.mem_leaders, mem_filter, decide_eq_true_eq]
  · intro n
    rw [mem_of_tryFromIter (mapError_eq_ok.1 builtCounts), mem_append,
      ← hr.count_eq_some, mem_filter, decide_eq_true_eq, mem_toList]

/-- The leaders a refresh brought are of partitions below the count it brought. -/
theorem topicFacts_reported_lt (q : provenance.query = .topic topic)
    (h : topicFacts response provenance brokers current limits = .ok facts)
    {ld : PartitionLeader}
    (mem : ld ∈ reportedLeaders response topic ⟨provenance.operationId.raw⟩ provenance.evidence) :
    ∃ n, ReportsCount response topic provenance.evidence n ∧ ld.partition.raw < n.count.get := by
  simp only [topicFacts, q] at h
  obtain ⟨snap, own, h⟩ := bind_eq_ok.1 h
  have hr := (partitionFactsForTopic_eq_ok.1 own).2
  obtain ⟨n, hb, hbe⟩ := hr.partition_lt (hr.mem_leaders.2 mem)
  exact ⟨n, hr.count_eq_some.1 hb, hbe⟩

/-- A cluster refresh keeps the counts and no leader. -/
theorem topicFacts_cluster (q : provenance.query = .cluster)
    (h : topicFacts response provenance brokers current limits = .ok facts) :
    facts.1.entries = [] ∧ facts.2.entries = retainedCounts current := by
  simp only [topicFacts, q] at h
  obtain ⟨topicCounts, hb, h⟩ := bind_eq_ok.1 h
  cases h
  refine ⟨rfl, ?_⟩
  have asc : Canonical.Ascending TopicPartitionCount.topic (retainedCounts current) := by
    cases current with
    | none => exact .nil
    | some snap => exact snap.topicCounts.ascending
  rw [(tryFromIter_eq_ok.1 (mapError_eq_ok.1 hb)).2]
  exact asc.sorted_eq (List.Perm.refl _)

/-- The facts are within the limits. -/
theorem topicFacts_within (h : topicFacts response provenance brokers current limits = .ok facts) :
    facts.1.entries.length ≤ limits.maxPartitions.get ∧
      (PartitionLeaderSet.topics facts.1.entries).card ≤ limits.maxTopics.get ∧
      facts.2.entries.length ≤ limits.maxTopics.get := by
  have hc : ∀ {source : List TopicPartitionCount} {set : TopicPartitionCountSet},
      tryFromIter source limits.maxTopics = .ok set →
      set.entries.length ≤ limits.maxTopics.get := by
    intro source set hb
    obtain ⟨hw, es⟩ := tryFromIter_eq_ok.1 hb
    rw [es, (sorted_perm source).length_eq]
    exact hw
  unfold topicFacts at h
  split at h
  · obtain ⟨topicCounts, hb, h⟩ := bind_eq_ok.1 h
    cases h
    exact ⟨Nat.zero_le _, Nat.zero_le _, hc (mapError_eq_ok.1 hb)⟩
  · obtain ⟨snap, -, h⟩ := bind_eq_ok.1 h
    obtain ⟨leaders, builtLeaders, h⟩ := bind_eq_ok.1 h
    obtain ⟨topicCounts, builtCounts, h⟩ := bind_eq_ok.1 h
    cases h
    obtain ⟨hw, es, topics⟩ :=
      PartitionLeaderSet.tryFromIter_eq_ok.1 (mapError_eq_ok.1 builtLeaders)
    rw [PartitionLeaderSet.topicCount_eq] at topics
    refine ⟨?_, topics, hc (mapError_eq_ok.1 builtCounts)⟩
    rw [es, (sorted_perm _).length_eq]
    exact hw

end Facts

/-! ## The order of a response -/

/-- The same topic with its partitions listed in some order. -/
structure SameTopic (topic topic' : MetadataResponseTopic) : Prop where
  errorCode : topic'.errorCode = topic.errorCode
  name : topic'.name = topic.name
  topicId : topic'.topicId = topic.topicId
  partitions : topic.partitions.Perm topic'.partitions

/-- The same response with its brokers and the partitions of its topics listed in some order. -/
structure Permuted (response response' : MetadataResponse) : Prop where
  errorCode : response'.errorCode = response.errorCode
  controllerId : response'.controllerId = response.controllerId
  brokers : response.brokers.Perm response'.brokers
  topics : List.Forall₂ SameTopic response.topics response'.topics

section Order

variable {response response' : MetadataResponse} {topic topic' : MetadataResponseTopic}
  {name : TopicName} {revision : MetadataRevision} {evidence : EvidenceStamp}
  {limits : PartitionLeaderLimits} {facts : TopicPartitionSnapshot}

theorem brokerDirectoryFromResponse_permuted {gen : MetadataGeneration}
    {cap : NonZeroUsize} {d : BrokerDirectory} (hp : Permuted response response')
    (h : brokerDirectoryFromResponse response gen evidence cap = .ok d) :
    brokerDirectoryFromResponse response' gen evidence cap = .ok d := by
  unfold brokerDirectoryFromResponse at h ⊢
  split_ifs at h with hm
  rw [if_neg (hp.brokers.length_eq ▸ hm)]
  obtain ⟨es, ha, hb⟩ := bind_eq_ok.1 h
  obtain ⟨entries', ha', hs⟩ := mapM_perm hp.brokers ha
  refine bind_eq_ok.2 ⟨entries', ha', mapError_eq_ok.2 ?_⟩
  exact BrokerDirectory.tryFromIterWithEvidence_perm hs (mapError_eq_ok.1 hb)

theorem validateLogicalRange_permuted (hs : SameTopic topic topic')
    (h : validateLogicalRange topic = .ok ()) : validateLogicalRange topic' = .ok () := by
  obtain ⟨hno, ids, hn, asc, complete⟩ := validateLogicalRange_eq_ok.1 h
  obtain ⟨ids', hn', perm⟩ := mapM_perm hs.partitions hn
  have order : sorted id ids' = sorted id ids :=
    asc.sorted_eq ((sorted_perm ids).trans perm)
  refine validateLogicalRange_eq_ok.2 ⟨?_, ids', hn', ?_, ?_⟩
  · exact fun empty => hno (empty ▸ hs.partitions).eq_nil
  · rw [order]
    exact asc
  · rw [order, ← perm.length_eq]
    exact complete

theorem topicLeaders_permuted (hs : SameTopic topic topic') {leaders : List PartitionLeader}
    (h : topicLeaders topic name revision evidence = .ok leaders) :
    ∃ leaders', topicLeaders topic' name revision evidence = .ok leaders' ∧
      leaders.Perm leaders' := by
  obtain ⟨ans, ha, h⟩ := bind_eq_ok.1 h
  cases h
  obtain ⟨answers', ha', perm⟩ := mapM_perm (hs.partitions.filter _) ha
  exact ⟨_, bind_eq_ok.2 ⟨answers', ha', rfl⟩, perm.filterMap id⟩

theorem RefreshesTopic.permuted (topics : List.Forall₂ SameTopic response.topics response'.topics)
    (hr : RefreshesTopic response name revision evidence limits facts) :
    RefreshesTopic response' name revision evidence limits facts := by
  cases hr with
  | reported only hn ha clean range cnt led hb =>
    rw [only] at topics
    obtain ⟨topic', rest, hs, last, eq⟩ := forall₂_cons_left_iff.1 topics
    obtain rfl := forall₂_nil_left_iff.1 last
    obtain ⟨leaders', led', perm⟩ := topicLeaders_permuted hs led
    rw [← hs.topicId]
    exact .reported eq (hs.name.trans hn) ha (hs.errorCode.trans clean)
      (validateLogicalRange_permuted hs range) (hs.partitions.length_eq ▸ cnt) led'
      (tryFromIter_perm perm hb)
  | unavailable only hn ha hf hb =>
    rw [only] at topics
    obtain ⟨topic', rest, hs, last, eq⟩ := forall₂_cons_left_iff.1 topics
    obtain rfl := forall₂_nil_left_iff.1 last
    exact .unavailable eq (hs.name.trans hn) ha (fun clean => hf (hs.errorCode.symm.trans clean)) hb

theorem observedPartitions_permuted
    (topics : List.Forall₂ SameTopic response.topics response'.topics) :
    response'.observedPartitions = response.observedPartitions := by
  unfold observedPartitions
  generalize response.topics = l at topics ⊢
  generalize response'.topics = l' at topics ⊢
  congr 2
  induction topics with
  | nil => rfl
  | cons hs _ ih => rw [map_cons, map_cons, hs.partitions.length_eq, ih]

theorem enforceInputBounds_permuted
    (topics : List.Forall₂ SameTopic response.topics response'.topics)
    (h : enforceInputBounds response limits = .ok ()) :
    enforceInputBounds response' limits = .ok () := by
  unfold enforceInputBounds at h ⊢
  rw [← topics.length_eq, observedPartitions_permuted topics]
  exact h

theorem partitionFactsForTopic_permuted (hp : Permuted response response')
    (h : partitionFactsForTopic response name revision evidence limits = .ok facts) :
    partitionFactsForTopic response' name revision evidence limits = .ok facts := by
  obtain ⟨hb, hr⟩ := partitionFactsForTopic_eq_ok.1 h
  exact partitionFactsForTopic_eq_ok.2
    ⟨enforceInputBounds_permuted hp.topics hb, hr.permuted hp.topics⟩

theorem topicFacts_permuted {prov : MetadataResponseProvenance} {brokers : BrokerDirectory}
    {cur : Option MetadataSnapshot} {facts : PartitionLeaderSet × TopicPartitionCountSet}
    (hp : Permuted response response')
    (h : topicFacts response prov brokers cur limits = .ok facts) :
    topicFacts response' prov brokers cur limits = .ok facts := by
  unfold topicFacts at h ⊢
  split at h
  · exact h
  · obtain ⟨snap, own, h⟩ := bind_eq_ok.1 h
    exact bind_eq_ok.2 ⟨snap, partitionFactsForTopic_permuted hp own, h⟩

end Order

/-! ## The snapshot -/

section Snapshot

variable {response response' : MetadataResponse} {provenance : MetadataResponseProvenance}
  {current : Option MetadataSnapshot} {maxBrokers : NonZeroUsize} {limits : PartitionLeaderLimits}
  {s : MetadataSnapshot}

theorem snapshotFromResponse_permuted (hp : Permuted response response')
    (h : snapshotFromResponse response provenance current maxBrokers limits = .ok s) :
    snapshotFromResponse response' provenance current maxBrokers limits = .ok s := by
  unfold snapshotFromResponse at h ⊢
  split_ifs at h with clean
  rw [if_pos (hp.errorCode.trans clean), hp.controllerId]
  obtain ⟨brokers, dir, h⟩ := bind_eq_ok.1 h
  obtain ⟨ctrl, hi, h⟩ := bind_eq_ok.1 h
  obtain ⟨facts, hg, h⟩ := bind_eq_ok.1 h
  exact bind_eq_ok.2 ⟨brokers, brokerDirectoryFromResponse_permuted hp dir,
    bind_eq_ok.2 ⟨ctrl, hi, bind_eq_ok.2 ⟨facts, topicFacts_permuted hp hg, h⟩⟩⟩

/-- How the snapshot `s` follows from the current one and a response. -/
structure Replaces (response : MetadataResponse) (provenance : MetadataResponseProvenance)
    (current : Option MetadataSnapshot) (maxBrokers : NonZeroUsize)
    (limits : PartitionLeaderLimits) (s : MetadataSnapshot) : Prop where
  ownLeaders : ∀ topic, provenance.query = .topic topic → ∀ leader,
    leader ∈ s.leaders.entries ∧ leader.topic = topic ↔
      leader ∈ reportedLeaders response topic ⟨provenance.operationId.raw⟩ provenance.evidence
  ownCount : ∀ topic, provenance.query = .topic topic → ∀ count,
    s.topicCounts.find topic = some count ↔ ReportsCount response topic provenance.evidence count
  otherCounts : ∀ topic, provenance.query = .topic topic → ∀ other, other ≠ topic →
    s.topicCounts.find other = current.bind fun snapshot => snapshot.topicCounts.find other
  otherLeaders : ∀ topic, provenance.query = .topic topic → ∀ leader, leader.topic ≠ topic →
    (leader ∈ s.leaders.entries ↔
      (∃ snapshot, current = some snapshot ∧ leader ∈ snapshot.leaders.entries) ∧
      ∃ entry ∈ s.brokers.entries, entry.brokerId = leader.brokerId)
  cluster : provenance.query = .cluster →
    s.leaders.entries = [] ∧
      s.topicCounts.entries = current.elim [] fun snapshot => snapshot.topicCounts.entries
  generation : s.generation = provenance.generation
  evidence : s.brokers.evidence = provenance.evidence
  controller : controllerIdOf response.controllerId = .ok (s.controllerRoute.map (·.brokerId)) ∧
    ∀ route ∈ s.controllerRoute, ∃ entry ∈ s.brokers.entries, entry.brokerId = route.brokerId
  leaders : ∀ leader ∈ s.leaders.entries,
    ∃ entry ∈ s.brokers.entries, entry.brokerId = leader.brokerId
  sorted : s.leaders.entries.Pairwise (fun a b => a.key < b.key) ∧
    s.topicCounts.entries.Pairwise fun a b => a.topic < b.topic
  within : s.leaders.entries.length ≤ limits.maxPartitions.get ∧
    (PartitionLeaderSet.topics s.leaders.entries).card ≤ limits.maxTopics.get ∧
    s.topicCounts.entries.length ≤ limits.maxTopics.get
  unordered : ∀ response', Permuted response response' →
    snapshotFromResponse response' provenance current maxBrokers limits = .ok s

variable {leader : PartitionLeader}

theorem of_mem_reportedLeaders {name : TopicName} {revision : MetadataRevision}
    {ev : EvidenceStamp} (mem : leader ∈ reportedLeaders response name revision ev) :
    leader.topic = name ∧ leader.evidence = ev := by
  obtain ⟨topic, -, mem⟩ := mem_flatMap.1 mem
  split_ifs at mem
  · obtain ⟨part, -, rfl⟩ := mem_map.1 mem
    exact ⟨rfl, rfl⟩
  · cases mem

theorem mem_retainedLeaders :
    leader ∈ retainedLeaders current ↔
      ∃ snap, current = some snap ∧ leader ∈ snap.leaders.entries := by
  cases current <;> simp [retainedLeaders]

theorem find_retainedCounts {topic : TopicName} {n : TopicPartitionCount} :
    (current.bind fun snap => snap.topicCounts.find topic) = some n ↔
      n ∈ retainedCounts current ∧ n.topic = topic := by
  cases current with
  | none => simp [retainedCounts]
  | some snap => exact find_eq_some

/-- A response replaces the facts it is about and no others. -/
theorem snapshot_replaces
    (h : snapshotFromResponse response provenance current maxBrokers limits = .ok s) :
    Replaces response provenance current maxBrokers limits s := by
  obtain ⟨dir, hg, named⟩ := snapshotFromResponse_eq_ok h
  obtain ⟨generation, evidence⟩ := snapshotFromResponse_stamps h
  refine ⟨?_, ?_, ?_, ?_, fun query => topicFacts_cluster query hg, generation, evidence,
    ⟨named, ?_⟩, ?_, ⟨s.leaders.ascending, s.topicCounts.ascending⟩, topicFacts_within hg,
    fun _ hp => snapshotFromResponse_permuted hp h⟩
  · intro topic query leader
    rw [(topicFacts_topic query hg).1]
    constructor
    · rintro ⟨⟨-, ho, -⟩ | own, hs⟩
      · exact absurd hs ho
      · exact own
    · exact fun own => ⟨.inr own, (of_mem_reportedLeaders own).1⟩
  · intro topic query count
    rw [TopicPartitionCountSet.find_eq_some, (topicFacts_topic query hg).2]
    constructor
    · rintro ⟨⟨-, ho⟩ | own, hs⟩
      · exact absurd hs ho
      · exact own
    · intro own
      obtain ⟨_, _, _, hs, _⟩ := id own
      exact ⟨.inr own, hs⟩
  · intro topic query other ha
    ext count
    rw [TopicPartitionCountSet.find_eq_some, (topicFacts_topic query hg).2, find_retainedCounts]
    constructor
    · rintro ⟨⟨hk, -⟩ | ⟨_, _, _, own, _⟩, hs⟩
      · exact ⟨hk, hs⟩
      · exact absurd (hs.symm.trans own) ha
    · rintro ⟨hk, rfl⟩
      exact ⟨.inl ⟨hk, ha⟩, rfl⟩
  · intro topic query leader ha
    rw [(topicFacts_topic query hg).1, mem_retainedLeaders, BrokerDirectory.routeTo_isSome]
    constructor
    · rintro (⟨hk, -, mem⟩ | own)
      · exact ⟨hk, mem⟩
      · exact absurd (of_mem_reportedLeaders own).1 ha
    · rintro ⟨hk, mem⟩
      exact .inl ⟨hk, ha, mem⟩
  · intro rt hi
    exact BrokerDirectory.routeTo_isSome.1 (isSome_iff_exists.2 ⟨rt, s.controllerKnown rt hi⟩)
  · exact fun leader mem => BrokerDirectory.routeTo_isSome.1 (s.leadersKnown leader mem)

/-- One broker and a topic of one partition. -/
def topicOnOneBroker (topic : String) : MetadataResponse :=
  ⟨0, [⟨1, "broker", 9092⟩], 1, [⟨0, some topic, 0, [⟨0, 0, 1, -1⟩]⟩]⟩

/-- A refresh of the topic by operation `n`, whose evidence and generation are `n` too. -/
def refreshedOn (current : Option MetadataSnapshot) (n : ℕ) (topic : TopicName) :
    Except MetadataBuildError MetadataSnapshot :=
  snapshotFromResponse (topicOnOneBroker topic.value) ⟨⟨n⟩, ⟨n⟩, ⟨n⟩, .topic topic⟩ current .four
    ⟨.four, .four⟩

theorem snapshot_replaces_secondTopic :
    let four : NonZeroUsize := ⟨4, by decide, by decide⟩
    let second : TopicName := ⟨"b", by decide, by decide⟩
    let current := (refreshedOn none 1 ⟨"a", by decide, by decide⟩).toOption
    ∃ s, refreshedOn current 2 second = .ok s ∧ s.leaders.entries.length = 2 ∧
      Replaces (topicOnOneBroker "b") ⟨⟨2⟩, ⟨2⟩, ⟨2⟩, .topic second⟩ current four ⟨four, four⟩
        s := by
  intro four second current
  have both : ((refreshedOn current 2 second).toOption.map fun s => s.leaders.entries.length) =
      some 2 := by
    decide +kernel
  cases built : refreshedOn current 2 second with
  | error err =>
    rw [built] at both
    cases both
  | ok s =>
    rw [built] at both
    exact ⟨s, rfl, some.inj both, snapshot_replaces built⟩

end Snapshot

end MetadataResponse

end KafkaDriver
