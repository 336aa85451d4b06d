import KafkaDriver.SnapshotReplacement

/-!
# Complete partition ranges

A topic is refreshed only from a response that describes all of its partitions. The check sorts
the indexes, looks for a repeated one and compares each with its position, while the leaders are
made from the list as it came. Together the checks accept exactly the permutations of
`0, …, n - 1` (`accepts_complete_ranges`).
-/

namespace KafkaDriver

open Canonical Fallible List MetadataResponse

namespace MetadataResponse

/-- A response about the one topic `name` in which everything but the numbering of the partitions
is as it should be. Indexes are `i32`. -/
structure Describes (response : MetadataResponse) (topic : MetadataResponseTopic)
    (name : TopicName) (limits : PartitionLeaderLimits) : Prop where
  accepted : response.errorCode = 0
  only : response.topics = [topic]
  clean : topic.errorCode = 0
  named : ∃ raw, topic.name = some raw ∧ TopicName.new raw = .ok name
  leaders : ∀ p ∈ topic.partitions, p.errorCode = 0 → -1 ≤ p.leaderId ∧ -1 ≤ p.leaderEpoch
  indexes : ∀ p ∈ topic.partitions, p.partitionIndex < 2 ^ 31
  small : topic.partitions.length ≤ limits.maxPartitions.get

/-- The indexes are those below some positive number, each once. -/
def CompleteRange (topic : MetadataResponseTopic) : Prop :=
  ∃ n ≥ 1, (topic.partitions.map (·.partitionIndex)).Perm ((range n).map (Nat.cast : ℕ → ℤ))

/-- The identity of a partition with a valid index. -/
def partitionId (p : MetadataResponsePartition) : PartitionId := ⟨p.partitionIndex.toNat⟩

variable {response : MetadataResponse} {topic : MetadataResponseTopic} {name : TopicName}
  {limits : PartitionLeaderLimits} {revision : MetadataRevision} {evidence : EvidenceStamp}

theorem mapM_eq_map {α β ε : Type} {f : α → Except ε β} {g : α → β} {l : List α}
    (each : ∀ a ∈ l, f a = .ok (g a)) : l.mapM f = .ok (l.map g) :=
  mapM_eq_ok.2 (forall₂_map_right_iff.2 (forall₂_same.2 each))

theorem partitionIds_eq_ok {ids : List PartitionId} : partitionIds topic = .ok ids ↔
    (∀ p ∈ topic.partitions, 0 ≤ p.partitionIndex) ∧ ids = topic.partitions.map partitionId := by
  constructor
  · intro h
    refine ⟨fun p mem => ?_, eq_map_of_mapM h fun p id own => ?_⟩
    · obtain ⟨id, -, own⟩ := mem_mapM_of_mem h mem
      exact (new_eq_ok.1 (mapError_eq_ok.1 own)).1
    · exact (new_eq_ok.1 (mapError_eq_ok.1 own)).2
  · rintro ⟨hv, rfl⟩
    exact mapM_eq_map fun p mem => mapError_eq_ok.2 (new_eq_ok.2 ⟨hv p mem, rfl⟩)

/-- A complete range names the identities below `n`, each once. -/
theorem CompleteRange.ids (h : CompleteRange topic) :
    (∀ p ∈ topic.partitions, 0 ≤ p.partitionIndex) ∧ topic.partitions ≠ [] ∧
      ((range topic.partitions.length).map PartitionId.mk).Perm
        (topic.partitions.map partitionId) := by
  obtain ⟨n, pos, perm⟩ := h
  have length : topic.partitions.length = n := by simpa using perm.length_eq
  refine ⟨fun p mem => ?_, fun empty => by simp [← length, empty] at pos, ?_⟩
  · obtain ⟨k, -, hs⟩ := mem_map.1 (perm.mem_iff.1 (mem_map_of_mem mem))
    exact hs ▸ k.cast_nonneg
  · have raw := (perm.map Int.toNat).map PartitionId.mk
    simp only [map_map, Function.comp_def, Int.toNat_natCast] at raw
    rw [length]
    exact raw.symm

/-- The checks on the sorted indexes accept the complete ranges. -/
theorem validateLogicalRange_iff : validateLogicalRange topic = .ok () ↔ CompleteRange topic := by
  rw [validateLogicalRange_eq_ok]
  constructor
  · rintro ⟨hn, ids, hnu, -, complete⟩
    obtain ⟨hv, rfl⟩ := partitionIds_eq_ok.1 hnu
    refine ⟨topic.partitions.length, length_pos_iff.2 hn, ?_⟩
    have hi : topic.partitions.map (·.partitionIndex) =
        ((topic.partitions.map partitionId).map PartitionId.raw).map (Nat.cast : ℕ → ℤ) := by
      rw [map_map, map_map]
      exact map_congr_left fun p mem => (Int.toNat_of_nonneg (hv p mem)).symm
    rw [hi]
    have order : (sorted id (topic.partitions.map partitionId)).Perm _ := sorted_perm _
    refine Perm.map _ ((order.map _).symm.trans ?_)
    rw [complete, length_map, range_eq_range']
  · intro h
    obtain ⟨hv, hn, perm⟩ := h.ids
    have asc : Canonical.Ascending id ((range topic.partitions.length).map PartitionId.mk) :=
      pairwise_map.2 pairwise_lt_range
    refine ⟨hn, _, partitionIds_eq_ok.2 ⟨hv, rfl⟩, ?_⟩
    rw [asc.sorted_eq perm]
    refine ⟨asc, ?_⟩
    rw [map_map, length_map, ← range_eq_range']
    exact map_id _

/-! ## The leaders -/

theorem partitionLeader_ok {p : MetadataResponsePartition} (index : 0 ≤ p.partitionIndex)
    (leader : -1 ≤ p.leaderId) (epoch : -1 ≤ p.leaderEpoch) :
    ∃ answer, partitionLeader name revision evidence p = .ok answer := by
  have hn : (PartitionId.new p.partitionIndex).mapError
      MetadataBuildError.partitionId = .ok (partitionId p) :=
      mapError_eq_ok.2 (new_eq_ok.2 ⟨index, rfl⟩)
  obtain ⟨e, hk⟩ : ∃ e, leaderEpochOf (partitionId p) p.leaderEpoch = .ok e := by
    unfold leaderEpochOf
    split_ifs with leaderless
    · exact ⟨_, rfl⟩
    · exact ⟨_, mapError_eq_ok.2 (map_eq_ok.2 ⟨_, new_eq_ok.2 ⟨by omega, rfl⟩, rfl⟩)⟩
  unfold partitionLeader
  by_cases absent : p.leaderId = -1
  · exact ⟨none, bind_eq_ok.2 ⟨_, hn, bind_eq_ok.2 ⟨e, hk, if_pos absent⟩⟩⟩
  · refine ⟨some ⟨name, partitionId p, ⟨p.leaderId.toNat⟩, e, revision, evidence⟩,
      bind_eq_ok.2 ⟨_, hn, bind_eq_ok.2 ⟨e, hk, (if_neg absent).trans ?_⟩⟩⟩
    exact bind_eq_ok.2 ⟨_, mapError_eq_ok.2 (new_eq_ok.2 ⟨by omega, rfl⟩), rfl⟩

theorem topicLeaders_ok (index : ∀ p ∈ topic.partitions, 0 ≤ p.partitionIndex)
    (hv : ∀ p ∈ topic.partitions, p.errorCode = 0 → -1 ≤ p.leaderId ∧ -1 ≤ p.leaderEpoch) :
    topicLeaders topic name revision evidence = .ok (topicReport topic name revision evidence) := by
  have ha := mapM_eq_map (l := topic.partitions.filter fun p => p.errorCode = 0)
    (f := partitionLeader name revision evidence)
    (g := fun p => if p.leaderId = -1 then none else some (reportedLeader name revision evidence p))
    fun p mem => by
      obtain ⟨inside, clean⟩ := mem_filter.1 mem
      obtain ⟨leader, epoch⟩ := hv p inside (of_decide_eq_true clean)
      obtain ⟨answer, hf⟩ := partitionLeader_ok (index p inside) leader epoch
      rw [hf, partitionLeader_eq hf]
  have led : topicLeaders topic name revision evidence = .ok _ := bind_eq_ok.2 ⟨_, ha, rfl⟩
  rw [← topicLeaders_eq led]
  exact led

/-- Leaders of distinct partitions of one topic make a set. -/
theorem tryFromIter_topicReport (name : TopicName) (revision : MetadataRevision)
    (evidence : EvidenceStamp) (hs : topic.partitions.length ≤ limits.maxPartitions.get)
    (hd : (topic.partitions.map partitionId).Nodup) :
    ∃ set, PartitionLeaderSet.tryFromIter (topicReport topic name revision evidence) limits =
      .ok set := by
  set source := topicReport topic name revision evidence with report
  have keys : source.Pairwise fun a b => a.key ≠ b.key := by
    rw [report, topicReport, pairwise_map]
    refine (pairwise_map.1 hd).sublist filter_sublist |>.imp fun ha same => ha ?_
    exact congrArg (fun k => (ofLex k).2) same
  have asc : Canonical.Ascending PartitionLeader.key (sorted PartitionLeader.key source) := by
    have order : (sorted PartitionLeader.key source).Perm source := sorted_perm source
    have ha := (order.pairwise_iff Ne.symm).2 keys
    exact (ha.and (sorted_ordered source)).imp fun both => lt_of_le_of_ne both.2 both.1
  refine ⟨⟨_, asc⟩, PartitionLeaderSet.tryFromIter_eq_ok.2 ⟨?_, rfl, ?_⟩⟩
  · rw [report, topicReport, length_map]
    exact (length_filter_le _ _).trans hs
  · rw [PartitionLeaderSet.topicCount_eq ⟨_, asc⟩]
    have one : PartitionLeaderSet.topics (sorted PartitionLeader.key source) ⊆ {name} := by
      intro t mem
      obtain ⟨leader, inside, rfl⟩ := mem_map.1 (mem_toFinset.1 mem)
      obtain ⟨p, -, rfl⟩ := mem_map.1 (mem_sorted.1 inside)
      exact Finset.mem_singleton.2 rfl
    exact (Finset.card_le_card one).trans limits.maxTopics.pos

/-! ## The response -/

/-- A response about one topic is accepted if and only if its partition indexes are
`0, …, n - 1` in some order, for some `n ≥ 1`. Then `n` is the count, the leaders are those of the
partitions without an error that report one, and the order of the partitions plays no part. -/
theorem accepts_complete_ranges (h : Describes response topic name limits)
    (revision : MetadataRevision) (evidence : EvidenceStamp) :
    ((∃ facts, partitionFactsForTopic response name revision evidence limits = .ok facts) ↔
      CompleteRange topic) ∧
    ∀ facts, partitionFactsForTopic response name revision evidence limits = .ok facts →
      (∃ count, facts.count = some count ∧ count.topic = name ∧ count.evidence = evidence ∧
        (topic.partitions.map (·.partitionIndex)).Perm
          ((range count.count.get).map (Nat.cast : ℕ → ℤ))) ∧
      (∀ leader, leader ∈ facts.leaders.entries ↔
        ∃ p ∈ topic.partitions, p.errorCode = 0 ∧ p.leaderId ≠ -1 ∧
          leader = reportedLeader name revision evidence p) ∧
      ∀ response', Permuted response response' →
        partitionFactsForTopic response' name revision evidence limits = .ok facts := by
  have hre : ∀ facts, partitionFactsForTopic response name revision evidence limits =
      .ok facts →
        CompleteRange topic ∧ RefreshesTopic response name revision evidence limits facts := by
    intro facts ok
    have hr := (partitionFactsForTopic_eq_ok.1 ok).2
    refine ⟨?_, hr⟩
    cases hr with
    | reported topics _ _ _ range =>
      obtain rfl := singleton_inj.1 (h.only.symm.trans topics)
      exact validateLogicalRange_iff.1 range
    | unavailable topics _ _ hf =>
      obtain rfl := singleton_inj.1 (h.only.symm.trans topics)
      exact absurd h.clean hf
  refine ⟨⟨fun ⟨facts, ok⟩ => (hre facts ok).1, fun complete => ?_⟩, fun facts ok => ?_⟩
  · obtain ⟨index, hn, perm⟩ := complete.ids
    obtain ⟨raw, hna, ha⟩ := h.named
    have hb : enforceInputBounds response limits = .ok () := by
      unfold enforceInputBounds observedPartitions
      have := h.small
      have := limits.maxTopics.pos
      rw [h.only, if_neg (by simpa using by omega), if_neg (by simp; omega)]
      rfl
    have few : topic.partitions.length ≤ u32Max := by
      have pos := length_pos_iff.2 hn
      have last : PartitionId.mk (topic.partitions.length - 1) ∈ topic.partitions.map partitionId :=
        perm.mem_iff.1 (mem_map_of_mem (mem_range.2 (by omega)))
      obtain ⟨p, inside, hs⟩ := mem_map.1 last
      have hbe := h.indexes p inside
      have top : p.partitionIndex.toNat = topic.partitions.length - 1 := congrArg PartitionId.raw hs
      unfold u32Max
      omega
    have hd : (topic.partitions.map partitionId).Nodup :=
      perm.nodup_iff.1 (nodup_range.map fun _ _ hs => PartitionId.mk.inj hs)
    obtain ⟨set, hbu⟩ := tryFromIter_topicReport name revision evidence h.small hd
    have hc : partitionCount topic.partitions.length = .ok ⟨_, length_pos_iff.2 hn, few⟩ :=
      dif_pos ⟨length_pos_iff.2 hn, few⟩
    exact ⟨_, partitionFactsForTopic_eq_ok.2 ⟨hb, .reported h.only hna ha h.clean
      (validateLogicalRange_iff.2 complete) hc (topicLeaders_ok index h.leaders) hbu⟩⟩
  · obtain ⟨⟨n, -, perm⟩, hr⟩ := hre facts ok
    refine ⟨?_, fun leader => ?_, fun response' hp => partitionFactsForTopic_permuted hp ok⟩
    · cases hr with
      | reported topics _ _ _ _ hc =>
        obtain rfl := singleton_inj.1 (h.only.symm.trans topics)
        refine ⟨_, rfl, rfl, rfl, ?_⟩
        rw [partitionCount_eq_ok hc]
        have length : topic.partitions.length = n := by simpa using perm.length_eq
        rwa [length]
      | unavailable topics _ _ hf =>
        obtain rfl := singleton_inj.1 (h.only.symm.trans topics)
        exact absurd h.clean hf
    · rw [hr.mem_leaders, reportedLeaders, h.only, flatMap_singleton, if_pos h.clean,
        topicReport, mem_map]
      constructor
      · rintro ⟨p, inside, rfl⟩
        obtain ⟨mem, led⟩ := mem_filter.1 inside
        exact ⟨p, mem, (of_decide_eq_true led).1, (of_decide_eq_true led).2, rfl⟩
      · rintro ⟨p, mem, clean, led, rfl⟩
        exact ⟨p, mem_filter.2 ⟨mem, decide_eq_true ⟨clean, led⟩⟩, rfl⟩

/-- A response about a topic with a partition that is led and one that is not, the second first. -/
def twoPartitions : MetadataResponseTopic := ⟨0, some "t", 7, [⟨0, 1, 3, 5⟩, ⟨0, 0, -1, -1⟩]⟩

theorem accepts_complete_ranges_twoPartitions :
    ∃ facts, partitionFactsForTopic ⟨0, [], -1, [twoPartitions]⟩ ⟨"t", by decide, by decide⟩ ⟨2⟩ ⟨3⟩
      ⟨⟨4, by decide, by decide⟩, ⟨4, by decide, by decide⟩⟩ = .ok facts :=
  (accepts_complete_ranges ⟨rfl, rfl, rfl, ⟨"t", rfl, by decide +kernel⟩, by decide, by decide,
    by decide⟩ ⟨2⟩ ⟨3⟩).1.2 ⟨2, by decide, by decide⟩

end MetadataResponse

end KafkaDriver
