import Mathlib.Data.List.ReduceOption
import KafkaDriver.Fallible
import KafkaDriver.MetadataMachine

/-!
# From a Metadata response to a snapshot

`snapshotFromResponse` validates a decoded Metadata response and joins it with the current
snapshot. A response to a cluster query brings brokers and the controller, and the counts of
all topics are carried over without their leaders. A response to a topic query must describe
that topic and no other, and the facts of every other topic are carried over, its leaders as
far as their brokers are still members (`topicFacts_origin`).

Fields of the response are signed integers as on the wire. On a 64-bit target a partition
index always fits an array index, so that check of the source is left out.
-/

namespace KafkaDriver

open Fallible List Canonical PartitionLeaderSet TopicPartitionCountSet

/-! ## The response -/

structure MetadataResponseBroker where
  nodeId : ℤ
  host : String
  port : ℤ

structure MetadataResponsePartition where
  errorCode : ℤ
  partitionIndex : ℤ
  leaderId : ℤ
  leaderEpoch : ℤ

structure MetadataResponseTopic where
  errorCode : ℤ
  name : Option String
  topicId : ℕ
  partitions : List MetadataResponsePartition

structure MetadataResponse where
  errorCode : ℤ
  brokers : List MetadataResponseBroker
  controllerId : ℤ
  topics : List MetadataResponseTopic

/-! ## Validated identities -/

inductive TopicNameError where
  | empty
  | tooLong (bytes limit : ℕ)
  deriving DecidableEq

inductive HostNameError where
  | empty
  | tooLong (bytes limit : ℕ)
  | invalidCharacter

inductive MetadataBuildError where
  | response (errorCode : ℤ)
  | brokerCapacity (observed limit : ℕ)
  | topicCapacity (observed limit : ℕ)
  | partitionCapacity (observed limit : ℕ)
  | topicResponseCount (observed : ℕ)
  | brokerId (value : ℤ)
  | brokerHost (brokerId : BrokerId) (source : HostNameError)
  | brokerPort (brokerId : BrokerId) (port : ℤ)
  | directory (source : BrokerDirectoryError)
  | controllerId (value : ℤ)
  | topicNameMissing
  | requestedTopicMismatch
  | topicName (source : TopicNameError)
  | topicPartitionsEmpty
  | duplicateTopicPartition (partition : PartitionId)
  | topicPartitionMissing (expected : ℕ) (next : PartitionId)
  | partitionId (value : ℤ)
  | leaderId (partition : PartitionId) (value : ℤ)
  | leaderEpoch (partition : PartitionId) (value : ℤ)
  | partitionLeaders (source : PartitionLeaderSetError)
  | topicCounts (source : TopicPartitionCountSetError)
  | snapshot (source : MetadataSnapshotError)

/-- A nonnegative `i32`, or the value that is not one. -/
def nonnegative (value : ℤ) : Except ℤ ℕ := if value < 0 then .error value else .ok value.toNat

def BrokerId.new (value : ℤ) : Except ℤ BrokerId := BrokerId.mk <$> nonnegative value

def PartitionId.new (value : ℤ) : Except ℤ PartitionId := PartitionId.mk <$> nonnegative value

def LeaderEpoch.new (value : ℤ) : Except ℤ LeaderEpoch := LeaderEpoch.mk <$> nonnegative value

def KafkaTopicId.fromBytes (bytes : ℕ) : Option KafkaTopicId :=
  if nonzero : bytes ≠ 0 then some ⟨bytes, nonzero⟩ else none

def TopicName.new (value : String) : Except TopicNameError TopicName :=
  if nonempty : value = "" then .error .empty
  else if short : value.utf8ByteSize ≤ 249 then .ok ⟨value, nonempty, short⟩
  else .error (.tooLong value.utf8ByteSize 249)

/-- A printable ASCII character other than the space. -/
def isAsciiGraphic (c : Char) : Bool := '!' ≤ c ∧ c ≤ '~'

/-- A resolver host is checked and kept as it is. -/
def hostName (value : String) : Except HostNameError String :=
  if value = "" then .error .empty
  else if 253 < value.utf8ByteSize then .error (.tooLong value.utf8ByteSize 253)
  else if value.toList.all isAsciiGraphic then .ok value
  else .error .invalidCharacter

/-! ## Brokers -/

namespace MetadataResponse

def brokerEntry (broker : MetadataResponseBroker) :
    Except MetadataBuildError BrokerDirectoryEntry := do
  let brokerId ← (BrokerId.new broker.nodeId).mapError .brokerId
  let host ← (hostName broker.host).mapError (.brokerHost brokerId)
  if 0 < broker.port ∧ broker.port ≤ 65535 then pure ⟨brokerId, ⟨host, broker.port.toNat⟩⟩
  else throw (.brokerPort brokerId broker.port)

variable (response : MetadataResponse)

def brokerDirectoryFromResponse (generation : MetadataGeneration) (evidence : EvidenceStamp)
    (maxBrokers : NonZeroUsize) : Except MetadataBuildError BrokerDirectory :=
  if maxBrokers.get < response.brokers.length then
    throw (.brokerCapacity response.brokers.length maxBrokers.get)
  else do
    let entries ← response.brokers.mapM brokerEntry
    (BrokerDirectory.tryFromIterWithEvidence generation evidence entries maxBrokers).mapError
      .directory

/-- The advertised controller; `-1` stands for none. -/
def controllerIdOf (raw : ℤ) : Except MetadataBuildError (Option BrokerId) :=
  if raw = -1 then .ok none else (some <$> BrokerId.new raw).mapError .controllerId

/-! ## Partitions -/

/-- The reported epoch; `-1` stands for none. -/
def leaderEpochOf (partition : PartitionId) (raw : ℤ) :
    Except MetadataBuildError (Option LeaderEpoch) :=
  if raw = -1 then .ok none else (some <$> LeaderEpoch.new raw).mapError (.leaderEpoch partition)

/-- The reported leader of a partition; `-1` stands for none. -/
def partitionLeader (topic : TopicName) (revision : MetadataRevision) (evidence : EvidenceStamp)
    (partition : MetadataResponsePartition) :
    Except MetadataBuildError (Option PartitionLeader) := do
  let partitionId ← (PartitionId.new partition.partitionIndex).mapError .partitionId
  let leaderEpoch ← leaderEpochOf partitionId partition.leaderEpoch
  if partition.leaderId = -1 then pure none
  else do
    let brokerId ← (BrokerId.new partition.leaderId).mapError (.leaderId partitionId)
    pure (some ⟨topic, partitionId, brokerId, leaderEpoch, revision, evidence⟩)

/-- The known leaders of the partitions reported without an error. -/
def topicLeaders (topic : MetadataResponseTopic) (name : TopicName) (revision : MetadataRevision)
    (evidence : EvidenceStamp) : Except MetadataBuildError (List PartitionLeader) := do
  let leaders ← (topic.partitions.filter fun partition => partition.errorCode = 0).mapM
    (partitionLeader name revision evidence)
  pure leaders.reduceOption

/-- The first position that does not hold its own index. -/
def firstMissing : ℕ → List PartitionId → Option (ℕ × PartitionId)
  | _, [] => none
  | expected, actual :: rest =>
    if actual.raw = expected then firstMissing (expected + 1) rest else some (expected, actual)

/-- The partitions of a topic are numbered from zero without a gap. -/
def validateLogicalRange (topic : MetadataResponseTopic) : Except MetadataBuildError Unit :=
  if topic.partitions = [] then throw .topicPartitionsEmpty
  else do
    let partitions ← topic.partitions.mapM fun partition =>
      (PartitionId.new partition.partitionIndex).mapError .partitionId
    match firstDuplicate id (sorted id partitions) with
    | some duplicate => throw (.duplicateTopicPartition duplicate)
    | none =>
      match firstMissing 0 (sorted id partitions) with
      | some (expected, next) => throw (.topicPartitionMissing expected next)
      | none => pure ()

/-- The counted partitions, a nonzero `u32`. -/
def partitionCount (count : ℕ) : Except MetadataBuildError NonZeroU32 :=
  if fits : 0 < count ∧ count ≤ u32Max then .ok ⟨count, fits.1, fits.2⟩
  else .error .topicPartitionsEmpty

/-- The partitions of all topics, up to the largest `usize`. -/
def observedPartitions : ℕ :=
  min (response.topics.map fun topic => topic.partitions.length).sum u64Max

def enforceInputBounds (limits : PartitionLeaderLimits) : Except MetadataBuildError Unit :=
  if limits.maxTopics.get < response.topics.length then
    throw (.topicCapacity response.topics.length limits.maxTopics.get)
  else if limits.maxPartitions.get < response.observedPartitions then
    throw (.partitionCapacity response.observedPartitions limits.maxPartitions.get)
  else pure ()

/-- The leaders and the count a topic was refreshed with; neither if the broker reports an
error for it. -/
structure TopicPartitionSnapshot where
  leaders : PartitionLeaderSet
  count : Option TopicPartitionCount

def partitionFactsForTopic (expected : TopicName) (revision : MetadataRevision)
    (evidence : EvidenceStamp) (limits : PartitionLeaderLimits) :
    Except MetadataBuildError TopicPartitionSnapshot := do
  enforceInputBounds response limits
  match response.topics with
  | [topic] =>
    match topic.name with
    | none => throw .topicNameMissing
    | some raw =>
      let name ← (TopicName.new raw).mapError .topicName
      if name = expected then
        if topic.errorCode = 0 then do
          validateLogicalRange topic
          let count ← partitionCount topic.partitions.length
          let leaders ← topicLeaders topic name revision evidence
          let leaders ← (tryFromIter leaders limits).mapError .partitionLeaders
          pure ⟨leaders, some ⟨name, KafkaTopicId.fromBytes topic.topicId, count, evidence⟩⟩
        else do
          let leaders ← (tryFromIter [] limits).mapError .partitionLeaders
          pure ⟨leaders, none⟩
      else throw .requestedTopicMismatch
  | topics => throw (.topicResponseCount topics.length)

/-! ## The snapshot -/

/-- Which request a response answers. -/
structure MetadataResponseProvenance where
  generation : MetadataGeneration
  evidence : EvidenceStamp
  operationId : OperationId
  query : MetadataQuery

/-- The leaders of the current snapshot. -/
def retainedLeaders (current : Option MetadataSnapshot) : List PartitionLeader :=
  current.elim [] fun snapshot => snapshot.leaders.entries

/-- The partition counts of the current snapshot. -/
def retainedCounts (current : Option MetadataSnapshot) : List TopicPartitionCount :=
  current.elim [] fun snapshot => snapshot.topicCounts.entries

/-- Leaders and counts after a refresh. -/
def topicFacts (provenance : MetadataResponseProvenance) (brokers : BrokerDirectory)
    (current : Option MetadataSnapshot) (limits : PartitionLeaderLimits) :
    Except MetadataBuildError (PartitionLeaderSet × TopicPartitionCountSet) :=
  match provenance.query with
  | .cluster => do
    let topicCounts ← (tryFromIter (retainedCounts current)
      limits.maxTopics).mapError .topicCounts
    pure (.empty, topicCounts)
  | .topic topic => do
    let refreshed ← partitionFactsForTopic response topic ⟨provenance.operationId.raw⟩
      provenance.evidence limits
    let kept := (retainedLeaders current).filter fun leader =>
      leader.topic ≠ topic ∧ (brokers.routeTo leader.brokerId).isSome
    let leaders ← (tryFromIter (kept ++ refreshed.leaders.entries)
      limits).mapError .partitionLeaders
    let counts := (retainedCounts current).filter fun count => count.topic ≠ topic
    let topicCounts ← (tryFromIter (counts ++ refreshed.count.toList)
      limits.maxTopics).mapError .topicCounts
    pure (leaders, topicCounts)

def snapshotFromResponse (provenance : MetadataResponseProvenance)
    (current : Option MetadataSnapshot) (maxBrokers : NonZeroUsize)
    (limits : PartitionLeaderLimits) : Except MetadataBuildError MetadataSnapshot :=
  if response.errorCode = 0 then do
    let brokers ← brokerDirectoryFromResponse response provenance.generation provenance.evidence
      maxBrokers
    let controller ← controllerIdOf response.controllerId
    let facts ← topicFacts response provenance brokers current limits
    (MetadataSnapshot.tryWithTopicCounts brokers controller facts.1 facts.2).mapError .snapshot
  else throw (.response response.errorCode)

/-! ## What a snapshot carries over -/

variable {revision : MetadataRevision} {evidence : EvidenceStamp} {leader : PartitionLeader}
  {brokers : BrokerDirectory} {resp : MetadataResponse} {lim : PartitionLeaderLimits}

theorem partitionLeader_topic {topic : TopicName} {part : MetadataResponsePartition}
    (h : partitionLeader topic revision evidence part = .ok (some leader)) :
    leader.topic = topic ∧ leader.evidence = evidence := by
  unfold partitionLeader at h
  obtain ⟨partitionId, -, h⟩ := bind_eq_ok.1 h
  obtain ⟨leaderEpoch, -, h⟩ := bind_eq_ok.1 h
  split_ifs at h
  · cases h
  · obtain ⟨bid, -, h⟩ := bind_eq_ok.1 h
    cases h
    exact ⟨rfl, rfl⟩

theorem topicLeaders_topic {topic : MetadataResponseTopic} {name : TopicName}
    {leaders : List PartitionLeader} (h : topicLeaders topic name revision evidence = .ok leaders)
    (mem : leader ∈ leaders) : leader.topic = name ∧ leader.evidence = evidence := by
  obtain ⟨each, ha, h⟩ := bind_eq_ok.1 h
  cases h
  obtain ⟨_, -, hk⟩ := mem_of_mapM_eq_ok ha (reduceOption_mem_iff.1 mem)
  exact partitionLeader_topic hk

/-- A refreshed topic brings facts of its own only. -/
theorem partitionFactsForTopic_topic {want : TopicName} {facts : TopicPartitionSnapshot}
    (h : partitionFactsForTopic resp want revision evidence lim = .ok facts) :
    (∀ leader ∈ facts.leaders.entries, leader.topic = want ∧ leader.evidence = evidence) ∧
      ∀ n ∈ facts.count, n.topic = want ∧ n.evidence = evidence := by
  unfold partitionFactsForTopic at h
  obtain ⟨-, -, h⟩ := bind_eq_ok.1 h
  split at h
  · split at h
    · cases h
    obtain ⟨name, -, h⟩ := bind_eq_ok.1 h
    split_ifs at h with hn clean
    · rw [hn] at h
      obtain ⟨-, -, h⟩ := bind_eq_ok.1 h
      obtain ⟨n, -, h⟩ := bind_eq_ok.1 h
      obtain ⟨leaders, rep, h⟩ := bind_eq_ok.1 h
      obtain ⟨set, hb, h⟩ := bind_eq_ok.1 h
      cases h
      refine ⟨fun leader mem => ?_, ?_⟩
      · rw [mem_of_tryFromIter (mapError_eq_ok.1 hb)] at mem
        exact topicLeaders_topic rep mem
      · rintro _ ⟨⟩
        exact ⟨rfl, rfl⟩
    · obtain ⟨set, hb, h⟩ := bind_eq_ok.1 h
      cases h
      refine ⟨fun leader mem => ?_, nofun⟩
      rw [mem_of_tryFromIter (mapError_eq_ok.1 hb)] at mem
      cases mem
  · cases h

/-- The facts of the topic a refresh asked for are its own, those of every other topic are of
the current snapshot. -/
theorem topicFacts_origin {prov : MetadataResponseProvenance} {cur : Option MetadataSnapshot}
    {facts : PartitionLeaderSet × TopicPartitionCountSet}
    (h : topicFacts resp prov brokers cur lim = .ok facts) :
    (∀ leader ∈ facts.1.entries,
      prov.query = .topic leader.topic ∧ leader.evidence = prov.evidence ∨
        prov.query ≠ .topic leader.topic ∧ leader ∈ retainedLeaders cur) ∧
    ∀ n ∈ facts.2.entries,
      prov.query = .topic n.topic ∧ n.evidence = prov.evidence ∨
        prov.query ≠ .topic n.topic ∧ n ∈ retainedCounts cur := by
  unfold topicFacts at h
  split at h
  · rename_i q
    obtain ⟨topicCounts, hb, h⟩ := bind_eq_ok.1 h
    cases h
    refine ⟨nofun, fun n mem => .inr ⟨by simp [q], ?_⟩⟩
    rwa [mem_of_tryFromIter (mapError_eq_ok.1 hb)] at mem
  · rename_i topic q
    obtain ⟨snap, own, h⟩ := bind_eq_ok.1 h
    obtain ⟨leaders, builtLeaders, h⟩ := bind_eq_ok.1 h
    obtain ⟨topicCounts, builtCounts, h⟩ := bind_eq_ok.1 h
    cases h
    obtain ⟨ownLeaders, ownCount⟩ := partitionFactsForTopic_topic own
    simp only [q, MetadataQuery.topic.injEq, ne_eq]
    refine ⟨fun leader mem => ?_, fun n mem => ?_⟩
    · rw [mem_of_tryFromIter (mapError_eq_ok.1 builtLeaders)] at mem
      rcases mem_append.1 mem with hk | hf
      · obtain ⟨hre, ne⟩ := mem_filter.1 hk
        simp only [ne_eq, decide_not, Bool.decide_and, Bool.and_eq_true, Bool.not_eq_true',
          decide_eq_false_iff_not] at ne
        exact .inr ⟨fun hs => ne.1 hs.symm, hre⟩
      · exact .inl ((ownLeaders leader hf).imp_left Eq.symm)
    · rw [mem_of_tryFromIter (mapError_eq_ok.1 builtCounts)] at mem
      rcases mem_append.1 mem with hk | hf
      · obtain ⟨hre, ne⟩ := mem_filter.1 hk
        simp only [ne_eq, decide_not, Bool.not_eq_true', decide_eq_false_iff_not] at ne
        exact .inr ⟨fun hs => ne hs.symm, hre⟩
      · exact .inl ((ownCount n (by simpa using hf)).imp_left Eq.symm)

theorem brokerDirectoryFromResponse_stamps {gen : MetadataGeneration} {cap : NonZeroUsize}
    (h : brokerDirectoryFromResponse resp gen evidence cap = .ok brokers) :
    brokers.generation = gen ∧ brokers.evidence = evidence := by
  unfold brokerDirectoryFromResponse at h
  split_ifs at h
  obtain ⟨es, -, h⟩ := bind_eq_ok.1 h
  exact BrokerDirectory.stamps_of_tryFromIter (mapError_eq_ok.1 h)

variable {response : MetadataResponse} {provenance : MetadataResponseProvenance}
  {current : Option MetadataSnapshot} {maxBrokers : NonZeroUsize} {limits : PartitionLeaderLimits}
  {s : MetadataSnapshot}

/-- A snapshot is put together from the directory and the topic facts of its response. -/
theorem snapshotFromResponse_eq_ok
    (h : snapshotFromResponse response provenance current maxBrokers limits = .ok s) :
    brokerDirectoryFromResponse response provenance.generation provenance.evidence maxBrokers =
        .ok s.brokers ∧
      topicFacts response provenance s.brokers current limits = .ok (s.leaders, s.topicCounts) ∧
      controllerIdOf response.controllerId = .ok (s.controllerRoute.map (·.brokerId)) := by
  unfold snapshotFromResponse at h
  split_ifs at h
  obtain ⟨brokers, dir, h⟩ := bind_eq_ok.1 h
  obtain ⟨ctrl, named, h⟩ := bind_eq_ok.1 h
  obtain ⟨facts, hg, h⟩ := bind_eq_ok.1 h
  obtain ⟨issued, hb, hl, hc⟩ :=
    MetadataSnapshot.tryWithTopicCounts_eq_ok.1 (mapError_eq_ok.1 h)
  rw [hb, hl, hc]
  exact ⟨dir, hg, MetadataSnapshot.issueController_brokerId issued ▸ named⟩

/-- A snapshot has the generation and the evidence of its request. -/
theorem snapshotFromResponse_stamps
    (h : snapshotFromResponse response provenance current maxBrokers limits = .ok s) :
    s.generation = provenance.generation ∧ s.brokers.evidence = provenance.evidence :=
  brokerDirectoryFromResponse_stamps (snapshotFromResponse_eq_ok h).1

end MetadataResponse

end KafkaDriver
