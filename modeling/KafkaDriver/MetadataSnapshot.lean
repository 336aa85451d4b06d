import Mathlib.Data.String.Basic
import KafkaDriver.Directory

/-!
# Topic facts and the metadata snapshot

A metadata refresh reports the brokers, the controller, and for one topic its number of
partitions and their leaders. `PartitionLeaderSet` and `TopicPartitionCountSet` index these
facts in key order. A `MetadataSnapshot` joins them under the generation of its broker
directory : its controller and every leader it names are brokers of that directory, so a
route drawn from it resolves in it.

`revokeController` and `revokePartition` withdraw a route from a snapshot.
-/

namespace KafkaDriver

open Option Canonical

/-! ## Identities -/

/-- A validated Kafka topic name. Names are ordered by code points, which is the order of
their UTF-8 bytes. -/
structure TopicName where
  value : String
  nonempty : value ≠ ""
  short : value.utf8ByteSize ≤ 249
  deriving DecidableEq

instance : LinearOrder TopicName :=
  LinearOrder.lift' TopicName.value fun a b h => by cases a; cases b; simp_all

/-- Nonnegative partition index, an `i32`. -/
structure PartitionId where
  raw : ℕ
  deriving DecidableEq

instance : LinearOrder PartitionId :=
  LinearOrder.lift' PartitionId.raw fun a b h => by cases a; cases b; simp_all

/-- Nonnegative broker-issued epoch of one leader assignment, an `i32`. -/
structure LeaderEpoch where
  raw : ℕ
  deriving DecidableEq

instance : LinearOrder LeaderEpoch :=
  LinearOrder.lift' LeaderEpoch.raw fun a b h => by cases a; cases b; simp_all

/-- Logical refresh or discovery operation. -/
structure OperationId where
  raw : ℕ
  deriving DecidableEq

/-- The accepted refresh that observed a topic fact. -/
structure MetadataRevision where
  raw : ℕ
  deriving DecidableEq

/-- Nonzero topic identity published by the broker. -/
structure KafkaTopicId where
  bytes : ℕ
  nonzero : bytes ≠ 0
  deriving DecidableEq

@[ext]
structure NonZeroU32 where
  get : ℕ
  pos : 0 < get
  le : get ≤ u32Max

/-- The next generation, absent once the generations are exhausted. -/
def MetadataGeneration.next (g : MetadataGeneration) : Option MetadataGeneration :=
  (checkedSucc g.raw).map MetadataGeneration.mk

theorem MetadataGeneration.next_eq_some {g g' : MetadataGeneration} :
    g.next = some g' ↔ g.raw < u64Max ∧ g' = ⟨g.raw + 1⟩ := by
  simp only [next, map_eq_some_iff, checkedSucc_eq_some]
  constructor
  · rintro ⟨_, ⟨hr, rfl⟩, rfl⟩
    exact ⟨hr, rfl⟩
  · rintro ⟨hr, rfl⟩
    exact ⟨_, ⟨hr, rfl⟩, rfl⟩

def BrokerRoute.isSameBroker (a b : BrokerRoute) : Bool := a.brokerId = b.brokerId

/-! ## Partition leaders -/

/-- One leader assignment and the refresh that observed it. -/
structure PartitionLeader where
  topic : TopicName
  partition : PartitionId
  brokerId : BrokerId
  leaderEpoch : Option LeaderEpoch
  revision : MetadataRevision
  evidence : EvidenceStamp
  deriving DecidableEq

/-- Topic and partition. -/
abbrev PartitionKey := TopicName ×ₗ PartitionId

def PartitionLeader.key (l : PartitionLeader) : PartitionKey := toLex (l.topic, l.partition)

/-- A leader assignment drawn from one snapshot. -/
structure PartitionRoute where
  broker : BrokerRoute
  topic : TopicName
  partition : PartitionId
  leaderEpoch : Option LeaderEpoch
  revision : MetadataRevision
  evidence : EvidenceStamp
  deriving DecidableEq

namespace PartitionRoute

def key (r : PartitionRoute) : PartitionKey := toLex (r.topic, r.partition)

/-- Both routes select the same leader at the same epoch, whichever refresh observed it. -/
def isSameAssignment (a b : PartitionRoute) : Bool :=
  a.topic = b.topic ∧ a.partition = b.partition ∧ a.broker.brokerId = b.broker.brokerId ∧
    a.leaderEpoch = b.leaderEpoch

variable {a b : PartitionRoute}

theorem isSameAssignment_iff :
    a.isSameAssignment b ↔
      a.key = b.key ∧ a.broker.brokerId = b.broker.brokerId ∧ a.leaderEpoch = b.leaderEpoch := by
  simp only [isSameAssignment, decide_eq_true_eq, key, EmbeddingLike.apply_eq_iff_eq,
    Prod.mk.injEq, and_assoc]

@[simp] theorem isSameAssignment_refl (a : PartitionRoute) : a.isSameAssignment a := by
  simp [isSameAssignment]

theorem isSameAssignment_symm (h : a.isSameAssignment b) : b.isSameAssignment a := by
  rw [isSameAssignment_iff] at h ⊢
  exact ⟨h.1.symm, h.2.1.symm, h.2.2.symm⟩

theorem isSameAssignment_trans {c : PartitionRoute} (h : a.isSameAssignment b)
    (h' : b.isSameAssignment c) : a.isSameAssignment c := by
  rw [isSameAssignment_iff] at h h' ⊢
  exact ⟨h.1.trans h'.1, h.2.1.trans h'.2.1, h.2.2.trans h'.2.2⟩

end PartitionRoute

/-- Bounds on what is kept. -/
structure PartitionLeaderLimits where
  maxTopics : NonZeroUsize
  maxPartitions : NonZeroUsize

/-- Why leaders are refused. -/
inductive PartitionLeaderSetError where
  | partitionCapacity (limit : ℕ)
  | topicCapacity (limit : ℕ)
  | duplicatePartition (partition : PartitionId)

/-- Known leaders, each partition once, in topic and partition order. -/
structure PartitionLeaderSet where
  entries : List PartitionLeader
  ascending : Canonical.Ascending PartitionLeader.key entries

namespace PartitionLeaderSet

/-- Count the topics of leaders in topic order. -/
def topicCount (entries : List PartitionLeader) : ℕ :=
  (entries.foldl
    (fun (seen : Option TopicName × ℕ) leader =>
      (some leader.topic, if seen.1 = some leader.topic then seen.2 else seen.2 + 1))
    (none, 0)).2

/-- Sort and check leaders. -/
def tryFromIter (source : List PartitionLeader) (limits : PartitionLeaderLimits) :
    Except PartitionLeaderSetError PartitionLeaderSet :=
  if limits.maxPartitions.get < source.length then
    .error (.partitionCapacity limits.maxPartitions.get)
  else
    match unique : firstDuplicate PartitionLeader.key
        (sorted PartitionLeader.key source) with
    | some leader => .error (.duplicatePartition leader.partition)
    | none =>
      if limits.maxTopics.get < topicCount (sorted PartitionLeader.key source) then
        .error (.topicCapacity limits.maxTopics.get)
      else
        .ok ⟨sorted PartitionLeader.key source,
          ascending_of_firstDuplicate (sorted_ordered source) unique⟩

def empty : PartitionLeaderSet := ⟨[], .nil⟩

/-- Binary search by partition. -/
def find (s : PartitionLeaderSet) (topic : TopicName) (partition : PartitionId) :
    Option PartitionLeader :=
  Canonical.find PartitionLeader.key s.entries (toLex (topic, partition))

/-- A lower epoch, or another broker at the same epoch. -/
def assignmentRegresses (previous current : PartitionLeader) : Bool :=
  match previous.leaderEpoch, current.leaderEpoch with
  | some previousEpoch, some currentEpoch =>
    currentEpoch < previousEpoch ∨
      currentEpoch = previousEpoch ∧ current.brokerId ≠ previous.brokerId
  | _, _ => false

/-- Some leader is behind its old one. -/
def regressesFrom (s previous : PartitionLeaderSet) : Bool :=
  s.entries.any fun current =>
    (previous.find current.topic current.partition).any (assignmentRegresses · current)

def remove (s : PartitionLeaderSet) (topic : TopicName) (partition : PartitionId) :
    PartitionLeaderSet :=
  ⟨Canonical.remove PartitionLeader.key s.entries (toLex (topic, partition)),
    s.ascending.sublist (Canonical.remove_sublist _ _)⟩

variable {s : PartitionLeaderSet} {leader : PartitionLeader} {source : List PartitionLeader}
  {limits : PartitionLeaderLimits}

theorem find_eq_some {topic : TopicName} {part : PartitionId} :
    s.find topic part = some leader ↔
      leader ∈ s.entries ∧ leader.topic = topic ∧ leader.partition = part := by
  simp only [find, Canonical.find_eq_some s.ascending, PartitionLeader.key,
    EmbeddingLike.apply_eq_iff_eq, Prod.mk.injEq]

theorem find_remove (s : PartitionLeaderSet) (topic topic' : TopicName)
    (part partition' : PartitionId) :
    (s.remove topic part).find topic' partition' =
      if topic' = topic ∧ partition' = part then none else s.find topic' partition' := by
  unfold find remove
  rw [Canonical.find_remove s.ascending]
  simp only [EmbeddingLike.apply_eq_iff_eq, Prod.mk.injEq]

/-- A set is accepted within the limits, with each partition once, and holds its leaders in
order. -/
theorem tryFromIter_eq_ok :
    tryFromIter source limits = .ok s ↔ source.length ≤ limits.maxPartitions.get ∧
      s.entries = sorted PartitionLeader.key source ∧
      topicCount s.entries ≤ limits.maxTopics.get := by
  unfold tryFromIter
  split
  · rename_i hm
    exact ⟨nofun, fun ok => absurd ok.1 hm.not_ge⟩
  rename_i hm
  split
  · rename_i ld duplicate
    refine ⟨nofun, fun ok => ?_⟩
    have asc := s.ascending
    rw [ok.2.1] at asc
    rw [asc.firstDuplicate_eq_none] at duplicate
    cases duplicate
  · split
    · rename_i topics
      refine ⟨nofun, fun ok => ?_⟩
      rw [ok.2.1] at ok
      exact absurd ok.2.2 topics.not_ge
    · rename_i topics
      constructor
      · rintro ⟨⟩
        exact ⟨Nat.le_of_not_lt hm, rfl, Nat.le_of_not_lt topics⟩
      · rintro ⟨-, es, -⟩
        obtain ⟨_, _⟩ := s
        obtain rfl : _ = _ := es
        rfl

/-- An accepted set has the leaders it was given. -/
theorem mem_of_tryFromIter (hb : tryFromIter source limits = .ok s) :
    leader ∈ s.entries ↔ leader ∈ source := by
  rw [(tryFromIter_eq_ok.1 hb).2.1]
  exact mem_sorted

/-- The order in which leaders are given does not matter. -/
theorem tryFromIter_perm {source' : List PartitionLeader} (perm : source.Perm source')
    (hb : tryFromIter source limits = .ok s) : tryFromIter source' limits = .ok s := by
  obtain ⟨hw, es, topics⟩ := tryFromIter_eq_ok.1 hb
  have hs : s.entries.Perm source' := es ▸ (sorted_perm source).trans perm
  exact tryFromIter_eq_ok.2 ⟨perm.length_eq ▸ hw, (s.ascending.sorted_eq hs).symm, topics⟩

end PartitionLeaderSet

/-! ## Partition counts -/

/-- Number of partitions one refresh of a topic observed. -/
structure TopicPartitionCount where
  topic : TopicName
  topicId : Option KafkaTopicId
  count : NonZeroU32
  evidence : EvidenceStamp

/-- Why counts are refused. -/
inductive TopicPartitionCountSetError where
  | capacity (limit : ℕ)
  | duplicate

/-- Partition counts, each topic once, in topic order. -/
structure TopicPartitionCountSet where
  entries : List TopicPartitionCount
  ascending : Canonical.Ascending TopicPartitionCount.topic entries

namespace TopicPartitionCountSet

/-- Sort and check counts. -/
def tryFromIter (source : List TopicPartitionCount) (topicLimit : NonZeroUsize) :
    Except TopicPartitionCountSetError TopicPartitionCountSet :=
  if topicLimit.get < source.length then .error (.capacity topicLimit.get)
  else
    match unique : firstDuplicate TopicPartitionCount.topic
        (sorted TopicPartitionCount.topic source) with
    | some _ => .error .duplicate
    | none =>
      .ok ⟨sorted TopicPartitionCount.topic source,
        ascending_of_firstDuplicate (sorted_ordered source) unique⟩

def empty : TopicPartitionCountSet := ⟨[], .nil⟩

def find (s : TopicPartitionCountSet) (topic : TopicName) : Option TopicPartitionCount :=
  Canonical.find TopicPartitionCount.topic s.entries topic

variable {s : TopicPartitionCountSet} {count : TopicPartitionCount}
  {source : List TopicPartitionCount}

theorem find_eq_some {topic : TopicName} :
    s.find topic = some count ↔ count ∈ s.entries ∧ count.topic = topic :=
  Canonical.find_eq_some s.ascending

theorem tryFromIter_eq_ok {limit : NonZeroUsize} :
    tryFromIter source limit = .ok s ↔ source.length ≤ limit.get ∧
      s.entries = sorted TopicPartitionCount.topic source := by
  unfold tryFromIter
  split_ifs with hm
  · exact ⟨nofun, fun ok => absurd ok.1 hm.not_ge⟩
  split
  · rename_i n duplicate
    refine ⟨nofun, fun ok => ?_⟩
    have asc := s.ascending
    rw [ok.2] at asc
    rw [asc.firstDuplicate_eq_none] at duplicate
    cases duplicate
  · constructor
    · rintro ⟨⟩
      exact ⟨Nat.le_of_not_lt hm, rfl⟩
    · rintro ⟨-, es⟩
      obtain ⟨_, _⟩ := s
      obtain rfl : _ = _ := es
      rfl

theorem mem_of_tryFromIter {limit : NonZeroUsize} (hb : tryFromIter source limit = .ok s) :
    count ∈ s.entries ↔ count ∈ source := by
  rw [(tryFromIter_eq_ok.1 hb).2]
  exact mem_sorted

end TopicPartitionCountSet

/-! ## Snapshots -/

/-- Why a snapshot is refused. -/
inductive MetadataSnapshotError where
  | unknownController (brokerId : BrokerId)
  | unknownPartitionLeader (brokerId : BrokerId) (partition : PartitionId)

/-- Cluster facts installed as one generation. -/
structure MetadataSnapshot where
  brokers : BrokerDirectory
  controller : Option BrokerRoute
  leaders : PartitionLeaderSet
  topicCounts : TopicPartitionCountSet
  controllerKnown : ∀ route ∈ controller, brokers.routeTo route.brokerId = some route
  leadersKnown : ∀ leader ∈ leaders.entries, (brokers.routeTo leader.brokerId).isSome

namespace BrokerDirectory

variable {d : BrokerDirectory} {e : BrokerDirectoryEntry}

theorem routeTo_brokerId {bid : BrokerId} {rt : BrokerRoute}
    (h : d.routeTo bid = some rt) : rt.brokerId = bid := by
  obtain ⟨_, -, rfl⟩ := map_eq_some_iff.1 h
  rfl

theorem find_eq_some {bid : BrokerId} : d.find bid = some e ↔ e ∈ d.entries ∧ e.brokerId = bid :=
  Canonical.find_eq_some d.ascending

/-- Every member is routed under the directory's generation and evidence. -/
theorem routeTo_of_mem (mem : e ∈ d.entries) :
    d.routeTo e.brokerId = some ⟨d.generation, e.brokerId, d.evidence⟩ := by
  rw [routeTo, find_eq_some.2 ⟨mem, rfl⟩]
  rfl

end BrokerDirectory

namespace MetadataSnapshot

/-- The route of the advertised controller. -/
def issueController (brokers : BrokerDirectory) :
    Option BrokerId → Except MetadataSnapshotError (Option BrokerRoute)
  | none => .ok none
  | some brokerId =>
    match brokers.routeTo brokerId with
    | none => .error (.unknownController brokerId)
    | some route => .ok (some route)

variable {brokers : BrokerDirectory} {controllerId : Option BrokerId} {leaders : PartitionLeaderSet}
  {topicCounts : TopicPartitionCountSet} {s : MetadataSnapshot} {partition : PartitionId}

theorem issueController_known {ctrl : Option BrokerRoute}
    (hi : issueController brokers controllerId = .ok ctrl) :
    ∀ rt ∈ ctrl, brokers.routeTo rt.brokerId = some rt := by
  intro rt mem
  unfold issueController at hi
  split at hi
  · cases hi
    cases mem
  split at hi
  · cases hi
  · rename_i bid route hk
    cases hi
    cases mem
    rwa [BrokerDirectory.routeTo_brokerId hk]

theorem issueController_brokerId {ctrl : Option BrokerRoute}
    (hi : issueController brokers controllerId = .ok ctrl) :
    controllerId = ctrl.map (·.brokerId) := by
  unfold issueController at hi
  split at hi
  · cases hi
    rfl
  split at hi
  · cases hi
  · rename_i hk
    cases hi
    rw [Option.map_some, BrokerDirectory.routeTo_brokerId hk]

/-- Check that brokers are known. -/
def tryWithTopicCounts (brokers : BrokerDirectory) (controllerId : Option BrokerId)
    (leaders : PartitionLeaderSet) (topicCounts : TopicPartitionCountSet) :
    Except MetadataSnapshotError MetadataSnapshot :=
  match issued : issueController brokers controllerId with
  | .error error => .error error
  | .ok controller =>
    match absent : leaders.entries.find? fun leader => (brokers.routeTo leader.brokerId).isNone with
    | some leader => .error (.unknownPartitionLeader leader.brokerId leader.partition)
    | none =>
      .ok ⟨brokers, controller, leaders, topicCounts, issueController_known issued,
        fun leader mem => by
          simpa [isSome_iff_ne_none] using List.find?_eq_none.1 absent leader mem⟩

theorem tryWithTopicCounts_eq_ok :
    tryWithTopicCounts brokers controllerId leaders topicCounts = .ok s ↔
      issueController brokers controllerId = .ok s.controller ∧
      s.brokers = brokers ∧ s.leaders = leaders ∧ s.topicCounts = topicCounts := by
  unfold tryWithTopicCounts
  split
  · rename_i err hi
    exact ⟨nofun, fun ok => nomatch hi.symm.trans ok.1⟩
  rename_i ctrl hi
  split
  · rename_i ld ha
    refine ⟨nofun, ?_⟩
    rintro ⟨-, rfl, rfl, -⟩
    have hk := s.leadersKnown ld (List.mem_of_find?_eq_some ha)
    have hu := List.find?_some ha
    simp_all [isSome_iff_ne_none]
  · constructor
    · rintro ⟨⟩
      exact ⟨hi, rfl, rfl, rfl⟩
    · rintro ⟨own, rfl, rfl, rfl⟩
      obtain rfl : ctrl = s.controller := Except.ok.inj (hi.symm.trans own)
      rfl

def generation (s : MetadataSnapshot) : MetadataGeneration := s.brokers.generation

section

variable (s) (topic : TopicName)

def controllerRoute : Option BrokerRoute := s.controller

/-- The route to the leader of a partition, under this snapshot's generation. -/
def partitionRoute (partition : PartitionId) : Option PartitionRoute :=
  (s.leaders.find topic partition).bind fun leader =>
    (s.brokers.routeTo leader.brokerId).map fun broker =>
      ⟨broker, leader.topic, leader.partition, leader.leaderEpoch, leader.revision,
        leader.evidence⟩

/-- Withdraw the controller. -/
def revokeController : MetadataSnapshot :=
  { s with
    controller := none
    controllerKnown := nofun }

/-- Withdraw a leader. -/
def revokePartition (partition : PartitionId) : MetadataSnapshot :=
  { s with
    leaders := s.leaders.remove topic partition
    leadersKnown := fun leader mem =>
      s.leadersKnown leader ((Canonical.remove_sublist _ _).subset mem) }

theorem revokePartition_leaders (part : PartitionId) :
    (s.revokePartition topic part).leaders = s.leaders.remove topic part := rfl

end

/-- A leader of the snapshot is routed. -/
theorem partitionRoute_eq_none {topic : TopicName} :
    s.partitionRoute topic partition = none ↔ s.leaders.find topic partition = none := by
  unfold partitionRoute
  cases found : s.leaders.find topic partition with
  | none => simp
  | some ld =>
    obtain ⟨broker, hk⟩ := isSome_iff_exists.1
      (s.leadersKnown ld (PartitionLeaderSet.find_eq_some.1 found).1)
    simp [hk]

theorem revokePartition_partitionRoute (s : MetadataSnapshot) (topic topic' : TopicName)
    (part partition' : PartitionId) :
    (s.revokePartition topic part).partitionRoute topic' partition' =
      if topic' = topic ∧ partition' = part then none
      else s.partitionRoute topic' partition' := by
  unfold partitionRoute
  rw [revokePartition_leaders, PartitionLeaderSet.find_remove]
  split_ifs <;> rfl

end MetadataSnapshot

end KafkaDriver
