import KafkaDriver.Negotiation
import KafkaDriver.SnapshotReplacement

/-!
# The driver's sets are finite maps

`PartitionLeaderSet`, `BrokerDirectory` and `TopicPartitionCountSet` put what they are given in
key order, so each is the finite map of its input, in whatever order it comes : `FiniteMap` says
so of a construction and its lookup, and `FiniteMap.of_sorted` is the one argument behind all
three. `NegotiatedCapabilities` takes its input in key order only, so that of all orders of an
input it accepts one (`canonical_sets`).
-/

namespace KafkaDriver

open Canonical List

/-! ## Finite maps -/

section FiniteMap

variable {α κ S ε : Type*} [LinearOrder κ]

/-- A set is built exactly of inputs `within` the limits with each key once, in any order, and
its lookup finds what a linear search of the input does. -/
structure FiniteMap (key : α → κ) (within : List α → Prop) (build : List α → Except ε S)
    (find : S → κ → Option α) : Prop where
  accepts : ∀ source, (∃ s, build source = .ok s) ↔ (source.map key).Nodup ∧ within source
  perm : ∀ source source' s, source.Perm source' → build source = .ok s → build source' = .ok s
  finds : ∀ source s, build source = .ok s → ∀ k, find s k = source.find? fun x => key x = k

variable {key : α → κ} {within : List α → Prop} {build : List α → Except ε S}
  {find : S → κ → Option α}

/-- A construction that puts its input in order is a finite map. -/
theorem FiniteMap.of_sorted (made : S → List α → Prop)
    (hb : ∀ source s, build source = .ok s ↔ made s (sorted key source) ∧ within source)
    (ha : ∀ s l, made s l → Ascending key l)
    (ho : ∀ l, Ascending key l → ∃ s, made s l)
    (hl : ∀ s l k, made s l → find s k = Canonical.find key l k)
    (perm : ∀ {source source'}, source.Perm source' → within source → within source') :
    FiniteMap key within build find := by
  have hu : ∀ {source s}, build source = .ok s → (source.map key).Nodup := fun h =>
    ascending_sorted.1 (ha _ _ ((hb _ _).1 h).1)
  refine ⟨fun source => ⟨?_, ?_⟩, fun source source' s hp h => ?_, fun source s h k => ?_⟩
  · rintro ⟨s, h⟩
    exact ⟨hu h, ((hb source s).1 h).2⟩
  · rintro ⟨hn, hf⟩
    obtain ⟨s, hs⟩ := ho _ (ascending_sorted.2 hn)
    exact ⟨s, (hb source s).2 ⟨hs, hf⟩⟩
  · obtain ⟨hs, hf⟩ := (hb source s).1 h
    have same : sorted key source' = sorted key source :=
      (ha _ _ hs).sorted_eq ((sorted_perm source).trans hp)
    exact (hb source' s).2 ⟨same ▸ hs, perm hp hf⟩
  · rw [hl s _ k ((hb source s).1 h).1]
    exact find_sorted (hu h) fun _ => decide_eq_true_iff

end FiniteMap

/-! ## The sets of a snapshot -/

namespace PartitionLeaderSet

theorem topics_perm {source source' : List PartitionLeader} (hp : source.Perm source') :
    topics source = topics source' := toFinset_eq_of_perm _ _ (hp.map _)

/-- The topics of an ordered set are those it was given. -/
theorem topicCount_sorted {s : PartitionLeaderSet} {source : List PartitionLeader}
    (es : s.entries = sorted PartitionLeader.key source) :
    topicCount s.entries = (topics source).card := by
  rw [topicCount_eq, es, topics_perm (sorted_perm source)]

theorem finiteMap (lim : PartitionLeaderLimits) :
    FiniteMap PartitionLeader.key
      (fun source => source.length ≤ lim.maxPartitions.get ∧
        (topics source).card ≤ lim.maxTopics.get)
      (tryFromIter · lim) fun s k => s.find (ofLex k).1 (ofLex k).2 := by
  refine .of_sorted (fun s l => s.entries = l) (fun source s => ?_)
    (fun s l es => es ▸ s.ascending) (fun l asc => ⟨⟨l, asc⟩, rfl⟩) (fun s l k es => es ▸ rfl)
    fun hp hf => ⟨hp.length_eq ▸ hf.1, ?_⟩
  · rw [tryFromIter_eq_ok, and_left_comm]
    exact and_congr_right fun es => by rw [topicCount_sorted es]
  · exact topics_perm hp ▸ hf.2

/-- A set without a partition is the one built without it. -/
theorem remove_eq {source : List PartitionLeader} {lim : PartitionLeaderLimits}
    {s : PartitionLeaderSet} (hb : tryFromIter source lim = .ok s) (topic : TopicName)
    (part : PartitionId) :
    tryFromIter (source.filter fun leader => leader.key ≠ toLex (topic, part)) lim =
      .ok (s.remove topic part) := by
  obtain ⟨few, es, topics⟩ := tryFromIter_eq_ok.1 hb
  have hu : (source.map PartitionLeader.key).Nodup :=
    (((finiteMap lim).accepts source).1 ⟨s, hb⟩).1
  have hr : (s.remove topic part).entries = sorted PartitionLeader.key
      (source.filter fun leader => leader.key ≠ toLex (topic, part)) :=
    (congrArg (Canonical.remove PartitionLeader.key · (toLex (topic, part))) es).trans
      (remove_sorted hu fun _ => decide_eq_true_iff)
  rw [topicCount_sorted es] at topics
  refine tryFromIter_eq_ok.2 ⟨(length_filter_le ..).trans few, hr, ?_⟩
  rw [topicCount_sorted hr]
  refine (Finset.card_le_card fun t mem => ?_).trans topics
  rw [PartitionLeaderSet.topics, mem_toFinset] at mem ⊢
  exact map_subset _ (filter_sublist.subset) mem

end PartitionLeaderSet

theorem TopicPartitionCountSet.finiteMap (limit : NonZeroUsize) :
    FiniteMap TopicPartitionCount.topic (fun source => source.length ≤ limit.get)
      (tryFromIter · limit) find :=
  .of_sorted (fun s l => s.entries = l)
    (fun _ _ => tryFromIter_eq_ok.trans and_comm) (fun s _ es => es ▸ s.ascending)
    (fun l asc => ⟨⟨l, asc⟩, rfl⟩) (fun _ _ _ es => es ▸ rfl) fun hp hf => hp.length_eq ▸ hf

namespace BrokerDirectory

theorem finiteMap (gen : MetadataGeneration) (ev : EvidenceStamp) (limit : NonZeroUsize) :
    FiniteMap BrokerDirectoryEntry.brokerId (fun source => source.length ≤ limit.get)
      (tryFromIterWithEvidence gen ev · limit) find :=
  .of_sorted (fun d l => d.generation = gen ∧ d.evidence = ev ∧ d.entries = l)
    (fun _ _ => tryFromIterWithEvidence_eq_ok.trans and_comm)
    (fun d _ made => made.2.2 ▸ d.ascending)
    (fun l asc => ⟨⟨gen, ev, l, asc⟩, rfl, rfl, rfl⟩)
    (fun _ _ _ made => made.2.2 ▸ rfl) fun hp hf => hp.length_eq ▸ hf

end BrokerDirectory

/-! ## Capabilities -/

namespace NegotiatedCapabilities

variable {c caps : NegotiatedCapabilities} {apis : List NegotiatedApi} {limit : ℕ}

theorem retain_len (h : c.retain limit apis = .ok caps) (hr : c.len ≤ limit) :
    caps.len ≤ limit := by
  induction apis generalizing c with
  | nil =>
    cases h
    exact hr
  | cons api apis ih =>
    unfold retain at h
    split at h
    all_goals
      split_ifs at h
      refine ih h ?_
      rw [len, push, length_append, length_singleton]
      exact Nat.lt_of_le_of_ne hr ‹¬ c.len = limit›

/-- Entries in key order are retained while there is room. -/
theorem exists_retain (asc : Ascending NegotiatedApi.apiKey (c.apis ++ apis))
    (hr : c.len + apis.length ≤ limit) : ∃ caps, c.retain limit apis = .ok caps := by
  induction apis generalizing c with
  | nil => exact ⟨c, rfl⟩
  | cons api apis ih =>
    rw [length_cons] at hr
    have hb : ∀ prev ∈ c.apis, prev.apiKey < api.apiKey := fun prev mem =>
      (pairwise_append.1 asc).2.2 prev mem api mem_cons_self
    have more : ∀ ha, ∃ caps, (c.push api ha).retain limit apis = .ok caps := by
      intro ha
      refine ih ?_ ?_
      · rw [push, append_assoc]
        exact asc
      · rw [len, push, length_append, length_singleton]
        rw [len] at hr
        omega
    unfold retain
    split
    · rename_i prev last
      rw [dif_pos (hb prev (mem_of_getLast? last)), if_neg (by omega)]
      exact more _
    · rw [if_neg (by omega)]
      exact more _

theorem tryFromIter_apis {cap : NonZeroUsize} (h : tryFromIter apis cap = .ok caps) :
    caps.apis = apis := retain_ok h

theorem tryFromIter_accepts (cap : NonZeroUsize) :
    (∃ caps, tryFromIter apis cap = .ok caps) ↔
      Ascending NegotiatedApi.apiKey apis ∧ apis.length ≤ cap.get := by
  constructor
  · rintro ⟨caps, h⟩
    have within := retain_len h (Nat.zero_le _)
    rw [len, tryFromIter_apis h] at within
    exact ⟨tryFromIter_apis h ▸ caps.ascending, within⟩
  · rintro ⟨asc, hr⟩
    exact exists_retain asc (by rwa [len, empty, length_nil, Nat.zero_add])

end NegotiatedCapabilities

/-! ## All four -/

/-- The sets of a snapshot are the finite maps of their inputs within the limits, in any order,
and a leader set without a partition is the one built without it. Capabilities are built exactly
of inputs in strict key order within the capacity, so that permuted inputs give one set, and
their lookup too finds what a linear search does. -/
theorem canonical_sets :
    (∀ limits : PartitionLeaderLimits, FiniteMap PartitionLeader.key
      (fun source => source.length ≤ limits.maxPartitions.get ∧
        (PartitionLeaderSet.topics source).card ≤ limits.maxTopics.get)
      (PartitionLeaderSet.tryFromIter · limits) fun s k => s.find (ofLex k).1 (ofLex k).2) ∧
    (∀ source limits s, PartitionLeaderSet.tryFromIter source limits = .ok s →
      ∀ topic partition, PartitionLeaderSet.tryFromIter
        (source.filter fun leader => leader.key ≠ toLex (topic, partition)) limits =
          .ok (s.remove topic partition)) ∧
    (∀ generation evidence (limit : NonZeroUsize), FiniteMap BrokerDirectoryEntry.brokerId
      (fun source => source.length ≤ limit.get)
      (BrokerDirectory.tryFromIterWithEvidence generation evidence · limit) BrokerDirectory.find) ∧
    (∀ limit : NonZeroUsize, FiniteMap TopicPartitionCount.topic
      (fun source => source.length ≤ limit.get)
      (TopicPartitionCountSet.tryFromIter · limit) TopicPartitionCountSet.find) ∧
    ∀ (capacity : NonZeroUsize) (source : List NegotiatedApi),
      ((∃ caps, NegotiatedCapabilities.tryFromIter source capacity = .ok caps) ↔
        source.Pairwise (fun a b => a.apiKey < b.apiKey) ∧ source.length ≤ capacity.get) ∧
      ∀ caps, NegotiatedCapabilities.tryFromIter source capacity = .ok caps →
        (source.map NegotiatedApi.apiKey).Nodup ∧
        (∀ source' caps', source.Perm source' →
          NegotiatedCapabilities.tryFromIter source' capacity = .ok caps' → caps' = caps) ∧
        ∀ key, caps.api key = source.find? fun api => api.apiKey = key := by
  refine ⟨PartitionLeaderSet.finiteMap, fun source limits s => PartitionLeaderSet.remove_eq,
    BrokerDirectory.finiteMap, TopicPartitionCountSet.finiteMap, fun capacity source =>
      ⟨NegotiatedCapabilities.tryFromIter_accepts capacity, fun caps h => ?_⟩⟩
  have hs := NegotiatedCapabilities.tryFromIter_apis h
  have asc : Ascending NegotiatedApi.apiKey source := hs ▸ caps.ascending
  refine ⟨asc.nodup_map, fun source' caps' hp h' => ?_, fun key => ?_⟩
  · have hs' := NegotiatedCapabilities.tryFromIter_apis h'
    have ha' : Ascending NegotiatedApi.apiKey source' := hs' ▸ caps'.ascending
    obtain ⟨apis, ha⟩ := caps
    obtain ⟨apis', has'⟩ := caps'
    obtain rfl : apis = source := hs
    obtain rfl : apis' = source' := hs'
    obtain rfl : apis' = apis := (ha'.sorted_eq (.refl _)).symm.trans (asc.sorted_eq hp)
    rfl
  · have hf := find_sorted asc.nodup_map (k := key) (p := fun api => api.apiKey = key)
      fun _ => decide_eq_true_iff
    rw [asc.sorted_eq (.refl _)] at hf
    exact hs ▸ hf

/-- Two APIs with different keys and room for both, given in the wrong order. -/
theorem descending_refused :
    let apis : List NegotiatedApi := [⟨⟨1⟩, ⟨0⟩, ⟨0⟩⟩, ⟨⟨0⟩, ⟨0⟩, ⟨0⟩⟩]
    (apis.map NegotiatedApi.apiKey).Nodup ∧ apis.length ≤ NonZeroUsize.two.get ∧
      ¬ ∃ caps, NegotiatedCapabilities.tryFromIter apis .two = .ok caps := by
  refine ⟨by decide, by decide, fun hb => ?_⟩
  have asc := ((NegotiatedCapabilities.tryFromIter_accepts _).1 hb).1
  exact absurd asc (by decide)

end KafkaDriver
