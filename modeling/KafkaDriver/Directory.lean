import KafkaDriver.Bootstrap
import KafkaDriver.Canonical

/-!
# Causal stamps and the broker directory

Evidence the driver receives and outcomes it observes are stamped from one counter
(`CausalSequence`), so that a stamp tells which of the two came first.

A `BrokerDirectory` is the broker membership one metadata refresh reported, under a
generation and the stamp of its evidence. A `BrokerRoute` is drawn from a directory and
resolves only in a directory of the same generation and evidence.
-/

namespace KafkaDriver

open List

/-! ## Stamps -/

/-- When a refresh was sent. -/
structure EvidenceStamp where
  raw : ℕ
  deriving DecidableEq

instance : LinearOrder EvidenceStamp :=
  LinearOrder.lift' EvidenceStamp.raw fun a b h => by cases a; cases b; simp_all

/-- When an outcome was observed. -/
structure OutcomeStamp where
  raw : ℕ
  deriving DecidableEq

instance : LinearOrder OutcomeStamp :=
  LinearOrder.lift' OutcomeStamp.raw fun a b h => by cases a; cases b; simp_all

def EvidenceStamp.isAfter (evidence : EvidenceStamp) (outcome : OutcomeStamp) : Bool :=
  outcome.raw < evidence.raw

theorem EvidenceStamp.isAfter_of_le {ev : EvidenceStamp} {old later : OutcomeStamp}
    (post : ev.isAfter later) (le : old ≤ later) : ev.isAfter old := by
  simp only [isAfter, decide_eq_true_eq] at post ⊢
  exact lt_of_le_of_lt le post

/-- The one counter both kinds of stamp are drawn from. -/
structure CausalSequence where
  next : ℕ

namespace CausalSequence

def new : CausalSequence := ⟨1⟩

/-- The next value, absent once the counter is exhausted. -/
def reserve (c : CausalSequence) : Option (CausalSequence × ℕ) :=
  (checkedSucc c.next).map fun next => (⟨next⟩, c.next)

def outcome (c : CausalSequence) : Option (CausalSequence × OutcomeStamp) :=
  c.reserve.map fun (c, raw) => (c, ⟨raw⟩)

theorem outcome_eq_some {c c' : CausalSequence} {stamp : OutcomeStamp} :
    c.outcome = some (c', stamp) ↔ c.next < u64Max ∧ c' = ⟨c.next + 1⟩ ∧ stamp = ⟨c.next⟩ := by
  simp only [outcome, reserve, Option.map_map, Option.map_eq_some_iff, checkedSucc_eq_some]
  constructor
  · rintro ⟨next, ⟨hb, rfl⟩, hs⟩
    obtain ⟨rfl, rfl⟩ := Prod.mk.inj hs
    exact ⟨hb, rfl, rfl⟩
  · rintro ⟨hb, rfl, rfl⟩
    exact ⟨_, ⟨hb, rfl⟩, rfl⟩

theorem outcome_eq_none {c : CausalSequence} : c.outcome = none ↔ u64Max ≤ c.next := by
  rw [← not_lt, ← Option.not_isSome_iff_eq_none, Option.isSome_iff_exists]
  refine not_congr ⟨?_, fun hr => ⟨_, outcome_eq_some.2 ⟨hr, rfl, rfl⟩⟩⟩
  rintro ⟨⟨c', stamp⟩, hd⟩
  exact (outcome_eq_some.1 hd).1

end CausalSequence

/-! ## Directory -/

structure MetadataGeneration where
  raw : ℕ
  deriving DecidableEq

instance : LinearOrder MetadataGeneration :=
  LinearOrder.lift' MetadataGeneration.raw fun a b h => by cases a; cases b; simp_all

/-- A broker named by one generation of one evidence. -/
structure BrokerRoute where
  generation : MetadataGeneration
  brokerId : BrokerId
  evidence : EvidenceStamp
  deriving DecidableEq

structure BrokerDirectoryEntry where
  brokerId : BrokerId
  endpoint : BrokerEndpoint
  deriving DecidableEq

inductive BrokerDirectoryError where
  | capacity (limit : ℕ)
  | duplicateBroker (brokerId : BrokerId)

inductive BrokerRouteError where
  | staleGeneration (current routed : MetadataGeneration)
  | staleEvidence (current routed : EvidenceStamp)
  | unknownBroker (brokerId : BrokerId)

/-- Brokers of one generation, each once, ascending. -/
structure BrokerDirectory where
  generation : MetadataGeneration
  evidence : EvidenceStamp
  entries : List BrokerDirectoryEntry
  ascending : entries.Pairwise fun a b => a.brokerId < b.brokerId
  deriving DecidableEq

namespace BrokerDirectory

/-- The first broker that stands twice in an ordered list. -/
def firstDuplicate : List BrokerDirectoryEntry → Option BrokerId
  | a :: b :: rest =>
    if a.brokerId = b.brokerId then some a.brokerId else firstDuplicate (b :: rest)
  | _ => none

theorem firstDuplicate_eq (l : List BrokerDirectoryEntry) : firstDuplicate l =
    (Canonical.firstDuplicate BrokerDirectoryEntry.brokerId l).map (·.brokerId) := by
  induction l with
  | nil => rfl
  | cons a rest ih =>
    cases rest with
    | nil => rfl
    | cons b rest =>
      unfold firstDuplicate Canonical.firstDuplicate
      rw [ih]
      split_ifs <;> rfl

theorem ascending_of_firstDuplicate {l : List BrokerDirectoryEntry}
    (ord : l.Pairwise fun a b => a.brokerId ≤ b.brokerId) (hu : firstDuplicate l = none) :
    l.Pairwise fun a b => a.brokerId < b.brokerId :=
  Canonical.ascending_of_firstDuplicate ord (by simpa [firstDuplicate_eq] using hu)

/-- Order the entries of a refresh by broker. -/
def canonical (entries : List BrokerDirectoryEntry) : List BrokerDirectoryEntry :=
  entries.insertionSort fun a b => a.brokerId ≤ b.brokerId

theorem canonical_ordered (es : List BrokerDirectoryEntry) :
    (canonical es).Pairwise fun a b => a.brokerId ≤ b.brokerId :=
  Canonical.sorted_ordered es

def tryFromIterWithEvidence (generation : MetadataGeneration) (evidence : EvidenceStamp)
    (entries : List BrokerDirectoryEntry) (maxBrokers : NonZeroUsize) :
    Except BrokerDirectoryError BrokerDirectory :=
  if maxBrokers.get < entries.length then .error (.capacity maxBrokers.get)
  else
    match unique : firstDuplicate (canonical entries) with
    | some brokerId => .error (.duplicateBroker brokerId)
    | none =>
      .ok ⟨generation, evidence, canonical entries,
        ascending_of_firstDuplicate (canonical_ordered entries) unique⟩

theorem stamps_of_tryFromIter {gen : MetadataGeneration} {ev : EvidenceStamp}
    {es : List BrokerDirectoryEntry} {cap : NonZeroUsize} {d : BrokerDirectory}
    (hb : tryFromIterWithEvidence gen ev es cap = .ok d) :
    d.generation = gen ∧ d.evidence = ev := by
  unfold tryFromIterWithEvidence at hb
  split_ifs at hb
  split at hb
  · cases hb
  · cases hb
    exact ⟨rfl, rfl⟩

def len (d : BrokerDirectory) : ℕ := d.entries.length

def find (d : BrokerDirectory) (brokerId : BrokerId) : Option BrokerDirectoryEntry :=
  Search.findBy (fun e => compare e.brokerId brokerId) d.entries

def routeTo (d : BrokerDirectory) (brokerId : BrokerId) : Option BrokerRoute :=
  (d.find brokerId).map fun _ => ⟨d.generation, brokerId, d.evidence⟩

def resolve (d : BrokerDirectory) (route : BrokerRoute) :
    Except BrokerRouteError BrokerDirectoryEntry :=
  if route.generation ≠ d.generation then .error (.staleGeneration d.generation route.generation)
  else if route.evidence ≠ d.evidence then .error (.staleEvidence d.evidence route.evidence)
  else
    match d.find route.brokerId with
    | none => .error (.unknownBroker route.brokerId)
    | some entry => .ok entry

/-- A route resolves exactly where it was drawn from. -/
theorem resolve_eq_ok {d : BrokerDirectory} {rt : BrokerRoute} {entry : BrokerDirectoryEntry} :
    d.resolve rt = .ok entry ↔
      d.routeTo rt.brokerId = some rt ∧ d.find rt.brokerId = some entry := by
  obtain ⟨gen, bid, ev⟩ := rt
  unfold resolve routeTo
  by_cases g : gen = d.generation <;> by_cases e : ev = d.evidence <;>
    cases d.find bid <;> simp [g, e, Ne.symm]

end BrokerDirectory

end KafkaDriver
