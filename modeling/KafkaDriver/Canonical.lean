import KafkaDriver.Search

/-!
# Lists kept in key order

A bounded index keeps its entries ordered by a key, each key once. It orders what it is
given (`sorted`), refuses two entries of one key (`firstDuplicate`), and from then on finds
and removes an entry by binary search. On an `Ascending` list the search finds exactly the
entry of the key.
-/

namespace Canonical

open List

variable {α κ : Type*} [LinearOrder κ] (key : α → κ)

/-- Keys strictly increase along the list. -/
def Ascending (l : List α) : Prop := l.Pairwise fun a b => key a < key b

instance (l : List α) : Decidable (Ascending key l) := by
  unfold Ascending
  infer_instance

/-- The entries in key order. -/
def sorted (l : List α) : List α := l.insertionSort fun a b => key a ≤ key b

/-- The first of two neighbours with one key. -/
def firstDuplicate : List α → Option α
  | a :: b :: rest => if key a = key b then some a else firstDuplicate (b :: rest)
  | _ => none

variable {key}

theorem sorted_perm (l : List α) : (sorted key l).Perm l := List.perm_insertionSort _ l

variable {l : List α} {x : α} {k : κ}

theorem mem_sorted : x ∈ sorted key l ↔ x ∈ l := (sorted_perm l).mem_iff

theorem sorted_ordered (l : List α) : (sorted key l).Pairwise fun a b => key a ≤ key b := by
  have : Std.Total fun a b : α => key a ≤ key b := ⟨fun a b => le_total (key a) (key b)⟩
  have : IsTrans α fun a b => key a ≤ key b := ⟨fun _ _ _ => le_trans⟩
  exact pairwise_insertionSort _ l

theorem ascending_of_firstDuplicate (ord : l.Pairwise fun a b => key a ≤ key b)
    (hu : firstDuplicate key l = none) : Ascending key l := by
  induction l with
  | nil => exact .nil
  | cons a rest ih =>
    obtain ⟨hle, ord⟩ := pairwise_cons.1 ord
    cases rest with
    | nil => exact pairwise_singleton _ _
    | cons b rest =>
      unfold firstDuplicate at hu
      split_ifs at hu with hs
      have hb : key a < key b := lt_of_le_of_ne (hle b mem_cons_self) hs
      refine pairwise_cons.2 ⟨fun c mem => ?_, ih ord hu⟩
      rcases mem_cons.1 mem with rfl | hl
      · exact hb
      · exact hb.trans_le ((pairwise_cons.1 ord).1 c hl)

theorem Ascending.sublist {l' : List α} (asc : Ascending key l) (sub : l'.Sublist l) :
    Ascending key l' :=
  List.Pairwise.sublist sub asc

/-- One key, one entry. -/
theorem Ascending.inj (asc : Ascending key l) {y : α} (hx : x ∈ l) (hy : y ∈ l)
    (hs : key x = key y) : x = y := by
  by_contra different
  have ha : l.Pairwise fun a b => key a ≠ key b := asc.imp fun h => h.ne
  have : Std.Symm fun a b : α => key a ≠ key b := ⟨fun _ _ h => Ne.symm h⟩
  exact ha.forall hx hy different hs

theorem Ascending.firstDuplicate_eq_none (asc : Ascending key l) :
    firstDuplicate key l = none := by
  induction l with
  | nil => rfl
  | cons a rest ih =>
    obtain ⟨hb, asc⟩ := pairwise_cons.1 asc
    cases rest with
    | nil => rfl
    | cons b rest =>
      rw [firstDuplicate, if_neg (hb b mem_cons_self).ne]
      exact ih asc

/-- However its entries are given, an ascending list is their order. -/
theorem Ascending.sorted_eq {l' : List α} (asc : Ascending key l) (perm : l.Perm l') :
    sorted key l' = l := by
  refine (List.Perm.eq_of_pairwise ?_ (asc.imp le_of_lt) (sorted_ordered l')
    (perm.trans (sorted_perm l').symm)).symm
  intro a b hi inside' ab ba
  exact asc.inj hi (perm.mem_iff.2 (mem_sorted.1 inside')) (le_antisymm ab ba)

variable (key)

/-- The entry under `k`. -/
def find (l : List α) (k : κ) : Option α := Search.findBy (fun x => compare (key x) k) l

/-- The list without the entry under `k`. -/
def remove (l : List α) (k : κ) : List α := Search.removeBy (fun x => compare (key x) k) l

variable {key}

theorem Ascending.searchable (asc : Ascending key l) (k : κ) :
    Search.Searchable (fun x => compare (key x) k) l := by
  refine asc.imp fun {a b} hb => ⟨fun hno => ?_, fun hn => ?_⟩
  · exact compare_lt_iff_lt.2 (hb.trans_le (compare_le_iff_le.1 hno))
  · exact compare_gt_iff_gt.2 ((compare_ge_iff_ge.1 hn).trans_lt hb)

theorem find_eq_some (asc : Ascending key l) : find key l k = some x ↔ x ∈ l ∧ key x = k := by
  unfold find
  rw [Search.findBy_eq_some (asc.searchable k), compare_eq_iff_eq]

theorem find_eq_none (asc : Ascending key l) : find key l k = none ↔ ∀ x ∈ l, key x ≠ k := by
  unfold find
  rw [Search.findBy_eq_none (asc.searchable k)]
  simp only [ne_eq, compare_eq_iff_eq]

theorem remove_sublist (l : List α) (k : κ) : (remove key l k).Sublist l :=
  Search.removeBy_sublist _ l

theorem mem_remove (asc : Ascending key l) : x ∈ remove key l k ↔ x ∈ l ∧ key x ≠ k := by
  unfold remove
  rw [Search.mem_removeBy (asc.searchable k), ne_eq, compare_eq_iff_eq]

/-- Removal forgets one key and leaves the others as they were. -/
theorem find_remove (asc : Ascending key l) (k j : κ) :
    find key (remove key l k) j = if j = k then none else find key l j := by
  have hk : Ascending key (remove key l k) := asc.sublist (remove_sublist l k)
  split_ifs with hs
  · rw [find_eq_none hk]
    intro x mem
    exact hs ▸ ((mem_remove asc).1 mem).2
  · ext x
    rw [find_eq_some hk, find_eq_some asc, mem_remove asc]
    constructor
    · rintro ⟨⟨mem, -⟩, at_j⟩
      exact ⟨mem, at_j⟩
    · rintro ⟨mem, rfl⟩
      exact ⟨⟨mem, hs⟩, rfl⟩

/-! ## Lists that were put in order -/

theorem Ascending.nodup_map (asc : Ascending key l) : (l.map key).Nodup :=
  pairwise_map.2 (asc.imp ne_of_lt)

theorem ascending_sorted : Ascending key (sorted key l) ↔ (l.map key).Nodup := by
  have perm : (sorted key l).Perm l := sorted_perm l
  constructor
  · exact fun asc => (perm.map key).nodup_iff.1 asc.nodup_map
  · intro hu
    have ha := pairwise_map.1 ((perm.map key).nodup_iff.2 hu)
    exact (sorted_ordered l).imp₂ (fun _ _ => lt_of_le_of_ne) ha

/-- The search finds what a linear search of the unordered list does. -/
theorem find_sorted (hu : (l.map key).Nodup) {p : α → Bool} (hp : ∀ x, p x ↔ key x = k) :
    find key (sorted key l) k = l.find? p := by
  have asc := ascending_sorted.2 hu
  cases found : l.find? p with
  | none =>
    rw [find_eq_none asc]
    intro x mem
    exact mt (hp x).2 (find?_eq_none.1 found x (mem_sorted.1 mem))
  | some x =>
    rw [find_eq_some asc]
    exact ⟨mem_sorted.2 (mem_of_find?_eq_some found), (hp x).1 (find?_some found)⟩

theorem remove_sorted (hu : (l.map key).Nodup) {p : α → Bool} (hp : ∀ x, p x ↔ key x ≠ k) :
    remove key (sorted key l) k = sorted key (l.filter p) := by
  have asc := ascending_sorted.2 hu
  have hk : Ascending key (remove key (sorted key l) k) := asc.sublist (remove_sublist _ k)
  refine (hk.sorted_eq ?_).symm
  refine (perm_ext_iff_of_nodup hk.nodup_map.of_map (hu.of_map.filter _)).2 fun x => ?_
  rw [mem_remove asc, mem_sorted, mem_filter, hp]

end Canonical
