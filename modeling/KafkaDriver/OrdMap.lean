import Mathlib.Tactic

/-!
# Ordered maps

`OrdMap κ ν` is a finite map kept as a list of entries, strictly ascending by key, the
sorted content of a B-tree map. Lookup decides a map (`OrdMap.ext_get`), so that an
operation is specified by what it does to lookups, and counting goes through the list of
keys, which has no repetition.
-/

/-- A finite map as its entries in ascending key order. -/
structure OrdMap (κ ν : Type*) [LinearOrder κ] where
  entries : List (κ × ν)
  sorted : entries.Pairwise fun a b => a.1 < b.1

namespace OrdMap

open List

variable {κ ν : Type*} [LinearOrder κ]

instance [DecidableEq ν] : DecidableEq (OrdMap κ ν) := fun a b =>
  decidable_of_iff (a.entries = b.entries) (by cases a; cases b; simp)

/-! ## Operations -/

def empty : OrdMap κ ν := ⟨[], List.Pairwise.nil⟩

instance : Inhabited (OrdMap κ ν) := ⟨empty⟩

variable (m : OrdMap κ ν) (k : κ)

def get : Option ν := (m.entries.find? fun e => e.1 = k).map Prod.snd

def keys : List κ := m.entries.map Prod.fst

def size : ℕ := m.entries.length

/-- The entry with the least key. -/
def first : Option (κ × ν) := m.entries.head?

/-- The entry with the greatest key. -/
def last : Option (κ × ν) := m.entries.getLast?

/-- The least entry whose key is above `k`. -/
def next : Option (κ × ν) := m.entries.find? fun e => k < e.1

/-- Insert into an ascending list, replacing the entry of an equal key. -/
def insertEntry (k : κ) (v : ν) : List (κ × ν) → List (κ × ν)
  | [] => [(k, v)]
  | e :: rest =>
    if k < e.1 then (k, v) :: e :: rest
    else if e.1 < k then e :: insertEntry k v rest
    else (k, v) :: rest

variable {k : κ} {v : ν} {e : κ × ν} {l after pre : List (κ × ν)} {m m' : OrdMap κ ν}

theorem mem_insertEntry (h : e ∈ insertEntry k v l) : e = (k, v) ∨ e ∈ l := by
  induction l with
  | nil => exact .inl (mem_singleton.1 h)
  | cons a rest ih =>
    unfold insertEntry at h
    split_ifs at h
    · exact mem_cons.1 h
    · rcases mem_cons.1 h with rfl | h
      · exact .inr mem_cons_self
      · exact (ih h).imp_right (mem_cons_of_mem _)
    · rcases mem_cons.1 h with rfl | h
      · exact .inl rfl
      · exact .inr (mem_cons_of_mem _ h)

theorem sorted_insertEntry (k : κ) (v : ν) (h : l.Pairwise fun a b => a.1 < b.1) :
    (insertEntry k v l).Pairwise fun a b => a.1 < b.1 := by
  induction l with
  | nil => exact pairwise_singleton _ _
  | cons a rest ih =>
    obtain ⟨first, hl⟩ := pairwise_cons.1 h
    unfold insertEntry
    split_ifs with hb ha
    · refine pairwise_cons.2 ⟨?_, h⟩
      intro e he
      rcases mem_cons.1 he with rfl | he
      · exact hb
      · exact hb.trans (first e he)
    · refine pairwise_cons.2 ⟨?_, ih hl⟩
      intro e he
      rcases mem_insertEntry he with rfl | he
      · exact ha
      · exact first e he
    · obtain rfl : k = a.1 := le_antisymm (not_lt.1 ha) (not_lt.1 hb)
      exact pairwise_cons.2 ⟨first, hl⟩

section

variable (m)

def insert (k : κ) (v : ν) : OrdMap κ ν :=
  ⟨insertEntry k v m.entries, sorted_insertEntry k v m.sorted⟩

def erase (k : κ) : OrdMap κ ν :=
  ⟨m.entries.filter fun e => e.1 ≠ k, m.sorted.filter _⟩

/-- Change every value in place. -/
def map {μ : Type*} (f : κ → ν → μ) (m : OrdMap κ ν) : OrdMap κ μ :=
  ⟨m.entries.map fun e => (e.1, f e.1 e.2), pairwise_map.2 m.sorted⟩

/-- Keep the entries `p` accepts. -/
def filter (p : κ → ν → Bool) (m : OrdMap κ ν) : OrdMap κ ν :=
  ⟨m.entries.filter fun e => p e.1 e.2, m.sorted.filter _⟩

/-- Change the value of `k`, if there is one. -/
def adjust (k : κ) (f : ν → ν) : OrdMap κ ν :=
  match m.get k with
  | none => m
  | some v => m.insert k (f v)

/-! ## Lookup -/

theorem nodup_keys : m.keys.Nodup :=
  pairwise_map.2 (m.sorted.imp fun h => h.ne)

theorem nodup_entries : m.entries.Nodup := m.nodup_keys.of_map _

end

theorem get_eq_some : m.get k = some v ↔ (k, v) ∈ m.entries := by
  unfold get
  constructor
  · intro h
    obtain ⟨⟨k', v'⟩, hf, rfl⟩ := Option.map_eq_some_iff.1 h
    obtain rfl : k' = k := by simpa using find?_some hf
    exact mem_of_find?_eq_some hf
  · intro h
    cases hf : m.entries.find? fun e => decide (e.1 = k) with
    | none => exact absurd (find?_eq_none.1 hf _ h) (by simp)
    | some e =>
      have mem := mem_of_find?_eq_some hf
      have hs : e.1 = k := by simpa using find?_some hf
      by_contra hne
      have : Std.Symm fun a b : κ × ν => a.1 ≠ b.1 := ⟨fun _ _ => Ne.symm⟩
      refine (m.sorted.imp fun h => h.ne).forall mem h ?_ hs
      rintro rfl
      exact hne rfl

theorem get_eq_none : m.get k = none ↔ k ∉ m.keys := by
  rw [Option.eq_none_iff_forall_ne_some]
  constructor
  · intro h mem
    obtain ⟨⟨k', v⟩, he, rfl⟩ := mem_map.1 mem
    exact h v (get_eq_some.2 he)
  · intro h v hv
    exact h (mem_map_of_mem (get_eq_some.1 hv))

theorem mem_keys : k ∈ m.keys ↔ ∃ v, m.get k = some v := by
  rw [← not_iff_not, ← get_eq_none, Option.eq_none_iff_forall_ne_some]
  simp

@[simp]
theorem get_empty (k : κ) : (empty : OrdMap κ ν).get k = none := rfl

/-- An ascending list after an insertion : the new entry and the old ones of other keys. -/
theorem mem_insertEntry_iff (h : l.Pairwise fun a b => a.1 < b.1) :
    e ∈ insertEntry k v l ↔ e = (k, v) ∨ e ∈ l ∧ e.1 ≠ k := by
  induction l with
  | nil => simp [insertEntry]
  | cons a rest ih =>
    obtain ⟨first, hl⟩ := pairwise_cons.1 h
    unfold insertEntry
    split_ifs with hb ha
    · have hap : ∀ e ∈ a :: rest, e.1 ≠ k := by
        intro e he
        rcases mem_cons.1 he with rfl | he
        · exact hb.ne'
        · exact (hb.trans (first e he)).ne'
      rw [mem_cons]
      exact or_congr_right ⟨fun he => ⟨he, hap e he⟩, And.left⟩
    · rw [mem_cons, ih hl, mem_cons]
      constructor
      · rintro (rfl | rfl | ⟨he, hne⟩)
        · exact .inr ⟨.inl rfl, ha.ne⟩
        · exact .inl rfl
        · exact .inr ⟨.inr he, hne⟩
      · rintro (rfl | ⟨rfl | he, hne⟩)
        · exact .inr (.inl rfl)
        · exact .inl rfl
        · exact .inr (.inr ⟨he, hne⟩)
    · obtain rfl : k = a.1 := le_antisymm (not_lt.1 ha) (not_lt.1 hb)
      rw [mem_cons, mem_cons]
      constructor
      · rintro (rfl | he)
        · exact .inl rfl
        · exact .inr ⟨.inr he, (first e he).ne'⟩
      · rintro (rfl | ⟨rfl | he, hne⟩)
        · exact .inl rfl
        · exact absurd rfl hne
        · exact .inr he

@[simp]
theorem get_insert (m : OrdMap κ ν) (k k' : κ) (v : ν) :
    (m.insert k v).get k' = if k' = k then some v else m.get k' := by
  ext u
  rw [get_eq_some, insert, mem_insertEntry_iff m.sorted]
  split_ifs with hs
  · simp [hs, eq_comm]
  · simp [hs, get_eq_some]

@[simp]
theorem get_erase (m : OrdMap κ ν) (k k' : κ) :
    (m.erase k).get k' = if k' = k then none else m.get k' := by
  ext u
  rw [get_eq_some, erase, mem_filter]
  split_ifs with hs
  · simp [hs]
  · simp [hs, get_eq_some]

theorem of_get_erase {k' : κ} (h : (m.erase k).get k' = some v) : m.get k' = some v := by
  rw [get_erase] at h
  split_ifs at h
  exact h

@[simp]
theorem get_map {μ : Type*} (f : κ → ν → μ) (m : OrdMap κ ν) (k : κ) :
    (m.map f).get k = (m.get k).map (f k) := by
  ext u
  rw [get_eq_some, map, mem_map, Option.map_eq_some_iff]
  constructor
  · rintro ⟨⟨k', v⟩, mem, hs⟩
    obtain ⟨rfl, rfl⟩ := Prod.mk.inj hs
    exact ⟨v, get_eq_some.2 mem, rfl⟩
  · rintro ⟨v, hf, rfl⟩
    exact ⟨(k, v), get_eq_some.1 hf, rfl⟩

@[simp]
theorem get_filter (p : κ → ν → Bool) (m : OrdMap κ ν) (k : κ) :
    (m.filter p).get k = (m.get k).filter (p k) := by
  ext u
  rw [get_eq_some, filter, mem_filter, ← get_eq_some, Option.filter_eq_some_iff]

@[simp]
theorem get_adjust (m : OrdMap κ ν) (k k' : κ) (f : ν → ν) :
    (m.adjust k f).get k' = if k' = k then (m.get k').map f else m.get k' := by
  unfold adjust
  cases found : m.get k with
  | none =>
    split_ifs with hs
    · simp [hs, found]
    · rfl
  | some v =>
    rw [get_insert]
    split_ifs with hs
    · simp [hs, found]
    · rfl

/-- Set several entries, in order. -/
def insertAll (m : OrdMap κ ν) (l : List (κ × ν)) : OrdMap κ ν :=
  l.foldl (fun m e => m.insert e.1 e.2) m

theorem get_insertAll_of_not_mem (ne : k ∉ l.map Prod.fst) (m : OrdMap κ ν) :
    (m.insertAll l).get k = m.get k := by
  induction l generalizing m with
  | nil => rfl
  | cons e l ih =>
    rw [map_cons, mem_cons, not_or] at ne
    refine (ih ne.2 _).trans ?_
    rw [get_insert, if_neg ne.1]

theorem get_insertAll_of_mem (hn : (l.map Prod.fst).Nodup) (mem : (k, v) ∈ l) (m : OrdMap κ ν) :
    (m.insertAll l).get k = some v := by
  induction l generalizing m with
  | nil => cases mem
  | cons e l ih =>
    obtain ⟨hf, hn⟩ := nodup_cons.1 hn
    rcases mem_cons.1 mem with rfl | hl
    · refine (get_insertAll_of_not_mem hf _).trans ?_
      rw [get_insert, if_pos rfl]
    · exact ih hn hl _

/-- Maps with the same lookups are equal. -/
theorem ext_get (h : ∀ k, m.get k = m'.get k) : m = m' := by
  have members : ∀ e, e ∈ m.entries ↔ e ∈ m'.entries := by
    rintro ⟨k, v⟩
    rw [← get_eq_some, ← get_eq_some, h k]
  have perm : m.entries.Perm m'.entries :=
    (perm_ext_iff_of_nodup m.nodup_entries m'.nodup_entries).2 members
  have he : m.entries = m'.entries :=
    perm.eq_of_pairwise (fun a b _ _ hab hba => absurd hab hba.asymm) m.sorted m'.sorted
  cases m
  cases m'
  simpa using he

/-- What was under the keys that are set does not matter. -/
theorem insertAll_congr (hn : (l.map Prod.fst).Nodup)
    (hs : ∀ k ∉ l.map Prod.fst, m.get k = m'.get k) : m.insertAll l = m'.insertAll l := by
  refine ext_get fun k => ?_
  by_cases mem : k ∈ l.map Prod.fst
  · obtain ⟨e, hl, rfl⟩ := mem_map.1 mem
    rw [get_insertAll_of_mem hn hl, get_insertAll_of_mem hn hl]
  · rw [get_insertAll_of_not_mem mem, get_insertAll_of_not_mem mem, hs k mem]

theorem insert_insert (m : OrdMap κ ν) (k : κ) (v w : ν) :
    (m.insert k v).insert k w = m.insert k w := by
  refine ext_get fun k' => ?_
  simp only [get_insert]
  split_ifs <;> rfl

theorem insert_of_get (hg : m.get k = some v) : m.insert k v = m := by
  refine ext_get fun k' => ?_
  rw [get_insert]
  split_ifs with hs
  · rw [hs, hg]
  · rfl

/-! ## Counting -/

theorem size_eq_length_keys (m : OrdMap κ ν) : m.size = m.keys.length := by
  simp [size, keys]

theorem keys_insert_perm (v : ν) (hf : m.get k = none) :
    (m.insert k v).keys.Perm (k :: m.keys) := by
  refine (perm_ext_iff_of_nodup (nodup_keys _)
    (nodup_cons.2 ⟨get_eq_none.1 hf, m.nodup_keys⟩)).2 fun k' => ?_
  rw [mem_keys, mem_cons, mem_keys, get_insert]
  split_ifs with hs <;> simp [hs]

theorem keys_erase_perm (h : k ∈ m.keys) : m.keys.Perm (k :: (m.erase k).keys) := by
  have hg : k ∉ (m.erase k).keys := by
    rw [mem_keys, get_erase]
    simp
  refine (perm_ext_iff_of_nodup m.nodup_keys (nodup_cons.2 ⟨hg, nodup_keys _⟩)).2 fun k' => ?_
  rw [mem_cons, mem_keys (m := m.erase k), get_erase]
  by_cases same : k' = k
  · simp [same, h]
  · simp [same, mem_keys]

theorem size_insert (v : ν) (hf : m.get k = none) : (m.insert k v).size = m.size + 1 := by
  rw [size_eq_length_keys, (keys_insert_perm v hf).length_eq, length_cons, size_eq_length_keys]

theorem size_erase (h : k ∈ m.keys) : m.size = (m.erase k).size + 1 := by
  rw [size_eq_length_keys, (keys_erase_perm h).length_eq, length_cons, size_eq_length_keys]

theorem erase_of_not_mem (h : k ∉ m.keys) : m.erase k = m := by
  refine ext_get fun k' => ?_
  rw [get_erase]
  split_ifs with hs
  · rw [hs, get_eq_none.2 h]
  · rfl

/-! ## Extremes -/

/-- A key above all others goes to the end. -/
theorem entries_insert_of_lt (v : ν) (ha : ∀ k' ∈ m.keys, k' < k) :
    (m.insert k v).entries = m.entries ++ [(k, v)] := by
  change insertEntry k v m.entries = m.entries ++ [(k, v)]
  unfold keys at ha
  revert ha
  generalize m.entries = entries
  intro ha
  induction entries with
  | nil => rfl
  | cons e rest ih =>
    have hb : e.1 < k := ha e.1 mem_cons_self
    rw [insertEntry, if_neg hb.asymm, if_pos hb, ih fun k' mem => ha k' (mem_cons_of_mem _ mem)]
    rfl

/-- Erasing the least key leaves the entries behind it. -/
theorem entries_of_first (hl : m.first = some (k, v)) :
    m.entries = (k, v) :: (m.erase k).entries := by
  obtain ⟨rest, es⟩ := head?_eq_some_iff.1 hl
  have hs := m.sorted
  rw [es, pairwise_cons] at hs
  have ho : rest.filter (fun e => e.1 ≠ k) = rest :=
    filter_eq_self.2 fun e mem => by simpa using (hs.1 e mem).ne'
  change m.entries = (k, v) :: m.entries.filter fun e => e.1 ≠ k
  rw [es, filter_cons_of_neg (by simp), ho]

/-- Erasing the greatest key leaves the entries before it. -/
theorem entries_of_last (hg : m.last = some (k, v)) :
    m.entries = (m.erase k).entries ++ [(k, v)] := by
  obtain ⟨rest, es⟩ := getLast?_eq_some_iff.1 hg
  have hs := m.sorted
  rw [es, pairwise_append] at hs
  have ho : rest.filter (fun e => e.1 ≠ k) = rest :=
    filter_eq_self.2 fun e mem => by
      simpa using (hs.2.2 e mem (k, v) mem_cons_self).ne
  change m.entries = (m.entries.filter fun e => e.1 ≠ k) ++ [(k, v)]
  rw [es, filter_append, ho]
  simp

theorem first_eq_none : m.first = none ↔ m = empty := by
  cases m
  simp [first, empty]

theorem first_eq_some : m.first = some (k, v) ↔ m.get k = some v ∧ ∀ k' ∈ m.keys, k ≤ k' := by
  constructor
  · intro h
    obtain ⟨rest, es⟩ := head?_eq_some_iff.1 h
    have hso := m.sorted
    rw [es, pairwise_cons] at hso
    refine ⟨get_eq_some.2 (by simp [es]), fun k' hk' => ?_⟩
    rw [keys, es, map_cons, mem_cons] at hk'
    rcases hk' with rfl | hk'
    · exact le_rfl
    · obtain ⟨e, he, rfl⟩ := mem_map.1 hk'
      exact (hso.1 e he).le
  · rintro ⟨hf, hle⟩
    cases h : m.first with
    | none =>
      rw [first_eq_none.1 h] at hf
      cases hf
    | some e =>
      obtain ⟨rest, es⟩ := head?_eq_some_iff.1 h
      have mem : (k, v) ∈ e :: rest := es ▸ get_eq_some.1 hf
      rcases mem_cons.1 mem with hs | hl
      · rw [hs]
      have hso := m.sorted
      rw [es, pairwise_cons] at hso
      have hb := hso.1 _ hl
      have ha := hle e.1 (by simp [keys, es])
      exact absurd hb (not_lt.2 ha)

/-! ## Ranges -/

/-- The entries up to a key come before the others. -/
theorem entries_eq_filter_append (m : OrdMap κ ν) (k : κ) :
    m.entries = m.entries.filter (fun e => e.1 ≤ k) ++ m.entries.filter (fun e => k < e.1) := by
  have hs := m.sorted
  generalize m.entries = entries at hs ⊢
  induction entries with
  | nil => rfl
  | cons e rest ih =>
    rw [pairwise_cons] at hs
    by_cases low : e.1 ≤ k
    · rw [filter_cons_of_pos (by simpa using low),
        filter_cons_of_neg (by simpa using low), cons_append, ← ih hs.2]
    have hh : ∀ x ∈ rest, k < x.1 := fun x mem =>
      (not_le.1 low).trans (hs.1 x mem)
    rw [filter_cons_of_neg (by simpa using low), filter_cons_of_pos (by simpa using not_le.1 low),
      filter_eq_nil_iff.2 fun x mem => by simpa using hh x mem,
      filter_eq_self.2 fun x mem => by simpa using hh x mem, nil_append]

/-- An entry is above those before it and below those behind it. -/
theorem bounds_of_split (split : m.entries = pre ++ e :: after) :
    (∀ x ∈ pre, x.1 < e.1) ∧ ∀ x ∈ after, e.1 < x.1 := by
  have hs := m.sorted
  rw [split, pairwise_append, pairwise_cons] at hs
  obtain ⟨-, ⟨ha, -⟩, hb⟩ := hs
  exact ⟨fun x mem => hb x mem e mem_cons_self, ha⟩

theorem entries_erase_of_split (split : m.entries = pre ++ e :: after) :
    (m.erase e.1).entries = pre ++ after := by
  obtain ⟨hb, ha⟩ := bounds_of_split split
  change m.entries.filter (fun x => x.1 ≠ e.1) = pre ++ after
  rw [split, filter_append, filter_cons_of_neg (by simp),
    filter_eq_self.2 fun x mem => by simpa using (hb x mem).ne,
    filter_eq_self.2 fun x mem => by simpa using (ha x mem).ne']

theorem filter_append_of_bounds (low : ∀ x ∈ pre, x.1 ≤ k) (hh : ∀ x ∈ after, k < x.1) :
    (pre ++ after).filter (fun e => k < e.1) = after ∧
      (pre ++ after).filter (fun e => e.1 ≤ k) = pre := by
  constructor
  · rw [filter_append, filter_eq_nil_iff.2 fun x mem => by simpa using low x mem,
      filter_eq_self.2 fun x mem => by simpa using hh x mem, nil_append]
  · rw [filter_append, filter_eq_self.2 fun x mem => by simpa using low x mem,
      filter_eq_nil_iff.2 fun x mem => by simpa using hh x mem, append_nil]

/-- The next entry above a key is the first of those above it. -/
theorem next_eq_head? (m : OrdMap κ ν) (k : κ) :
    m.next k = (m.entries.filter fun e => k < e.1).head? := by
  rw [next, head?_filter]

/-! ## Entries as a collection -/

variable {τ : Type*}

theorem entries_insert_perm (m : OrdMap κ ν) (k : κ) (v : ν) :
    (m.insert k v).entries.Perm ((k, v) :: (m.erase k).entries) := by
  have hf : (k, v) ∉ (m.erase k).entries := by simp [erase]
  refine (perm_ext_iff_of_nodup (nodup_entries _)
    (nodup_cons.2 ⟨hf, nodup_entries _⟩)).2 fun e => ?_
  rw [insert, mem_insertEntry_iff m.sorted, mem_cons]
  simp [erase]

theorem entries_perm_of_get (hg : m.get k = some v) :
    m.entries.Perm ((k, v) :: (m.erase k).entries) := by
  have hm := m.entries_insert_perm k v
  rwa [insert_of_get hg] at hm

/-- Keys that list nothing can be left out. -/
theorem flatMap_filter_nonempty (m : OrdMap κ ν) (f : ν → List τ) :
    (m.entries.flatMap fun e => f e.2) =
      ((m.map fun _ v => f v).filter fun _ l => !l.isEmpty).entries.flatMap Prod.snd := by
  simp only [filter, map]
  induction m.entries with
  | nil => rfl
  | cons e l ih =>
    cases listed : f e.2 with
    | nil | cons x xs => simp [listed, ih]

/-- What a map lists depends only on what each key lists. -/
theorem flatMap_congr_get {f : ν → List τ}
    (hs : ∀ k, ((m.get k).map f).getD [] = ((m'.get k).map f).getD []) :
    (m.entries.flatMap fun e => f e.2) = m'.entries.flatMap fun e => f e.2 := by
  have ha : ((m.map fun _ v => f v).filter fun _ l => !l.isEmpty) =
      (m'.map fun _ v => f v).filter fun _ l => !l.isEmpty := by
    refine ext_get fun k => ?_
    have here := hs k
    rw [get_filter, get_map, get_filter, get_map]
    cases left : m.get k with
    | none =>
      cases right : m'.get k with
      | none => rfl
      | some w =>
        have hn : f w = [] := by simpa [left, right] using here.symm
        rw [Option.map_some, hn]
        rfl
    | some v =>
      cases right : m'.get k with
      | none =>
        have hn : f v = [] := by simpa [left, right] using here
        simp [hn]
      | some w =>
        have both : f v = f w := by simpa [left, right] using here
        simp [both]
  rw [flatMap_filter_nonempty, flatMap_filter_nonempty, ha]

end OrdMap
