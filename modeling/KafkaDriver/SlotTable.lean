import KafkaDriver.OrdMap

/-!
# Dense tables with an index

A table keeps its elements in a dense list and, in a map, the position of the element of
each key. An element leaves by `swapOut`, which fills the hole with the last element and
corrects the position of the element it moved.

`Exact` says that the map holds the position of every element and nothing else. Under it
the pair is one finite map, read by `find`, and the operations are specified by what they
do to `find`.
-/

namespace SlotTable

open List Option OrdMap Prod

variable {κ α : Type*} [LinearOrder κ]

/-- Remove position `i` by moving the last element there. -/
def swapRemove (l : List α) (i : ℕ) : List α :=
  match l.getLast? with
  | none => []
  | some last => (l.set i last).dropLast

theorem getElem?_swapRemove (l : List α) {i : ℕ} (hi : i < l.length) (j : ℕ) :
    (swapRemove l i)[j]? =
      if j + 1 < l.length then if j = i then l[l.length - 1]? else l[j]? else none := by
  have hn : l ≠ [] := ne_nil_of_length_pos (by omega)
  unfold swapRemove
  rw [getLast?_eq_some_getLast hn]
  simp only [getElem?_dropLast, length_set, getElem?_set]
  by_cases within : j + 1 < l.length
  · have hb : j < l.length - 1 := by omega
    have last : l[l.length - 1]? = some (l.getLast hn) := by
      rw [← getLast?_eq_getElem?, getLast?_eq_some_getLast hn]
    by_cases same : j = i
    · subst same
      simp [within, hb, hi, last]
    · simp [within, hb, same, Ne.symm same]
  · have ha : ¬j < l.length - 1 := by omega
    simp [within, ha]

/-- Remove the element of key `k`, found at position `i`, from list and map. -/
def swapOut (key : α → κ) (l : List α) (m : OrdMap κ ℕ) (k : κ) (i : ℕ) :
    List α × OrdMap κ ℕ :=
  let rest := swapRemove l i
  match rest[i]? with
  | none => (rest, m.erase k)
  | some moved => (rest, (m.erase k).insert (key moved) i)

/-- Remove several elements, given by position and key, in order. -/
def swapOutAll (key : α → κ) (l : List α) (m : OrdMap κ ℕ) : List (ℕ × κ) → List α × OrdMap κ ℕ
  | [] => (l, m)
  | (i, k) :: rest => swapOutAll key (swapOut key l m k i).1 (swapOut key l m k i).2 rest

/-- Add elements at the end, in order. -/
def pushAll (key : α → κ) (l : List α) (m : OrdMap κ ℕ) : List α → List α × OrdMap κ ℕ
  | [] => (l, m)
  | x :: xs => pushAll key (l ++ [x]) (m.insert (key x) l.length) xs

/-- The element of key `k`. -/
def find (l : List α) (m : OrdMap κ ℕ) (k : κ) : Option α := (m.get k).bind (l[·]?)

/-- The map holds the position of every element by its key, and nothing else. -/
def Exact (key : α → κ) (l : List α) (m : OrdMap κ ℕ) : Prop :=
  ∀ k i, m.get k = some i ↔ ∃ x, l[i]? = some x ∧ key x = k

namespace Exact

variable {key : α → κ} {l : List α} {m : OrdMap κ ℕ} {k : κ} {i : ℕ}

theorem nil : Exact key [] .empty := by simp [Exact]

theorem lt_length (h : Exact key l m) (hg : m.get k = some i) : i < l.length := by
  obtain ⟨x, hf, -⟩ := (h k i).1 hg
  exact (List.getElem?_eq_some_iff.1 hf).1

/-- No two keys share a position. -/
theorem injective (h : Exact key l m) {k k' : κ} (hg : m.get k = some i) (hg' : m.get k' = some i) :
    k = k' := by
  obtain ⟨x, hf, rfl⟩ := (h k i).1 hg
  obtain ⟨y, hf', rfl⟩ := (h k' i).1 hg'
  rw [some.inj (hf.symm.trans hf')]

variable {x : α}

theorem find_eq_some (h : Exact key l m) : find l m k = some x ↔ x ∈ l ∧ key x = k := by
  unfold find
  rw [bind_eq_some_iff, mem_iff_getElem?]
  constructor
  · rintro ⟨i, hg, hf⟩
    obtain ⟨y, hf', hs⟩ := (h k i).1 hg
    obtain rfl : x = y := some.inj (hf.symm.trans hf')
    exact ⟨⟨i, hf⟩, hs⟩
  · rintro ⟨⟨i, hf⟩, hs⟩
    exact ⟨i, (h k i).2 ⟨x, hf, hs⟩, hf⟩

theorem find_eq_none (h : Exact key l m) : find l m k = none ↔ m.get k = none := by
  constructor
  · intro ha
    by_contra hg
    obtain ⟨i, hg⟩ := ne_none_iff_exists'.1 hg
    obtain ⟨x, hf, -⟩ := (h k i).1 hg
    simp [find, hg, hf] at ha
  · intro ha
    simp [find, ha]

/-- Two tables with the same elements read alike. -/
theorem find_congr {l' : List α} {m' : OrdMap κ ℕ} (h : Exact key l m) (h' : Exact key l' m')
    (hs : ∀ x, key x = k → (x ∈ l' ↔ x ∈ l)) : find l' m' k = find l m k := by
  refine ext fun x => ?_
  rw [h.find_eq_some, h'.find_eq_some]
  exact and_congr_left fun hk => hs x hk

/-- The positions that hold an element of key `k` : the indexed one, if any. -/
theorem positions_eq (h : Exact key l m) (k : κ) :
    (l.zipIdx.filter fun e => key e.1 = k).map snd = (m.get k).toList := by
  have members : ∀ i, i ∈ (l.zipIdx.filter fun e => key e.1 = k).map snd ↔
      i ∈ (m.get k).toList := by
    intro i
    rw [mem_toList, h k i]
    simp [mem_zipIdx_iff_getElem?]
  have hn : ((l.zipIdx.filter fun e => key e.1 = k).map snd).Nodup := by
    have hi : (l.zipIdx.map snd).Nodup := by
      rw [zipIdx_map_snd]
      exact nodup_range'
    exact hi.sublist (filter_sublist.map _)
  have hs : (m.get k).toList.Nodup := by cases m.get k <;> simp
  have perm := (perm_ext_iff_of_nodup hn hs).2 members
  cases found : m.get k with
  | none =>
    rw [found] at perm
    exact perm_nil.1 perm
  | some i =>
    rw [found] at perm
    exact perm_singleton.1 perm

/-! ### Changing an element in place -/

theorem modify (h : Exact key l m) {f : α → α} (hs : ∀ x, l[i]? = some x → key (f x) = key x) :
    Exact key (l.modify i f) m := by
  intro k j
  rw [h k j, getElem?_modify]
  by_cases position : i = j
  · subst position
    cases found : l[i]? with
    | none => simp
    | some x => simp [hs x found]
  · simp [position]

theorem find_modify (l : List α) (m : OrdMap κ ℕ) (i : ℕ) (f : α → α) (k : κ) :
    find (l.modify i f) m k =
      if m.get k = some i then (find l m k).map f else find l m k := by
  unfold find
  cases found : m.get k with
  | none => simp
  | some j =>
    simp only [bind_some, getElem?_modify, some.injEq]
    by_cases position : i = j
    · simp [position]
    · simp [position, Ne.symm position]

/-! ### Adding an element -/

theorem push (h : Exact key l m) (hfr : m.get (key x) = none) :
    Exact key (l ++ [x]) (m.insert (key x) l.length) := by
  intro k i
  rw [get_insert, List.getElem?_append]
  by_cases same : k = key x
  · subst same
    rw [if_pos rfl]
    constructor
    · rintro ⟨⟩
      exact ⟨x, by simp, rfl⟩
    · rintro ⟨y, hf, hk⟩
      split_ifs at hf with hi
      · exact absurd ((h (key x) i).2 ⟨y, hf, hk⟩) (by simp [hfr])
      · obtain ⟨position, -⟩ := List.getElem?_eq_some_iff.1 hf
        rw [List.length_singleton] at position
        exact congrArg some (by omega)
  · rw [if_neg same, h k i]
    refine exists_congr fun y => and_congr_left fun hk => ?_
    split_ifs with hi
    · rfl
    have ne : y ≠ x := fun eq => same (by rw [← hk, eq])
    rw [List.getElem?_eq_none (not_lt.1 hi)]
    constructor
    · intro hf
      cases hf
    · intro hf
      exact absurd (List.mem_singleton.1 (List.mem_of_getElem? hf)) ne

theorem get_push (l : List α) (m : OrdMap κ ℕ) (x : α) (k : κ) :
    ((m.insert (key x) l.length).get k).isSome ↔ k = key x ∨ (m.get k).isSome := by
  rw [get_insert]
  split_ifs with hs <;> simp [hs]

theorem find_push (h : Exact key l m) (hf : m.get (key x) = none) (k : κ) :
    find (l ++ [x]) (m.insert (key x) l.length) k =
      if k = key x then some x else find l m k := by
  split_ifs with hs
  · rw [(h.push hf).find_eq_some]
    simp [hs]
  · refine h.find_congr (h.push hf) fun y hk => ?_
    have ne : y ≠ x := fun eq => hs (by rw [← hk, eq])
    simp [ne]

/-! ### Adding several elements -/

theorem pushAll (xs : List α) (h : Exact key l m) (hn : (xs.map key).Nodup)
    (hf : ∀ x ∈ xs, m.get (key x) = none) :
    Exact key (SlotTable.pushAll key l m xs).1 (SlotTable.pushAll key l m xs).2 := by
  induction xs generalizing l m with
  | nil => exact h
  | cons x xs ih =>
    obtain ⟨ha, hn⟩ := nodup_cons.1 hn
    refine ih (h.push (hf x mem_cons_self)) hn fun y mem => ?_
    have ne : key y ≠ key x := fun hs => ha (hs ▸ mem_map_of_mem mem)
    rw [get_insert, if_neg ne]
    exact hf y (mem_cons_of_mem x mem)

theorem get_pushAll (xs : List α) (l : List α) (m : OrdMap κ ℕ) (k : κ) :
    ((SlotTable.pushAll key l m xs).2.get k).isSome ↔ k ∈ xs.map key ∨ (m.get k).isSome := by
  induction xs generalizing l m with
  | nil => simp [SlotTable.pushAll]
  | cons x xs ih =>
    rw [SlotTable.pushAll, ih, get_push, map_cons, mem_cons]
    tauto

theorem pushAll_fst (xs : List α) (l : List α) (m : OrdMap κ ℕ) :
    (SlotTable.pushAll key l m xs).1 = l ++ xs := by
  induction xs generalizing l m with
  | nil => simp [SlotTable.pushAll]
  | cons x xs ih => simp [SlotTable.pushAll, ih]

theorem find_pushAll (xs : List α) (h : Exact key l m) (hn : (xs.map key).Nodup)
    (hf : ∀ x ∈ xs, m.get (key x) = none) :
    find (SlotTable.pushAll key l m xs).1 (SlotTable.pushAll key l m xs).2 k = some x ↔
      x ∈ xs ∧ key x = k ∨ find l m k = some x := by
  rw [(h.pushAll xs hn hf).find_eq_some, pushAll_fst, mem_append, h.find_eq_some]
  tauto

/-! ### Replacing an element by one of another key -/

theorem replace (h : Exact key l m) {old : κ} (hg : m.get old = some i)
    (hfr : m.get (key x) = none) : Exact key (l.set i x) ((m.erase old).insert (key x) i) := by
  have hi := h.lt_length hg
  intro k j
  rw [get_insert, get_erase, getElem?_set]
  by_cases position : i = j
  · subst position
    rw [if_pos rfl, if_pos hi]
    by_cases same : k = key x
    · simp [same]
    rw [if_neg same]
    constructor
    · intro hf
      split_ifs at hf with gone
      exact absurd (h.injective hf hg) gone
    · rintro ⟨y, ⟨⟩, rfl⟩
      exact absurd rfl same
  · rw [if_neg position]
    by_cases same : k = key x
    · subst same
      rw [if_pos rfl]
      constructor
      · rintro ⟨⟩
        exact absurd rfl position
      · intro hf
        exact absurd ((h _ _).2 hf) (by simp [hfr])
    · rw [if_neg same, ← h k j]
      split_ifs with gone
      · subst gone
        simp [hg, position]
      · rfl

theorem find_replace (h : Exact key l m) {old : κ} (hg : m.get old = some i) (x : α) (k : κ) :
    find (l.set i x) ((m.erase old).insert (key x) i) k =
      if k = key x then some x else if k = old then none else find l m k := by
  have hi := h.lt_length hg
  unfold find
  rw [get_insert, get_erase]
  split_ifs with hs gone
  · simp [hi]
  · rfl
  cases found : m.get k with
  | none => rfl
  | some j =>
    have ha : i ≠ j := by
      rintro rfl
      exact gone (h.injective found hg)
    simp [getElem?_set, ha]

/-! ### Removing an element -/

/-- What `swapOut` leaves of the map : the key is gone, the element that was last has the
freed position and the others keep theirs. -/
theorem get_swapOut (h : Exact key l m) (hg : m.get k = some i) (k' : κ) :
    (swapOut key l m k i).2.get k' =
      if k' = k then none
      else if m.get k' = some (l.length - 1) then some i else m.get k' := by
  have hi := h.lt_length hg
  have hm := getElem?_swapRemove l hi i
  unfold swapOut
  by_cases last : i + 1 < l.length
  · rw [if_pos last, if_pos rfl] at hm
    obtain ⟨y, hf⟩ : ∃ y, l[l.length - 1]? = some y :=
      ⟨_, getElem?_eq_getElem (by omega)⟩
    have position : m.get (key y) = some (l.length - 1) := (h _ _).2 ⟨y, hf, rfl⟩
    have ne : key y ≠ k := by
      intro hs
      rw [hs, hg] at position
      exact absurd (some.inj position) (by omega)
    simp only [hm, hf, get_insert, get_erase]
    by_cases hs : k' = key y
    · subst hs
      simp [ne, position]
    · have ha : m.get k' ≠ some (l.length - 1) := fun eq => hs (h.injective eq position)
      simp [hs, ha]
  · rw [if_neg last] at hm
    obtain rfl : i = l.length - 1 := by omega
    simp only [hm, get_erase]
    by_cases hs : k' = k
    · simp [hs]
    · have ha : m.get k' ≠ some (l.length - 1) := fun eq => hs (h.injective eq hg)
      simp [hs, ha]

theorem swapOut_fst (l : List α) (m : OrdMap κ ℕ) (k : κ) (i : ℕ) :
    (SlotTable.swapOut key l m k i).1 = swapRemove l i := by
  unfold SlotTable.swapOut
  dsimp only
  split <;> rfl

theorem swapOut (h : Exact key l m) (hg : m.get k = some i) :
    Exact key (SlotTable.swapOut key l m k i).1 (SlotTable.swapOut key l m k i).2 := by
  have hi := h.lt_length hg
  intro k' j
  -- positions of `k'` in the shortened list, read off the old map
  have hp : (∃ x, (swapRemove l i)[j]? = some x ∧ key x = k') ↔
      j + 1 < l.length ∧ (j = i ∧ m.get k' = some (l.length - 1) ∨ j ≠ i ∧ m.get k' = some j) := by
    rw [h k' (l.length - 1), h k' j, getElem?_swapRemove l hi]
    by_cases within : j + 1 < l.length
    · by_cases position : j = i
      · subst position
        simp [within]
      · simp [within, position]
    · simp [within]
  rw [swapOut_fst, hp, h.get_swapOut hg]
  by_cases same : k' = k
  · subst same
    simp only [if_pos, hg, some.injEq, reduceCtorEq, false_iff]
    omega
  · rw [if_neg same]
    cases found : m.get k' with
    | none => simp
    | some p =>
      have hb := h.lt_length found
      have ha : p ≠ i := by
        rintro rfl
        exact same (h.injective found hg)
      simp only [some.injEq]
      split_ifs <;> simp only [some.injEq] <;> omega

theorem find_swapOut (h : Exact key l m) (hg : m.get k = some i) (k' : κ) :
    find (SlotTable.swapOut key l m k i).1 (SlotTable.swapOut key l m k i).2 k' =
      if k' = k then none else find l m k' := by
  have hi := h.lt_length hg
  unfold find
  rw [h.get_swapOut hg, swapOut_fst]
  split_ifs with hs last
  · rfl
  · have ha : i ≠ l.length - 1 := by
      rintro rfl
      exact hs (h.injective last hg)
    simp only [bind_some, last, getElem?_swapRemove l hi, if_pos]
    rw [if_pos (by omega)]
  · cases found : m.get k' with
    | none => rfl
    | some p =>
      have hbo := h.lt_length found
      have ha : p ≠ i := by
        rintro rfl
        exact hs (h.injective found hg)
      have hb : p + 1 < l.length := by
        have : p ≠ l.length - 1 := fun eq => last (by rw [found, eq])
        omega
      simp [getElem?_swapRemove l hi, hb, ha]

/-- An element before the freed position keeps its own. -/
theorem get_swapOut_of_lt (h : Exact key l m) (hg : m.get k = some i) {k' : κ} {j : ℕ}
    (hf : m.get k' = some j) (pre : j < i) :
    (SlotTable.swapOut key l m k i).2.get k' = some j := by
  have hi := h.lt_length hg
  have ne : k' ≠ k := by
    rintro rfl
    exact absurd (some.inj (hg.symm.trans hf)) (by omega)
  have hn : m.get k' ≠ some (l.length - 1) := by
    rw [hf]
    exact fun eq => absurd (some.inj eq) (by omega)
  rw [h.get_swapOut hg, if_neg ne, if_neg hn, hf]

/-- Positions given from the highest down stay right while the elements leave. -/
theorem swapOutAll (out : List (ℕ × κ)) (h : Exact key l m) (hd : out.Pairwise fun a b => b.1 < a.1)
    (hg : ∀ e ∈ out, m.get e.2 = some e.1) :
    Exact key (SlotTable.swapOutAll key l m out).1 (SlotTable.swapOutAll key l m out).2 ∧
      ∀ k, find (SlotTable.swapOutAll key l m out).1 (SlotTable.swapOutAll key l m out).2 k =
        if k ∈ out.map snd then none else find l m k := by
  induction out generalizing l m with
  | nil => exact ⟨h, fun k => by simp [SlotTable.swapOutAll]⟩
  | cons e out ih =>
    obtain ⟨i, k⟩ := e
    obtain ⟨hb, hd⟩ := pairwise_cons.1 hd
    have first : m.get k = some i := hg (i, k) mem_cons_self
    have hl : ∀ e ∈ out, (SlotTable.swapOut key l m k i).2.get e.2 = some e.1 := fun e mem =>
      h.get_swapOut_of_lt first (hg e (mem_cons_of_mem _ mem)) (hb e mem)
    obtain ⟨exact, hf⟩ := ih (h.swapOut first) hd hl
    refine ⟨exact, fun k' => (hf k').trans ?_⟩
    rw [h.find_swapOut first, map_cons]
    by_cases gone : k' ∈ out.map snd
    · simp [gone]
    · simp [gone]

end Exact

end SlotTable
