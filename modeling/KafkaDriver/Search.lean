import Mathlib.Tactic

/-!
# Binary search in a sorted list

`binarySearchBy cmp l` halves the range `lo ≤ i < hi` of the positions it may still find,
as the binary search of a slice does. It answers a position at which `cmp` is `eq`. On a
list whose positions below a match compare `lt` and above it `gt` (`Searchable`), it finds
the match if there is one.
-/

namespace Search

open Option

variable {α : Type*}

/-- Search the positions from `lo` up to `hi`, halving at most `fuel` times. -/
def searchRange (cmp : α → Ordering) (l : List α) : ℕ → ℕ → ℕ → Option ℕ
  | 0, _, _ => none
  | fuel + 1, lo, hi =>
    if lo < hi then
      match l[lo + (hi - lo) / 2]? with
      | none => none
      | some x =>
        match cmp x with
        | .eq => some (lo + (hi - lo) / 2)
        | .lt => searchRange cmp l fuel (lo + (hi - lo) / 2 + 1) hi
        | .gt => searchRange cmp l fuel lo (lo + (hi - lo) / 2)
    else none

/-- The position of an element that compares `eq`. -/
def binarySearchBy (cmp : α → Ordering) (l : List α) : Option ℕ :=
  searchRange cmp l (l.length + 1) 0 l.length

/-- The element that compares `eq`. -/
def findBy (cmp : α → Ordering) (l : List α) : Option α :=
  (binarySearchBy cmp l).bind fun i => l[i]?

/-- `l` without the element that compares `eq`. -/
def removeBy (cmp : α → Ordering) (l : List α) : List α :=
  match binarySearchBy cmp l with
  | some i => l.eraseIdx i
  | none => l

/-- `cmp` goes from `lt` over `eq` to `gt` along the list, with one `eq` at most. -/
def Searchable (cmp : α → Ordering) (l : List α) : Prop :=
  l.Pairwise fun x y => (cmp y ≠ .gt → cmp x = .lt) ∧ (cmp x ≠ .lt → cmp y = .gt)

variable {cmp : α → Ordering} {l : List α}

theorem searchRange_sound {fuel lo hi i : ℕ} (h : searchRange cmp l fuel lo hi = some i) :
    ∃ x, l[i]? = some x ∧ cmp x = .eq := by
  induction fuel generalizing lo hi with
  | zero => simp [searchRange] at h
  | succ fuel ih =>
    unfold searchRange at h
    split_ifs at h with hlt
    cases hx : l[lo + (hi - lo) / 2]? with
    | none => simp [hx] at h
    | some x =>
      simp only [hx] at h
      cases hc : cmp x with
      | eq =>
        simp only [hc, some.injEq] at h
        exact ⟨x, h ▸ hx, hc⟩
      | lt | gt => exact ih (by simpa only [hc] using h)

theorem searchRange_complete (hs : Searchable cmp l) {i : ℕ} {x : α} (hx : l[i]? = some x)
    (hc : cmp x = .eq) :
    ∀ {fuel lo hi : ℕ}, lo ≤ i → i < hi → hi - lo < fuel → hi ≤ l.length →
      searchRange cmp l fuel lo hi = some i
  | 0, _, _, _, _, hf, _ => absurd hf (Nat.not_lt_zero _)
  | fuel + 1, lo, hi, hlo, hhi, hf, hle => by
    obtain ⟨hi', rfl⟩ := List.getElem?_eq_some_iff.1 hx
    have hm : lo + (hi - lo) / 2 < l.length := by omega
    unfold searchRange
    rw [if_pos (by omega), List.getElem?_eq_getElem hm]
    rcases Nat.lt_trichotomy i (lo + (hi - lo) / 2) with hlt | heq | hgt
    · have hgt : cmp l[lo + (hi - lo) / 2] = .gt :=
        (List.pairwise_iff_getElem.1 hs i _ hi' hm hlt).2 (by simp [hc])
      simp only [hgt]
      exact searchRange_complete hs hx hc hlo hlt (by omega) (by omega)
    · subst heq
      simp only [hc]
    · have hlt : cmp l[lo + (hi - lo) / 2] = .lt :=
        (List.pairwise_iff_getElem.1 hs _ i hm hi' hgt).1 (by simp [hc])
      simp only [hlt]
      exact searchRange_complete hs hx hc (by omega) hhi (by omega) hle

/-- The search answers the position of the element that compares `eq`. -/
theorem binarySearchBy_eq_some (hs : Searchable cmp l) {i : ℕ} :
    binarySearchBy cmp l = some i ↔ ∃ x, l[i]? = some x ∧ cmp x = .eq := by
  constructor
  · exact searchRange_sound
  · rintro ⟨x, hx, hc⟩
    have hi : i < l.length := (List.getElem?_eq_some_iff.1 hx).1
    exact searchRange_complete hs hx hc (Nat.zero_le _) hi (by omega) le_rfl

theorem findBy_eq_some (hs : Searchable cmp l) {x : α} :
    findBy cmp l = some x ↔ x ∈ l ∧ cmp x = .eq := by
  simp only [findBy, bind_eq_some_iff, binarySearchBy_eq_some hs]
  constructor
  · rintro ⟨i, ⟨y, hy, hc⟩, hx⟩
    obtain rfl := some.inj (hy.symm.trans hx)
    exact ⟨List.mem_of_getElem? hy, hc⟩
  · rintro ⟨hx, hc⟩
    obtain ⟨i, hi⟩ := List.mem_iff_getElem?.1 hx
    exact ⟨i, ⟨x, hi, hc⟩, hi⟩

theorem findBy_eq_none (hs : Searchable cmp l) : findBy cmp l = none ↔ ∀ x ∈ l, cmp x ≠ .eq := by
  rw [eq_none_iff_forall_not_mem]
  simp only [mem_def, findBy_eq_some hs]
  exact ⟨fun h x hx hc => h x ⟨hx, hc⟩, fun h x hx => h x hx.1 hx.2⟩

/-- Removal drops the element that compares `eq` and keeps every other one. -/
theorem mem_removeBy (hs : Searchable cmp l) {x : α} :
    x ∈ removeBy cmp l ↔ x ∈ l ∧ cmp x ≠ .eq := by
  unfold removeBy
  cases hb : binarySearchBy cmp l with
  | none =>
    have hn : ∀ y ∈ l, cmp y ≠ .eq := by
      rw [← findBy_eq_none hs, findBy, hb, bind_none]
    exact ⟨fun h => ⟨h, hn x h⟩, And.left⟩
  | some i =>
    obtain ⟨y, hy, hc⟩ := (binarySearchBy_eq_some hs).1 hb
    obtain ⟨hi, rfl⟩ := List.getElem?_eq_some_iff.1 hy
    rw [List.mem_eraseIdx_iff_getElem]
    constructor
    · rintro ⟨j, hj, hne, rfl⟩
      refine ⟨List.getElem_mem hj, fun heq => hne ?_⟩
      exact some.inj (((binarySearchBy_eq_some hs).2
        ⟨_, List.getElem?_eq_getElem hj, heq⟩).symm.trans hb)
    · rintro ⟨hx, hne⟩
      obtain ⟨j, hj, rfl⟩ := List.mem_iff_getElem.1 hx
      exact ⟨j, hj, by rintro rfl; exact hne hc, rfl⟩

theorem removeBy_sublist (cmp : α → Ordering) (l : List α) : List.Sublist (removeBy cmp l) l := by
  unfold removeBy
  split
  · exact List.eraseIdx_sublist ..
  · exact List.Sublist.refl l

end Search
