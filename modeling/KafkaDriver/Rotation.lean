import Mathlib.Data.List.Rotate

/-!
# Rounds over a list

The positions of a list are visited in cyclic order. What was visited since some position, while
no position came twice, is a `Turn` : a prefix of a rotation of the list. A turn as long as the
list visited every position exactly once.
-/

namespace Rotation

open List

variable {α : Type*} {l xs : List α} {x : α} {next : ℕ}

/-- `xs` stands in cyclic order in `l`, no position twice, and `next` is the position after it. -/
def Turn (l : List α) (next : ℕ) (xs : List α) : Prop :=
  ∃ k, xs <+: l.rotate k ∧ (k + xs.length) % l.length = next % l.length

theorem Turn.nil (l : List α) (next : ℕ) : Turn l next [] := ⟨next, nil_prefix, rfl⟩

theorem Turn.concat (turn : Turn l next xs) (hr : xs.length < l.length)
    (here : l[next % l.length]? = some x) : Turn l (next + 1) (xs ++ [x]) := by
  obtain ⟨k, ⟨rest, split⟩, ends⟩ := turn
  refine ⟨k, ?_, ?_⟩
  · have first : rest[0]? = some x := by
      rw [← here, ← ends, Nat.add_comm k, ← getElem?_rotate hr, ← split,
        getElem?_append_right le_rfl, Nat.sub_self]
    obtain ⟨rest, rfl⟩ : ∃ rest', rest = x :: rest' := by
      cases rest with
      | nil => cases first
      | cons y rest => exact ⟨rest, by simpa using first⟩
    exact ⟨rest, by simpa using split⟩
  · rw [length_append, length_singleton, ← Nat.add_assoc, Nat.add_mod, ends, ← Nat.add_mod]

theorem Turn.mod (turn : Turn l next xs) : Turn l (next % l.length) xs := by
  obtain ⟨k, piece, ends⟩ := turn
  exact ⟨k, piece, by rw [ends, Nat.mod_mod]⟩

theorem Turn.nodup (turn : Turn l next xs) (hn : l.Nodup) : xs.Nodup := by
  obtain ⟨k, piece, -⟩ := turn
  exact (nodup_rotate.2 hn).sublist piece.sublist

/-- A turn as long as the list is a rotation of it. -/
theorem Turn.whole (turn : Turn l next xs) (hl : xs.length = l.length) : xs = l.rotate next := by
  obtain ⟨k, piece, ends⟩ := turn
  rw [piece.eq_of_length (by rw [hl, length_rotate]), ← rotate_mod l next, ← ends, hl,
    Nat.add_mod_right, rotate_mod]

end Rotation
