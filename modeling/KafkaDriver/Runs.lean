import Mathlib.Data.List.Induction

/-!
# Runs of a machine that answers its inputs

A machine is a function `step` from a state and an input to the next state and an
answer. `final` is the state after a list of inputs and `trace` the list of the steps
taken, each with the state it was taken in. A statement about every point of a run is one
about every list of inputs, since each prefix of such a list is one.

By `run_induction`, what holds before the first input and is kept by one further step holds of
every run. The step may use the run so far, so an invariant can speak of what was asked and
answered.
-/

namespace Runs

open List

/-! ## Histories -/

section Histories

variable {α : Type*} {l before between : List α} {x y : α}

/-- The last element of a split list is the split element, or comes after it. -/
theorem concat_eq_append_cons :
    l ++ [x] = before ++ y :: between ↔
      (before = l ∧ y = x ∧ between = []) ∨
        ∃ rest, between = rest ++ [x] ∧ l = before ++ y :: rest := by
  constructor
  · intro split
    rcases eq_nil_or_concat between with rfl | ⟨rest, last, rfl⟩
    · obtain ⟨hs, last⟩ := append_inj' split rfl
      exact .inl ⟨hs.symm, (singleton_inj.1 last).symm, rfl⟩
    · rw [concat_eq_append, ← cons_append, ← append_assoc] at split
      obtain ⟨hs, last⟩ := append_inj' split rfl
      exact .inr ⟨rest, by rw [concat_eq_append, singleton_inj.1 last], hs⟩
  · rintro (⟨rfl, rfl, rfl⟩ | ⟨rest, rfl, rfl⟩) <;> simp

/-- `P` held of some element and those before it, and of none since did `Q`. -/
def Since (P : List α → α → Prop) (Q : α → Prop) (l : List α) : Prop :=
  ∃ before x between, l = before ++ x :: between ∧ P before x ∧ ∀ y ∈ between, ¬ Q y

variable {P : List α → α → Prop}

theorem since_concat {Q : α → Prop} : Since P Q (l ++ [x]) ↔ P l x ∨ Since P Q l ∧ ¬ Q x := by
  constructor
  · rintro ⟨pre, y, between, split, hg, hq⟩
    rcases concat_eq_append_cons.1 split with ⟨rfl, rfl, rfl⟩ | ⟨rest, rfl, rfl⟩
    · exact .inl hg
    · exact .inr ⟨⟨pre, y, rest, rfl, hg, fun z mem => hq z (by simp [mem])⟩, hq x (by simp)⟩
  · rintro (hg | ⟨⟨pre, y, between, rfl, hg, hq⟩, hc⟩)
    · exact ⟨l, x, [], rfl, hg, by simp⟩
    · refine ⟨pre, y, between ++ [x], by simp, hg, fun z mem => ?_⟩
      rcases mem_append.1 mem with old | new
      · exact hq z old
      · rw [mem_singleton.1 new]
        exact hc

/-- `P` held of some element and those before it. -/
def Happened (P : List α → α → Prop) (l : List α) : Prop :=
  ∃ before x after, l = before ++ x :: after ∧ P before x

theorem Happened.concat (hh : Happened P l) (x : α) : Happened P (l ++ [x]) := by
  obtain ⟨pre, y, post, rfl, hg⟩ := hh
  exact ⟨pre, y, post ++ [x], by simp, hg⟩

theorem Happened.last (hg : P l x) : Happened P (l ++ [x]) :=
  ⟨l, x, [], rfl, hg⟩

/-- What holds at every position of a list holds of every way to split it. -/
theorem forall_splits (hp : ∀ n, ∀ hi : n < l.length, P (l.take n) l[n]) :
    ∀ before x between, l = before ++ x :: between → P before x := by
  rintro before x between rfl
  simpa using hp before.length (by simp)

end Histories

/-! ## Runs -/

variable {σ ι ο : Type*}

/-- One step of a run. -/
structure Event (σ ι ο : Type*) where
  before : σ
  input : ι
  after : σ
  answer : ο

/-- The step `step` takes in state `s` on input `i`. -/
def event (step : σ → ι → σ × ο) (s : σ) (i : ι) : Event σ ι ο :=
  ⟨s, i, (step s i).1, (step s i).2⟩

/-- The state after the inputs `is`. -/
def final (step : σ → ι → σ × ο) : σ → List ι → σ
  | s, [] => s
  | s, i :: is => final step (step s i).1 is

/-- The steps taken on the inputs `is`, in order. -/
def trace (step : σ → ι → σ × ο) : σ → List ι → List (Event σ ι ο)
  | _, [] => []
  | s, i :: is => event step s i :: trace step (step s i).1 is

variable (step : σ → ι → σ × ο)

variable (s : σ) (is : List ι)

theorem final_append (js : List ι) : final step s (is ++ js) = final step (final step s is) js := by
  induction is generalizing s with
  | nil => rfl
  | cons i is ih => exact ih (step s i).1

theorem trace_append (js : List ι) :
    trace step s (is ++ js) = trace step s is ++ trace step (final step s is) js := by
  induction is generalizing s with
  | nil => rfl
  | cons i is ih =>
    simp only [cons_append, trace, final, ih]

theorem final_concat (i : ι) : final step s (is ++ [i]) = (step (final step s is) i).1 :=
  final_append step s is [i]

theorem trace_concat (i : ι) :
    trace step s (is ++ [i]) = trace step s is ++ [event step (final step s is) i] :=
  trace_append step s is [i]

theorem map_input_trace : (trace step s is).map (·.input) = is := by
  induction is generalizing s with
  | nil => rfl
  | cons i is ih => exact congrArg (i :: ·) (ih (step s i).1)

variable {s : σ} {is : List ι} {e : Event σ ι ο} {past rest : List (Event σ ι ο)}

theorem input_mem (mem : e ∈ trace step s is) : e.input ∈ is := by
  induction is generalizing s with
  | nil => cases mem
  | cons i is ih =>
    rcases mem_cons.1 mem with rfl | hl
    · exact mem_cons_self
    · exact mem_cons_of_mem _ (ih hl)

/-- The steps before one step of a run are a run, and it is taken in the state they reach. -/
theorem of_trace_eq_append_cons (split : trace step s is = past ++ e :: rest) :
    ∃ js i, past = trace step s js ∧ e = event step (final step s js) i := by
  induction past generalizing s is with
  | nil =>
    cases is with
    | nil => cases split
    | cons i is => exact ⟨[], i, rfl, (cons.inj split).1.symm⟩
  | cons p past ih =>
    cases is with
    | nil => cases split
    | cons i is =>
      obtain ⟨rfl, tail⟩ := cons.inj split
      obtain ⟨js, j, rfl, rfl⟩ := ih tail
      exact ⟨i :: js, j, rfl, rfl⟩

/-- Every step of a run is taken in a state that some run reaches. -/
theorem of_mem_trace (mem : e ∈ trace step s is) : ∃ js i, e = event step (final step s js) i := by
  obtain ⟨past, rest, split⟩ := append_of_mem mem
  obtain ⟨js, i, -, eq⟩ := of_trace_eq_append_cons step split
  exact ⟨js, i, eq⟩

/-- A step of a run with one more input is the last one or one of the steps before. -/
theorem of_trace_concat_eq {i : ι} (split : trace step s (is ++ [i]) = past ++ e :: rest) :
    past = trace step s is ∧ e = event step (final step s is) i ∨ e ∈ trace step s is := by
  rw [trace_concat] at split
  rcases concat_eq_append_cons.1 split with ⟨rfl, rfl, -⟩ | ⟨rest, -, pre⟩
  · exact .inl ⟨rfl, rfl⟩
  · exact .inr (by simp [pre])

/-- What holds of the empty run and is kept by one more step holds of every run. -/
theorem run_induction {P : List ι → List (Event σ ι ο) → σ → Prop} (start : P [] [] s)
    (more : ∀ is i, P is (trace step s is) (final step s is) →
      P (is ++ [i]) (trace step s is ++ [event step (final step s is) i])
        (step (final step s is) i).1)
    (is : List ι) : P is (trace step s is) (final step s is) := by
  induction is using reverseRecOn with
  | nil => exact start
  | append_singleton is i ih =>
    rw [trace_concat, final_concat]
    exact more is i ih

/-- An invariant of the step holds in the last state of every run. -/
theorem final_invariant {I : σ → Prop} (hk : ∀ s i, I s → I (step s i).1) (start : I s)
    (is : List ι) : I (final step s is) :=
  run_induction step (P := fun _ _ s => I s) start (fun _ i h => hk _ i h) is

end Runs
