import Mathlib.Logic.Relation
import Mathlib.Tactic

/-!
# Operations that may fail

An `EStateM ε σ α` is an operation on a state `σ` that answers an `α` or fails with an
`ε`, and leaves a state behind in both cases. `wp x Q E s` says how it ends when it starts in
`s` : in a state that satisfies `Q` with the answer, or `E` with the error. The rules are
equivalences, so that `simp` carries a postcondition backwards through the text of an
operation; a call is passed by `wp_mono` from what is known of the callee.

`Moves` describes an operation by the steps it is made of : one relation for what leads to
an answer and a weaker one for what may come before a failure.
-/

namespace Fallible

open List

universe u

/-! ## Answers -/

section Answers

variable {ε ε' α β : Type u}

variable {x : Except ε α} {f : α → Except ε β} {b : β} {l : List α} {r : List β}

theorem bind_eq_ok : (x >>= f) = .ok b ↔ ∃ a, x = .ok a ∧ f a = .ok b := by
  cases x <;> simp [bind, Except.bind]

theorem mapError_eq_ok {f : ε → ε'} {a : α} : x.mapError f = .ok a ↔ x = .ok a := by
  cases x <;> simp [Except.mapError]

theorem map_eq_ok {f : α → β} : f <$> x = .ok b ↔ ∃ a, x = .ok a ∧ f a = b := by
  cases x <;> simp [Functor.map, Except.map]

/-- A list of questions is answered one by one. -/
theorem mapM_eq_ok : l.mapM f = .ok r ↔ List.Forall₂ (fun a b => f a = .ok b) l r := by
  induction l generalizing r with
  | nil =>
    rw [mapM_nil, forall₂_nil_left_iff]
    exact ⟨fun run => (Except.ok.inj run).symm, fun empty => empty ▸ rfl⟩
  | cons a l ih =>
    rw [mapM_cons, bind_eq_ok, forall₂_cons_left_iff]
    simp only [bind_eq_ok, ih]
    constructor
    · rintro ⟨first, ha, rest, hl, ans⟩
      exact ⟨first, rest, ha, hl, (Except.ok.inj ans).symm⟩
    · rintro ⟨first, rest, ha, hl, rfl⟩
      exact ⟨first, ha, rest, hl, rfl⟩

theorem exists_mem_of_forall₂ {R : α → β → Prop} (h : List.Forall₂ R l r) {a : α} (mem : a ∈ l) :
    ∃ b ∈ r, R a b := by
  induction h with
  | nil => cases mem
  | cons ha _ ih =>
    rcases mem_cons.1 mem with rfl | hl
    · exact ⟨_, mem_cons_self, ha⟩
    · obtain ⟨b, member', ha'⟩ := ih hl
      exact ⟨b, mem_cons_of_mem _ member', ha'⟩

/-- Every question of a list that was answered has its answer in the list of answers. -/
theorem mem_mapM_of_mem (run : l.mapM f = .ok r) {a : α} (mem : a ∈ l) : ∃ b ∈ r, f a = .ok b :=
  exists_mem_of_forall₂ (mapM_eq_ok.1 run) mem

/-- Every answer of a list of questions answers one of them. -/
theorem mem_of_mapM_eq_ok (run : l.mapM f = .ok r) (mem : b ∈ r) : ∃ a ∈ l, f a = .ok b :=
  exists_mem_of_forall₂ (mapM_eq_ok.1 run).flip mem

/-- Answers that are a function of their question. -/
theorem eq_map_of_mapM {g : α → β} (run : l.mapM f = .ok r) (ans : ∀ a b, f a = .ok b → b = g a) :
    r = l.map g := by
  have ha := mapM_eq_ok.1 run
  clear run
  induction ha with
  | nil => rfl
  | cons had _ ih => rw [map_cons, ← ans _ _ had, ih]

/-- Asked in another order, the questions get the same answers in that order. -/
theorem mapM_perm {l' : List α} (perm : l.Perm l') (run : l.mapM f = .ok r) :
    ∃ r', l'.mapM f = .ok r' ∧ r.Perm r' := by
  obtain ⟨r', ans, hs⟩ := perm_comp_forall₂ perm.symm (mapM_eq_ok.1 run)
  exact ⟨r', mapM_eq_ok.2 ans, hs.symm⟩

end Answers

/-! ## Operations -/

variable {ε σ α β : Type u} {Q : α → σ → Prop} {E : ε → σ → Prop} {s : σ}

/-- Started in `s`, `x` answers with `Q` or fails with `E`. -/
def wp (x : EStateM ε σ α) (Q : α → σ → Prop) (E : ε → σ → Prop) (s : σ) : Prop :=
  match x s with
  | .ok a s' => Q a s'
  | .error e s' => E e s'

variable {x : EStateM ε σ α}

theorem wp_mono {Q' : α → σ → Prop} {E' : ε → σ → Prop} (h : wp x Q E s)
    (ans : ∀ a s', Q a s' → Q' a s') (err : ∀ e s', E e s' → E' e s') : wp x Q' E' s := by
  unfold wp at h ⊢
  cases run : x s with
  | ok a s' =>
    rw [run] at h
    exact ans a s' h
  | error e s' =>
    rw [run] at h
    exact err e s' h

/-- An operation of which nothing is asked if it fails. -/
theorem wp_imp {Q' : α → σ → Prop} (h : wp x Q E s) (ans : ∀ a s', Q a s' → Q' a s') :
    wp x Q' (fun _ _ => True) s :=
  wp_mono h ans fun _ _ _ => trivial

@[simp]
theorem wp_pure (a : α) : wp (pure a) Q E s ↔ Q a s := Iff.rfl

@[simp]
theorem wp_throw (e : ε) : wp (throw e : EStateM ε σ α) Q E s ↔ E e s := Iff.rfl

@[simp]
theorem wp_bind {x : EStateM ε σ β} {f : β → EStateM ε σ α} :
    wp (x >>= f) Q E s ↔ wp x (fun b => wp (f b) Q E) E s := by
  simp only [wp, bind, EStateM.bind]
  cases x s <;> rfl

@[simp]
theorem wp_map {x : EStateM ε σ β} {f : β → α} :
    wp (f <$> x) Q E s ↔ wp x (fun b => Q (f b)) E s := by
  simp only [wp, Functor.map, EStateM.map]
  cases x s <;> rfl

@[simp]
theorem wp_get {Q : σ → σ → Prop} : wp (get : EStateM ε σ σ) Q E s ↔ Q s s := Iff.rfl

@[simp]
theorem wp_set {Q : PUnit → σ → Prop} (t : σ) :
    wp (set t : EStateM ε σ PUnit) Q E s ↔ Q ⟨⟩ t := Iff.rfl

@[simp]
theorem wp_modify {Q : PUnit → σ → Prop} (f : σ → σ) :
    wp (modify f : EStateM ε σ PUnit) Q E s ↔ Q ⟨⟩ (f s) := Iff.rfl

@[simp]
theorem wp_modifyGet (f : σ → α × σ) :
    wp (modifyGet f : EStateM ε σ α) Q E s ↔ Q (f s).1 (f s).2 := Iff.rfl

theorem wp_ite {p : Prop} [Decidable p] {y : EStateM ε σ α} :
    wp (if p then x else y) Q E s ↔ (p → wp x Q E s) ∧ (¬p → wp y Q E s) := by
  by_cases h : p <;> simp [h]

/-- Ask the state a question that may fail. -/
def query (f : σ → Except ε α) : EStateM ε σ α := fun s =>
  match f s with
  | .ok a => .ok a s
  | .error e => .error e s

theorem wp_query {f : σ → Except ε α} :
    wp (query f) Q E s ↔ (∀ a, f s = .ok a → Q a s) ∧ (∀ e, f s = .error e → E e s) := by
  unfold wp query
  cases f s <;> simp

/-- Run `x` and clean up with `f` if it fails. -/
def onError (f : σ → σ) (x : EStateM ε σ α) : EStateM ε σ α := fun s =>
  match x s with
  | .ok a s' => .ok a s'
  | .error e s' => .error e (f s')

@[simp]
theorem wp_onError {f : σ → σ} : wp (onError f x) Q E s ↔ wp x Q (fun e s' => E e (f s')) s := by
  unfold wp onError
  cases x s <;> rfl

/-! ## Operations as sequences of steps -/

/-- What every step keeps, a sequence of steps keeps. -/
theorem steps_invariant {R : σ → σ → Prop} {J : σ → Prop} {s' : σ}
    (keeps : ∀ s s', R s s' → J s → J s') (steps : Relation.ReflTransGen R s s') (start : J s) :
    J s' := by
  induction steps with
  | refl => exact start
  | tail _ step ih => exact keeps _ _ step ih

/-- Started in `s`, `x` makes steps of `ok` and answers with `Q`, or fails after steps of
`bad`. -/
def Moves (ok bad : σ → σ → Prop) (x : EStateM ε σ α) (Q : α → σ → Prop) (s : σ) : Prop :=
  wp x (fun a s' => Relation.ReflTransGen ok s s' ∧ Q a s')
    (fun _ s' => Relation.ReflTransGen bad s s') s

namespace Moves

variable {ok bad ok' bad' : σ → σ → Prop} {R : β → σ → Prop} {x : EStateM ε σ α}

theorem pure {a : α} (h : Q a s) : Moves ok bad (Pure.pure a : EStateM ε σ α) Q s := ⟨.refl, h⟩

theorem throw {e : ε} : Moves ok bad (MonadExcept.throw e : EStateM ε σ α) Q s := .refl

/-- Steps of one kind are steps of another. -/
theorem lift (h : Moves ok bad x Q s) (hg : ∀ s s', ok s s' → ok' s s')
    (hp : ∀ s s', bad s s' → bad' s s') : Moves ok' bad' x Q s :=
  wp_mono h (fun _ _ hr => ⟨Relation.ReflTransGen.mono hg _ _ hr.1, hr.2⟩)
    fun _ _ hr => Relation.ReflTransGen.mono hp _ _ hr

/-- Each step of one kind is a run of another. -/
theorem expand (h : Moves ok bad x Q s) (hg : ∀ s s', ok s s' → Relation.ReflTransGen ok' s s')
    (hp : ∀ s s', bad s s' → Relation.ReflTransGen bad' s s') : Moves ok' bad' x Q s :=
  wp_mono h (fun _ _ hr => ⟨hr.1.lift' id hg, hr.2⟩) fun _ _ hr => hr.lift' id hp

/-- An operation that amounts to one step. -/
theorem of_wp (h : wp x (fun a s' => ok s s' ∧ Q a s') (fun _ s' => bad s s') s) :
    Moves ok bad x Q s :=
  wp_mono h (fun _ _ hr => ⟨.single hr.1, hr.2⟩) fun _ _ hr => .single hr

variable (le : ok ≤ bad)
include le

theorem bind {f : α → EStateM ε σ β} (h : Moves ok bad x Q s)
    (next : ∀ a s', Q a s' → Moves ok bad (f a) R s') : Moves ok bad (x >>= f) R s := by
  refine wp_bind.2 (wp_mono h ?_ fun _ _ hr => hr)
  rintro a s' ⟨steps, ans⟩
  refine wp_mono (next a s' ans) ?_ ?_
  · exact fun _ _ hr => ⟨steps.trans hr.1, hr.2⟩
  · exact fun _ _ hr => (Relation.ReflTransGen.mono le _ _ steps).trans hr

/-- A step, then the rest. -/
theorem modify_bind {f : σ → σ} {k : PUnit → EStateM ε σ β} (step : ok s (f s))
    (next : Moves ok bad (k ⟨⟩) R (f s)) : Moves ok bad (modify f >>= k) R s := by
  refine bind le (x := modify f) (Q := fun _ s' => s' = f s) ⟨.single step, rfl⟩ ?_
  rintro _ _ rfl
  exact next

omit le

theorem of_modify {f : σ → σ} {Q : PUnit → σ → Prop} (step : ok s (f s)) (h : Q ⟨⟩ (f s)) :
    Moves ok bad (modify f : EStateM ε σ PUnit) Q s := ⟨.single step, h⟩

theorem get_bind {k : σ → EStateM ε σ β} (next : Moves ok bad (k s) R s) :
    Moves ok bad (get >>= k) R s := next

theorem query_bind {f : σ → Except ε α} {k : α → EStateM ε σ β}
    (next : ∀ a, f s = .ok a → Moves ok bad (k a) R s) :
    Moves ok bad (query f >>= k) R s :=
  wp_bind.2 (wp_query.2 ⟨next, fun _ _ => .refl⟩)

end Moves

end Fallible
