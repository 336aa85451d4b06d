import Mathlib.Data.List.Basic

/-!
# Cutting a stream into frames

A `Cutter` looks at the items that came so far and waits, takes a frame off the front or rejects
the stream. What it decided stays decided when more items come, so that what a stream is cut into
(`Parses`) is a matter of its items alone. `Holds` relates a buffer to the items that came : it
is kept by another chunk and by taking a frame off, in any order, and ends in `Parses`.
-/

namespace Framing

open List

/-- What a cutter finds at the front of a stream. -/
inductive Cut (β φ ε : Type*) where
  | wait
  | frame (body : φ) (rest : List β)
  | bad (error : ε)

/-- A cutter whose frames are not changed by what comes later. -/
structure Cutter (β φ ε : Type*) where
  cut : List β → Cut β φ ε
  shrinks : ∀ {xs body rest}, cut xs = .frame body rest → rest.length < xs.length
  frame_append : ∀ {xs body rest} (more : List β), cut xs = .frame body rest →
    cut (xs ++ more) = .frame body (rest ++ more)

variable {β φ ε : Type*} {c : Cutter β φ ε}

/-- A stream is cut into `bodies`, and ends in items of a further frame or in an error. -/
inductive Parses (c : Cutter β φ ε) : List β → List φ → Except ε (List β) → Prop
  | wait {xs : List β} (cut : c.cut xs = .wait) : Parses c xs [] (.ok xs)
  | bad {xs : List β} {error : ε} (cut : c.cut xs = .bad error) : Parses c xs [] (.error error)
  | frame {xs rest : List β} {body : φ} {bodies : List φ} {ending : Except ε (List β)}
      (cut : c.cut xs = .frame body rest) (later : Parses c rest bodies ending) :
      Parses c xs (body :: bodies) ending

variable {xs came buffer rest : List β} {body : φ} {bodies bodies' : List φ} {error : ε}
  {ending ending' : Except ε (List β)}

theorem Parses.unique (h : Parses c xs bodies ending) (h' : Parses c xs bodies' ending') :
    bodies = bodies' ∧ ending = ending' := by
  induction h generalizing bodies' with
  | wait cut | bad cut => cases h' <;> simp_all
  | frame cut hl ih =>
    cases h' with
    | wait cut' | bad cut' => simp_all
    | frame cut' later' =>
      obtain ⟨rfl, rfl⟩ := Cut.frame.inj (cut.symm.trans cut')
      obtain ⟨rfl, rfl⟩ := ih later'
      exact ⟨rfl, rfl⟩

/-- Of the items that came, `bodies` were taken off and `buffer` is left. -/
def Holds (c : Cutter β φ ε) (came : List β) (bodies : List φ) (buffer : List β) : Prop :=
  ∀ more later ending, Parses c (buffer ++ more) later ending →
    Parses c (came ++ more) (bodies ++ later) ending

theorem Holds.start (c : Cutter β φ ε) : Holds c [] [] [] := fun _ _ _ parses => parses

theorem Holds.feed (h : Holds c came bodies buffer) (chunk : List β) :
    Holds c (came ++ chunk) bodies (buffer ++ chunk) := by
  intro more later ending parses
  rw [append_assoc] at parses ⊢
  exact h _ _ _ parses

theorem Holds.take (h : Holds c came bodies buffer) (cut : c.cut buffer = .frame body rest) :
    Holds c came (bodies ++ [body]) rest := by
  intro more later ending parses
  rw [append_assoc]
  exact h _ _ _ (.frame (c.frame_append more cut) parses)

theorem Holds.ends (h : Holds c came bodies buffer) (cut : c.cut buffer = .wait) :
    Parses c came bodies (.ok buffer) := by
  have whole := h [] [] (.ok buffer) (by rw [append_nil]; exact .wait cut)
  rwa [append_nil, append_nil] at whole

theorem Holds.rejects (h : Holds c came bodies buffer) (cut : c.cut buffer = .bad error) :
    Parses c came bodies (.error error) := by
  have whole := h [] [] (.error error) (by rw [append_nil]; exact .bad cut)
  rwa [append_nil, append_nil] at whole

end Framing
