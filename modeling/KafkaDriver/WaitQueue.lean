import KafkaDriver.Identity
import KafkaDriver.OrdMap

/-!
# Bounded wait queues

A `WaitQueue` keeps its entries by admission sequence and, in a second map, the key
`(deadline, sequence)` of every entry, so that the earliest deadline is found without a
search. `Build` decides whether `removeDeadline` takes effect : the removal is the argument
of a `debug_assert_eq!`.
-/

namespace KafkaDriver

/-- A value and when it is due. -/
structure WaitEntry (α : Type*) where
  value : α
  deadline : Moment
  deriving DecidableEq

/-- Deadlines in order, equal ones in admission order. -/
structure DeadlineKey where
  deadline : Moment
  sequence : ℕ
  deriving DecidableEq

instance : LinearOrder DeadlineKey :=
  LinearOrder.lift' (fun k => toLex (k.deadline, k.sequence)) fun a b h => by
    obtain ⟨h₁, h₂⟩ := Prod.mk.inj (toLex.injective h)
    cases a
    cases b
    exact congrArg₂ DeadlineKey.mk h₁ h₂

/-- Values in the order they came, with an index of their deadlines. -/
structure WaitQueue (α : Type*) where
  capacity : NonZeroUsize
  nextSequence : ℕ
  scanCursor : Option ℕ
  entries : OrdMap ℕ (WaitEntry α)
  deadlines : OrdMap DeadlineKey ℕ

namespace WaitQueue

variable {α : Type*}

/-- An empty queue. -/
def new (capacity : NonZeroUsize) : WaitQueue α := ⟨capacity, 0, none, .empty, .empty⟩

variable (build : Build) (q : WaitQueue α) (value : α) (sequence : ℕ) (deadline : Moment)

/-- The retained entries in admission order. -/
def waiting : List (WaitEntry α) := q.entries.entries.map Prod.snd

/-- How many wait. -/
def len : ℕ := q.entries.size

/-- Whether none waits. -/
def isEmpty : Bool := q.len = 0

/-- Enter an entry into both maps. -/
def store (entry : WaitEntry α) : WaitQueue α :=
  { q with
    entries := q.entries.insert sequence entry
    deadlines := q.deadlines.insert ⟨entry.deadline, sequence⟩ sequence }

/-- Renumber the entries from zero. -/
def resequence : WaitQueue α :=
  q.entries.entries.zipIdx.foldl
    (fun q e => { q.store e.2 e.1.2 with nextSequence := e.2 + 1 })
    { q with entries := .empty, scanCursor := none, deadlines := .empty, nextSequence := 0 }

/-- The next sequence. Renumbering leaves it at the number of entries, which is below the
capacity, so the second attempt of the source succeeds. -/
def reserveSequence : WaitQueue α × ℕ :=
  match checkedSucc q.nextSequence with
  | some next => ({ q with nextSequence := next }, q.nextSequence)
  | none =>
    ({ q.resequence with nextSequence := q.resequence.nextSequence + 1 },
      q.resequence.nextSequence)

/-- Add at the back, if there is room. -/
def insertBack : WaitQueue α × Except α Unit :=
  if q.entries.size = q.capacity.get then (q, .error value)
  else
    match q.reserveSequence with
    | (q, sequence) => (q.store sequence ⟨value, deadline⟩, .ok ())

/-- A value joins. -/
def push : WaitQueue α × Except α Unit :=
  q.insertBack value deadline

/-- Requeue one examined survivor behind entries not yet examined. -/
def rotateBack : WaitQueue α × Except α Unit :=
  q.insertBack value deadline

/-- Forget a deadline, which a release build does not. -/
def removeDeadline : WaitQueue α :=
  match build with
  | .debug => { q with deadlines := q.deadlines.erase ⟨deadline, sequence⟩ }
  | .release => q

/-- Remove the entry of `sequence` and its deadline. -/
def removeEntry (entry : WaitEntry α) : WaitQueue α × Option (α × Moment) :=
  (({ q with entries := q.entries.erase sequence }).removeDeadline build sequence entry.deadline,
    some (entry.value, entry.deadline))

/-- Take the oldest. -/
def popFront : WaitQueue α × Option (α × Moment) :=
  match q.entries.first with
  | none => (q, none)
  | some (sequence, entry) => q.removeEntry build sequence entry

/-- Take the newest. -/
def popBack : WaitQueue α × Option (α × Moment) :=
  match q.entries.last with
  | none => (q, none)
  | some (sequence, entry) => q.removeEntry build sequence entry

/-- The entry a scan examines : the next one behind the cursor, or the first. -/
def scanTarget : Option (ℕ × WaitEntry α) :=
  match q.scanCursor with
  | none => q.entries.first
  | some cursor => (q.entries.next cursor).or q.entries.first

/-- Examine one entry, and take it if it matches. -/
def scanOne (isMatch : α → Bool) : WaitQueue α × Option (α × Moment) :=
  match q.scanTarget with
  | none => (q, none)
  | some (sequence, entry) =>
    if isMatch entry.value then
      ({ q with scanCursor := some sequence }).removeEntry build sequence entry
    else ({ q with scanCursor := some sequence }, none)

/-- The newest value. -/
def back : Option α := q.entries.last.map (·.2.value)

/-- Take the first that is due. -/
def takeDue (now : Moment) : WaitQueue α × Option (α × Moment) :=
  match q.deadlines.first with
  | none => (q, none)
  | some (key, sequence) =>
    if now < key.deadline then (q, none)
    else
      match q.entries.get sequence with
      | none => ({ q with deadlines := q.deadlines.erase key }, none)
      | some entry =>
        ({ q with
            deadlines := q.deadlines.erase key
            entries := q.entries.erase sequence },
          some (entry.value, entry.deadline))

/-- The earliest deadline. -/
def nextDeadline : Option Moment := q.deadlines.first.map (·.1.deadline)

/-- Change the waiting values in place. -/
def iterMut (f : α → α) : WaitQueue α :=
  { q with entries := q.entries.map fun _ entry => { entry with value := f entry.value } }

/-- Take all. -/
def drain : WaitQueue α × List α :=
  ({ q with deadlines := .empty, nextSequence := 0, scanCursor := none, entries := .empty },
    q.entries.entries.map (·.2.value))

/-! ### How many entries wait -/

variable {q q' : WaitQueue α}

/-- A refused entry changes nothing. -/
theorem push_error {v back : α} {due : Moment} (hf : q.push v due = (q', .error back)) :
    q' = q := by
  unfold push insertBack at hf
  split_ifs at hf
  · exact (Prod.mk.inj hf).1.symm
  · cases hf

/-- A queue refuses the entry it was offered. -/
theorem insertBack_refused {v back : α} {due : Moment}
    (hf : q.insertBack v due = (q', .error back)) : back = v := by
  unfold insertBack at hf
  split_ifs at hf
  · injection hf with _ hs
    injection hs with hs
    exact hs.symm
  · cases hf

end WaitQueue

/-! ## Operations as inputs -/

/-- What is asked of a queue. -/
inductive WaitOperation (α : Type*) where
  | push (value : α) (deadline : Moment)
  | rotateBack (value : α) (deadline : Moment)
  | popFront
  | popBack
  | scanOne (isMatch : α → Bool)
  | takeDue (now : Moment)
  | drain

/-- What a queue answers. -/
inductive WaitReply (α : Type*) where
  | admission (answer : Except α Unit)
  | removal (answer : Option (α × Moment))
  | drained (values : List α)

namespace WaitQueue

variable {α : Type*}

/-- Handle one operation. -/
def step (build : Build) (q : WaitQueue α) : WaitOperation α → WaitQueue α × WaitReply α
  | .push value deadline => ((q.push value deadline).1, .admission (q.push value deadline).2)
  | .rotateBack value deadline =>
    ((q.rotateBack value deadline).1, .admission (q.rotateBack value deadline).2)
  | .popFront => ((q.popFront build).1, .removal (q.popFront build).2)
  | .popBack => ((q.popBack build).1, .removal (q.popBack build).2)
  | .scanOne isMatch => ((q.scanOne build isMatch).1, .removal (q.scanOne build isMatch).2)
  | .takeDue now => ((q.takeDue now).1, .removal (q.takeDue now).2)
  | .drain => (q.drain.1, .drained q.drain.2)

end WaitQueue

end KafkaDriver
