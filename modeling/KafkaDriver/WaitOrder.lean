import KafkaDriver.DeadlineIndex

/-!
# The order of a wait queue

In either build a `WaitQueue` is a queue : an entry joins behind all others, also when the
sequence numbers run out and the entries are renumbered, and `popFront` and `popBack` take
the two ends. `Bounded` queues hold no more than their capacity, so that an entry just taken
out can be put back.
-/

namespace KafkaDriver

open List OrdMap WaitQueue Prod

namespace WaitQueue

variable {α : Type*} {q : WaitQueue α}

/-- New entries are numbered above all others. -/
def Ordered (q : WaitQueue α) : Prop := ∀ s ∈ q.entries.keys, s < q.nextSequence

theorem Ordered.reserveSequence (h : q.Ordered) :
    (∀ s ∈ q.reserveSequence.1.entries.keys, s < q.reserveSequence.2) ∧
      q.reserveSequence.1.nextSequence = q.reserveSequence.2 + 1 ∧
      q.reserveSequence.1.waiting = q.waiting := by
  unfold WaitQueue.reserveSequence
  cases next : checkedSucc q.nextSequence with
  | some next =>
    obtain ⟨-, rfl⟩ := checkedSucc_eq_some.1 next
    exact ⟨h, rfl, rfl⟩
  | none =>
    obtain ⟨-, below, -, ws, -⟩ := q.resequence_spec
    exact ⟨below, rfl, ws⟩

/-- An entry joins at the end, or the queue is full and stays. -/
theorem Ordered.push (h : q.Ordered) (v : α) (due : Moment) :
    (q.push v due).1.Ordered ∧
      ((q.push v due).2 = .ok () ∧ (q.push v due).1.waiting = q.waiting ++ [⟨v, due⟩] ∨
      q.push v due = (q, .error v)) := by
  unfold WaitQueue.push insertBack
  split_ifs
  · exact ⟨h, Or.inr rfl⟩
  obtain ⟨ha, next, ws⟩ := h.reserveSequence
  obtain ⟨below, last⟩ := store_last ha (⟨v, due⟩ : WaitEntry α)
  refine ⟨fun s mem => (below s mem).trans_eq next.symm, Or.inl ⟨rfl, ?_⟩⟩
  rw [← ws]
  exact last

theorem Ordered.pushed (h : q.Ordered) {q' : WaitQueue α} {v : α} {due : Moment}
    (hp : q.push v due = (q', .ok ())) :
    q'.Ordered ∧ q'.waiting = q.waiting ++ [⟨v, due⟩] := by
  obtain ⟨ord, ⟨-, ws⟩ | hf⟩ := h.push v due
  · rw [hp] at ord ws
    exact ⟨ord, ws⟩
  · rw [hf] at hp
    cases hp

variable (b : Build)

theorem waiting_removeEntry (q : WaitQueue α) (sequence : ℕ) (e : WaitEntry α) :
    (q.removeEntry b sequence e).1.waiting = ((q.entries.erase sequence).entries).map snd := by
  cases b <;> rfl

/-- The front entry leaves, if there is one. -/
theorem waiting_popFront (q : WaitQueue α) :
    (q.waiting = [] ∧ q.popFront b = (q, none)) ∨
      ∃ e, (q.popFront b).2 = some (e.value, e.deadline) ∧
        q.waiting = e :: (q.popFront b).1.waiting := by
  unfold popFront
  cases first : q.entries.first with
  | none => exact .inl ⟨by rw [waiting, first_eq_none.1 first]; rfl, rfl⟩
  | some front =>
    refine .inr ⟨front.2, rfl, ?_⟩
    rw [waiting_removeEntry, waiting, entries_of_first first]
    rfl

/-- The last entry leaves, if there is one. -/
theorem waiting_popBack (q : WaitQueue α) :
    (q.waiting = [] ∧ q.popBack b = (q, none)) ∨
      ∃ e, (q.popBack b).2 = some (e.value, e.deadline) ∧
        q.waiting = (q.popBack b).1.waiting ++ [e] := by
  unfold popBack
  cases last : q.entries.last with
  | none => exact .inl ⟨by rw [waiting, getLast?_eq_none_iff.1 last]; rfl, rfl⟩
  | some back =>
    refine .inr ⟨back.2, rfl, ?_⟩
    rw [waiting_removeEntry, waiting, entries_of_last last, map_append]
    rfl

theorem waiting_iterMut (q : WaitQueue α) (f : α → α) :
    (q.iterMut f).waiting = q.waiting.map fun e => { e with value := f e.value } := by
  simp [iterMut, waiting, OrdMap.map]

theorem Ordered.iterMut (h : q.Ordered) (f : α → α) : (q.iterMut f).Ordered := by
  intro s mem
  refine h s ?_
  simpa [WaitQueue.iterMut, OrdMap.map, OrdMap.keys] using mem

/-! ## Removals -/

/-- Between `q` and `q'` the entry of the answer left, and nothing else. -/
structure Takes (q : WaitQueue α) (answer : Option (α × Moment)) (q' : WaitQueue α) : Prop where
  taken : q.waiting.Perm (answer.toList.map (fun e => ⟨e.1, e.2⟩) ++ q'.waiting)
  inOrder : q'.waiting.Sublist q.waiting
  ordered : q.Ordered → q'.Ordered
  capacity : q'.capacity = q.capacity

variable {q' : WaitQueue α}

theorem Takes.stay (q : WaitQueue α) : Takes q none q := ⟨.refl _, .refl _, id, rfl⟩

theorem takes_erase {s : ℕ} {e : WaitEntry α} (hf : q.entries.get s = some e)
    (es : q'.entries = q.entries.erase s) (next : q'.nextSequence = q.nextSequence)
    (cap : q'.capacity = q.capacity) : Takes q (some (e.value, e.deadline)) q' := by
  have hw : q'.waiting = (q.entries.erase s).entries.map snd := by rw [waiting, es]
  refine ⟨?_, ?_, fun ord t mem => ?_, cap⟩
  · rw [hw]
    exact (entries_perm_of_get hf).map snd
  · rw [hw]
    exact filter_sublist.map _
  · rw [es] at mem
    rw [next]
    obtain ⟨e, there, rfl⟩ := mem_map.1 mem
    exact ord _ (mem_map_of_mem (mem_of_mem_filter there))

theorem popFront_takes (q : WaitQueue α) : Takes q (q.popFront b).2 (q.popFront b).1 := by
  unfold popFront
  cases first : q.entries.first with
  | none => exact .stay q
  | some front => cases b <;> exact takes_erase (get_of_first first) rfl rfl rfl

theorem popBack_takes (q : WaitQueue α) : Takes q (q.popBack b).2 (q.popBack b).1 := by
  unfold popBack
  cases last : q.entries.last with
  | none => exact .stay q
  | some back => cases b <;> exact takes_erase (get_of_last last) rfl rfl rfl

theorem scanOne_takes (q : WaitQueue α) (isMatch : α → Bool) :
    Takes q (q.scanOne b isMatch).2 (q.scanOne b isMatch).1 := by
  unfold scanOne
  cases target : q.scanTarget with
  | none => exact ⟨.refl _, .refl _, id, rfl⟩
  | some _ =>
    dsimp only
    split_ifs
    · cases b <;> exact takes_erase (get_of_scanTarget target) rfl rfl rfl
    · exact ⟨.refl _, .refl _, id, rfl⟩

theorem takeDue_takes (q : WaitQueue α) (now : Moment) :
    Takes q (q.takeDue now).2 (q.takeDue now).1 := by
  unfold takeDue
  split
  · exact .stay q
  split_ifs
  · exact .stay q
  · split
    · exact ⟨.refl _, .refl _, id, rfl⟩
    · rename_i hf
      exact takes_erase hf rfl rfl rfl

variable {ans : Option (α × Moment)}

variable {b} in
theorem Takes.of_popFront (popped : q.popFront b = (q', ans)) : Takes q ans q' := by
  have ht := q.popFront_takes b
  rwa [popped] at ht

theorem Takes.of_takeDue {now : Moment} (took : q.takeDue now = (q', ans)) : Takes q ans q' := by
  have ht := q.takeDue_takes now
  rwa [took] at ht

theorem Takes.len_le (ht : Takes q ans q') : q'.len ≤ q.len := by
  rw [len_eq, len_eq]
  exact ht.inOrder.length_le

/-- The entry that was taken was there. -/
theorem Takes.taken_mem {v : α} {due : Moment} (ht : Takes q (some (v, due)) q') :
    (⟨v, due⟩ : WaitEntry α) ∈ q.waiting :=
  ht.taken.mem_iff.2 mem_cons_self

/-! ## Capacity -/

theorem capacity_push (q : WaitQueue α) (v : α) (due : Moment) :
    (q.push v due).1.capacity = q.capacity := by
  unfold push insertBack
  split_ifs
  · rfl
  change q.reserveSequence.1.capacity = q.capacity
  unfold reserveSequence
  cases checkedSucc q.nextSequence with
  | some next => rfl
  | none => exact q.resequence_spec.2.2.2.2

/-- An ordered queue within its capacity. -/
structure Bounded (q : WaitQueue α) : Prop where
  ordered : q.Ordered
  within : q.waiting.length ≤ q.capacity.get

theorem new_bounded (cap : NonZeroUsize) : (new cap : WaitQueue α).Bounded :=
  ⟨fun _ mem => absurd mem not_mem_nil, Nat.zero_le _⟩

theorem drain_bounded (q : WaitQueue α) : q.drain.1.Bounded :=
  ⟨fun _ mem => absurd mem not_mem_nil, Nat.zero_le _⟩

namespace Bounded

/-- An entry joins at the end of a queue with room. -/
theorem push (h : q.Bounded) (hr : q.waiting.length < q.capacity.get) (v : α) (due : Moment) :
    (q.push v due).1.Bounded ∧ (q.push v due).2 = .ok () ∧
      (q.push v due).1.waiting = q.waiting ++ [⟨v, due⟩] := by
  obtain ⟨ord, hj | hf⟩ := h.ordered.push v due
  · obtain ⟨ans, ws⟩ := hj
    refine ⟨⟨ord, ?_⟩, ans, ws⟩
    rw [ws, capacity_push, length_append]
    exact hr
  · unfold WaitQueue.push insertBack at hf
    rw [← len_eq] at hr
    rw [if_neg (show q.entries.size ≠ q.capacity.get from hr.ne)] at hf
    cases congrArg snd hf

theorem takes (h : q.Bounded) (ht : Takes q ans q') : q'.Bounded := by
  refine ⟨ht.ordered h.ordered, ?_⟩
  rw [ht.capacity]
  exact ht.inOrder.length_le.trans h.within

/-- The front of a queue that is not empty, and the queue behind it. -/
theorem popFront_cons (h : q.Bounded) (b : Build) {e : WaitEntry α} {rest : List (WaitEntry α)}
    (front : q.waiting = e :: rest) :
    ∃ popped : WaitQueue α, q.popFront b = (popped, some (e.value, e.deadline)) ∧
      popped.Bounded ∧ popped.waiting = rest ∧ rest.length < popped.capacity.get := by
  have ht := q.popFront_takes b
  rcases q.waiting_popFront b with ⟨empty, -⟩ | ⟨e', hp, ws⟩
  · rw [empty] at front
    cases front
  rw [front] at ws
  obtain ⟨rfl, rest⟩ := cons.inj ws
  refine ⟨(q.popFront b).1, Prod.ext rfl hp, h.takes ht, rest.symm, ?_⟩
  have hw := h.within
  rw [front, length_cons] at hw
  rwa [ht.capacity]

theorem iterMut (h : q.Bounded) (f : α → α) : (q.iterMut f).Bounded := by
  refine ⟨h.ordered.iterMut f, ?_⟩
  rw [waiting_iterMut, length_map]
  exact h.within

end Bounded

end WaitQueue

end KafkaDriver
