import KafkaDriver.WaitQueue
import KafkaDriver.Runs

/-!
# The deadline index of a wait queue

`Indexes d m` says that the map `d` of deadline keys is the index of the entries `m` : it has
the key of every entry and no other. In a debug build every operation of a `WaitQueue` keeps
its index (`Indexed.step`), and the earliest deadline read off the index is the earliest
deadline waiting. A release build takes the same steps as long as no entry leaves through
`removeDeadline` (`step_release_eq_debug`); an entry that does leaves its key behind.
-/

namespace KafkaDriver

open Runs List OrdMap WaitQueue

variable {α : Type*}

/-! ## Indexes -/

/-- The key under which an entry is indexed. -/
def deadlineKey (e : ℕ × WaitEntry α) : DeadlineKey := ⟨e.2.deadline, e.1⟩

/-- `d` has the key of every entry of `m`, with its sequence, and no other. -/
def Indexes (d : OrdMap DeadlineKey ℕ) (m : OrdMap ℕ (WaitEntry α)) : Prop :=
  ∀ key sequence, d.get key = some sequence ↔
    sequence = key.sequence ∧ ∃ e, m.get sequence = some e ∧ e.deadline = key.deadline

namespace Indexes

variable {d : OrdMap DeadlineKey ℕ} {m : OrdMap ℕ (WaitEntry α)}

theorem empty : Indexes .empty (.empty : OrdMap ℕ (WaitEntry α)) := by
  intro key sequence
  simp

theorem insert (h : Indexes d m) {s : ℕ} (hf : m.get s = none) (e : WaitEntry α) :
    Indexes (d.insert ⟨e.deadline, s⟩ s) (m.insert s e) := by
  rintro ⟨due, s'⟩ sequence
  rw [get_insert, get_insert]
  have old := h ⟨due, s'⟩ sequence
  by_cases same : sequence = s
  · subst same
    by_cases key : due = e.deadline ∧ s' = sequence
    · obtain ⟨rfl, rfl⟩ := key
      simp
    have ne : (⟨due, s'⟩ : DeadlineKey) ≠ ⟨e.deadline, sequence⟩ := by
      intro he
      injection he with h₁ h₂
      exact key ⟨h₁, h₂⟩
    rw [if_neg ne, old, hf]
    simp only [if_true, Option.some.injEq, exists_eq_left']
    constructor
    · rintro ⟨-, e', ha, -⟩
      cases ha
    · rintro ⟨rfl, rfl⟩
      exact absurd ⟨rfl, rfl⟩ key
  · rw [if_neg same, ← old]
    split_ifs with key
    · injection key with _ h₂
      rw [old]
      constructor
      · intro he
        exact absurd (Option.some.inj he).symm same
      · rintro ⟨he, -⟩
        exact absurd (he.trans h₂) same
    · exact Iff.rfl

theorem erase (h : Indexes d m) {s : ℕ} {e : WaitEntry α} (hf : m.get s = some e) :
    Indexes (d.erase ⟨e.deadline, s⟩) (m.erase s) := by
  rintro ⟨due, s'⟩ sequence
  have old := h ⟨due, s'⟩ sequence
  rw [get_erase, get_erase]
  by_cases same : sequence = s
  · subst same
    simp only [if_true, reduceCtorEq, false_and, exists_false, and_false, iff_false]
    split_ifs with key
    · exact nofun
    rw [old]
    rintro ⟨rfl, e', hf', rfl⟩
    rw [hf] at hf'
    cases hf'
    exact key rfl
  · rw [if_neg same, ← old]
    split_ifs with key
    · injection key with _ h₂
      rw [old]
      constructor
      · nofun
      · rintro ⟨he, -⟩
        exact absurd (he.trans h₂) same
    · exact Iff.rfl

/-- The keys of the index are the keys of the entries, one for each. -/
theorem keys_perm (h : Indexes d m) : d.keys.Perm (m.entries.map deadlineKey) := by
  have hd : (m.entries.map deadlineKey).Nodup := by
    refine List.Nodup.of_map DeadlineKey.sequence ?_
    rw [map_map]
    exact m.nodup_keys
  refine (perm_ext_iff_of_nodup d.nodup_keys hd).2 fun key => ?_
  rw [OrdMap.mem_keys, mem_map]
  constructor
  · rintro ⟨sequence, hit⟩
    obtain ⟨rfl, e, hf, due⟩ := (h key sequence).1 hit
    exact ⟨(key.sequence, e), get_eq_some.1 hf, by rw [deadlineKey, due]⟩
  · rintro ⟨⟨s, e⟩, mem, rfl⟩
    exact ⟨s, (h _ s).2 ⟨rfl, e, get_eq_some.2 mem, rfl⟩⟩

theorem size_eq (h : Indexes d m) : d.size = m.size := by
  rw [size_eq_length_keys, h.keys_perm.length_eq, length_map, size]

/-- The least key of the index belongs to an entry of least deadline. -/
theorem first_least (h : Indexes d m) {key : DeadlineKey} {sequence : ℕ}
    (first : d.first = some (key, sequence)) :
    ∃ e, m.get sequence = some e ∧ key = ⟨e.deadline, sequence⟩ ∧
      ∀ x ∈ m.entries, e.deadline ≤ x.2.deadline := by
  obtain ⟨hit, hl⟩ := first_eq_some.1 first
  obtain ⟨rfl, e, hf, due⟩ := (h key sequence).1 hit
  refine ⟨e, hf, by rw [due], fun x mem => ?_⟩
  have hb := hl (deadlineKey x) (h.keys_perm.mem_iff.2 (mem_map_of_mem mem))
  rw [due]
  rcases (Prod.Lex.le_iff.1 hb) with lt | ⟨eq, -⟩
  · exact lt.le
  · exact eq.le

end Indexes

namespace WaitQueue

/-! ## Debug steps keep the index -/

/-- A queue whose index is exact, with room in its numbering. -/
structure Indexed (q : WaitQueue α) : Prop where
  index : Indexes q.deadlines q.entries
  below : ∀ s ∈ q.entries.keys, s < q.nextSequence
  within : q.len ≤ q.capacity.get
  range : q.nextSequence ≤ u64Max

variable {q : WaitQueue α}

theorem len_eq (q : WaitQueue α) : q.len = q.waiting.length := by
  rw [len, waiting, length_map, size]

theorem new_indexed (cap : NonZeroUsize) : (new cap : WaitQueue α).Indexed :=
  ⟨.empty, fun _ mem => absurd mem not_mem_nil, Nat.zero_le _, Nat.zero_le _⟩

variable {s : ℕ} {e : WaitEntry α}

/-- An entry above all others goes to the end. -/
theorem store_last (ha : ∀ s' ∈ q.entries.keys, s' < s) (e : WaitEntry α) :
    (∀ s' ∈ (q.store s e).entries.keys, s' < s + 1) ∧ (q.store s e).waiting = q.waiting ++ [e] := by
  have es : (q.store s e).entries.entries = q.entries.entries ++ [(s, e)] :=
    entries_insert_of_lt e ha
  refine ⟨fun s' mem => ?_, ?_⟩
  · rw [OrdMap.keys, es, map_append, mem_append] at mem
    rcases mem with mem | mem
    · exact (ha s' mem).trans (Nat.lt_succ_self s)
    · rw [mem_singleton.1 mem]
      exact Nat.lt_succ_self s
  · rw [waiting, es, map_append]
    rfl

/-- Entering an entry above all others keeps the index. -/
theorem store_above (k : Indexes q.deadlines q.entries) (ha : ∀ s' ∈ q.entries.keys, s' < s)
    (e : WaitEntry α) : Indexes (q.store s e).deadlines (q.store s e).entries :=
  k.insert (get_eq_none.2 fun mem => (ha s mem).false) e

/-- The renumbering loop, by induction over the entries still to be numbered. -/
theorem renumber (l : List (ℕ × WaitEntry α)) (q : WaitQueue α)
    (k : Indexes q.deadlines q.entries) (hb : ∀ s ∈ q.entries.keys, s < q.nextSequence) :
    let r := (l.zipIdx q.nextSequence).foldl
      (fun q e => { q.store e.2 e.1.2 with nextSequence := e.2 + 1 }) q
    Indexes r.deadlines r.entries ∧ (∀ s ∈ r.entries.keys, s < r.nextSequence) ∧
      r.nextSequence = q.nextSequence + l.length ∧ r.waiting = q.waiting ++ l.map Prod.snd ∧
      r.capacity = q.capacity := by
  induction l generalizing q with
  | nil => exact ⟨k, hb, rfl, (append_nil _).symm, rfl⟩
  | cons a l ih =>
    have hi' := store_above k hb a.2
    obtain ⟨below', ws'⟩ := store_last hb a.2
    obtain ⟨index'', below'', next, waiting'', cap⟩ :=
      ih { q.store q.nextSequence a.2 with nextSequence := q.nextSequence + 1 } hi' below'
    refine ⟨index'', below'', ?_, ?_, cap⟩
    · rw [length_cons, Nat.add_comm l.length 1, ← Nat.add_assoc]
      exact next
    · rw [map_cons, append_cons, ← ws']
      exact waiting''

theorem resequence_spec (q : WaitQueue α) :
    Indexes q.resequence.deadlines q.resequence.entries ∧
      (∀ s ∈ q.resequence.entries.keys, s < q.resequence.nextSequence) ∧
      q.resequence.nextSequence = q.len ∧ q.resequence.waiting = q.waiting ∧
      q.resequence.capacity = q.capacity := by
  obtain ⟨k, hb, next, ws, cap⟩ :=
    renumber q.entries.entries
      { q with entries := .empty, scanCursor := none, deadlines := .empty, nextSequence := 0 }
      .empty (fun _ mem => absurd mem not_mem_nil)
  exact ⟨k, hb, next.trans (Nat.zero_add _), ws, cap⟩

/-- A reserved sequence is above all others, with the queue otherwise kept. -/
theorem Indexed.reserveSequence (h : q.Indexed) (hr : q.len < q.capacity.get) :
    Indexes q.reserveSequence.1.deadlines q.reserveSequence.1.entries ∧
      (∀ s ∈ q.reserveSequence.1.entries.keys, s < q.reserveSequence.2) ∧
      q.reserveSequence.1.nextSequence = q.reserveSequence.2 + 1 ∧
      q.reserveSequence.2 < u64Max ∧ q.reserveSequence.1.waiting = q.waiting ∧
      q.reserveSequence.1.capacity = q.capacity := by
  unfold WaitQueue.reserveSequence
  cases next : checkedSucc q.nextSequence with
  | some next =>
    obtain ⟨range, rfl⟩ := checkedSucc_eq_some.1 next
    exact ⟨h.index, h.below, rfl, range, rfl, rfl⟩
  | none =>
    obtain ⟨k, hb, length, ws, cap⟩ := q.resequence_spec
    refine ⟨k, hb, rfl, ?_, ws, cap⟩
    have := q.capacity.le
    change q.resequence.nextSequence < u64Max
    omega

/-- An entry is admitted at the end of a queue with room. -/
theorem Indexed.insertBack (h : q.Indexed) (hr : q.len < q.capacity.get) (v : α) (due : Moment) :
    (q.insertBack v due).1.Indexed ∧ (q.insertBack v due).2 = .ok () ∧
      (q.insertBack v due).1.waiting = q.waiting ++ [⟨v, due⟩] := by
  obtain ⟨k, ha, next, range, ws, cap⟩ := h.reserveSequence hr
  unfold WaitQueue.insertBack
  rw [if_neg (show q.entries.size ≠ q.capacity.get from hr.ne)]
  have hi' := store_above k ha ⟨v, due⟩
  obtain ⟨below', ws'⟩ := store_last ha ⟨v, due⟩
  rw [ws] at ws'
  refine ⟨⟨hi', ?_, ?_, ?_⟩, rfl, ws'⟩
  · exact fun s mem => (below' s mem).trans_eq next.symm
  · rw [len_eq, ws', length_append, ← len_eq]
    exact (Nat.succ_le_of_lt hr).trans_eq (congrArg NonZeroUsize.get cap.symm)
  · exact next.trans_le range

theorem insertBack_full (hf : q.len = q.capacity.get) (v : α) (due : Moment) :
    q.insertBack v due = (q, .error v) :=
  if_pos hf

theorem Indexed.insertBack_indexed (h : q.Indexed) (v : α) (due : Moment) :
    (q.insertBack v due).1.Indexed := by
  rcases h.within.lt_or_eq with hr | hf
  · exact (h.insertBack hr v due).1
  · rw [insertBack_full hf]
    exact h

/-- Removing an entry with its key. -/
theorem Indexed.erase (h : q.Indexed) (hf : q.entries.get s = some e) (cursor : Option ℕ) :
    ({ q with
      scanCursor := cursor
      entries := q.entries.erase s
      deadlines := q.deadlines.erase ⟨e.deadline, s⟩ } : WaitQueue α).Indexed := by
  have mem : s ∈ q.entries.keys := mem_keys.2 ⟨e, hf⟩
  have size := size_erase mem
  have perm := keys_erase_perm mem
  refine ⟨h.index.erase hf, fun s' mem => ?_, ?_, h.range⟩
  · exact h.below s' (perm.mem_iff.2 (mem_cons_of_mem _ mem))
  · have := h.within
    simp only [len] at this ⊢
    omega

theorem get_of_first (first : q.entries.first = some (s, e)) : q.entries.get s = some e :=
  (first_eq_some.1 first).1

theorem get_of_last (last : q.entries.last = some (s, e)) : q.entries.get s = some e :=
  get_eq_some.2 (mem_of_getLast? last)

theorem get_of_scanTarget (tgt : q.scanTarget = some (s, e)) : q.entries.get s = some e := by
  unfold scanTarget at tgt
  cases hc : q.scanCursor with
  | none =>
    rw [hc] at tgt
    exact get_of_first tgt
  | some cursor =>
    rw [hc] at tgt
    rcases Option.or_eq_some_iff.1 tgt with hb | ⟨-, first⟩
    · exact get_eq_some.2 (mem_of_find?_eq_some hb)
    · exact get_of_first first

/-- `takeDue` answers nothing, or an entry of least deadline, which is due. -/
theorem Indexed.takeDue_cases (h : q.Indexed) (now : Moment) :
    (q.takeDue now = (q, none) ∧ ∀ e ∈ q.waiting, now < e.deadline) ∨
    ∃ s e, q.entries.get s = some e ∧ e.deadline ≤ now ∧
      q.takeDue now = ({ q with
        deadlines := q.deadlines.erase ⟨e.deadline, s⟩
        entries := q.entries.erase s }, some (e.value, e.deadline)) := by
  unfold takeDue
  cases first : q.deadlines.first with
  | none =>
    refine Or.inl ⟨rfl, fun e mem => ?_⟩
    have size := h.index.size_eq
    rw [first_eq_none.1 first] at size
    have empty : q.entries.entries = [] := length_eq_zero_iff.1 size.symm
    rw [waiting, empty] at mem
    exact absurd mem not_mem_nil
  | some due =>
    obtain ⟨key, s⟩ := due
    obtain ⟨e, hf, rfl, hl⟩ := h.index.first_least first
    dsimp only
    by_cases early : now < e.deadline
    · rw [if_pos early]
      refine Or.inl ⟨rfl, fun x mem => ?_⟩
      obtain ⟨entry, hf, rfl⟩ := mem_map.1 mem
      exact early.trans_le (hl entry hf)
    · rw [if_neg early, hf]
      exact Or.inr ⟨s, e, hf, not_lt.1 early, rfl⟩

/-- Every operation of a debug build keeps the index exact. -/
theorem Indexed.step (h : q.Indexed) (op : WaitOperation α) : (q.step .debug op).1.Indexed := by
  cases op with
  | push v due | rotateBack v due => exact h.insertBack_indexed v due
  | popFront =>
    change (q.popFront .debug).1.Indexed
    unfold popFront
    cases first : q.entries.first with
    | none => exact h
    | some e => exact h.erase (get_of_first first) q.scanCursor
  | popBack =>
    change (q.popBack .debug).1.Indexed
    unfold popBack
    cases last : q.entries.last with
    | none => exact h
    | some e => exact h.erase (get_of_last last) q.scanCursor
  | scanOne isMatch =>
    change (q.scanOne .debug isMatch).1.Indexed
    unfold scanOne
    cases target : q.scanTarget with
    | none => exact h
    | some e =>
      dsimp only
      split_ifs
      · exact h.erase (get_of_scanTarget target) (some e.1)
      · exact ⟨h.index, h.below, h.within, h.range⟩
  | takeDue now =>
    change (q.takeDue now).1.Indexed
    rcases h.takeDue_cases now with ⟨early, -⟩ | ⟨s, e, hf, -, ht⟩
    · rw [early]
      exact h
    · rw [ht]
      exact h.erase hf q.scanCursor
  | drain => exact ⟨.empty, fun _ mem => absurd mem not_mem_nil, Nat.zero_le _, Nat.zero_le _⟩

/-! ## Release steps -/

/-- The operation removes no entry through `removeDeadline` : a pop finds the queue empty and a
scan does not match the entry it examines. -/
def Retains (q : WaitQueue α) : WaitOperation α → Prop
  | .popFront | .popBack => q.waiting = []
  | .scanOne isMatch => ∀ target ∈ q.scanTarget, isMatch target.2.value = false
  | _ => True

/-- Both builds take the same step on such an operation. -/
theorem step_release_eq_debug {op : WaitOperation α} (hr : q.Retains op) :
    q.step .release op = q.step .debug op := by
  have empty : q.waiting = [] → q.entries.first = none ∧ q.entries.last = none := by
    intro empty
    have es : q.entries.entries = [] := map_eq_nil_iff.1 empty
    exact ⟨by rw [first, es]; rfl, by rw [last, es]; rfl⟩
  cases op with
  | push | rotateBack => rfl
  | popFront => simp only [step, popFront, (empty hr).1]
  | popBack => simp only [step, popBack, (empty hr).2]
  | scanOne isMatch =>
    simp only [step, scanOne]
    cases target : q.scanTarget with
    | none => rfl
    | some e =>
      have hu : isMatch e.2.value = false := hr e target
      simp only [hu, Bool.false_eq_true, if_false]
  | takeDue | drain => rfl

/-! ## Runs -/

/-- The operations on a new queue, with their replies. -/
def run (build : Build) (capacity : NonZeroUsize) (operations : List (WaitOperation α)) :
    List (Event (WaitQueue α) (WaitOperation α) (WaitReply α)) :=
  trace (step build) (new capacity) operations

def after (build : Build) (capacity : NonZeroUsize) (operations : List (WaitOperation α)) :
    WaitQueue α :=
  final (step build) (new capacity) operations

theorem after_debug_indexed (cap : NonZeroUsize) (ops : List (WaitOperation α)) :
    (after .debug cap ops).Indexed :=
  final_invariant (step .debug) (fun _ op h => h.step op) (new_indexed cap) ops

/-- A release run that retains its entries is the debug run. -/
theorem run_release_eq_debug {cap : NonZeroUsize} {ops : List (WaitOperation α)}
    (hr : ∀ e ∈ run .release cap ops, e.before.Retains e.input) :
    run .release cap ops = run .debug cap ops ∧ after .release cap ops = after .debug cap ops := by
  unfold run after at *
  generalize new cap = q at *
  induction ops generalizing q with
  | nil => exact ⟨rfl, rfl⟩
  | cons op ops ih =>
    have hs := step_release_eq_debug (hr _ mem_cons_self)
    obtain ⟨run, after⟩ := ih _ fun e mem => hr e (mem_cons_of_mem _ mem)
    simp only [trace, final, event] at hs run after ⊢
    rw [hs] at run after ⊢
    exact ⟨by rw [run], after⟩

theorem nextDeadline_spec (h : q.Indexed) :
    (q.nextDeadline = none ↔ q.waiting = []) ∧
      ∀ due, q.nextDeadline = some due →
        (∃ e ∈ q.waiting, e.deadline = due) ∧ ∀ e ∈ q.waiting, due ≤ e.deadline := by
  constructor
  · rw [nextDeadline, Option.map_eq_none_iff, first_eq_none, ← length_eq_zero_iff,
      ← len_eq, len, ← h.index.size_eq]
    constructor
    · intro empty
      rw [empty]
      rfl
    · intro size
      exact first_eq_none.1 (head?_eq_none_iff.2 (length_eq_zero_iff.1 size))
  · intro due next
    obtain ⟨⟨key, s⟩, first, rfl⟩ := Option.map_eq_some_iff.1 next
    obtain ⟨e, hf, rfl, hl⟩ := h.index.first_least first
    refine ⟨⟨e, mem_map_of_mem (get_eq_some.1 hf), rfl⟩, fun x mem => ?_⟩
    obtain ⟨entry, hf, rfl⟩ := mem_map.1 mem
    exact hl entry hf

theorem takeDue_isSome_iff (h : q.Indexed) (now : Moment) :
    (q.takeDue now).2.isSome = true ↔ ∃ e ∈ q.waiting, e.deadline ≤ now := by
  rcases h.takeDue_cases now with ⟨early, late⟩ | ⟨s, e, hf, due, ht⟩
  · rw [early]
    refine ⟨nofun, ?_⟩
    rintro ⟨e, mem, due⟩
    exact absurd due (not_le.2 (late e mem))
  · rw [ht]
    exact ⟨fun _ => ⟨e, mem_map_of_mem (get_eq_some.1 hf), due⟩, fun _ => rfl⟩

end WaitQueue

/-- In a release build, while no entry is removed by a pop or a matching scan, the index has
exactly the keys of the retained entries, reads give the least deadline and the due entries,
and the run is that of a debug build. -/
theorem release_index_exact (capacity : NonZeroUsize) (operations : List (WaitOperation α))
    (retains : ∀ e ∈ run .release capacity operations, e.before.Retains e.input) :
    let q := after .release capacity operations
    q.deadlines.keys.Perm (q.entries.entries.map deadlineKey) ∧
      (q.nextDeadline = none ↔ q.waiting = []) ∧
      (∀ due, q.nextDeadline = some due →
        (∃ e ∈ q.waiting, e.deadline = due) ∧ ∀ e ∈ q.waiting, due ≤ e.deadline) ∧
      (∀ now, (q.takeDue now).2.isSome = true ↔ ∃ e ∈ q.waiting, e.deadline ≤ now) ∧
      q.deadlines.size ≤ q.capacity.get ∧
      run .release capacity operations = run .debug capacity operations := by
  intro q
  obtain ⟨run, after⟩ := run_release_eq_debug retains
  have hi : q.Indexed := by
    rw [show q = _ from after]
    exact after_debug_indexed capacity operations
  obtain ⟨empty, hl⟩ := nextDeadline_spec hi
  have hw : q.deadlines.size ≤ q.capacity.get := hi.index.size_eq.trans_le hi.within
  exact ⟨hi.index.keys_perm, empty, hl, takeDue_isSome_iff hi, hw, run⟩

/-- Capacity one, one entry admitted and popped, then another : the index keeps the first key
beside the second, and the second entry is not found when it is due. -/
theorem popped_deadline_stays :
    let q := after (α := ℕ) .release ⟨1, by decide, by decide⟩ [.push 1 ⟨5⟩, .popFront, .push 2 ⟨6⟩]
    q.waiting = [⟨2, ⟨6⟩⟩] ∧ q.deadlines.keys = [⟨⟨5⟩, 0⟩, ⟨⟨6⟩, 1⟩] ∧
      q.nextDeadline = some ⟨5⟩ ∧ q.capacity.get < q.deadlines.size ∧
      (q.takeDue ⟨6⟩).2 = none ∧
      ((after (α := ℕ) .debug ⟨1, by decide, by decide⟩
        [.push 1 ⟨5⟩, .popFront, .push 2 ⟨6⟩]).takeDue ⟨6⟩).2 = some (2, ⟨6⟩) := by
  refine ⟨rfl, rfl, rfl, by decide, rfl, rfl⟩

/-- Two admissions, a scan that matches nothing and an expiry. -/
theorem release_index_exact_expiry :
    let q := after (α := ℕ) .release ⟨2, by decide, by decide⟩
      [.push 1 ⟨9⟩, .push 2 ⟨5⟩, .scanOne fun _ => false, .takeDue ⟨6⟩]
    q.waiting = [⟨1, ⟨9⟩⟩] ∧ q.deadlines.keys.Perm [⟨⟨9⟩, 0⟩] := by
  refine ⟨rfl, (release_index_exact _ _ ?_).1⟩
  intro e mem
  fin_cases mem
  · trivial
  · trivial
  · exact fun _ _ => rfl
  · trivial

end KafkaDriver
