import KafkaDriver.WaitOrder

/-!
# Wait queues as bounded queues with a fair scan

What a `WaitQueue` of a debug build does is a law about the list of its entries in admission
order (`FifoLaw`), and holds after every sequence of operations, from every first sequence
number, so that renumbering is included (`wait_queue_law`).

A scan examines the entry behind its cursor. `scanOrder` lists the entries as the next scans
find them : an examined entry goes to the end or leaves the queue, and no other entry moves
(`scanOrder_scanOne`). So as many scans as there are entries examine each of them once,
wherever the cursor starts.
-/

namespace KafkaDriver

open Runs List OrdMap Prod

variable {α : Type*}

namespace WaitQueue

variable {q : WaitQueue α}

/-! ## The order of scans -/

/-- The entries in the order in which scans find them : those behind the cursor, then the others. -/
def scanOrder (q : WaitQueue α) : List (ℕ × WaitEntry α) :=
  match q.scanCursor with
  | none => q.entries.entries
  | some cursor =>
    q.entries.entries.filter (fun e => cursor < e.1) ++
      q.entries.entries.filter (fun e => e.1 ≤ cursor)

theorem scanOrder_of_none (hc : q.scanCursor = none) : q.scanOrder = q.entries.entries := by
  rw [scanOrder, hc]

theorem scanOrder_of_some {cursor : ℕ} (at_cursor : q.scanCursor = some cursor) :
    q.scanOrder = q.entries.entries.filter (fun e => cursor < e.1) ++
      q.entries.entries.filter (fun e => e.1 ≤ cursor) := by
  rw [scanOrder, at_cursor]

theorem scanOrder_perm (q : WaitQueue α) : q.scanOrder.Perm q.entries.entries := by
  cases cursor : q.scanCursor with
  | none =>
    rw [scanOrder_of_none cursor]
  | some cursor' =>
    rw [scanOrder_of_some cursor]
    exact perm_append_comm.trans (.of_eq (q.entries.entries_eq_filter_append cursor').symm)

/-- A scan examines the first entry of the scan order. -/
theorem scanTarget_eq (q : WaitQueue α) : q.scanTarget = q.scanOrder.head? := by
  unfold scanTarget
  cases cursor : q.scanCursor with
  | none =>
    rw [scanOrder_of_none cursor]
    rfl
  | some cursor' =>
    rw [scanOrder_of_some cursor]
    dsimp only
    rw [next_eq_head?, head?_append, first]
    cases behind : q.entries.entries.filter (fun e => cursor' < e.1) with
    | cons e rest => rfl
    | nil =>
      -- Nothing is behind the cursor, so that all entries are before it.
      have all := q.entries.entries_eq_filter_append cursor'
      rw [behind, append_nil] at all
      rw [← all]

variable {e : ℕ × WaitEntry α} {rest : List (ℕ × WaitEntry α)}

/-- The entries around the one a scan examines. -/
theorem split_of_scanOrder (order : q.scanOrder = e :: rest) :
    ∃ pre post, q.entries.entries = pre ++ e :: post ∧ rest = post ++ pre := by
  cases cursor : q.scanCursor with
  | none =>
    rw [scanOrder_of_none cursor] at order
    exact ⟨[], rest, order, (append_nil _).symm⟩
  | some cursor' =>
    rw [scanOrder_of_some cursor] at order
    have all := q.entries.entries_eq_filter_append cursor'
    cases behind : q.entries.entries.filter (fun e => cursor' < e.1) with
    | cons e' post =>
      rw [behind] at order all
      obtain ⟨rfl, rfl⟩ := cons.inj order
      exact ⟨_, post, all, rfl⟩
    | nil =>
      rw [behind, nil_append] at order
      rw [behind, order, append_nil] at all
      exact ⟨[], rest, all, (append_nil _).symm⟩

/-- One scan : the examined entry leaves or goes to the end of the scan order. -/
theorem scanOrder_scanOne (order : q.scanOrder = e :: rest) (isMatch : α → Bool) :
    (q.scanOne .debug isMatch).1.scanOrder =
      if isMatch e.2.value then rest else rest ++ [e] := by
  obtain ⟨pre, after, split, rfl⟩ := split_of_scanOrder order
  obtain ⟨hbe, ha⟩ := bounds_of_split split
  have tgt : q.scanTarget = some e := by rw [scanTarget_eq, order]; rfl
  unfold scanOne
  rw [tgt]
  dsimp only
  split_ifs
  · obtain ⟨hb, hu⟩ :=
      filter_append_of_bounds (fun x mem => (hbe x mem).le) ha
    rw [scanOrder_of_some (q := (removeEntry _ _ _ _).1) rfl]
    change (q.entries.erase e.1).entries.filter _ ++ (q.entries.erase e.1).entries.filter _ = _
    rw [entries_erase_of_split split, hb, hu]
  · have low (x : ℕ × WaitEntry α) (mem : x ∈ pre ++ [e]) : x.1 ≤ e.1 := by
      rcases mem_append.1 mem with old | last
      · exact (hbe x old).le
      · rw [mem_singleton.1 last]
    obtain ⟨hb, hu⟩ := filter_append_of_bounds low ha
    rw [scanOrder_of_some (q := { q with scanCursor := some e.1 }) rfl]
    dsimp only
    rw [split, append_cons, hb, hu, append_assoc]

/-- The entries that consecutive scans examine, one predicate for each scan. -/
def examined : WaitQueue α → List (α → Bool) → List (ℕ × WaitEntry α)
  | _, [] => []
  | q, isMatch :: rest => q.scanTarget.toList ++ examined (q.scanOne .debug isMatch).1 rest

/-- Scans examine the entries in scan order. -/
theorem examined_eq_take (predicates : List (α → Bool)) (q : WaitQueue α)
    {order later : List (ℕ × WaitEntry α)} (hf : q.scanOrder = order ++ later)
    (hfe : predicates.length ≤ order.length) :
    q.examined predicates = order.take predicates.length := by
  induction predicates generalizing q order later with
  | nil => rfl
  | cons meant rest ih =>
    cases order with
    | nil => cases hfe
    | cons e order =>
      have tgt : q.scanTarget = some e := by rw [scanTarget_eq, hf]; rfl
      have next := scanOrder_scanOne hf meant
      -- The entry goes behind those still to be examined, or leaves.
      obtain ⟨later', hf'⟩ : ∃ later', (q.scanOne .debug meant).1.scanOrder = order ++ later' := by
        rw [next]
        split_ifs
        · exact ⟨later, rfl⟩
        · exact ⟨later ++ [e], append_assoc _ _ _⟩
      rw [examined, tgt, ih _ hf' (Nat.le_of_succ_le_succ hfe)]
      rfl

/-- As many scans as there are entries examine each of them once. -/
theorem examined_perm (q : WaitQueue α) {predicates : List (α → Bool)}
    (all : predicates.length = q.len) : (q.examined predicates).Perm q.entries.entries := by
  have length : predicates.length = q.scanOrder.length :=
    all.trans q.scanOrder_perm.length_eq.symm
  rw [examined_eq_take predicates q (append_nil _).symm length.le, length, take_length]
  exact q.scanOrder_perm

/-! ## Deadlines -/

/-- `takeDue` on a list of entries : it leaves the list if nothing is due, and else takes the
entry that is least by deadline and admission. -/
inductive TakesDue (now : Moment) :
    List (WaitEntry α) → Option (α × Moment) → List (WaitEntry α) → Prop
  | none {waiting : List (WaitEntry α)} (early : ∀ e ∈ waiting, now < e.deadline) :
      TakesDue now waiting none waiting
  | some {before after : List (WaitEntry α)} {e : WaitEntry α} (due : e.deadline ≤ now)
      (first : ∀ x ∈ before, e.deadline < x.deadline)
      (least : ∀ x ∈ after, e.deadline ≤ x.deadline) :
      TakesDue now (before ++ e :: after) (some (e.value, e.deadline)) (before ++ after)

/-- The first key of an index is that of the entry least by deadline and admission. -/
theorem Indexed.split_of_first (h : q.Indexed) {key : DeadlineKey} {s : ℕ}
    (first : q.deadlines.first = some (key, s)) :
    ∃ pre e post, q.entries.entries = pre ++ (s, e) :: post ∧ key = ⟨e.deadline, s⟩ ∧
      (∀ x ∈ pre, e.deadline < x.2.deadline) ∧ ∀ x ∈ post, e.deadline ≤ x.2.deadline := by
  obtain ⟨hit, hle⟩ := first_eq_some.1 first
  obtain ⟨rfl, e, hf, due⟩ := (h.index key s).1 hit
  obtain ⟨pre, post, split⟩ := append_of_mem (get_eq_some.1 hf)
  obtain ⟨hb, -⟩ := bounds_of_split split
  have hl' (x : ℕ × WaitEntry α) (mem : x ∈ q.entries.entries) :
      key.deadline < x.2.deadline ∨ key.deadline = x.2.deadline ∧ key.sequence ≤ x.1 :=
    Prod.Lex.le_iff.1 (hle (deadlineKey x) (h.index.keys_perm.mem_iff.2 (mem_map_of_mem mem)))
  rw [split] at hl'
  refine ⟨pre, e, post, split, by rw [due], fun x mem => ?_, fun x mem => ?_⟩
  · rw [due]
    rcases hl' x (mem_append_left _ mem) with lt | ⟨-, hl⟩
    · exact lt
    · exact absurd (hb x mem) (not_lt.2 hl)
  · rw [due]
    rcases hl' x (mem_append_right _ (mem_cons_of_mem _ mem)) with lt | ⟨eq, -⟩
    · exact lt.le
    · exact eq.le

theorem Indexed.takesDue (h : q.Indexed) (now : Moment) :
    TakesDue now q.waiting (q.takeDue now).2 (q.takeDue now).1.waiting := by
  unfold WaitQueue.takeDue
  cases found : q.deadlines.first with
  | none =>
    have empty : q.waiting = [] := (nextDeadline_spec h).1.1 (by rw [nextDeadline, found]; rfl)
    refine .none fun e mem => ?_
    rw [empty] at mem
    cases mem
  | some due =>
    obtain ⟨key, s⟩ := due
    obtain ⟨pre, e, post, split, rfl, first, hle⟩ := h.split_of_first found
    have hg : q.entries.get s = some e := get_eq_some.2 (by rw [split]; simp)
    have ws : q.waiting = pre.map snd ++ e :: post.map snd := by
      rw [WaitQueue.waiting, split, map_append, map_cons]
    have hf' (x : WaitEntry α) (mem : x ∈ pre.map snd) : e.deadline < x.deadline := by
      obtain ⟨y, old, rfl⟩ := mem_map.1 mem
      exact first y old
    have hl' (x : WaitEntry α) (mem : x ∈ post.map snd) : e.deadline ≤ x.deadline := by
      obtain ⟨y, hl, rfl⟩ := mem_map.1 mem
      exact hle y hl
    dsimp only
    by_cases early : now < e.deadline
    · rw [if_pos early]
      refine .none fun x mem => ?_
      rw [ws] at mem
      rcases mem_append.1 mem with old | hl
      · exact early.trans (hf' x old)
      · rcases mem_cons.1 hl with rfl | hl
        · exact early
        · exact early.trans_le (hl' x hl)
    · rw [if_neg early, hg]
      have left : ({ q with
          deadlines := q.deadlines.erase ⟨e.deadline, s⟩
          entries := q.entries.erase s } : WaitQueue α).waiting =
          pre.map snd ++ post.map snd := by
        have he := entries_erase_of_split split
        rw [WaitQueue.waiting, he, map_append]
      dsimp only
      rw [left, ws]
      exact .some (not_lt.1 early) hf' hl'

/-- The next deadline is the least one. -/
theorem Indexed.nextDeadline_eq (h : q.Indexed) :
    q.nextDeadline = (q.waiting.map (·.deadline)).min? := by
  obtain ⟨empty, hl⟩ := nextDeadline_spec h
  cases next : q.nextDeadline with
  | none =>
    rw [empty.1 next]
    rfl
  | some due =>
    obtain ⟨⟨e, mem, hi⟩, hb⟩ := hl due next
    refine (min?_eq_some_iff.2 ⟨?_, ?_⟩).symm
    · exact hi ▸ mem_map_of_mem mem
    · intro ne hf
      obtain ⟨x, hw, rfl⟩ := mem_map.1 hf
      exact hb x hw

/-! ## Runs -/

/-- Values that are changed in place keep their numbers and deadlines. -/
theorem Indexed.iterMut (h : q.Indexed) (f : α → α) : (q.iterMut f).Indexed := by
  have keys : (q.iterMut f).entries.keys = q.entries.keys := by
    simp [WaitQueue.iterMut, OrdMap.map, OrdMap.keys]
  refine ⟨fun key s => ?_, ?_, ?_, h.range⟩
  · have hf : (q.iterMut f).entries.get s =
        (q.entries.get s).map fun e => { e with value := f e.value } := OrdMap.get_map _ _ _
    rw [hf]
    refine (h.index key s).trans (and_congr_right fun _ => ?_)
    constructor
    · rintro ⟨e, hg, due⟩
      exact ⟨{ e with value := f e.value }, by rw [hg]; rfl, due⟩
    · rintro ⟨_, hc, due⟩
      obtain ⟨e, hg, rfl⟩ := Option.map_eq_some_iff.1 hc
      exact ⟨e, hg, due⟩
  · rw [keys]
    exact h.below
  · rw [len_eq, waiting_iterMut, length_map, ← len_eq]
    exact h.within

/-- The operations, and changes of the waiting values in place. -/
inductive WaitUse (α : Type*) where
  | operation (operation : WaitOperation α)
  | iterMut (f : α → α)

/-- A use of a queue. -/
def use (build : Build) (q : WaitQueue α) : WaitUse α → WaitQueue α × Option (WaitReply α)
  | .operation operation => ((q.step build operation).1, some (q.step build operation).2)
  | .iterMut f => (q.iterMut f, none)

/-- A queue whose numbering starts at `start`. -/
def startingAt (capacity : NonZeroUsize) (start : ℕ) : WaitQueue α :=
  { new capacity with nextSequence := start }

theorem capacity_use (build : Build) (q : WaitQueue α) (u : WaitUse α) :
    (q.use build u).1.capacity = q.capacity := by
  cases u with
  | iterMut f => rfl
  | operation op =>
    cases op with
    | push value due | rotateBack value due => exact q.capacity_push value due
    | popFront => exact (q.popFront_takes build).capacity
    | popBack => exact (q.popBack_takes build).capacity
    | scanOne meant => exact (q.scanOne_takes build meant).capacity
    | takeDue now => exact (q.takeDue_takes now).capacity
    | drain => rfl

/-- What a queue does, in terms of the list of its entries in admission order. -/
structure FifoLaw (capacity : NonZeroUsize) (q : WaitQueue α) : Prop where
  /-- Every entry has its deadline in the index, so that no assertion fails. -/
  asserted : ∀ e ∈ q.entries.entries, q.deadlines.get (deadlineKey e) = some e.1
  within : q.len ≤ capacity.get
  full : q.len = capacity.get → ∀ value deadline, q.push value deadline = (q, .error value)
  joins : q.len ≠ capacity.get → ∀ value deadline, (q.push value deadline).2 = .ok () ∧
    (q.push value deadline).1.waiting = q.waiting ++ [⟨value, deadline⟩]
  oldest : (q.popFront .debug).2 = q.waiting.head?.map (fun e => (e.value, e.deadline)) ∧
    (q.popFront .debug).1.waiting = q.waiting.tail
  newest : (q.popBack .debug).2 = q.waiting.getLast?.map (fun e => (e.value, e.deadline)) ∧
    (q.popBack .debug).1.waiting = q.waiting.dropLast
  due : ∀ now, TakesDue now q.waiting (q.takeDue now).2 (q.takeDue now).1.waiting
  next : q.nextDeadline = (q.waiting.map (·.deadline)).min?
  fair : ∀ predicates : List (α → Bool), predicates.length = q.len →
    (q.examined predicates).Perm q.entries.entries
  scanned : ∀ isMatch e, q.scanTarget = some e → ∃ before after,
    q.entries.entries = before ++ e :: after ∧
      if isMatch e.2.value then
        (q.scanOne .debug isMatch).2 = some (e.2.value, e.2.deadline) ∧
          (q.scanOne .debug isMatch).1.entries.entries = before ++ after
      else
        (q.scanOne .debug isMatch).2 = none ∧
          (q.scanOne .debug isMatch).1.entries.entries = q.entries.entries
  renumbered : q.resequence.waiting = q.waiting ∧ q.resequence.nextDeadline = q.nextDeadline

theorem Indexed.resequence (h : q.Indexed) : q.resequence.Indexed := by
  obtain ⟨k, hb, next, ws, cap⟩ := q.resequence_spec
  have hw : q.resequence.len ≤ q.capacity.get := by
    rw [len_eq, ws, ← len_eq]
    exact h.within
  refine ⟨k, hb, ?_, ?_⟩
  · rw [cap]
    exact hw
  · rw [next]
    exact h.within.trans q.capacity.le

theorem scanOne_spec (isMatch : α → Bool) (tgt : q.scanTarget = some e) :
    ∃ pre post, q.entries.entries = pre ++ e :: post ∧
      if isMatch e.2.value then
        (q.scanOne .debug isMatch).2 = some (e.2.value, e.2.deadline) ∧
          (q.scanOne .debug isMatch).1.entries.entries = pre ++ post
      else
        (q.scanOne .debug isMatch).2 = none ∧
          (q.scanOne .debug isMatch).1.entries.entries = q.entries.entries := by
  have mem : e ∈ q.entries.entries := get_eq_some.1 (get_of_scanTarget tgt)
  obtain ⟨pre, post, split⟩ := append_of_mem mem
  refine ⟨pre, post, split, ?_⟩
  unfold scanOne
  rw [tgt]
  dsimp only
  split_ifs
  · exact ⟨rfl, entries_erase_of_split split⟩
  · exact ⟨rfl, rfl⟩

/-- An indexed queue keeps the law. -/
theorem Indexed.law (h : q.Indexed) : FifoLaw q.capacity q where
  asserted e mem := (h.index _ _).2 ⟨rfl, e.2, get_eq_some.2 mem, rfl⟩
  within := h.within
  full full value deadline := insertBack_full full value deadline
  joins room value deadline := (h.insertBack (lt_of_le_of_ne h.within room) value deadline).2
  oldest := by
    rcases q.waiting_popFront .debug with ⟨empty, pop⟩ | ⟨e, hp, ws⟩
    · rw [pop, empty]
      exact ⟨rfl, rfl⟩
    · rw [hp, ws]
      exact ⟨rfl, rfl⟩
  newest := by
    rcases q.waiting_popBack .debug with ⟨empty, pop⟩ | ⟨e, hp, ws⟩
    · rw [pop, empty]
      exact ⟨rfl, rfl⟩
    · rw [hp, ws]
      simp
  due now := h.takesDue now
  next := h.nextDeadline_eq
  fair _ all := q.examined_perm all
  scanned isMatch _ target := scanOne_spec isMatch target
  renumbered := by
    obtain ⟨-, -, -, ws, -⟩ := q.resequence_spec
    refine ⟨ws, ?_⟩
    rw [h.resequence.nextDeadline_eq, h.nextDeadline_eq, ws]

theorem Indexed.use (h : q.Indexed) (u : WaitUse α) : (q.use .debug u).1.Indexed := by
  cases u with
  | operation op => exact h.step op
  | iterMut f => exact h.iterMut f

/-- A queue of a debug build keeps the law of a bounded queue with a fair scan, wherever its
numbering starts and whatever is done with it. -/
theorem wait_queue_law (capacity : NonZeroUsize) (start : ℕ) (range : start ≤ u64Max)
    (uses : List (WaitUse α)) :
    FifoLaw capacity (final (use .debug) (startingAt capacity start) uses) := by
  have hr : (final (use .debug) (startingAt capacity start) uses).Indexed ∧
      (final (use .debug) (startingAt capacity start) uses).capacity = capacity := by
    refine final_invariant (I := fun q : WaitQueue α => q.Indexed ∧ q.capacity = capacity)
      (use .debug) (fun q u ⟨hi, hs⟩ => ⟨hi.use u, ?_⟩) ⟨?_, rfl⟩ uses
    · exact (capacity_use .debug q u).trans hs
    · exact ⟨.empty, fun _ mem => absurd mem not_mem_nil, Nat.zero_le _, range⟩
  obtain ⟨hi, hs⟩ := hr
  have law := hi.law
  rwa [hs] at law

/-- Three entries, the second of them after the numbers ran out : the queue is renumbered, and
three scans, one of which removes what it examines, examine all of them. -/
theorem wait_queue_law_renumbered :
    let q := final (use .debug) (startingAt (α := ℕ) ⟨3, by decide, by decide⟩ (u64Max - 1))
      [.operation (.push 1 ⟨9⟩), .operation (.push 2 ⟨5⟩), .operation (.scanOne fun _ => false),
        .operation (.push 3 ⟨5⟩)]
    q.entries.keys = [0, 1, 2] ∧ FifoLaw ⟨3, by decide, by decide⟩ q ∧
      (q.examined [fun _ => false, fun value => value = 3, fun _ => false]).Perm
        q.entries.entries := by
  have law := wait_queue_law (α := ℕ) ⟨3, by decide, by decide⟩ (u64Max - 1) (by decide)
    [.operation (.push 1 ⟨9⟩), .operation (.push 2 ⟨5⟩), .operation (.scanOne fun _ => false),
      .operation (.push 3 ⟨5⟩)]
  exact ⟨by decide +kernel, law, law.fair _ (by decide +kernel)⟩

end WaitQueue

end KafkaDriver
