import KafkaDriver.WaitOrder

/-!
# Waiters under a byte budget

The metadata owner keeps three bounded collections of waiters : calls for a partition leader,
calls for a controller or broker route, and demands for a topic view. They differ in what
they wait for and in how they are answered, and are otherwise one program, `Waiters`.

New evidence begins a scan over the waiters present (`beginScan`). Each turn of `scan`
examines as many as its budget allows, from the front : a waiter is settled, or put back
behind the others. While no scan is pending a turn settles due waiters instead. What a turn
does to the queue is `examineLoop_eq` : it examines the first waiters, each once, and leaves
the undecided ones behind the others.
-/

namespace KafkaDriver

open List WaitQueue

/-- A waiter with the bytes charged for it. -/
structure Charged (α : Type*) where
  value : α
  bytes : ℕ
  deriving DecidableEq

structure Waiters (α : Type*) where
  calls : WaitQueue (Charged α)
  retainedBytes : ℕ
  callLimit : NonZeroUsize
  byteLimit : NonZeroUsize
  scanRemaining : ℕ
  duePending : Bool

/-- How waiters of one kind are told that their deadline passed or that there is no room. -/
structure WaitPolicy (α φ : Type*) where
  expired : α → φ
  refused : NonZeroUsize → NonZeroUsize → α → φ

/-- The outcome of one turn : `due` waiters whose deadline passed, and the answers given to
the `examined` ones. -/
structure WaitScan (φ : Type*) where
  due : List φ
  examined : ℕ
  answered : List φ
  moreWork : Bool

namespace Waiters

variable {α φ : Type*}

def new (callLimit byteLimit : NonZeroUsize) : Waiters α :=
  ⟨.new callLimit, 0, callLimit, byteLimit, 0, false⟩

/-- The waiters in queue order. -/
def waiting (w : Waiters α) : List (WaitEntry (Charged α)) := w.calls.waiting

variable (build : Build) (policy : WaitPolicy α φ) (w : Waiters α) (now : Moment)

/-- Queue a waiter, or refuse it. -/
def admitEntry (value : α) (bytes : ℕ) (deadline : Moment) : Waiters α × List φ × Bool :=
  if u64Max < w.retainedBytes + bytes then
    (w, [policy.refused w.callLimit w.byteLimit value], false)
  else if w.calls.len = w.callLimit.get ∨ w.byteLimit.get < w.retainedBytes + bytes then
    (w, [policy.refused w.callLimit w.byteLimit value], false)
  else
    match w.calls.push ⟨value, bytes⟩ deadline with
    | (calls, .error waiting) =>
      ({ w with calls }, [policy.refused w.callLimit w.byteLimit waiting.value], false)
    | (calls, .ok ()) => ({ w with calls, retainedBytes := w.retainedBytes + bytes }, [], true)

/-- Take the last waiter back, if it is the one meant. -/
def retractLast (isMeant : α → Bool) : Waiters α × Option α :=
  if w.calls.back.any fun last => isMeant last.value then
    match w.calls.popBack build with
    | (calls, none) => ({ w with calls }, none)
    | (calls, some (waiting, _)) =>
      ({ w with calls, retainedBytes := wrappingSub w.retainedBytes waiting.bytes },
        some waiting.value)
  else (w, none)

def beginScan : Waiters α := { w with scanRemaining := w.calls.len }

/-- Settle due waiters while `budget` lasts. -/
def expireDue (policy : WaitPolicy α φ) (now : Moment) : ℕ → Waiters α → Waiters α × List φ
  | 0, w => (w, [])
  | budget + 1, w =>
    match w.calls.takeDue now with
    | (calls, none) => ({ w with calls }, [])
    | (calls, some (waiting, _)) =>
      match expireDue policy now budget
        { w with calls, retainedBytes := wrappingSub w.retainedBytes waiting.bytes } with
      | (w, due) => (w, policy.expired waiting.value :: due)

/-- What a waiter is told when it is examined, if anything. -/
def verdict (examine : α → Option φ) (value : α) (deadline : Moment) : Option φ :=
  if deadline ≤ now then some (policy.expired value) else examine value

/-- Put an undecided waiter back behind the others. -/
def rotate (waiting : Charged α) (deadline : Moment) : Waiters α × List φ :=
  match w.calls.rotateBack waiting deadline with
  | (calls, .error waiting) =>
    ({ w with calls }, [policy.refused w.callLimit w.byteLimit waiting.value])
  | (calls, .ok ()) => ({ w with calls, retainedBytes := w.retainedBytes + waiting.bytes }, [])

/-- Examine waiters from the front. -/
def examineLoop (build : Build) (policy : WaitPolicy α φ) (now : Moment)
    (examine : α → Option φ) : ℕ → Waiters α → Waiters α × List φ
  | 0, w => (w, [])
  | count + 1, w =>
    match w.calls.popFront build with
    | (calls, none) => ({ w with calls, scanRemaining := 0 }, [])
    | (calls, some (waiting, deadline)) =>
      let taken : Waiters α :=
        { w with
          calls
          scanRemaining := wrappingPred w.scanRemaining
          retainedBytes := wrappingSub w.retainedBytes waiting.bytes }
      let answered : Waiters α × List φ :=
        match verdict policy now examine waiting.value deadline with
        | some answer => (taken, [answer])
        | none => taken.rotate policy waiting deadline
      match examineLoop build policy now examine count answered.1 with
      | (w, answers) => (w, answered.2 ++ answers)

/-- One turn over the waiters. -/
def scan (budget : NonZeroUsize) (examine : α → Option φ) : Waiters α × WaitScan φ :=
  let expired := if w.scanRemaining = 0 then expireDue policy now budget.get w else (w, [])
  let examined := min expired.1.scanRemaining (budget.get - expired.2.length)
  let rest := examineLoop build policy now examine examined expired.1
  let duePending := rest.1.calls.nextDeadline.any fun deadline => deadline ≤ now
  ({ rest.1 with duePending },
    ⟨expired.2, examined, rest.2, rest.1.scanRemaining ≠ 0 ∨ duePending⟩)

/-- Settle all waiters. -/
def failAll (failure : α → φ) : Waiters α × List φ :=
  ({ w with calls := w.calls.drain.1, retainedBytes := 0, scanRemaining := 0, duePending := false },
    w.calls.drain.2.map fun waiting => failure waiting.value)

/-! ## The queue behind the waiters -/

/-- A queue in order, with the pending scan inside it. -/
structure Scannable (w : Waiters α) : Prop where
  bounded : w.calls.Bounded
  covered : w.scanRemaining ≤ w.waiting.length

variable {w : Waiters α} {policy : WaitPolicy α φ}

theorem new_scannable (lim cap : NonZeroUsize) : (new lim cap : Waiters α).Scannable :=
  ⟨new_bounded _, Nat.zero_le _⟩

theorem failAll_scannable (w : Waiters α) (err : α → φ) : (w.failAll err).1.Scannable :=
  ⟨w.calls.drain_bounded, Nat.zero_le _⟩

theorem Scannable.beginScan (h : w.Scannable) : w.beginScan.Scannable :=
  ⟨h.bounded, (w.calls.len_eq).le⟩

/-- An admitted waiter is behind the others; a refused one leaves the queue as it is. -/
theorem Scannable.admitEntry (h : w.Scannable) (pol : WaitPolicy α φ) (v : α) (bytes : ℕ)
    (due : Moment) :
    (w.admitEntry pol v bytes due).1.Scannable ∧
      (w.admitEntry pol v bytes due).1.scanRemaining = w.scanRemaining ∧
      ((w.admitEntry pol v bytes due).2 = ([], true) ∧
        (w.admitEntry pol v bytes due).1.waiting = w.waiting ++ [⟨⟨v, bytes⟩, due⟩] ∨
      w.admitEntry pol v bytes due = (w, [pol.refused w.callLimit w.byteLimit v], false)) := by
  unfold Waiters.admitEntry
  split_ifs with overflow hf
  · exact ⟨h, rfl, .inr rfl⟩
  · exact ⟨h, rfl, .inr rfl⟩
  rcases h.bounded.within.lt_or_eq with room | full
  · obtain ⟨hb, ans, ws⟩ := h.bounded.push room ⟨v, bytes⟩ due
    have hp : w.calls.push ⟨v, bytes⟩ due =
        ((w.calls.push ⟨v, bytes⟩ due).1, .ok ()) := by rw [← ans]
    rw [hp]
    refine ⟨⟨hb, ?_⟩, rfl, .inl ⟨rfl, ws⟩⟩
    change w.scanRemaining ≤ (w.calls.push ⟨v, bytes⟩ due).1.waiting.length
    rw [ws, length_append]
    exact h.covered.trans (Nat.le_add_right _ _)
  · have hr : w.calls.push ⟨v, bytes⟩ due = (w.calls, .error ⟨v, bytes⟩) :=
      insertBack_full ((len_eq _).trans full) _ _
    rw [hr]
    exact ⟨h, rfl, .inr rfl⟩

/-! ## What waiters are told -/

section

variable (w policy) (now : Moment) (build : Build)

theorem admitEntry_told (v : α) (bytes : ℕ) (due : Moment) :
    ∀ told ∈ (w.admitEntry policy v bytes due).2.1,
      ∃ v, told = policy.refused w.callLimit w.byteLimit v := by
  unfold Waiters.admitEntry
  split_ifs
  · simp
  · simp
  · split <;> simp

theorem expireDue_told (b : ℕ) :
    ∀ told ∈ (w.expireDue policy now b).2, ∃ value, told = policy.expired value := by
  induction b generalizing w with
  | zero => simp [expireDue]
  | succ b ih =>
    unfold expireDue
    split
    · simp
    rename_i cs ws due ht
    intro told mem
    rcases mem_cons.1 mem with rfl | hl
    · exact ⟨_, rfl⟩
    · exact ih _ told hl

/-- An examined waiter is told its deadline, that there is no room, or what `examine` says. -/
def Told (policy : WaitPolicy α φ) (examine : α → Option φ) (told : φ) : Prop :=
  ∃ value, told = policy.expired value ∨
    (∃ callLimit byteLimit, told = policy.refused callLimit byteLimit value) ∨
    examine value = some told

theorem examineLoop_told (examine : α → Option φ) (n : ℕ) :
    ∀ told ∈ (w.examineLoop build policy now examine n).2, Told policy examine told := by
  induction n generalizing w with
  | zero => simp [examineLoop]
  | succ n ih =>
    unfold examineLoop
    split
    · simp
    rename_i cs ws due ht
    intro told mem
    rcases mem_append.1 mem with first | hl
    · refine ⟨ws.value, ?_⟩
      split at first
      · rename_i reply hs
        rw [mem_singleton.1 first]
        unfold verdict at hs
        split_ifs at hs
        · exact .inl (Option.some.inj hs).symm
        · exact .inr (.inr hs)
      · unfold rotate at first
        split at first
        · rename_i _ hf
          cases insertBack_refused hf
          exact .inr (.inl ⟨_, _, mem_singleton.1 first⟩)
        · cases first
    · exact ih _ told hl

theorem scan_told (b : NonZeroUsize) (examine : α → Option φ) :
    ∀ told ∈ (w.scan build policy now b examine).2.due ++
        (w.scan build policy now b examine).2.answered, Told policy examine told := by
  intro told mem
  rcases mem_append.1 mem with due | ha
  · unfold Waiters.scan at due
    dsimp only at due
    split_ifs at due
    · obtain ⟨v, he⟩ := w.expireDue_told policy now b.get told due
      exact ⟨v, .inl he⟩
    · cases due
  · exact examineLoop_told _ policy now build examine _ told ha

end

/-! ## Operations on the queue -/

variable {value : α} {bytes : ℕ} {deadline : Moment} {w' : Waiters α} {told : List φ}

/-- A refused waiter leaves the queue as it is. -/
theorem Scannable.of_refused (h : w.Scannable)
    (ans : w.admitEntry policy value bytes deadline = (w', told, false)) : w' = w := by
  obtain ⟨-, -, ⟨adm, -⟩ | hr⟩ := h.admitEntry policy value bytes deadline
  · rw [ans] at adm
    cases adm
  · rw [ans] at hr
    cases hr
    rfl

/-- An admitted waiter is behind the others. -/
theorem Scannable.of_admitted (h : w.Scannable)
    (ans : w.admitEntry policy value bytes deadline = (w', told, true)) :
    w'.Scannable ∧ w'.scanRemaining = w.scanRemaining ∧
      w'.waiting = w.waiting ++ [⟨⟨value, bytes⟩, deadline⟩] := by
  obtain ⟨hs, left, ⟨-, ws⟩ | hr⟩ := h.admitEntry policy value bytes deadline
  · rw [ans] at hs left ws
    exact ⟨hs, left, ws⟩
  · rw [ans] at hr
    cases hr

/-- A waiter that was just admitted can be taken back. -/
theorem Scannable.of_retracted (h : w.Scannable) {taken : α} {w'' : Waiters α} {b : Build}
    {isMeant : α → Bool} (ans : w.admitEntry policy value bytes deadline = (w', told, true))
    (hr : w'.retractLast b isMeant = (w'', some taken)) :
    w''.Scannable ∧ w''.scanRemaining = w.scanRemaining ∧ w''.waiting = w.waiting := by
  obtain ⟨hs, left, last⟩ := h.of_admitted ans
  have hb := hs.bounded.takes (w'.calls.popBack_takes b)
  unfold retractLast at hr
  split_ifs at hr
  swap
  · cases hr
  rcases w'.calls.waiting_popBack b with ⟨-, pop⟩ | ⟨e, hp, ws⟩
  · rw [pop] at hr
    cases hr
  obtain ⟨rest, entry⟩ := append_inj' (last.symm.trans ws) rfl
  cases entry
  have pair : w'.calls.popBack b = ((w'.calls.popBack b).1, some (⟨value, bytes⟩, deadline)) :=
    Prod.ext rfl hp
  rw [pair] at hr
  cases hr
  refine ⟨⟨hb, ?_⟩, left, rest.symm⟩
  change w'.scanRemaining ≤ (w'.calls.popBack b).1.waiting.length
  rw [← rest, left]
  exact h.covered

/-- Changing waiters in place keeps the queue. -/
theorem Scannable.iterMut (h : w.Scannable) (f : Charged α → Charged α) :
    ({ w with calls := w.calls.iterMut f } : Waiters α).Scannable := by
  refine ⟨h.bounded.iterMut f, ?_⟩
  change w.scanRemaining ≤ (w.calls.iterMut f).waiting.length
  rw [waiting_iterMut, length_map]
  exact h.covered

variable (policy) (now : Moment) (budget : ℕ) (build : Build)

/-- Settling due waiters leaves the others in order. -/
theorem expireDue_spec (h : w.calls.Bounded) :
    (w.expireDue policy now budget).1.calls.Bounded ∧
      (w.expireDue policy now budget).1.waiting.Sublist w.waiting ∧
      (w.expireDue policy now budget).1.scanRemaining = w.scanRemaining := by
  induction budget generalizing w with
  | zero => exact ⟨h, .refl _, rfl⟩
  | succ budget ih =>
    unfold expireDue
    split
    · rename_i calls hta
      have ht := Takes.of_takeDue hta
      exact ⟨h.takes ht, ht.inOrder, rfl⟩
    · rename_i calls ws deadline hta
      have ht := Takes.of_takeDue hta
      obtain ⟨hb', fewer', left⟩ :=
        ih (w := { w with calls, retainedBytes := wrappingSub w.retainedBytes ws.bytes })
          (h.takes ht)
      exact ⟨hb', fewer'.trans ht.inOrder, left⟩

theorem scanRemaining_expireDue (w : Waiters α) :
    (w.expireDue policy now budget).1.scanRemaining = w.scanRemaining := by
  induction budget generalizing w with
  | zero => rfl
  | succ budget ih =>
    unfold expireDue
    split
    · rfl
    · exact ih _

/-- A waiter taken from the front can be put back behind the others. -/
theorem rotate_spec {cs : WaitQueue (Charged α)} (hb : cs.Bounded)
    (hr : cs.waiting.length < cs.capacity.get) (hg : w.calls = cs)
    (ws : Charged α) (due : Moment) :
    (w.rotate policy ws due).1.calls.Bounded ∧
      (w.rotate policy ws due).1.waiting = cs.waiting ++ [⟨ws, due⟩] ∧
      (w.rotate policy ws due).1.scanRemaining = w.scanRemaining ∧
      (w.rotate policy ws due).2 = [] := by
  subst hg
  obtain ⟨hb', ans, hbe⟩ := hb.push hr ws due
  have hp : w.calls.rotateBack ws due = ((w.calls.push ws due).1, .ok ()) := by
    rw [← ans]
    rfl
  unfold rotate
  rw [hp]
  exact ⟨hb', hbe, rfl, rfl⟩

/-- What an entry of the queue is told. -/
def answer (policy : WaitPolicy α φ) (now : Moment) (examine : α → Option φ)
    (entry : WaitEntry (Charged α)) : Option φ :=
  verdict policy now examine entry.value.value entry.deadline

/-- Examining the first `count` waiters : each is asked once, in order; the undecided ones
are behind the others. -/
theorem examineLoop_eq (examine : α → Option φ) {n : ℕ} (hb : w.calls.Bounded)
    (hi : n ≤ w.waiting.length) (p : n ≤ w.scanRemaining) :
    (w.examineLoop build policy now examine n).1.calls.Bounded ∧
      (w.examineLoop build policy now examine n).1.waiting = w.waiting.drop n ++
        (w.waiting.take n).filter (fun e => (answer policy now examine e).isNone) ∧
      (w.examineLoop build policy now examine n).1.scanRemaining = w.scanRemaining - n ∧
      (w.examineLoop build policy now examine n).2 =
        (w.waiting.take n).filterMap (answer policy now examine) := by
  induction n generalizing w with
  | zero => exact ⟨hb, by simp [examineLoop], rfl, by simp [examineLoop]⟩
  | succ n ih =>
    obtain ⟨e, rest, front⟩ := exists_cons_of_length_pos (Nat.zero_lt_of_lt hi)
    obtain ⟨popped, hp, hb', rfl, hr⟩ := hb.popFront_cons build front
    rw [front, length_cons, Nat.succ_le_succ_iff] at hi
    have one : wrappingPred w.scanRemaining = w.scanRemaining - 1 :=
      if_neg (Nat.ne_zero_of_lt p)
    -- the waiter just taken is answered, or put back behind the others
    let taken : Waiters α :=
      { w with
        calls := popped
        scanRemaining := wrappingPred w.scanRemaining
        retainedBytes := wrappingSub w.retainedBytes e.value.bytes }
    rw [front, drop_succ_cons, take_succ_cons, filter_cons, filterMap_cons]
    unfold examineLoop
    simp only [hp]
    cases told : verdict policy now examine e.value.value e.deadline with
    | some reply =>
      obtain ⟨hk, ws, left, ans⟩ :=
        ih (w := taken) hb' hi (by simp only [taken]; omega)
      have hs : answer policy now examine e = some reply := told
      refine ⟨hk, ?_, ?_, ?_⟩
      · rw [hs]
        exact ws
      · rw [left]
        simp only [taken]
        omega
      · rw [hs]
        exact congrArg (cons reply) ans
    | none =>
      obtain ⟨hg, queue, scan, hq⟩ :=
        rotate_spec (w := taken) policy hb' hr rfl e.value e.deadline
      obtain ⟨hk, ws, left, ans⟩ :=
        ih (w := (taken.rotate policy e.value e.deadline).1) hg
          (by rw [queue, length_append]; omega) (by rw [scan]; simp only [taken]; omega)
      have hs : answer policy now examine e = none := told
      have whole : n ≤ popped.waiting.length := hi
      rw [queue, take_append_of_le_length whole] at ans ws
      rw [drop_append_of_le_length whole] at ws
      refine ⟨hk, ?_, ?_, ?_⟩
      · simpa [hs] using ws
      · rw [left, scan]
        simp only [taken]
        omega
      · rw [hs]
        exact (congrArg (· ++ _) hq).trans ans

/-- The waiters a turn with this budget examines. -/
def front (w : Waiters α) (budget : NonZeroUsize) : List (WaitEntry (Charged α)) :=
  w.waiting.take (min w.scanRemaining budget.get)

/-- A turn answers due waiters with their deadline and each waiter at the front as it is
examined. -/
theorem Scannable.scan (h : w.Scannable) (build : Build) (pol : WaitPolicy α φ) (now : Moment)
    (b : NonZeroUsize) (examine : α → Option φ) :
    (w.scan build pol now b examine).1.Scannable ∧
      (∀ told ∈ (w.scan build pol now b examine).2.due, ∃ value, told = pol.expired value) ∧
      (w.scan build pol now b examine).2.answered =
        (w.front b).filterMap (answer pol now examine) := by
  unfold Waiters.scan front
  by_cases idle : w.scanRemaining = 0
  · obtain ⟨hb, -, left⟩ := expireDue_spec pol now b.get h.bounded
    rw [idle] at left
    simp only [idle, if_true, left, Nat.zero_min, examineLoop, take_zero, filterMap_nil, and_true]
    exact ⟨⟨hb, Nat.zero_le _⟩, w.expireDue_told pol now b.get⟩
  · obtain ⟨hb, ws, left, ans⟩ :=
      examineLoop_eq pol now build examine h.bounded
        ((min_le_left w.scanRemaining b.get).trans h.covered) (min_le_left _ _)
    simp only [idle, if_false, length_nil, Nat.sub_zero]
    refine ⟨⟨hb, ?_⟩, by simp, ans⟩
    have hc := h.covered
    change (w.examineLoop build pol now examine _).1.scanRemaining ≤
      (w.examineLoop build pol now examine _).1.waiting.length
    rw [left, ws, length_append, length_drop]
    omega

/-- What a turn does to the queue : while no scan is pending it takes due waiters out, and
otherwise it goes over the waiters at the front and leaves the undecided ones behind the
others. -/
theorem Scannable.scan_waiting (h : w.Scannable) (b : NonZeroUsize) (examine : α → Option φ) :
    w.scanRemaining = 0 ∧ (w.scan build policy now b examine).1.scanRemaining = 0 ∧
      (w.scan build policy now b examine).1.waiting.Sublist w.waiting ∨
    (w.scan build policy now b examine).1.scanRemaining =
        w.scanRemaining - min w.scanRemaining b.get ∧
      (w.scan build policy now b examine).1.waiting =
        w.waiting.drop (min w.scanRemaining b.get) ++
          (w.front b).filter fun e => (answer policy now examine e).isNone := by
  unfold Waiters.scan front
  by_cases idle : w.scanRemaining = 0
  · obtain ⟨-, hf, left⟩ := expireDue_spec policy now b.get h.bounded
    rw [idle] at left
    simp only [idle, if_true, left, Nat.zero_min, examineLoop]
    exact .inl ⟨trivial, trivial, hf⟩
  · obtain ⟨-, ws, left, -⟩ :=
      examineLoop_eq policy now build examine h.bounded
        ((min_le_left w.scanRemaining b.get).trans h.covered) (min_le_left _ _)
    simp only [idle, if_false, length_nil, Nat.sub_zero]
    exact .inr ⟨left, ws⟩

end Waiters

end KafkaDriver
