import KafkaDriver.CallTickets
import KafkaDriver.Waiters

/-!
# Charges of waiting calls

Six collections of the driver are a `WaitQueue` and a counter of the bytes charged for its
entries. `Accounted` says that the counter is exact, that it is within its limit and that the
queue has the capacity the limit on calls allows. An entry that leaves takes its charge with it
(`Accounted.removed`), so that no subtraction underflows, and an entry that joins brings its own
(`Accounted.joined`). The calls of a route are counted a second time : those that opted out of
waiting behind a failed route.
-/

namespace KafkaDriver

open List

namespace WaitQueue

variable {β : Type*} {q q' : WaitQueue β} {cost : β → ℕ} {value : β} {deadline : Moment}

/-! ## Totals -/

/-- The sum of a cost over the entries. -/
def total (cost : β → ℕ) (q : WaitQueue β) : ℕ := (q.waiting.map fun e => cost e.value).sum

theorem total_of_removed (ht : Takes q (some (value, deadline)) q') :
    q.total cost = cost value + q'.total cost :=
  (ht.taken.map fun e : WaitEntry β => cost e.value).sum_eq

theorem total_of_kept (ht : Takes q none q') : q'.total cost = q.total cost :=
  ((ht.taken.map fun e : WaitEntry β => cost e.value).sum_eq).symm

theorem total_of_joined (ws : q'.waiting = q.waiting ++ [⟨value, deadline⟩]) :
    q'.total cost = q.total cost + cost value := by
  rw [total, ws, map_append, sum_append]
  rfl

theorem total_iterMut {f : β → β} (hs : ∀ value, cost (f value) = cost value) :
    (q.iterMut f).total cost = q.total cost := by
  rw [total, waiting_iterMut, map_map]
  simp only [total, Function.comp_def, hs]

/-- Taking an entry out does not underflow. -/
theorem wrappingSub_total (ht : Takes q (some (value, deadline)) q') :
    wrappingSub (q.total cost) (cost value) = q'.total cost := by
  rw [total_of_removed ht, wrappingSub, if_pos (Nat.le_add_right _ _), Nat.add_sub_cancel_left]

/-! ## Accounts -/

/-- The bytes charged for the entries are counted exactly and within the limits. -/
structure Accounted (cost : β → ℕ) (callLimit byteLimit : NonZeroUsize) (q : WaitQueue β)
    (retained : ℕ) : Prop where
  bounded : q.Bounded
  capacity : q.capacity = callLimit
  counted : retained = q.total cost
  within : retained ≤ byteLimit.get

variable {callLimit byteLimit : NonZeroUsize} {retained : ℕ}

theorem new_accounted (cost : β → ℕ) (lim cap : NonZeroUsize) :
    (new lim : WaitQueue β).Accounted cost lim cap 0 :=
  ⟨new_bounded lim, rfl, rfl, Nat.zero_le _⟩

namespace Accounted

theorem removed (h : q.Accounted cost callLimit byteLimit retained)
    (ht : Takes q (some (value, deadline)) q') :
    q'.Accounted cost callLimit byteLimit (wrappingSub retained (cost value)) := by
  have left : wrappingSub retained (cost value) = q'.total cost := by
    rw [h.counted]
    exact wrappingSub_total ht
  refine ⟨h.bounded.takes ht, ht.capacity.trans h.capacity, left, ?_⟩
  have whole : q.total cost = cost value + q'.total cost := total_of_removed ht
  have hc := h.counted
  have hw := h.within
  omega

theorem kept (h : q.Accounted cost callLimit byteLimit retained) (ht : Takes q none q') :
    q'.Accounted cost callLimit byteLimit retained :=
  ⟨h.bounded.takes ht, ht.capacity.trans h.capacity,
    h.counted.trans (total_of_kept ht).symm, h.within⟩

/-- An entry that fits joins at the end. -/
theorem joined (h : q.Accounted cost callLimit byteLimit retained)
    (hr : q.len ≠ callLimit.get) (value : β) (hf : retained + cost value ≤ byteLimit.get)
    (deadline : Moment) :
    ∃ queue : WaitQueue β, q.push value deadline = (queue, .ok ()) ∧
      queue.waiting = q.waiting ++ [⟨value, deadline⟩] ∧
      queue.Accounted cost callLimit byteLimit (retained + cost value) := by
  have free : q.waiting.length < q.capacity.get := by
    have hw := h.bounded.within
    rw [len_eq] at hr
    rw [h.capacity] at hw ⊢
    omega
  obtain ⟨hbo, ans, ws⟩ := h.bounded.push free value deadline
  refine ⟨(q.push value deadline).1, Prod.ext rfl ans, ws, hbo,
    (q.capacity_push value deadline).trans h.capacity, ?_, hf⟩
  rw [h.counted, total_of_joined ws]

theorem drained (h : q.Accounted cost callLimit byteLimit retained) :
    q.drain.1.Accounted cost callLimit byteLimit 0 :=
  ⟨q.drain_bounded, h.capacity, rfl, Nat.zero_le _⟩

theorem iterMut (h : q.Accounted cost callLimit byteLimit retained) {f : β → β}
    (hs : ∀ value, cost (f value) = cost value) :
    (q.iterMut f).Accounted cost callLimit byteLimit retained :=
  ⟨h.bounded.iterMut f, h.capacity, h.counted.trans (total_iterMut hs).symm, h.within⟩

/-- As many entries as the limit on calls allows. -/
theorem length_le (h : q.Accounted cost callLimit byteLimit retained) :
    q.waiting.length ≤ callLimit.get := by
  rw [← h.capacity]
  exact h.bounded.within

end Accounted

end WaitQueue

/-! ## Calls of a route or a lane -/

namespace CallAccount

open WaitQueue

/-- Bytes and opted-out calls are counted exactly, and requests carry their deadlines. -/
structure Exact (a : CallAccount) : Prop where
  accounted : a.calls.Accounted WaitingCall.bytes a.callLimit a.byteLimit a.retained
  rejecting : ∀ count ∈ a.rejecting,
    count = a.calls.total (·.request.rejectsAfterRouteFailure.toNat)
  established : ∀ e ∈ a.calls.waiting, e.value.request.absolute = some e.deadline

variable {a a' : CallAccount} {calls : WaitQueue WaitingCall} {fates : List RequestFate}
  {ticket : ℕ}

theorem Exact.take (h : a.Exact) {ws : WaitingCall} {deadline : Moment}
    (ht : a.calls.Takes (some (ws, deadline)) calls) : (a.released calls ws).Exact := by
  refine ⟨h.accounted.removed ht, fun count hc => ?_,
    fun e mem => h.established e (ht.inOrder.mem mem)⟩
  obtain ⟨pre, hh, rfl⟩ := Option.map_eq_some_iff.1 hc
  rw [h.rejecting pre hh]
  exact wrappingSub_total ht

theorem Exact.turn (h : a.Exact) (ht : a.calls.Takes none calls) :
    ({ a with calls } : CallAccount).Exact :=
  ⟨h.accounted.kept ht, fun count hh => (h.rejecting count hh).trans
    (total_of_kept ht).symm, fun e mem => h.established e (ht.inOrder.mem mem)⟩

theorem Settles.exact (hs : Settles fates a a') (h : a.Exact) : a'.Exact := by
  induction hs with
  | stay => exact h
  | turn ht => exact h.turn ht
  | take ht rest ih => exact ih (h.take ht)

theorem Admits.exact (ha : Admits ticket fates a a') (h : a.Exact) : a'.Exact := by
  cases ha with
  | refuse => exact h
  | @join _ calls req deadline hp hs absolute hr hf =>
    obtain ⟨queue, hj, ws, acc⟩ :=
      h.accounted.joined hr ⟨req, req.retainedBytes⟩ hf deadline
    rw [hp] at hj
    cases hj
    refine ⟨acc, fun count hc => ?_, fun e mem => ?_⟩
    · obtain ⟨pre, hh, rfl⟩ := Option.map_eq_some_iff.1 hc
      rw [h.rejecting pre hh, total_of_joined ws]
    · change e ∈ calls.waiting at mem
      rw [ws] at mem
      rcases mem_append.1 mem with old | last
      · exact h.established e old
      · rw [mem_singleton.1 last]
        exact absolute

end CallAccount

namespace RouteWaiting

variable {w : RouteWaiting}

theorem new_exact (lim cap turnBudget : NonZeroUsize) : (new lim cap turnBudget).account.Exact :=
  ⟨WaitQueue.new_accounted _ lim cap, fun _ hg => (Option.some.inj hg).symm,
    fun _ mem => absurd mem not_mem_nil⟩

theorem pop_exact (h : w.account.Exact) (build : Build) (now : Moment)
    (outcome : Option OutcomeStamp) :
    (w.pop build now outcome).1.account.Exact ∧
      (w.pop build now outcome).1.account.limits = w.account.limits ∧
      ∀ req, (w.pop build now outcome).2.2 = .ready req →
        ∃ deadline, req.absolute = some deadline ∧ now < deadline := by
  unfold RouteWaiting.pop
  split
  · rename_i hp
    exact ⟨h.turn (.of_popFront hp), rfl, nofun⟩
  · rename_i waiting deadline hp
    have ht := WaitQueue.Takes.of_popFront hp
    split_ifs with due
    · exact ⟨h.take ht, rfl, nofun⟩
    · refine ⟨h.take ht, rfl, ?_⟩
      rintro req ⟨⟩
      exact ⟨deadline, h.established _ ht.taken_mem, not_le.1 due⟩

end RouteWaiting

theorem PendingRequests.pop_exact {p : PendingRequests} (h : p.account.Exact) (build : Build) :
    (p.pop build).1.account.Exact ∧ (p.pop build).1.account.limits = p.account.limits := by
  unfold PendingRequests.pop
  split
  · rename_i hp
    exact ⟨h.turn (.of_popFront hp), rfl⟩
  · rename_i hp
    exact ⟨h.take (.of_popFront hp), rfl⟩

/-! ## Waiters of the owners -/

namespace Waiters

open WaitQueue

variable {α φ : Type*}

/-- Bytes are counted exactly. -/
def Exact (w : Waiters α) : Prop :=
  w.calls.Accounted Charged.bytes w.callLimit w.byteLimit w.retainedBytes

/-- Between `w` and `w'` the entries `left` left, and no others. -/
structure Leaves (left : List (WaitEntry (Charged α))) (w w' : Waiters α) : Prop where
  counted : w'.Exact
  callLimit : w'.callLimit = w.callLimit
  byteLimit : w'.byteLimit = w.byteLimit
  others : (left ++ w'.waiting).Perm w.waiting

variable {w w' w'' : Waiters α} {left left' : List (WaitEntry (Charged α))}

theorem new_exact (lim cap : NonZeroUsize) : (new lim cap : Waiters α).Exact :=
  new_accounted _ lim cap

theorem Exact.stays (h : w.Exact) : Leaves [] w w := ⟨h, rfl, rfl, .refl _⟩

theorem Leaves.trans (h : Leaves left w w') (h' : Leaves left' w' w'') :
    Leaves (left ++ left') w w'' := by
  refine ⟨h'.counted, h'.callLimit.trans h.callLimit, h'.byteLimit.trans h.byteLimit, ?_⟩
  rw [append_assoc]
  exact (h'.others.append_left left).trans h.others

/-- The charges of those who leave are returned. -/
theorem Leaves.bytes (hl : Leaves left w w') (h : w.Exact) :
    (left.map (·.value.bytes)).sum + w'.retainedBytes = w.retainedBytes := by
  have sum := (hl.others.map fun e => e.value.bytes).sum_eq
  rw [map_append, sum_append] at sum
  rw [hl.counted.counted, h.counted]
  exact sum

variable {calls : WaitQueue (Charged α)}

/-- One entry is taken out. -/
theorem Exact.take (h : w.Exact) {ws : Charged α} {deadline : Moment}
    (ht : Takes w.calls (some (ws, deadline)) calls) (scanRemaining : ℕ) :
    Leaves [⟨ws, deadline⟩] w
      { w with
        calls
        scanRemaining
        retainedBytes := wrappingSub w.retainedBytes ws.bytes } :=
  ⟨WaitQueue.Accounted.removed h ht, rfl, rfl, ht.taken.symm⟩

theorem Exact.keep (h : w.Exact) (ht : Takes w.calls none calls) (scanRemaining : ℕ) :
    Leaves [] w { w with calls, scanRemaining } :=
  ⟨WaitQueue.Accounted.kept h ht, rfl, rfl, ht.taken.symm⟩

/-- A waiter joins, or is refused and nothing changes. -/
theorem Exact.admitEntry (h : w.Exact) (pol : WaitPolicy α φ) (value : α) (bytes : ℕ)
    (deadline : Moment) :
    (∃ w', w.admitEntry pol value bytes deadline = (w', [], true) ∧ w'.Exact ∧
      w'.callLimit = w.callLimit ∧ w'.byteLimit = w.byteLimit ∧
      w'.waiting = w.waiting ++ [⟨⟨value, bytes⟩, deadline⟩]) ∨
    w.admitEntry pol value bytes deadline =
      (w, [pol.refused w.callLimit w.byteLimit value], false) := by
  unfold Waiters.admitEntry
  split_ifs with overflow full
  · exact .inr rfl
  · exact .inr rfl
  obtain ⟨hr, hf⟩ := not_or.1 full
  obtain ⟨queue, hp, ws, acc⟩ :=
    WaitQueue.Accounted.joined h hr ⟨value, bytes⟩ (not_lt.1 hf) deadline
  rw [hp]
  exact .inl ⟨_, rfl, acc, rfl, rfl, ws⟩

/-- The last waiter is taken back if it is the one meant. -/
theorem Exact.retractLast (h : w.Exact) (build : Build) (isMeant : α → Bool) :
    ∃ left, Leaves left w (w.retractLast build isMeant).1 ∧
      (w.retractLast build isMeant).2.toList = left.map (·.value.value) := by
  have ht := w.calls.popBack_takes build
  unfold Waiters.retractLast
  split_ifs
  · split
    · rename_i hp
      rw [hp] at ht
      exact ⟨[], h.keep ht w.scanRemaining, rfl⟩
    · rename_i hp
      rw [hp] at ht
      exact ⟨_, h.take ht w.scanRemaining, rfl⟩
  · exact ⟨[], h.stays, rfl⟩

/-- Due waiters leave. -/
theorem Exact.expireDue (h : w.Exact) (pol : WaitPolicy α φ) (now : Moment) (budget : ℕ) :
    ∃ left, Leaves left w (w.expireDue pol now budget).1 ∧
      (w.expireDue pol now budget).2 = left.map (pol.expired ·.value.value) := by
  induction budget generalizing w with
  | zero => exact ⟨[], h.stays, rfl⟩
  | succ budget ih =>
    unfold Waiters.expireDue
    split
    · rename_i hta
      exact ⟨[], h.keep (.of_takeDue hta) w.scanRemaining, rfl⟩
    · rename_i calls ws deadline hta
      have first := h.take (.of_takeDue hta) w.scanRemaining
      obtain ⟨left, rest, told⟩ := ih first.counted
      exact ⟨⟨ws, deadline⟩ :: left, first.trans rest, congrArg _ told⟩

/-- A waiter that was taken out fits when it is put back. -/
theorem Leaves.rotate {ws : Charged α} {due : Moment} (h : w.Exact)
    (ht : Leaves [⟨ws, due⟩] w w') (pol : WaitPolicy α φ) :
    Leaves [] w (w'.rotate pol ws due).1 ∧ (w'.rotate pol ws due).2 = [] := by
  have length := ht.others.length_eq
  have pre : w.waiting.length ≤ w.callLimit.get := h.length_le
  have hc : ws.bytes + w'.retainedBytes = w.retainedBytes := ht.bytes h
  have room : w'.calls.len ≠ w'.callLimit.get := by
    rw [len_eq, ht.callLimit]
    change w'.waiting.length ≠ _
    rw [length_append, length_singleton] at length
    omega
  have hf : w'.retainedBytes + ws.bytes ≤ w'.byteLimit.get := by
    have hwi := h.within
    rw [ht.byteLimit]
    omega
  obtain ⟨queue, hp, hw, acc⟩ :=
    WaitQueue.Accounted.joined ht.counted room ws hf due
  have hr : w'.calls.rotateBack ws due = (queue, .ok ()) := hp
  unfold Waiters.rotate
  rw [hr]
  refine ⟨⟨acc, ht.callLimit, ht.byteLimit, ?_⟩, rfl⟩
  change queue.waiting.Perm w.waiting
  rw [hw]
  exact perm_append_comm.trans ht.others

/-- The waiters that are examined and decided leave; putting back the others never fails. -/
theorem Exact.examineLoop (h : w.Exact) (build : Build) (pol : WaitPolicy α φ) (now : Moment)
    (examine : α → Option φ) (count : ℕ) :
    ∃ left, Leaves left w (w.examineLoop build pol now examine count).1 ∧
      left.map (answer pol now examine) =
        (w.examineLoop build pol now examine count).2.map some := by
  induction count generalizing w with
  | zero => exact ⟨[], h.stays, rfl⟩
  | succ count ih =>
    unfold Waiters.examineLoop
    split
    · rename_i hp
      exact ⟨[], h.keep (.of_popFront hp) 0, rfl⟩
    · rename_i calls ws deadline hp
      have hta := h.take (.of_popFront hp) (wrappingPred w.scanRemaining)
      dsimp only
      cases told : verdict pol now examine ws.value deadline with
      | some reply =>
        obtain ⟨left, rest, ha⟩ := ih hta.counted
        have hs : answer pol now examine ⟨ws, deadline⟩ = some reply := told
        refine ⟨⟨ws, deadline⟩ :: left, hta.trans rest, ?_⟩
        rw [map_cons, hs, ha]
        rfl
      | none =>
        obtain ⟨hr, hq⟩ := hta.rotate h pol
        obtain ⟨left, rest, ha⟩ := ih hr.counted
        refine ⟨left, hr.trans rest, ha.trans ?_⟩
        dsimp only
        rw [hq]
        rfl

/-- A turn : due waiters and decided ones leave, with what they are told. -/
theorem Exact.scan (h : w.Exact) (build : Build) (pol : WaitPolicy α φ) (now : Moment)
    (b : NonZeroUsize) (examine : α → Option φ) :
    ∃ due gone, Leaves (due ++ gone) w (w.scan build pol now b examine).1 ∧
      (w.scan build pol now b examine).2.due = due.map (pol.expired ·.value.value) ∧
      gone.map (answer pol now examine) = (w.scan build pol now b examine).2.answered.map some := by
  unfold Waiters.scan
  dsimp only
  obtain ⟨due, first, expired⟩ : ∃ due, Leaves due w
      (if w.scanRemaining = 0 then w.expireDue pol now b.get else (w, [])).1 ∧
      (if w.scanRemaining = 0 then w.expireDue pol now b.get else (w, [])).2 =
        due.map (pol.expired ·.value.value) := by
    split_ifs
    · exact h.expireDue pol now b.get
    · exact ⟨[], h.stays, rfl⟩
  obtain ⟨gone, rest, ans⟩ := first.counted.examineLoop build pol now examine
    (min (if w.scanRemaining = 0 then w.expireDue pol now b.get else (w, [])).1.scanRemaining
      (b.get - (if w.scanRemaining = 0 then w.expireDue pol now b.get else (w, [])).2.length))
  have whole := first.trans rest
  exact ⟨due, gone, ⟨whole.counted, whole.callLimit, whole.byteLimit, whole.others⟩, expired, ans⟩

theorem Exact.failAll (h : w.Exact) (err : α → φ) :
    ∃ left, Leaves left w (w.failAll err).1 ∧ (w.failAll err).2 = left.map (err ·.value.value) := by
  refine ⟨w.waiting, ⟨WaitQueue.Accounted.drained h, rfl, rfl, ?_⟩, ?_⟩
  · exact .of_eq (append_nil _)
  · simp only [Waiters.failAll, WaitQueue.drain, waiting, WaitQueue.waiting, map_map]
    rfl

end Waiters

end KafkaDriver
