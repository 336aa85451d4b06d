import KafkaDriver.WaitingRooms

/-!
# The law of the six collections

The waiters of the coordinator owner are taken out one by one. A call that is taken out is put
back, routed or failed by the owner before another call comes in, so that its place and its
charge are still free. `drain_eq_scan` says that the turns of the owner, which take calls out in
a loop, are the turns of the other waiters.

`waiting_calls_settled_once` is the law for all of them.
-/

namespace KafkaDriver

open Runs List TopicViewWaiters WaitQueue RouteWaiting

/-! ## Calls for a coordinator -/

inductive WaitingCoordinatorOutcome where
  | empty
  | settled (fate : CoordinatorFate)
  | ready (waiting : Charged WaitingCoordinatorCall) (deadline : Moment)

namespace CoordinatorWaiters

open CoordinatorOwner (waitPolicy)

variable (build : Build) (w : CoordinatorWaiters) (now : Moment)

/-- Take the next call of a scan out. -/
def pop : CoordinatorWaiters × WaitingCoordinatorOutcome :=
  if w.scanRemaining = 0 then (w, .empty)
  else
    match w.calls.popFront build with
    | (calls, none) => ({ w with calls, scanRemaining := 0 }, .empty)
    | (calls, some (waiting, deadline)) =>
      let taken : CoordinatorWaiters :=
        { w with
          calls
          scanRemaining := wrappingPred w.scanRemaining
          retainedBytes := wrappingSub w.retainedBytes waiting.bytes }
      if deadline ≤ now then (taken, .settled (waitPolicy.expired waiting.value))
      else (taken, .ready waiting deadline)

/-- Put a call back, or fail it. -/
def retain (waiting : Charged WaitingCoordinatorCall) (deadline : Moment) :
    CoordinatorWaiters × List CoordinatorFate × Bool :=
  match w.calls.rotateBack waiting deadline with
  | (calls, .error waiting) =>
    ({ w with calls }, [waitPolicy.refused w.callLimit w.byteLimit waiting.value], false)
  | (calls, .ok ()) =>
    ({ w with calls, retainedBytes := w.retainedBytes + waiting.bytes }, [], true)

def refreshDue : CoordinatorWaiters :=
  { w with duePending := w.calls.nextDeadline.any fun deadline => deadline ≤ now }

/-- Fail due calls while no scan is pending. -/
def expireDue (w : CoordinatorWaiters) (now : Moment) (budget : ℕ) :
    CoordinatorWaiters × List CoordinatorFate :=
  if w.scanRemaining ≠ 0 then (w, [])
  else
    match Waiters.expireDue waitPolicy now budget w with
    | (w, fates) => (refreshDue w now, fates)

/-- Take calls out and decide on them. -/
def drainLoop (build : Build) (now : Moment)
    (examine : WaitingCoordinatorCall → Option CoordinatorFate) :
    ℕ → CoordinatorWaiters → CoordinatorWaiters × List CoordinatorFate
  | 0, w => (w, [])
  | count + 1, w =>
    match pop build w now with
    | (w, .empty) => (w, [])
    | (w, .settled fate) =>
      match drainLoop build now examine count w with
      | (w, fates) => (w, fate :: fates)
    | (w, .ready waiting deadline) =>
      let decided : CoordinatorWaiters × List CoordinatorFate :=
        match examine waiting.value with
        | some fate => (w, [fate])
        | none => ((retain w waiting deadline).1, (retain w waiting deadline).2.1)
      match drainLoop build now examine count decided.1 with
      | (w, fates) => (w, decided.2 ++ fates)

/-- A turn over the calls. -/
def drain (budget : NonZeroUsize) (examine : WaitingCoordinatorCall → Option CoordinatorFate) :
    CoordinatorWaiters × List CoordinatorFate :=
  let expired := expireDue w now budget.get
  let examined := drainLoop build now examine (budget.get - expired.2.length) expired.1
  (refreshDue examined.1 now, expired.2 ++ examined.2)

theorem retain_eq_rotate (ws : Charged WaitingCoordinatorCall) (due : Moment) :
    ((retain w ws due).1, (retain w ws due).2.1) = w.rotate waitPolicy ws due := by
  unfold retain Waiters.rotate
  cases w.calls.rotateBack ws due with
  | mk cs ans => cases ans <;> rfl

/-- The loop examines what is left of the scan. -/
theorem drainLoop_eq (build : Build) (now : Moment)
    (examine : WaitingCoordinatorCall → Option CoordinatorFate) (count : ℕ)
    (w : CoordinatorWaiters) :
    drainLoop build now examine count w =
      w.examineLoop build waitPolicy now examine (min w.scanRemaining count) := by
  induction count generalizing w with
  | zero => rw [Nat.min_zero]; rfl
  | succ count ih =>
    by_cases idle : w.scanRemaining = 0
    · rw [idle, Nat.zero_min]
      simp only [drainLoop, pop, idle, if_true, Waiters.examineLoop]
    have one : wrappingPred w.scanRemaining = w.scanRemaining - 1 := if_neg idle
    have hm : min w.scanRemaining (count + 1) = min (w.scanRemaining - 1) count + 1 := by omega
    rw [hm]
    unfold drainLoop Waiters.examineLoop pop
    rw [if_neg idle]
    cases popped : w.calls.popFront build with
    | mk calls front =>
      cases front with
      | none => rfl
      | some front =>
        obtain ⟨ws, due⟩ := front
        dsimp only
        unfold Waiters.verdict
        split_ifs
        · dsimp only
          rw [ih]
          dsimp only
          rw [one]
          rfl
        · dsimp only
          cases examine ws.value with
          | some fate =>
            dsimp only
            rw [ih]
            dsimp only
            rw [one]
          | none =>
            dsimp only
            have hr := retain_eq_rotate { w with
              calls
              scanRemaining := wrappingPred w.scanRemaining
              retainedBytes := wrappingSub w.retainedBytes ws.bytes } ws due
            rw [← hr, ih]
            have hk : ((retain { w with
                calls
                scanRemaining := wrappingPred w.scanRemaining
                retainedBytes := wrappingSub w.retainedBytes ws.bytes } ws
                due).1).scanRemaining = w.scanRemaining - 1 := by
              rw [← one]
              unfold retain
              split <;> rfl
            rw [hk]

/-- A turn over the calls is a turn over waiters. -/
theorem drain_eq_scan (b : NonZeroUsize)
    (examine : WaitingCoordinatorCall → Option CoordinatorFate) :
    drain build w now b examine =
      ((w.scan build waitPolicy now b examine).1,
        (w.scan build waitPolicy now b examine).2.due ++
          (w.scan build waitPolicy now b examine).2.answered) := by
  unfold drain Waiters.scan expireDue
  dsimp only
  by_cases idle : w.scanRemaining = 0
  · have hs : (Waiters.expireDue waitPolicy now b.get w).1.scanRemaining = 0 :=
      (Waiters.scanRemaining_expireDue waitPolicy now b.get w).trans idle
    have hn : (refreshDue (Waiters.expireDue waitPolicy now b.get w).1 now).scanRemaining = 0 :=
      hs
    simp only [idle, ne_eq, not_true_eq_false, if_true, if_false, drainLoop_eq, hn, hs,
      Nat.zero_min, Waiters.examineLoop]
    simp only [refreshDue, hs]
  · simp only [idle, ne_eq, not_false_eq_true, if_true, if_false, drainLoop_eq]
    rfl

end CoordinatorWaiters

/-- A call that was taken out, and when. -/
structure TakenCall where
  waiting : Charged WaitingCoordinatorCall
  deadline : Moment
  now : Moment

/-- The waiters of the coordinator owner, with the calls in its hands. -/
structure CoordinatorHall where
  waiters : CoordinatorWaiters
  taken : List TakenCall

inductive HallInput where
  | enter (waiting : CoordinatorOwner.CoordinatorWait) (now : Moment)
  | retractLast (ticket : ℕ)
  | beginScan
  | pop (now : Moment)
  | retain (index : ℕ)
  | route (index : ℕ)
  | fail (index : ℕ)
  | expireDue (now : Moment) (budget : ℕ)
  | refreshDue (now : Moment)
  | failAll (failure : RequestError)

/-- Who comes in with an input. -/
def HallInput.arrivals : HallInput → List ℕ
  | .enter waiting _ => [waiting.request.ticket]
  | _ => []

/-- The waiter a fate is about. -/
def CoordinatorFate.ident : CoordinatorFate → ℕ
  | .failed request _ => request.ticket
  | .routed request _ => request.ticket
  | .invalidated completion _ => completion

namespace CoordinatorHall

open CoordinatorOwner (waitPolicy)

/-- Decide on one of the calls in hand. -/
def decideOn (s : CoordinatorHall) (index : ℕ)
    (decision : TakenCall → CoordinatorWaiters × List Departure) :
    CoordinatorHall × List Departure :=
  match s.taken[index]? with
  | none => (s, [])
  | some call => (⟨(decision call).1, s.taken.eraseIdx index⟩, (decision call).2)

variable (build : Build)

/-- The room of the coordinator owner. -/
def room : WaitingRoom CoordinatorHall HallInput where
  step s
    | .enter waiting now =>
      (⟨(CoordinatorOwner.admitCall s.waiters waiting now).1, s.taken⟩,
        (CoordinatorOwner.admitCall s.waiters waiting now).2.1.map fun fate => .settled fate.ident)
    | .retractLast ticket =>
      (⟨(s.waiters.retractLast build fun last => last.request.ticket = ticket).1, s.taken⟩,
        (s.waiters.retractLast build fun last => last.request.ticket = ticket).2.toList.map
          fun waiting => .retracted waiting.request.ticket)
    | .beginScan => (⟨s.waiters.beginScan, s.taken⟩, [])
    | .pop now =>
      match CoordinatorWaiters.pop build s.waiters now with
      | (waiters, .empty) => (⟨waiters, s.taken⟩, [])
      | (waiters, .settled fate) => (⟨waiters, s.taken⟩, [.settled fate.ident])
      | (waiters, .ready waiting deadline) => (⟨waiters, ⟨waiting, deadline, now⟩ :: s.taken⟩, [])
    | .retain index =>
      s.decideOn index fun call =>
        ((CoordinatorWaiters.retain s.waiters call.waiting call.deadline).1,
          (CoordinatorWaiters.retain s.waiters call.waiting call.deadline).2.1.map
            fun fate => .settled fate.ident)
    | .route index =>
      s.decideOn index fun call => (s.waiters, [.routed call.waiting.value.request call.now])
    | .fail index =>
      s.decideOn index fun call => (s.waiters, [.settled call.waiting.value.request.ticket])
    | .expireDue now budget =>
      (⟨(CoordinatorWaiters.expireDue s.waiters now budget).1, s.taken⟩,
        (CoordinatorWaiters.expireDue s.waiters now budget).2.map fun fate => .settled fate.ident)
    | .refreshDue now => (⟨CoordinatorWaiters.refreshDue s.waiters now, s.taken⟩, [])
    | .failAll failure =>
      (⟨(s.waiters.failAll fun waiting => CoordinatorFate.failed waiting.request failure).1,
          s.taken⟩,
        (s.waiters.failAll fun waiting => CoordinatorFate.failed waiting.request failure).2.map
          fun fate => .settled fate.ident)
  arrivals := HallInput.arrivals
  queued s := s.waiters.waiting.map fun e => (e.value.value.request.ticket, e.value.bytes)
  inHand s := s.taken.map fun call => call.waiting.value.request.ticket
  retained s := s.waiters.retainedBytes
  putBack s
    | .retain index =>
      (s.taken[index]?).toList.map fun call =>
        (CoordinatorWaiters.retain s.waiters call.waiting call.deadline).2.2
    | _ => []

/-- Calls come in when none is in the hands of the owner. -/
def Allowed (s : CoordinatorHall) (input : HallInput) : Prop :=
  input.arrivals ≠ [] → s.taken = []

instance (s : CoordinatorHall) (input : HallInput) : Decidable (s.Allowed input) :=
  inferInstanceAs (Decidable (_ → _))

/-- The hall between inputs : there is room for the calls in hand, and they were taken in time. -/
structure Kept (callLimit byteLimit : NonZeroUsize) (s : CoordinatorHall) : Prop where
  exact_count : s.waiters.Exact
  sameCalls : s.waiters.callLimit = callLimit
  sameBytes : s.waiters.byteLimit = byteLimit
  roomForCalls : s.waiters.waiting.length + s.taken.length ≤ callLimit.get
  roomForBytes : s.waiters.retainedBytes + (s.taken.map (·.waiting.bytes)).sum ≤ byteLimit.get
  established : ∀ e ∈ s.waiters.waiting, e.value.value.request.absolute = some e.deadline
  inTime : ∀ call ∈ s.taken,
    call.waiting.value.request.absolute = some call.deadline ∧ call.now < call.deadline

variable {callLimit byteLimit : NonZeroUsize} {s s' : CoordinatorHall} {w : CoordinatorWaiters}
  {left : List (WaitEntry (Charged WaitingCoordinatorCall))} {input : HallInput} {gone : List ℕ}

/-- Calls leave the queue, and the calls in hand stay. -/
theorem Kept.leaves (h : s.Kept callLimit byteLimit) (hl : Waiters.Leaves left s.waiters w) :
    (⟨w, s.taken⟩ : CoordinatorHall).Kept callLimit byteLimit := by
  have hb := hl.bytes h.exact_count
  have length := hl.others.length_eq
  rw [length_append] at length
  have cs := h.roomForCalls
  have room := h.roomForBytes
  refine ⟨hl.counted, hl.callLimit.trans h.sameCalls, hl.byteLimit.trans h.sameBytes,
    ?_, ?_, fun e mem => ?_, h.inTime⟩
  · dsimp only
    omega
  · dsimp only
    omega
  · exact h.established e (hl.others.mem_iff.1 (mem_append_right _ mem))

/-- Who is in hand or waits. -/
def present (s : CoordinatorHall) : List ℕ :=
  s.taken.map (fun call => call.waiting.value.request.ticket) ++
    s.waiters.waiting.map fun e => e.value.value.request.ticket

/-- Who is in hand or waits, after calls left the queue. -/
theorem perm_of_leaves (hl : Waiters.Leaves left s.waiters w) :
    (left.map (fun e => e.value.value.request.ticket) ++
      (⟨w, s.taken⟩ : CoordinatorHall).present).Perm s.present := by
  have perm := hl.others.map fun e => e.value.value.request.ticket
  rw [map_append] at perm
  exact (perm_append_comm_assoc _ _ _).trans (perm.append_left _)

theorem present_eq (s : CoordinatorHall) :
    (room build).inHand s ++ ((room build).queued s).map Prod.fst = s.present := by
  simp only [room, map_map]
  rfl

/-- An input that routes nobody and puts nobody back. -/
theorem steps_of_quiet (ans : ((room build).step s input).2.map Departure.ident = gone)
    (hq : ∀ req now, .routed req now ∉ ((room build).step s input).2)
    (ho : (gone ++ ((room build).step s input).1.present).Perm
      ((room build).arrivals input ++ s.present))
    (hs : (room build).putBack s input = []) : (room build).Steps s input := by
  refine ⟨?_, fun req now hr => absurd hr (hq req now), ?_⟩
  · rw [ans, present_eq, present_eq]
    exact ho
  · rw [hs]
    exact fun _ mem => absurd mem not_mem_nil

/-- An input that settles calls and does nothing else. -/
theorem settles (post : (room build).step s input = (s', gone.map .settled))
    (hk : s'.Kept callLimit byteLimit)
    (ho : (gone ++ s'.present).Perm ((room build).arrivals input ++ s.present))
    (hst : (room build).putBack s input = []) :
    ((room build).step s input).1.Kept callLimit byteLimit ∧ (room build).Steps s input := by
  have hi : ((room build).step s input).2.map Departure.ident = gone := by
    rw [post]
    exact map_map.trans (map_id' gone)
  refine ⟨?_, steps_of_quiet build hi (fun req now hr => ?_) ?_ hst⟩
  · rw [post]
    exact hk
  · rw [post] at hr
    obtain ⟨_, -, hs⟩ := mem_map.1 hr
    cases hs
  · rw [post]
    exact ho

theorem settles_nobody (post : (room build).step s input = (s', []))
    (hk : s'.Kept callLimit byteLimit)
    (ho : s'.present.Perm ((room build).arrivals input ++ s.present))
    (hs : (room build).putBack s input = []) :
    ((room build).step s input).1.Kept callLimit byteLimit ∧ (room build).Steps s input :=
  have quiet : (room build).step s input = (s', ([] : List ℕ).map .settled) := post
  settles build quiet hk ho hs

/-- A call comes in : it is failed, or waits under its own ticket and deadline. -/
theorem admitCall_cases (h : w.Exact) (ws : CoordinatorOwner.CoordinatorWait) (now : Moment) :
    (∃ f, CoordinatorOwner.admitCall w ws now = (w, [f], false) ∧ f.ident = ws.request.ticket) ∨
    ∃ w' call bytes due, CoordinatorOwner.admitCall w ws now = (w', [], true) ∧
      w'.Exact ∧ w'.callLimit = w.callLimit ∧ w'.byteLimit = w.byteLimit ∧
      w'.waiting = w.waiting ++ [⟨⟨call, bytes⟩, due⟩] ∧
      call.request.ticket = ws.request.ticket ∧ call.request.absolute = some due := by
  unfold CoordinatorOwner.admitCall
  cases established : ws.request.establishDeadline now with
  | error err => exact .inl ⟨_, rfl, rfl⟩
  | ok res =>
    obtain ⟨req', due⟩ := res
    obtain ⟨ticket, absolute⟩ := Request.establishDeadline_spec established
    dsimp only
    split_ifs
    · exact .inl ⟨_, rfl, ticket⟩
    rcases h.admitEntry waitPolicy ⟨ws.key, req'⟩
      (CoordinatorOwner.waitingBytes ws.keyHeapBytes req') due with
      ⟨w', joined, counted, calls, hb, waits⟩ | refused
    · exact .inr ⟨w', _, _, due, joined, counted, calls, hb, waits, ticket, absolute⟩
    · exact .inl ⟨_, refused, ticket⟩

theorem Kept.enter (h : s.Kept callLimit byteLimit) (b : Build) (hf : s.taken = [])
    (ws : CoordinatorOwner.CoordinatorWait) (now : Moment) :
    ((room b).step s (.enter ws now)).1.Kept callLimit byteLimit ∧
      (room b).Steps s (.enter ws now) := by
  rcases admitCall_cases h.exact_count ws now with ⟨f, hr, hs⟩ |
    ⟨w', call, bytes, deadline, joined, counted, calls, limit, waits, hs, absolute⟩
  · have post : (room b).step s (.enter ws now) = (s, [ws.request.ticket].map .settled) := by
      simp only [room, hr, map_cons, map_nil, hs]
    exact settles b post h (.refl _) rfl
  · have post : (room b).step s (.enter ws now) = (⟨w', s.taken⟩, []) := by
      simp only [room, joined, map_nil]
    refine settles_nobody b post
      ⟨counted, calls.trans h.sameCalls, limit.trans h.sameBytes, ?_, ?_, ?_, h.inTime⟩ ?_ rfl
    · have length := counted.length_le
      rw [calls, h.sameCalls] at length
      rw [hf]
      exact length
    · have hw := counted.within
      rw [limit, h.sameBytes] at hw
      rw [hf]
      exact hw
    · intro e mem
      rw [waits] at mem
      rcases mem_append.1 mem with old | last
      · exact h.established e old
      · rw [mem_singleton.1 last]
        exact absolute
    · simp only [present, hf, waits, map_append, map_nil, map_cons, hs, nil_append]
      exact perm_append_comm

theorem Kept.pop (h : s.Kept callLimit byteLimit) (build : Build) (now : Moment) :
    ((room build).step s (.pop now)).1.Kept callLimit byteLimit ∧
      (room build).Steps s (.pop now) := by
  have ht := s.waiters.calls.popFront_takes build
  by_cases idle : s.waiters.scanRemaining = 0
  · have post : (room build).step s (.pop now) = (s, []) := by
      simp only [room, CoordinatorWaiters.pop, idle, if_true]
    exact settles_nobody build post h (.refl _) rfl
  · cases popped : s.waiters.calls.popFront build with
    | mk calls front =>
      rw [popped] at ht
      cases front with
      | none =>
        have hl := h.exact_count.keep ht 0
        have post : (room build).step s (.pop now) =
            (⟨{ s.waiters with calls, scanRemaining := 0 }, s.taken⟩, []) := by
          simp only [room, CoordinatorWaiters.pop, idle, if_false, popped]
        exact settles_nobody build post (h.leaves hl) (perm_of_leaves hl) rfl
      | some front =>
        obtain ⟨ws, deadline⟩ := front
        let w : CoordinatorWaiters := { s.waiters with
          calls
          scanRemaining := wrappingPred s.waiters.scanRemaining
          retainedBytes := wrappingSub s.waiters.retainedBytes ws.bytes }
        have hl : Waiters.Leaves [⟨ws, deadline⟩] s.waiters w := h.exact_count.take ht _
        by_cases due : deadline ≤ now
        · have post : (room build).step s (.pop now) =
              (⟨w, s.taken⟩, [ws.value.request.ticket].map .settled) := by
            simp only [room, CoordinatorWaiters.pop, idle, if_false, popped, due, if_true]
            rfl
          exact settles build post (h.leaves hl) (perm_of_leaves hl) rfl
        · have post : (room build).step s (.pop now) =
              (⟨w, ⟨ws, deadline, now⟩ :: s.taken⟩, []) := by
            simp only [room, CoordinatorWaiters.pop, idle, if_false, popped, due]
            rfl
          have hk := h.leaves hl
          have hb := hl.bytes h.exact_count
          have length := hl.others.length_eq
          have hr := h.roomForCalls
          have hro := h.roomForBytes
          refine settles_nobody build post ⟨hk.exact_count, hk.sameCalls, hk.sameBytes, ?_, ?_,
            hk.established, fun call mem => ?_⟩ (perm_of_leaves hl) rfl
          · simp only [length_append, length_cons, length_nil] at length ⊢
            omega
          · simp only [map_cons, sum_cons, map_nil, sum_nil] at hb ⊢
            omega
          · rcases mem_cons.1 mem with rfl | old
            · exact ⟨h.established _ ht.taken_mem, not_le.1 due⟩
            · exact h.inTime call old

variable {index : ℕ} {call : TakenCall}

/-- One of the calls in hand, and the others. -/
theorem perm_of_found {cs : List TakenCall} {c : TakenCall} (hf : cs[index]? = some c) :
    (c :: cs.eraseIdx index).Perm cs := by
  obtain ⟨hi, rfl⟩ := List.getElem?_eq_some_iff.1 hf
  exact List.getElem_cons_eraseIdx_perm hi

/-- A call in hand is routed or failed. -/
theorem Kept.discards (h : s.Kept callLimit byteLimit) (hf : s.taken[index]? = some call) :
    (⟨s.waiters, s.taken.eraseIdx index⟩ : CoordinatorHall).Kept callLimit byteLimit ∧
      (call.waiting.value.request.ticket ::
        (⟨s.waiters, s.taken.eraseIdx index⟩ : CoordinatorHall).present).Perm s.present := by
  have perm := perm_of_found hf
  have length := perm.length_eq
  have hb := (perm.map (·.waiting.bytes)).sum_eq
  have hr := h.roomForCalls
  have hro := h.roomForBytes
  refine ⟨⟨h.exact_count, h.sameCalls, h.sameBytes, ?_, ?_, h.established,
    fun ne mem => h.inTime ne (perm.mem_iff.1 (mem_cons_of_mem _ mem))⟩, ?_⟩
  · rw [length_cons] at length
    dsimp only
    omega
  · rw [map_cons, sum_cons] at hb
    dsimp only at hb ⊢
    omega
  · exact (perm.map fun call => call.waiting.value.request.ticket).append_right _

/-- A call in hand is put back : its place and its charge are free. -/
theorem Kept.returns (h : s.Kept callLimit byteLimit) (hf : s.taken[index]? = some call) :
    ∃ w, CoordinatorWaiters.retain s.waiters call.waiting call.deadline = (w, [], true) ∧
      (⟨w, s.taken.eraseIdx index⟩ : CoordinatorHall).Kept callLimit byteLimit ∧
      (⟨w, s.taken.eraseIdx index⟩ : CoordinatorHall).present.Perm s.present := by
  obtain ⟨hd, ho⟩ := h.discards hf
  have perm := perm_of_found hf
  have length := perm.length_eq
  have hby := (perm.map (·.waiting.bytes)).sum_eq
  have hro := h.roomForCalls
  have hrs := h.roomForBytes
  rw [length_cons] at length
  rw [map_cons, sum_cons] at hby
  have room : s.waiters.calls.len ≠ s.waiters.callLimit.get := by
    rw [len_eq, h.sameCalls]
    change s.waiters.waiting.length ≠ _
    omega
  have fits : s.waiters.retainedBytes + call.waiting.bytes ≤ s.waiters.byteLimit.get := by
    rw [h.sameBytes]
    omega
  obtain ⟨queue, hp, hw, acc⟩ :=
    WaitQueue.Accounted.joined h.exact_count room call.waiting fits call.deadline
  have hr : s.waiters.calls.rotateBack call.waiting call.deadline = (queue, .ok ()) := hp
  have post : CoordinatorWaiters.retain s.waiters call.waiting call.deadline =
      ({ s.waiters with
        calls := queue
        retainedBytes := s.waiters.retainedBytes + call.waiting.bytes }, [], true) := by
    simp only [CoordinatorWaiters.retain, hr]
  refine ⟨_, post, ⟨acc, h.sameCalls, h.sameBytes, ?_, ?_, ?_, hd.inTime⟩, ?_⟩
  · change queue.waiting.length + _ ≤ _
    rw [hw, length_append, length_singleton]
    change s.waiters.waiting.length + 1 + (s.taken.eraseIdx index).length ≤ _
    omega
  · dsimp only
    omega
  · intro e mem
    change e ∈ queue.waiting at mem
    rw [hw] at mem
    rcases mem_append.1 mem with old | last
    · exact h.established e old
    · rw [mem_singleton.1 last]
      exact (h.inTime call (mem_of_getElem? hf)).1
  · refine .trans ?_ ho
    change (_ ++ queue.waiting.map _).Perm _
    rw [hw, map_append, ← append_assoc]
    exact perm_append_singleton _ _

/-- One input to the hall. -/
theorem Kept.step (h : s.Kept callLimit byteLimit) (build : Build) (input : HallInput)
    (hal : s.Allowed input) :
    ((room build).step s input).1.Kept callLimit byteLimit ∧ (room build).Steps s input := by
  cases input with
  | enter ws now => exact h.enter build (hal (cons_ne_nil _ _)) ws now
  | retractLast ticket =>
    obtain ⟨left, hl, ha⟩ :=
      h.exact_count.retractLast build fun last => last.request.ticket = ticket
    refine ⟨h.leaves hl, steps_of_quiet build ?_ ?_ (perm_of_leaves hl) rfl⟩
    · simp only [room, ha, map_map]
      rfl
    · intro req now hr
      obtain ⟨_, -, hs⟩ := mem_map.1 hr
      cases hs
  | beginScan | refreshDue =>
    exact settles_nobody build rfl ⟨h.exact_count, h.sameCalls, h.sameBytes, h.roomForCalls,
      h.roomForBytes, h.established, h.inTime⟩ (.refl _) rfl
  | pop now => exact h.pop build now
  | retain k =>
    cases found : s.taken[k]? with
    | none =>
      exact settles_nobody build (by simp only [room, decideOn, found]) h (.refl _)
        (by simp only [room, found, Option.toList_none, map_nil])
    | some c =>
      obtain ⟨w, hre, hk, ho⟩ := h.returns found
      have post : (room build).step s (.retain k) = (⟨w, s.taken.eraseIdx k⟩, []) := by
        simp only [room, decideOn, found, hre, map_nil]
      refine ⟨?_, ?_, ?_, ?_⟩
      · rw [post]
        exact hk
      · rw [post, present_eq, present_eq]
        exact ho
      · rw [post]
        exact fun _ _ hr => absurd hr not_mem_nil
      · intro ans mem
        simp only [room, found, Option.toList_some, map_cons, map_nil, hre] at mem
        exact mem_singleton.1 mem
  | route k =>
    cases found : s.taken[k]? with
    | none =>
      exact settles_nobody build (by simp only [room, decideOn, found]) h (.refl _) rfl
    | some c =>
      obtain ⟨hk, ho⟩ := h.discards found
      have post : (room build).step s (.route k) =
          (⟨s.waiters, s.taken.eraseIdx k⟩, [.routed c.waiting.value.request c.now]) := by
        simp only [room, decideOn, found]
      refine ⟨?_, ?_, ?_, fun _ mem => absurd mem not_mem_nil⟩
      · rw [post]
        exact hk
      · rw [post, present_eq, present_eq]
        exact ho
      · intro req now hr
        rw [post] at hr
        cases mem_singleton.1 hr
        exact ⟨c.deadline, h.inTime c (mem_of_getElem? found)⟩
  | fail k =>
    cases found : s.taken[k]? with
    | none =>
      exact settles_nobody build (by simp only [room, decideOn, found]) h (.refl _) rfl
    | some c =>
      obtain ⟨hk, ho⟩ := h.discards found
      have post : (room build).step s (.fail k) =
          (⟨s.waiters, s.taken.eraseIdx k⟩, [c.waiting.value.request.ticket].map .settled) := by
        simp only [room, decideOn, found, map_cons, map_nil]
      exact settles build post hk ho rfl
  | expireDue now b =>
    by_cases busy : s.waiters.scanRemaining ≠ 0
    · exact settles_nobody build (by simp only [room, CoordinatorWaiters.expireDue, busy, ne_eq,
        not_false_eq_true, if_true, map_nil]) h (.refl _) rfl
    obtain ⟨left, hl, ht⟩ := h.exact_count.expireDue waitPolicy now b
    have post : (room build).step s (.expireDue now b) =
        (⟨CoordinatorWaiters.refreshDue (Waiters.expireDue waitPolicy now b s.waiters).1 now,
          s.taken⟩, (left.map (·.value.value.request.ticket)).map .settled) := by
      simp only [room, CoordinatorWaiters.expireDue, busy, if_false, ht, map_map]
      rfl
    have hl' : Waiters.Leaves left s.waiters
        (CoordinatorWaiters.refreshDue (Waiters.expireDue waitPolicy now b s.waiters).1 now) :=
      ⟨hl.counted, hl.callLimit, hl.byteLimit, hl.others⟩
    exact settles build post (h.leaves hl') (perm_of_leaves hl') rfl
  | failAll err =>
    obtain ⟨left, hl, ht⟩ :=
      h.exact_count.failAll fun ws => CoordinatorFate.failed ws.request err
    have post : (room build).step s (.failAll err) =
        (⟨(s.waiters.failAll fun ws => CoordinatorFate.failed ws.request err).1,
          s.taken⟩, (left.map (·.value.value.request.ticket)).map .settled) := by
      simp only [room, ht, map_map]
      rfl
    exact settles build post (h.leaves hl) (perm_of_leaves hl) rfl

/-- The hall keeps the law of its room. -/
theorem law (lim cap : NonZeroUsize) (is : List HallInput)
    (ha : ∀ e ∈ trace (room build).step ⟨.new lim cap, []⟩ is, e.before.Allowed e.input) :
    (room build).Law lim cap ⟨.new lim cap, []⟩ is := by
  refine WaitingRoom.law_of_steps (I := Kept lim cap) Allowed ?_ ⟨?_, rfl, rfl⟩
    (fun s input h hp => h.step build input hp) is ha
  · intro s h
    refine ⟨?_, ?_, ?_⟩
    · simp only [room, map_map, Function.comp_def]
      exact h.exact_count.counted
    · rw [← h.sameBytes]
      exact h.exact_count.within
    · simp only [room, length_map]
      rw [← h.sameCalls]
      exact h.exact_count.length_le
  · exact ⟨Waiters.new_exact lim cap, rfl, rfl, Nat.zero_le _, Nat.zero_le _,
      fun _ mem => absurd mem not_mem_nil,
      fun _ mem => absurd mem not_mem_nil⟩

end CoordinatorHall

/-! ## Calls before a connection -/

/-- What becomes of the calls that an operation decides. -/
def settlements (fates : List RequestFate) : List Departure :=
  fates.map fun fate => .settled fate.request.ticket

theorem ident_settlements (fs : List RequestFate) :
    (settlements fs).map Departure.ident = settledTickets fs := map_map

theorem not_routed_settlements (fs : List RequestFate) (req : Request) (now : Moment) :
    .routed req now ∉ settlements fs := by
  simp [settlements]

/-- The calls that wait, with the bytes charged. -/
def WaitQueue.charges (q : WaitQueue WaitingCall) : List (ℕ × ℕ) :=
  q.waiting.map fun e => (e.value.request.ticket, e.value.bytes)

theorem WaitQueue.fst_charges (q : WaitQueue WaitingCall) : q.charges.map Prod.fst = q.tickets :=
  map_map

theorem WaitQueue.snd_charges (q : WaitQueue WaitingCall) :
    (q.charges.map Prod.snd).sum = q.total WaitingCall.bytes := by
  rw [charges, map_map]
  rfl

/-- A room whose calls are those of an account. -/
structure WaitingRoom.Counts {σ ι : Type*} (room : WaitingRoom σ ι) (account : σ → CallAccount) :
    Prop where
  queued : ∀ s, room.queued s = (account s).calls.charges
  retained : ∀ s, room.retained s = (account s).retained
  inHand : ∀ s, room.inHand s = []
  putBack : ∀ s i, room.putBack s i = []

/-- An input keeps the account, and decides on calls by `fates`. -/
structure WaitingRoom.Keeps {σ ι : Type*} (room : WaitingRoom σ ι) (account : σ → CallAccount)
    (s : σ) (i : ι) (fates : List RequestFate) : Prop where
  counted : (account (room.step s i).1).Exact
  limits : (account (room.step s i).1).limits = (account s).limits
  answers : (room.step s i).2.map Departure.ident = settledTickets fates
  timely : ∀ request now, .routed request now ∈ (room.step s i).2 →
    ∃ deadline, request.absolute = some deadline ∧ now < deadline
  conserves : WaitQueue.Conserves (room.arrivals i) fates (account s).calls
    (account (room.step s i).1).calls

namespace WaitingRoom

variable {σ ι : Type*} {room : WaitingRoom σ ι} {account : σ → CallAccount} {s : σ} {i : ι}
  {fates : List RequestFate}

/-- An input that routes nobody. -/
theorem Keeps.settled (cnt : (account (room.step s i).1).Exact)
    (lim : (account (room.step s i).1).limits = (account s).limits)
    (ans : (room.step s i).2 = settlements fates)
    (hc : WaitQueue.Conserves (room.arrivals i) fates (account s).calls
      (account (room.step s i).1).calls) : room.Keeps account s i fates := by
  refine ⟨cnt, lim, ?_, fun req now hr => ?_, hc⟩
  · rw [ans, ident_settlements]
  · rw [ans] at hr
    exact absurd hr (not_routed_settlements fates req now)

theorem Keeps.of_settles (h : (account s).Exact) (ha : room.arrivals i = [])
    (ans : (room.step s i).2 = settlements fates)
    (hs : CallAccount.Settles fates (account s) (account (room.step s i).1)) :
    room.Keeps account s i fates :=
  .settled (hs.exact h) hs.limits ans (ha ▸ hs.conserves)

theorem Keeps.of_admits (h : (account s).Exact) {ticket : ℕ} (hal : room.arrivals i = [ticket])
    (ans : (room.step s i).2 = settlements fates)
    (ha : CallAccount.Admits ticket fates (account s) (account (room.step s i).1)) :
    room.Keeps account s i fates :=
  .settled (ha.exact h) ha.limits ans (hal ▸ ha.conserves)

/-- A room keeps its law if every input keeps the account. -/
theorem law_of_account (hc : room.Counts account)
    (hke : ∀ s i, (account s).Exact → ∃ fates, room.Keeps account s i fates) {start : σ}
    {callLimit cap : NonZeroUsize} (hb : (account start).Exact)
    (hi : (account start).calls.waiting = [])
    (lim : (account start).limits = (callLimit, cap)) (is : List ι) :
    room.Law callLimit cap start is := by
  refine law_of_steps (I := fun s => (account s).Exact ∧ (account s).limits = (callLimit, cap))
    (fun _ _ => True) ?_ ⟨⟨hb, lim⟩, hc.inHand start, ?_⟩ ?_ is fun _ _ => trivial
  · rintro s ⟨h, lim⟩
    obtain ⟨cs, hby⟩ := Prod.mk.inj lim
    refine ⟨?_, ?_, ?_⟩
    · rw [hc.retained, hc.queued, snd_charges]
      exact h.accounted.counted
    · rw [hc.retained, ← hby]
      exact h.accounted.within
    · rw [hc.queued, charges, length_map, ← cs]
      exact h.accounted.length_le
  · rw [hc.queued, charges, hi, map_nil]
  · rintro s i ⟨h, lim⟩ -
    obtain ⟨fates, hk⟩ := hke s i h
    obtain ⟨-, perm⟩ := hk.conserves h.accounted.bounded.ordered
    refine ⟨⟨hk.counted, hk.limits.trans lim⟩, ?_, hk.timely, ?_⟩
    · rw [hk.answers, hc.inHand, hc.inHand, hc.queued, hc.queued, fst_charges, fst_charges]
      exact perm
    · rw [hc.putBack]
      exact fun _ mem => absurd mem not_mem_nil

end WaitingRoom

inductive RouteInput where
  | enter (request : Request) (now : Moment)
  | pop (now : Moment) (observedAt : Option OutcomeStamp)
  | expireDueBounded (now : Moment) (observedAt : Option OutcomeStamp) (budget : ℕ)
  | failBounded (failure : RequestError) (observedAt : Option OutcomeStamp) (budget : ℕ)
  | failAll (failure : RequestError) (observedAt : Option OutcomeStamp)
  | rejectFailedRouteOne (now : Moment) (observedAt : OutcomeStamp)

namespace RouteWaiting

/-- The room of a route. -/
def room (build : Build) : WaitingRoom RouteWaiting RouteInput where
  step w
    | .enter request now =>
      ((w.admitCall request now).1, settlements (w.admitCall request now).2.1)
    | .pop now observedAt =>
      ((w.pop build now observedAt).1,
        settlements (w.pop build now observedAt).2.1 ++
          (w.pop build now observedAt).2.2.inHand.map (.routed · now))
    | .expireDueBounded now observedAt budget =>
      ((w.expireDueBounded now observedAt budget).1,
        settlements (w.expireDueBounded now observedAt budget).2)
    | .failBounded failure observedAt budget =>
      ((w.failBounded build failure observedAt budget).1,
        settlements (w.failBounded build failure observedAt budget).2)
    | .failAll failure observedAt =>
      ((w.failAll build failure observedAt).1,
        settlements (w.failAll build failure observedAt).2)
    | .rejectFailedRouteOne now observedAt =>
      ((w.rejectFailedRouteOne build now observedAt).1,
        settlements (w.rejectFailedRouteOne build now observedAt).2.1)
  arrivals
    | .enter request _ => [request.ticket]
    | _ => []
  queued w := w.calls.charges
  inHand _ := []
  retained w := w.retainedBytes
  putBack _ _ := []

variable {w : RouteWaiting}

/-- One input to a route. -/
theorem room_keeps (build : Build) (w : RouteWaiting) (input : RouteInput)
    (h : w.account.Exact) : ∃ fates, (room build).Keeps account w input fates := by
  cases input with
  | enter req now => exact ⟨_, .of_admits h rfl rfl (w.admitCall_admits now req).1⟩
  | pop now t =>
    obtain ⟨cnt, lim, he⟩ := pop_exact h build now t
    have hh : settledTickets ((w.pop build now t).2.2.inHand.map .admitted) =
        (w.pop build now t).2.2.inHand.map Request.ticket := map_map
    refine ⟨_, cnt, lim, ?_, fun req now' hro => ?_, pop_conserves rfl hh⟩
    · rw [settledTickets_append, hh, ← ident_settlements]
      change (settlements _ ++ _).map _ = _
      rw [map_append, map_map]
      rfl
    · rcases mem_append.1 hro with hse | hr
      · exact absurd hse (not_routed_settlements _ req now')
      obtain ⟨left, mem, hs⟩ := mem_map.1 hr
      cases hs
      refine he req ?_
      cases outcome : (w.pop build now t).2.2 with
      | empty | settled =>
        rw [outcome] at mem
        exact absurd mem not_mem_nil
      | ready left =>
        rw [outcome] at mem
        rw [mem_singleton.1 mem]
  | expireDueBounded now t b =>
    exact ⟨_, .of_settles h rfl rfl (expireLoop_settles now t _ w)⟩
  | failBounded err t b =>
    exact ⟨_, .of_settles h rfl rfl (failBounded_settles build err t b w)⟩
  | failAll err t =>
    exact ⟨_, .of_settles h rfl rfl (failBounded_settles build err t _ w)⟩
  | rejectFailedRouteOne now t =>
    exact ⟨_, .of_settles h rfl rfl (rejectFailedRouteOne_settles now build w t)⟩

/-- A route keeps the law of its room. -/
theorem law (b : Build) (lim cap turnBudget : NonZeroUsize) (is : List RouteInput) :
    (room b).Law lim cap (new lim cap turnBudget) is :=
  WaitingRoom.law_of_account ⟨fun _ => rfl, fun _ => rfl, fun _ => rfl, fun _ _ => rfl⟩
    (room_keeps b) (new_exact lim cap turnBudget) rfl rfl is

/-- The calls that are counted as rejecting. -/
theorem rejectingCalls_eq (h : w.account.Exact) :
    w.rejectingCalls = w.calls.waiting.countP (·.value.request.rejectsAfterRouteFailure) := by
  rw [h.rejecting _ rfl, total]
  change ((w.calls.waiting.map _).sum) = _
  induction w.calls.waiting with
  | nil => rfl
  | cons e rest ih =>
    rw [map_cons, sum_cons, ih, countP_cons, Nat.add_comm]
    cases e.value.request.rejectsAfterRouteFailure <;> rfl

theorem run_exact (b : Build) (lim cap turnBudget : NonZeroUsize) (is : List RouteInput) :
    (final (room b).step (new lim cap turnBudget) is).account.Exact := by
  refine final_invariant (room b).step (I := fun w => w.account.Exact) (fun w input h => ?_)
    (new_exact lim cap turnBudget) is
  obtain ⟨_, hk⟩ := room_keeps b w input h
  exact hk.counted

end RouteWaiting

inductive PendingInput where
  | push (request : Request) (now : Moment)
  | pop
  | expireDue (now : Moment) (budget : ℕ)
  | failBounded (failure : RequestError) (budget : ℕ)

namespace PendingRequests

/-- The room of a connection lane. -/
def room (build : Build) : WaitingRoom PendingRequests PendingInput where
  step p
    | .push request now => ((p.push request now).1, settlements (p.push request now).2)
    | .pop => ((p.pop build).1, (p.pop build).2.toList.map .popped)
    | .expireDue now budget =>
      ((expireDue now budget p).1, settlements (expireDue now budget p).2)
    | .failBounded failure budget =>
      ((p.failBounded build failure budget).1, settlements (p.failBounded build failure budget).2)
  arrivals
    | .push request _ => [request.ticket]
    | _ => []
  queued p := p.requests.charges
  inHand _ := []
  retained p := p.retainedBytes
  putBack _ _ := []

theorem new_exact (countLimit cap : NonZeroUsize) : (new countLimit cap).account.Exact :=
  ⟨new_accounted _ countLimit cap, nofun, fun _ mem => absurd mem not_mem_nil⟩

/-- One input to a lane. -/
theorem room_keeps (build : Build) (p : PendingRequests) (input : PendingInput)
    (h : p.account.Exact) : ∃ fates, (room build).Keeps account p input fates := by
  cases input with
  | push req now => exact ⟨_, .of_admits h rfl rfl (p.push_admits req now)⟩
  | pop =>
    obtain ⟨cnt, lim⟩ := pop_exact h build
    have hh : settledTickets ((p.pop build).2.toList.map .admitted) =
        (p.pop build).2.toList.map Request.ticket := map_map
    refine ⟨_, cnt, lim, ?_, fun req now hr => ?_, pop_conserves rfl hh⟩
    · rw [hh]
      exact map_map
    · obtain ⟨_, -, hs⟩ := mem_map.1 hr
      cases hs
  | expireDue now b =>
    exact ⟨_, .of_settles h rfl rfl (expireDue_settles b p now)⟩
  | failBounded err b =>
    exact ⟨_, .of_settles h rfl rfl (failBounded_settles build err b p)⟩

/-- A lane keeps the law of its room. -/
theorem law (b : Build) (countLimit cap : NonZeroUsize) (is : List PendingInput) :
    (room b).Law countLimit cap (new countLimit cap) is :=
  WaitingRoom.law_of_account ⟨fun _ => rfl, fun _ => rfl, fun _ => rfl, fun _ _ => rfl⟩
    (room_keeps b) (new_exact countLimit cap) rfl rfl is

end PendingRequests

/-! ## The six collections -/

/-- For every sequence of their operations, the six collections of waiting calls count bytes and
calls exactly and within their limits, settle, route, take back or keep each waiter once, route
nobody whose deadline has come, and find room for whoever a scan puts back; a route counts the
calls that are rejected when it fails. -/
theorem waiting_calls_settled_once (build : Build) (callLimit byteLimit turnBudget : NonZeroUsize) :
    (∀ inputs, (PartitionWaiters.kind.room build).Law callLimit byteLimit
      (.new callLimit byteLimit) inputs) ∧
    (∀ inputs, (ControllerWaiters.kind.room build).Law callLimit byteLimit
      (.new callLimit byteLimit) inputs) ∧
    (∀ inputs, (kind.room build).Law callLimit byteLimit (.new callLimit byteLimit) inputs) ∧
    (∀ inputs, (∀ e ∈ trace (CoordinatorHall.room build).step ⟨.new callLimit byteLimit, []⟩ inputs,
        e.before.Allowed e.input) →
      (CoordinatorHall.room build).Law callLimit byteLimit ⟨.new callLimit byteLimit, []⟩ inputs) ∧
    (∀ inputs, (room build).Law callLimit byteLimit (.new callLimit byteLimit turnBudget) inputs ∧
      (final (room build).step (.new callLimit byteLimit turnBudget) inputs).rejectingCalls =
        (final (room build).step (.new callLimit byteLimit turnBudget)
          inputs).calls.waiting.countP (·.value.request.rejectsAfterRouteFailure)) ∧
    ∀ inputs, (PendingRequests.room build).Law callLimit byteLimit (.new callLimit byteLimit)
      inputs := by
  refine ⟨fun inputs => ?_, fun inputs => ?_, fun inputs => ?_, fun inputs ha => ?_,
    fun inputs => ⟨?_, ?_⟩, fun inputs => ?_⟩
  · exact PartitionWaiters.lawful.law build callLimit byteLimit inputs
  · exact ControllerWaiters.lawful.law build callLimit byteLimit inputs
  · exact lawful.law build callLimit byteLimit inputs
  · exact CoordinatorHall.law build callLimit byteLimit inputs ha
  · exact law build callLimit byteLimit turnBudget inputs
  · exact rejectingCalls_eq (run_exact build callLimit byteLimit turnBudget inputs)
  · exact PendingRequests.law build callLimit byteLimit inputs

/-! ### A call that is put back -/

namespace CoordinatorHall

/-- A call for the coordinator of the orders, with a second to go. -/
def ordersCall (ticket : ℕ) : CoordinatorOwner.CoordinatorWait :=
  ⟨CoordinatorMachine.ordersKey, 6, ⟨ticket, .bulk, 1000, none, 8, false⟩⟩

/-- The first call is put back, the second comes in, and the first is routed. -/
def putBackAndRouted : List HallInput :=
  [.enter (ordersCall 1) ⟨0⟩, .beginScan, .pop ⟨5⟩, .retain 0, .enter (ordersCall 2) ⟨6⟩,
    .beginScan, .pop ⟨7⟩, .route 0, .failAll .deadlineExceeded]

end CoordinatorHall

theorem waiting_calls_settled_once_putBackAndRouted :
    (CoordinatorHall.room .release).Law ⟨2, by decide, by decide⟩ ⟨40, by decide, by decide⟩
      ⟨.new ⟨2, by decide, by decide⟩ ⟨40, by decide, by decide⟩, []⟩
      CoordinatorHall.putBackAndRouted ∧
    ((trace (CoordinatorHall.room .release).step
      ⟨.new ⟨2, by decide, by decide⟩ ⟨40, by decide, by decide⟩, []⟩
      CoordinatorHall.putBackAndRouted).flatMap (·.answer)).map Departure.ident = [1, 2] :=
  ⟨(waiting_calls_settled_once .release _ _ ⟨1, by decide, by decide⟩).2.2.2.1 _
    (by decide +kernel), by decide +kernel⟩

end KafkaDriver
