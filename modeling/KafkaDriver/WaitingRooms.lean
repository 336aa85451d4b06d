import KafkaDriver.CoordinatorOwner
import KafkaDriver.WaitCharges

/-!
# Waiting calls are settled once

What the six collections of waiting calls have in common is stated once, as a law about a
`WaitingRoom` : bytes and calls are within their limits, the bytes are counted exactly, whoever
came in waits or left once, whoever was routed had time left, and a survivor of a scan finds its
place again. The law follows from what one input does (`law_of_steps`).

The rooms of the metadata owner are one program with three sets of parameters (`WaitersKind`).
In the room of the coordinator owner a call that was taken out is in the hands of the owner,
who puts it back, routes it or fails it. A queue before a connection has its own room for a
route and for a lane.
-/

namespace KafkaDriver

open Runs List TopicViewWaiters Waiters

/-! ## Rooms -/

/-- How a waiter left : failed or completed, routed at a time, handed on without regard to time,
or taken back. -/
inductive Departure where
  | settled (ident : ℕ)
  | routed (request : Request) (now : Moment)
  | popped (request : Request)
  | retracted (ident : ℕ)

def Departure.ident : Departure → ℕ
  | .settled ident => ident
  | .routed request _ => request.ticket
  | .popped request => request.ticket
  | .retracted ident => ident

/-- A collection of waiters. -/
structure WaitingRoom (σ ι : Type*) where
  step : σ → ι → σ × List Departure
  /-- Who comes in with an input. -/
  arrivals : ι → List ℕ
  /-- Who waits, in order, with the bytes charged. -/
  queued : σ → List (ℕ × ℕ)
  /-- Who was taken out and is not decided yet. -/
  inHand : σ → List ℕ
  /-- The bytes counted. -/
  retained : σ → ℕ
  /-- Whether each of the waiters an input puts back found room. -/
  putBack : σ → ι → List Bool

namespace WaitingRoom

variable {σ ι : Type*}

/-- What holds after `inputs` and of the steps taken. -/
structure Law (room : WaitingRoom σ ι) (callLimit byteLimit : NonZeroUsize) (start : σ)
    (inputs : List ι) : Prop where
  counted : room.retained (final room.step start inputs) =
    ((room.queued (final room.step start inputs)).map Prod.snd).sum
  /-- Taking any waiter out does not underflow. -/
  covered : ∀ e ∈ room.queued (final room.step start inputs),
    e.2 ≤ room.retained (final room.step start inputs)
  withinBytes : room.retained (final room.step start inputs) ≤ byteLimit.get
  withinCalls : (room.queued (final room.step start inputs)).length ≤ callLimit.get
  conserved : (((trace room.step start inputs).flatMap (·.answer)).map Departure.ident ++
    (room.inHand (final room.step start inputs) ++
      (room.queued (final room.step start inputs)).map Prod.fst)).Perm
        (inputs.flatMap room.arrivals)
  timely : ∀ e ∈ trace room.step start inputs, ∀ request now, .routed request now ∈ e.answer →
    ∃ deadline, request.absolute = some deadline ∧ now < deadline
  rotates : ∀ e ∈ trace room.step start inputs, ∀ found ∈ room.putBack e.before e.input,
    found = true

/-- What one input does : `before` is the state it finds. -/
structure Steps (room : WaitingRoom σ ι) (before : σ) (input : ι) : Prop where
  conserved : ((room.step before input).2.map Departure.ident ++
    (room.inHand (room.step before input).1 ++
      (room.queued (room.step before input).1).map Prod.fst)).Perm
        (room.arrivals input ++ (room.inHand before ++ (room.queued before).map Prod.fst))
  timely : ∀ request now, .routed request now ∈ (room.step before input).2 →
    ∃ deadline, request.absolute = some deadline ∧ now < deadline
  rotates : ∀ found ∈ room.putBack before input, found = true

/-- The counters of a state are right. -/
structure Right (room : WaitingRoom σ ι) (callLimit byteLimit : NonZeroUsize) (s : σ) : Prop where
  counted : room.retained s = ((room.queued s).map Prod.snd).sum
  withinBytes : room.retained s ≤ byteLimit.get
  withinCalls : (room.queued s).length ≤ callLimit.get

/-- A room keeps its law if every input keeps an invariant under which the counters are right. -/
theorem law_of_steps {room : WaitingRoom σ ι} {lim cap : NonZeroUsize} {start : σ}
    {I : σ → Prop} (legal : σ → ι → Prop) (right : ∀ s, I s → room.Right lim cap s)
    (hb : I start ∧ room.inHand start = [] ∧ room.queued start = [])
    (hk : ∀ s i, I s → legal s i → I (room.step s i).1 ∧ room.Steps s i) (is : List ι)
    (hp : ∀ e ∈ trace room.step start is, legal e.before e.input) :
    room.Law lim cap start is := by
  have run : I (final room.step start is) ∧
      (((trace room.step start is).flatMap (·.answer)).map Departure.ident ++
        (room.inHand (final room.step start is) ++
          (room.queued (final room.step start is)).map Prod.fst)).Perm (is.flatMap room.arrivals) ∧
      ∀ e ∈ trace room.step start is, room.Steps e.before e.input ∧
        e.answer = (room.step e.before e.input).2 := by
    revert hp
    refine run_induction room.step (P := fun is past s =>
      (∀ e ∈ past, legal e.before e.input) → I s ∧
        ((past.flatMap (·.answer)).map Departure.ident ++
          (room.inHand s ++ (room.queued s).map Prod.fst)).Perm (is.flatMap room.arrivals) ∧
        ∀ e ∈ past, room.Steps e.before e.input ∧ e.answer = (room.step e.before e.input).2)
      ?_ ?_ is
    · intro _
      rw [hb.2.1, hb.2.2]
      exact ⟨hb.1, .refl _, fun _ mem => absurd mem not_mem_nil⟩
    · intro is i ih hp
      obtain ⟨inv, hco, steps⟩ :=
        ih fun e mem => hp e (mem_append_left _ mem)
      obtain ⟨inv', step⟩ := hk _ i inv (hp _ (mem_append_right _ mem_cons_self))
      refine ⟨inv', ?_, fun e mem => ?_⟩
      · rw [flatMap_append, flatMap_singleton, map_append, append_assoc,
          flatMap_append, flatMap_singleton]
        refine (step.conserved.append_left _).trans ?_
        exact (perm_append_comm_assoc _ _ _).trans ((hco.append_left _).trans perm_append_comm)
      · rcases mem_append.1 mem with past | last
        · exact steps e past
        · rw [mem_singleton.1 last]
          exact ⟨step, rfl⟩
  obtain ⟨inv, hco, steps⟩ := run
  have hc := right _ inv
  refine ⟨hc.counted, fun e mem => ?_, hc.withinBytes, hc.withinCalls,
    hco, fun e mem req now hr => ?_, fun e mem => (steps e mem).1.rotates⟩
  · rw [hc.counted]
    exact le_sum_of_mem (mem_map_of_mem mem)
  · obtain ⟨step, ans⟩ := steps e mem
    rw [ans] at hr
    exact step.timely req now hr

end WaitingRoom

/-! ## Rooms of the metadata owner -/

/-- The waiter a fate is about. -/
def MetadataFate.ident : MetadataFate → ℕ
  | .failed request _ => request.ticket
  | .controllerRouted request _ _ => request.ticket
  | .partitionRouted request _ => request.ticket
  | .viewed _ _ completion _ => completion
  | .invalidated completion _ => completion

/-- The request a fate routes. -/
def MetadataFate.routedRequest : MetadataFate → Option Request
  | .controllerRouted request _ _ => some request
  | .partitionRouted request _ => some request
  | _ => none

/-- What a fate told at `now` is for its waiter. -/
def MetadataFate.departure (now : Moment) (fate : MetadataFate) : Departure :=
  match fate.routedRequest with
  | some request => .routed request now
  | none => .settled fate.ident

/-- The parameters in which the waiters of the metadata owner differ : `κ` is what comes in, `ω`
what a scan looks at, `μ` a note that is made on waiters and `ε` a failure of all of them. -/
structure WaitersKind (α κ ω μ ε : Type) where
  ident : α → ℕ
  origin : α → Option Request
  policy : WaitPolicy α MetadataFate
  arrival : κ → ℕ
  enter : Waiters α → κ → Waiters α × List MetadataFate × Bool
  examine : ω → α → Option MetadataFate
  note : μ → Waiters α → Waiters α
  fail : ε → α → MetadataFate

inductive WaitersInput (α κ ω μ ε : Type) where
  | enter (demand : κ)
  | retractLast (isMeant : α → Bool)
  | note (mark : μ)
  | beginScan
  | scan (world : ω) (now : Moment) (budget : NonZeroUsize)
  | failAll (failure : ε)

namespace Waiters

variable {α φ : Type*}

/-- The results of putting back the survivors that `examineLoop` meets. -/
def rotations (build : Build) (policy : WaitPolicy α φ) (now : Moment) (examine : α → Option φ) :
    ℕ → Waiters α → List Bool
  | 0, _ => []
  | count + 1, w =>
    match w.calls.popFront build with
    | (_, none) => []
    | (calls, some (waiting, deadline)) =>
      let later := rotations build policy now examine count
        (w.examineLoop build policy now examine 1).1
      match verdict policy now examine waiting.value deadline with
      | some _ => later
      | none => (calls.rotateBack waiting deadline).2.isOk :: later

/-- The results of putting back the survivors of a turn. -/
def scanRotations (build : Build) (policy : WaitPolicy α φ) (w : Waiters α) (now : Moment)
    (budget : NonZeroUsize) (examine : α → Option φ) : List Bool :=
  let expired := if w.scanRemaining = 0 then expireDue policy now budget.get w else (w, [])
  rotations build policy now examine
    (min expired.1.scanRemaining (budget.get - expired.2.length)) expired.1

end Waiters

namespace WaitersKind

variable {α κ ω μ ε : Type}

/-- The room of waiters of a kind. -/
def room (kind : WaitersKind α κ ω μ ε) (build : Build) :
    WaitingRoom (Waiters α) (WaitersInput α κ ω μ ε) where
  step w
    | .enter demand =>
      ((kind.enter w demand).1, (kind.enter w demand).2.1.map fun fate => .settled fate.ident)
    | .retractLast isMeant =>
      ((w.retractLast build isMeant).1,
        (w.retractLast build isMeant).2.toList.map fun value => .retracted (kind.ident value))
    | .note mark => (kind.note mark w, [])
    | .beginScan => (w.beginScan, [])
    | .scan world now budget =>
      ((w.scan build kind.policy now budget (kind.examine world)).1,
        ((w.scan build kind.policy now budget (kind.examine world)).2.due ++
          (w.scan build kind.policy now budget (kind.examine world)).2.answered).map
            (MetadataFate.departure now))
    | .failAll failure =>
      ((w.failAll (kind.fail failure)).1,
        (w.failAll (kind.fail failure)).2.map fun fate => .settled fate.ident)
  arrivals
    | .enter demand => [kind.arrival demand]
    | _ => []
  queued w := w.waiting.map fun e => (kind.ident e.value.value, e.value.bytes)
  inHand _ := []
  retained w := w.retainedBytes
  putBack w
    | .scan world now budget => w.scanRotations build kind.policy now budget (kind.examine world)
    | _ => []

end WaitersKind

/-- A call for the leader of a partition, and when it comes in. -/
structure PartitionDemand where
  topic : TopicName
  topicHeapBytes : ℕ
  partition : PartitionId
  request : Request
  now : Moment

/-- Calls for the leader of a partition. -/
def PartitionWaiters.kind :
    WaitersKind WaitingPartitionCall PartitionDemand MetadataMachine Empty RequestError where
  ident waiting := waiting.request.ticket
  origin waiting := some waiting.request
  policy := requestPolicy (·.request)
  arrival demand := demand.request.ticket
  enter w demand :=
    PartitionWaiters.admitCall w demand.topic demand.topicHeapBytes demand.partition demand.request
      demand.now
  examine := PartitionWaiters.examine
  note := nofun
  fail failure waiting := .failed waiting.request failure

/-- A call for the controller or a broker, and when it comes in. -/
structure ControllerDemand where
  target : ClusterRouteTarget
  request : Request
  now : Moment

/-- Calls for the controller or a broker. -/
def ControllerWaiters.kind :
    WaitersKind WaitingControllerCall ControllerDemand MetadataMachine Empty RequestError where
  ident waiting := waiting.request.ticket
  origin waiting := some waiting.request
  policy := requestPolicy (·.request)
  arrival demand := demand.request.ticket
  enter w demand := ControllerWaiters.admitCall w demand.target demand.request demand.now
  examine := ControllerWaiters.examine
  note := nofun
  fail failure waiting := .failed waiting.request failure

/-- Demands for a view. A scan looks at the metadata and is told which allocations succeed; the
failure of a fetch is noted with its topic and evidence. -/
def TopicViewWaiters.kind :
    WaitersKind WaitingTopicView TopicViewWait ((ℕ → Bool) × MetadataMachine)
      (TopicName × EvidenceStamp × TopicViewError) TopicViewError where
  ident waiting := waiting.completion
  origin _ := none
  policy := policy
  arrival waiting := waiting.completion
  enter w waiting := admitView w waiting
  examine world := examine world.1 world.2
  note failure w := markTerminal w failure.1 failure.2.1 failure.2.2
  fail error waiting := waiting.complete (.error error)

/-! ### The law of a kind -/

theorem Waiters.Exact.rotations {α φ : Type*} {w : Waiters α} (h : w.Exact) (b : Build)
    (pol : WaitPolicy α φ) (now : Moment) (examine : α → Option φ) (n : ℕ) :
    ∀ back ∈ w.rotations b pol now examine n, back = true := by
  induction n generalizing w with
  | zero => exact fun _ mem => absurd mem not_mem_nil
  | succ n ih =>
    have ht := w.calls.popFront_takes b
    obtain ⟨_, next, -⟩ := h.examineLoop b pol now examine 1
    unfold Waiters.rotations
    split
    · exact fun _ mem => absurd mem not_mem_nil
    rename_i cs ws due hp
    rw [hp] at ht
    dsimp only
    split
    · exact ih next.counted
    have hta := h.take ht w.scanRemaining
    obtain ⟨-, hq⟩ := hta.rotate h pol
    have fits : (cs.rotateBack ws due).2.isOk = true := by
      unfold Waiters.rotate at hq
      cases rotated : cs.rotateBack ws due with
      | mk _ ans =>
        cases ans with
        | ok => rfl
        | error _ =>
          simp only [rotated] at hq
          cases hq
    intro back mem
    rcases mem_cons.1 mem with rfl | hl
    · exact fits
    · exact ih next.counted back hl

theorem Waiters.Exact.scanRotations {α φ : Type*} {w : Waiters α} (h : w.Exact) (build : Build)
    (pol : WaitPolicy α φ) (now : Moment) (b : NonZeroUsize) (examine : α → Option φ) :
    ∀ back ∈ w.scanRotations build pol now b examine, back = true := by
  unfold Waiters.scanRotations
  dsimp only
  split_ifs
  · obtain ⟨_, he, -⟩ := h.expireDue pol now b.get
    exact he.counted.rotations build pol now examine _
  · exact h.rotations build pol now examine _

namespace WaitersKind

variable {α κ ω μ ε : Type} {kind : WaitersKind α κ ω μ ε} {callLimit byteLimit : NonZeroUsize}
  {w w' : Waiters α} {left : List (WaitEntry (Charged α))}

/-- Fates are about the waiters they are told to, notes keep waiters and their charges, and
whoever enters has a deadline. -/
structure Lawful (kind : WaitersKind α κ ω μ ε) : Prop where
  enters : ∀ w demand,
    (∃ fate, kind.enter w demand = (w, [fate], false) ∧ fate.ident = kind.arrival demand) ∨
    ∃ value bytes deadline,
      kind.enter w demand = w.admitEntry kind.policy value bytes deadline ∧
      kind.ident value = kind.arrival demand ∧
      ∀ request, kind.origin value = some request → request.absolute = some deadline
  expired : ∀ value, (kind.policy.expired value).ident = kind.ident value ∧
    (kind.policy.expired value).routedRequest = none
  refused : ∀ callLimit byteLimit value,
    (kind.policy.refused callLimit byteLimit value).ident = kind.ident value
  examined : ∀ world value fate, kind.examine world value = some fate →
    fate.ident = kind.ident value ∧
      ∀ request, fate.routedRequest = some request → kind.origin value = some request
  failed : ∀ failure value, (kind.fail failure value).ident = kind.ident value
  noted : ∀ mark w, ∃ f : Charged α → Charged α,
    kind.note mark w = { w with calls := w.calls.iterMut f } ∧
    ∀ charged, (f charged).bytes = charged.bytes ∧
      kind.ident (f charged).value = kind.ident charged.value ∧
      kind.origin (f charged).value = kind.origin charged.value

/-- Waiters of a kind between inputs. -/
structure Kept (kind : WaitersKind α κ ω μ ε) (callLimit byteLimit : NonZeroUsize)
    (w : Waiters α) : Prop where
  exact_count : w.Exact
  callLimit : w.callLimit = callLimit
  byteLimit : w.byteLimit = byteLimit
  established : ∀ e ∈ w.waiting, ∀ request, kind.origin e.value.value = some request →
    request.absolute = some e.deadline

/-- A demand is answered at once, or its waiter joins the queue. -/
theorem Lawful.enter_cases (hl : kind.Lawful) (h : w.Exact) (d : κ) :
    (∃ f, kind.enter w d = (w, [f], false) ∧ f.ident = kind.arrival d) ∨
    ∃ w' v bytes due, kind.enter w d = (w', [], true) ∧ w'.Exact ∧
      w'.callLimit = w.callLimit ∧ w'.byteLimit = w.byteLimit ∧
      w'.waiting = w.waiting ++ [⟨⟨v, bytes⟩, due⟩] ∧
      kind.ident v = kind.arrival d ∧
      ∀ req, kind.origin v = some req → req.absolute = some due := by
  rcases hl.enters w d with hr | ⟨v, bytes, due, enters, hs, he⟩
  · exact .inl hr
  · rcases h.admitEntry kind.policy v bytes due with
      ⟨w', joined, counted, calls, limit, waiting⟩ | hr
    · exact .inr ⟨w', v, bytes, due, enters.trans joined, counted, calls, limit, waiting, hs, he⟩
    · exact .inl ⟨_, enters.trans hr, (hl.refused _ _ v).trans hs⟩

theorem Kept.leaves (h : kind.Kept callLimit byteLimit w) (hl : Waiters.Leaves left w w') :
    kind.Kept callLimit byteLimit w' :=
  ⟨hl.counted, hl.callLimit.trans h.callLimit, hl.byteLimit.trans h.byteLimit,
    fun e mem => h.established e (hl.others.mem_iff.1 (mem_append_right _ mem))⟩

/-- Whoever leaves is gone from the queue. -/
theorem queued_of_leaves (b : Build) (hl : Waiters.Leaves left w w') :
    (left.map (fun e => kind.ident e.value.value) ++
      (((kind.room b).queued w').map Prod.fst)).Perm (((kind.room b).queued w).map Prod.fst) := by
  have perm := hl.others.map fun e => kind.ident e.value.value
  rw [map_append] at perm
  simpa only [room, map_map, Function.comp_def] using perm

/-- The waiters that an input answers leave with these departures. -/
theorem steps_of_leaves (b : Build) {i : WaitersInput α κ ω μ ε}
    (hl : Waiters.Leaves left w ((kind.room b).step w i).1)
    (ans : ((kind.room b).step w i).2.map Departure.ident =
      left.map fun e => kind.ident e.value.value)
    (ha : (kind.room b).arrivals i = [])
    (ht : ∀ req now, .routed req now ∈ ((kind.room b).step w i).2 →
      ∃ due, req.absolute = some due ∧ now < due)
    (hr : ∀ back ∈ (kind.room b).putBack w i, back = true) :
    (kind.room b).Steps w i := by
  refine ⟨?_, ht, hr⟩
  rw [ans, ha]
  exact queued_of_leaves b hl

/-- Fates that route nobody. -/
theorem not_routed {fs : List MetadataFate} {req : Request} {now : Moment} :
    Departure.routed req now ∉ fs.map fun f => Departure.settled f.ident := by
  simp

theorem Lawful.decided_ident (hl : kind.Lawful) {now : Moment} {world : ω}
    {e : WaitEntry (Charged α)} {f : MetadataFate}
    (said : answer kind.policy now (kind.examine world) e = some f) :
    f.ident = kind.ident e.value.value ∧ ∀ req, f.routedRequest = some req →
      kind.origin e.value.value = some req ∧ now < e.deadline := by
  unfold answer verdict at said
  split_ifs at said with due
  · obtain rfl := Option.some.inj said
    obtain ⟨hs, hq⟩ := hl.expired e.value.value
    refine ⟨hs, fun req hr => ?_⟩
    rw [hq] at hr
    cases hr
  · obtain ⟨hs, ho⟩ := hl.examined world e.value.value f said
    exact ⟨hs, fun req hr => ⟨ho req hr, not_le.1 due⟩⟩

theorem departure_ident (now : Moment) (f : MetadataFate) : (f.departure now).ident = f.ident := by
  cases f <;> rfl

/-- What a scan does to the waiters of a kind. -/
theorem Kept.scan (hla : kind.Lawful) (h : kind.Kept callLimit byteLimit w) (build : Build)
    (world : ω) (now : Moment) (b : NonZeroUsize) :
    kind.Kept callLimit byteLimit ((kind.room build).step w (.scan world now b)).1 ∧
      (kind.room build).Steps w (.scan world now b) := by
  obtain ⟨due, gone, hle, hex, ans⟩ :=
    h.exact_count.scan build kind.policy now b (kind.examine world)
  have members (e : WaitEntry (Charged α)) (mem : e ∈ due ++ gone) : e ∈ w.waiting :=
    hle.others.mem_iff.1 (mem_append_left _ mem)
  -- each answer is the verdict on one of the decided
  have hv (fate : MetadataFate)
      (mem : fate ∈ (w.scan build kind.policy now b (kind.examine world)).2.answered) :
      ∃ e ∈ gone, answer kind.policy now (kind.examine world) e = some fate := by
    have ht : some fate ∈
        (w.scan build kind.policy now b (kind.examine world)).2.answered.map some :=
      mem_map_of_mem mem
    rw [← ans] at ht
    obtain ⟨e, hi, said⟩ := mem_map.1 ht
    exact ⟨e, hi, said⟩
  refine ⟨h.leaves hle, steps_of_leaves build hle ?_ rfl ?_
    (h.exact_count.scanRotations build kind.policy now b (kind.examine world))⟩
  · have hid : gone.map (fun e => kind.ident e.value.value) =
        (w.scan build kind.policy now b (kind.examine world)).2.answered.map
          MetadataFate.ident := by
      generalize (w.scan build kind.policy now b (kind.examine world)).2.answered = fs at ans
      clear hv hle members
      induction gone generalizing fs with
      | nil =>
        cases fs with
        | nil => rfl
        | cons => cases ans
      | cons e rest ih =>
        cases fs with
        | nil => cases ans
        | cons fate fs =>
          obtain ⟨said, hl⟩ := cons.inj ans
          rw [map_cons, map_cons, ih fs hl, (hla.decided_ident said).1]
    change ((_ ++ _ : List MetadataFate).map (MetadataFate.departure now)).map Departure.ident = _
    rw [map_map, map_append, map_append, hid, hex, map_map]
    simp only [Function.comp_def, departure_ident, (hla.expired _).1]
  · intro req now' hr
    obtain ⟨fate, ht, hs⟩ := mem_map.1 hr
    unfold MetadataFate.departure at hs
    split at hs
    · rename_i routedRequest
      cases hs
      rcases mem_append.1 ht with late | ha
      · rw [hex] at late
        obtain ⟨e, -, rfl⟩ := mem_map.1 late
        rw [(hla.expired _).2] at routedRequest
        cases routedRequest
      · obtain ⟨e, hi, said⟩ := hv fate ha
        obtain ⟨ho, he⟩ := (hla.decided_ident said).2 req routedRequest
        exact ⟨e.deadline, h.established e (members e (mem_append_right _ hi)) req ho, he⟩
    · cases hs

/-- One input to the waiters of a kind. -/
theorem Kept.step (hla : kind.Lawful) (h : kind.Kept callLimit byteLimit w) (build : Build)
    (i : WaitersInput α κ ω μ ε) :
    kind.Kept callLimit byteLimit ((kind.room build).step w i).1 ∧ (kind.room build).Steps w i := by
  have hn (i : WaitersInput α κ ω μ ε) (hq : (kind.room build).putBack w i = []) :
      ∀ back ∈ (kind.room build).putBack w i, back = true := by
    rw [hq]
    exact fun _ mem => absurd mem not_mem_nil
  cases i with
  | enter d =>
    rcases hla.enter_cases h.exact_count d with ⟨fate, hre, hs⟩ |
      ⟨w', v, bytes, deadline, joined, counted, calls, limit, ws, hs, established⟩
    · refine ⟨?_, ?_, fun req now hr => absurd hr not_routed, hn _ rfl⟩
      · simp only [room, hre]
        exact h
      · simp only [room, hre, map_cons, map_nil, Departure.ident, hs]
        exact .refl _
    · refine ⟨?_, ?_, fun req now hr => absurd hr not_routed, hn _ rfl⟩
      · simp only [room, joined]
        refine ⟨counted, calls.trans h.callLimit, limit.trans h.byteLimit, fun e mem => ?_⟩
        rw [ws] at mem
        rcases mem_append.1 mem with old | last
        · exact h.established e old
        · rw [mem_singleton.1 last]
          exact established
      · simp only [room, joined, ws, map_append, map_cons, map_nil, hs, nil_append]
        exact perm_append_comm
  | retractLast meant =>
    obtain ⟨left, hl, ans⟩ := h.exact_count.retractLast build meant
    refine ⟨h.leaves hl, steps_of_leaves build hl ?_ rfl ?_ (hn _ rfl)⟩
    · simp only [room, ans, map_map]
      rfl
    · intro req now hr
      obtain ⟨_, -, hs⟩ := mem_map.1 hr
      cases hs
  | note mark =>
    obtain ⟨f, hno, hk⟩ := hla.noted mark w
    have ws : (kind.note mark w).waiting =
        w.waiting.map fun e => { e with value := f e.value } := by
      rw [hno]
      exact WaitQueue.waiting_iterMut _ _
    refine ⟨⟨?_, ?_, ?_, fun e mem => ?_⟩, ?_, ?_, hn _ rfl⟩
    · simp only [room, hno]
      exact WaitQueue.Accounted.iterMut h.exact_count fun call => (hk call).1
    · simp only [room, hno]
      exact h.callLimit
    · simp only [room, hno]
      exact h.byteLimit
    · change e ∈ (kind.note mark w).waiting at mem
      rw [ws] at mem
      obtain ⟨e', old, rfl⟩ := mem_map.1 mem
      rw [(hk _).2.2]
      exact h.established e' old
    · simp only [room, ws, map_map, Function.comp_def, (hk _).2.1]
      exact .refl _
    · exact fun _ _ hr => absurd hr not_mem_nil
  | beginScan =>
    exact ⟨⟨h.exact_count, h.callLimit, h.byteLimit, h.established⟩, .refl _,
      fun _ _ hr => absurd hr not_mem_nil, hn _ rfl⟩
  | scan world now b => exact h.scan hla build world now b
  | failAll err =>
    obtain ⟨left, hl, ht⟩ := h.exact_count.failAll (kind.fail err)
    refine ⟨h.leaves hl, steps_of_leaves build hl ?_ rfl ?_ (hn _ rfl)⟩
    · simp only [room, ht, map_map, Function.comp_def, Departure.ident, hla.failed]
    · exact fun req now hr => absurd hr not_routed

/-- The waiters of a lawful kind keep the law of their room. -/
theorem Lawful.law (hl : kind.Lawful) (b : Build) (lim cap : NonZeroUsize)
    (is : List (WaitersInput α κ ω μ ε)) :
    (kind.room b).Law lim cap (.new lim cap) is := by
  refine WaitingRoom.law_of_steps (I := kind.Kept lim cap) (fun _ _ => True) ?_
    ⟨?_, rfl, rfl⟩ (fun w i h _ => h.step hl b i) is fun _ _ => trivial
  · intro w h
    refine ⟨?_, ?_, ?_⟩
    · simp only [room, map_map, Function.comp_def]
      exact h.exact_count.counted
    · rw [← h.byteLimit]
      exact h.exact_count.within
    · simp only [room, length_map]
      rw [← h.callLimit]
      exact h.exact_count.length_le
  · exact ⟨new_exact lim cap, rfl, rfl, fun _ mem => absurd mem not_mem_nil⟩

end WaitersKind

/-! ### The three kinds -/

/-- A request that comes in is failed, or waits under its own ticket and deadline. -/
theorem admitRequest_enters {α : Type} (w : Waiters α) (subject : Request → α)
    (request : α → Request) (own : ∀ req, request (subject req) = req) (bytes : Request → ℕ)
    (req : Request) (now : Moment) :
    (∃ f, admitRequest w subject request bytes req now = (w, [f], false) ∧ f.ident = req.ticket) ∨
    ∃ value size due, admitRequest w subject request bytes req now =
        w.admitEntry (requestPolicy request) value size due ∧
      (request value).ticket = req.ticket ∧
      ∀ req', some (request value) = some req' → req'.absolute = some due := by
  unfold admitRequest
  cases established : req.establishDeadline now with
  | error err => exact .inl ⟨_, rfl, rfl⟩
  | ok res =>
    obtain ⟨req', due⟩ := res
    obtain ⟨ticket, absolute⟩ := Request.establishDeadline_spec established
    dsimp only
    split_ifs
    · exact .inl ⟨_, rfl, ticket⟩
    · refine .inr ⟨_, _, due, rfl, (own req').symm ▸ ticket, ?_⟩
      rintro _ ⟨⟩
      rwa [own]

theorem PartitionWaiters.lawful : PartitionWaiters.kind.Lawful where
  enters w _ := admitRequest_enters w _ _ (fun _ => rfl) _ _ _
  expired _ := ⟨rfl, rfl⟩
  refused _ _ _ := rfl
  examined machine waiting fate examined := by
    change PartitionWaiters.examine machine waiting = some fate at examined
    unfold PartitionWaiters.examine at examined
    split at examined
    · cases examined
      exact ⟨rfl, fun req hr => hr⟩
    · split_ifs at examined
      cases examined
      exact ⟨rfl, nofun⟩
  failed _ _ := rfl
  noted := nofun

theorem ControllerWaiters.lawful : ControllerWaiters.kind.Lawful where
  enters w _ := admitRequest_enters w _ _ (fun _ => rfl) _ _ _
  expired _ := ⟨rfl, rfl⟩
  refused _ _ _ := rfl
  examined machine waiting fate examined := by
    change ControllerWaiters.examine machine waiting = some fate at examined
    unfold ControllerWaiters.examine at examined
    split at examined
    · cases examined
      exact ⟨rfl, fun req hr => hr⟩
    · split_ifs at examined
      cases examined
      exact ⟨rfl, nofun⟩
  failed _ _ := rfl
  noted := nofun

theorem TopicViewWaiters.lawful : TopicViewWaiters.kind.Lawful where
  enters w waiting := .inr ⟨_, _, waiting.deadline, rfl, rfl, nofun⟩
  expired _ := ⟨rfl, rfl⟩
  refused _ _ _ := rfl
  examined world waiting fate examined := by
    change examine world.1 world.2 waiting = some fate at examined
    have ht : ∃ res, fate = waiting.complete res := by
      unfold examine at examined
      split at examined
      · exact ⟨_, (Option.some.inj examined).symm⟩
      split at examined
      · exact ⟨_, (Option.some.inj examined).symm⟩
      · exact ⟨_, (Option.some.inj examined).symm⟩
      · split_ifs at examined
        exact ⟨_, (Option.some.inj examined).symm⟩
    obtain ⟨res, rfl⟩ := ht
    exact ⟨rfl, nofun⟩
  failed _ _ := rfl
  noted mark w := by
    refine ⟨_, rfl, fun charged => ?_⟩
    dsimp only
    split_ifs
    · exact ⟨rfl, rfl, rfl⟩
    · exact ⟨rfl, rfl, rfl⟩

end KafkaDriver
