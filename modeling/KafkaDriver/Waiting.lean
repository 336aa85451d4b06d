import KafkaDriver.Connection
import KafkaDriver.Directory
import KafkaDriver.WaitOrder

/-!
# Requests that wait for a connection

`RouteWaiting` holds the calls of one broker route and `PendingRequests` those of one
connection lane, each a `WaitQueue` with a byte budget. A request leaves a queue by being
handed on or by being failed; the functions below return the failures they deliver as
`RequestFate`s, in the order they are delivered.

`failAll` is `fail_bounded` with the budget `usize::MAX`, which bounds no queue in memory :
here it is the number of queued calls.
-/

namespace KafkaDriver

open WaitQueue

/-! ## Requests -/

/-- Why a request failed, as its caller sees it. -/
inductive RequestError where
  | apiUnavailable
  | identityConflict
  | deadlineOverflow
  | routeUnavailable
  | routeCapacityReached (callLimit byteLimit : ℕ)
  | metadataQueryCapacityReached (limit : ℕ)
  | coordinatorCapacityReached (limit : ℕ)
  | nameResolutionFailed (failure : DnsFailure)
  | rejected (failure : CallFailure) (delivery : Delivery)
  deriving DecidableEq

namespace RequestError

def deadlineExceeded : RequestError := .rejected .deadlineExceeded .notSent

def notReady : RequestError := .rejected .notReady .notSent

def draining : RequestError := .rejected .draining .notSent

def closed : RequestError := .rejected .closed .notSent

end RequestError

/-- An erased request : its ticket tells it from the others, `absolute` is the deadline once
established. -/
structure Request where
  ticket : ℕ
  trafficClass : TrafficClass
  remaining : ℕ
  absolute : Option Moment
  retainedBytes : ℕ
  rejectsAfterRouteFailure : Bool
  deriving DecidableEq

/-- Establish the absolute deadline once, or return the existing one. -/
def Request.establishDeadline (request : Request) (start : Moment) :
    Except RequestError (Request × Moment) :=
  match request.absolute with
  | some deadline => .ok (request, deadline)
  | none =>
    match start.checkedAdd request.remaining with
    | none => .error .deadlineOverflow
    | some deadline => .ok ({ request with absolute := some deadline }, deadline)

/-- How a request left the driver's waiting ownership. -/
inductive RequestFate where
  | failed (request : Request) (failure : RequestError) (observedAt : Option OutcomeStamp)
  | admitted (request : Request)

/-- A queued request with the bytes charged for it. -/
structure WaitingCall where
  request : Request
  bytes : ℕ

/-! ## Calls of a broker route -/

/-- Calls that wait for a route. -/
structure RouteWaiting where
  calls : WaitQueue WaitingCall
  retainedBytes : ℕ
  rejectingCalls : ℕ
  callLimit : NonZeroUsize
  byteLimit : NonZeroUsize
  turnBudget : NonZeroUsize

/-- What a pop came to. -/
inductive RouteWaitingOutcome where
  | empty
  | settled
  | ready (request : Request)

namespace RouteWaiting

def new (callLimit byteLimit turnBudget : NonZeroUsize) : RouteWaiting :=
  ⟨.new callLimit, 0, 0, callLimit, byteLimit, turnBudget⟩

def isEmpty (w : RouteWaiting) : Bool := w.calls.isEmpty

variable (build : Build) (w : RouteWaiting) (request : Request) (now : Moment)

def hasFailureRejections : Bool := w.rejectingCalls ≠ 0

/-- Some queued call is not due yet. -/
def hasLiveAfter : Bool :=
  w.calls.waiting.any fun entry => now < entry.deadline

def capacityFailure : RequestError :=
  .routeCapacityReached w.callLimit.get w.byteLimit.get

/-- Queue a request, or fail it. -/
def admitCall : RouteWaiting × List RequestFate × Bool :=
  match request.establishDeadline now with
  | .error failure => (w, [.failed request failure none], false)
  | .ok (request, deadline) =>
    if deadline ≤ now then (w, [.failed request .deadlineExceeded none], false)
    else if u64Max < w.retainedBytes + request.retainedBytes then
      (w, [.failed request w.capacityFailure none], false)
    else if w.calls.len = w.callLimit.get ∨
        w.byteLimit.get < w.retainedBytes + request.retainedBytes then
      (w, [.failed request w.capacityFailure none], false)
    else
      match w.calls.push ⟨request, request.retainedBytes⟩ deadline with
      | (calls, .error waiting) =>
        ({ w with calls }, [.failed waiting.request w.capacityFailure none], false)
      | (calls, .ok ()) =>
        ({ w with
            calls
            retainedBytes := w.retainedBytes + request.retainedBytes
            rejectingCalls := w.rejectingCalls + request.rejectsAfterRouteFailure.toNat },
          [], true)

/-- Return the charge of a call that left the queue. -/
def release (waiting : WaitingCall) : RouteWaiting :=
  { w with
    retainedBytes := wrappingSub w.retainedBytes waiting.bytes
    rejectingCalls := wrappingSub w.rejectingCalls waiting.request.rejectsAfterRouteFailure.toNat }

variable (failure : RequestError) (observedAt : Option OutcomeStamp)

/-- Take the oldest call. -/
def pop : RouteWaiting × List RequestFate × RouteWaitingOutcome :=
  match w.calls.popFront build with
  | (calls, none) => ({ w with calls }, [], .empty)
  | (calls, some (waiting, deadline)) =>
    if deadline ≤ now then
      (({ w with calls }).release waiting,
        [.failed waiting.request .deadlineExceeded observedAt], .settled)
    else (({ w with calls }).release waiting, [], .ready waiting.request)

/-- Fail due calls while `budget` lasts. -/
def expireLoop (now : Moment) (observedAt : Option OutcomeStamp) :
    ℕ → RouteWaiting → RouteWaiting × List RequestFate
  | 0, w => (w, [])
  | budget + 1, w =>
    match w.calls.takeDue now with
    | (calls, none) => ({ w with calls }, [])
    | (calls, some (waiting, _)) =>
      match expireLoop now observedAt budget (({ w with calls }).release waiting) with
      | (w, fates) => (w, .failed waiting.request .deadlineExceeded observedAt :: fates)

/-- Fail calls past their deadline. -/
def expireDueBounded (budget : ℕ) : RouteWaiting × List RequestFate :=
  w.expireLoop now observedAt (min budget w.turnBudget.get)

/-- Fail the oldest calls. -/
def failBounded (build : Build) (failure : RequestError) (observedAt : Option OutcomeStamp) :
    ℕ → RouteWaiting → RouteWaiting × List RequestFate
  | 0, w => (w, [])
  | budget + 1, w =>
    match w.calls.popFront build with
    | (calls, none) => ({ w with calls }, [])
    | (calls, some (waiting, _)) =>
      match failBounded build failure observedAt budget (({ w with calls }).release waiting) with
      | (w, fates) => (w, .failed waiting.request failure observedAt :: fates)

def failAll : RouteWaiting × List RequestFate :=
  w.failBounded build failure observedAt w.calls.len

/-- Examine one call and fail it if it opted out of waiting behind a failed route. -/
def rejectFailedRouteOne (observedAt : OutcomeStamp) : RouteWaiting × List RequestFate × Bool :=
  if !w.hasFailureRejections then (w, [], false)
  else
    match w.calls.scanOne build (·.request.rejectsAfterRouteFailure) with
    | (calls, none) => ({ w with calls }, [], true)
    | (calls, some (waiting, deadline)) =>
      (({ w with calls }).release waiting,
        [.failed waiting.request (if deadline ≤ now then .deadlineExceeded else .notReady)
          (some observedAt)], true)

end RouteWaiting

/-! ## Requests of a connection lane -/

/-- Calls that wait for a lane. -/
structure PendingRequests where
  requests : WaitQueue WaitingCall
  retainedBytes : ℕ
  countLimit : NonZeroUsize
  byteLimit : NonZeroUsize

namespace PendingRequests

def new (countLimit byteLimit : NonZeroUsize) : PendingRequests :=
  ⟨.new countLimit, 0, countLimit, byteLimit⟩

def isEmpty (p : PendingRequests) : Bool := p.requests.isEmpty

def capacityFailure (p : PendingRequests) : RequestError :=
  .routeCapacityReached p.countLimit.get p.byteLimit.get

/-- Queue a call or refuse it. -/
def push (p : PendingRequests) (request : Request) (now : Moment) :
    PendingRequests × List RequestFate :=
  match request.establishDeadline now with
  | .error failure => (p, [.failed request failure none])
  | .ok (request, deadline) =>
    if deadline ≤ now then (p, [.failed request .deadlineExceeded none])
    else if p.requests.len = p.countLimit.get ∨
        u64Max < p.retainedBytes + request.retainedBytes ∨
        p.byteLimit.get < p.retainedBytes + request.retainedBytes then
      (p, [.failed request p.capacityFailure none])
    else
      match p.requests.push ⟨request, request.retainedBytes⟩ deadline with
      | (requests, .error pending) =>
        ({ p with requests }, [.failed pending.request p.capacityFailure none])
      | (requests, .ok ()) =>
        ({ p with requests, retainedBytes := p.retainedBytes + request.retainedBytes }, [])

/-- Take the oldest call. -/
def pop (build : Build) (p : PendingRequests) : PendingRequests × Option Request :=
  match p.requests.popFront build with
  | (requests, none) => ({ p with requests }, none)
  | (requests, some (pending, _)) =>
    ({ p with requests, retainedBytes := wrappingSub p.retainedBytes pending.bytes },
      some pending.request)

/-- Fail due requests while `budget` lasts. -/
def expireDue (now : Moment) : ℕ → PendingRequests → PendingRequests × List RequestFate
  | 0, p => (p, [])
  | budget + 1, p =>
    match p.requests.takeDue now with
    | (requests, none) => ({ p with requests }, [])
    | (requests, some (pending, _)) =>
      match expireDue now budget
        { p with requests, retainedBytes := wrappingSub p.retainedBytes pending.bytes } with
      | (p, fates) => (p, .failed pending.request .deadlineExceeded none :: fates)

/-- Fail the oldest calls. -/
def failBounded (build : Build) (failure : RequestError) :
    ℕ → PendingRequests → PendingRequests × List RequestFate
  | 0, p => (p, [])
  | budget + 1, p =>
    match p.pop build with
    | (p, none) => (p, [])
    | (p, some request) =>
      match failBounded build failure budget p with
      | (p, fates) => (p, .failed request failure none :: fates)

def failAll (build : Build) (p : PendingRequests) (failure : RequestError) :
    PendingRequests × List RequestFate :=
  p.failBounded build failure p.requests.len

end PendingRequests

/-! ## Accounts

The two collections are the same queue with the same charges; a route also counts the calls that
opted out of waiting behind a failed route. What their operations do is said once for both. -/

/-- A queue of calls, the bytes charged and, where they are counted, the opted-out calls. -/
structure CallAccount where
  calls : WaitQueue WaitingCall
  retained : ℕ
  rejecting : Option ℕ
  callLimit : NonZeroUsize
  byteLimit : NonZeroUsize

def RouteWaiting.account (w : RouteWaiting) : CallAccount :=
  ⟨w.calls, w.retainedBytes, some w.rejectingCalls, w.callLimit, w.byteLimit⟩

def PendingRequests.account (p : PendingRequests) : CallAccount :=
  ⟨p.requests, p.retainedBytes, none, p.countLimit, p.byteLimit⟩

namespace CallAccount

/-- The charge of a call that left is returned. -/
def released (a : CallAccount) (calls : WaitQueue WaitingCall) (waiting : WaitingCall) :
    CallAccount :=
  { a with
    calls
    retained := wrappingSub a.retained waiting.bytes
    rejecting := a.rejecting.map (wrappingSub · waiting.request.rejectsAfterRouteFailure.toNat) }

/-- Calls leave one after the other, failed by `fates`. -/
inductive Settles : List RequestFate → CallAccount → CallAccount → Prop
  | stay {a : CallAccount} : Settles [] a a
  | turn {a : CallAccount} {calls : WaitQueue WaitingCall} (takes : a.calls.Takes none calls) :
      Settles [] a { a with calls }
  | take {a a' : CallAccount} {calls : WaitQueue WaitingCall} {waiting : WaitingCall}
      {deadline : Moment} {fates : List RequestFate} {failure : RequestError}
      {observedAt : Option OutcomeStamp} (takes : a.calls.Takes (some (waiting, deadline)) calls)
      (rest : Settles fates (a.released calls waiting) a') :
      Settles (.failed waiting.request failure observedAt :: fates) a a'

/-- A call is refused, or joins the others under its deadline. -/
inductive Admits (ticket : ℕ) : List RequestFate → CallAccount → CallAccount → Prop
  | refuse {a : CallAccount} {request : Request} {failure : RequestError}
      (same : request.ticket = ticket) : Admits ticket [.failed request failure none] a a
  | join {a : CallAccount} {calls : WaitQueue WaitingCall} {request : Request} {deadline : Moment}
      (pushed : a.calls.push ⟨request, request.retainedBytes⟩ deadline = (calls, .ok ()))
      (same : request.ticket = ticket) (absolute : request.absolute = some deadline)
      (room : a.calls.len ≠ a.callLimit.get)
      (fits : a.retained + request.retainedBytes ≤ a.byteLimit.get) :
      Admits ticket [] a
        { a with
          calls
          retained := a.retained + request.retainedBytes
          rejecting := a.rejecting.map (· + request.rejectsAfterRouteFailure.toNat) }

variable {a a' : CallAccount} {fates : List RequestFate} {ticket : ℕ}

/-- The limits on calls and bytes. -/
def limits (a : CallAccount) : NonZeroUsize × NonZeroUsize := (a.callLimit, a.byteLimit)

theorem Settles.limits (h : Settles fates a a') : a'.limits = a.limits := by
  induction h with
  | stay | turn => rfl
  | take ht rest ih => exact ih

theorem Settles.inOrder (h : Settles fates a a') : a'.calls.waiting.Sublist a.calls.waiting := by
  induction h with
  | stay => exact .refl _
  | turn ht => exact ht.inOrder
  | take ht rest ih => exact ih.trans ht.inOrder

theorem Settles.ordered (h : Settles fates a a') (ord : a.calls.Ordered) : a'.calls.Ordered := by
  induction h with
  | stay => exact ord
  | turn ht => exact ht.ordered ord
  | take ht rest ih => exact ih (ht.ordered ord)

theorem Settles.len_le (h : Settles fates a a') : a'.calls.len ≤ a.calls.len := by
  rw [len_eq, len_eq]
  exact h.inOrder.length_le

theorem Admits.len_le (h : Admits ticket fates a a') (hr : fates.isEmpty = false) :
    a'.calls.len ≤ a.calls.len := by
  cases h with
  | refuse => exact le_rfl
  | join => cases hr

theorem Admits.limits (h : Admits ticket fates a a') : a'.limits = a.limits := by
  cases h <;> rfl

end CallAccount

/-- An established request keeps its ticket and carries its deadline. -/
theorem Request.establishDeadline_spec {req req' : Request} {start due : Moment}
    (he : req.establishDeadline start = .ok (req', due)) :
    req'.ticket = req.ticket ∧ req'.absolute = some due := by
  unfold establishDeadline at he
  split at he
  · rename_i absolute
    cases he
    exact ⟨rfl, absolute⟩
  · split at he
    · cases he
    · cases he
      exact ⟨rfl, rfl⟩

namespace RouteWaiting

variable (now : Moment) (build : Build) (failure : RequestError) (observedAt : Option OutcomeStamp)
  (budget : ℕ) (w : RouteWaiting)

theorem isEmpty_iff : w.isEmpty = true ↔ w.calls.len = 0 := by
  simp [isEmpty, WaitQueue.isEmpty]

/-- A call comes; whether it was queued is whether it has no fate. -/
theorem admitCall_admits (req : Request) :
    CallAccount.Admits req.ticket (w.admitCall req now).2.1 w.account
        (w.admitCall req now).1.account ∧
      (w.admitCall req now).2.2 = (w.admitCall req now).2.1.isEmpty := by
  unfold admitCall
  cases established : req.establishDeadline now with
  | error err => exact ⟨.refuse rfl, rfl⟩
  | ok res =>
    obtain ⟨hs, absolute⟩ := Request.establishDeadline_spec established
    dsimp only
    split_ifs with due overflow full
    · exact ⟨.refuse hs, rfl⟩
    · exact ⟨.refuse hs, rfl⟩
    · exact ⟨.refuse hs, rfl⟩
    split
    · rename_i hr
      cases insertBack_refused hr
      cases push_error hr
      exact ⟨.refuse hs, rfl⟩
    · rename_i hp
      obtain ⟨room, hf⟩ := not_or.1 full
      exact ⟨.join hp hs absolute room (not_lt.1 hf), rfl⟩

/-- A call that is not admitted is not queued. -/
theorem len_admitCall_le {w : RouteWaiting} {req : Request} {now : Moment}
    (hr : (w.admitCall req now).2.2 = false) :
    (w.admitCall req now).1.calls.len ≤ w.calls.len := by
  obtain ⟨ha, hq⟩ := w.admitCall_admits now req
  exact ha.len_le (hq.symm.trans hr)

theorem len_pop_le : (w.pop build now observedAt).1.calls.len ≤ w.calls.len := by
  unfold pop
  split
  · rename_i hp
    have ht := Takes.of_popFront hp
    exact ht.len_le
  · rename_i hp
    have ht := Takes.of_popFront hp
    split_ifs <;> exact ht.len_le

theorem expireLoop_settles :
    CallAccount.Settles (w.expireLoop now observedAt budget).2 w.account
      (w.expireLoop now observedAt budget).1.account := by
  induction budget generalizing w with
  | zero => exact .stay
  | succ budget ih =>
    unfold expireLoop
    split
    · rename_i hta
      exact .turn (.of_takeDue hta)
    · rename_i hta
      exact .take (.of_takeDue hta) (ih _)

theorem failBounded_settles :
    CallAccount.Settles (w.failBounded build failure observedAt budget).2 w.account
      (w.failBounded build failure observedAt budget).1.account := by
  induction budget generalizing w with
  | zero => exact .stay
  | succ budget ih =>
    unfold failBounded
    split
    · rename_i hp
      exact .turn (.of_popFront hp)
    · rename_i hp
      exact .take (.of_popFront hp) (ih _)

theorem rejectFailedRouteOne_settles (t : OutcomeStamp) :
    CallAccount.Settles (w.rejectFailedRouteOne build now t).2.1 w.account
      (w.rejectFailedRouteOne build now t).1.account := by
  have ht := w.calls.scanOne_takes build (·.request.rejectsAfterRouteFailure)
  unfold rejectFailedRouteOne
  split_ifs
  · exact .stay
  split
  · rename_i hs
    rw [hs] at ht
    exact .turn ht
  · rename_i hs
    rw [hs] at ht
    exact .take ht .stay

/-- `failBounded` fails as many calls as its budget allows. -/
theorem waiting_failBounded :
    (w.failBounded build failure observedAt budget).1.calls.waiting =
      w.calls.waiting.drop budget := by
  induction budget generalizing w with
  | zero => rfl
  | succ budget ih =>
    unfold failBounded
    rcases w.calls.waiting_popFront build with ⟨empty, hp⟩ | ⟨e, hp, ws⟩
    · rw [hp, empty]
      exact List.drop_nil.symm
    · rw [ws, ← Prod.mk.eta (p := w.calls.popFront build), hp]
      exact ih _

theorem isEmpty_failAll (b : Build) (w : RouteWaiting) (err : RequestError)
    (t : Option OutcomeStamp) :
    (w.failAll b err t).1.isEmpty = true := by
  rw [isEmpty_iff, failAll, len_eq, waiting_failBounded, len_eq, List.drop_length, List.length_nil]

end RouteWaiting

namespace PendingRequests

variable (build : Build) (failure : RequestError) (budget : ℕ) (p : PendingRequests)

theorem push_admits (req : Request) (now : Moment) :
    CallAccount.Admits req.ticket (p.push req now).2 p.account (p.push req now).1.account := by
  unfold push
  cases established : req.establishDeadline now with
  | error err => exact .refuse rfl
  | ok res =>
    obtain ⟨hs, absolute⟩ := Request.establishDeadline_spec established
    dsimp only
    split_ifs with due full
    · exact .refuse hs
    · exact .refuse hs
    split
    · rename_i hr
      cases insertBack_refused hr
      cases push_error hr
      exact .refuse hs
    · rename_i hp
      obtain ⟨room, hf⟩ := not_or.1 full
      exact .join hp hs absolute room (not_lt.1 (not_or.1 hf).2)

theorem expireDue_settles (now : Moment) :
    CallAccount.Settles (expireDue now budget p).2 p.account
      (expireDue now budget p).1.account := by
  induction budget generalizing p with
  | zero => exact .stay
  | succ budget ih =>
    unfold expireDue
    split
    · rename_i hta
      exact .turn (.of_takeDue hta)
    · rename_i hta
      exact .take (.of_takeDue hta) (ih _)

theorem failBounded_settles :
    CallAccount.Settles (p.failBounded build failure budget).2 p.account
      (p.failBounded build failure budget).1.account := by
  induction budget generalizing p with
  | zero => exact .stay
  | succ budget ih =>
    unfold failBounded pop
    cases popped : p.requests.popFront build with
    | mk requests front =>
      have ht := Takes.of_popFront popped
      cases front with
      | none => exact .turn ht
      | some front => exact .take ht (ih _)

theorem waiting_failBounded :
    (p.failBounded build failure budget).1.requests.waiting = p.requests.waiting.drop budget := by
  induction budget generalizing p with
  | zero => rfl
  | succ budget ih =>
    unfold failBounded pop
    rcases p.requests.waiting_popFront build with ⟨empty, hp⟩ | ⟨e, hp, ws⟩
    · rw [hp, empty]
      exact List.drop_nil.symm
    · rw [ws, ← Prod.mk.eta (p := p.requests.popFront build), hp]
      exact ih _

theorem isEmpty_failAll : (p.failAll build failure).1.isEmpty = true := by
  rw [isEmpty, WaitQueue.isEmpty, failAll, WaitQueue.len_eq, waiting_failBounded,
    WaitQueue.len_eq, List.drop_length]
  rfl

end PendingRequests

end KafkaDriver
