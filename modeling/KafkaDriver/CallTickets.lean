import KafkaDriver.AdmissionOrder

/-!
# Tickets of waiting calls

What a queue of calls does, counted by ticket : whoever came or waited still waits, or was
decided once (`WaitQueue.Conserves`), in either build.
-/

namespace KafkaDriver

open List

/-! ## Tickets -/

/-- The request a fate is about. -/
def RequestFate.request : RequestFate → Request
  | .failed request _ _ => request
  | .admitted request => request

/-- Tickets of the requests that were decided, in order. -/
def settledTickets (fates : List RequestFate) : List ℕ := fates.map (·.request.ticket)

@[simp]
theorem settledTickets_nil : settledTickets [] = [] := rfl

@[simp]
theorem settledTickets_cons (f : RequestFate) (fs : List RequestFate) :
    settledTickets (f :: fs) = f.request.ticket :: settledTickets fs := rfl

@[simp]
theorem settledTickets_append (fs fs' : List RequestFate) :
    settledTickets (fs ++ fs') = settledTickets fs ++ settledTickets fs' :=
  map_append

namespace WaitQueue

/-- Tickets of the calls that wait, in order. -/
def tickets (q : WaitQueue WaitingCall) : List ℕ := q.waiting.map (·.value.request.ticket)

/-- Between `q` and `q'` the calls `brought` came and `fates` were decided : every call that
waited or came still waits or has one fate. -/
def Conserves (brought : List ℕ) (fates : List RequestFate) (q q' : WaitQueue WaitingCall) :
    Prop :=
  q.Ordered → q'.Ordered ∧ (settledTickets fates ++ q'.tickets).Perm (brought ++ q.tickets)

variable {q q' q'' : WaitQueue WaitingCall} {brought brought' : List ℕ}
  {fates fs' : List RequestFate}

theorem Conserves.refl (q : WaitQueue WaitingCall) : Conserves [] [] q q :=
  fun ord => ⟨ord, .refl _⟩

theorem Conserves.trans (h : Conserves brought fates q q') (h' : Conserves brought' fs' q' q'') :
    Conserves (brought ++ brought') (fates ++ fs') q q'' := by
  intro ord
  obtain ⟨ho', first⟩ := h ord
  obtain ⟨hor', second⟩ := h' ho'
  refine ⟨hor', ?_⟩
  simp only [perm_iff_count, count_append, settledTickets_append] at *
  intro t
  have one := first t
  have two := second t
  omega

/-- Calls that are decided at once do not join. -/
theorem Conserves.pass (hd : settledTickets fates = brought) : Conserves brought fates q q :=
  fun ord => ⟨ord, hd ▸ .refl _⟩

theorem Conserves.of_none (ht : Takes q none q') : Conserves [] [] q q' :=
  fun ord => ⟨ht.ordered ord, (ht.taken.map _).symm⟩

theorem Conserves.of_some {c : WaitingCall} {due : Moment} {f : RequestFate}
    (ht : Takes q (some (c, due)) q')
    (hs : f.request.ticket = c.request.ticket) : Conserves [] [f] q q' := by
  intro ord
  refine ⟨ht.ordered ord, ?_⟩
  rw [settledTickets_cons, hs]
  exact (ht.taken.map fun e => e.value.request.ticket).symm

end WaitQueue

namespace CallAccount

open WaitQueue

variable {a a' : CallAccount} {fates : List RequestFate} {ticket : ℕ}

theorem Settles.conserves (h : Settles fates a a') : Conserves [] fates a.calls a'.calls := by
  induction h with
  | stay => exact .refl _
  | turn ht => exact .of_none ht
  | take ht rest ih => exact (Conserves.of_some ht rfl).trans ih

theorem Admits.conserves (h : Admits ticket fates a a') :
    Conserves [ticket] fates a.calls a'.calls := by
  cases h with
  | refuse hs => exact .pass (congrArg (fun t => [t]) hs)
  | @join _ cs req due hp hs =>
    intro ord
    obtain ⟨ho', ws⟩ := ord.pushed hp
    refine ⟨ho', ?_⟩
    rw [settledTickets_nil, nil_append, tickets, ws, map_append, ← hs]
    exact perm_append_comm

end CallAccount

/-! ## Calls of a route -/

/-- The call a pop leaves in the hands of its caller. -/
def RouteWaitingOutcome.inHand : RouteWaitingOutcome → List Request
  | .ready request => [request]
  | .empty | .settled => []

namespace RouteWaiting

open WaitQueue

/-- A call taken from the front is settled here or later, by the caller it is handed to. -/
theorem pop_conserves {b : Build} {w w' : RouteWaiting} {now : Moment}
    {t : Option OutcomeStamp} {fs later : List RequestFate}
    {out : RouteWaitingOutcome} (hp : w.pop b now t = (w', fs, out))
    (hh : settledTickets later = out.inHand.map Request.ticket) :
    Conserves [] (fs ++ later) w.calls w'.calls := by
  unfold pop at hp
  split at hp
  · rename_i front
    cases hp
    obtain rfl : later = [] := map_eq_nil_iff.1 hh
    exact .of_none (.of_popFront front)
  · rename_i front
    have ht := Takes.of_popFront front
    split_ifs at hp
    · cases hp
      obtain rfl : later = [] := map_eq_nil_iff.1 hh
      exact .of_some ht rfl
    · cases hp
      obtain ⟨f, rfl, ticket⟩ := map_eq_singleton_iff.1 hh
      exact .of_some ht ticket

end RouteWaiting

/-! ## Calls of the seed -/

namespace PendingRequests

open WaitQueue

theorem pop_conserves {b : Build} {p p' : PendingRequests} {request? : Option Request}
    {later : List RequestFate} (hp : p.pop b = (p', request?))
    (hh : settledTickets later = request?.toList.map Request.ticket) :
    Conserves [] later p.requests p'.requests := by
  unfold pop at hp
  split at hp
  · rename_i front
    cases hp
    obtain rfl : later = [] := map_eq_nil_iff.1 hh
    exact .of_none (.of_popFront front)
  · rename_i front
    cases hp
    obtain ⟨f, rfl, ticket⟩ := map_eq_singleton_iff.1 hh
    exact .of_some (.of_popFront front) ticket

end PendingRequests

end KafkaDriver
