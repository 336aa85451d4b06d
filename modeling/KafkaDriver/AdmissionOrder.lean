import KafkaDriver.RouteLiveness

/-!
# The order in which requests are admitted

Requests that find their lane not ready wait in a queue, and turns with a budget admit them
from its front once the lane is ready. `Fifo.InOrder` says that nobody is overtaken : what was
admitted, followed by what waits, is part of what was submitted, in that order.

`DirectLane.submitRequest` asks whether the lane is ready and does not look at the queue, and
so does `submitSeed` : a lane that became ready with more requests queued than a turn admits
takes a new request before them (`ready_lane_overtakes`). Runs without this keep the order
(`admitted_in_order`).
-/

/-! ## Queues with a way past them -/

namespace Fifo

variable {τ : Type*} {submitted admitted waiting ws' : List τ}

/-- What was admitted, and after it what waits, is part of what was submitted, in order. -/
def InOrder (submitted admitted waiting : List τ) : Prop :=
  (admitted ++ waiting).Sublist submitted

instance [DecidableEq τ] : Decidable (InOrder submitted admitted waiting) :=
  inferInstanceAs (Decidable ((admitted ++ waiting).Sublist submitted))

theorem InOrder.queue (h : InOrder submitted admitted waiting) (x : τ) :
    InOrder (submitted ++ [x]) admitted (waiting ++ [x]) := by
  unfold InOrder at *
  rw [← List.append_assoc]
  exact h.append (List.Sublist.refl _)

/-- Only past an empty queue. -/
theorem InOrder.pass (h : InOrder submitted admitted []) (x : τ) :
    InOrder (submitted ++ [x]) (admitted ++ [x]) [] := by
  unfold InOrder at *
  rw [List.append_nil] at *
  exact h.append (List.Sublist.refl _)

theorem InOrder.refuse (h : InOrder submitted admitted waiting) (x : τ) :
    InOrder (submitted ++ [x]) admitted waiting :=
  h.trans (List.sublist_append_left _ _)

theorem InOrder.serve {x : τ} (h : InOrder submitted admitted (x :: waiting)) :
    InOrder submitted (admitted ++ [x]) waiting := by
  unfold InOrder at *
  rwa [List.append_assoc]

theorem InOrder.leave (h : InOrder submitted admitted waiting) (hf : ws'.Sublist waiting) :
    InOrder submitted admitted ws' :=
  ((List.Sublist.refl _).append hf).trans h

end Fifo

namespace KafkaDriver

open Fallible Fifo List Runs

/-! ## Queued requests -/

/-- Tickets of the requests that were admitted, in order. -/
def admittedTickets (fates : List RequestFate) : List ℕ :=
  fates.filterMap fun
    | .admitted request => some request.ticket
    | .failed .. => none

@[simp]
theorem admittedTickets_nil : admittedTickets [] = [] := rfl

@[simp]
theorem admittedTickets_append (fs fs' : List RequestFate) :
    admittedTickets (fs ++ fs') = admittedTickets fs ++ admittedTickets fs' :=
  filterMap_append

namespace CallAccount

variable {a a' : CallAccount} {fates : List RequestFate} {ticket : ℕ}

theorem Settles.silent (h : Settles fates a a') : admittedTickets fates = [] := by
  induction h with
  | stay | turn => rfl
  | take ht rest ih => exact ih

/-- A call that comes waits behind the others, or is refused. -/
theorem Admits.hands (h : Admits ticket fates a a') (ord : a.calls.Ordered) :
    a'.calls.Ordered ∧ ∀ pre admitted,
      InOrder pre admitted (a.calls.waiting.map (·.value.request.ticket)) →
        InOrder (pre ++ [ticket]) (admitted ++ admittedTickets fates)
          (a'.calls.waiting.map (·.value.request.ticket)) := by
  cases h with
  | refuse hs =>
    refine ⟨ord, fun pre admitted h => ?_⟩
    rw [show admittedTickets _ = [] from rfl, append_nil]
    exact h.refuse ticket
  | @join _ cs req due hp hs =>
    obtain ⟨ho', ws⟩ := ord.pushed hp
    refine ⟨ho', fun pre admitted h => ?_⟩
    rw [ws, map_append, admittedTickets_nil, append_nil, ← hs]
    exact h.queue req.ticket

end CallAccount

namespace PendingRequests

/-- Tickets of the requests that wait, in order. -/
def tickets (p : PendingRequests) : List ℕ := p.requests.waiting.map (·.value.request.ticket)

theorem tickets_of_isEmpty {p : PendingRequests} (empty : p.isEmpty = true) : p.tickets = [] := by
  have empty : p.requests.waiting = [] := by
    rw [← length_eq_zero_iff, ← WaitQueue.len_eq]
    simpa [isEmpty, WaitQueue.isEmpty] using empty
  rw [tickets, empty, map_nil]

/-- Between `p` and `p'` the requests `submitted` came and `fates` were decided, and nobody
was overtaken. -/
def Hands (submitted : List ℕ) (p p' : PendingRequests) (fates : List RequestFate) : Prop :=
  p.requests.Ordered → p'.requests.Ordered ∧ ∀ before admitted, InOrder before admitted p.tickets →
    InOrder (before ++ submitted) (admitted ++ admittedTickets fates) p'.tickets

variable {p p' p'' : PendingRequests} {xs ys : List ℕ} {fates fs' : List RequestFate}

theorem Hands.stay (p : PendingRequests) (hs : admittedTickets fates = []) :
    Hands [] p p fates := by
  intro ord
  refine ⟨ord, fun pre adm h => ?_⟩
  rw [hs, append_nil, append_nil]
  exact h

theorem Hands.refl (p : PendingRequests) : Hands [] p p [] := .stay p rfl

theorem Hands.trans (h : Hands xs p p' fates) (h' : Hands ys p' p'' fs') :
    Hands (xs ++ ys) p p'' (fates ++ fs') := by
  intro ord
  obtain ⟨ho', first⟩ := h ord
  obtain ⟨hor', second⟩ := h' ho'
  refine ⟨hor', fun pre adm hi => ?_⟩
  rw [admittedTickets_append, ← append_assoc, ← append_assoc]
  exact second _ _ (first _ _ hi)

theorem Hands.refuse (p : PendingRequests) (ticket : ℕ) (hs : admittedTickets fates = []) :
    Hands [ticket] p p fates := by
  intro ord
  refine ⟨ord, fun pre adm h => ?_⟩
  rw [hs, append_nil]
  exact h.refuse ticket

theorem Hands.pass (empty : p.isEmpty = true) (req : Request) :
    Hands [req.ticket] p p [.admitted req] := by
  intro ord
  refine ⟨ord, fun pre adm h => ?_⟩
  rw [tickets_of_isEmpty empty] at *
  exact h.pass req.ticket

/-- Requests that fail leave the others in order. -/
theorem Hands.of_settles (h : CallAccount.Settles fates p.account p'.account) :
    Hands [] p p' fates := by
  intro ord
  refine ⟨h.ordered ord, fun pre adm hi => ?_⟩
  rw [h.silent, append_nil, append_nil]
  exact hi.leave (h.inOrder.map _)

theorem push_hands (p : PendingRequests) (req : Request) (now : Moment) :
    Hands [req.ticket] p (p.push req now).1 (p.push req now).2 :=
  (p.push_admits req now).hands

/-- A request popped from the front may be admitted or fail. -/
theorem pop_hands (b : Build) {req : Request} (hp : p.pop b = (p', some req))
    (hs : admittedTickets fates = [req.ticket] ∨ admittedTickets fates = []) :
    Hands [] p p' fates := by
  unfold pop at hp
  intro ord
  have ho' := (p.requests.popFront_takes b).ordered ord
  rcases p.requests.waiting_popFront b with ⟨-, pop⟩ | ⟨e, front, ws⟩
  · rw [pop] at hp
    cases hp
  rw [← Prod.mk.eta (p := p.requests.popFront b), front] at hp
  cases hp
  refine ⟨ho', fun pre adm h => ?_⟩
  rw [tickets, ws, map_cons] at h
  rw [append_nil]
  rcases hs with hse | hs
  · rw [hse]
    exact h.serve
  · rw [hs, append_nil]
    exact h.leave (sublist_cons_self _ _)

theorem pop_none_hands (b : Build) (hp : p.pop b = (p', none)) : Hands [] p p' [] := by
  unfold pop at hp
  rcases p.requests.waiting_popFront b with ⟨-, pop⟩ | ⟨e, front, -⟩
  · rw [pop] at hp
    cases hp
    exact .refl p
  · rw [← Prod.mk.eta (p := p.requests.popFront b), front] at hp
    cases hp

end PendingRequests

/-! ## Runs of a queue -/

/-- If every step of a run hands requests on in order, so does the run. -/
theorem inOrder_run {σ ι : Type*} {step : σ → ι → σ × List RequestFate}
    {pend : σ → PendingRequests} {submitted : ι → List ℕ} {guard : σ → ι → Prop}
    (hh : ∀ s i, guard s i → PendingRequests.Hands (submitted i) (pend s)
      (pend (step s i).1) (step s i).2)
    {s : σ} (ord : (pend s).requests.Ordered) (hi : (pend s).isEmpty = true)
    (is : List ι) (hg : ∀ e ∈ trace step s is, guard e.before e.input) :
    InOrder (is.flatMap submitted) ((trace step s is).flatMap fun e => admittedTickets e.answer)
      (pend (final step s is)).tickets := by
  have both := run_induction step (s := s)
    (P := fun is es s' => (∀ e ∈ es, guard e.before e.input) → (pend s').requests.Ordered ∧
      InOrder (is.flatMap submitted) (es.flatMap fun e => admittedTickets e.answer)
        (pend s').tickets)
    (fun _ => ⟨ord, by rw [PendingRequests.tickets_of_isEmpty hi]; exact .slnil⟩) ?_ is hg
  · exact both.2
  · intro is i ih hg
    obtain ⟨ho', hin⟩ := ih fun e mem => hg e (mem_append_left _ mem)
    have last := hg (event step (final step s is) i) (by simp)
    obtain ⟨hor', more⟩ := hh _ i last ho'
    refine ⟨hor', ?_⟩
    simpa [flatMap_append, event] using more _ _ hin

/-! ## Lanes -/

/-- What happens to the queue of a lane : a request comes, a turn admits queued requests, the
connection changes, requests run out of time or fail with the lane. -/
inductive LaneOperation where
  | submitRequest (request : Request) (now : Moment) (reply : LaneReply)
  | admitPending (replies : List LaneReply)
  | change (change : LaneChange)
  | expireDue (now : Moment) (budget : ℕ)
  | failPending (failure : RequestError) (budget : ℕ)

/-- Tickets of the request an operation brings. -/
def LaneOperation.submitted : LaneOperation → List ℕ
  | .submitRequest request _ _ => [request.ticket]
  | _ => []

namespace DirectLane

def step (build : Build) (lane : DirectLane) : LaneOperation → DirectLane × List RequestFate
  | .submitRequest request now reply =>
    ((lane.submitRequest request now reply).1, (lane.submitRequest request now reply).2.1)
  | .admitPending replies =>
    ((lane.admitPending build replies).1, (lane.admitPending build replies).2.1)
  | .change change => (lane.evolve change, [])
  | .expireDue now budget =>
    ({ lane with pending := (lane.pending.expireDue now budget).1 },
      (lane.pending.expireDue now budget).2)
  | .failPending failure budget =>
    ({ lane with pending := (lane.pending.failBounded build failure budget).1 },
      (lane.pending.failBounded build failure budget).2)

/-- No request is handed to a ready lane past its queue. -/
def Waits (lane : DirectLane) : LaneOperation → Prop
  | .submitRequest .. => lane.terminalAdmissionFailure = none → lane.canAdmitPublic = true →
      lane.pending.isEmpty = true
  | _ => True

theorem admitLoop_hands (lane : DirectLane) (build : Build) (replies : List LaneReply) :
    PendingRequests.Hands [] lane.pending (lane.admitLoop build replies).1.pending
      (lane.admitLoop build replies).2.1 := by
  induction replies generalizing lane with
  | nil => exact .refl lane.pending
  | cons reply replies ih =>
    unfold admitLoop
    split
    · rename_i hp
      exact PendingRequests.pop_none_hands build hp
    rename_i pending req hp
    have first : PendingRequests.Hands [] lane.pending pending [.admitted req] :=
      PendingRequests.pop_hands build hp (Or.inl rfl)
    dsimp only
    split
    · exact first
    · split
      · exact first
      · exact first.trans (ih (({ lane with pending }).evolve reply.change))

theorem step_hands (build : Build) (lane : DirectLane) (op : LaneOperation) (hw : lane.Waits op) :
    PendingRequests.Hands op.submitted lane.pending (lane.step build op).1.pending
      (lane.step build op).2 := by
  cases op with
  | submitRequest req now reply =>
    dsimp only [step, LaneOperation.submitted]
    unfold submitRequest
    cases ended : lane.terminalAdmissionFailure with
    | some err => exact .refuse lane.pending req.ticket rfl
    | none =>
      dsimp only
      split
      · rename_i hr
        exact .pass (hw ended hr) req
      · exact lane.pending.push_hands req now
  | admitPending replies =>
    dsimp only [step, LaneOperation.submitted]
    unfold admitPending
    split
    · exact lane.admitLoop_hands build replies
    · exact .refl lane.pending
  | change change => exact .refl lane.pending
  | expireDue now budget => exact .of_settles (lane.pending.expireDue_settles budget now)
  | failPending err budget =>
    exact .of_settles (lane.pending.failBounded_settles build err budget)

end DirectLane

/-! ## The seed -/

namespace ClusterRuntime

variable {build : Build} {r r' r'' : ClusterRuntime} {xs ys : List ℕ}

/-- Between `r` and `r'` the seed's queue handed requests on in order. -/
def Seeds (submitted : List ℕ) (r r' : ClusterRuntime) : Prop :=
  ∃ fates, r'.fates = r.fates ++ fates ∧ r.seedWaiting.Hands submitted r'.seedWaiting fates

theorem Seeds.of_eq (queue : r'.seedWaiting = r.seedWaiting) (fs : r'.fates = r.fates) :
    Seeds [] r r' := ⟨[], by rw [fs, append_nil], queue ▸ .refl _⟩

theorem Seeds.trans (h : Seeds xs r r') (h' : Seeds ys r' r'') : Seeds (xs ++ ys) r r'' := by
  obtain ⟨fs, hs, hh⟩ := h
  obtain ⟨fs', hs', hands'⟩ := h'
  exact ⟨fs ++ fs', by rw [hs', hs, append_assoc], hh.trans hands'⟩

theorem Seeds.after (h : Seeds xs r r') (h' : Seeds [] r' r'') : Seeds xs r r'' := by
  simpa using h.trans h'

section

variable (build r)

theorem seeds_totalizeQueues :
    Seeds [] r ((r.totalizeSeedWaiting build).totalizeRouteWaiting build) := by
  have rs : admittedTickets (r.routes.entries.flatMap fun e =>
      (e.2.failWaiting build .closed e.2.routeFailureAt).2) = [] := by
    rw [admittedTickets, filterMap_flatMap, flatMap_eq_nil_iff]
    intro e _
    exact (RouteWaiting.failBounded_settles _ _ _ _ _).silent
  have hf := PendingRequests.Hands.of_settles <| r.seedWaiting.failBounded_settles build
    (r.seedWaitingState.queuedCallFailure.getD .closed) r.seedWaiting.requests.len
  exact ⟨_, append_assoc _ _ _, hf.trans (.stay _ rs)⟩

/-- A fatal error admits nobody. -/
theorem seeds_totalize : Seeds [] r (r.totalizeAfterHostFailure build) := by
  obtain ⟨seedWaitingState, hs⟩ := totalizeAfterHostFailure_eq build r
  have ha : Seeds [] r { r with pendingResolvedSeed := none, seedWaitingState } := .of_eq rfl rfl
  exact hs ▸ ha.after (seeds_totalizeQueues build _)

/-- Handing a request to a ready lane decides its fate. -/
theorem submitRequest_ready {l : DirectLane} (hr : l.canAdmitPublic = true)
    (req : Request) (now : Moment) (reply : LaneReply) :
    (l.submitRequest req now reply).2.1 = [.admitted req] ∧ l.terminalAdmissionFailure = none ∨
      ∃ err, (l.submitRequest req now reply).2.1 = [.failed req err none] := by
  unfold DirectLane.submitRequest
  split
  · exact Or.inr ⟨_, rfl⟩
  · rename_i healthy
    rw [if_pos hr]
    exact Or.inl ⟨rfl, healthy⟩

/-! ### Submission -/

/-- A call for the seed now goes to the seed lane at once. -/
def SeedAdmits : Prop :=
  ∃ captured index lane, r.captureSeedTerminalFailure = .ok captured ∧
    captured.seedWaitingState.admissionFailure = none ∧
    captured.seedLaneIndex = .ok (some index) ∧ captured.lanes[index]? = some lane ∧
    lane.canAdmitPublic = true ∧ lane.terminalAdmissionFailure = none

end

theorem seeds_submitted {req : Request} (h : SeedSubmits req r r')
    (hw : r.SeedAdmits → r.seedWaiting.isEmpty = true) : Seeds [req.ticket] r r' := by
  cases h with
  | refuse => exact ⟨_, rfl, .refuse r.seedWaiting req.ticket rfl⟩
  | push => exact ⟨_, rfl, r.seedWaiting.push_hands req _⟩
  | @pass s _ l now reply hc ha position ht hr =>
    have hs := captureSeedTerminalFailure_eq hc
    have hae : Seeds [] r s := .of_eq (by rw [hs]) (by rw [hs])
    refine hae.trans ⟨_, rfl, ?_⟩
    change s.seedWaiting.Hands [req.ticket] s.seedWaiting _
    rcases submitRequest_ready hr req now reply with ⟨adm, healthy⟩ | ⟨_, hf⟩
    · have empty : s.seedWaiting.isEmpty = true := by
        rw [hs]
        exact hw ⟨s, _, l, hc, ha, position, ht, hr, healthy⟩
      rw [adm]
      exact .pass empty req
    · rw [hf]
      exact .refuse s.seedWaiting req.ticket rfl

/-! ### Turns -/

theorem seeds_moved (h : SeedMove build r r') : Seeds [] r r' := by
  cases h with
  | settle hs => exact ⟨_, rfl, .of_settles hs⟩
  | @serve _ l _ req now reply _ hr hp =>
    refine ⟨_, rfl, PendingRequests.pop_hands build hp ?_⟩
    rcases submitRequest_ready hr req now reply with ⟨adm, -⟩ | ⟨_, hf⟩
    · exact Or.inl (by rw [adm]; rfl)
    · exact Or.inr (by rw [hf]; rfl)

theorem seeds_served {α : Type} {x : Host α} (h : ServesSeed build x r) :
    wp x (fun _ r' => Seeds [] r r') (fun _ r' => Seeds [] r r') r := by
  have run : ∀ r', Relation.ReflTransGen (SeedMove build) r r' → Seeds [] r r' := fun _ moves =>
    steps_invariant (fun _ _ move pre => pre.after (seeds_moved move)) moves (.of_eq rfl rfl)
  exact wp_mono h (fun _ r' hr => run r' hr.1) fun _ => run

theorem finishHostResult_seeds {α : Type} {x : Host α}
    (h : wp x (fun _ r' => Seeds xs r r') (fun _ r' => Seeds xs r r') r) :
    wp (finishHostResult build x) (fun _ r' => Seeds xs r r') (fun _ r' => Seeds xs r r') r := by
  unfold finishHostResult
  rw [wp_onError]
  exact wp_mono h (fun _ _ hs => hs) fun _ r' hs => hs.after (seeds_totalize build r')

/-! ### Runs -/

/-- What happens to the calls that wait for the seed. `other` is whatever else changes the
runtime : lanes, the seed, readiness and the failure its calls get. -/
inductive SeedTurn where
  | submitSeed (request : Request) (now : Moment) (reply : LaneReply)
  | serviceSeedWaiting (now : Moment) (replies : List LaneReply)
  | expireSeedWaiting (now : Moment) (budget : ℕ)
  | other (change : ClusterRuntime → ClusterRuntime)

/-- Tickets of the request a turn brings. -/
def SeedTurn.submitted : SeedTurn → List ℕ
  | .submitSeed request _ _ => [request.ticket]
  | _ => []

section

variable (build r)

/-- The state after a turn. -/
def seedTurn : SeedTurn → ClusterRuntime
  | .submitSeed request now reply => (step build r (.submitSeed request now reply)).1
  | .serviceSeedWaiting now replies => (step build r (.serviceSeedWaiting now replies)).1
  | .expireSeedWaiting now budget => (step build r (.expireSeedWaiting now budget)).1
  | .other change => { change r with seedWaiting := r.seedWaiting, fates := r.fates }

/-- A turn answers the fates it decided. -/
def seedStep (turn : SeedTurn) : ClusterRuntime × List RequestFate :=
  (seedTurn build r turn, (seedTurn build r turn).fates.drop r.fates.length)

/-- No call is handed to a ready seed lane past the queue. -/
def SeedWaits : SeedTurn → Prop
  | .submitSeed .. => r.SeedAdmits → r.seedWaiting.isEmpty = true
  | _ => True

end

/-- What holds however an operation ends holds after the call. -/
theorem step_of_wp {c : ClusterCall} {P : ClusterRuntime → Prop}
    (h : wp (host build c) (fun _ r' => P r') (fun _ r' => P r') r) :
    P (step build r c).1 := by
  unfold wp at h
  unfold step
  cases ran : host build c r with
  | ok ans r' | error e r' =>
    rw [ran] at h
    exact h

theorem seedTurn_seeds (build : Build) (r : ClusterRuntime) (turn : SeedTurn)
    (hw : r.SeedWaits turn) : Seeds turn.submitted r (seedTurn build r turn) := by
  cases turn with
  | submitSeed req now reply =>
    exact step_of_wp (wp_map.2 (finishHostResult_seeds (wp_mono (trySubmitSeed_spec reply now req)
      (fun _ _ h => seeds_submitted h hw) fun _ _ h => seeds_submitted h hw)))
  | serviceSeedWaiting now replies =>
    exact step_of_wp (wp_map.2 (finishHostResult_seeds
      (seeds_served (serviceSeedWaiting_serves now replies))))
  | expireSeedWaiting now b =>
    exact step_of_wp (wp_map.2 (seeds_served (expireSeedWaiting_serves now b)))
  | other ch => exact .of_eq rfl rfl

theorem seedStep_hands (b : Build) (r : ClusterRuntime) (turn : SeedTurn) (hw : r.SeedWaits turn) :
    r.seedWaiting.Hands turn.submitted (seedStep b r turn).1.seedWaiting (seedStep b r turn).2 := by
  obtain ⟨fs, hs, hh⟩ := seedTurn_seeds b r turn hw
  dsimp only [seedStep]
  rw [hs, drop_left]
  exact hh

end ClusterRuntime

open ClusterRuntime

/-- Requests reach a lane, and the seed lane, in the order in which they were submitted, and no
request is admitted before one that still waits, in every run in which none is handed to a
ready lane past a queue. -/
theorem admitted_in_order (build : Build) :
    (∀ (lane : DirectLane) (count bytes : NonZeroUsize) (operations : List LaneOperation),
      lane.pending = .new count bytes →
      (∀ e ∈ trace (DirectLane.step build) lane operations, e.before.Waits e.input) →
      InOrder (operations.flatMap LaneOperation.submitted)
        ((trace (DirectLane.step build) lane operations).flatMap fun e => admittedTickets e.answer)
        (final (DirectLane.step build) lane operations).pending.tickets) ∧
    ∀ (r : ClusterRuntime) (count bytes : NonZeroUsize) (turns : List SeedTurn),
      r.seedWaiting = .new count bytes →
      (∀ e ∈ trace (seedStep build) r turns, e.before.SeedWaits e.input) →
      InOrder (turns.flatMap SeedTurn.submitted)
        ((trace (seedStep build) r turns).flatMap fun e => admittedTickets e.answer)
        (final (seedStep build) r turns).seedWaiting.tickets := by
  refine ⟨fun lane count bytes operations hf hw => ?_, fun r count bytes turns hf hw => ?_⟩
  · refine inOrder_run (DirectLane.step_hands build) ?_ ?_ operations hw
    · rw [hf]
      exact fun _ held => nomatch held
    · rw [hf]
      rfl
  · refine inOrder_run (seedStep_hands build) ?_ ?_ turns hw
    · rw [hf]
      exact fun _ held => nomatch held
    · rw [hf]
      rfl

/-! ## A lane that becomes ready -/

def idleLane : DirectLane :=
  .started ⟨1, 1⟩ soloFactory.backoff
    (.new soloDriver.mailboxCapacity soloDriver.mailboxByteCapacity) soloReply.change

def readyReply : LaneReply := ⟨⟨[], ⟨true, false, true, true, false, none, false⟩⟩, false⟩

/-- The seed lane opens and is ready. -/
def seatReady (r : ClusterRuntime) : ClusterRuntime :=
  { r.pushLane (idleLane.evolve readyReply.change) with seed := some ⟨⟨1, 1⟩, ⟨1⟩⟩ }

def patientOperations : List LaneOperation :=
  [.submitRequest (soloRequest 1) ⟨0⟩ soloReply, .change readyReply.change,
    .admitPending [readyReply], .submitRequest (soloRequest 2) ⟨0⟩ readyReply]

def patientTurns : List SeedTurn :=
  [.submitSeed (soloRequest 1) ⟨0⟩ readyReply, .other seatReady,
    .serviceSeedWaiting ⟨0⟩ [readyReply]]

theorem admitted_in_order_patient :
    InOrder [1, 2]
        ((trace (DirectLane.step .release) idleLane patientOperations).flatMap
          fun e => admittedTickets e.answer)
        (final (DirectLane.step .release) idleLane patientOperations).pending.tickets ∧
      InOrder [1]
        ((trace (seedStep .release) (new soloDriver) patientTurns).flatMap
          fun e => admittedTickets e.answer)
        (final (seedStep .release) (new soloDriver) patientTurns).seedWaiting.tickets := by
  refine ⟨(admitted_in_order .release).1 idleLane _ _ patientOperations rfl ?_,
    (admitted_in_order .release).2 (new soloDriver) _ _ patientTurns rfl ?_⟩
  · simp only [patientOperations, trace, forall_mem_cons]
    refine ⟨fun _ _ => rfl, trivial, trivial, fun _ _ => ?_, by simp⟩
    decide +kernel
  · simp only [patientTurns, trace, forall_mem_cons]
    exact ⟨fun _ => rfl, trivial, trivial, by simp⟩

/-- Two requests wait when the lane becomes ready, and the turn admits one. The third goes past
the second, in a lane and at the seed. -/
theorem ready_lane_overtakes :
    let operations : List LaneOperation :=
      [.submitRequest (soloRequest 1) ⟨0⟩ soloReply, .submitRequest (soloRequest 2) ⟨0⟩ soloReply,
        .change readyReply.change, .admitPending [readyReply],
        .submitRequest (soloRequest 3) ⟨0⟩ readyReply]
    let turns : List SeedTurn :=
      [.submitSeed (soloRequest 1) ⟨0⟩ readyReply, .submitSeed (soloRequest 2) ⟨0⟩ readyReply,
        .other seatReady, .serviceSeedWaiting ⟨0⟩ [readyReply],
        .submitSeed (soloRequest 3) ⟨0⟩ readyReply]
    ((trace (DirectLane.step .release) idleLane operations).flatMap
        fun e => admittedTickets e.answer) = [1, 3] ∧
      (final (DirectLane.step .release) idleLane operations).pending.tickets = [2] ∧
      ((trace (seedStep .release) (new soloDriver) turns).flatMap
        fun e => admittedTickets e.answer) = [1, 3] ∧
      (final (seedStep .release) (new soloDriver) turns).seedWaiting.tickets = [2] ∧
      ¬InOrder [1, 2, 3] [1, 3] [2] := by
  decide +kernel

end KafkaDriver
