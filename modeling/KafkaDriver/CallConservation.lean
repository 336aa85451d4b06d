import KafkaDriver.RouteFailures
import KafkaDriver.RouteQueues

/-!
# No call is lost

Every call given to the runtime waits with one route or with the seed, or its fate is decided,
once. `Balances` is the account of one operation : which calls came, which were decided, which
wait. It holds of every operation, also of one that fails, and so of every run
(`calls_in_one_place`).

A queue numbers its entries, and a state that leaves the map takes its queue with it; the
account needs that new numbers are above the old ones and that a route that is not advertised
has no calls (`Tidy`).
-/

namespace KafkaDriver

open Fallible List Option OrdMap RouteWaiting
open WaitQueue (Conserves)

theorem WaitQueue.tickets_of_isEmpty {q : WaitQueue WaitingCall} (empty : q.isEmpty = true) :
    q.tickets = [] := by
  have nobody : q.waiting = [] := by
    rw [← length_eq_zero_iff, ← len_eq]
    simpa [isEmpty] using empty
  rw [tickets, nobody, map_nil]

theorem WaitQueue.isEmpty_of_tickets {q : WaitQueue WaitingCall} (empty : q.tickets = []) :
    q.isEmpty = true := by
  have nobody : q.waiting = [] := map_eq_nil_iff.1 empty
  simp [isEmpty, len_eq, nobody]

namespace BrokerRouteState

/-- What happened to the calls of one route. -/
structure Accounts (brought : List ℕ) (fates : List RequestFate) (s s' : BrokerRouteState) :
    Prop where
  calls : Conserves brought fates s.waiting.calls s'.waiting.calls
  shown : s'.advertised.isSome = true ∨ s'.advertised = s.advertised ∧ brought = []

variable (build : Build) (s : BrokerRouteState) (err : RequestError) (seen : Option OutcomeStamp)

theorem failWaiting_conserves :
    Conserves [] (s.failWaiting build err seen).2 s.waiting.calls
      (s.failWaiting build err seen).1.waiting.calls :=
  (failBounded_settles build err seen _ s.waiting).conserves

theorem failWaiting_tickets : (s.failWaiting build err seen).1.waiting.calls.tickets = [] :=
  WaitQueue.tickets_of_isEmpty (isEmpty_failAll build s.waiting err seen)

theorem retainRoute_accounts (rt : BrokerRoute) (ep : BrokerEndpoint) :
    Accounts [] (s.retainRoute build rt ep).2 s (s.retainRoute build rt ep).1 := by
  unfold retainRoute
  dsimp only
  by_cases moved : (s.advertised.any fun cur => cur.endpoint ≠ ep) = true
  · simp only [if_pos moved]
    exact ⟨failWaiting_conserves build _ _ _, .inl rfl⟩
  · simp only [if_neg moved]
    exact ⟨.refl _, .inl rfl⟩

end BrokerRouteState

open BrokerRouteState

namespace ClusterRuntime

/-! ## Accounts of the runtime -/

/-- Tickets of the calls that wait with the routes. -/
def waitingTickets (routes : RouteMap) : List ℕ :=
  routes.entries.flatMap fun e => e.2.waiting.calls.tickets

/-- Queues number their entries upwards, and a route that is not advertised has no calls. -/
structure Tidy (r : ClusterRuntime) : Prop where
  seed : r.seedWaiting.requests.Ordered
  queues : ∀ lane state, r.routes.get lane = some state → state.waiting.calls.Ordered
  hidden : ∀ lane state, r.routes.get lane = some state → state.advertised = none →
    state.waiting.calls.tickets = []

/-- The account of an operation that brought `seeds` for the seed and `routes` for routes. -/
structure Books (seeds routes : List ℕ) (r r' : ClusterRuntime) : Prop where
  tidy : r'.Tidy
  settled : ∃ fates ofSeeds ofRoutes, r'.fates = r.fates ++ fates ∧
    (settledTickets fates).Perm (ofSeeds ++ ofRoutes) ∧
    (ofSeeds ++ r'.seedWaiting.requests.tickets).Perm (seeds ++ r.seedWaiting.requests.tickets) ∧
    (ofRoutes ++ waitingTickets r'.routes).Perm (routes ++ waitingTickets r.routes)

/-- An operation that keeps account, and keeps routes that are advertised. -/
structure Balances (seeds routes : List ℕ) (r r' : ClusterRuntime) : Prop where
  shown : ∀ lane state, r.routes.get lane = some state → state.advertised.isSome = true →
    ∃ state', r'.routes.get lane = some state' ∧ state'.advertised.isSome = true
  books : r.Tidy → Books seeds routes r r'

variable {build : Build} {r r' r'' : ClusterRuntime} {seeds seeds' routes routes' brought : List ℕ}
  {fates : List RequestFate} {l : BrokerLane} {st : BrokerRouteState}

theorem Books.refl (ht : r.Tidy) : Books [] [] r r :=
  ⟨ht, [], [], [], by simp⟩

theorem Books.trans (h : Books seeds routes r r') (h' : Books seeds' routes' r' r'') :
    Books (seeds ++ seeds') (routes ++ routes') r r'' := by
  obtain ⟨fs, ofSeeds, ofRoutes, hd, split, seedSide, routeSide⟩ := h.settled
  obtain ⟨fs', ofSeeds', ofRoutes', decided', split', seedSide', routeSide'⟩ := h'.settled
  refine ⟨h'.tidy, fs ++ fs', ofSeeds ++ ofSeeds', ofRoutes ++ ofRoutes', ?_, ?_, ?_, ?_⟩
  · rw [decided', hd, append_assoc]
  all_goals
    simp only [perm_iff_count, settledTickets_append, count_append] at *
    intro t
    have := split t
    have := split' t
    have := seedSide t
    have := seedSide' t
    have := routeSide t
    have := routeSide' t
    omega

theorem Balances.trans (h : Balances seeds routes r r') (h' : Balances seeds' routes' r' r'') :
    Balances (seeds ++ seeds') (routes ++ routes') r r'' where
  shown := by
    intro l st hg adv
    obtain ⟨st', hg', advertised'⟩ := h.shown l st hg adv
    exact h'.shown l st' hg' advertised'
  books := fun ht => (h.books ht).trans (h'.books (h.books ht).tidy)

/-- Queues that are left alone are accounted for. -/
theorem Untouched.balances (h : Untouched r r') : Balances [] [] r r' where
  shown := by
    intro l st hg adv
    cases after : r'.routes.get l with
    | none =>
      rw [h.routes.left l not_mem_nil st hg after] at adv
      cases adv
    | some st' =>
      obtain ⟨pre, hf, hs⟩ := h.routes.kept l not_mem_nil st' after
      obtain rfl := some.inj (hg.symm.trans hf)
      exact ⟨st', rfl, hs.2 ▸ adv⟩
  books := by
    intro ht
    have hs : waitingTickets r'.routes = waitingTickets r.routes := by
      refine flatMap_congr_get (f := fun s : BrokerRouteState => s.waiting.calls.tickets)
        fun l => ?_
      cases after : r'.routes.get l with
      | none =>
        cases pre : r.routes.get l with
        | none => rfl
        | some st =>
          have gone := h.routes.left l not_mem_nil st pre after
          exact (ht.hidden l st pre gone).symm
      | some st' =>
        obtain ⟨st, pre, queue, -⟩ := h.routes.kept l not_mem_nil st' after
        rw [pre]
        exact congrArg (fun w : RouteWaiting => w.calls.tickets) queue
    refine ⟨⟨?_, ?_, ?_⟩, [], [], [], ?_⟩
    · rw [h.seed]
      exact ht.seed
    · intro l st' after
      obtain ⟨st, pre, queue, -⟩ := h.routes.kept l not_mem_nil st' after
      rw [queue]
      exact ht.queues l st pre
    · intro l st' after gone
      obtain ⟨st, pre, queue, adv⟩ := h.routes.kept l not_mem_nil st' after
      rw [queue]
      exact ht.hidden l st pre (adv ▸ gone)
    · rw [h.fates, h.seed, hs]
      simp

theorem Balances.refl (r : ClusterRuntime) : Balances [] [] r r := (Untouched.refl r).balances

theorem waitingTickets_insert (m : RouteMap) (l : BrokerLane) (st : BrokerRouteState) :
    (waitingTickets (m.insert l st)).Perm
      (st.waiting.calls.tickets ++ waitingTickets (m.erase l)) :=
  (m.entries_insert_perm l st).flatMap_right _

theorem waitingTickets_of_get {m : RouteMap} (hf : m.get l = some st) :
    (waitingTickets m).Perm (st.waiting.calls.tickets ++ waitingTickets (m.erase l)) :=
  (entries_perm_of_get hf).flatMap_right _

/-- Calls come to one route or are decided there. -/
theorem Balances.put {st st' : BrokerRouteState} (hf : r.routes.get l = some st)
    (hw : r'.routes = r.routes.insert l st') (hd : r'.fates = r.fates ++ fates)
    (seed : r'.seedWaiting = r.seedWaiting) (ha : Accounts brought fates st st') :
    Balances [] brought r r' where
  shown := by
    intro ne pre hg adv
    rw [hw, get_insert]
    split_ifs with hs
    · subst hs
      obtain rfl := some.inj (hf.symm.trans hg)
      rcases ha.shown with hsh | ⟨hs, -⟩
      · exact ⟨st', rfl, hsh⟩
      · exact ⟨st', rfl, hs ▸ adv⟩
    · exact ⟨pre, hg, adv⟩
  books := by
    intro ht
    obtain ⟨ord, hc⟩ := ha.calls (ht.queues l st hf)
    refine ⟨⟨seed ▸ ht.seed, ?_, ?_⟩, fates, [], settledTickets fates, hd, .refl _, ?_, ?_⟩
    · intro ne after hg
      rw [hw, get_insert] at hg
      split_ifs at hg with hs
      · cases hg
        exact ord
      · exact ht.queues ne after hg
    · intro ne after hg gone
      rw [hw, get_insert] at hg
      split_ifs at hg with hs
      · cases hg
        rcases ha.shown with hsh | ⟨hu, rfl⟩
        · rw [gone] at hsh
          cases hsh
        · rw [ht.hidden l st hf (hu ▸ gone)] at hc
          exact (append_eq_nil_iff.1 hc.eq_nil).2
      · exact ht.hidden ne after hg gone
    · rw [seed]
    · have after := waitingTickets_insert r.routes l st'
      have pre := waitingTickets_of_get hf
      rw [hw]
      simp only [perm_iff_count, count_append] at *
      intro t
      have := hc t
      have := after t
      have := pre t
      omega

/-- Calls come to the seed or are decided there. -/
theorem Balances.seed (hco : Conserves brought fates r.seedWaiting.requests r'.seedWaiting.requests)
    (hd : r'.fates = r.fates ++ fates) (hs : r'.routes = r.routes) :
    Balances brought [] r r' where
  shown := by
    intro l st hg adv
    exact ⟨st, hs ▸ hg, adv⟩
  books := by
    intro ht
    obtain ⟨ord, hc⟩ := hco ht.seed
    refine ⟨⟨ord, hs ▸ ht.queues, hs ▸ ht.hidden⟩, fates, settledTickets fates, [], hd, ?_, hc, ?_⟩
    · rw [append_nil]
    · rw [hs]

/-- A call for a route is decided without waiting. -/
theorem Balances.decide (hd : settledTickets fates = brought) (hde : r'.fates = r.fates ++ fates)
    (seed : r'.seedWaiting = r.seedWaiting) (hs : r'.routes = r.routes) :
    Balances [] brought r r' where
  shown := by
    intro l st hg adv
    exact ⟨st, hs ▸ hg, adv⟩
  books := by
    intro ht
    refine ⟨⟨seed ▸ ht.seed, hs ▸ ht.queues, hs ▸ ht.hidden⟩, fates, [], brought, hde, ?_, ?_, ?_⟩
    · rw [hd, nil_append]
    · rw [seed]
    · rw [hs]

/-- A route without calls is opened. -/
theorem Balances.openRoute {lane : BrokerLane} (ha : r.routes.get lane = none) (rt : BrokerRoute)
    (ep : BrokerEndpoint) :
    Balances [] [] r { r with routes := r.routes.insert lane (.new lane rt ep r.driver) } where
  shown := by
    intro ne st hg adv
    have hap : ne ≠ lane := by
      rintro rfl
      rw [ha] at hg
      cases hg
    exact ⟨st, by simp [hap, hg], adv⟩
  books := by
    intro ht
    refine ⟨⟨ht.seed, ?_, ?_⟩, [], [], [], by simp, .refl _, .refl _, ?_⟩
    · intro ne st hg
      rw [get_insert] at hg
      split_ifs at hg
      · cases hg
        exact fun _ mem => absurd mem not_mem_nil
      · exact ht.queues ne st hg
    · intro ne st hg gone
      rw [get_insert] at hg
      split_ifs at hg
      · cases hg
        cases gone
      · exact ht.hidden ne st hg gone
    · have he : r.routes.erase lane = r.routes :=
        erase_of_not_mem (get_eq_none.1 ha)
      have after := waitingTickets_insert r.routes lane (.new lane rt ep r.driver)
      rw [he] at after
      exact after

/-! ## Every route at once -/

/-- Each state is changed and its fates are noted, in lane order. -/
theorem waitingTickets_map (f : BrokerRouteState → BrokerRouteState × List RequestFate)
    (ht : r.Tidy)
    (each : ∀ state, Conserves [] (f state).2 state.waiting.calls (f state).1.waiting.calls) :
    (settledTickets (r.routes.entries.flatMap fun e => (f e.2).2) ++
      waitingTickets (r.routes.map fun _ state => (f state).1)).Perm (waitingTickets r.routes) := by
  have hd : settledTickets (r.routes.entries.flatMap fun e => (f e.2).2) =
      r.routes.entries.flatMap fun e => settledTickets (f e.2).2 := map_flatMap
  have hw : waitingTickets (r.routes.map fun _ state => (f state).1) =
      r.routes.entries.flatMap fun e => (f e.2).1.waiting.calls.tickets := by
    simp [waitingTickets, OrdMap.map, flatMap_map]
  rw [hd, hw]
  refine (flatMap_append_perm _ _ _).trans (List.Perm.flatMap_left _ fun e mem => ?_)
  exact (each e.2 (ht.queues e.1 e.2 (OrdMap.get_eq_some.2 mem))).2

section

variable (build) (dir : BrokerDirectory) (state : BrokerRouteState)

/-- A directory decides the calls of the routes it does not advertise, and of those whose
endpoint it changes. -/
theorem readvertise_conserves :
    Conserves [] (readvertise build dir state).2 state.waiting.calls
      (readvertise build dir state).1.waiting.calls := by
  unfold readvertise
  split
  · exact failWaiting_conserves build _ _ _
  · exact (retainRoute_accounts build state _ _).calls

theorem readvertise_hidden (hh : (readvertise build dir state).1.advertised = none) :
    (readvertise build dir state).1.waiting.calls.tickets = [] := by
  unfold readvertise at hh ⊢
  split at hh
  · exact failWaiting_tickets build _ _ _
  · rw [retainRoute_fst] at hh
    cases hh

theorem adoptDirectory_books (ht : r.Tidy) : Books [] [] r (r.adoptDirectory build dir) := by
  have each := readvertise_conserves build dir
  have hm : ∀ l st', (r.adoptDirectory build dir).routes.get l = some st' →
      ∃ st, r.routes.get l = some st ∧ (readvertise build dir st).1 = st' := by
    intro l st' hg
    simp only [adoptDirectory, OrdMap.get_filter, OrdMap.get_map] at hg
    exact Option.map_eq_some_iff.1 (Option.filter_eq_some_iff.1 hg).1
  -- a state that is not kept has no calls any more
  have hk : waitingTickets (r.adoptDirectory build dir).routes =
      waitingTickets (r.routes.map fun _ st => (readvertise build dir st).1) := by
    refine OrdMap.flatMap_congr_get (f := fun s : BrokerRouteState => s.waiting.calls.tickets)
        fun l => ?_
    simp only [adoptDirectory, OrdMap.get_filter, OrdMap.get_map]
    cases pre : r.routes.get l with
    | none => rfl
    | some st =>
      simp only [Option.map_some, Option.filter]
      split_ifs with needed
      · rfl
      · have hh : (readvertise build dir st).1.advertised = none := by
          simp only [Bool.or_eq_true, not_or, Bool.not_eq_true] at needed
          simpa using needed.1
        simp [readvertise_hidden build dir st hh]
  refine ⟨⟨ht.seed, ?_, ?_⟩, _, [], _, rfl, .refl _, .refl _, ?_⟩
  · intro l st' hg
    obtain ⟨st, pre, rfl⟩ := hm l st' hg
    exact (each st (ht.queues l st pre)).1
  · intro l st' hg hh
    obtain ⟨st, pre, rfl⟩ := hm l st' hg
    exact readvertise_hidden build dir st hh
  · rw [hk]
    exact waitingTickets_map (readvertise build dir) ht each

/-- A fatal error decides every call that waits. -/
theorem totalizeRouteWaiting_balances (r : ClusterRuntime) :
    Balances [] [] r (r.totalizeRouteWaiting build) where
  shown := by
    intro l st hg adv
    refine ⟨(st.failWaiting build .closed st.routeFailureAt).1, ?_, adv⟩
    simp [totalizeRouteWaiting, hg]
  books := by
    intro ht
    have hm : ∀ l st', (r.totalizeRouteWaiting build).routes.get l = some st' →
        ∃ st, r.routes.get l = some st ∧
          (st.failWaiting build .closed st.routeFailureAt).1 = st' := by
      intro l st' hg
      simp only [totalizeRouteWaiting, OrdMap.get_map] at hg
      exact map_eq_some_iff.1 hg
    refine ⟨⟨ht.seed, ?_, ?_⟩, _, [], _, rfl, .refl _, .refl _, ?_⟩
    · intro l st' hg
      obtain ⟨st, pre, rfl⟩ := hm l st' hg
      exact (failWaiting_conserves build st _ _ (ht.queues l st pre)).1
    · intro l st' hg _
      obtain ⟨st, pre, rfl⟩ := hm l st' hg
      exact failWaiting_tickets build st _ _
    · exact waitingTickets_map (fun st => st.failWaiting build .closed st.routeFailureAt)
        ht fun st => failWaiting_conserves build st _ _

theorem totalizeSeedWaiting_balances (r : ClusterRuntime) :
    Balances [] [] r (r.totalizeSeedWaiting build) :=
  .seed ((PendingRequests.failBounded_settles build _ _ r.seedWaiting).conserves) rfl rfl

theorem totalizeAfterHostFailure_balances (r : ClusterRuntime) :
    Balances [] [] r (r.totalizeAfterHostFailure build) := by
  obtain ⟨seedWaitingState, hs⟩ := totalizeAfterHostFailure_eq build r
  have ha : Untouched r { r with pendingResolvedSeed := none, seedWaitingState } :=
    .of_eq rfl rfl rfl
  rw [hs]
  exact ha.balances.trans
    ((totalizeSeedWaiting_balances build _).trans (totalizeRouteWaiting_balances build _))

end

/-! ## Operations -/

/-- The operation keeps account of the calls it brings, whether it answers or fails. -/
abbrev KeepsBooks {α : Type} (seeds routes : List ℕ) (x : Host α) (r : ClusterRuntime) : Prop :=
  wp x (fun _ r' => Balances seeds routes r r') (fun _ r' => Balances seeds routes r r') r

variable {α β : Type} {x : Host α} {f : α → Host β} {Q : α → ClusterRuntime → Prop}

theorem Balances.after (h : Balances seeds routes r r') (hl : Balances [] [] r' r'') :
    Balances seeds routes r r'' := by
  simpa only [append_nil] using h.trans hl

theorem Spares.keepsBooks (h : Spares x Q r) : KeepsBooks [] [] x r :=
  wp_mono h.wp (fun _ _ => Untouched.balances) fun _ _ => Untouched.balances

theorem calm_keepsBooks (h : Calm x Q r) : KeepsBooks [] [] x r :=
  (spares_of_calm h).keepsBooks

/-- What comes before the calls are in hand must not fail. -/
theorem keepsBooks_bind
    (first : wp x (fun a r' => Balances [] [] r r' ∧ Q a r') (fun _ _ => False) r)
    (next : ∀ a r', Q a r' → KeepsBooks seeds routes (f a) r') :
    KeepsBooks seeds routes (x >>= f) r := by
  refine wp_bind.2 (wp_mono first ?_ fun _ _ never => never.elim)
  rintro a r' ⟨pre, hk⟩
  exact wp_mono (next a r' hk) (fun _ _ => pre.trans) fun _ _ => pre.trans

theorem keepsBooks_then (first : KeepsBooks seeds routes x r)
    (next : ∀ a r', KeepsBooks [] [] (f a) r') : KeepsBooks seeds routes (x >>= f) r := by
  refine wp_bind.2 (wp_mono first (fun a r' hk => ?_) fun _ _ hk => hk)
  exact wp_mono (next a r') (fun _ _ => hk.after) fun _ _ => hk.after

theorem keepsBooks_finish (h : KeepsBooks seeds routes x r) :
    KeepsBooks seeds routes (finishHostResult build x) r := by
  unfold finishHostResult
  refine wp_onError.2 (wp_mono h (fun _ _ hk => hk) fun _ r' hk => ?_)
  exact hk.after (totalizeAfterHostFailure_balances build r')

/-! ### Submission to a route -/

theorem failRequest_balances (req : Request) (err : RequestError)
    (seen : Option OutcomeStamp) (r : ClusterRuntime) :
    Balances [] [req.ticket] r { r with fates := r.fates ++ [.failed req err seen] } :=
  .decide rfl rfl rfl rfl

/-- A request handed to a ready lane is decided there. -/
theorem settledTickets_submitRequest {l : DirectLane} (hr : l.canAdmitPublic = true)
    (req : Request) (now : Moment) (reply : LaneReply) :
    settledTickets (l.submitRequest req now reply).2.1 = [req.ticket] := by
  rcases submitRequest_ready hr req now reply with ⟨adm, -⟩ | ⟨err, hf⟩
  · rw [adm]
    rfl
  · rw [hf]
    rfl

theorem submitToLane_balances {k : ℕ} {l : DirectLane} (hr : l.canAdmitPublic = true)
    (req : Request) (now : Moment) (reply : LaneReply) (r : ClusterRuntime) :
    KeepsBooks [] [req.ticket] (submitToLane k l req now reply) r :=
  wp_submitToLane (.decide (settledTickets_submitRequest hr req now reply) rfl rfl rfl)

theorem admitToRoute_balances (req : Request) (now : Moment) (hf : r.routes.get l = some st)
    (hs : st.advertised.isSome = true) :
    wp (admitToRoute l st req now) (fun _ r' => Balances [] [req.ticket] r r')
      (fun _ _ => False) r := by
  have ha : Accounts [req.ticket] (st.waiting.admitCall req now).2.1 st
      { st with waiting := (st.waiting.admitCall req now).1 } :=
    ⟨(st.waiting.admitCall_admits now req).1.conserves, .inl hs⟩
  exact Balances.put hf rfl rfl rfl ha

theorem startRouteResolution_untouched (l : BrokerLane) (rt : BrokerRoute)
    (ep : BrokerEndpoint) (fx : EffectId) (r : ClusterRuntime) :
    Spares (startRouteResolution l rt ep fx) (fun _ _ => True) r := by
  unfold startRouteResolution BrokerRouteState.reserveDnsEpoch
  refine .get_bind ?_
  cases found : r.routes.get l with
  | none => exact .throw
  | some st =>
    dsimp only
    cases st.nextDnsEpoch with
    | none => exact .throw
    | some raw =>
      dsimp only [map_some]
      refine .modify_bind le_rfl (.put found ⟨rfl, rfl⟩) ?_
      split
      · exact .pure trivial
      · exact .throw

theorem submitToPhysical_balances (rt : BrokerRoute) (ep : BrokerEndpoint) (o : DirectRefreshOwner)
    (req : Request) (now : Moment) (reply : LaneReply) (hf : r.routes.get l = some st)
    (hs : st.advertised.isSome = true) :
    KeepsBooks [] [req.ticket] (submitToPhysical l rt ep o req now reply) r := by
  unfold submitToPhysical
  simp only [wp_bind, wp_get, hf, putRoute, wp_modify]
  set inst := st.markInstalled rt ep o with installedEq
  set r₁ : ClusterRuntime :=
    { r with routes := r.routes.insert l inst, fates := r.fates ++ [] } with r₁Eq
  have ha : Untouched r r₁ := .put hf ⟨rfl, rfl⟩
  have pre := ha.balances
  have hw : r₁.routes.get l = some inst := by simp [r₁Eq]
  have hfa : ∀ err, Balances [] [req.ticket] r
      { r₁ with fates := r₁.fates ++ [.failed req err none] } := fun err =>
    pre.trans (failRequest_balances req err none r₁)
  have queues : wp (admitToRoute l inst req now) (fun _ r' => Balances [] [req.ticket] r r')
      (fun _ r' => Balances [] [req.ticket] r r') r₁ :=
    wp_mono (admitToRoute_balances req now hw hs) (fun _ _ => pre.trans) fun _ _ never => never.elim
  split
  · exact wp_bind.2 queues
  simp only [wp_bind, wp_get]
  split
  · exact hfa _
  split
  · exact hfa _
  split
  · exact hfa _
  split
  · exact wp_bind.2 queues
  · rename_i hr
    exact wp_bind.2 (wp_mono (submitToLane_balances (by simpa using hr) req now reply r₁)
      (fun _ _ => pre.trans) fun _ _ => pre.trans)

section

variable (build) (lane : BrokerLane) (rt : BrokerRoute)

theorem submitToRoute_balances (ep : BrokerEndpoint) (phys : Option DirectRefreshOwner)
    (needsResolution : Bool) (fx : Option EffectId) (req : Request) (now : Moment)
    (reply : LaneReply) (r : ClusterRuntime) :
    KeepsBooks [] [req.ticket]
      (submitToRoute build lane rt ep phys needsResolution fx req now reply)
      r := by
  unfold submitToRoute
  rw [KeepsBooks, wp_bind, wp_get]
  cases found : r.routes.get lane with
  | none => exact failRequest_balances req _ none r
  | some st =>
    have ha := st.retainRoute_accounts build rt ep
    have hs : (st.retainRoute build rt ep).1.advertised.isSome = true := by
      rw [retainRoute_fst]
      rfl
    dsimp only
    generalize st.retainRoute build rt ep = retained at ha hs ⊢
    refine keepsBooks_bind (Q := fun _ r' => r'.routes.get lane = some retained.1)
      ⟨.put found rfl rfl rfl ha, by simp⟩ fun _ r₁ hw => ?_
    split
    · exact failRequest_balances req _ _ r₁
    cases phys with
    | some o =>
      exact submitToPhysical_balances rt ep o req now reply hw hs
    | none =>
      refine keepsBooks_then (wp_mono (admitToRoute_balances req now hw hs)
        (fun _ _ hk => hk) fun _ _ never => never.elim) fun adm r₂ => ?_
      split
      · exact keepsBooks_then (startRouteResolution_untouched lane rt ep _ r₂).keepsBooks
          fun _ r₃ => .refl r₃
      · exact .refl r₂

theorem trySubmitRoute_balances (fx : Option EffectId) (req : Request) (now : Moment)
    (reply : LaneReply) (r : ClusterRuntime) :
    KeepsBooks [] [req.ticket] (trySubmitRoute build rt fx req now reply) r := by
  unfold trySubmitRoute
  rw [KeepsBooks, wp_bind, wp_get]
  split
  · exact failRequest_balances req _ none r
  split
  · exact failRequest_balances req _ none r
  rename_i ep _
  dsimp only
  split
  · exact failRequest_balances req _ none r
  split_ifs
  · exact failRequest_balances req _ none r
  have ho : wp (insertRouteState ⟨rt.brokerId, req.trafficClass⟩ rt ep)
      (fun _ r' => Balances [] [] r r' ∧ True) (fun _ _ => False) r := by
    unfold insertRouteState
    rw [wp_bind, wp_get]
    split_ifs with hp
    · exact ⟨.refl r, trivial⟩
    · exact ⟨.openRoute (by simpa using hp) rt ep, trivial⟩
    · exact ⟨.refl r, trivial⟩
  refine keepsBooks_bind ho fun _ r₁ _ => ?_
  split
  · exact submitToRoute_balances build _ rt ep _ _ fx req now reply r₁
  · exact failRequest_balances req _ none r₁

/-! ### Resolutions and services of a route -/

theorem tryCompleteRouteResolution_balances (out : DnsOutcome) (mk : LaneFactory)
    (r : ClusterRuntime) :
    KeepsBooks [] [] (tryCompleteRouteResolution build lane out mk) r := by
  have hf : ∀ rt err (r : ClusterRuntime),
      KeepsBooks [] [] (finishResolutionFailure build lane rt err) r := by
    intro rt err r
    unfold finishResolutionFailure
    rw [KeepsBooks, wp_bind, wp_get]
    cases found : r.routes.get lane with
    | none => exact .refl r
    | some st =>
      dsimp only
      split
      · exact .put found rfl rfl rfl ⟨failWaiting_conserves build _ _ _, .inr ⟨rfl, rfl⟩⟩
      · exact .refl r
  unfold tryCompleteRouteResolution
  rw [KeepsBooks, wp_bind, wp_get]
  split
  · exact .refl r
  cases found : r.routes.get lane with
  | none => exact .refl r
  | some st =>
    dsimp only
    split
    · split
      · have hs : st.SameQueue { st with
            resolution := (st.resolution.apply (.resolutionCompleted out)).1 } := ⟨rfl, rfl⟩
        refine keepsBooks_bind (Q := fun _ _ => True)
          ⟨(Untouched.put found hs).balances, trivial⟩ fun _ r₁ _ => ?_
        split
        · exact .refl r₁
        · exact hf _ _ r₁
        · exact (installResolution_untouched r₁ mk lane _).keepsBooks
        · exact .refl r₁
      · exact .refl r
    · exact .refl r

theorem expireRoute_balances (now : Moment) (r : ClusterRuntime) :
    KeepsBooks [] [] (expireRoute lane now) r := by
  unfold expireRoute
  rw [KeepsBooks, wp_bind, wp_get]
  cases found : r.routes.get lane with
  | none => exact .refl r
  | some st =>
    exact .put found rfl rfl rfl
      ⟨(expireLoop_settles now _ _ st.waiting).conserves, .inr ⟨rfl, rfl⟩⟩

theorem serviceFailedRoute_balances (now : Moment) (r : ClusterRuntime) :
    KeepsBooks [] [] (serviceFailedRoute build lane now) r := by
  unfold serviceFailedRoute
  refine wp_bind.2 (wp_query.2 ⟨fun terminal _ => ?_, fun _ _ => .refl r⟩)
  rw [wp_bind, wp_get]
  cases found : r.routes.get lane with
  | none => exact .refl r
  | some st =>
    dsimp only
    split
    · exact .put found rfl rfl rfl
        ⟨(failBounded_settles build _ _ 1 st.waiting).conserves, .inr ⟨rfl, rfl⟩⟩
    · exact .put found rfl rfl rfl
        ⟨(rejectFailedRouteOne_settles now build st.waiting _).conserves, .inr ⟨rfl, rfl⟩⟩
    · exact .refl r

theorem admitOneRoute_balances (now : Moment) (reply : LaneReply) (r : ClusterRuntime) :
    KeepsBooks [] [] (admitOneRoute build lane now reply) r := by
  unfold admitOneRoute
  rw [KeepsBooks, wp_bind, wp_get]
  split
  · exact .refl r
  rename_i state cur hk
  obtain ⟨st', hf, hpa⟩ := bind_eq_some_iff.1 hk
  obtain rfl : st' = state := by
    obtain ⟨_, -, hs⟩ := map_eq_some_iff.1 hpa
    exact (Prod.mk.inj hs).1
  refine wp_bind.2 (wp_query.2 ⟨fun owner? _ => ?_, fun _ _ => .refl r⟩)
  cases owner? with
  | none => exact .refl r
  | some owner =>
    refine wp_bind.2 (wp_query.2 ⟨fun index _ => ?_, fun _ _ => .refl r⟩)
    split
    · exact .refl r
    rename_i physical _
    split
    · exact .refl r
    rename_i hr
    split
    · rename_i hp
      have hc := pop_conserves hp settledTickets_nil
      rw [append_nil] at hc
      exact .put hf rfl rfl rfl ⟨hc, .inr ⟨rfl, rfl⟩⟩
    · rename_i hp
      have hc := pop_conserves hp settledTickets_nil
      rw [append_nil] at hc
      exact .put hf rfl rfl rfl ⟨hc, .inr ⟨rfl, rfl⟩⟩
    · rename_i waiting fates req hp
      have hd := settledTickets_submitRequest (by simpa using hr) req now reply
      have hh : ∀ failureAt (r' : ClusterRuntime),
          r'.routes = r.routes.insert lane { st' with waiting, routeFailureAt := failureAt } →
          r'.fates = r.fates ++ (fates ++ (physical.submitRequest req now reply).2.1) →
          r'.seedWaiting = r.seedWaiting → Balances [] [] r r' := by
        intro failureAt r' hw fates' seed
        exact .put hf hw fates' seed ⟨pop_conserves hp hd, .inr ⟨rfl, rfl⟩⟩
      simp only [putRoute, submitToLane, wp_bind, wp_modify]
      split
      · exact hh st'.routeFailureAt _ rfl (append_assoc _ _ _) rfl
      · refine hh none _ (insert_insert _ _ _ _) ?_ rfl
        simp

end

/-! ### Calls of the seed -/

theorem seedSubmits_balances {req : Request} (h : SeedSubmits req r r') :
    Balances [req.ticket] [] r r' := by
  cases h with
  | refuse => exact .seed (.pass rfl) rfl rfl
  | push => exact .seed (r.seedWaiting.push_admits req _).conserves rfl rfl
  | @pass s _ _ _ _ captured _ _ _ hr =>
    have hs := captureSeedTerminalFailure_eq captured
    have ha : Untouched r s := .of_eq (by rw [hs]) (by rw [hs]) (by rw [hs])
    refine ha.balances.trans (.seed (.pass ?_) rfl rfl)
    exact settledTickets_submitRequest hr req _ _

theorem seedMove_balances (h : SeedMove build r r') : Balances [] [] r r' := by
  cases h with
  | settle hs => exact .seed hs.conserves rfl rfl
  | serve _ hr hp =>
    exact .seed (PendingRequests.pop_conserves hp (settledTickets_submitRequest hr _ _ _))
      rfl rfl

theorem serves_keepsBooks (h : ServesSeed build x r) : KeepsBooks [] [] x r := by
  have run : ∀ r', Relation.ReflTransGen (SeedMove build) r r' → Balances [] [] r r' :=
    fun _ moves =>
    steps_invariant (fun _ _ move pre => pre.after (seedMove_balances move)) moves (.refl r)
  exact wp_mono h (fun _ r' hr => run r' hr.1) fun _ => run

/-! ## Runs -/

/-- Tickets of the calls an operation brings for the seed. -/
def callsForSeed : ClusterCall → List ℕ
  | .submitSeed request _ _ => [request.ticket]
  | _ => []

/-- Tickets of the calls an operation brings for routes. -/
def callsForRoutes : ClusterCall → List ℕ
  | .submitRoute _ _ request _ _ => [request.ticket]
  | _ => []

variable (build) (driver : DriverLimits)

theorem step_balances (r : ClusterRuntime) {c : ClusterCall}
    (ne : ∀ dir, c ≠ .installDirectory dir) :
    Balances (callsForSeed c) (callsForRoutes c) r (step build r c).1 := by
  refine step_of_wp ?_
  cases c with
  | installDirectory dir => exact absurd rfl (ne dir)
  | submitRoute rt fx req now reply =>
    exact wp_map.2 (keepsBooks_finish (trySubmitRoute_balances build rt fx req now reply r))
  | completeRouteResolution l out mk =>
    exact wp_map.2 (keepsBooks_finish (tryCompleteRouteResolution_balances build l out mk r))
  | driveRouteInstalls mk drain now =>
    exact wp_map.2 (keepsBooks_finish (tryDriveRouteInstalls_untouched r mk drain now).keepsBooks)
  | syncRouteFailures => exact wp_map.2 (syncRouteFailures_untouched r).keepsBooks
  | expireRoute l now => exact wp_map.2 (expireRoute_balances l now r)
  | serviceFailedRoute l now =>
    exact wp_map.2 (keepsBooks_finish (serviceFailedRoute_balances build l now r))
  | admitOneRoute l now reply =>
    exact wp_map.2 (keepsBooks_finish (admitOneRoute_balances build l now reply r))
  | driveLane o reply =>
    exact wp_map.2 (keepsBooks_finish (calm_keepsBooks (tryDriveLane_calm reply o)))
  | submitSeed req now reply =>
    exact wp_map.2 (keepsBooks_finish (wp_mono (trySubmitSeed_spec reply now req)
      (fun _ _ => seedSubmits_balances) fun _ _ => seedSubmits_balances))
  | expireSeedWaiting now b =>
    exact wp_map.2 (serves_keepsBooks (expireSeedWaiting_serves now b))
  | serviceSeedWaiting now replies =>
    exact wp_map.2 (keepsBooks_finish (serves_keepsBooks (serviceSeedWaiting_serves now replies)))
  | installResolvedSeed mk seed =>
    exact wp_map.2 (keepsBooks_finish (calm_keepsBooks (tryInstallResolvedSeed_calm mk seed)))
  | replaceResolvedSeed mk seed =>
    exact wp_map.2 (keepsBooks_finish (calm_keepsBooks (tryReplaceResolvedSeed_calm mk seed)))
  | retryPendingResolvedSeed mk =>
    exact wp_map.2 (keepsBooks_finish (calm_keepsBooks (tryRetryPendingResolvedSeed_calm mk)))
  | prepareSeedBootstrapRestart fenced drain =>
    exact wp_map.2
      (keepsBooks_finish (calm_keepsBooks (tryPrepareSeedBootstrapRestart_calm fenced drain)))
  | markSeedBootstrapResolutionOwned =>
    exact wp_map.2 (keepsBooks_finish (calm_keepsBooks tryMarkSeedBootstrapResolutionOwned_calm))
  | beginClusterDrain drain =>
    exact wp_map.2 (keepsBooks_finish (calm_keepsBooks (tryBeginClusterDrain_calm drain)))
  | stamp => exact wp_map.2 (drawStamp_untouched r).keepsBooks

/-- A directory is adopted or refused; a refused one is fatal if it diverges. -/
theorem tryInstallDirectory_cases (dir : BrokerDirectory) (r : ClusterRuntime) :
    wp (tryInstallDirectory build dir)
      (fun _ r' => r' = r ∨ r' = r.adoptDirectory build dir) (fun _ r' => r' = r) r := by
  unfold tryInstallDirectory
  rw [wp_bind, wp_get]
  split
  · exact rfl
  split
  · exact .inr rfl
  split_ifs
  · exact .inl rfl
  · exact rfl
  · exact .inl rfl
  · exact .inr rfl

theorem step_installDirectory (dir : BrokerDirectory) (r : ClusterRuntime) :
    Balances [] [] r (step build r (.installDirectory dir)).1 ∨
      (step build r (.installDirectory dir)).1 = r.adoptDirectory build dir := by
  refine step_of_wp (P := fun r' => Balances [] [] r r' ∨ r' = r.adoptDirectory build dir) ?_
  refine wp_map.2 (wp_onError.2 (wp_mono (tryInstallDirectory_cases build dir r) ?_ ?_))
  · rintro _ _ (rfl | rfl)
    · exact .inl (.refl _)
    · exact .inr rfl
  · rintro _ _ rfl
    exact .inl (totalizeAfterHostFailure_balances build _)

theorem step_books (ht : r.Tidy) (c : ClusterCall) :
    Books (callsForSeed c) (callsForRoutes c) r (step build r c).1 := by
  by_cases other : ∀ dir, c ≠ .installDirectory dir
  · exact (step_balances build r other).books ht
  simp only [not_forall, not_not] at other
  obtain ⟨dir, rfl⟩ := other
  rcases step_installDirectory build dir r with hb | adopted
  · exact hb.books ht
  · rw [adopted]
    exact adoptDirectory_books build dir ht

theorem new_tidy : (new driver).Tidy :=
  ⟨fun _ held => (nomatch held), fun _ _ held => (nomatch held), fun _ _ held => (nomatch held)⟩

/-- The books of a run. -/
theorem after_books (cs : List ClusterCall) :
    Books (cs.flatMap callsForSeed) (cs.flatMap callsForRoutes) (new driver)
      (after build driver cs) := by
  refine Runs.run_induction (step build) (s := new driver)
    (P := fun cs _ r => Books (cs.flatMap callsForSeed) (cs.flatMap callsForRoutes)
      (new driver) r) (.refl (new_tidy driver)) ?_ cs
  intro cs c books
  rw [flatMap_append, flatMap_append, flatMap_singleton, flatMap_singleton]
  exact books.trans (step_books build books.tidy c)

/-! ## Where a call is -/

/-- The calls that wait with a route, in order. -/
def waitingAt (r : ClusterRuntime) (lane : BrokerLane) : List (WaitEntry WaitingCall) :=
  ((r.routes.get lane).map (·.waiting.calls.waiting)).getD []

theorem Untouched.waitingAt_eq (h : Untouched r r') (ht : r.Tidy) (lane : BrokerLane) :
    r'.waitingAt lane = r.waitingAt lane := by
  unfold waitingAt
  cases after : r'.routes.get lane with
  | some st' =>
    obtain ⟨st, pre, queue, -⟩ := h.routes.kept lane not_mem_nil st' after
    rw [pre, map_some, map_some, queue]
  | none =>
    cases pre : r.routes.get lane with
    | none => rfl
    | some st =>
      have hg := h.routes.left lane not_mem_nil st pre after
      exact (map_eq_nil_iff.1 (ht.hidden lane st pre hg)).symm

/-- A state that leaves the map has no calls : a directory fails those of the routes it does
not name, and nothing else removes a route that is advertised. -/
theorem leaves_empty (ht : r.Tidy) {c : ClusterCall} (hg : r.routes.get l = some st)
    (gone : (step build r c).1.routes.get l = none) :
    ∃ last, last.waiting.isEmpty = true ∧ (last = st ∨ ∃ dir,
      c = .installDirectory dir ∧ last = (readvertise build dir st).1) := by
  have hh : ∀ {seeds rs}, Balances seeds rs r (step build r c).1 → st.waiting.isEmpty = true := by
    intro seeds rs hb
    cases advertised : st.advertised with
    | none => exact WaitQueue.isEmpty_of_tickets (ht.hidden l st hg advertised)
    | some cur =>
      obtain ⟨st', hg', -⟩ := hb.shown l st hg (by rw [advertised]; rfl)
      rw [gone] at hg'
      cases hg'
  by_cases other : ∀ dir, c ≠ .installDirectory dir
  · exact ⟨st, hh (step_balances build r other), .inl rfl⟩
  simp only [not_forall, not_not] at other
  obtain ⟨dir, rfl⟩ := other
  rcases step_installDirectory build dir r with hb | adopted
  · exact ⟨st, hh hb, .inl rfl⟩
  refine ⟨_, ?_, .inr ⟨dir, rfl, rfl⟩⟩
  rw [adopted] at gone
  simp only [adoptDirectory, OrdMap.get_filter, OrdMap.get_map, hg, Option.map_some,
    Option.filter] at gone
  split_ifs at gone with needed
  have hh : (readvertise build dir st).1.advertised = none := by
    simp only [Bool.or_eq_true, not_or, Bool.not_eq_true] at needed
    simpa using needed.1
  exact WaitQueue.isEmpty_of_tickets (readvertise_hidden build dir st hh)

/-- Tickets of the calls that failed, in order. -/
def failedTickets (fates : List RequestFate) : List ℕ :=
  fates.filterMap fun
    | .failed request _ _ => some request.ticket
    | .admitted _ => none

theorem count_settledTickets (fs : List RequestFate) (t : ℕ) :
    (settledTickets fs).count t = (failedTickets fs).count t + (admittedTickets fs).count t := by
  induction fs with
  | nil => rfl
  | cons f fs ih =>
    cases f with
    | failed req err seen =>
      change (req.ticket :: settledTickets fs).count t =
        (req.ticket :: failedTickets fs).count t + (admittedTickets fs).count t
      rw [count_cons, count_cons, ih]
      omega
    | admitted req =>
      change (req.ticket :: settledTickets fs).count t =
        (failedTickets fs).count t + (req.ticket :: admittedTickets fs).count t
      rw [count_cons, count_cons, ih]
      omega

end ClusterRuntime

open ClusterRuntime

/-- After every run each call given to `submitRoute` has failed, was handed to a lane or waits
with one route : these places hold it as often as it was submitted. Every route state that
leaves the map has an empty queue when it does. Publication and activation take states out of
the map and leave every queue as it was, in order, for any demands and whatever fails. -/
theorem calls_in_one_place (build : Build) (driver : DriverLimits) (calls : List ClusterCall) :
    let r := after build driver calls
    (∀ t ∉ calls.flatMap callsForSeed,
      (failedTickets r.fates).count t + (admittedTickets r.fates).count t +
        (r.routes.entries.map fun e => e.2.waiting.calls.tickets.count t).sum =
          (calls.flatMap callsForRoutes).count t) ∧
    (∀ e ∈ run build driver calls, ∀ lane state, e.before.routes.get lane = some state →
      e.after.routes.get lane = none → ∃ last, last.waiting.isEmpty = true ∧
        (last = state ∨ ∃ dir, e.input = .installDirectory dir ∧
          last = (readvertise build dir state).1)) ∧
    (∀ b retired ep dms fac,
      wp (publishPendingFamily b retired ep dms fac)
        (fun _ r' => ∀ lane, r'.waitingAt lane = r.waitingAt lane)
        (fun _ r' => ∀ lane, r'.waitingAt lane = r.waitingAt lane) r) ∧
    ∀ dms fac,
      wp (activatePendingLanes dms fac) (fun _ r' => ∀ lane, r'.waitingAt lane = r.waitingAt lane)
        (fun _ r' => ∀ lane, r'.waitingAt lane = r.waitingAt lane) r := by
  intro r
  have books := after_books build driver calls
  have ht : r.Tidy := books.tidy
  refine ⟨fun t hf => ?_, fun e mem lane state hh hg => ?_, ?_, ?_⟩
  · obtain ⟨fates, ofSeeds, ofRoutes, hd, split, seedSide, routeSide⟩ := books.settled
    have all : r.fates = fates := hd
    have hw : (r.routes.entries.map fun e => e.2.waiting.calls.tickets.count t).sum =
        (waitingTickets r.routes).count t := count_flatMap.symm
    -- the call was not given to the seed, so its fates are those of calls for routes
    have foreign : (calls.flatMap callsForSeed).count t = 0 := count_eq_zero.2 hf
    have hse := split.count_eq t
    have seeds := seedSide.count_eq t
    have routes := routeSide.count_eq t
    simp only [count_append] at hse seeds routes
    rw [hw, ← count_settledTickets, all]
    change _ + (waitingTickets r.routes).count t = _ + count t [] at routes
    change _ = _ + count t [] at seeds
    rw [count_nil] at routes seeds
    omega
  · obtain ⟨old, call, rfl⟩ := Runs.of_mem_trace (step build) mem
    exact leaves_empty build (after_books build driver old).tidy hh hg
  · intro b retired ep dms fac
    have hs := (publishPendingFamily_untouched r b ep dms fac retired).wp
    exact wp_mono hs (fun _ _ hk => hk.waitingAt_eq ht) fun _ _ hk =>
      hk.waitingAt_eq ht
  · intro dms fac
    have hs := (activatePendingLanes_untouched r dms fac).wp
    exact wp_mono hs (fun _ _ hk => hk.waitingAt_eq ht) fun _ _ hk =>
      hk.waitingAt_eq ht

/-- The broker moves while its first call waits, and a second call comes for the new endpoint. -/
theorem calls_in_one_place_replaced :
    let r := after .release soloDriver (lostCalls ++ replaceCalls)
    (failedTickets r.fates).count 1 + (admittedTickets r.fates).count 1 +
        (r.routes.entries.map fun e => e.2.waiting.calls.tickets.count 1).sum = 1 ∧
      (failedTickets r.fates).count 2 + (admittedTickets r.fates).count 2 +
        (r.routes.entries.map fun e => e.2.waiting.calls.tickets.count 2).sum = 1 := by
  have hp := (calls_in_one_place .release soloDriver (lostCalls ++ replaceCalls)).1
  exact ⟨hp 1 (by decide +kernel), hp 2 (by decide +kernel)⟩

end KafkaDriver
