import KafkaDriver.InstallSteps

/-!
# Calls of the cluster runtime as sequences of changes

The services of one route and the operations of the seed, and with them every call : a call
that answers has made changes of `Change`; one that fails has made changes that may leave a
call stranded and then failed every call that waits, or left the runtime as a call that
answers may. `syncRouteFailures` is described on its own (`Synced`), since what it writes
into a route is the subject of later results.
-/

namespace KafkaDriver

open Fallible List Option OrdMap Prod RouteWaiting

namespace ClusterRuntime

variable {build : Build} {failing : Bool} {r r' : ClusterRuntime} {α : Type} {x : Host α}
  {Q : α → ClusterRuntime → Prop}

/-! ## Services of one route -/

theorem expireRoute_steps (l : BrokerLane) (now : Moment) :
    wp (expireRoute l now) (fun _ r' => Steps build false r r') (fun _ _ => False) r := by
  unfold expireRoute
  simp only [wp_bind, wp_get]
  cases found : r.routes.get l with
  | none => exact .refl
  | some st =>
    have hs : RouteChange build false r l st
        { st with
          waiting := (st.waiting.expireDueBounded now st.routeFailureAt 1).1 } :=
      .settle (expireLoop_settles _ _ _ _).len_le
    exact .single (.route found hs)

theorem serviceFailedRoute_acts (l : BrokerLane) (now : Moment) :
    Acts build (serviceFailedRoute build l now) (fun _ _ => True) r := by
  unfold serviceFailedRoute
  refine .query_bind fun terminal _ => .get_bind ?_
  cases found : r.routes.get l with
  | none => exact .pure trivial
  | some st =>
    dsimp only
    cases terminal with
    | some err =>
      have hs : RouteChange build false r l st
          { st with
            waiting := (st.waiting.failBounded build err st.routeFailureAt 1).1 } :=
        .settle (failBounded_settles _ _ _ _ _).len_le
      exact .bind change_le (putRoute_acts found hs) fun _ _ _ => .pure trivial
    | none =>
      cases st.routeFailureAt with
      | some t =>
        have hs : RouteChange build false r l st
            { st with
              waiting := (st.waiting.rejectFailedRouteOne build now t).1
              routeFailureAt := some t } :=
          .settle (rejectFailedRouteOne_settles _ _ _ _).len_le
        exact .bind change_le (putRoute_acts found hs) fun _ _ _ => .pure trivial
      | none => exact .pure trivial

variable (reply : LaneReply) (now : Moment) (mk : LaneFactory)

theorem admitOneRoute_acts (lane : BrokerLane) :
    Acts build (admitOneRoute build lane now reply) (fun _ _ => True) r := by
  unfold admitOneRoute
  refine .get_bind ?_
  split
  · exact .pure trivial
  rename_i st cur hk
  obtain ⟨st', hf, hpa⟩ := bind_eq_some_iff.1 hk
  obtain rfl : st' = st := by
    obtain ⟨_, -, hs⟩ := map_eq_some_iff.1 hpa
    exact (Prod.mk.inj hs).1
  refine .query_bind fun owner? _ => ?_
  cases owner? with
  | none => exact .pure trivial
  | some owner =>
    refine .query_bind fun k _ => ?_
    cases hg : r.lanes[k]? with
    | none => exact .pure trivial
    | some physical =>
      have hsh := st'.waiting.len_pop_le now build st'.routeFailureAt
      have hse : ∀ failureAt, RouteChange build false r lane st'
          { st' with
            waiting := (st'.waiting.pop build now st'.routeFailureAt).1
            routeFailureAt := failureAt } := fun _ => .settle hsh
      dsimp only
      split
      · exact .pure trivial
      split
      · rename_i hp
        rw [hp] at hse
        exact .bind change_le (putRoute_acts hf (hse none)) fun _ _ _ => .pure trivial
      · rename_i hp
        rw [hp] at hse
        exact .bind change_le (putRoute_acts hf (hse none)) fun _ _ _ => .pure trivial
      · rename_i waiting fs req hp
        rw [hp] at hse
        refine .bind change_le (putRoute_acts hf (hse st'.routeFailureAt)) ?_
        intro _ r₁ put
        have hg : r₁.lanes[k]? = some physical := by rw [put, hg]
        refine .bind change_le (submitToLane_moves hg req now reply) ?_
        intro _ r₂ rts
        have hw : r₂.routes.get lane = some { st' with waiting } := by
          rw [rts, put]
          simp
        exact .bind change_le (putRoute_acts hw (.settle le_rfl)) fun _ _ _ =>
          .pure trivial

/-! ## Changes that leave the queues -/

/-- A change beside the queues, of the lanes, or the end of admission. -/
inductive Still (r : ClusterRuntime) : ClusterRuntime → Prop
  | aside {causality : CausalSequence} {pendingResolvedSeed : Option ResolvedSeed}
      {seedBootstrap : SeedBootstrapState} {seedWaitingState : SeedWaitingState}
      (later : r.causality.next ≤ causality.next) :
      Still r { r with causality, pendingResolvedSeed, seedBootstrap, seedWaitingState }
  | physical {r' : ClusterRuntime} (change : Physical r r') : Still r r'
  | drain : Still r r.closeAdmission

/-- The operation makes such changes only, whether it answers or fails. -/
abbrev Calm (x : Host α) (Q : α → ClusterRuntime → Prop) (r : ClusterRuntime) : Prop :=
  Moves Still Still x Q r

theorem Still.change (h : Still r r') : Change build failing r r' := by
  cases h with
  | aside hl => exact .aside hl
  | physical ch => exact .physical ch
  | drain => exact .drain

theorem acts_of_calm (h : Calm x Q r) : Acts build x Q r :=
  h.lift (fun _ _ => Still.change) fun _ _ => Still.change

theorem tryDriveLane_calm (o : DirectRefreshOwner) :
    Calm (tryDriveLane o reply) (fun _ _ => True) r := by
  unfold tryDriveLane
  refine .query_bind fun k _ => ?_
  have hm : Still r (r.modifyLane k (·.evolve reply.change)) :=
    .physical (.evolve fun l _ => ⟨rfl, l.evolves_evolve _⟩)
  refine .modify_bind le_rfl hm ?_
  split
  · exact .throw
  · exact .pure trivial

/-! ## Seed -/

theorem wp_captureSeed {Q : Unit → ClusterRuntime → Prop} {E : HostError → ClusterRuntime → Prop} :
    wp captureSeed Q E r ↔ (∀ s, r.captureSeedTerminalFailure = .ok s → Q () s) ∧
      (∀ e, r.captureSeedTerminalFailure = .error e → E e r) := by
  unfold wp captureSeed
  cases r.captureSeedTerminalFailure <;> simp

theorem captureSeed_calm :
    Calm captureSeed (fun _ r' => r' = { r with seedWaitingState := r'.seedWaitingState }) r := by
  refine wp_captureSeed.2 ⟨fun s hc => ?_, fun _ _ => .refl⟩
  have hs := captureSeedTerminalFailure_eq hc
  refine ⟨.single ?_, hs⟩
  rw [hs]
  exact .aside le_rfl

theorem seedLaneIndex_ok {k : ℕ} (ok : r.seedLaneIndex = .ok (some k)) :
    (∃ seed, r.seed = some seed ∧ r.slots.get seed.owner = some k) ∧
      ∃ lane, r.lanes[k]? = some lane := by
  unfold seedLaneIndex at ok
  split at ok
  · cases ok
  rename_i seed hs
  split at ok
  · cases ok
  rename_i hg
  split at ok
  · cases ok
  · rename_i lane ht
    split_ifs at ok
    cases ok
    exact ⟨⟨seed, hs, hg⟩, lane, ht⟩

/-- What becomes of a call for the seed : it is refused, waits, or goes to the ready lane. -/
inductive SeedSubmits (request : Request) (r : ClusterRuntime) : ClusterRuntime → Prop
  | refuse {seedWaitingState : SeedWaitingState} {failure : RequestError} :
      SeedSubmits request r
        { r with seedWaitingState, fates := r.fates ++ [.failed request failure none] }
  | push {seedWaitingState : SeedWaitingState} {now : Moment} :
      SeedSubmits request r
        { r with
          seedWaitingState
          seedWaiting := (r.seedWaiting.push request now).1
          fates := r.fates ++ (r.seedWaiting.push request now).2 }
  | pass {s : ClusterRuntime} {index : ℕ} {lane : DirectLane} {now : Moment} {reply : LaneReply}
      (captured : r.captureSeedTerminalFailure = .ok s)
      (admits : s.seedWaitingState.admissionFailure = none)
      (position : s.seedLaneIndex = .ok (some index)) (there : s.lanes[index]? = some lane)
      (ready : lane.canAdmitPublic = true) :
      SeedSubmits request r (s.handed index lane request now reply)

theorem trySubmitSeed_spec (req : Request) :
    wp (trySubmitSeed req now reply) (fun _ r' => SeedSubmits req r r')
      (fun _ r' => SeedSubmits req r r') r := by
  unfold trySubmitSeed
  refine wp_bind.2 (wp_onError.2 (wp_captureSeed.2 ⟨fun s hc => ?_, fun _ _ => .refuse⟩))
  have hs := captureSeedTerminalFailure_eq hc
  have hr : ∀ err, SeedSubmits req r { s with fates := s.fates ++ [.failed req err none] } := by
    rw [hs]
    exact fun _ => .refuse
  have hp : SeedSubmits req r
      { s with
        seedWaiting := (s.seedWaiting.push req now).1
        fates := s.fates ++ (s.seedWaiting.push req now).2 } := by
    rw [hs]
    exact .push
  rw [wp_bind, wp_get]
  split
  · exact hr _
  rename_i ha
  split
  · exact hr _
  · exact hp
  rename_i position
  obtain ⟨-, l, ht⟩ := seedLaneIndex_ok position
  rw [ht]
  dsimp only
  split
  · rename_i hre
    exact wp_submitToLane (.pass hc ha position ht hre)
  · exact hp

theorem SeedSubmits.steps {req : Request} (h : SeedSubmits req r r') :
    Steps build failing r r' := by
  cases h with
  | refuse | push => exact .single (.aside le_rfl)
  | @pass s _ _ _ _ hc _ _ ht _ =>
    have ha : Change build failing r s := by
      rw [captureSeedTerminalFailure_eq hc]
      exact .aside le_rfl
    exact .head ha (handed_steps ht req _ _)

/-- A turn fails calls that wait for the seed, or hands the first of them to the ready lane. -/
inductive SeedMove (build : Build) (r : ClusterRuntime) : ClusterRuntime → Prop
  | settle {seedWaiting : PendingRequests} {fates : List RequestFate}
      (settles : CallAccount.Settles fates r.seedWaiting.account seedWaiting.account) :
      SeedMove build r { r with seedWaiting, fates := r.fates ++ fates }
  | serve {index : ℕ} {lane : DirectLane} {seedWaiting : PendingRequests} {request : Request}
      {now : Moment} {reply : LaneReply} (there : r.lanes[index]? = some lane)
      (ready : lane.canAdmitPublic = true)
      (popped : r.seedWaiting.pop build = (seedWaiting, some request)) :
      SeedMove build r
        (({ r with seedWaiting } : ClusterRuntime).handed index lane request now reply)

/-- The operation makes such moves only, whether it answers or fails. -/
abbrev ServesSeed (build : Build) (x : Host α) (r : ClusterRuntime) : Prop :=
  Moves (SeedMove build) (SeedMove build) x (fun _ _ => True) r

theorem admitSeedWaiting_serves (replies : List LaneReply) (r : ClusterRuntime) :
    ServesSeed build (admitSeedWaiting build now replies) r := by
  induction replies generalizing r with
  | nil => exact .pure trivial
  | cons reply replies ih =>
    unfold admitSeedWaiting
    refine .get_bind (.query_bind fun k? _ => ?_)
    cases k? with
    | none => exact .pure trivial
    | some k =>
      dsimp only
      split
      · exact .throw
      rename_i ht
      split
      · rename_i hr
        split
        · exact .pure trivial
        rename_i hse req hp
        have hm := @SeedMove.serve build r _ _ _ _ now reply ht hr hp
        refine wp_bind.2 (wp_set _ |>.2 (wp_bind.2 (wp_mono (wp_submitToLane
          (P := fun r' => SeedMove build r r') hm) ?_ fun _ _ => .single)))
        intro _ r₁ hs
        exact wp_mono (ih r₁) (fun _ _ hl => ⟨.head hs hl.1, trivial⟩) fun _ _ => .head hs
      · exact .pure trivial

theorem settleFailedSeedWaiting_serves (b : ℕ) :
    ServesSeed build (settleFailedSeedWaiting build b) r := by
  unfold settleFailedSeedWaiting ServesSeed Moves
  rw [wp_modifyGet]
  cases r.seedWaitingState.queuedCallFailure with
  | none => exact ⟨.refl, trivial⟩
  | some err =>
    exact ⟨.single (.settle (PendingRequests.failBounded_settles _ _ _ _)), trivial⟩

theorem expireSeedWaiting_serves (b : ℕ) : ServesSeed build (expireSeedWaiting build now b) r := by
  unfold expireSeedWaiting
  refine .bind le_rfl (settleFailedSeedWaiting_serves b) fun terminal r₁ _ => ?_
  unfold Moves
  rw [wp_modify]
  split
  · exact ⟨.single (.settle (PendingRequests.expireDue_settles _ _ _)), trivial⟩
  · exact ⟨.refl, trivial⟩

theorem serviceSeedWaiting_serves (replies : List LaneReply) :
    ServesSeed build (serviceSeedWaiting build now replies) r := by
  unfold serviceSeedWaiting
  refine .bind le_rfl (settleFailedSeedWaiting_serves _) fun terminal r₁ _ => .get_bind ?_
  split
  · exact admitSeedWaiting_serves now _ r₁
  · exact .pure trivial

theorem SeedMove.steps (h : SeedMove build r r') : Steps build failing r r' := by
  cases h with
  | settle => exact .single (.aside le_rfl)
  | @serve _ _ seedWaiting req now reply ht =>
    have hta : Change build failing r { r with seedWaiting } := .aside le_rfl
    exact .head hta (handed_steps (r := { r with seedWaiting }) ht req now reply)

theorem acts_of_serves (h : ServesSeed build x r) : Acts build x (fun _ _ => True) r :=
  h.expand (fun _ _ => SeedMove.steps) fun _ _ => SeedMove.steps

/-! ### Installation and replacement -/

theorem installSeed_calm (gen : ConnectionEpoch) (hv : r.seed = none) :
    Calm (installSeed gen mk) (fun _ _ => True) r := by
  unfold installSeed insertReserved
  unfold Calm Moves
  simp only [wp_bind, wp_get, hv, isSome_none, Bool.false_eq_true, if_false]
  refine wp_mono (reserveEndpointLanes_spec 1 r) ?_ ?_
  · rintro os _ ⟨ids, res, rfl⟩
    have ha : Still r { r with identities := ids } :=
      .physical (.reserve res)
    simp only [wp_bind, wp_get, wp_query]
    refine ⟨fun _ _ => ?_, fun _ _ => .single ha⟩
    split
    · exact .single ha
    simp only [wp_bind]
    refine wp_mono (startClusterLane_spec mk _ _) ?_ ?_
    · rintro l _ ⟨rfl, ho⟩
      exact ⟨.single (.physical (.seat hv res ho)), trivial⟩
    · rintro e _ rfl
      exact .single ha
  · rintro e _ rfl
    exact .refl

theorem tryInstallResolvedSeed_calm (seed : ResolvedSeed) :
    Calm (tryInstallResolvedSeed mk seed) (fun _ _ => True) r := by
  unfold tryInstallResolvedSeed
  refine .get_bind ?_
  split
  · exact .throw
  · rename_i hv
    split
    · exact installSeed_calm mk _ (by simpa using hv)
    · exact .throw

theorem replaceReclaimableSeed_calm {cur : SeedSlot} {k : ℕ} (gen : ConnectionEpoch)
    (hs : r.seed = some cur) (hg : r.slots.get cur.owner = some k) :
    Calm (replaceReclaimableSeed cur k gen mk) (fun _ _ => True) r := by
  unfold replaceReclaimableSeed
  unfold Calm Moves
  simp only [wp_bind]
  refine wp_mono (reserveEndpointLanes_spec 1 r) ?_ ?_
  · rintro os _ ⟨ids, res, rfl⟩
    refine wp_bind.2 (wp_mono (startClusterLane_spec mk _ _) ?_ ?_)
    · rintro l _ ⟨rfl, ho⟩
      have hm : Physical r
          { r with
            identities := ids
            lanes := r.lanes.set k
              { l with
                status := { l.status with
                  lastCloseReason := (r.lanes[k]?).bind (·.status.lastCloseReason) } }
            slots := (r.slots.erase cur.owner).insert (os 0) k
            seed := some ⟨os 0, gen⟩ } := .reseat hs hg res ho
      exact ⟨(Relation.ReflTransGen.single (.physical hm)).tail (.aside le_rfl), trivial⟩
    · rintro e _ rfl
      exact .single (.physical (.reserve res))
  · rintro e _ rfl
    exact .refl

theorem tryRetryPendingResolvedSeed_calm :
    Calm (tryRetryPendingResolvedSeed mk) (fun _ _ => True) r := by
  unfold tryRetryPendingResolvedSeed
  refine .get_bind ?_
  split
  · exact .pure trivial
  · exact .throw
  rename_i p cur _ hse
  split
  · exact .bind le_rfl (Q := fun _ _ => True) ⟨.single (.aside le_rfl), trivial⟩
      fun _ _ _ => .pure trivial
  refine .query_bind fun _ _ => ?_
  split
  · exact .pure trivial
  refine .bind le_rfl captureSeed_calm fun _ r₁ hc => .get_bind ?_
  have hse : r₁.seed = some cur := by rw [hc, hse]
  split
  · exact .pure trivial
  refine .query_bind fun k? hf => ?_
  split
  · exact .throw
  rename_i k
  obtain ⟨⟨seed, hs, hg⟩, -⟩ := seedLaneIndex_ok hf
  obtain rfl := some.inj (hse.symm.trans hs)
  split
  · refine .bind le_rfl
      (Q := fun _ r' => r'.seed = some cur ∧ r'.slots.get cur.owner = some k)
      ⟨.single (.aside le_rfl), hse, hg⟩ fun _ r₂ hk => ?_
    split
    · exact .bind le_rfl (replaceReclaimableSeed_calm mk _ hk.1 hk.2)
        fun _ _ _ => .pure trivial
    · exact .throw
  · exact .pure trivial

theorem tryReplaceResolvedSeed_calm (seed : ResolvedSeed) :
    Calm (tryReplaceResolvedSeed mk seed) (fun _ _ => True) r := by
  unfold tryReplaceResolvedSeed
  refine .get_bind ?_
  split
  · exact .throw
  refine .query_bind fun _ _ => ?_
  split
  · exact .pure trivial
  split
  · exact .pure trivial
  split
  · exact .pure trivial
  refine .bind le_rfl (Q := fun _ _ => True) ⟨.single (.aside le_rfl), trivial⟩
    fun _ r₁ _ => ?_
  split
  · exact .pure trivial
  · exact .bind le_rfl (tryRetryPendingResolvedSeed_calm mk) fun _ _ _ => .pure trivial

/-! ### Bootstrap restart and drain -/

theorem tryPrepareSeedBootstrapRestart_calm (fenced : Bool) (drain : LaneReply) :
    Calm (tryPrepareSeedBootstrapRestart fenced drain) (fun _ _ => True) r := by
  unfold tryPrepareSeedBootstrapRestart
  refine .bind le_rfl captureSeed_calm fun _ r₁ _ => .get_bind ?_
  split
  · split
    · exact .pure trivial
    · exact .throw
  · split
    · exact .pure trivial
    · exact .throw
  · exact .pure trivial
  · split
    · exact .pure trivial
    refine .query_bind fun k _ => ?_
    have hdr : Still r₁ (r₁.modifyLane k (·.evolve drain.change)) :=
      .physical (.evolve fun l _ => ⟨rfl, l.evolves_evolve _⟩)
    split
    · exact .pure trivial
    split
    · exact .throw
    refine .modify_bind le_rfl hdr ?_
    split
    · exact .throw
    · refine .get_bind ?_
      split
      · exact .modify_bind le_rfl (.aside le_rfl) (.pure trivial)
      · exact .throw

theorem tryMarkSeedBootstrapResolutionOwned_calm :
    Calm tryMarkSeedBootstrapResolutionOwned (fun _ _ => True) r := by
  unfold tryMarkSeedBootstrapResolutionOwned
  refine .bind le_rfl captureSeed_calm fun _ r₁ _ => .get_bind ?_
  split
  · split
    · exact ⟨.single (.aside le_rfl), trivial⟩
    · exact .throw
  · exact .throw
  · exact .throw

theorem tryBeginClusterDrain_calm (drain : DirectRefreshOwner → LaneReply) :
    Calm (tryBeginClusterDrain drain) (fun _ _ => True) r := by
  unfold tryBeginClusterDrain
  refine .query_bind fun _ _ => .modify_bind le_rfl .drain (.get_bind ?_)
  exact (drainLanes_moves drain _ _).lift (fun _ _ => .physical) fun _ _ => .physical

/-! ## Connection failures -/

/-- What a sync makes of a route whose lane was found in `broker` : it stamps a failed epoch
it did not know, leaves one it knew, and may forget a failure once the lane is healthy. The
stamp is drawn from `[lo, hi)`. -/
inductive SyncedRoute (lo hi : ℕ) (broker : Option BrokerState) (state : BrokerRouteState) :
    BrokerRouteState → Prop
  | stamped {epoch : ConnectionEpoch} {stamp : OutcomeStamp}
      (failed : broker.bind BrokerState.failedEpoch = some epoch)
      (unknown : state.lastConnectionFailureEpoch ≠ some epoch) (low : lo ≤ stamp.raw)
      (high : stamp.raw < hi) (room : stamp.raw < u64Max) :
      SyncedRoute lo hi broker state
        { state with lastConnectionFailureEpoch := some epoch, routeFailureAt := some stamp }
  | known {epoch : ConnectionEpoch} (failed : broker.bind BrokerState.failedEpoch = some epoch)
      (seen : state.lastConnectionFailureEpoch = some epoch) :
      SyncedRoute lo hi broker state state
  | healthy {failureAt : Option OutcomeStamp}
      (healthy : broker.bind BrokerState.failedEpoch = none)
      (forgets : failureAt = none ∨ failureAt = state.routeFailureAt) :
      SyncedRoute lo hi broker state { state with routeFailureAt := failureAt }

/-- The two states differ at most in what a sync writes. -/
def Quiet (state state' : BrokerRouteState) : Prop :=
  state' = { state with
    routeFailureAt := state'.routeFailureAt
    lastConnectionFailureEpoch := state'.lastConnectionFailureEpoch }

variable {broker : Option BrokerState} {state state' : BrokerRouteState} {lane : BrokerLane}
  {probes : List (BrokerLane × Option BrokerState)}

theorem SyncedRoute.quiet {lo hi : ℕ} (h : SyncedRoute lo hi broker state state') :
    Quiet state state' := by
  cases h <;> rfl

/-- A sync reads a broker state and writes a route state, with stamps from `[lo, hi)`. -/
abbrev RouteSync := ℕ → ℕ → Option BrokerState → BrokerRouteState → BrokerRouteState → Prop

/-- More stamps allow at least as much. -/
def RouteSync.Widens (change : RouteSync) : Prop :=
  ∀ ⦃lo hi lo' hi' broker state state'⦄, change lo hi broker state state' → lo' ≤ lo → hi ≤ hi' →
    change lo' hi' broker state state'

theorem SyncedRoute.widens : RouteSync.Widens SyncedRoute := by
  intro lo hi lo' hi' broker st st' h hb ha
  cases h with
  | stamped hf hu low hh hr =>
    exact .stamped hf hu (hb.trans low) (hh.trans_le ha) hr
  | known hf seen => exact .known hf seen
  | healthy healthy forgets => exact .healthy healthy forgets

/-- What a sync that runs out of stamps makes of one route : it comes to it before, notes its
failure without a stamp, or does not come to it. -/
inductive InterruptedRoute (lo hi : ℕ) (broker : Option BrokerState) (state : BrokerRouteState) :
    BrokerRouteState → Prop
  | synced {state' : BrokerRouteState} (sync : SyncedRoute lo hi broker state state') :
      InterruptedRoute lo hi broker state state'
  | noted {epoch : ConnectionEpoch} (failed : broker.bind BrokerState.failedEpoch = some epoch) :
      InterruptedRoute lo hi broker state { state with lastConnectionFailureEpoch := some epoch }
  | untouched : InterruptedRoute lo hi broker state state

theorem InterruptedRoute.quiet {lo hi : ℕ} (h : InterruptedRoute lo hi broker state state') :
    Quiet state state' := by
  cases h with
  | synced sync => exact sync.quiet
  | noted | untouched => rfl

theorem InterruptedRoute.widens : RouteSync.Widens InterruptedRoute := by
  intro lo hi lo' hi' broker st st' h hb ha
  cases h with
  | synced sync => exact .synced (SyncedRoute.widens sync hb ha)
  | noted hf => exact .noted hf
  | untouched => exact .untouched

theorem syncRoute_spec (hf : r.routes.get lane = some state) (broker : Option BrokerState) :
    wp (syncRoute lane broker)
      (fun _ r' => ∃ state' causality,
        r' = { r with routes := r.routes.insert lane state', causality } ∧
        r.causality.next ≤ causality.next ∧
        SyncedRoute r.causality.next causality.next broker state state')
      (fun _ r' => r.causality.outcome = none ∧ ∃ e, broker.bind BrokerState.failedEpoch = some e ∧
        r' = { r with
          routes := r.routes.insert lane
            { state with lastConnectionFailureEpoch := some e } }) r := by
  have hs : r = { r with routes := r.routes.insert lane state, causality := r.causality } := by
    rw [insert_of_get hf]
  unfold syncRoute
  simp only [wp_bind, wp_get, hf]
  cases failed : broker.bind BrokerState.failedEpoch with
  | some e =>
    dsimp only
    split
    · rename_i seen
      exact ⟨state, r.causality, hs, le_rfl, .known failed seen⟩
    rename_i hu
    cases drawn : r.causality.outcome with
    | none =>
      refine ⟨rfl, e, rfl, ?_⟩
      simp
    | some draw =>
      obtain ⟨causality, stamp⟩ := draw
      obtain ⟨hr, rfl, rfl⟩ := CausalSequence.outcome_eq_some.1 drawn
      exact ⟨_, _, rfl, Nat.le_succ _, .stamped failed hu le_rfl (Nat.lt_succ_self _) hr⟩
  | none =>
    have hk : ∃ state' causality, r = { r with routes := r.routes.insert lane state', causality } ∧
        r.causality.next ≤ causality.next ∧
        SyncedRoute r.causality.next causality.next broker state state' :=
      ⟨state, r.causality, hs, le_rfl, .healthy failed (.inr rfl)⟩
    dsimp only
    split
    · split
      · refine ⟨{ state with routeFailureAt := none }, r.causality, ?_, le_rfl,
          .healthy failed (.inl rfl)⟩
        simp
      · exact hk
    · exact hk

/-- Each probed route is changed as `change` says, the others stay. -/
structure Probed (change : RouteSync) (probes : List (BrokerLane × Option BrokerState))
    (r r' : ClusterRuntime) : Prop where
  frame : r' = { r with routes := r'.routes, causality := r'.causality }
  later : r.causality.next ≤ r'.causality.next
  others : ∀ lane ∉ probes.map fst, r'.routes.get lane = r.routes.get lane
  changed : ∀ p ∈ probes, ∀ state, r.routes.get p.1 = some state →
    ∃ state', r'.routes.get p.1 = some state' ∧
      change r.causality.next r'.causality.next p.2 state state'

/-- What a sync leaves. -/
abbrev SyncedBy := Probed SyncedRoute

/-- What a sync leaves when the sequence runs out under it. -/
def SyncBroken (probes : List (BrokerLane × Option BrokerState)) (r r' : ClusterRuntime) : Prop :=
  Probed InterruptedRoute probes r r' ∧ r'.causality.outcome = none

/-- The first probed route changes, then the others. -/
theorem Probed.cons {ch : RouteSync} (hw : ch.Widens)
    {p : BrokerLane × Option BrokerState} (hfr : p.1 ∉ probes.map fst)
    (hf : r.routes.get p.1 = some state) {causality : CausalSequence}
    (hla : r.causality.next ≤ causality.next)
    (first : ch r.causality.next causality.next p.2 state state')
    (rest : Probed ch probes { r with routes := r.routes.insert p.1 state', causality } r') :
    Probed ch (p :: probes) r r' where
  frame := rest.frame
  later := hla.trans rest.later
  others := by
    intro l ho
    rw [map_cons, mem_cons, not_or] at ho
    rw [rest.others l ho.2, get_insert, if_neg ho.1]
  changed := by
    intro q mem old hh
    rcases mem_cons.1 mem with rfl | hl
    · obtain rfl := some.inj (hf.symm.trans hh)
      refine ⟨state', ?_, hw first le_rfl rest.later⟩
      rw [rest.others q.1 hfr, get_insert, if_pos rfl]
    · have ne : q.1 ≠ p.1 := fun hs => hfr (hs ▸ mem_map_of_mem hl)
      have hk : (r.routes.insert p.1 state').get q.1 = some old := by
        rw [get_insert, if_neg ne, hh]
      obtain ⟨state'', held'', changes⟩ := rest.changed q hl old hk
      exact ⟨state'', held'', hw changes hla le_rfl⟩

/-- An interrupted sync leaves the routes it does not come to. -/
theorem probed_untouched (probes : List (BrokerLane × Option BrokerState)) (r : ClusterRuntime) :
    Probed InterruptedRoute probes r r :=
  ⟨rfl, le_rfl, fun _ _ => rfl, fun _ _ st hg => ⟨st, hg, .untouched⟩⟩

theorem syncRoutes_spec (hn : (probes.map Prod.fst).Nodup)
    (hp : ∀ p ∈ probes, ∃ state, r.routes.get p.1 = some state) :
    wp (syncRoutes probes) (fun _ r' => SyncedBy probes r r')
      (fun _ r' => SyncBroken probes r r') r := by
  induction probes generalizing r with
  | nil => exact ⟨rfl, le_rfl, fun _ _ => rfl, fun _ mem => nomatch mem⟩
  | cons p probes ih =>
    obtain ⟨hfr, hn⟩ := nodup_cons.1 hn
    obtain ⟨state, hf⟩ := hp p mem_cons_self
    unfold syncRoutes
    refine wp_bind.2 (wp_mono (syncRoute_spec hf p.2) ?_ ?_)
    · rintro _ _ ⟨st', causality, rfl, hl, first⟩
      have hp' : ∀ q ∈ probes, ∃ state, (r.routes.insert p.1 st').get q.1 = some state := by
        intro q mem
        obtain ⟨state, hg⟩ := hp q (mem_cons_of_mem _ mem)
        rw [get_insert]
        split_ifs
        · exact ⟨st', rfl⟩
        · exact ⟨state, hg⟩
      refine wp_bind.2 (wp_mono (ih hn hp') ?_ ?_)
      · intro _ r' rest
        exact rest.cons SyncedRoute.widens hfr hf hl first
      · rintro _ r' ⟨rest, out⟩
        exact ⟨rest.cons InterruptedRoute.widens hfr hf hl (.synced first), out⟩
    · rintro _ _ ⟨out, e, hfa, rfl⟩
      exact ⟨(probed_untouched probes _).cons InterruptedRoute.widens hfr hf le_rfl
        (.noted hfa), out⟩

theorem syncRouteFailures_spec (r : ClusterRuntime) :
    wp syncRouteFailures (fun _ r' => SyncedBy r.probes r r')
      (fun _ r' => SyncBroken r.probes r r') r := by
  unfold syncRouteFailures
  rw [wp_bind, wp_get]
  have hn : r.probes.map fst = r.routes.keys := by
    simp [probes, OrdMap.keys, Function.comp_def]
  refine syncRoutes_spec (hn ▸ r.routes.nodup_keys) fun p mem => ?_
  obtain ⟨e, entry, rfl⟩ := mem_map.1 mem
  exact ⟨e.2, get_eq_some.2 entry⟩

theorem mem_probes (hg : r.routes.get lane = some state) :
    (lane, r.installedBroker state) ∈ r.probes :=
  mem_map.2 ⟨(lane, state), get_eq_some.1 hg, rfl⟩

/-- After the probes of a runtime every route state comes from one before. -/
theorem Probed.origin {ch : RouteSync} (h : Probed ch r.probes r r')
    (hq : ∀ {lo hi broker state state'}, ch lo hi broker state state' → Quiet state state')
    (hg : r'.routes.get lane = some state') :
    ∃ state, r.routes.get lane = some state ∧ Quiet state state' := by
  cases before : r.routes.get lane with
  | none =>
    have ho : lane ∉ r.probes.map fst := by
      intro mem
      obtain ⟨p, probe, rfl⟩ := mem_map.1 mem
      obtain ⟨e, entry, rfl⟩ := mem_map.1 probe
      rw [get_eq_some.2 entry] at before
      cases before
    rw [h.others lane ho, before] at hg
    cases hg
  | some state =>
    obtain ⟨after, hf, changes⟩ := h.changed _ (mem_probes before) state before
    obtain rfl := some.inj (hf.symm.trans hg)
    exact ⟨state, rfl, hq changes⟩

/-! ## Calls -/

/-- What a call other than a sync leaves : the changes of a call that answers, or those of a
failed one after which no call waits. -/
def Outcome (build : Build) (r r' : ClusterRuntime) : Prop :=
  Steps build false r r' ∨
    ∃ failed, Steps build true r failed ∧ r' = failed.totalizeAfterHostFailure build

/-- However it ends, the operation leaves an outcome of `r`. -/
def Settles (build : Build) (x : Host α) (r : ClusterRuntime) : Prop :=
  wp x (fun _ r' => Outcome build r r') (fun _ r' => Outcome build r r') r

theorem settles_finish (ha : Acts build x Q r) : Settles build (finishHostResult build x) r := by
  unfold Settles finishHostResult
  rw [wp_onError]
  exact wp_mono ha (fun _ _ hr => .inl hr.1) fun _ _ steps => .inr ⟨_, steps, rfl⟩

theorem settles_of_serves (h : ServesSeed build x r) : Settles build x r :=
  wp_mono h (fun _ _ hr => .inl (hr.1.lift' id fun _ _ => SeedMove.steps))
    fun _ _ hr => .inl (hr.lift' id fun _ _ => SeedMove.steps)

theorem settles_of_steps (steps : wp x (fun _ r' => Steps build false r r') (fun _ _ => False) r) :
    Settles build x r :=
  wp_mono steps (fun _ _ => .inl) fun _ _ never => never.elim

theorem settles_map {β : Type} {f : α → β} (h : Settles build x r) :
    Settles build (f <$> x) r := wp_map.2 h

theorem drawStamp_settles : Settles build drawStamp r := by
  unfold Settles drawStamp
  simp only [wp_bind, wp_get]
  cases drawn : r.causality.outcome with
  | none => exact .inl .refl
  | some draw =>
    obtain ⟨-, hl, -⟩ := CausalSequence.outcome_eq_some.1 drawn
    refine .inl (.single (.aside ?_))
    rw [hl]
    exact Nat.le_succ _

theorem host_settles (hk : r.Keyed) {c : ClusterCall} (ne : c ≠ .syncRouteFailures) :
    Settles build (host build c) r := by
  cases c with
  | installDirectory dir =>
    exact settles_map (settles_finish (tryInstallDirectory_acts dir))
  | submitRoute rt fx req now reply =>
    exact settles_map (settles_finish (trySubmitRoute_acts now reply rt fx req))
  | completeRouteResolution l out mk =>
    exact settles_map (settles_finish (tryCompleteRouteResolution_acts mk l out))
  | driveRouteInstalls mk drain now =>
    exact settles_map (settles_finish (tryDriveRouteInstalls_acts mk drain now hk))
  | syncRouteFailures => exact absurd rfl ne
  | expireRoute l now => exact settles_map (settles_of_steps (expireRoute_steps l now))
  | serviceFailedRoute l now =>
    exact settles_map (settles_finish (serviceFailedRoute_acts l now))
  | admitOneRoute l now reply =>
    exact settles_map (settles_finish (admitOneRoute_acts reply now l))
  | driveLane o reply =>
    exact settles_map (settles_finish (acts_of_calm (tryDriveLane_calm reply o)))
  | submitSeed req now reply =>
    have ha : Acts build (trySubmitSeed req now reply) (fun _ _ => True) r :=
      wp_mono (trySubmitSeed_spec reply now req) (fun _ _ h => ⟨h.steps, trivial⟩)
        fun _ _ => SeedSubmits.steps
    exact settles_map (settles_finish ha)
  | expireSeedWaiting now b =>
    exact settles_map (settles_of_serves (expireSeedWaiting_serves now b))
  | serviceSeedWaiting now replies =>
    exact settles_map (settles_finish (acts_of_serves (serviceSeedWaiting_serves now replies)))
  | installResolvedSeed mk seed =>
    exact settles_map (settles_finish (acts_of_calm (tryInstallResolvedSeed_calm mk seed)))
  | replaceResolvedSeed mk seed =>
    exact settles_map (settles_finish (acts_of_calm (tryReplaceResolvedSeed_calm mk seed)))
  | retryPendingResolvedSeed mk =>
    exact settles_map (settles_finish (acts_of_calm (tryRetryPendingResolvedSeed_calm mk)))
  | prepareSeedBootstrapRestart fenced drain =>
    exact settles_map
      (settles_finish (acts_of_calm (tryPrepareSeedBootstrapRestart_calm fenced drain)))
  | markSeedBootstrapResolutionOwned =>
    exact settles_map (settles_finish (acts_of_calm tryMarkSeedBootstrapResolutionOwned_calm))
  | beginClusterDrain drain =>
    exact settles_map (settles_finish (acts_of_calm (tryBeginClusterDrain_calm drain)))
  | stamp => exact settles_map drawStamp_settles

/-- What a call other than a sync can do. -/
theorem step_outcome (hk : r.Keyed) {c : ClusterCall} (ne : c ≠ .syncRouteFailures) :
    Outcome build r (step build r c).1 := by
  have hs : Settles build (host build c) r := host_settles hk ne
  unfold Settles wp at hs
  unfold step
  cases ran : host build c r with
  | ok ans r' | error e r' =>
    rw [ran] at hs
    exact hs

/-- What a sync does. -/
theorem step_sync (b : Build) (r : ClusterRuntime) :
    SyncedBy r.probes r (step b r .syncRouteFailures).1 ∨
      (∃ e, (step b r .syncRouteFailures).2 = .error e ∧
        SyncBroken r.probes r (step b r .syncRouteFailures).1) := by
  have spec : wp (host b .syncRouteFailures) (fun _ r' => SyncedBy r.probes r r')
      (fun _ r' => SyncBroken r.probes r r') r := wp_map.2 (syncRouteFailures_spec r)
  unfold wp at spec
  unfold step
  cases ran : host b .syncRouteFailures r with
  | ok ans r' =>
    rw [ran] at spec
    exact .inl spec
  | error e r' =>
    rw [ran] at spec
    exact .inr ⟨e, rfl, spec⟩

end ClusterRuntime

end KafkaDriver
