import KafkaDriver.CallTickets

/-!
# Queues of calls while lanes come and go

Families are published, retired and removed, lanes run and fail, seeds are replaced : none of
it decides the fate of a waiting call. `Untouched` says that the queues are as they were, and
that a route state that is gone was not advertised.

Publication takes route states out of the map, may remove another family, which drops states,
and starts lanes, which may fail. In between (`TakenOut`) the map is without the states that
are held. Whatever follows, a restore or a commit, the queues are untouched
(`publishPendingFamily_untouched`).
-/

namespace KafkaDriver

open Fallible List OrdMap Prod

/-- The states have the same queue and advertise the same. -/
def BrokerRouteState.SameQueue (state state' : BrokerRouteState) : Prop :=
  state'.waiting = state.waiting ∧ state'.advertised = state.advertised

theorem BrokerRouteState.SameQueue.trans {s s' s'' : BrokerRouteState} (h : s.SameQueue s')
    (h' : s'.SameQueue s'') : s.SameQueue s'' :=
  ⟨h'.1.trans h.1, h'.2.trans h.2⟩

namespace ClusterRuntime

abbrev RouteMap := OrdMap BrokerLane BrokerRouteState

/-! ## Route maps -/

/-- Outside of `out`, states of `m'` have the queues they have in `m`, and those that are gone
were not advertised. -/
structure Rests (out : List BrokerLane) (m m' : RouteMap) : Prop where
  kept : ∀ lane ∉ out, ∀ state', m'.get lane = some state' →
    ∃ state, m.get lane = some state ∧ state.SameQueue state'
  left : ∀ lane ∉ out, ∀ state, m.get lane = some state → m'.get lane = none →
    state.advertised = none

namespace Rests

variable {out : List BrokerLane} {m m' m'' : RouteMap}

theorem refl (out : List BrokerLane) (m : RouteMap) : Rests out m m where
  kept := fun _ _ st hg => ⟨st, hg, rfl, rfl⟩
  left := fun _ _ _ hg gone => nomatch hg.symm.trans gone

theorem trans (h : Rests out m m') (h' : Rests out m' m'') : Rests out m m'' where
  kept := by
    intro l hi state'' hg
    obtain ⟨st', hm, second⟩ := h'.kept l hi state'' hg
    obtain ⟨st, pre, first⟩ := h.kept l hi st' hm
    exact ⟨st, pre, first.trans second⟩
  left := by
    intro l hi st hg gone
    cases hm : m'.get l with
    | none => exact h.left l hi st hg hm
    | some st' =>
      obtain ⟨pre, hf, hs⟩ := h.kept l hi st' hm
      obtain rfl := Option.some.inj (hg.symm.trans hf)
      rw [← hs.2]
      exact h'.left l hi st' hm gone

/-- Every state changes in place. -/
theorem map {f : BrokerLane → BrokerRouteState → BrokerRouteState}
    (hs : ∀ (l : BrokerLane) (st : BrokerRouteState), st.SameQueue (f l st)) :
    Rests out m (m.map f) where
  kept := by
    intro l _ st' hg
    rw [get_map] at hg
    obtain ⟨st, pre, rfl⟩ := Option.map_eq_some_iff.1 hg
    exact ⟨st, pre, hs l st⟩
  left := by
    intro l _ st hg gone
    rw [get_map, hg] at gone
    cases gone

/-- One state is taken out. -/
theorem erase (h : Rests out m m') (lane : BrokerLane) :
    Rests (out ++ [lane]) m (m'.erase lane) where
  kept := by
    intro ne hi st' hg
    exact h.kept ne (fun hl => hi (mem_append_left _ hl)) st' (of_get_erase hg)
  left := by
    intro ne hi st hg gone
    have ha : ne ≠ lane := fun hs => hi (by simp [hs])
    rw [get_erase, if_neg ha] at gone
    exact h.left ne (fun hl => hi (mem_append_left _ hl)) st hg gone

/-- The states that were held back return with their queues. -/
theorem putBack {placed : List (BrokerLane × BrokerRouteState)}
    (h : Rests (placed.map Prod.fst) m m')
    (hn : (placed.map fst).Nodup)
    (hs : ∀ p ∈ placed, ∃ st, m.get p.1 = some st ∧ st.SameQueue p.2) :
    Rests [] m (m'.insertAll placed) where
  kept := by
    intro l _ st' hg
    by_cases mem : l ∈ placed.map fst
    · obtain ⟨p, hl, rfl⟩ := mem_map.1 mem
      rw [get_insertAll_of_mem hn hl] at hg
      cases hg
      exact hs p hl
    · rw [get_insertAll_of_not_mem mem] at hg
      exact h.kept l mem st' hg
  left := by
    intro l _ st hg gone
    by_cases mem : l ∈ placed.map fst
    · obtain ⟨p, hl, rfl⟩ := mem_map.1 mem
      rw [get_insertAll_of_mem hn hl] at gone
      cases gone
    · rw [get_insertAll_of_not_mem mem] at gone
      exact h.left l mem st hg gone

theorem dropRoutes (out : List BrokerLane) (m : RouteMap) (b : BrokerId) :
    Rests out m (ClusterRuntime.dropRoutes m b) where
  kept := by
    intro l _ st' hg
    unfold ClusterRuntime.dropRoutes at hg
    rw [get_map, get_filter] at hg
    obtain ⟨st, hf, rfl⟩ := Option.map_eq_some_iff.1 hg
    refine ⟨st, (Option.filter_eq_some_iff.1 hf).1, ?_⟩
    split_ifs <;> exact ⟨rfl, rfl⟩
  left := by
    intro l _ st hg gone
    unfold ClusterRuntime.dropRoutes at gone
    rw [get_map, Option.map_eq_none_iff, get_filter, hg] at gone
    by_contra shown
    simp [Option.filter, Option.isSome_iff_ne_none.2 shown] at gone

end Rests

/-! ## Runtimes -/

/-- No fate is decided and every queue is as it was. -/
structure Untouched (r r' : ClusterRuntime) : Prop where
  fates : r'.fates = r.fates
  seed : r'.seedWaiting = r.seedWaiting
  routes : Rests [] r.routes r'.routes

/-- The operation leaves the queues alone, whether it answers or fails. -/
abbrev Spares {α : Type} (x : Host α) (Q : α → ClusterRuntime → Prop) (r : ClusterRuntime) : Prop :=
  Moves Untouched Untouched x Q r

variable {build : Build} {r r' r'' : ClusterRuntime} {α : Type}

namespace Untouched

theorem refl (r : ClusterRuntime) : Untouched r r := ⟨rfl, rfl, .refl _ _⟩

theorem trans (h : Untouched r r') (h' : Untouched r' r'') : Untouched r r'' :=
  ⟨h'.fates.trans h.fates, h'.seed.trans h.seed, h.routes.trans h'.routes⟩

theorem of_eq (fs : r'.fates = r.fates) (seed : r'.seedWaiting = r.seedWaiting)
    (rs : r'.routes = r.routes) : Untouched r r' :=
  ⟨fs, seed, rs ▸ .refl _ _⟩

theorem of_steps (steps : Relation.ReflTransGen Untouched r r') : Untouched r r' :=
  steps_invariant (fun _ _ step pre => pre.trans step) steps (refl r)

theorem of_physical (ch : Physical r r') : Untouched r r' := by
  cases ch <;> exact of_eq rfl rfl rfl

theorem of_map {f : BrokerLane → BrokerRouteState → BrokerRouteState}
    (hs : ∀ (l : BrokerLane) (st : BrokerRouteState), st.SameQueue (f l st))
    (fs : r'.fates = r.fates) (seed : r'.seedWaiting = r.seedWaiting)
    (rs : r'.routes = r.routes.map f) : Untouched r r' :=
  ⟨fs, seed, rs ▸ .map hs⟩

theorem of_still (ch : Still r r') : Untouched r r' := by
  cases ch with
  | aside hl => exact of_eq rfl rfl rfl
  | physical ch => exact of_physical ch
  | drain =>
    rw [closeAdmission_eq]
    exact of_map (f := fun _ st =>
      { st with pendingInstall := none, lastDnsFailure := none, routeFailureAt := none })
      (fun _ _ => ⟨rfl, rfl⟩) rfl rfl rfl

theorem put {l : BrokerLane} {st st' : BrokerRouteState}
    (hf : r.routes.get l = some st) (hs : st.SameQueue st') :
    Untouched r { r with routes := r.routes.insert l st', fates := r.fates ++ [] } where
  fates := append_nil _
  seed := rfl
  routes := by
    have ht : Rests ([(l, st')].map fst) r.routes r.routes :=
      ⟨fun _ _ st hg => ⟨st, hg, rfl, rfl⟩, fun _ _ _ hg gone => nomatch hg.symm.trans gone⟩
    refine ht.putBack (nodup_singleton _) ?_
    intro p mem
    obtain rfl := mem_singleton.1 mem
    exact ⟨st, hf, hs⟩

end Untouched

variable {x : Host α} {Q : α → ClusterRuntime → Prop}

theorem spares_of_physical (h : Moves Physical Physical x Q r) : Spares x Q r :=
  h.lift (fun _ _ => .of_physical) fun _ _ => .of_physical

theorem spares_of_calm (h : Calm x Q r) : Spares x Q r :=
  h.lift (fun _ _ => .of_still) fun _ _ => .of_still

theorem Spares.wp (h : Spares x Q r) :
    wp x (fun _ r' => Untouched r r') (fun _ r' => Untouched r r') r :=
  wp_mono h (fun _ _ hr => .of_steps hr.1) fun _ _ hr => .of_steps hr

theorem spares_of_wp
    (h : Fallible.wp x (fun _ r' => Untouched r r') (fun _ r' => Untouched r r') r) :
    Spares x (fun _ _ => True) r :=
  .of_wp (wp_mono h (fun _ _ hk => ⟨hk, trivial⟩) fun _ _ hk => hk)

/-! ## Families -/

theorem removeTerminalFamily_untouched (b : BrokerId) (r : ClusterRuntime) :
    Spares (removeTerminalFamily b) (fun _ _ => True) r := by
  refine spares_of_wp (wp_mono (removeTerminalFamily_spec b r) ?_ ?_)
  · rintro _ _ (⟨-, rm, -, rfl⟩ | ⟨-, rfl⟩)
    · rw [removeLanes_eq]
      exact ⟨rfl, rfl, .dropRoutes [] r.routes b⟩
    · exact .refl _
  · rintro e _ rfl
    exact .refl _

variable (b : BrokerId) (ep : BrokerEndpoint) (demands : List RouteDemand)
  (mk : LaneFactory) (drain : DirectRefreshOwner → LaneReply) (o : DirectRefreshOwner)

theorem beginFamilyRetirement_untouched (r : ClusterRuntime) :
    Spares (beginFamilyRetirement b drain) (fun _ _ => True) r := by
  unfold beginFamilyRetirement
  refine .query_bind fun rm _ => .get_bind ?_
  split
  · exact .throw
  split_ifs
  · exact .pure trivial
  · refine .modify_bind le_rfl (.of_eq rfl rfl rfl) ?_
    refine .bind le_rfl (spares_of_physical (drainLanes_moves drain rm _)) ?_
    exact fun _ _ _ => .pure trivial

/-! ### States held back -/

/-- In `r'` the states of `owned` are held back, and everything else is as in `r`. -/
structure TakenOut (r : ClusterRuntime) (owned : List OwnedDemand) (r' : ClusterRuntime) :
    Prop where
  fates : r'.fates = r.fates
  seed : r'.seedWaiting = r.seedWaiting
  routes : Rests (owned.map OwnedDemand.lane) r.routes r'.routes
  nodup : (owned.map OwnedDemand.lane).Nodup
  absent : ∀ d ∈ owned, r'.routes.get d.lane = none
  held : ∀ d ∈ owned, ∃ state, r.routes.get d.lane = some state ∧ state.SameQueue d.state

variable {owned : List OwnedDemand}

theorem takenOut_nil (r : ClusterRuntime) : TakenOut r [] r :=
  ⟨rfl, rfl, .refl _ _, nodup_nil, by simp, by simp⟩

/-- States with the same queues are put into the place of those held back. -/
theorem TakenOut.putBack (h : TakenOut r owned r') {f : OwnedDemand → BrokerRouteState}
    (hs : ∀ d ∈ owned, d.state.SameQueue (f d)) :
    Rests [] r.routes (r'.routes.insertAll (owned.map fun d => (d.lane, f d))) := by
  have hn : (owned.map fun d => (d.lane, f d)).map fst = owned.map OwnedDemand.lane := by
    simp
  refine .putBack (hn ▸ h.routes) (hn ▸ h.nodup) fun p mem => ?_
  obtain ⟨d, hl, rfl⟩ := mem_map.1 mem
  obtain ⟨st, hf, first⟩ := h.held d hl
  exact ⟨st, hf, first.trans (hs d hl)⟩

theorem TakenOut.restore (h : TakenOut r owned r') : Untouched r (r'.restoreRouteStates owned) := by
  rw [restoreRouteStates_eq]
  exact ⟨h.fates, h.seed, h.putBack fun _ _ => ⟨rfl, rfl⟩⟩

theorem TakenOut.commit (h : TakenOut r owned r') (os : TrafficClass → DirectRefreshOwner)
    {lanes : List DirectLane} (hle : owned.length = lanes.length) :
    Untouched r (r'.commitPendingFamily b ep os owned lanes) := by
  rw [commitPendingFamily_eq _ _ _ _ _ _ hle]
  refine ⟨h.fates, h.seed, ?_⟩
  have hc : Rests (owned.map OwnedDemand.lane) r'.routes (r'.routes.map fun _ st =>
      if st.lane.brokerId = b then st.clearInstalled else st) := by
    refine .map fun _ st => ?_
    split_ifs <;> exact ⟨rfl, rfl⟩
  have between : TakenOut r owned { r' with
      routes := r'.routes.map fun _ st =>
        if st.lane.brokerId = b then st.clearInstalled else st } := by
    refine ⟨h.fates, h.seed, h.routes.trans hc, h.nodup, fun d hl => ?_, h.held⟩
    simp [h.absent d hl]
  exact between.putBack fun _ _ => ⟨rfl, rfl⟩

theorem TakenOut.physical (h : TakenOut r owned r') (steps : PhysicalSteps r' r'') :
    TakenOut r owned r'' := by
  have hs := Untouched.of_steps
    (Relation.ReflTransGen.mono (fun _ _ => Untouched.of_physical) _ _ steps)
  refine ⟨hs.fates.trans h.fates, hs.seed.trans h.seed, ?_, h.nodup, ?_, h.held⟩
  · rw [steps.routes_eq]
    exact h.routes
  · rw [steps.routes_eq]
    exact h.absent

/-- States are taken one after the other; if one cannot be, the others are put back. -/
theorem takeRouteStates_takenOut (owned : List OwnedDemand) (r' : ClusterRuntime)
    (h : TakenOut r owned r') :
    wp (takeRouteStates demands owned)
      (fun all r'' => TakenOut r all r'' ∧ all.length = owned.length + demands.length)
      (fun _ r'' => Untouched r r'') r' := by
  induction demands generalizing owned r' with
  | nil => exact ⟨h, rfl⟩
  | cons demand rest ih =>
    unfold takeRouteStates
    simp only [wp_bind, wp_get]
    cases found : r'.routes.get demand.lane with
    | none => exact h.restore
    | some st =>
      dsimp only
      split_ifs
      · rw [wp_bind, wp_modify]
        have hf : demand.lane ∉ owned.map OwnedDemand.lane := by
          intro hl
          obtain ⟨d, mem, hs⟩ := mem_map.1 hl
          rw [← hs, h.absent d mem] at found
          cases found
        have next : TakenOut r (owned ++ [⟨demand.lane, demand.pending, st⟩])
            { r' with routes := r'.routes.erase demand.lane } := by
          refine ⟨h.fates, h.seed, ?_, ?_, ?_, ?_⟩
          · rw [map_append]
            exact h.routes.erase demand.lane
          · rw [map_append]
            exact nodup_append_comm.1 (nodup_cons.2 ⟨hf, h.nodup⟩)
          · intro d mem
            rw [get_erase]
            split_ifs with hs
            · rfl
            · rcases mem_append.1 mem with pre | last
              · exact h.absent d pre
              · obtain rfl := mem_singleton.1 last
                exact absurd rfl hs
          · intro d mem
            rcases mem_append.1 mem with pre | last
            · exact h.held d pre
            · obtain rfl := mem_singleton.1 last
              exact h.routes.kept demand.lane hf st found
        refine wp_mono (ih _ _ next) ?_ fun _ _ hk => hk
        rintro all r'' ⟨out, n⟩
        refine ⟨out, ?_⟩
        simp only [length_append, length_cons, length_nil] at n ⊢
        omega
      · exact h.restore

/-- The family that makes room takes no queue with it. -/
theorem removeRetired_takenOut (retired : Option BrokerId) (h : TakenOut r owned r') :
    wp (removeRetired b retired owned) (fun owned' r'' => TakenOut r owned' r'')
      (fun _ r'' => Untouched r r'') r' := by
  unfold removeRetired
  cases retired with
  | none => exact h
  | some v =>
    simp only [wp_bind, wp_onError]
    refine wp_mono (removeTerminalFamily_spec v r') ?_ ?_
    · rintro _ _ (⟨rfl, rm, -, rfl⟩ | ⟨rfl, rfl⟩)
      · have hd : TakenOut r owned ((r'.removeLanes rm).dropFamily v) := by
          rw [removeLanes_eq]
          refine ⟨h.fates, h.seed, h.routes.trans (.dropRoutes _ _ v), h.nodup, ?_, h.held⟩
          intro d hl
          change (dropRoutes r'.routes v).get d.lane = none
          simp [dropRoutes, h.absent d hl]
        simp only [if_true]
        split_ifs
        · have lanes : (owned.map fun d : OwnedDemand =>
              { d with state := d.state.clearInstalled }).map OwnedDemand.lane =
                owned.map OwnedDemand.lane := by simp [Function.comp_def]
          refine ⟨hd.fates, hd.seed, lanes ▸ hd.routes, lanes ▸ hd.nodup, ?_, ?_⟩
          · intro d mem
            obtain ⟨d, hl, rfl⟩ := mem_map.1 mem
            exact hd.absent d hl
          · intro d mem
            obtain ⟨d, hl, rfl⟩ := mem_map.1 mem
            exact hd.held d hl
        · exact hd
      · simp only [Bool.false_eq_true, if_false]
        exact h.restore
    · rintro e _ rfl
      exact h.restore

section

variable (r)

/-- A family is published or not, and no queue changes : from any state, for any demands, and
wherever the plan or a lane fails. -/
theorem publishPendingFamily_untouched (retired : Option BrokerId) :
    Spares (publishPendingFamily b retired ep demands mk) (fun _ _ => True) r := by
  unfold publishPendingFamily
  refine .query_bind fun _ _ => ?_
  split_ifs
  · refine spares_of_wp ?_
    simp only [wp_bind]
    refine wp_mono (takeRouteStates_takenOut demands [] r (takenOut_nil r)) ?_ fun _ _ hk => hk
    rintro owned r₁ ⟨out, -⟩
    simp only [wp_bind, wp_onError, wp_map]
    refine wp_mono (reserveEndpointLanes_spec 4 r₁) ?_ ?_
    · rintro os _ ⟨ids, -, rfl⟩
      have out : TakenOut r owned { r₁ with identities := ids } :=
        ⟨out.fates, out.seed, out.routes, out.nodup, out.absent, out.held⟩
      simp only [wp_bind, wp_get]
      split
      · exact out.restore
      simp only [wp_bind]
      refine wp_mono (removeRetired_takenOut b retired out) ?_ fun _ _ hk => hk
      intro owned' r₂ ho'
      simp only [wp_bind, wp_onError]
      refine wp_mono (startPendingLanes_spec r₂ owned' mk _) ?_ ?_
      · rintro lanes _ ⟨rfl, hn⟩
        refine ho'.commit b ep _ ?_
        simpa using (congrArg length hn).symm
      · rintro e _ rfl
        exact ho'.restore
    · rintro e _ rfl
      exact out.restore
  · exact .throw

theorem activatePendingLanes_untouched :
    Spares (activatePendingLanes demands mk) (fun _ _ => True) r := by
  unfold activatePendingLanes
  cases demands with
  | nil => exact .pure trivial
  | cons demand rest =>
    refine spares_of_wp ?_
    simp only [wp_bind]
    refine wp_mono (takeRouteStates_takenOut [demand] [] r (takenOut_nil r)) ?_ fun _ _ hk => hk
    rintro owned r₁ ⟨out, n⟩
    obtain ⟨d, rfl⟩ := length_eq_one_iff.1 n
    simp only [wp_bind, wp_onError]
    refine wp_mono (activateResolvedLane_moves mk d.lane d.pending.endpoint r₁) ?_ ?_
    · rintro o r₂ ⟨steps, -⟩
      have ho' := out.physical steps
      refine ⟨(append_nil _).trans ho'.fates, ho'.seed, ?_⟩
      exact ho'.putBack (f := fun d => d.state.markInstalled d.pending.route d.pending.endpoint o)
        fun _ _ => ⟨rfl, rfl⟩
    · intro e r₂ steps
      exact (out.physical steps).restore

/-! ### Which family is next -/

theorem reapRetiringFamily_untouched : Spares (reapRetiringFamily b) (fun _ _ => True) r := by
  unfold reapRetiringFamily
  refine .get_bind ?_
  split
  · exact .pure trivial
  split_ifs
  · refine .query_bind fun _ _ => ?_
    split_ifs
    · exact removeTerminalFamily_untouched b r
    · exact .pure trivial
  · exact .pure trivial

theorem reconcileStaleFamily_untouched (f : BrokerFamily) :
    Spares (reconcileStaleFamily b f ep demands mk drain) (fun _ _ => True) r := by
  unfold reconcileStaleFamily
  split_ifs
  · exact beginFamilyRetirement_untouched b drain r
  · refine .query_bind fun _ _ => ?_
    split
    · exact removeTerminalFamily_untouched b r
    · exact .pure trivial
  · refine .query_bind fun _ _ => ?_
    split
    · exact publishPendingFamily_untouched r b ep demands mk _
    · exact .pure trivial

theorem reconcileNewFamily_untouched :
    Spares (reconcileNewFamily b ep demands mk drain) (fun _ _ => True) r := by
  unfold reconcileNewFamily
  refine .get_bind ?_
  split_ifs
  · exact .pure trivial
  · exact publishPendingFamily_untouched r b ep demands mk none
  refine .query_bind fun victim? _ => ?_
  cases victim? with
  | none => exact .throw
  | some victim =>
    dsimp only
    split_ifs
    · refine .query_bind fun _ _ => ?_
      split_ifs
      · exact publishPendingFamily_untouched r b ep demands mk _
      · exact .pure trivial
    · exact beginFamilyRetirement_untouched victim drain r

theorem nextRouteInstallBroker_untouched : Spares nextRouteInstallBroker (fun _ _ => True) r := by
  unfold nextRouteInstallBroker
  refine .get_bind ?_
  dsimp only
  split
  · exact spares_of_wp (.of_eq rfl rfl rfl)
  · split
    · exact .pure trivial
    · exact spares_of_wp (.of_eq rfl rfl rfl)

theorem currentRouteDemands_untouched (now : Moment) :
    Spares (currentRouteDemands b now) (fun _ _ => True) r := by
  unfold currentRouteDemands
  refine .query_bind fun found _ => .modify_bind le_rfl ?_ (.pure trivial)
  refine .of_map (f := fun l st =>
    if l ∈ found.stale then { st with pendingInstall := none } else st) ?_ rfl rfl rfl
  intro l st
  split_ifs <;> exact ⟨rfl, rfl⟩

theorem tryDriveRouteInstalls_untouched (now : Moment) :
    Spares (tryDriveRouteInstalls mk drain now) (fun _ _ => True) r := by
  unfold tryDriveRouteInstalls
  refine .bind le_rfl (nextRouteInstallBroker_untouched r) fun broker? r₁ _ => ?_
  cases broker? with
  | none => exact .pure trivial
  | some b =>
    refine .bind le_rfl (currentRouteDemands_untouched r₁ b now) fun found r₂ _ => ?_
    obtain ⟨tgt, demands⟩ := found
    cases tgt with
    | none => exact reapRetiringFamily_untouched r₂ b
    | some ep =>
      dsimp only
      unfold reconcileRouteFamily
      refine .get_bind ?_
      split
      · split_ifs
        · exact reconcileStaleFamily_untouched r₂ b ep demands mk drain _
        · exact activatePendingLanes_untouched r₂ demands mk
      · exact reconcileNewFamily_untouched r₂ b ep demands mk drain

/-! ## Lanes and resolutions -/

theorem installResolution_untouched (l : BrokerLane) (p : PendingInstall) :
    Spares (installResolution l p mk) (fun _ _ => True) r := by
  unfold installResolution
  refine .get_bind ?_
  cases found : r.routes.get l with
  | none => exact .pure trivial
  | some st =>
    dsimp only
    split_ifs
    · exact .modify_bind le_rfl (.put found ⟨rfl, rfl⟩) (.pure trivial)
    · refine .query_bind fun o? _ => ?_
      cases o? with
      | some o =>
        simp only [pure_bind]
        exact .modify_bind le_rfl (.put found ⟨rfl, rfl⟩) (.pure trivial)
      | none =>
        have hse : Spares (activateResolvedLane l p.endpoint mk)
            (fun _ r' => r'.routes = r.routes) r := by
          refine wp_mono (activateResolvedLane_moves mk l p.endpoint r) ?_ ?_
          · rintro o r' ⟨steps, -⟩
            exact ⟨Relation.ReflTransGen.mono (fun _ _ => .of_physical) _ _ steps,
              PhysicalSteps.routes_eq steps⟩
          · intro e r' steps
            exact Relation.ReflTransGen.mono (fun _ _ => .of_physical) _ _ steps
        refine .bind le_rfl hse fun o r' hs => ?_
        rw [← hs] at found
        exact .modify_bind le_rfl (.put found ⟨rfl, rfl⟩) (.pure trivial)
    · exact .pure trivial

end

/-- A sync writes no queue. -/
theorem Probed.untouched {ch : RouteSync} (h : Probed ch r.probes r r')
    (hq : ∀ {lo hi broker st st'}, ch lo hi broker st st' → Quiet st st') :
    Untouched r r' where
  fates := by rw [h.frame]
  seed := by rw [h.frame]
  routes := by
    refine ⟨fun l _ st' hg => ?_, fun l _ st hg gone => ?_⟩
    · obtain ⟨st, pre, hs⟩ := h.origin hq hg
      refine ⟨st, pre, ?_⟩
      rw [hs]
      exact ⟨rfl, rfl⟩
    · obtain ⟨st', post, -⟩ := h.changed _ (mem_probes hg) st hg
      rw [gone] at post
      cases post

variable (r)

theorem syncRouteFailures_untouched : Spares syncRouteFailures (fun _ _ => True) r := by
  refine spares_of_wp (wp_mono (syncRouteFailures_spec r) ?_ ?_)
  · exact fun _ _ hs => Probed.untouched hs SyncedRoute.quiet
  · exact fun _ _ broken => Probed.untouched broken.1 InterruptedRoute.quiet

theorem drawStamp_untouched : Spares drawStamp (fun _ _ => True) r := by
  unfold drawStamp
  refine .get_bind ?_
  split
  · exact .throw
  · exact spares_of_wp (.of_eq rfl rfl rfl)

end ClusterRuntime

end KafkaDriver
