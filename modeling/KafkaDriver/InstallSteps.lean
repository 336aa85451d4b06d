import KafkaDriver.ClusterSteps

/-!
# Installation as a sequence of changes

`driveRouteInstalls` takes the states of the routes it serves out of the map, changes
families and lanes, and puts the states back whether it succeeds or fails. Seen from outside
the states never left : the whole is a removal, a publication and the installation of the
routes, one after the other.

A search for demands looks up route states by broker, so the lemmas ask that every state
stands under its own lane (`Keyed`).
-/

namespace KafkaDriver

open Fallible List OrdMap

namespace ClusterRuntime

variable {build : Build} {r r' : ClusterRuntime}

/-! ## Demands -/

/-- Every route state stands under its own lane. -/
def Keyed (r : ClusterRuntime) : Prop :=
  ∀ lane state, r.routes.get lane = some state → state.lane = lane

/-- The pending installation asks for what its route and the directory advertise. -/
def Current (r : ClusterRuntime) (state : BrokerRouteState) (pending : PendingInstall) : Prop :=
  state.pendingInstall = some pending ∧
    state.advertised = some ⟨pending.route, pending.endpoint⟩ ∧
    r.routeIsCurrent pending.route pending.endpoint = true

/-- What the search for the demands of a broker adds to `init` from `entries`. -/
structure Collected (r : ClusterRuntime) (b : BrokerId)
    (entries : List (BrokerLane × BrokerRouteState)) (init found : RouteDemands) : Prop where
  stale : ∀ lane ∈ found.stale, lane ∈ init.stale ∨ ∃ state pending, (lane, state) ∈ entries ∧
    state.pendingInstall = some pending ∧
    (state.advertises pending.route pending.endpoint = false ∨
      r.routeIsCurrent pending.route pending.endpoint = false)
  kept : ∀ endpoint, init.target = some endpoint → found.target = some endpoint
  target : ∀ endpoint, found.target = some endpoint → init.target = some endpoint ∨
    ∃ lane state pending, (lane, state) ∈ entries ∧ lane.brokerId = b ∧
      r.Current state pending ∧ pending.endpoint = endpoint
  demands : ∃ ds, found.demands = init.demands ++ ds ∧
    (ds.map RouteDemand.lane).Sublist (entries.map Prod.fst) ∧
    ∀ d ∈ ds, found.target = some d.pending.endpoint ∧ d.lane.brokerId = b ∧
      ∃ state, (d.lane, state) ∈ entries ∧ r.Current state d.pending

variable {b : BrokerId} {entries : List (BrokerLane × BrokerRouteState)} {init found : RouteDemands}
  {state : BrokerRouteState} {m : OrdMap BrokerLane BrokerRouteState} {demands : List RouteDemand}
  {endpoint : BrokerEndpoint} {owned : List OwnedDemand} {ids : BorneraIdentityAllocator}
  {retire : Option BrokerId}

theorem Collected.skip (h : r.Collected b entries init found) (e : BrokerLane × BrokerRouteState) :
    r.Collected b (e :: entries) init found where
  stale := by
    intro l mem
    refine (h.stale l mem).imp id ?_
    rintro ⟨st, p, hg, rest⟩
    exact ⟨st, p, mem_cons_of_mem e hg, rest⟩
  kept := h.kept
  target := by
    intro ep hc
    refine (h.target ep hc).imp id ?_
    rintro ⟨l, st, p, hg, rest⟩
    exact ⟨l, st, p, mem_cons_of_mem e hg, rest⟩
  demands := by
    obtain ⟨ds, ha, sublist, each⟩ := h.demands
    refine ⟨ds, ha, sublist.trans (sublist_cons_self _ _), fun d mem => ?_⟩
    obtain ⟨hc, broker, st, hg, rest⟩ := each d mem
    exact ⟨hc, broker, st, mem_cons_of_mem e hg, rest⟩

/-- A current pending installation names the target, and is a demand if a call still waits. -/
theorem Collected.choose {l : BrokerLane} {p : PendingInstall} {added : List RouteDemand}
    (h : r.Collected b entries
      { init with target := some p.endpoint, demands := init.demands ++ added } found)
    (broker : l.brokerId = b) (cur : r.Current state p)
    (hs : ∀ endpoint, init.target = some endpoint → endpoint = p.endpoint)
    (one : added.Sublist [⟨l, p⟩]) :
    r.Collected b ((l, state) :: entries) init found := by
  have hc : found.target = some p.endpoint := h.kept _ rfl
  refine ⟨(h.skip _).stale, ?_, ?_, ?_⟩
  · intro endpoint pre
    rw [hc, hs endpoint pre]
  · intro endpoint post
    rw [hc] at post
    cases post
    exact .inr ⟨l, state, p, mem_cons_self, broker, cur, rfl⟩
  · obtain ⟨ds, had, sublist, each⟩ := h.demands
    refine ⟨added ++ ds, by simpa using had, ?_, ?_⟩
    · rw [map_append]
      exact (one.map RouteDemand.lane).append sublist
    · intro d mem
      rcases mem_append.1 mem with here | hl
      · obtain rfl := mem_singleton.1 (one.subset here)
        exact ⟨hc, broker, state, mem_cons_self, cur⟩
      · obtain ⟨goal, broker', st', hg, rest⟩ := each d hl
        exact ⟨goal, broker', st', mem_cons_of_mem _ hg, rest⟩

theorem collectDemands_ok {now : Moment} (ok : r.collectDemands b now entries init = .ok found) :
    r.Collected b entries init found := by
  induction entries generalizing init with
  | nil =>
    cases ok
    exact ⟨fun _ => .inl, fun _ => id, fun _ => .inl, [], by simp⟩
  | cons e entries ih =>
    obtain ⟨lane, st⟩ := e
    unfold collectDemands at ok
    split at ok
    · exact (ih ok).skip _
    rename_i pend hw
    split_ifs at ok with ne hu hd live
    · exact (ih ok).skip _
    · -- the pending installation is stale
      have rest := ih ok
      refine ⟨?_, rest.kept, (rest.skip (lane, st)).target, (rest.skip (lane, st)).demands⟩
      intro x mem
      rcases (rest.skip (lane, st)).stale x mem with pre | hl
      · rcases mem_append.1 pre with pre | here
        · exact .inl pre
        · obtain rfl := mem_singleton.1 here
          refine .inr ⟨st, pend, mem_cons_self, hw, ?_⟩
          simpa using hu
      · exact .inr hl
    all_goals
      have cur : r.Current st pend := by
        simp only [Bool.or_eq_true, Bool.not_eq_true', not_or, Bool.not_eq_false] at hu
        exact ⟨hw, of_decide_eq_true hu.1, hu.2⟩
      have hs : ∀ ep, init.target = some ep → ep = pend.endpoint := by
        intro ep pre
        simpa [pre] using hd
    · exact (ih ok).choose (not_not.1 ne) cur hs (.refl _)
    · refine (ih ?_).choose (not_not.1 ne) cur hs (nil_sublist _)
      rw [append_nil]
      exact ok

/-- The demands of a broker at an endpoint, each pending in the state of its own route. -/
structure Demanded (r : ClusterRuntime) (b : BrokerId) (endpoint : BrokerEndpoint)
    (demands : List RouteDemand) : Prop where
  nodup : (demands.map RouteDemand.lane).Nodup
  pends : ∀ d ∈ demands, d.lane.brokerId = b ∧ d.pending.endpoint = endpoint ∧
    ∃ state, r.routes.get d.lane = some state ∧ state.lane = d.lane ∧
      state.pendingInstall = some d.pending ∧
      state.advertised = some ⟨d.pending.route, d.pending.endpoint⟩

/-- A current route of the broker asks for the endpoint. -/
def Targets (r : ClusterRuntime) (b : BrokerId) (endpoint : BrokerEndpoint) : Prop :=
  ∃ lane state current, r.routes.get lane = some state ∧ lane.brokerId = b ∧
    state.advertised = some current ∧ current.endpoint = endpoint

theorem currentRouteDemands_acts (b : BrokerId) (now : Moment) (hke : r.Keyed) :
    Acts build (currentRouteDemands b now)
      (fun found r' => r'.families = r.families ∧ ∀ endpoint, found.1 = some endpoint →
        r'.Targets b endpoint ∧ r'.Demanded b endpoint found.2) r := by
  unfold currentRouteDemands
  refine .query_bind fun found ok => ?_
  have hc := collectDemands_ok ok
  have hst : ∀ l ∈ found.stale, ∀ st p, r.routes.get l = some st → st.pendingInstall = some p →
      st.advertises p.route p.endpoint = false ∨ r.routeIsCurrent p.route p.endpoint = false := by
    intro l mem st p hg hw
    rcases hc.stale l mem with absent | ⟨st', pend', e, waits', hu⟩
    · cases absent
    · obtain rfl := Option.some.inj (hg.symm.trans (get_eq_some.2 e))
      obtain rfl := Option.some.inj (hw.symm.trans waits')
      exact hu
  -- a route with a current pending installation is not stale, so it keeps it
  have hk : ∀ l st p, r.routes.get l = some st → r.Current st p →
      (r.clearPending found.stale).routes.get l = some st := by
    intro l st p hg cur
    have hf : l ∉ found.stale := by
      intro mem
      rcases hst l mem st p hg cur.1 with hu | hu
      · simp [BrokerRouteState.advertises, cur.2.1] at hu
      · simp [cur.2.2] at hu
    simp [clearPending, hg, hf]
  refine .modify_bind change_le (.discard hst) (.pure ⟨rfl, fun endpoint hch => ⟨?_, ?_⟩⟩)
  · rcases hc.target endpoint hch with absent | ⟨l, st, p, e, broker, cur, hs⟩
    · cases absent
    · exact ⟨l, st, _, hk l st p (get_eq_some.2 e) cur, broker, cur.2.1, hs⟩
  · obtain ⟨ds, ha, sublist, each⟩ := hc.demands
    obtain rfl : found.demands = ds := by simpa using ha
    refine ⟨r.routes.nodup_keys.sublist sublist, fun d mem => ?_⟩
    obtain ⟨hs, broker, st, e, cur⟩ := each d mem
    have hg := get_eq_some.2 e
    refine ⟨broker, Option.some.inj (hs.symm.trans hch), st, ?_⟩
    exact ⟨hk d.lane st d.pending hg cur, hke d.lane st hg, cur.1, cur.2.1⟩

/-! ## Taking route states out -/

/-- The runtime without the states of some lanes. -/
def withhold (r : ClusterRuntime) (lanes : List BrokerLane) : ClusterRuntime :=
  { r with routes := r.routes.filter fun lane _ => lane ∉ lanes }

theorem get_withhold (m : OrdMap BrokerLane BrokerRouteState) (lanes : List BrokerLane)
    (lane : BrokerLane) :
    (m.filter fun lane _ => lane ∉ lanes).get lane = if lane ∈ lanes then none else m.get lane := by
  rw [get_filter]
  cases m.get lane with
  | none => simp
  | some st => by_cases mem : lane ∈ lanes <;> simp [mem]

/-- Lane and state of each taken demand. -/
def taken (owned : List OwnedDemand) : List (BrokerLane × BrokerRouteState) :=
  owned.map fun d => (d.lane, d.state)

section

variable (owned)

theorem restoreRouteStates_eq (r : ClusterRuntime) :
    r.restoreRouteStates owned = { r with routes := r.routes.insertAll (taken owned) } := by
  unfold restoreRouteStates insertAll taken
  rw [foldl_map]

theorem map_fst_taken : (taken owned).map Prod.fst = owned.map OwnedDemand.lane := by simp [taken]

/-- Putting back what was taken restores the map. -/
theorem insertAll_withhold (hn : (owned.map OwnedDemand.lane).Nodup)
    (hg : ∀ d ∈ owned, m.get d.lane = some d.state) :
    (m.filter fun l _ => l ∉ owned.map OwnedDemand.lane).insertAll (taken owned) = m := by
  refine ext_get fun l => ?_
  by_cases mem : l ∈ owned.map OwnedDemand.lane
  · obtain ⟨d, hl, rfl⟩ := mem_map.1 mem
    rw [hg d hl]
    have e : (d.lane, d.state) ∈ taken owned := mem_map.2 ⟨d, hl, rfl⟩
    exact get_insertAll_of_mem (by rwa [map_fst_taken]) e _
  · rw [get_insertAll_of_not_mem (by rwa [map_fst_taken]), get_withhold, if_neg mem]

/-- The demands of `Demanded` are all there to be taken. -/
theorem takeRouteStates_spec (hn : (demands.map RouteDemand.lane).Nodup)
    (hp : ∀ d ∈ demands, ∃ state, r.routes.get d.lane = some state ∧
      state.pendingInstall = some d.pending) :
    wp (takeRouteStates demands owned)
      (fun all r' => ∃ more, all = owned ++ more ∧
        more.map (fun d => RouteDemand.mk d.lane d.pending) = demands ∧
        (∀ d ∈ more, r.routes.get d.lane = some d.state) ∧
        r' = r.withhold (more.map OwnedDemand.lane))
      (fun _ _ => False) r := by
  induction demands generalizing r owned with
  | nil =>
    have hs : (r.routes.filter fun lane _ => lane ∉ ([] : List BrokerLane)) = r.routes := by
      refine ext_get fun lane => ?_
      rw [get_withhold, if_neg not_mem_nil]
    refine ⟨[], by simp, rfl, by simp, ?_⟩
    rw [map_nil, withhold, hs]
  | cons demand rest ih =>
    obtain ⟨hf, hn⟩ := nodup_cons.1 hn
    obtain ⟨state, hg, hw⟩ := hp demand mem_cons_self
    have hp' : ∀ d ∈ rest, ∃ state,
        (r.routes.erase demand.lane).get d.lane = some state ∧
          state.pendingInstall = some d.pending := by
      intro d mem
      obtain ⟨state, hg, hw⟩ := hp d (mem_cons_of_mem _ mem)
      have ne : d.lane ≠ demand.lane := fun hs =>
        hf (hs ▸ mem_map_of_mem mem)
      exact ⟨state, by rw [get_erase, if_neg ne, hg], hw⟩
    unfold takeRouteStates
    simp only [wp_bind, wp_get, hg, hw, if_true, wp_modify]
    refine wp_mono (ih _ hn hp') ?_ fun _ _ never => never
    rintro all _ ⟨more, rfl, hs, states, rfl⟩
    refine ⟨⟨demand.lane, demand.pending, state⟩ :: more, by simp, by simp [hs], ?_, ?_⟩
    · intro d mem
      rcases mem_cons.1 mem with rfl | hl
      · exact hg
      · exact of_get_erase (states d hl)
    · have rts : ((r.routes.erase demand.lane).filter fun lane _ =>
          lane ∉ more.map OwnedDemand.lane) = r.routes.filter fun lane _ =>
            lane ∉ demand.lane :: more.map OwnedDemand.lane := by
        refine ext_get fun lane => ?_
        rw [get_withhold, get_withhold, get_erase]
        by_cases here : lane = demand.lane <;> simp [here]
      simp only [withhold, rts, map_cons]

end

/-! ## A lane for the first demand -/

variable (mk : LaneFactory) (owners : TrafficClass → DirectRefreshOwner)
  (drain : DirectRefreshOwner → LaneReply)

theorem activatePendingLanes_acts (hd : r.Demanded b endpoint demands) :
    Acts build (activatePendingLanes demands mk) (fun _ _ => True) r := by
  unfold activatePendingLanes
  cases demands with
  | nil => exact .pure trivial
  | cons demand rest =>
    obtain ⟨-, -, st, hg, -, hw, cur⟩ := hd.pends demand mem_cons_self
    have hp : ∀ d ∈ [demand], ∃ st, r.routes.get d.lane = some st ∧
        st.pendingInstall = some d.pending := by
      intro d mem
      obtain rfl := mem_singleton.1 mem
      exact ⟨st, hg, hw⟩
    unfold Acts Moves
    simp only [wp_bind]
    refine wp_mono (takeRouteStates_spec [] (nodup_singleton _) hp) ?_ fun _ _ never => never.elim
    rintro all _ ⟨more, rfl, hl, states, rfl⟩
    obtain ⟨d, rfl, hs⟩ := map_eq_singleton_iff.1 hl
    obtain rfl : demand = ⟨d.lane, d.pending⟩ := hs.symm
    have hk : r.routes.get d.lane = some d.state := states d mem_cons_self
    obtain rfl := Option.some.inj (hg.symm.trans hk)
    have hr : ∀ r₂, PhysicalSteps (r.withhold [d.lane]) r₂ →
        r₂.routes.insertAll (taken [d]) = r.routes := by
      intro r₂ steps
      rw [steps.routes_eq]
      exact insertAll_withhold [d] (nodup_singleton _) states
    simp only [map_cons, map_nil, wp_bind, wp_onError]
    refine wp_mono (activateResolvedLane_moves mk d.lane d.pending.endpoint _) ?_ ?_
    · rintro o r₂ ⟨steps, hse⟩
      have hm : PhysicalSteps r { r₂ with routes := r.routes } :=
        PhysicalSteps.frame steps r.routes
      have last : Change build false { r₂ with routes := r.routes }
          { r₂ with
            routes := r.routes.insert d.lane
              (d.state.markInstalled d.pending.route d.pending.endpoint o)
            fates := r₂.fates ++ [] } := .route hk (.install cur hse)
      have hs : r₂.routes.insert d.lane
          (d.state.markInstalled d.pending.route d.pending.endpoint o) =
            r.routes.insert d.lane
              (d.state.markInstalled d.pending.route d.pending.endpoint o) := by
        rw [← hr r₂ steps]
        exact (insert_insert _ _ _ _).symm
      refine ⟨hm.steps.tail ?_, trivial⟩
      dsimp only
      rw [hs]
      exact last
    · intro e r₂ steps
      rw [restoreRouteStates_eq, hr r₂ steps]
      exact (PhysicalSteps.frame steps r.routes).steps

/-! ## A new family -/

/-- Demands whose states were taken out of `r`. -/
structure Taken (r : ClusterRuntime) (b : BrokerId) (endpoint : BrokerEndpoint)
    (owned : List OwnedDemand) : Prop where
  nodup : (owned.map OwnedDemand.lane).Nodup
  held : ∀ d ∈ owned, r.routes.get d.lane = some d.state
  asks : ∀ d ∈ owned, d.lane.brokerId = b ∧ d.pending.endpoint = endpoint ∧
    d.state.lane = d.lane ∧ d.state.advertised = some ⟨d.pending.route, d.pending.endpoint⟩

theorem Taken.restore (h : r.Taken b endpoint owned) :
    (r.withhold (owned.map OwnedDemand.lane)).routes.insertAll (taken owned) = r.routes :=
  insertAll_withhold owned h.nodup h.held

/-- What `dropFamily` leaves of the routes. -/
def dropRoutes (m : OrdMap BrokerLane BrokerRouteState) (b : BrokerId) :
    OrdMap BrokerLane BrokerRouteState :=
  (m.filter fun lane state => lane.brokerId ≠ b ∨ state.advertised.isSome).map fun _ state =>
    if state.lane.brokerId = b then state.clearInstalled else state

theorem get_dropRoutes {l : BrokerLane} (hg : m.get l = some state)
    (cur : state.advertised.isSome = true) :
    (dropRoutes m b).get l =
      some (if state.lane.brokerId = b then state.clearInstalled else state) := by
  simp [dropRoutes, hg, cur]

theorem dropRoutes_withhold (m : OrdMap BrokerLane BrokerRouteState) (b : BrokerId)
    (lanes : List BrokerLane) :
    dropRoutes (m.filter fun l _ => l ∉ lanes) b =
      (dropRoutes m b).filter fun l _ => l ∉ lanes := by
  refine ext_get fun l => ?_
  rw [get_withhold]
  unfold dropRoutes
  rw [get_map, get_filter, get_withhold, get_map, get_filter]
  split_ifs <;> rfl

/-- After the family that makes room is gone, the states taken out are those of the runtime
without it. -/
theorem Taken.dropFamily {v : BrokerId} (h : r.Taken b endpoint owned)
    (rm : List (ℕ × DirectRefreshOwner)) :
    ((r.removeLanes rm).dropFamily v).Taken b endpoint
      (if v = b then owned.map fun d => { d with state := d.state.clearInstalled } else owned) := by
  have rs : ((r.removeLanes rm).dropFamily v).routes = dropRoutes r.routes v := by
    rw [removeLanes_eq]
    rfl
  have state : ∀ d ∈ owned, (dropRoutes r.routes v).get d.lane =
      some (if v = b then d.state.clearInstalled else d.state) := by
    intro d mem
    obtain ⟨broker, -, own, cur⟩ := h.asks d mem
    rw [get_dropRoutes (h.held d mem) (by simp [cur]), own, broker]
    simp only [eq_comm]
  by_cases same : v = b
  · rw [if_pos same]
    refine ⟨?_, ?_, ?_⟩
    · simpa [Function.comp_def] using h.nodup
    · intro d mem
      obtain ⟨d, hl, rfl⟩ := mem_map.1 mem
      rw [rs, state d hl, if_pos same]
    · intro d mem
      obtain ⟨d, hl, rfl⟩ := mem_map.1 mem
      exact h.asks d hl
  · rw [if_neg same]
    refine ⟨h.nodup, fun d mem => ?_, h.asks⟩
    rw [rs, state d mem, if_neg same]

section

variable (r b owned)

theorem startPendingLanes_spec :
    wp (startPendingLanes mk owners owned)
      (fun lanes r' => r' = r ∧ lanes.map DirectLane.owner =
        (owned.map fun d => d.lane.trafficClass).map owners)
      (fun _ r' => r' = r) r := by
  induction owned with
  | nil => exact ⟨rfl, rfl⟩
  | cons d owned ih =>
    unfold startPendingLanes
    simp only [wp_bind]
    refine wp_mono (startClusterLane_spec mk _ r) ?_ fun _ _ hs => hs
    rintro l _ ⟨rfl, o⟩
    refine wp_bind.2 (wp_mono ih ?_ fun _ _ hs => hs)
    rintro lanes _ ⟨rfl, hn⟩
    exact ⟨rfl, by simp [o, hn]⟩

/-- Lane and new state of each demand a family was published for. -/
def installed (owners : TrafficClass → DirectRefreshOwner) (owned : List OwnedDemand) :
    List (BrokerLane × BrokerRouteState) :=
  owned.map fun d => (d.lane, d.state.markInstalled d.pending.route d.pending.endpoint
    (owners d.lane.trafficClass))

theorem foldl_commitLane (lanes : List DirectLane) (hs : owned.length = lanes.length) :
    (owned.zip lanes).foldl (fun r e => r.commitLane owners e.1 e.2) r =
      { r.pushLanes lanes with routes := r.routes.insertAll (installed owners owned) } := by
  induction owned generalizing lanes r with
  | nil =>
    obtain rfl : lanes = [] := length_eq_zero_iff.1 hs.symm
    rfl
  | cons d owned ih =>
    cases lanes with
    | nil => cases hs
    | cons lane lanes => exact ih (r.commitLane owners d lane) lanes (Nat.succ.inj hs)

theorem commitPendingFamily_eq (ep : BrokerEndpoint) (lanes : List DirectLane)
    (hs : owned.length = lanes.length) :
    r.commitPendingFamily b ep owners owned lanes =
      { r.pushLanes lanes with
        routes := (r.routes.map fun _ state =>
          if state.lane.brokerId = b then state.clearInstalled else state).insertAll
            (installed owners owned)
        families := r.families.insert b
          ((owned.map fun d => d.lane.trafficClass).foldl .markActive (.new ep owners)) } := by
  unfold commitPendingFamily
  dsimp only
  rw [foldl_commitLane _ _ _ _ hs, foldl_map]
  rfl

end

/-- Routes get lanes that serve their endpoints, one after the other. -/
theorem installAll_steps {failing : Bool} (placed : List (BrokerLane × BrokerRouteState))
    (hn : (placed.map Prod.fst).Nodup)
    (each : ∀ p ∈ placed, ∃ state rt endpoint o, r.routes.get p.1 = some state ∧
      state.advertised = some ⟨rt, endpoint⟩ ∧ r.ServedBy p.1 endpoint o ∧
      p.2 = state.markInstalled rt endpoint o) :
    Steps build failing r { r with routes := r.routes.insertAll placed } := by
  induction placed generalizing r with
  | nil => exact .refl
  | cons p placed ih =>
    obtain ⟨hf, hn⟩ := nodup_cons.1 hn
    obtain ⟨state, rt, endpoint, o, hg, cur, hse, hs⟩ :=
      each p mem_cons_self
    have first : Change build failing r { r with routes := r.routes.insert p.1 p.2 } := by
      rw [hs]
      exact .route hg (.install cur hse)
    refine .head first (ih hn fun q mem => ?_)
    obtain ⟨state, rt, endpoint, o, hg, rest⟩ := each q (mem_cons_of_mem _ mem)
    have ne : q.1 ≠ p.1 := fun hs => hf (hs ▸ mem_map_of_mem mem)
    exact ⟨state, rt, endpoint, o, by simp [ne, hg], rest⟩

/-- The commit the family publishes, takes the old lanes from the routes of the broker and
gives the demands their new ones. -/
theorem commitPendingFamily_steps {owners : ℕ → DirectRefreshOwner} {lanes : List DirectLane}
    (ht : r.Taken b endpoint owned) (ha : r.families.get b = none)
    (res : r.identities.reserveEndpointLanes 4 = .ok (ids, owners))
    (hn : lanes.map DirectLane.owner =
      (owned.map fun d => d.lane.trafficClass).map (familyOwners owners)) :
    Steps build false r (({ r.withhold (owned.map OwnedDemand.lane) with
      identities := ids } : ClusterRuntime).commitPendingFamily b endpoint (familyOwners owners)
        owned lanes) := by
  have hle : owned.length = lanes.length := by simpa using (congrArg length hn).symm
  have classes : (owned.map fun d => d.lane.trafficClass).Nodup := by
    refine pairwise_map.2 ((pairwise_map.1 ht.nodup).imp_of_mem ?_)
    intro d d' mem member' hap hs
    refine hap ?_
    have left := (ht.asks d mem).1
    have right := (ht.asks d' member').1
    obtain ⟨⟨b₁, t₁⟩, _, _⟩ := d
    obtain ⟨⟨b₂, t₂⟩, _, _⟩ := d'
    simp_all
  obtain ⟨how, he, hr, act⟩ :=
    foldl_markActive (owned.map fun d => d.lane.trafficClass) (.new endpoint (familyOwners owners))
  set family := (owned.map fun d => d.lane.trafficClass).foldl BrokerFamily.markActive
    (.new endpoint (familyOwners owners)) with hfa
  set cleared := fun (_ : BrokerLane) (st : BrokerRouteState) =>
    if st.lane.brokerId = b then st.clearInstalled else st with hc
  have hp : Change build false r
      { r.pushLanes lanes with identities := ids, families := r.families.insert b family } :=
    .physical (.publish ha res classes hn)
  have hu : Change build false
      { r.pushLanes lanes with identities := ids, families := r.families.insert b family }
      { r.pushLanes lanes with
        identities := ids
        families := r.families.insert b family
        routes := r.routes.map cleared } := .uninstall
  have hna : (installed (familyOwners owners) owned).map Prod.fst = owned.map OwnedDemand.lane := by
    simp [installed]
  have hno : ((installed (familyOwners owners) owned).map Prod.fst).Nodup := hna ▸ ht.nodup
  have rts : ((r.withhold (owned.map OwnedDemand.lane)).routes.map cleared).insertAll
      (installed (familyOwners owners) owned) =
        (r.routes.map cleared).insertAll (installed (familyOwners owners) owned) := by
    refine insertAll_congr hno fun lane ho => ?_
    rw [hna] at ho
    rw [get_map, get_map, withhold, get_withhold, if_neg ho]
  have last : Steps build false
      { r.pushLanes lanes with
        identities := ids
        families := r.families.insert b family
        routes := r.routes.map cleared }
      { r.pushLanes lanes with
        identities := ids
        families := r.families.insert b family
        routes := (r.routes.map cleared).insertAll (installed (familyOwners owners) owned) } := by
    refine installAll_steps _ hno fun p mem => ?_
    obtain ⟨d, hl, rfl⟩ := mem_map.1 mem
    obtain ⟨broker, tgt, own, cur⟩ := ht.asks d hl
    have hf : d.state.lane.brokerId = b := by rw [own, broker]
    refine ⟨d.state.clearInstalled, _, _, familyOwners owners d.lane.trafficClass, ?_, cur,
      ⟨family, ?_, hr, he.trans tgt.symm, ?_, by rw [how]; rfl⟩, rfl⟩
    · simp [ht.held d hl, hc, hf]
    · simp [broker]
    · exact (act _).2 (.inl (mem_map.2 ⟨d, hl, rfl⟩))
  rw [commitPendingFamily_eq _ _ _ _ _ _ hle]
  change Steps build false r
    { r.pushLanes lanes with
      identities := ids
      families := r.families.insert b family
      routes := ((r.withhold (owned.map OwnedDemand.lane)).routes.map cleared).insertAll
        (installed (familyOwners owners) owned) }
  rw [rts]
  exact .head hp (.head hu last)

theorem ensureFamilyReplacementCapacity_ok {n : ℕ}
    (ok : r.preflightFamilyPublication b retire n = .ok ()) :
    (r.families.get b).isSome = (retire = some b : Bool) := by
  unfold preflightFamilyPublication at ok
  cases capacity : r.ensureFamilyReplacementCapacity b retire with
  | error e =>
    rw [capacity] at ok
    cases ok
  | ok _ =>
    unfold ensureFamilyReplacementCapacity at capacity
    by_contra diverged
    rw [if_pos diverged] at capacity
    cases capacity

/-- The family that makes room is removed, or the runtime is left as it was. -/
theorem removeRetired_spec (build : Build) (ht : r.Taken b endpoint owned)
    (room : (r.families.get b).isSome = (retire = some b : Bool))
    (he : ∀ v, retire = some v → ∃ f, r.families.get v = some f ∧ f.retiring = true) :
    wp (removeRetired b retire owned)
      (fun owned' r' => ∃ rest, Steps build false r rest ∧ rest.families.get b = none ∧
        rest.identities = r.identities ∧ rest.Taken b endpoint owned' ∧
        r' = { rest.withhold (owned'.map OwnedDemand.lane) with identities := ids })
      (fun _ r' => r' = { r with identities := ids })
      { r.withhold (owned.map OwnedDemand.lane) with identities := ids } := by
  have hr : ({ r.withhold (owned.map OwnedDemand.lane) with
      identities := ids } : ClusterRuntime).restoreRouteStates owned =
        { r with identities := ids } := by
    rw [restoreRouteStates_eq]
    change { r with identities := ids, routes := _ } = _
    rw [ht.restore]
  unfold removeRetired
  cases retire with
  | none =>
    have ha : r.families.get b = none := by simpa using room
    exact ⟨r, .refl, ha, rfl, ht, rfl⟩
  | some v =>
    obtain ⟨f, hf, hre⟩ := he v rfl
    simp only [wp_bind, wp_onError]
    refine wp_mono (removeTerminalFamily_spec v _) ?_ ?_
    · rintro _ _ (⟨rfl, rm, hl, rfl⟩ | ⟨rfl, rfl⟩)
      · have hd := ht.dropFamily (v := v) rm
        have lanes : (if v = b then owned.map fun d => { d with state := d.state.clearInstalled }
            else owned).map OwnedDemand.lane = owned.map OwnedDemand.lane := by
          split_ifs <;> simp [Function.comp_def]
        have hg : ((r.removeLanes rm).dropFamily v).families.get b = none := by
          simp only [dropFamily, removeLanes_families, get_erase]
          split_ifs with hs
          · rfl
          · have ne : (r.families.get b).isSome = false := by
              rw [room]
              simpa using fun eq : v = b => hs eq.symm
            simpa using ne
        have st : (({ r.withhold (owned.map OwnedDemand.lane) with
            identities := ids } : ClusterRuntime).removeLanes rm).dropFamily v =
              { ((r.removeLanes rm).dropFamily v).withhold (owned.map OwnedDemand.lane) with
                identities := ids } := by
          rw [removeLanes_eq, removeLanes_eq]
          change { r with
            identities := ids, lanes := _, slots := _, families := _
            routes := dropRoutes (r.routes.filter fun l _ =>
              l ∉ owned.map OwnedDemand.lane) v } = _
          rw [dropRoutes_withhold]
          rfl
        simp only [if_true]
        rw [st]
        have res : ∃ rest, Steps build false r rest ∧ rest.families.get b = none ∧
            rest.identities = r.identities ∧ rest.Taken b endpoint
              (if v = b then owned.map fun d => { d with state := d.state.clearInstalled }
                else owned) ∧
            { ((r.removeLanes rm).dropFamily v).withhold (owned.map OwnedDemand.lane) with
                identities := ids } =
              { rest.withhold ((if v = b then owned.map fun d =>
                  { d with state := d.state.clearInstalled } else owned).map OwnedDemand.lane) with
                identities := ids } := by
          refine ⟨_, .single (.remove hf hre hl), hg, ?_, hd, by rw [lanes]⟩
          simp [dropFamily]
        split_ifs with hs
        · simpa [hs] using res
        · simpa [hs] using res
      · simp only [Bool.false_eq_true, if_false]
        exact hr
    · rintro e _ rfl
      exact hr

theorem publishPendingFamily_acts (hd : r.Demanded b endpoint demands)
    (he : ∀ v, retire = some v → ∃ f, r.families.get v = some f ∧ f.retiring = true) :
    Acts build (publishPendingFamily b retire endpoint demands mk) (fun _ _ => True) r := by
  unfold publishPendingFamily
  refine .query_bind fun _ ok => ?_
  have room := ensureFamilyReplacementCapacity_ok ok
  split_ifs
  · have hp : ∀ d ∈ demands, ∃ st, r.routes.get d.lane = some st ∧
        st.pendingInstall = some d.pending := by
      intro d mem
      obtain ⟨-, -, st, hg, -, hw, -⟩ := hd.pends d mem
      exact ⟨st, hg, hw⟩
    unfold Moves
    simp only [wp_bind]
    refine wp_mono (takeRouteStates_spec [] hd.nodup hp) ?_ fun _ _ never => never.elim
    rintro owned _ ⟨more, hs, hl, states, rfl⟩
    obtain rfl : owned = more := hs
    have ht : r.Taken b endpoint owned := by
      refine ⟨?_, states, fun d mem => ?_⟩
      · have hno := hd.nodup
        rwa [← hl, map_map] at hno
      · have had : RouteDemand.mk d.lane d.pending ∈ demands :=
          hl ▸ mem_map.2 ⟨d, mem, rfl⟩
        obtain ⟨broker, tgt, st, hg, own, -, cur⟩ := hd.pends _ had
        obtain rfl := Option.some.inj (hg.symm.trans (states d mem))
        exact ⟨broker, tgt, own, cur⟩
    simp only [wp_bind, wp_onError, wp_map]
    refine wp_mono (reserveEndpointLanes_spec 4 _) ?_ ?_
    · rintro os _ ⟨ids, res, rfl⟩
      change r.identities.reserveEndpointLanes 4 = .ok (ids, os) at res
      have hr : ({ r.withhold (owned.map OwnedDemand.lane) with
          identities := ids } : ClusterRuntime).restoreRouteStates owned =
            { r with identities := ids } := by
        rw [restoreRouteStates_eq]
        change { r with identities := ids, routes := _ } = _
        rw [ht.restore]
      have ha : Change build true r { r with identities := ids } :=
        .physical (.reserve res)
      simp only [wp_bind, wp_get]
      split
      · simp only [wp_bind, wp_modify, wp_throw, hr]
        exact .single ha
      simp only [wp_bind]
      refine wp_mono (removeRetired_spec build ht room he) ?_ ?_
      · rintro owned' _ ⟨rest, steps, hab, ids', taken', rfl⟩
        rw [← ids'] at res
        simp only [wp_bind, wp_onError]
        refine wp_mono (startPendingLanes_spec _ owned' mk _) ?_ ?_
        · rintro lanes _ ⟨rfl, hn⟩
          exact ⟨steps.trans (commitPendingFamily_steps taken' hab res hn), trivial⟩
        · rintro e _ rfl
          rw [restoreRouteStates_eq]
          change Steps build true r { rest with identities := ids, routes := _ }
          rw [taken'.restore]
          exact (Steps.weaken steps).tail (.physical (.reserve res))
      · rintro e _ rfl
        exact .single ha
    · rintro e _ rfl
      rw [restoreRouteStates_eq]
      change Steps build true r { r with routes := _ }
      rw [ht.restore]
  · exact .throw

/-! ## One step towards the demanded lanes -/

theorem reapRetiringFamily_acts (b : BrokerId) :
    Acts build (reapRetiringFamily b) (fun _ _ => True) r := by
  unfold reapRetiringFamily
  refine .get_bind ?_
  cases found : r.families.get b with
  | none => exact .pure trivial
  | some f =>
    dsimp only
    split_ifs with hr
    · refine .query_bind fun _ _ => ?_
      split_ifs
      · exact removeTerminalFamily_acts found hr
      · exact .pure trivial
    · exact .pure trivial

theorem reconcileStaleFamily_acts {fam : BrokerFamily} (hf : r.families.get b = some fam)
    (hst : fam.retiring = true ∨ fam.endpoint ≠ endpoint) (ht : r.Targets b endpoint)
    (hd : r.Demanded b endpoint demands) :
    Acts build (reconcileStaleFamily b fam endpoint demands mk drain) (fun _ _ => True) r := by
  unfold reconcileStaleFamily
  by_cases retiring : fam.retiring = true
  · rw [if_neg (by simp [retiring])]
    refine .query_bind fun _ _ => ?_
    split
    · split
      · exact removeTerminalFamily_acts hf retiring
      · refine publishPendingFamily_acts mk hd ?_
        rintro v ⟨⟩
        exact ⟨fam, hf, retiring⟩
    · exact .pure trivial
  · rw [if_pos (by simp [retiring])]
    refine beginFamilyRetirement_acts drain fun f hg _ => .inr ?_
    obtain rfl := Option.some.inj (hf.symm.trans hg)
    obtain ⟨l, st, cur, hg, broker, adv, tgt⟩ := ht
    have ha : fam.endpoint ≠ endpoint := hst.resolve_left retiring
    exact ⟨l, st, cur, hg, broker, adv, fun hs => ha (hs ▸ tgt)⟩

/-- A victim's broker is not in the directory. -/
theorem victimAmong_ok {tgt : BrokerId} {es : List (BrokerId × BrokerFamily)}
    {best : Option BrokerId} {victim : BrokerId}
    (ok : r.victimAmong tgt es best = .ok (some victim))
    (ho : ∀ v, best = some v → r.familyIsAdvertised v = false) :
    r.familyIsAdvertised victim = false := by
  induction es generalizing best with
  | nil =>
    cases ok
    exact ho victim rfl
  | cons e es ih =>
    obtain ⟨b, f⟩ := e
    unfold victimAmong at ok
    by_cases kept : b = tgt ∨ r.familyIsAdvertised b = true
    · rw [if_pos kept] at ok
      exact ih ok ho
    rw [if_neg kept] at ok
    have ha : r.familyIsAdvertised b = false := by
      simpa using fun adv => kept (.inr adv)
    cases reclaimable : r.familyReclaimable b with
    | error e =>
      rw [reclaimable] at ok
      cases ok
    | ok _ =>
      rw [reclaimable] at ok
      simp only [bind, Except.bind] at ok
      split_ifs at ok
      · cases ok
        exact ha
      · cases ok
        exact ha
      refine ih ok fun v hc => ?_
      cases best with
      | some w => exact ho v hc
      | none =>
        cases hc
        exact ha

theorem reconcileNewFamily_acts (hd : r.Demanded b endpoint demands) :
    Acts build (reconcileNewFamily b endpoint demands mk drain) (fun _ _ => True) r := by
  unfold reconcileNewFamily
  refine .get_bind ?_
  split_ifs
  · exact .pure trivial
  · refine publishPendingFamily_acts mk hd ?_
    rintro v ⟨⟩
  refine .query_bind fun victim? hc => ?_
  cases victim? with
  | none => exact .throw
  | some victim =>
    have ha : r.familyIsAdvertised victim = false :=
      victimAmong_ok hc fun v held => nomatch held
    dsimp only
    split_ifs with hr
    · refine .query_bind fun _ _ => ?_
      split_ifs
      · refine publishPendingFamily_acts mk hd ?_
        rintro v ⟨⟩
        exact (Option.any_eq_true _ _).1 hr
      · exact .pure trivial
    · exact beginFamilyRetirement_acts drain fun _ _ _ => .inl ha

theorem tryDriveRouteInstalls_acts (now : Moment) (hke : r.Keyed) :
    Acts build (tryDriveRouteInstalls mk drain now) (fun _ _ => True) r := by
  unfold tryDriveRouteInstalls
  have next : Acts build nextRouteInstallBroker (fun _ r' => r'.Keyed) r := by
    unfold nextRouteInstallBroker
    refine .get_bind ?_
    dsimp only
    split
    · exact .bind change_le (Q := fun _ r' => r'.Keyed) ⟨.single (.aside le_rfl), hke⟩
        fun _ _ hk => .pure hk
    · split
      · exact .pure hke
      · exact .bind change_le (Q := fun _ r' => r'.Keyed) ⟨.single (.aside le_rfl), hke⟩
          fun _ _ hk => .pure hk
  refine .bind change_le next fun broker? r₁ hke => ?_
  cases broker? with
  | none => exact .pure trivial
  | some b =>
    refine .bind change_le (currentRouteDemands_acts b now hke) fun found r₂ hkn => ?_
    obtain ⟨tgt, demands⟩ := found
    cases tgt with
    | none => exact reapRetiringFamily_acts b
    | some ep =>
      obtain ⟨ht, hd⟩ := hkn.2 ep rfl
      dsimp only
      unfold reconcileRouteFamily
      refine .get_bind ?_
      cases hf : r₂.families.get b with
      | none => exact reconcileNewFamily_acts mk drain hd
      | some f =>
        dsimp only
        split_ifs with hs
        · exact reconcileStaleFamily_acts mk drain hf hs ht hd
        · exact activatePendingLanes_acts mk hd

end ClusterRuntime

end KafkaDriver
