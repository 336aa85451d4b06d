import KafkaDriver.ClusterOwnership

/-!
# What an operation of the cluster runtime can do

Every operation of the runtime is a sequence of a few kinds of change. `Physical` lists the
changes of lanes and families that leave the routes alone, `RouteChange` what can become of
the state of one route, and `Change` both together with the changes of several routes at
once. Each carries the guard under which the code makes it, and the invariants of the runtime
are proved with one case for each.

An operation that fails may leave a call queued for a route nobody resolves; the changes
that do so need `failing`. `finishHostResult` then fails every queued call.
-/

namespace KafkaDriver

open Fallible List Option OrdMap SlotTable DirectLane

namespace ClusterRuntime

/-! ## Lanes and families -/

/-- Join lanes at the end of the list. -/
def pushLanes (r : ClusterRuntime) (lanes : List DirectLane) : ClusterRuntime :=
  { r with
    lanes := (pushAll owner r.lanes r.slots lanes).1
    slots := (pushAll owner r.lanes r.slots lanes).2 }

/-- One change of lanes, families, identities or seed. -/
inductive Physical (r : ClusterRuntime) : ClusterRuntime → Prop
  | reserve {count : ℕ} {ids : BorneraIdentityAllocator} {owners : ℕ → DirectRefreshOwner}
      (reserved : r.identities.reserveEndpointLanes count = .ok (ids, owners)) :
      Physical r { r with identities := ids }
  | evolve {index : ℕ} {g : DirectLane → DirectLane}
      (moves : ∀ l, r.lanes[index]? = some l → (g l).owner = l.owner ∧ l.Evolves (g l)) :
      Physical r (r.modifyLane index g)
  | activate {b : BrokerId} {f : BrokerFamily} {traffic : TrafficClass} {lane : DirectLane}
      (found : r.families.get b = some f) (dormant : r.slots.get (f.owners traffic) = none)
      (owned : lane.owner = f.owners traffic) :
      Physical r
        { r.pushLane lane with families := r.families.adjust b (·.markActive traffic) }
  | publish {b : BrokerId} {endpoint : BrokerEndpoint} {ids : BorneraIdentityAllocator}
      {owners : ℕ → DirectRefreshOwner} {classes : List TrafficClass} {lanes : List DirectLane}
      (absent : r.families.get b = none)
      (reserved : r.identities.reserveEndpointLanes 4 = .ok (ids, owners))
      (nodup : classes.Nodup)
      (owned : lanes.map owner = classes.map (familyOwners owners)) :
      Physical r
        { r.pushLanes lanes with
          identities := ids
          families := r.families.insert b
            (classes.foldl .markActive (.new endpoint (familyOwners owners))) }
  | seat {ids : BorneraIdentityAllocator} {owners : ℕ → DirectRefreshOwner} {lane : DirectLane}
      {generation : ConnectionEpoch} (vacant : r.seed = none)
      (reserved : r.identities.reserveEndpointLanes 1 = .ok (ids, owners))
      (owned : lane.owner = owners 0) :
      Physical r
        { r.pushLane lane with identities := ids, seed := some ⟨owners 0, generation⟩ }
  | reseat {ids : BorneraIdentityAllocator} {owners : ℕ → DirectRefreshOwner}
      {current : SeedSlot} {index : ℕ} {lane : DirectLane} {generation : ConnectionEpoch}
      (seated : r.seed = some current) (held : r.slots.get current.owner = some index)
      (reserved : r.identities.reserveEndpointLanes 1 = .ok (ids, owners))
      (owned : lane.owner = owners 0) :
      Physical r
        { r with
          identities := ids
          lanes := r.lanes.set index lane
          slots := (r.slots.erase current.owner).insert (owners 0) index
          seed := some ⟨owners 0, generation⟩ }

/-- Changes of lanes and families, one after the other. -/
abbrev PhysicalSteps : ClusterRuntime → ClusterRuntime → Prop := Relation.ReflTransGen Physical

theorem foldl_markActive (classes : List TrafficClass) (f : BrokerFamily) :
    (classes.foldl BrokerFamily.markActive f).owners = f.owners ∧
      (classes.foldl BrokerFamily.markActive f).endpoint = f.endpoint ∧
      (classes.foldl BrokerFamily.markActive f).retiring = f.retiring ∧
      ∀ t, (classes.foldl BrokerFamily.markActive f).active t = true ↔
        t ∈ classes ∨ f.active t = true := by
  induction classes generalizing f with
  | nil => simp
  | cons c classes ih =>
    obtain ⟨os, ep, hr, act⟩ := ih (f.markActive c)
    refine ⟨os, ep, hr, fun t => ?_⟩
    rw [foldl_cons, act, mem_cons]
    by_cases same : t = c
    · simp [BrokerFamily.markActive, same]
    · simp [BrokerFamily.markActive, same]

variable {r r' : ClusterRuntime}

theorem Physical.owned (ch : Physical r r') (h : r.Owned) : r'.Owned := by
  cases ch with
  | reserve res =>
    exact h.reserve (BorneraIdentityAllocator.reserveEndpointLanes_ok res).kept
  | evolve hm => exact Ownership.evolve h fun l hf => (hm l hf).1
  | activate hf hd ho => exact h.activate hf hd ho
  | publish hab res hn ho =>
    obtain ⟨os, -, -, act⟩ := foldl_markActive _ (.new _ _)
    refine h.publish (BorneraIdentityAllocator.reserveEndpointLanes_ok res) hn ho os fun t => ?_
    rw [act]
    simp [BrokerFamily.new]
  | seat hv res ho =>
    have hgr := BorneraIdentityAllocator.reserveEndpointLanes_ok res
    refine h.seat hgr (h.exact.push (ho ▸ h.get_slot_of_fresh (hgr.fresh 0))) ?_ ?_
    · intro o ne _
      dsimp only [pushLane]
      rw [get_insert, ho, if_neg ne]
    · intro o i hg
      dsimp only [pushLane] at hg
      rw [get_insert, ho] at hg
      split_ifs at hg with hs
      · exact .inl hs
      · exact .inr (by simp [hg])
  | reseat hse hg res ho =>
    have hgr := BorneraIdentityAllocator.reserveEndpointLanes_ok res
    have hr := h.exact.replace hg (ho ▸ h.get_slot_of_fresh (hgr.fresh 0))
    rw [ho] at hr
    refine h.seat hgr hr ?_ ?_
    · intro o ne ha
      rw [get_insert, if_neg ne, get_erase, if_neg (ha _ hse)]
    · intro o i slot
      rw [get_insert, get_erase] at slot
      split_ifs at slot with hs
      · exact .inl hs
      · exact .inr (by simp [slot])

/-- The lanes of `r'` succeed those of `r`. -/
def Succeeds (r r' : ClusterRuntime) : Prop :=
  Succession r.lanes r.slots r.families r.identities r'.lanes r'.slots r'.families r'.identities

theorem Physical.succeeds (ch : Physical r r') (h : r.Owned) : Succeeds r r' := by
  cases ch with
  | reserve res =>
    refine ⟨(BorneraIdentityAllocator.reserveEndpointLanes_ok res).kept, ?_, ?_⟩
    · exact fun b f hf => .inl ⟨f, hf, rfl, fun _ act => act⟩
    · intro owner l l' pre post
      rw [some.inj (pre.symm.trans post)]
      exact .refl l'
  | @evolve k g hm =>
    refine ⟨fun _ hi => hi, ?_, ?_⟩
    · exact fun b f hf => .inl ⟨f, hf, rfl, fun _ act => act⟩
    · intro owner l l' pre post
      simp only [modifyLane, SlotTable.Exact.find_modify] at post
      split_ifs at post with here
      · rw [pre] at post
        cases post
        have hf : r.lanes[k]? = some l := by
          simpa [find, here] using pre
        exact (hm l hf).2
      · rw [some.inj (pre.symm.trans post)]
        exact .refl l'
  | activate hf hd ho =>
    have free : r.slots.get (owner _) = none := ho ▸ hd
    refine ⟨fun _ hi => hi, ?_, ?_⟩
    · intro c f' hg
      rw [get_adjust] at hg
      split_ifs at hg
      · obtain ⟨g, hor, rfl⟩ := map_eq_some_iff.1 hg
        refine .inl ⟨g, hor, rfl, fun t act => ?_⟩
        simp [BrokerFamily.markActive, Function.update_apply, act]
      · exact .inl ⟨f', hg, rfl, fun _ act => act⟩
    · intro owner l l' pre post
      simp only [pushLane, h.exact.find_push free] at post
      split_ifs at post with here
      · rw [here, h.exact.find_eq_none.2 free] at pre
        cases pre
      · rw [some.inj (pre.symm.trans post)]
        exact .refl l'
  | @publish b ep ids owners classes lanes ha res hn ho =>
    have hgr := BorneraIdentityAllocator.reserveEndpointLanes_ok res
    have hin : Function.Injective (familyOwners owners) :=
      hgr.injective.comp TrafficClass.stableOrder_injective
    have free : ∀ l ∈ lanes, r.slots.get l.owner = none := by
      intro l mem
      have hl := mem_map_of_mem (f := owner) mem
      rw [ho] at hl
      obtain ⟨t, -, hs⟩ := mem_map.1 hl
      exact hs ▸ h.get_slot_of_fresh (hgr.fresh _)
    refine ⟨hgr.kept, ?_, ?_⟩
    · intro c f' hg
      rw [get_insert] at hg
      split_ifs at hg with here
      · cases hg
        refine .inr ⟨here ▸ ha, fun t => ?_⟩
        rw [(foldl_markActive _ _).1]
        exact hgr.fresh _
      · exact .inl ⟨f', hg, rfl, fun _ act => act⟩
    · intro owner l l' pre post
      rcases (h.exact.find_pushAll _ (ho ▸ hn.map hin) free).1 post with
        ⟨joined, rfl⟩ | kept
      · rw [h.exact.find_eq_none.2 (free l' joined)] at pre
        cases pre
      · rw [some.inj (pre.symm.trans kept)]
        exact .refl l'
  | seat hv res ho =>
    have hgr := BorneraIdentityAllocator.reserveEndpointLanes_ok res
    have free : r.slots.get (owner _) = none :=
      ho ▸ h.get_slot_of_fresh (hgr.fresh 0)
    refine ⟨hgr.kept, ?_, ?_⟩
    · exact fun b f hf => .inl ⟨f, hf, rfl, fun _ act => act⟩
    · intro owner l l' pre post
      simp only [pushLane, h.exact.find_push free] at post
      split_ifs at post with here
      · rw [here, h.exact.find_eq_none.2 free] at pre
        cases pre
      · rw [some.inj (pre.symm.trans post)]
        exact .refl l'
  | reseat hse hg res ho =>
    have hgr := BorneraIdentityAllocator.reserveEndpointLanes_ok res
    refine ⟨hgr.kept, ?_, ?_⟩
    · exact fun b f hf => .inl ⟨f, hf, rfl, fun _ act => act⟩
    · intro owner l l' pre post
      simp only [← ho, h.exact.find_replace hg] at post
      split_ifs at post with here
      · rw [here, ho, h.exact.find_eq_none.2 (h.get_slot_of_fresh (hgr.fresh 0))] at pre
        cases pre
      · rw [some.inj (pre.symm.trans post)]
        exact .refl l'

/-- The routes play no part in a change of the lanes. -/
theorem Physical.frame (ch : Physical r r') (routes : OrdMap BrokerLane BrokerRouteState) :
    Physical { r with routes } { r' with routes } := by
  cases ch with
  | reserve res => exact .reserve res
  | evolve hm => exact .evolve hm
  | activate hf hd ho => exact .activate hf hd ho
  | publish ha res hn ho => exact .publish ha res hn ho
  | seat hv res ho => exact .seat hv res ho
  | reseat hs hg res ho => exact .reseat hs hg res ho

theorem PhysicalSteps.frame (steps : PhysicalSteps r r')
    (routes : OrdMap BrokerLane BrokerRouteState) :
    PhysicalSteps { r with routes } { r' with routes } := by
  induction steps with
  | refl => exact .refl
  | tail _ ch ih => exact ih.tail (ch.frame routes)

theorem Physical.routes_eq (ch : Physical r r') : r'.routes = r.routes := by
  cases ch <;> rfl

theorem PhysicalSteps.routes_eq (steps : PhysicalSteps r r') : r'.routes = r.routes := by
  induction steps with
  | refl => rfl
  | tail _ ch ih => exact ch.routes_eq.trans ih

theorem Physical.directory_eq (ch : Physical r r') : r'.directory = r.directory := by
  cases ch <;> rfl

/-! ## Routes -/

/-- Some work is under way that will serve the calls of a route. -/
def Expects (r : ClusterRuntime) (lane : BrokerLane) (state : BrokerRouteState)
    (route : BrokerRoute) (endpoint : BrokerEndpoint) : Prop :=
  (∃ owner, r.ServedBy lane endpoint owner) ∨ state.pendingIsCurrent route endpoint = true ∨
    state.isResolving route endpoint = true

/-- What an operation can make of the state of one route. -/
inductive RouteChange (build : Build) (failing : Bool) (r : ClusterRuntime) (lane : BrokerLane)
    (state : BrokerRouteState) : BrokerRouteState → Prop
  | retain {route : BrokerRoute} {endpoint : BrokerEndpoint}
      (resolves : r.resolveRoute route = some endpoint) (broker : route.brokerId = lane.brokerId) :
      RouteChange build failing r lane state (state.retainRoute build route endpoint).1
  | install {route : BrokerRoute} {endpoint : BrokerEndpoint} {owner : DirectRefreshOwner}
      {resolution : BrokerResolutionMachine}
      (current : state.advertised = some ⟨route, endpoint⟩)
      (served : r.ServedBy lane endpoint owner) :
      RouteChange build failing r lane state
        (({ state with resolution } : BrokerRouteState).markInstalled route endpoint owner)
  | defer {pending : PendingInstall} {resolution : BrokerResolutionMachine}
      (current : state.advertised = some ⟨pending.route, pending.endpoint⟩) :
      RouteChange build failing r lane state
        { state with resolution, lastDnsFailure := none, pendingInstall := some pending }
  | fail {failure : DnsFailure} {resolution : BrokerResolutionMachine} :
      RouteChange build failing r lane state
        (({ state with
            resolution
            lastDnsFailure := some failure
            pendingInstall := none } : BrokerRouteState).failWaiting build
              (.nameResolutionFailed failure) none).1
  | settle {waiting : RouteWaiting} {failureAt : Option OutcomeStamp}
      (fewer : waiting.calls.len ≤ state.waiting.calls.len) :
      RouteChange build failing r lane state { state with waiting, routeFailureAt := failureAt }
  | queue {waiting : RouteWaiting} {route : BrokerRoute} {endpoint : BrokerEndpoint}
      (current : state.advertised = some ⟨route, endpoint⟩)
      (expected : r.Expects lane state route endpoint) :
      RouteChange build failing r lane state { state with waiting }
  | start {waiting : RouteWaiting} {resolution : BrokerResolutionMachine} {next : Option ℕ}
      {route : BrokerRoute} {endpoint : BrokerEndpoint} {epoch : ConnectionEpoch}
      {effectId : EffectId} (current : state.advertised = some ⟨route, endpoint⟩)
      (resolving : resolution.state = .resolving route endpoint epoch effectId) :
      RouteChange build failing r lane state
        { state with waiting, resolution, nextDnsEpoch := next }
  | strand {waiting : RouteWaiting} {resolution : BrokerResolutionMachine} {next : Option ℕ}
      (fails : failing = true) :
      RouteChange build failing r lane state
        { state with waiting, resolution, nextDnsEpoch := next }

/-- A family no current route asks for : its broker left the directory, or the directory
names another endpoint. -/
def Outdated (r : ClusterRuntime) (b : BrokerId) (f : BrokerFamily) : Prop :=
  r.familyIsAdvertised b = false ∨
    ∃ lane state current, r.routes.get lane = some state ∧ lane.brokerId = b ∧
      state.advertised = some current ∧ current.endpoint ≠ f.endpoint

/-- One change of the runtime. -/
inductive Change (build : Build) (failing : Bool) (r : ClusterRuntime) : ClusterRuntime → Prop
  | aside {causality : CausalSequence} {routeInstallCursor : ℕ}
      {pendingResolvedSeed : Option ResolvedSeed} {seedBootstrap : SeedBootstrapState}
      {seedWaiting : PendingRequests} {seedWaitingState : SeedWaitingState}
      {fates : List RequestFate} (later : r.causality.next ≤ causality.next) :
      Change build failing r
        { r with
          causality, routeInstallCursor, pendingResolvedSeed, seedBootstrap, seedWaiting,
          seedWaitingState, fates }
  | physical {r' : ClusterRuntime} (change : Physical r r') : Change build failing r r'
  | retire {b : BrokerId} {f : BrokerFamily} (found : r.families.get b = some f)
      (outdated : r.Outdated b f) :
      Change build failing r
        { r with families := r.families.adjust b fun f => { f with retiring := true } }
  | remove {b : BrokerId} {f : BrokerFamily} {removals : List (ℕ × DirectRefreshOwner)}
      (found : r.families.get b = some f) (retiring : f.retiring = true)
      (listed : r.familyRemovals b = .ok removals) :
      Change build failing r ((r.removeLanes removals).dropFamily b)
  | adopt {directory : BrokerDirectory}
      (newer : ∀ current, r.directory = some current → current.generation < directory.generation) :
      Change build failing r (r.adoptDirectory build directory)
  | insert {lane : BrokerLane} {route : BrokerRoute} {endpoint : BrokerEndpoint}
      (resolves : r.resolveRoute route = some endpoint) (broker : route.brokerId = lane.brokerId)
      (absent : r.routes.get lane = none) :
      Change build failing r
        { r with routes := r.routes.insert lane (.new lane route endpoint r.driver) }
  | route {lane : BrokerLane} {state state' : BrokerRouteState} {fates : List RequestFate}
      (found : r.routes.get lane = some state)
      (change : RouteChange build failing r lane state state') :
      Change build failing r { r with routes := r.routes.insert lane state', fates }
  | discard {lanes : List BrokerLane}
      (stale : ∀ lane ∈ lanes, ∀ state pending, r.routes.get lane = some state →
        state.pendingInstall = some pending →
        state.advertises pending.route pending.endpoint = false ∨
          r.routeIsCurrent pending.route pending.endpoint = false) :
      Change build failing r (r.clearPending lanes)
  | uninstall {b : BrokerId} :
      Change build failing r
        { r with
          routes := r.routes.map fun _ state =>
            if state.lane.brokerId = b then state.clearInstalled else state }
  | drain : Change build failing r r.closeAdmission

/-- Changes one after the other. -/
abbrev Steps (build : Build) (failing : Bool) : ClusterRuntime → ClusterRuntime → Prop :=
  Relation.ReflTransGen (Change build failing)

variable {build : Build} {failing : Bool} {state' : BrokerRouteState}

theorem RouteChange.weaken {l : BrokerLane} {st : BrokerRouteState}
    (ch : RouteChange build failing r l st state') :
    RouteChange build true r l st state' := by
  cases ch with
  | retain hr b => exact .retain hr b
  | install cur hs => exact .install cur hs
  | defer cur => exact .defer cur
  | fail => exact .fail
  | settle hf => exact .settle hf
  | queue cur want => exact .queue cur want
  | start cur hre => exact .start cur hre
  | strand _ => exact .strand rfl

theorem Change.weaken (ch : Change build failing r r') : Change build true r r' := by
  cases ch with
  | aside hl => exact .aside hl
  | physical ch => exact .physical ch
  | retire hf ho => exact .retire hf ho
  | remove hf hr hli => exact .remove hf hr hli
  | adopt hn => exact .adopt hn
  | insert hre b ha => exact .insert hre b ha
  | route hf ch => exact .route hf ch.weaken
  | discard hs => exact .discard hs
  | uninstall => exact .uninstall
  | drain => exact .drain

theorem Steps.weaken (steps : Steps build failing r r') :
    Steps build true r r' := Relation.ReflTransGen.mono (fun _ _ => Change.weaken) _ _ steps

theorem PhysicalSteps.steps (steps : PhysicalSteps r r') : Steps build failing r r' :=
  Relation.ReflTransGen.mono (fun _ _ => Change.physical) _ _ steps

/-! ## What every change keeps -/

theorem captureSeedTerminalFailure_eq {captured : ClusterRuntime}
    (ok : r.captureSeedTerminalFailure = .ok captured) :
    captured = { r with seedWaitingState := captured.seedWaitingState } := by
  unfold captureSeedTerminalFailure at ok
  split_ifs at ok
  · cases index : r.seedLaneIndex with
    | error e =>
      rw [index] at ok
      cases ok
    | ok seq =>
      rw [index] at ok
      dsimp only [bind, Except.bind] at ok
      split at ok
      · cases ok
        rfl
      split at ok
      · cases ok
        rfl
      · cases ok
        rfl
  · cases ok
    rfl

theorem closeAdmission_eq (r : ClusterRuntime) :
    r.closeAdmission =
      { r with
        clusterDraining := true
        pendingResolvedSeed := none
        seedBootstrap := .inactive
        seedWaitingState := r.closeAdmission.seedWaitingState
        routes := r.routes.map fun _ st =>
          { st with pendingInstall := none, lastDnsFailure := none, routeFailureAt := none } } := by
  unfold closeAdmission
  dsimp only
  cases capture :
      ({ r with clusterDraining := true } : ClusterRuntime).captureSeedTerminalFailure with
  | error e => rfl
  | ok closed =>
    rw [captureSeedTerminalFailure_eq capture]

/-- A fatal error ends the queues of a runtime that differs in its seed only. -/
theorem totalizeAfterHostFailure_eq (build : Build) (r : ClusterRuntime) :
    ∃ seedWaitingState, r.totalizeAfterHostFailure build =
      (({ r with pendingResolvedSeed := none, seedWaitingState } :
        ClusterRuntime).totalizeSeedWaiting build).totalizeRouteWaiting build := by
  unfold totalizeAfterHostFailure
  dsimp only
  cases capture :
    ({ r with pendingResolvedSeed := none } : ClusterRuntime).captureSeedTerminalFailure with
  | error e => exact ⟨_, rfl⟩
  | ok closed =>
    rw [captureSeedTerminalFailure_eq capture]
    exact ⟨_, rfl⟩

theorem Change.owned (change : Change build failing r r') (h : r.Owned) : r'.Owned := by
  cases change with
  | physical change => exact change.owned h
  | retire hf ho => exact Ownership.retire h
  | remove hf hr hl =>
    have hk := (h.removeLanes hf hl).1
    unfold Owned dropFamily
    simpa using hk
  | drain =>
    rw [closeAdmission_eq]
    exact h
  | aside | adopt | insert | route | discard | uninstall => exact h

theorem Change.succeeds (change : Change build failing r r') (h : r.Owned) : Succeeds r r' := by
  have hs : Succeeds r r := by
    refine ⟨fun _ hi => hi, ?_, ?_⟩
    · exact fun b f hf => .inl ⟨f, hf, rfl, fun _ active => active⟩
    · intro owner l l' pre post
      rw [some.inj (pre.symm.trans post)]
      exact .refl l'
  cases change with
  | physical change => exact change.succeeds h
  | retire hf hou =>
    refine ⟨fun _ hi => hi, ?_, hs.lane⟩
    intro c f' hh
    rw [get_adjust] at hh
    split_ifs at hh
    · obtain ⟨g, ho, rfl⟩ := map_eq_some_iff.1 hh
      exact .inl ⟨g, ho, rfl, fun _ active => active⟩
    · exact .inl ⟨f', hh, rfl, fun _ active => active⟩
  | remove hf hr hl =>
    have hk := (h.removeLanes hf hl).2
    refine ⟨by simp [dropFamily], ?_, ?_⟩
    · intro c f' hh
      simp only [dropFamily, removeLanes_families] at hh
      exact .inl ⟨f', of_get_erase hh, rfl, fun _ active => active⟩
    · intro owner l l' pre post
      rw [some.inj (pre.symm.trans (hk owner l' post))]
      exact .refl l'
  | drain =>
    rw [closeAdmission_eq]
    exact hs
  | aside | adopt | insert | route | discard | uninstall => exact hs

/-! ## Where a route state comes from -/

/-- What a route state of `r'` was in `r`. -/
inductive RouteOrigin (build : Build) (failing : Bool) (r r' : ClusterRuntime) (lane : BrokerLane) :
    BrokerRouteState → Prop
  | readvertised {directory : BrokerDirectory} {state : BrokerRouteState}
      (held : r.routes.get lane = some state)
      (newer : ∀ current, r.directory = some current → current.generation < directory.generation)
      (adopted : r' = r.adoptDirectory build directory) :
      RouteOrigin build failing r r' lane (readvertise build directory state).1
  | opened {route : BrokerRoute} {endpoint : BrokerEndpoint}
      (absent : r.routes.get lane = none) (same : r'.directory = r.directory)
      (resolves : r.resolveRoute route = some endpoint)
      (broker : route.brokerId = lane.brokerId) :
      RouteOrigin build failing r r' lane (.new lane route endpoint r.driver)
  | kept {state : BrokerRouteState} (held : r.routes.get lane = some state)
      (same : r'.directory = r.directory) : RouteOrigin build failing r r' lane state
  | uninstalled {state : BrokerRouteState} (held : r.routes.get lane = some state)
      (same : r'.directory = r.directory) :
      RouteOrigin build failing r r' lane state.clearInstalled
  | discarded {state : BrokerRouteState} (held : r.routes.get lane = some state)
      (same : r'.directory = r.directory)
      (stale : ∀ pending, state.pendingInstall = some pending →
        state.advertises pending.route pending.endpoint = false ∨
          r.routeIsCurrent pending.route pending.endpoint = false) :
      RouteOrigin build failing r r' lane { state with pendingInstall := none }
  | drained {state : BrokerRouteState} (held : r.routes.get lane = some state)
      (same : r'.directory = r.directory) (closed : r'.clusterDraining = true) :
      RouteOrigin build failing r r' lane
        { state with pendingInstall := none, lastDnsFailure := none, routeFailureAt := none }
  | changed {state state' : BrokerRouteState} (held : r.routes.get lane = some state)
      (same : r'.directory = r.directory) (families : r'.families = r.families)
      (change : RouteChange build failing r lane state state') :
      RouteOrigin build failing r r' lane state'

theorem Change.origin (ch : Change build failing r r') {l : BrokerLane}
    (hg : r'.routes.get l = some state') : RouteOrigin build failing r r' l state' := by
  cases ch with
  | aside | retire => exact .kept hg rfl
  | physical ch =>
    rw [ch.routes_eq] at hg
    exact .kept hg ch.directory_eq
  | @remove b f rm hf hre hl =>
    have hs : ((r.removeLanes rm).dropFamily b).directory = r.directory := by
      simp [dropFamily]
    simp only [dropFamily, removeLanes_routes, OrdMap.get_map, OrdMap.get_filter] at hg
    obtain ⟨st, pre, rfl⟩ := map_eq_some_iff.1 hg
    have pre := (filter_eq_some_iff.1 pre).1
    split_ifs
    · exact .uninstalled pre hs
    · exact .kept pre hs
  | adopt hn =>
    simp only [adoptDirectory, OrdMap.get_filter, OrdMap.get_map] at hg
    obtain ⟨st, pre, rfl⟩ := map_eq_some_iff.1 (filter_eq_some_iff.1 hg).1
    exact .readvertised pre hn rfl
  | insert hr broker ha =>
    rw [OrdMap.get_insert] at hg
    split_ifs at hg with hs
    · cases hg
      subst hs
      exact .opened ha rfl hr broker
    · exact .kept hg rfl
  | route hf ch =>
    rw [OrdMap.get_insert] at hg
    split_ifs at hg with hs
    · cases hg
      subst hs
      exact .changed hf rfl rfl ch
    · exact .kept hg rfl
  | discard hst =>
    simp only [clearPending, OrdMap.get_map] at hg
    obtain ⟨st, pre, rfl⟩ := map_eq_some_iff.1 hg
    split_ifs with hl
    · exact .discarded pre rfl fun p => hst l hl st p pre
    · exact .kept pre rfl
  | uninstall =>
    rw [OrdMap.get_map] at hg
    obtain ⟨st, pre, rfl⟩ := map_eq_some_iff.1 hg
    split_ifs
    · exact .uninstalled pre rfl
    · exact .kept pre rfl
  | drain =>
    rw [closeAdmission_eq, OrdMap.get_map] at hg
    obtain ⟨st, pre, rfl⟩ := map_eq_some_iff.1 hg
    exact .drained pre (by rw [closeAdmission_eq]) (by rw [closeAdmission_eq])

end ClusterRuntime

end KafkaDriver
