import KafkaDriver.CallSteps

/-!
# Calls that wait for a route

A call waits with its route until a lane serves the endpoint the directory advertises. In
every state of a run in which the cluster does not drain, a route with waiting calls has such
a lane, addresses that wait to be installed, or a resolution that was begun
(`waiting_calls_attended`). The resolution may be that of an older directory : a newer one
with the same endpoint keeps the calls, but the outcome is fenced by the route it was asked
for, and only the next call for the route starts another.
-/

namespace KafkaDriver

open ClusterRuntime Option RouteWaiting BrokerRouteState

/-! ## Route states and the directory -/

/-- A resolution of the endpoint was begun for a route of an older generation. -/
def BrokerRouteState.Superseded (s : BrokerRouteState) (route : BrokerRoute)
    (endpoint : BrokerEndpoint) : Prop :=
  ∃ old epoch effectId, s.resolution.state = .resolving old endpoint epoch effectId ∧
    old.generation < route.generation

namespace ClusterRuntime

/-- Route states stand under their own lane and advertise what the directory does. -/
structure Advertises (directory : Option BrokerDirectory)
    (routes : OrdMap BrokerLane BrokerRouteState) : Prop where
  own : ∀ lane state, routes.get lane = some state → state.lane = lane
  current : ∀ lane state, routes.get lane = some state →
    state.advertised = directory.bind (advertised · lane)

/-- The routes of the runtime follow its directory. -/
def Follows (r : ClusterRuntime) : Prop := Advertises r.directory r.routes

variable {build : Build} {failing : Bool} {r r' : ClusterRuntime}

theorem new_follows (driver : DriverLimits) : (new driver).Follows :=
  ⟨fun _ _ hg => (nomatch hg), fun _ _ hg => (nomatch hg)⟩

theorem Follows.keyed (h : r.Follows) : r.Keyed := h.own

theorem Advertises.of_kept {dir : Option BrokerDirectory}
    {rts routes' : OrdMap BrokerLane BrokerRouteState} (h : Advertises dir rts)
    (hk : ∀ lane state', routes'.get lane = some state' → ∃ state,
      rts.get lane = some state ∧ state'.lane = state.lane ∧ state'.advertised = state.advertised) :
    Advertises dir routes' where
  own := by
    intro lane state' hg
    obtain ⟨state, pre, own, -⟩ := hk lane state' hg
    exact own.trans (h.own lane state pre)
  current := by
    intro lane state' hg
    obtain ⟨state, pre, -, hs⟩ := hk lane state' hg
    exact hs.trans (h.current lane state pre)

variable {endpoint : BrokerEndpoint} {lane : BrokerLane} {current : AdvertisedRoute}
  {directory : BrokerDirectory} {state state' : BrokerRouteState} {owner : DirectRefreshOwner}

theorem advertised_of_resolveRoute {rt : BrokerRoute}
    (hr : r.resolveRoute rt = some endpoint) (b : rt.brokerId = lane.brokerId) :
    r.directory.bind (advertised · lane) = some ⟨rt, endpoint⟩ := by
  unfold resolveRoute at hr
  obtain ⟨dir, hk, hf⟩ := bind_eq_some_iff.1 hr
  cases entry : dir.resolve rt with
  | error e =>
    rw [entry] at hf
    cases hf
  | ok e =>
    rw [entry] at hf
    cases hf
    have hn := (BrokerDirectory.resolve_eq_ok.1 entry).1
    simp [hk, advertised, ← b, hn, entry]

theorem routeIsCurrent_of_advertised (hk : r.directory.bind (advertised · lane) = some current) :
    r.routeIsCurrent current.route current.endpoint = true := by
  obtain ⟨dir, hg, hf⟩ := bind_eq_some_iff.1 hk
  unfold advertised at hf
  obtain ⟨rt, hn, hf⟩ := bind_eq_some_iff.1 hf
  cases entry : dir.resolve rt with
  | error e =>
    rw [entry] at hf
    cases hf
  | ok e =>
    rw [entry] at hf
    cases hf
    simp [routeIsCurrent, resolveRoute, hg, entry]

theorem generation_of_advertised (hs : advertised directory lane = some current) :
    current.route.generation = directory.generation := by
  unfold advertised at hs
  obtain ⟨rt, hn, hf⟩ := bind_eq_some_iff.1 hs
  unfold BrokerDirectory.routeTo at hn
  obtain ⟨e, -, rfl⟩ := map_eq_some_iff.1 hn
  split at hf
  · cases hf
    rfl
  · cases hf

/-- Under the invariant a route keeps what it advertises. -/
theorem RouteChange.advertised_eq (ch : RouteChange build failing r lane state state')
    (h : r.Follows) (hg : r.routes.get lane = some state) :
    state'.lane = state.lane ∧ state'.advertised = state.advertised := by
  cases ch with
  | retain hr b =>
    rw [retainRoute_fst]
    refine ⟨rfl, ?_⟩
    rw [h.current lane state hg, advertised_of_resolveRoute hr b]
  | install | defer | fail | settle | queue | start | strand => exact ⟨rfl, rfl⟩

theorem readvertise_spec (b : Build) (dir : BrokerDirectory) (st : BrokerRouteState) :
    (readvertise b dir st).1.lane = st.lane ∧
      (readvertise b dir st).1.advertised = advertised dir st.lane := by
  unfold readvertise
  cases known : advertised dir st.lane with
  | none => exact ⟨rfl, rfl⟩
  | some cur =>
    dsimp only
    rw [retainRoute_fst]
    exact ⟨rfl, rfl⟩

theorem Change.follows (ch : Change build failing r r') (h : r.Follows) : r'.Follows := by
  have each : ∀ lane state', r'.routes.get lane = some state' →
      state'.lane = lane ∧ state'.advertised = r'.directory.bind (advertised · lane) := by
    intro lane state' hh
    have pre : ∀ state, r.routes.get lane = some state →
        state.lane = lane ∧ state.advertised = r.directory.bind (advertised · lane) :=
      fun state hk => ⟨h.own lane state hk, h.current lane state hk⟩
    cases ch.origin hh with
    | @readvertised directory state hk hn had =>
      have hs := readvertise_spec build directory state
      rw [(pre state hk).1] at hs
      rw [had]
      exact hs
    | opened ha hs hr b =>
      rw [hs]
      exact ⟨rfl, (advertised_of_resolveRoute hr b).symm⟩
    | changed hk hs fams ch =>
      rw [hs, (ch.advertised_eq h hk).1, (ch.advertised_eq h hk).2]
      exact pre _ hk
    | kept hk hs | uninstalled hk hs | discarded hk hs stale
    | drained hk hs hc =>
      have kept := pre _ hk
      rw [hs]
      exact kept
  exact ⟨fun lane state' hh => (each lane state' hh).1,
    fun lane state' hh => (each lane state' hh).2⟩

/-! ## Lanes stay with the routes they serve -/

theorem Physical.servedBy (ch : Physical r r') (hse : r.ServedBy lane endpoint owner) :
    r'.ServedBy lane endpoint owner := by
  obtain ⟨f, hf, live, tgt, act, ho⟩ := hse
  cases ch with
  | reserve | evolve | seat | reseat => exact ⟨f, hf, live, tgt, act, ho⟩
  | @activate b _ traffic _ _ _ _ =>
    by_cases hs : lane.brokerId = b
    · have hm : (r.families.adjust b (·.markActive traffic)).get lane.brokerId =
          some (f.markActive traffic) := by
        rw [OrdMap.get_adjust, if_pos hs, hf]
        rfl
      refine ⟨f.markActive traffic, hm, live, tgt, ?_, ho⟩
      simp [BrokerFamily.markActive, Function.update_apply, act]
    · exact ⟨f, by simp [hs, hf], live, tgt, act, ho⟩
  | publish ha res hno hn =>
    have ne : lane.brokerId ≠ _ := fun hs => by
      rw [hs, ha] at hf
      cases hf
    exact ⟨f, by simp [ne, hf], live, tgt, act, ho⟩

/-- An outdated family serves no endpoint the directory advertises. -/
theorem Follows.endpoint_ne (h : r.Follows) {b : BrokerId} {f : BrokerFamily}
    (ho : r.Outdated b f) (broker : lane.brokerId = b)
    (hk : r.directory.bind (advertised · lane) = some current) :
    f.endpoint ≠ current.endpoint := by
  rcases ho with ha | ⟨lane', st, ne, hg, broker', hsh, hap⟩
  · obtain ⟨dir, has, hf⟩ := bind_eq_some_iff.1 hk
    obtain ⟨rt, hn, -⟩ := bind_eq_some_iff.1 hf
    simp [familyIsAdvertised, has, ← broker, hn] at ha
  · have hs : r.directory.bind (advertised · lane') = r.directory.bind (advertised · lane) := by
      unfold advertised
      rw [broker', broker]
    rw [h.current lane' st hg, hs, hk] at hsh
    obtain rfl := some.inj hsh
    exact fun eq => hap eq.symm

/-- A lane serves an advertised endpoint as long as it is advertised. -/
theorem Change.servedBy (change : Change build failing r r') (h : r.Follows)
    (hk : r.directory.bind (advertised · lane) = some current)
    (hs : r.ServedBy lane current.endpoint owner) :
    r'.ServedBy lane current.endpoint owner := by
  cases change with
  | aside | adopt | insert | route | discard | uninstall => exact hs
  | physical change => exact change.servedBy hs
  | drain =>
    rw [closeAdmission_eq]
    exact hs
  | @retire b g hf hou =>
    obtain ⟨f, has, live, tgt, active, ho⟩ := hs
    by_cases same : lane.brokerId = b
    · rw [same, hf] at has
      cases has
      exact absurd tgt (h.endpoint_ne hou same hk)
    · exact ⟨f, by simp [same, has], live, tgt, active, ho⟩
  | @remove b g removals hf hr listed =>
    obtain ⟨f, has, live, tgt, active, ho⟩ := hs
    have hot : lane.brokerId ≠ b := by
      intro same
      rw [same, hf] at has
      cases has
      rw [hr] at live
      cases live
    exact ⟨f, by simp [dropFamily, hot, has], live, tgt, active, ho⟩

/-! ## Waiting calls -/

/-- Work is under way for the calls of a route, or was when its directory was replaced. -/
def Attended (r : ClusterRuntime) (lane : BrokerLane) (state : BrokerRouteState) : Prop :=
  ∃ current, state.advertised = some current ∧
    (r.Expects lane state current.route current.endpoint ∨
      state.Superseded current.route current.endpoint)

/-- Unless the cluster drains, every route with waiting calls is attended. -/
def Awaited (r : ClusterRuntime) : Prop :=
  r.clusterDraining = false → ∀ lane state, r.routes.get lane = some state →
    state.waiting.isEmpty = false → r.Attended lane state

theorem Change.running_of (change : Change build failing r r') (ho' : r'.clusterDraining = false) :
    r.clusterDraining = false := by
  cases change with
  | aside | retire | adopt | insert | route | discard | uninstall => exact ho'
  | physical change => cases change <;> exact ho'
  | remove hf hr listed => simpa [dropFamily] using ho'
  | drain =>
    rw [closeAdmission_eq] at ho'
    cases ho'

/-- A newer directory leaves the work of its routes in place, superseding resolutions. -/
theorem attended_readvertise (h : r.Follows) (hg : r.routes.get lane = some state)
    (hn : ∀ current, r.directory = some current → current.generation < directory.generation)
    (hw : (readvertise build directory state).1.waiting.isEmpty = false)
    (pre : state.waiting.isEmpty = false → r.Attended lane state) :
    (r.adoptDirectory build directory).Attended lane (readvertise build directory state).1 := by
  unfold readvertise at hw ⊢
  rw [h.own lane state hg] at hw ⊢
  cases shown : advertised directory lane with
  | none =>
    rw [shown] at hw
    dsimp only at hw
    unfold retire at hw
    rw [failWaiting_fst, isEmpty_failAll] at hw
    cases hw
  | some current =>
    rw [shown] at hw
    dsimp only at hw ⊢
    refine ⟨current, by rw [retainRoute_fst], ?_⟩
    -- the waiting calls survive only if the endpoint stays
    rw [retainRoute_fst] at hw
    dsimp only at hw
    split_ifs at hw with hm
    · rw [isEmpty_failAll] at hw
      cases hw
    obtain ⟨old, hol, ha⟩ := pre hw
    have hst : old.endpoint = current.endpoint := by simpa [hol] using hm
    have ho : old.route.generation < current.route.generation := by
      have hk := h.current lane state hg
      rw [hol] at hk
      obtain ⟨directory', has, hf⟩ := bind_eq_some_iff.1 hk.symm
      rw [generation_of_advertised hf, generation_of_advertised shown]
      exact hn directory' has
    have res : ∀ rt ep, (state.retainRoute build rt ep).1.resolution =
        state.resolution := fun rt ep => by rw [retainRoute_fst]
    rw [hst] at ha
    rcases ha with (hs | p | hr) | hsu
    · exact .inl (.inl hs)
    · exact .inl (.inr (.inl (pendingIsCurrent_retainRoute build p)))
    · refine .inr ?_
      unfold isResolving at hr
      split at hr
      · rename_i rt ep e fx hfl
        obtain ⟨rfl, rfl⟩ := of_decide_eq_true hr
        exact ⟨old.route, e, fx, by rw [res, hfl], ho⟩
      · cases hr
    · obtain ⟨oldest, e, fx, hfl, pre⟩ := hsu
      exact .inr ⟨oldest, e, fx, by rw [res, hfl], pre.trans ho⟩

/-- A route that keeps its resolution and its current pending installation stays attended. -/
theorem Attended.transport (hat : r.Attended lane state) (ch : Change build failing r r')
    (h : r.Follows) (hg : r.routes.get lane = some state)
    (hsh : state'.advertised = state.advertised)
    (res : state'.resolution = state.resolution)
    (pend : ∀ current, state.advertised = some current →
      state.pendingIsCurrent current.route current.endpoint = true →
      state'.pendingIsCurrent current.route current.endpoint = true) :
    r'.Attended lane state' := by
  obtain ⟨current, hk, work⟩ := hat
  refine ⟨current, hsh.trans hk, ?_⟩
  have ha := h.current lane state hg
  rw [hk] at ha
  rcases work with (⟨owner, hs⟩ | hw | hr) | hsu
  · exact .inl (.inl ⟨owner, ch.servedBy h ha.symm hs⟩)
  · exact .inl (.inr (.inl (pend current hk hw)))
  · refine .inl (.inr (.inr ?_))
    unfold isResolving at hr ⊢
    rwa [res]
  · refine .inr ?_
    unfold BrokerRouteState.Superseded at hsu ⊢
    rwa [res]

theorem RouteChange.attended (step : RouteChange build false r lane state state')
    (ch : Change build false r r') (fams : r'.families = r.families) (h : r.Follows)
    (hg : r.routes.get lane = some state)
    (pre : state.waiting.isEmpty = false → r.Attended lane state)
    (hw : state'.waiting.isEmpty = false) : r'.Attended lane state' := by
  have hse : ∀ {ep owner}, r.ServedBy lane ep owner → r'.ServedBy lane ep owner := by
    intro ep owner hs
    unfold ServedBy at hs ⊢
    rwa [fams]
  cases step with
  | @retain rt ep hr b =>
    have hsh : state.advertised = some ⟨rt, ep⟩ :=
      (h.current lane state hg).trans (advertised_of_resolveRoute hr b)
    have hk := state.retainRoute_fst build rt ep
    have queue : (state.retainRoute build rt ep).1.waiting = state.waiting := by
      rw [hk]
      simp [hsh]
    rw [queue] at hw
    refine (pre hw).transport ch h hg (by rw [hk, hsh]) (by rw [hk]) ?_
    intro cur hkn pend
    rw [hsh] at hkn
    cases hkn
    exact pendingIsCurrent_retainRoute build pend
  | install cur hs =>
    exact ⟨_, cur, .inl (.inl ⟨_, hse hs⟩)⟩
  | defer cur =>
    exact ⟨_, cur, .inl (.inr (.inl (by simp [pendingIsCurrent])))⟩
  | fail =>
    rw [failWaiting_fst, RouteWaiting.isEmpty_failAll] at hw
    cases hw
  | settle hfe =>
    have hwa : state.waiting.isEmpty = false := by
      rw [Bool.eq_false_iff, Ne, RouteWaiting.isEmpty_iff] at hw ⊢
      dsimp only at hw
      omega
    exact (pre hwa).transport ch h hg rfl rfl fun _ _ pend => pend
  | queue cur want =>
    refine ⟨_, cur, .inl ?_⟩
    rcases want with ⟨owner, hs⟩ | pend | hre
    · exact .inl ⟨owner, hse hs⟩
    · exact .inr (.inl pend)
    · exact .inr (.inr hre)
  | start cur hre =>
    refine ⟨_, cur, .inl (.inr (.inr ?_))⟩
    simp [isResolving, hre]
  | strand hf => cases hf

theorem Change.awaited (ch : Change build false r r') (h : r.Follows) (ha : r.Awaited) :
    r'.Awaited := by
  intro ho' l st' hg hw
  have pre := ha (ch.running_of ho') l
  cases ch.origin hg with
  | readvertised hk hn had =>
    rw [had]
    exact attended_readvertise h hk hn hw (pre _ hk)
  | opened => cases hw
  | kept hk hs | uninstalled hk hs =>
    exact (pre _ hk hw).transport ch h hk rfl rfl fun _ _ p => p
  | discarded hk hs hst =>
    refine (pre _ hk hw).transport ch h hk rfl rfl fun cur hsh p => ?_
    have hv : r.routeIsCurrent cur.route cur.endpoint = true :=
      routeIsCurrent_of_advertised (by rw [← h.current _ _ hk, hsh])
    unfold pendingIsCurrent at p
    split at p
    · rename_i hi ws
      obtain ⟨rt, ep⟩ := of_decide_eq_true p
      rcases hst hi ws with hu | hu
      · simp [advertises, hsh, rt, ep] at hu
      · rw [rt, ep, hv] at hu
        cases hu
    · cases p
  | drained hk hs hc =>
    rw [hc] at ho'
    cases ho'
  | changed hk hs fams step =>
    exact step.attended ch fams h hk (pre _ hk) hw

/-! ## Runs -/

/-- What every call keeps, however it ends. -/
structure Sound (r : ClusterRuntime) : Prop where
  owned : r.Owned
  follows : r.Follows

theorem Steps.sound (steps : Steps build failing r r') (h : r.Sound) : r'.Sound := by
  induction steps with
  | refl => exact h
  | tail _ ch ih => exact ⟨ch.owned ih.owned, ch.follows ih.follows⟩

theorem Steps.awaited (steps : Steps build false r r') (h : r.Sound) (ha : r.Awaited) :
    r'.Awaited := by
  induction steps with
  | refl => exact ha
  | tail steps ch ih => exact ch.awaited (Steps.sound steps h).follows ih

theorem Sound.totalize (h : r.Sound) (b : Build) : (r.totalizeAfterHostFailure b).Sound := by
  obtain ⟨_, hs⟩ := totalizeAfterHostFailure_eq b r
  rw [hs]
  refine ⟨h.owned, h.follows.of_kept fun l st' hg => ?_⟩
  rw [totalizeRouteWaiting, OrdMap.get_map] at hg
  obtain ⟨st, pre, rfl⟩ := map_eq_some_iff.1 hg
  exact ⟨st, pre, rfl, rfl⟩

theorem awaited_totalize (b : Build) (r : ClusterRuntime) :
    (r.totalizeAfterHostFailure b).Awaited := by
  intro _ l st' hg hw
  obtain ⟨_, hs⟩ := totalizeAfterHostFailure_eq b r
  rw [hs, totalizeRouteWaiting, OrdMap.get_map] at hg
  obtain ⟨st, -, rfl⟩ := map_eq_some_iff.1 hg
  rw [failWaiting_fst, isEmpty_failAll] at hw
  cases hw

/-- A sync leaves lanes and directory, and of each route all but the two fields it writes. -/
theorem sync_quiet (build : Build) (r : ClusterRuntime) :
    (step build r .syncRouteFailures).1 = { r with
        routes := (step build r .syncRouteFailures).1.routes
        causality := (step build r .syncRouteFailures).1.causality } ∧
      ∀ lane state', (step build r .syncRouteFailures).1.routes.get lane = some state' →
        ∃ state, r.routes.get lane = some state ∧ Quiet state state' := by
  rcases step_sync build r with hs | ⟨_, -, broken, -⟩
  · exact ⟨hs.frame, fun _ _ => hs.origin SyncedRoute.quiet⟩
  · exact ⟨broken.frame, fun _ _ => broken.origin InterruptedRoute.quiet⟩

theorem sound_sync (build : Build) (h : r.Sound) : (step build r .syncRouteFailures).1.Sound := by
  obtain ⟨hf, hq⟩ := sync_quiet build r
  rw [hf]
  refine ⟨h.owned, h.follows.of_kept fun lane st' hg => ?_⟩
  obtain ⟨st, pre, hs⟩ := hq lane st' hg
  exact ⟨st, pre, by rw [hs], by rw [hs]⟩

theorem awaited_sync (build : Build) (ha : r.Awaited) :
    (step build r .syncRouteFailures).1.Awaited := by
  obtain ⟨hf, hq⟩ := sync_quiet build r
  intro ho' lane st' hg hw
  obtain ⟨st, pre, hs⟩ := hq lane st' hg
  rw [hf] at ho'
  rw [hs] at hw
  obtain ⟨cur, hsh, work⟩ := ha ho' lane st pre hw
  rw [hf, hs]
  exact ⟨cur, hsh, work⟩

theorem step_sound (c : ClusterCall) (h : r.Sound) : (step build r c).1.Sound := by
  by_cases sync : c = .syncRouteFailures
  · subst sync
    exact sound_sync build h
  · rcases step_outcome h.follows.keyed sync with steps | ⟨failed, steps, hs⟩
    · exact Steps.sound steps h
    · rw [hs]
      exact (Steps.sound steps h).totalize build

theorem step_awaited (c : ClusterCall) (h : r.Sound) (ha : r.Awaited) :
    (step build r c).1.Awaited := by
  by_cases sync : c = .syncRouteFailures
  · subst sync
    exact awaited_sync build ha
  · rcases step_outcome h.follows.keyed sync with steps | ⟨failed, steps, hs⟩
    · exact Steps.awaited steps h ha
    · rw [hs]
      exact awaited_totalize build failed

theorem after_sound (b : Build) (driver : DriverLimits) (cs : List ClusterCall) :
    (after b driver cs).Sound :=
  Runs.final_invariant (step b) (fun _ c h => step_sound c h)
    ⟨new_owned driver, new_follows driver⟩ cs

theorem after_awaited (b : Build) (driver : DriverLimits) (cs : List ClusterCall) :
    (after b driver cs).Awaited :=
  (Runs.final_invariant (I := fun r => r.Sound ∧ r.Awaited) (step b)
    (fun _ c h => ⟨step_sound c h.1, step_awaited c h.1 h.2⟩)
    ⟨⟨new_owned driver, new_follows driver⟩, fun _ _ _ hg => (nomatch hg)⟩ cs).2

/-! ## Owners of lanes

A new reservation is fresh, so an owner handed out before is reserved later only if it is now. -/

/-- The seed or a class of some family holds the owner. -/
def Reserved (r : ClusterRuntime) (owner : DirectRefreshOwner) : Prop :=
  (∃ s, r.seed = some s ∧ s.owner = owner) ∨
    ∃ b f t, r.families.get b = some f ∧ f.owners t = owner

/-- Owners handed out before stay so, and are reserved only if they were. -/
def Inherits (r r' : ClusterRuntime) : Prop :=
  ∀ owner, r.identities.Issued owner →
    r'.identities.Issued owner ∧ (r'.Reserved owner → r.Reserved owner)

variable {r'' : ClusterRuntime}

theorem Inherits.refl (r : ClusterRuntime) : Inherits r r := fun _ hi => ⟨hi, id⟩

theorem Inherits.trans (h : Inherits r r') (h' : Inherits r' r'') : Inherits r r'' :=
  fun owner hi =>
    have first := h owner hi
    have second := h' owner first.1
    ⟨second.1, first.2 ∘ second.2⟩

/-- The seed stays, or gets an owner that was never handed out. -/
theorem Change.seed_cases (ch : Change build failing r r') :
    r'.seed = r.seed ∨ ∃ s, r'.seed = some s ∧ r.identities.Fresh s.owner := by
  cases ch with
  | physical ch =>
    cases ch with
    | seat _ res | reseat _ _ res =>
      exact .inr ⟨_, rfl, (BorneraIdentityAllocator.reserveEndpointLanes_ok res).fresh 0⟩
    | _ => exact .inl rfl
  | remove => simp [dropFamily]
  | drain =>
    rw [closeAdmission_eq]
    exact .inl rfl
  | _ => exact .inl rfl

theorem Change.inherits (ch : Change build failing r r') (h : r.Owned) : Inherits r r' := by
  have hs := ch.succeeds h
  refine fun owner hi => ⟨hs.issued owner hi, ?_⟩
  rintro (⟨s, hp, rfl⟩ | ⟨b, f', t, hf', rfl⟩)
  · rcases ch.seed_cases with same | ⟨s', hp', hf⟩
    · exact .inl ⟨s, same ▸ hp, rfl⟩
    · obtain rfl := some.inj (hp.symm.trans hp')
      exact absurd rfl (hf.ne hi)
  · rcases hs.family b f' hf' with ⟨f, hf, ho, -⟩ | ⟨-, hf⟩
    · exact .inr ⟨b, f, t, hf, by rw [ho]⟩
    · exact absurd rfl ((hf t).ne hi)

theorem Steps.inherits (steps : Steps build failing r r') (h : r.Sound) : Inherits r r' := by
  induction steps with
  | refl => exact .refl r
  | tail steps ch ih => exact ih.trans (ch.inherits (Steps.sound steps h).owned)

theorem step_inherits (c : ClusterCall) (h : r.Sound) : Inherits r (step build r c).1 := by
  by_cases sync : c = .syncRouteFailures
  · subst sync
    rw [(sync_quiet build r).1]
    exact .refl r
  · rcases step_outcome h.follows.keyed sync with steps | ⟨failed, steps, hs⟩
    · exact Steps.inherits steps h
    · obtain ⟨_, eq⟩ := totalizeAfterHostFailure_eq build failed
      have kept := Steps.inherits steps h
      rw [hs, eq]
      exact kept

/-- After any calls, those that ended in an error included, the owners of lanes are apart and
indexed exactly, and an owner that was given up in a run is not reserved again. -/
theorem owners_not_reused (build : Build) (driver : DriverLimits) (calls : List ClusterCall) :
    (after build driver calls).Owned ∧
    ∀ more rest owner, (after build driver calls).Reserved owner →
      (after build driver (calls ++ more ++ rest)).Reserved owner →
      (after build driver (calls ++ more)).Reserved owner := by
  have run : ∀ cs more, Inherits (after build driver cs) (after build driver (cs ++ more)) := by
    intro cs more
    rw [after, after, Runs.final_append]
    exact (Runs.final_invariant (step build) (I := fun r => r.Sound ∧ Inherits _ r)
      (fun _ c h => ⟨step_sound c h.1, h.2.trans (step_inherits c h.1)⟩)
      ⟨after_sound build driver cs, .refl _⟩ more).2
  have sound := after_sound build driver calls
  refine ⟨sound.owned, fun more rest owner held again => ?_⟩
  have issued : (after build driver calls).identities.Issued owner := by
    obtain ⟨s, hs, rfl⟩ | ⟨b, f, t, hf, rfl⟩ := held
    · exact sound.owned.seedIssued s hs
    · exact sound.owned.familyIssued b f t hf
  exact (run (calls ++ more) rest owner (run calls more owner issued).1).2 again

end ClusterRuntime

namespace BrokerRouteState.Superseded

variable {s : BrokerRouteState} {route : BrokerRoute} {endpoint : BrokerEndpoint}

/-- The next call for the route asks for another resolution. -/
theorem needsResolution_eq (h : s.Superseded route endpoint)
    (idle : s.pendingIsCurrent route endpoint = false) :
    s.needsResolution route endpoint false = true := by
  obtain ⟨old, epoch, effectId, st, older⟩ := h
  have ne : old ≠ route := fun same => older.ne (congrArg BrokerRoute.generation same)
  simp [needsResolution, isResolving, st, ne, idle]

/-- What a superseded resolution brings is ignored. -/
theorem ignored {r : ClusterRuntime} {lane : BrokerLane} (h : s.Superseded route endpoint)
    (held : r.routes.get lane = some s) (adv : s.advertised = some ⟨route, endpoint⟩)
    (build : Build) (outcome : DnsOutcome) (factory : LaneFactory) :
    (step build r (.completeRouteResolution lane outcome factory)).1 = r := by
  obtain ⟨old, epoch, effectId, st, older⟩ := h
  have ne : route ≠ old := fun same => older.ne' (congrArg BrokerRoute.generation same)
  have other : s.advertises old endpoint = false := by simp [advertises, adv, ne]
  have ran : tryCompleteRouteResolution build lane outcome factory r = .ok .ignored r := by
    unfold tryCompleteRouteResolution
    simp only [bind, EStateM.bind, show (get : Host _) r = .ok r r from rfl, held, st, other,
      Bool.false_and]
    split <;> rfl
  simp only [step, host, completeRouteResolution, finishHostResult, Fallible.onError, Functor.map,
    EStateM.map, ran]

end BrokerRouteState.Superseded

/-- In every run, while the cluster does not drain, a route with waiting calls advertises a
route the directory resolves and has a lane for its endpoint, addresses that wait to be
installed, or a resolution of its endpoint that was begun and not taken in, for the route itself
or for one of an older directory. What the latter brings, or has brought, is ignored. -/
theorem waiting_calls_attended (build : Build) (driver : DriverLimits) (calls : List ClusterCall)
    (lane : BrokerLane) (state : BrokerRouteState)
    (running : (after build driver calls).clusterDraining = false)
    (held : (after build driver calls).routes.get lane = some state)
    (waits : state.waiting.isEmpty = false) :
    ∃ current, state.advertised = some current ∧
      (after build driver calls).routeIsCurrent current.route current.endpoint = true ∧
      ((∃ owner, (after build driver calls).currentPhysicalOwner lane current.endpoint =
          .ok (some owner)) ∨
        state.pendingIsCurrent current.route current.endpoint = true ∨
        state.isResolving current.route current.endpoint = true ∨
        state.Superseded current.route current.endpoint) := by
  have hso := after_sound build driver calls
  obtain ⟨current, hs, work⟩ := after_awaited build driver calls running lane state held waits
  have hk := hso.follows.current lane state held
  rw [hs] at hk
  refine ⟨current, hs, routeIsCurrent_of_advertised hk.symm, ?_⟩
  rcases work with (⟨owner, hse⟩ | pend | hr) | hsu
  · exact .inl ⟨owner, hso.owned.currentPhysicalOwner_eq.2 hse⟩
  · exact .inr (.inl pend)
  · exact .inr (.inr (.inl hr))
  · exact .inr (.inr (.inr hsu))

/-! ## One broker -/

def soloDriver : DriverLimits where
  maxBrokers := .one
  waitingCalls := .four
  waitingBytes := ⟨4096, by decide, by decide⟩
  admissionBudget := .four
  mailboxCapacity := .four
  mailboxByteCapacity := ⟨4096, by decide, by decide⟩
  lanes_le := by decide

/-- A directory that names broker 7 alone. -/
def soloDirectory (generation : ℕ) (host : String) : BrokerDirectory :=
  ⟨⟨generation⟩, ⟨generation⟩, [⟨⟨7⟩, ⟨host, 9092⟩⟩], List.pairwise_singleton _ _⟩

def soloRoute (generation : ℕ) : BrokerRoute := ⟨⟨generation⟩, ⟨7⟩, ⟨generation⟩⟩

def soloLane : BrokerLane := ⟨⟨7⟩, .bulk⟩

def soloRequest (ticket : ℕ) : Request := ⟨ticket, .bulk, 5000, none, 8, false⟩

/-- A lane that neither connects nor fails. -/
def soloReply : LaneReply :=
  ⟨⟨[], ⟨false, false, false, false, false, none, false⟩⟩, false⟩

def soloFactory : LaneFactory where
  atResolved _ := true
  seedAtResolved := true
  backoff := ⟨1, 8, Nat.one_pos, by decide, by decide⟩
  start _ := some soloReply.change

/-- The addresses of the broker, in answer to the request with effect `id`. -/
def soloOutcome (id : ℕ) : DnsOutcome :=
  ⟨⟨id⟩, ⟨id⟩, .ok ⟨[⟨[127, 0, 0, 1], 9092⟩], by simp⟩⟩

/-- A call starts the resolution of the only broker. -/
def soloCalls : List ClusterCall :=
  [.installDirectory (soloDirectory 1 "broker.test"),
    .submitRoute (soloRoute 1) (some ⟨1⟩) (soloRequest 1) ⟨0⟩ soloReply]

theorem waiting_calls_attended_solo :
    ∃ current,
      (after .release soloDriver soloCalls).routeIsCurrent current.route current.endpoint = true ∧
      ∃ state, (after .release soloDriver soloCalls).routes.get soloLane = some state ∧
        state.waiting.isEmpty = false ∧ state.advertised = some current := by
  obtain ⟨current, hs, hk, -⟩ :=
    waiting_calls_attended .release soloDriver soloCalls soloLane _ rfl rfl rfl
  exact ⟨current, hk, _, rfl, rfl, hs⟩

/-- A directory with the same endpoint arrives while the resolution is in flight : the call
still waits, but no lane serves it, nothing is to be installed, and what is resolved is the
route of the directory before. The outcome of that resolution changes nothing. -/
theorem superseded_call_waits :
    let r := after .release soloDriver
      (soloCalls ++ [.installDirectory (soloDirectory 2 "broker.test")])
    r.clusterDraining = false ∧
      ∃ state current, r.routes.get soloLane = some state ∧ state.waiting.isEmpty = false ∧
        state.advertised = some current ∧
        r.currentPhysicalOwner soloLane current.endpoint = .ok none ∧
        state.pendingIsCurrent current.route current.endpoint = false ∧
        state.isResolving current.route current.endpoint = false ∧
        (step .release r (.completeRouteResolution soloLane (soloOutcome 1) soloFactory)).1 = r :=
  ⟨rfl, _, _, rfl, rfl, rfl, rfl, rfl, by decide, rfl⟩

end KafkaDriver
