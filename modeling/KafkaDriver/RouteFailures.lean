import KafkaDriver.RouteLiveness

/-!
# Failures of the lane a route has installed

A sync looks at the lane each route has installed. If the lane lost its connection, the route
gets a stamp and remembers the epoch that was lost, so that the next sync does not stamp it
again. The remembered epoch is a bare number : it outlives the lane, while the lane that
follows counts its epochs from the first again.

`failures_stamped_once` says what this gives when a remembered epoch is never met in a lane
for which it was not noted : the first sync that finds a lane in a lost epoch stamps the
route, the others leave it. In `replaced_lane_unstamped` a second lane loses the epoch its
predecessor lost.

That no epoch is stamped twice needs no such condition (`Remembers`) : a family that went does
not come back with the owners it had, and the epochs a lane can still lose only grow.
-/

namespace KafkaDriver

open ClusterRuntime List Option Runs BrokerRouteState

namespace ClusterRuntime

variable {build : Build} {failing : Bool} {r r' : ClusterRuntime} {lane l : BrokerLane}
  {owner o : DirectRefreshOwner} {epoch : ConnectionEpoch} {st st' : BrokerRouteState}
  {inst : InstalledRoute} {past : List ClusterEvent}

/-! ## What a change leaves of families and routes -/

/-- A family keeps its owners and active classes, or is gone and installed nowhere. -/
theorem Change.family_kept (change : Change build failing r r') (hk : r.Keyed) {b : BrokerId}
    {f : BrokerFamily} (hf : r.families.get b = some f) :
    (∃ f', r'.families.get b = some f' ∧ f'.owners = f.owners ∧
        ∀ t, f.active t = true → f'.active t = true) ∨
      ∀ lane st, lane.brokerId = b → r'.routes.get lane = some st → st.installed = none := by
  have hs : ∃ f', r.families.get b = some f' ∧ f'.owners = f.owners ∧
      ∀ t, f.active t = true → f'.active t = true := ⟨f, hf, rfl, fun _ active => active⟩
  cases change with
  | aside | adopt | insert | route | discard | uninstall => exact .inl hs
  | drain =>
    rw [closeAdmission_eq]
    exact .inl hs
  | physical change =>
    cases change with
    | reserve | evolve | seat | reseat => exact .inl hs
    | @activate c g traffic lane has hd ho =>
      refine .inl ?_
      dsimp only
      rw [OrdMap.get_adjust, hf]
      split_ifs
      · refine ⟨f.markActive traffic, rfl, rfl, fun t active => ?_⟩
        simp [BrokerFamily.markActive, Function.update_apply, active]
      · exact ⟨f, rfl, rfl, fun _ active => active⟩
    | @publish c ep ids owners classes lanes ha hre hno ho =>
      refine .inl ⟨f, ?_, rfl, fun _ active => active⟩
      dsimp only
      rw [OrdMap.get_insert, if_neg, hf]
      rintro rfl
      rw [ha] at hf
      cases hf
  | @retire c g has hou =>
    refine .inl ?_
    dsimp only
    rw [OrdMap.get_adjust, hf]
    split_ifs
    · exact ⟨_, rfl, rfl, fun _ active => active⟩
    · exact ⟨f, rfl, rfl, fun _ active => active⟩
  | @remove c g removals has hr listed =>
    by_cases broker : b = c
    · subst broker
      refine .inr fun lane st hn hh => ?_
      simp only [dropFamily, removeLanes_routes, OrdMap.get_map, OrdMap.get_filter] at hh
      obtain ⟨pre, kept, rfl⟩ := map_eq_some_iff.1 hh
      have own := hk lane pre (filter_eq_some_iff.1 kept).1
      rw [own, if_pos hn]
      rfl
    · exact .inl ⟨f, by simp [dropFamily, broker, hf], rfl, fun _ active => active⟩

theorem RouteChange.lastConnectionFailureEpoch_eq (ch : RouteChange build failing r l st st') :
    st'.lastConnectionFailureEpoch = st.lastConnectionFailureEpoch := by
  cases ch with
  | retain => rw [retainRoute_fst]
  | install | defer | fail | settle | queue | start | strand => rfl

/-- A route state keeps the epoch it remembers, as long as its broker has a family. -/
theorem Change.route_kept (ch : Change build failing r r') (hg : r.routes.get l = some st) :
    (∃ st', r'.routes.get l = some st' ∧
        st'.lastConnectionFailureEpoch = st.lastConnectionFailureEpoch) ∨
      r'.families.get l.brokerId = none := by
  cases ch with
  | aside | retire => exact .inl ⟨st, hg, rfl⟩
  | physical ch =>
    rw [ch.routes_eq]
    exact .inl ⟨st, hg, rfl⟩
  | @remove b f rm hf hr hl =>
    by_cases broker : l.brokerId = b
    · exact .inr (by simp [dropFamily, broker])
    · refine .inl ?_
      simp only [dropFamily, removeLanes_routes, OrdMap.get_map, OrdMap.get_filter, hg]
      refine ⟨if st.lane.brokerId = b then st.clearInstalled else st, by simp [broker], ?_⟩
      split_ifs <;> rfl
  | @adopt dir hn =>
    simp only [adoptDirectory, OrdMap.get_filter, OrdMap.get_map, hg]
    cases family : r.families.get l.brokerId with
    | none => exact .inr rfl
    | some f =>
      refine .inl ⟨(readvertise build dir st).1, by simp, ?_⟩
      unfold readvertise
      split
      · rfl
      · rw [retainRoute_fst]
  | @insert ne rt ep hre broker ha =>
    refine .inl ⟨st, ?_, rfl⟩
    dsimp only
    rw [OrdMap.get_insert, if_neg, hg]
    rintro rfl
    rw [ha] at hg
    cases hg
  | @route ne pre post fs hf ch =>
    refine .inl ?_
    dsimp only
    rw [OrdMap.get_insert]
    split_ifs with hs
    · subst hs
      obtain rfl := some.inj (hf.symm.trans hg)
      exact ⟨post, rfl, ch.lastConnectionFailureEpoch_eq⟩
    · exact ⟨st, hg, rfl⟩
  | discard hst =>
    simp only [clearPending, OrdMap.get_map, hg]
    refine .inl ⟨_, rfl, ?_⟩
    split_ifs <;> rfl
  | uninstall =>
    simp only [OrdMap.get_map, hg]
    refine .inl ⟨_, rfl, ?_⟩
    dsimp only
    split_ifs <;> rfl
  | drain =>
    rw [closeAdmission_eq]
    simp only [OrdMap.get_map, hg]
    exact .inl ⟨_, rfl, rfl⟩

theorem Change.causality_le (change : Change build failing r r') :
    r.causality.next ≤ r'.causality.next := by
  cases change with
  | aside hl => exact hl
  | physical change => cases change <;> exact le_rfl
  | remove hf hr listed => simp [dropFamily]
  | drain => rw [closeAdmission_eq]
  | retire | adopt | insert | route | discard | uninstall => exact le_rfl

/-! ## Installed lanes -/

/-- The broker's family has an active lane under `owner` for the class of the route. -/
def Houses (r : ClusterRuntime) (lane : BrokerLane) (owner : DirectRefreshOwner) : Prop :=
  ∃ f, r.families.get lane.brokerId = some f ∧ f.owners lane.trafficClass = owner ∧
    f.active lane.trafficClass = true

/-- What a route has installed belongs to the family of its broker. -/
def Installs (r : ClusterRuntime) : Prop :=
  ∀ lane state installed, r.routes.get lane = some state → state.installed = some installed →
    r.Houses lane installed.owner

theorem retainRoute_installed {rt : BrokerRoute} {ep : BrokerEndpoint}
    (has : (st.retainRoute build rt ep).1.installed = some inst) :
    ∃ pre, st.installed = some pre ∧ pre.owner = inst.owner := by
  rw [retainRoute_fst] at has
  obtain ⟨pre, hp, rfl⟩ := map_eq_some_iff.1 has
  refine ⟨pre, hp, ?_⟩
  split_ifs <;> rfl

theorem readvertise_installed {dir : BrokerDirectory}
    (has : (readvertise build dir st).1.installed = some inst) :
    ∃ pre, st.installed = some pre ∧ pre.owner = inst.owner := by
  unfold readvertise at has
  split at has
  · exact ⟨inst, has, rfl⟩
  · exact retainRoute_installed has

/-- A route takes its lane over from before, or the change installs it. -/
theorem RouteOrigin.installed (ho : RouteOrigin build failing r r' l st')
    (has : st'.installed = some inst) :
    (∃ st pre, r.routes.get l = some st ∧ st.installed = some pre ∧
      pre.owner = inst.owner) ∨ r'.Houses l inst.owner := by
  cases ho with
  | opened => cases has
  | kept hg => exact .inl ⟨st', inst, hg, has, rfl⟩
  | uninstalled => cases has
  | discarded hg | drained hg => exact .inl ⟨_, inst, hg, has, rfl⟩
  | readvertised hg hn adopted =>
    obtain ⟨pre, hp, hs⟩ := readvertise_installed has
    exact .inl ⟨_, pre, hg, hp, hs⟩
  | changed hg hs fams ch =>
    cases ch with
    | retain =>
      obtain ⟨pre, hp, hs⟩ := retainRoute_installed has
      exact .inl ⟨_, pre, hg, hp, hs⟩
    | install cur hse =>
      cases has
      obtain ⟨f, hf, -, -, act, how⟩ := hse
      exact .inr ⟨f, fams ▸ hf, how, act⟩
    | defer | fail | settle | queue | start | strand =>
      exact .inl ⟨_, inst, hg, has, rfl⟩

theorem Change.installs (ch : Change build failing r r') (hke : r.Keyed) (h : r.Installs) :
    r'.Installs := by
  intro l st' inst hg' has
  rcases (ch.origin hg').installed has with ⟨st, pre, hg, hp, hs⟩ | houses
  · obtain ⟨f, hf, ho, act⟩ := h l st pre hg hp
    rcases ch.family_kept hke hf with ⟨f', hf', os, hk⟩ | nowhere
    · exact ⟨f', hf', by rw [os, ho, hs], hk _ act⟩
    · rw [nowhere l st' rfl hg'] at has
      cases has
  · exact houses

/-! ## Remembered epochs -/

/-- As long as `owner` serves the route, its state remembers an epoch not before `epoch`, and
the lane can lose no epoch before the one remembered. -/
structure Remembers (r : ClusterRuntime) (lane : BrokerLane) (owner : DirectRefreshOwner)
    (epoch : ConnectionEpoch) : Prop where
  issued : r.identities.Issued owner
  noted : ∀ f, r.families.get lane.brokerId = some f → f.owners lane.trafficClass = owner →
    f.active lane.trafficClass = true ∧
    ∃ state last, r.routes.get lane = some state ∧
      state.lastConnectionFailureEpoch = some last ∧ epoch ≤ last ∧
      ∀ physical later, r.laneOf owner = some physical →
        physical.lifecycle.state.MayFail later → last ≤ later

theorem Owned.laneOf_of_active (h : r.Owned) {b : BrokerId} {f : BrokerFamily}
    {traffic : TrafficClass} (hf : r.families.get b = some f)
    (act : f.active traffic = true) : ∃ phys, r.laneOf (f.owners traffic) = some phys := by
  have slot := (h.active b f traffic hf).1 act
  refine ne_none_iff_exists'.1 fun missing => ?_
  rw [h.exact.find_eq_none.1 missing] at slot
  cases slot

theorem Change.remembers (ch : Change build failing r r') (h : r.Owned)
    (pre : r.Remembers lane owner epoch) : r'.Remembers lane owner epoch := by
  have hsu := ch.succeeds h
  refine ⟨hsu.issued owner pre.issued, fun f' hf' ho => ?_⟩
  rcases hsu.family _ f' hf' with ⟨f, hf, owners, hk⟩ | ⟨-, hfr⟩
  · rw [owners] at ho
    obtain ⟨act, st, last, hg, hre, hr, ha⟩ := pre.noted f hf ho
    rcases ch.route_kept hg with ⟨st', hg', hs⟩ | gone
    · refine ⟨hk _ act, st', last, hg', hs.trans hre, hr, ?_⟩
      intro physical' lost hp may
      obtain ⟨phys, ht⟩ := h.laneOf_of_active hf act
      rw [ho] at ht
      exact ha phys lost ht (hsu.lane owner phys physical' ht hp lost may)
    · rw [gone] at hf'
      cases hf'
  · -- new families have new owners
    exact absurd ho ((hfr _).ne pre.issued)

/-! ## Calls -/

/-- What a call other than a sync keeps. -/
structure Keeps (r r' : ClusterRuntime) : Prop where
  installs : r.Installs → r'.Installs
  remembers : ∀ lane owner epoch, r.Remembers lane owner epoch → r'.Remembers lane owner epoch
  later : r.causality.next ≤ r'.causality.next

theorem Keeps.trans {r'' : ClusterRuntime} (h : Keeps r r') (h' : Keeps r' r'') : Keeps r r'' where
  installs before := h'.installs (h.installs before)
  remembers lane owner epoch before := h'.remembers _ _ _ (h.remembers lane owner epoch before)
  later := h.later.trans h'.later

theorem Steps.keeps (steps : Steps build failing r r') (h : r.Sound) : Keeps r r' := by
  induction steps with
  | refl => exact ⟨fun hi => hi, fun _ _ _ pre => pre, le_rfl⟩
  | tail steps ch ih =>
    have hs := Steps.sound steps h
    exact ih.trans ⟨ch.installs hs.follows.keyed,
      fun _ _ _ => ch.remembers hs.owned, ch.causality_le⟩

theorem keeps_totalize (b : Build) (r : ClusterRuntime) :
    Keeps r (r.totalizeAfterHostFailure b) := by
  obtain ⟨_, hs⟩ := totalizeAfterHostFailure_eq b r
  rw [hs]
  refine ⟨fun hi l st' inst hg has => ?_, fun l o e pre => ?_, le_rfl⟩
  · rw [totalizeRouteWaiting, OrdMap.get_map] at hg
    obtain ⟨st, pre, rfl⟩ := map_eq_some_iff.1 hg
    exact hi l st inst pre has
  · refine ⟨pre.issued, fun f hf ho => ?_⟩
    obtain ⟨act, st, last, hg, hr, ha⟩ := pre.noted f hf ho
    refine ⟨act, (st.failWaiting b .closed st.routeFailureAt).1, last, ?_, hr, ha⟩
    rw [totalizeRouteWaiting, OrdMap.get_map, totalizeSeedWaiting, hg]
    rfl

theorem step_keeps {c : ClusterCall} (h : r.Sound) (ne : c ≠ .syncRouteFailures) :
    Keeps r (step build r c).1 := by
  rcases step_outcome h.follows.keyed ne with steps | ⟨failed, steps, hs⟩
  · exact Steps.keeps steps h
  · rw [hs]
    exact (Steps.keeps steps h).trans (keeps_totalize build failed)

/-! ## Syncs -/

/-- The lane the route has installed is that of `owner`, and it lost `epoch`. -/
def Lost (r : ClusterRuntime) (state : BrokerRouteState) (owner : DirectRefreshOwner)
    (epoch : ConnectionEpoch) : Prop :=
  ∃ installed physical, state.installed = some installed ∧ installed.owner = owner ∧
    r.laneOf owner = some physical ∧ physical.lifecycle.state.failedEpoch = some epoch

theorem Lost.failedEpoch (hl : r.Lost st owner epoch) :
    (r.installedBroker st).bind BrokerState.failedEpoch = some epoch := by
  obtain ⟨inst, phys, has, rfl, ht, hf⟩ := hl
  unfold laneOf at ht
  simp [installedBroker, has, ht, hf]

theorem lost_of_failedEpoch
    (hfa : (r.installedBroker st).bind BrokerState.failedEpoch = some epoch) :
    ∃ owner, r.Lost st owner epoch := by
  obtain ⟨b, hf, hfa⟩ := bind_eq_some_iff.1 hfa
  obtain ⟨phys, ht, rfl⟩ := map_eq_some_iff.1 hf
  obtain ⟨inst, has, ht⟩ := bind_eq_some_iff.1 ht
  exact ⟨inst.owner, inst, phys, has, rfl, ht, hfa⟩

/-- A sync changes neither lanes nor families, and of a route only what it notes. -/
theorem Probed.installs {ch : RouteSync} (h : Probed ch r.probes r r')
    (hq : ∀ {lo hi b st st'}, ch lo hi b st st' → Quiet st st')
    (hin : r.Installs) : r'.Installs := by
  intro l st' inst hg' has
  obtain ⟨st, hg, hs⟩ := h.origin hq hg'
  rw [hs] at has
  rw [h.frame]
  exact hin l st inst hg has

/-- After a sync the state of a route remembers the epoch its lane lost. -/
theorem SyncedRoute.remembered {lo hi : ℕ} {b : Option BrokerState} (h : SyncedRoute lo hi b st st')
    (hfa : b.bind BrokerState.failedEpoch = some epoch) :
    st'.lastConnectionFailureEpoch = some epoch := by
  cases h with
  | stamped hf => exact hf.symm.trans hfa
  | known hf seen => exact seen.trans (hf.symm.trans hfa)
  | healthy healthy =>
    rw [healthy] at hfa
    cases hfa

/-- A lane loses no epoch before the one it just lost. -/
theorem lost_le {e : ConnectionEpoch} (lost : r.Lost st o e) :
    ∀ phys epoch, r.laneOf o = some phys → phys.lifecycle.state.MayFail epoch → e ≤ epoch := by
  obtain ⟨_, phys, -, -, ht, hf⟩ := lost
  intro physical' epoch there' may
  obtain rfl := some.inj (ht.symm.trans there')
  exact BrokerState.le_of_mayFail hf may

theorem SyncedBy.remembers (h : SyncedBy r.probes r r') (hi : r.Installs)
    (pre : r.Remembers lane owner epoch) : r'.Remembers lane owner epoch := by
  have hfr := h.frame
  have rts : ∀ lane st, r.routes.get lane = some st → ∃ st',
      r'.routes.get lane = some st' ∧ SyncedRoute r.causality.next r'.causality.next
        (r.installedBroker st) st st' :=
    fun lane st hg => h.changed _ (mem_probes hg) st hg
  generalize r'.routes = written at rts hfr
  rw [hfr]
  refine ⟨pre.issued, fun f hf ho => ?_⟩
  obtain ⟨act, st, last, hg, hre, hr, ha⟩ := pre.noted f hf ho
  obtain ⟨st', hg', sync⟩ := rts lane st hg
  cases broken : (r.installedBroker st).bind BrokerState.failedEpoch with
  | none =>
    refine ⟨act, st', last, hg', ?_, hr, ha⟩
    cases sync with
    | healthy => exact hre
    | stamped hfa | known hfa =>
      rw [hfa] at broken
      cases broken
  | some lost =>
    -- the lane installed is that of the family, so it is the one remembered
    obtain ⟨owner', hf'⟩ := lost_of_failedEpoch broken
    obtain ⟨inst, phys, has, rfl, ht, hfa⟩ := id hf'
    obtain ⟨g, foundG, ownedG, -⟩ := hi lane st inst hg has
    obtain rfl := some.inj (hf.symm.trans foundG)
    have hs : inst.owner = owner := ownedG.symm.trans ho
    rw [hs] at hf' ht
    have hgr : last ≤ lost := ha phys lost ht (BrokerState.mayFail_of_failedEpoch hfa)
    exact ⟨act, st', lost, hg', sync.remembered broken, hr.trans hgr, lost_le hf'⟩

theorem SyncedBy.remembers_lost (h : SyncedBy r.probes r r') (owns : r.Owned)
    (hg : r.routes.get lane = some st) (hl : r.Lost st owner epoch) :
    r'.Remembers lane owner epoch := by
  have hfr := h.frame
  obtain ⟨st', hg', sync⟩ := h.changed _ (mem_probes hg) st hg
  generalize r'.routes = written at hg' hfr
  rw [hfr]
  have slot : (r.slots.get owner).isSome := by
    obtain ⟨_, phys, -, -, ht, -⟩ := id hl
    rw [isSome_iff_ne_none]
    intro ha
    unfold laneOf at ht
    rw [owns.exact.find_eq_none.2 ha] at ht
    cases ht
  obtain ⟨k, hs⟩ := isSome_iff_exists.1 slot
  refine ⟨owns.slotIssued owner k hs, fun f hf ho => ?_⟩
  exact ⟨(owns.active _ f _ hf).2 (ho ▸ slot), st', epoch, hg',
    sync.remembered hl.failedEpoch, le_rfl, lost_le hl⟩

/-- No stamps come from an exhausted sequence : a route whose lane lost an epoch keeps the
stamp it has. -/
theorem InterruptedRoute.unstamped {lo hi : ℕ} {b : Option BrokerState} {e : ConnectionEpoch}
    (h : InterruptedRoute lo hi b st st') (hfa : b.bind BrokerState.failedEpoch = some e)
    (hs : u64Max ≤ lo ∨ st.lastConnectionFailureEpoch = some e) :
    st'.routeFailureAt = st.routeFailureAt := by
  cases h with
  | noted | untouched => rfl
  | synced sync =>
    cases sync with
    | known => rfl
    | stamped hf hu low hh hr =>
      rcases hs with out | seen
      · omega
      · exact absurd (seen.trans (hfa.symm.trans hf)) hu
    | healthy healthy =>
      rw [healthy] at hfa
      cases hfa

/-- What a sync makes of one route, however it ends. -/
theorem step_sync_route (b : Build) (hg : r.routes.get l = some st) :
    ∃ st', (step b r .syncRouteFailures).1.routes.get l = some st' ∧
      InterruptedRoute r.causality.next (step b r .syncRouteFailures).1.causality.next
        (r.installedBroker st) st st' := by
  rcases step_sync b r with hs | ⟨_, -, broken, -⟩
  · obtain ⟨st', hg', sync⟩ := hs.changed _ (mem_probes hg) st hg
    exact ⟨st', hg', .synced sync⟩
  · exact broken.changed _ (mem_probes hg) st hg

/-! ## Runs -/

/-- The step is a sync that finds the lane of `owner` installed for the route, with `epoch`
lost. -/
def Observes (e : ClusterEvent) (lane : BrokerLane) (owner : DirectRefreshOwner)
    (epoch : ConnectionEpoch) : Prop :=
  e.input = .syncRouteFailures ∧
    ∃ state, e.before.routes.get lane = some state ∧ e.before.Lost state owner epoch

/-- Some step observes it. -/
def Observed (past : List ClusterEvent) (lane : BrokerLane) (owner : DirectRefreshOwner)
    (epoch : ConnectionEpoch) : Prop :=
  ∃ e ∈ past, Observes e lane owner epoch

/-- What the syncs of a run leave behind : unless the sequence ran out, what they observed is
remembered. -/
structure History (past : List ClusterEvent) (r : ClusterRuntime) : Prop where
  installs : r.Installs
  remembers : u64Max ≤ r.causality.next ∨ ∀ lane owner epoch, Observed past lane owner epoch →
    r.Remembers lane owner epoch

theorem new_history (driver : DriverLimits) : History [] (new driver) :=
  ⟨fun _ _ _ hg => (nomatch hg), .inr fun _ _ _ ⟨_, mem, _⟩ => (nomatch mem)⟩

theorem observed_concat {e : ClusterEvent} (h : Observed (past ++ [e]) l o epoch) :
    Observed past l o epoch ∨ Observes e l o epoch := by
  obtain ⟨e', mem, ho⟩ := h
  rcases mem_append.1 mem with pre | last
  · exact .inl ⟨e', pre, ho⟩
  · exact .inr (mem_singleton.1 last ▸ ho)

theorem History.extend (h : History past r) (hso : r.Sound) (b : Build) (c : ClusterCall) :
    History (past ++ [event (step b) r c]) (step b r c).1 := by
  by_cases sync : c = .syncRouteFailures
  · subst sync
    rcases step_sync b r with hsy | ⟨_, -, broken, out⟩
    · refine ⟨hsy.installs SyncedRoute.quiet h.installs, ?_⟩
      rcases h.remembers with hs | remembers
      · exact .inl (hs.trans hsy.later)
      · refine .inr fun l o e seen => ?_
        rcases observed_concat seen with pre | ⟨-, st, hg, hl⟩
        · exact SyncedBy.remembers hsy h.installs (remembers l o e pre)
        · exact SyncedBy.remembers_lost hsy hso.owned hg hl
    · exact ⟨broken.installs InterruptedRoute.quiet h.installs,
        .inl (CausalSequence.outcome_eq_none.1 out)⟩
  · have hk : Keeps r (step b r c).1 := step_keeps hso sync
    refine ⟨hk.installs h.installs, ?_⟩
    rcases h.remembers with hs | remembers
    · exact .inl (hs.trans hk.later)
    · refine .inr fun l o e seen => ?_
      rcases observed_concat seen with pre | ⟨hc, -⟩
      · exact hk.remembers l o e (remembers l o e pre)
      · exact absurd hc sync

theorem after_history (b : Build) (driver : DriverLimits) (cs : List ClusterCall) :
    History (run b driver cs) (after b driver cs) :=
  run_induction (P := fun _ past r => History past r) (step b) (new_history driver)
    (fun is c h => h.extend (after_sound b driver is) b c) cs

/-- A lane that lost an epoch and is observed again finds it remembered. -/
theorem History.remembered (h : History past r) (seen : Observed past lane owner epoch)
    (hg : r.routes.get lane = some st) (lost : r.Lost st owner epoch) :
    u64Max ≤ r.causality.next ∨ st.lastConnectionFailureEpoch = some epoch := by
  refine h.remembers.imp_right fun remembers => ?_
  obtain ⟨inst, phys, has, rfl, ht, hfa⟩ := lost
  obtain ⟨f, hf, ho, -⟩ := h.installs lane st inst hg has
  obtain ⟨-, st', last, hg', hre, hr, ha⟩ :=
    (remembers lane _ epoch seen).noted f hf ho
  obtain rfl := some.inj (hg.symm.trans hg')
  have hl := ha phys epoch ht (BrokerState.mayFail_of_failedEpoch hfa)
  rw [hre, le_antisymm hl hr]

/-- Each route state remembers epochs of the lane it has installed : an epoch that is both
remembered and lost by that lane was observed before. -/
def RemembersOwn (past : List ClusterEvent) (e : ClusterEvent) : Prop :=
  ∀ lane owner epoch state, Observes e lane owner epoch → e.before.routes.get lane = some state →
    state.lastConnectionFailureEpoch = some epoch → Observed past lane owner epoch

end ClusterRuntime

/-- In a run whose route states remember epochs of the lanes they have installed, the first
sync that finds the lane of an owner in a lost epoch stamps the route afresh, unless it fails
because the sequence of stamps ran out, and no other sync stamps the route for that owner and
epoch. -/
theorem failures_stamped_once (build : Build) (driver : DriverLimits) (calls : List ClusterCall)
    (own : ∀ past e rest, run build driver calls = past ++ e :: rest → RemembersOwn past e)
    (past : List ClusterEvent) (e : ClusterEvent) (rest : List ClusterEvent)
    (split : run build driver calls = past ++ e :: rest) (lane : BrokerLane)
    (owner : DirectRefreshOwner) (epoch : ConnectionEpoch)
    (observes : Observes e lane owner epoch) :
    ∃ state state', e.before.routes.get lane = some state ∧ e.after.routes.get lane = some state' ∧
      (Observed past lane owner epoch → state'.routeFailureAt = state.routeFailureAt) ∧
      (¬Observed past lane owner epoch →
        (∃ stamp, state'.routeFailureAt = some stamp ∧ e.before.causality.next ≤ stamp.raw ∧
          stamp.raw < e.after.causality.next) ∨
        (∃ error, e.answer = .error error) ∧ e.after.causality.outcome = none) := by
  have hu := own past e rest split lane owner epoch
  obtain ⟨old, call, rfl, rfl⟩ := of_trace_eq_append_cons (step build) split
  obtain ⟨hc, state, held, hl⟩ := id observes
  dsimp only [event] at hc held hl ⊢
  subst hc
  have hh := after_history build driver old
  obtain ⟨state', held', hi⟩ := step_sync_route build held
  refine ⟨state, state', held, held', fun again => ?_, fun first => ?_⟩
  · exact hi.unstamped hl.failedEpoch (hh.remembered again held hl)
  · rcases step_sync build (final (step build) (new driver) old) with
      synced | ⟨error, refused, -, exhausted⟩
    · left
      obtain ⟨after, hfo, sync⟩ := synced.changed _ (mem_probes held) state held
      obtain rfl := some.inj (hfo.symm.trans held')
      cases sync with
      | @stamped _ stamp _ _ low high => exact ⟨stamp, rfl, low, high⟩
      | known hf seen =>
        have hs := some.inj (hf.symm.trans hl.failedEpoch)
        exact absurd (hu state observes held (hs ▸ seen)) first
      | healthy healthy =>
        rw [hl.failedEpoch] at healthy
        cases healthy
    · exact .inr ⟨⟨error, refused⟩, exhausted⟩

/-! ## One broker, one lane after the other -/

/-- The lane loses its first epoch. -/
def lostReply : LaneReply :=
  ⟨⟨[.connectionFailed ⟨1⟩ ⟨⟨1⟩, ⟨0⟩, 0⟩], soloReply.change.status⟩, false⟩

/-- The lane drains and ends. -/
def endedReply : LaneReply :=
  ⟨⟨[.beginDrain], { soloReply.change.status with terminal := true }⟩, false⟩

/-- The lane of the only broker opens and loses its first epoch. -/
def lostCalls : List ClusterCall :=
  soloCalls ++
    [.completeRouteResolution soloLane (soloOutcome 1) soloFactory, .driveLane ⟨1, 3⟩ lostReply]

/-- The broker moves to another endpoint, its lane is replaced, and the second lane loses its
first epoch as well. -/
def replaceCalls : List ClusterCall :=
  [.installDirectory (soloDirectory 2 "other.test"),
    .submitRoute (soloRoute 2) (some ⟨2⟩) (soloRequest 2) ⟨0⟩ soloReply,
    .completeRouteResolution soloLane (soloOutcome 2) soloFactory,
    .driveRouteInstalls soloFactory (fun _ => endedReply) ⟨0⟩,
    .driveRouteInstalls soloFactory (fun _ => endedReply) ⟨0⟩, .driveLane ⟨2, 7⟩ lostReply]

theorem lost_of_eval {r : ClusterRuntime} {owner : DirectRefreshOwner} {epoch : ConnectionEpoch}
    (inst : ((r.routes.get soloLane).bind (·.installed)).map (·.owner) = some owner)
    (hf : (r.laneOf owner).bind (·.lifecycle.state.failedEpoch) = some epoch) :
    ∃ st, r.routes.get soloLane = some st ∧ r.Lost st owner epoch := by
  obtain ⟨rt, has, rfl⟩ := map_eq_some_iff.1 inst
  obtain ⟨st, hg, has⟩ := bind_eq_some_iff.1 has
  obtain ⟨phys, ht, hf⟩ := bind_eq_some_iff.1 hf
  exact ⟨st, hg, rt, phys, has, rfl, ht, hf⟩

/-- Calls without a sync observe nothing. -/
theorem not_observes_of_input {s : ClusterRuntime} {cs : List ClusterCall} {e : ClusterEvent}
    (hs : .syncRouteFailures ∉ cs) (mem : e ∈ trace (step .release) s cs)
    {l : BrokerLane} {o : DirectRefreshOwner} {epoch : ConnectionEpoch} :
    ¬Observes e l o epoch := by
  rintro ⟨hc, -⟩
  exact hs (hc ▸ input_mem (step .release) mem)

theorem failures_stamped_once_solo :
    ∃ past e, run .release soloDriver (lostCalls ++ [.syncRouteFailures]) = past ++ [e] ∧
      Observes e soloLane ⟨1, 3⟩ ⟨1⟩ ∧
      ∃ state', e.after.routes.get soloLane = some state' ∧
        (state'.routeFailureAt.isSome ∨ e.after.causality.outcome = none) := by
  have hs : .syncRouteFailures ∉ lostCalls := by simp [lostCalls, soloCalls]
  have hfo : ((after .release soloDriver lostCalls).routes.entries.all
      fun entry => entry.2.lastConnectionFailureEpoch.isNone) = true := by decide +kernel
  have ho : Observes (event (step .release) (after .release soloDriver lostCalls)
      .syncRouteFailures) soloLane ⟨1, 3⟩ ⟨1⟩ :=
    ⟨rfl, lost_of_eval (by decide +kernel) (by decide +kernel)⟩
  have split : run .release soloDriver (lostCalls ++ [.syncRouteFailures]) =
      run .release soloDriver lostCalls ++
        [event (step .release) (after .release soloDriver lostCalls) .syncRouteFailures] :=
    trace_concat (step .release) (new soloDriver) lostCalls .syncRouteFailures
  generalize after .release soloDriver lostCalls = r at *
  have own : ∀ past e rest, run .release soloDriver (lostCalls ++ [.syncRouteFailures]) =
      past ++ e :: rest → RemembersOwn past e := by
    intro past e rest split' lane owner epoch st hf hh seen
    have mem : e ∈ run .release soloDriver (lostCalls ++ [.syncRouteFailures]) := by
      rw [split']
      exact mem_append_right _ mem_cons_self
    rw [split] at mem
    rcases mem_append.1 mem with pre | last
    · exact absurd hf (not_observes_of_input hs pre)
    · obtain rfl := mem_singleton.1 last
      have unseen := all_eq_true.1 hfo (lane, st) (OrdMap.get_eq_some.1 hh)
      rw [seen] at unseen
      cases unseen
  obtain ⟨st, state', -, held', -, first⟩ := failures_stamped_once .release soloDriver
    (lostCalls ++ [.syncRouteFailures]) own _ _ [] split soloLane ⟨1, 3⟩ ⟨1⟩ ho
  refine ⟨_, _, split, ho, state', held', ?_⟩
  rcases first fun ⟨e, mem, hf⟩ => not_observes_of_input hs mem hf with
    ⟨stamp, stamped, -⟩ | ⟨-, exhausted⟩
  · exact .inl (by rw [stamped]; rfl)
  · exact .inr exhausted

/-- The second lane lost its first epoch. No sync before had it installed and the one that
finds it succeeds, yet the route gets no stamp. -/
theorem replaced_lane_unstamped :
    let calls := lostCalls ++ .syncRouteFailures :: replaceCalls
    let r := after .release soloDriver calls
    let r' := (step .release r .syncRouteFailures).1
    (step .release r .syncRouteFailures).2.toBool = true ∧
      ¬Observed (run .release soloDriver calls) soloLane ⟨2, 7⟩ ⟨1⟩ ∧
      (∃ st, r.routes.get soloLane = some st ∧ r.Lost st ⟨2, 7⟩ ⟨1⟩) ∧
      ∃ st', r'.routes.get soloLane = some st' ∧ st'.routeFailureAt = none := by
  refine ⟨by decide +kernel, ?_, lost_of_eval (by decide +kernel) (by decide +kernel),
    map_eq_some_iff.1 (by decide +kernel)⟩
  rintro ⟨e, mem, ho⟩
  have ha : ((after .release soloDriver lostCalls).laneOf ⟨2, 7⟩).isNone = true := by
    decide +kernel
  have hp := trace_append (step .release) (new soloDriver) lostCalls
    (.syncRouteFailures :: replaceCalls)
  change e ∈ trace (step .release) (new soloDriver) _ at mem
  change ((final (step .release) (new soloDriver) lostCalls).laneOf ⟨2, 7⟩).isNone = true at ha
  rw [hp, mem_append, trace, mem_cons] at mem
  generalize final (step .release) (new soloDriver) lostCalls = r at *
  rcases mem with pre | rfl | hl
  · exact not_observes_of_input (by simp [lostCalls, soloCalls]) pre ho
  · obtain ⟨-, -, -, -, physical, -, -, ht, -⟩ := ho
    rw [isNone_iff_eq_none] at ha
    cases ha.symm.trans ht
  · exact not_observes_of_input (by simp [replaceCalls]) hl ho

end KafkaDriver
