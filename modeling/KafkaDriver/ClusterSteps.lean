import KafkaDriver.ClusterChange

/-!
# Submission and resolution as sequences of changes

One lemma for each operation : it makes the changes of `Change` that need no failure and
answers, or fails after changes that may leave a call stranded.
-/

namespace KafkaDriver

open Fallible Option OrdMap BrokerRouteState

namespace ClusterRuntime

variable {build : Build} {r r' : ClusterRuntime}

/-- Started in `r`, `x` makes changes of the runtime and answers with `Q`, or fails after
changes that may leave a call stranded. -/
abbrev Acts {α : Type} (build : Build) (x : Host α) (Q : α → ClusterRuntime → Prop)
    (r : ClusterRuntime) : Prop :=
  Moves (Change build false) (Change build true) x Q r

theorem change_le : Change build false ≤ Change build true := fun _ _ ch => ch.weaken

variable {α : Type} {x : Host α} {Q : α → ClusterRuntime → Prop} {lane : BrokerLane}
  {endpoint : BrokerEndpoint} {owner : DirectRefreshOwner} {request : Request}
  {st : BrokerRouteState} {fates : List RequestFate} {rt : BrokerRoute} {needsResolution : Bool}
  {fx : Option EffectId}

theorem acts_of_physical (h : Moves Physical Physical x Q r) : Acts build x Q r :=
  h.lift (fun _ _ => .physical) fun _ _ => .physical

/-! ## Lanes -/

variable (mk : LaneFactory) (now : Moment) (reply : LaneReply)

theorem startClusterLane_spec (o : DirectRefreshOwner) (r : ClusterRuntime) :
    wp (startClusterLane mk o) (fun lane r' => r' = r ∧ lane.owner = o) (fun _ r' => r' = r) r := by
  unfold startClusterLane
  split
  · exact rfl
  · exact ⟨rfl, rfl⟩

theorem reserveEndpointLanes_spec (n : ℕ) (r : ClusterRuntime) :
    wp (reserveEndpointLanes n)
      (fun os r' => ∃ ids, r.identities.reserveEndpointLanes n = .ok (ids, os) ∧
        r' = { r with identities := ids })
      (fun _ r' => r' = r) r := by
  unfold wp reserveEndpointLanes
  cases r.identities.reserveEndpointLanes n with
  | error e => rfl
  | ok granted => exact ⟨granted.1, rfl, rfl⟩

/-- What preflight found of the lane it chose an activation for. -/
def PreflightFound (r : ClusterRuntime) (lane : BrokerLane) (endpoint : BrokerEndpoint) :
    Activation → Prop
  | .active owner => r.ServedBy lane endpoint owner
  | .dormant owner => ∃ f, r.families.get lane.brokerId = some f ∧ f.retiring = false ∧
      f.endpoint = endpoint ∧ f.owners lane.trafficClass = owner ∧ r.slots.get owner = none
  | .new => r.families.get lane.brokerId = none

theorem preflightActivation_ok {activation : Activation}
    (ok : r.preflightActivation lane.brokerId lane.trafficClass endpoint = .ok activation) :
    r.PreflightFound lane endpoint activation := by
  unfold preflightActivation at ok
  cases found : r.families.get lane.brokerId with
  | none =>
    simp only [found] at ok
    split_ifs at ok
    cases room : r.ensureLaneCapacity (r.lanes.length + 1) with
    | error e =>
      rw [room] at ok
      cases ok
    | ok _ =>
      rw [room] at ok
      cases ok
      exact found
  | some f =>
    simp only [found] at ok
    split_ifs at ok with hs
    have hf : f.retiring = false ∧ f.endpoint = endpoint := by simpa using hs
    cases st : r.familyLaneState f lane.trafficClass with
    | error e =>
      rw [st] at ok
      cases ok
    | ok family =>
      rw [st] at ok
      cases family with
      | active o k =>
        cases ok
        exact ⟨f, found, hf.1, hf.2, familyLaneState_active st⟩
      | dormant =>
        dsimp only [bind, Except.bind] at ok
        cases room : r.ensureLaneCapacity (r.lanes.length + 1) with
        | error e =>
          rw [room] at ok
          cases ok
        | ok _ =>
          rw [room] at ok
          cases ok
          exact ⟨f, found, hf.1, hf.2, rfl, familyLaneState_dormant st⟩

theorem startActivation_dormant {f : BrokerFamily} (hf : r.families.get lane.brokerId = some f)
    (live : f.retiring = false) (tgt : f.endpoint = endpoint)
    (ho : f.owners lane.trafficClass = owner) (hd : r.slots.get owner = none) :
    Moves Physical Physical
      (startActivation lane.brokerId lane.trafficClass (.dormant owner) endpoint mk)
      (fun owner r' => r'.ServedBy lane endpoint owner) r := by
  unfold Moves startActivation
  simp only [wp_bind]
  refine wp_mono (startClusterLane_spec mk owner r) ?_ ?_
  · rintro _ _ ⟨rfl, rfl⟩
    refine ⟨.single (.activate hf (ho ▸ hd) ho.symm), f.markActive lane.trafficClass,
      ?_, live, tgt, ?_, ho⟩
    · simp [hf]
    · simp [BrokerFamily.markActive]
  · rintro e _ rfl
    exact .refl

theorem startActivation_new (ep : BrokerEndpoint) (ha : r.families.get lane.brokerId = none) :
    Moves Physical Physical (startActivation lane.brokerId lane.trafficClass .new ep mk)
      (fun owner r' => r'.ServedBy lane ep owner) r := by
  unfold Moves startActivation
  simp only [wp_bind, wp_map]
  refine wp_mono (reserveEndpointLanes_spec 4 r) ?_ ?_
  · rintro os _ ⟨ids, res, rfl⟩
    simp only [wp_bind, wp_get]
    split
    · exact .single (.reserve res)
    simp only [wp_bind]
    refine wp_mono (startClusterLane_spec mk _ _) ?_ ?_
    · rintro started _ ⟨rfl, ho⟩
      have hn : [started].map DirectLane.owner =
          [lane.trafficClass].map (familyOwners os) := by simp [ho]
      refine ⟨.single (.publish ha res (List.nodup_singleton _) hn),
        (BrokerFamily.new ep (familyOwners os)).markActive lane.trafficClass,
        ?_, rfl, rfl, ?_, rfl⟩
      · simp
      · simp [BrokerFamily.markActive]
    · rintro e _ rfl
      exact .single (.reserve res)
  · rintro e _ rfl
    exact .refl

/-- A lane that was activated serves its endpoint. -/
theorem activateResolvedLane_moves (l : BrokerLane) (ep : BrokerEndpoint) (r : ClusterRuntime) :
    Moves Physical Physical (activateResolvedLane l ep mk)
      (fun owner r' => r'.ServedBy l ep owner) r := by
  unfold activateResolvedLane
  refine Moves.query_bind fun activation ok => ?_
  have hk := preflightActivation_ok ok
  cases activation with
  | active owner => exact .pure hk
  | dormant owner =>
    obtain ⟨f, hf, live, tgt, ho, hd⟩ := hk
    dsimp only
    split_ifs
    · exact startActivation_dormant mk hf live tgt ho hd
    · exact .throw
  | new =>
    dsimp only
    split_ifs
    · exact startActivation_new mk ep hk
    · exact .throw

theorem removeTerminalFamily_spec (b : BrokerId) (r : ClusterRuntime) :
    wp (removeTerminalFamily b)
      (fun removed r' => removed = true ∧ (∃ rm, r.familyRemovals b = .ok rm ∧
          r' = (r.removeLanes rm).dropFamily b) ∨ removed = false ∧ r' = r)
      (fun _ r' => r' = r) r := by
  unfold removeTerminalFamily
  simp only [wp_bind, wp_query, wp_get]
  refine ⟨fun rm hl => ?_, fun _ _ => trivial⟩
  split_ifs
  · exact .inl ⟨rfl, rm, hl, rfl⟩
  · exact .inr ⟨rfl, rfl⟩

theorem removeTerminalFamily_acts {b : BrokerId} {f : BrokerFamily}
    (hf : r.families.get b = some f) (hr : f.retiring = true) :
    Acts build (removeTerminalFamily b) (fun _ _ => True) r := by
  refine wp_mono (removeTerminalFamily_spec b r) ?_ ?_
  · rintro _ _ (⟨-, rm, hl, rfl⟩ | ⟨-, rfl⟩)
    · exact ⟨.single (.remove hf hr hl), trivial⟩
    · exact ⟨.refl, trivial⟩
  · rintro e _ rfl
    exact .refl

theorem drainLanes_moves (drain : DirectRefreshOwner → LaneReply)
    (list : List (ℕ × DirectRefreshOwner)) (r : ClusterRuntime) :
    Moves Physical Physical (drainLanes drain list) (fun _ _ => True) r := by
  induction list generalizing r with
  | nil => exact .pure trivial
  | cons e list ih =>
    have hd : Physical r (r.modifyLane e.1 (·.evolve (drain e.2).change)) :=
      .evolve fun l _ => ⟨rfl, l.evolves_evolve _⟩
    unfold drainLanes
    refine .get_bind ?_
    split_ifs
    · exact ih r
    · exact .modify_bind (fun _ _ step => step) hd .throw
    · exact .modify_bind (fun _ _ step => step) hd (ih _)

theorem beginFamilyRetirement_acts {b : BrokerId} (drain : DirectRefreshOwner → LaneReply)
    (ho : ∀ f, r.families.get b = some f → f.retiring = false → r.Outdated b f) :
    Acts build (beginFamilyRetirement b drain) (fun _ _ => True) r := by
  unfold beginFamilyRetirement
  refine .query_bind fun rm _ => .get_bind ?_
  split
  · exact .throw
  rename_i fam hf
  split_ifs with hr
  · exact .pure trivial
  · refine .modify_bind change_le (.retire hf (ho fam hf (by simpa using hr))) ?_
    refine .bind change_le (acts_of_physical (drainLanes_moves drain rm _)) ?_
    exact fun _ _ _ => .pure trivial

/-- The lane at `index` gets a request. -/
def handed (r : ClusterRuntime) (index : ℕ) (lane : DirectLane) (request : Request) (now : Moment)
    (reply : LaneReply) : ClusterRuntime :=
  { r.modifyLane index fun _ => (lane.submitRequest request now reply).1 with
    fates := r.fates ++ (lane.submitRequest request now reply).2.1 }

theorem wp_submitToLane {k : ℕ} {l : DirectLane} {req : Request} {now : Moment}
    {reply : LaneReply} {P : ClusterRuntime → Prop} (h : P (r.handed k l req now reply)) :
    wp (submitToLane k l req now reply) (fun _ r' => P r') (fun _ r' => P r') r := by
  unfold submitToLane
  simp only [wp_bind, wp_modify]
  split
  · exact h
  · exact h

theorem handed_steps {failing : Bool} {k : ℕ} {lane : DirectLane} (hf : r.lanes[k]? = some lane)
    (req : Request) (now : Moment) (reply : LaneReply) :
    Steps build failing r (r.handed k lane req now reply) := by
  have hm : (lane.submitRequest req now reply).1.owner = lane.owner ∧
      lane.Evolves (lane.submitRequest req now reply).1 := by
    unfold DirectLane.submitRequest
    split
    · exact ⟨rfl, .refl lane⟩
    · split_ifs
      · exact ⟨rfl, lane.evolves_evolve _⟩
      · exact ⟨rfl, .refl lane⟩
  have he : Physical r (r.modifyLane k fun _ => (lane.submitRequest req now reply).1) := by
    refine .evolve fun l hg => ?_
    rw [some.inj (hg.symm.trans hf)]
    exact hm
  exact (Relation.ReflTransGen.single (.physical he)).tail (.aside le_rfl)

theorem submitToLane_moves {k : ℕ} {l : DirectLane} (hf : r.lanes[k]? = some l)
    (req : Request) (now : Moment) (reply : LaneReply) :
    Acts build (submitToLane k l req now reply) (fun _ r' => r'.routes = r.routes) r := by
  refine wp_mono (wp_submitToLane (P := fun r' => r' = r.handed k l req now reply) rfl) ?_ ?_
  · rintro _ _ rfl
    exact ⟨handed_steps hf req now reply, rfl⟩
  · rintro _ _ rfl
    exact handed_steps hf req now reply

/-! ## Directory and routes -/

theorem record_acts (fs : List RequestFate) :
    Acts build (record fs) (fun _ r' => r'.routes = r.routes) r :=
  .of_modify (.aside le_rfl) rfl

theorem failRequest_bind {err : RequestError} {t : Option OutcomeStamp} {k : PUnit → Host α}
    (next : ∀ r' : ClusterRuntime, Acts build (k ⟨⟩) Q r') :
    Acts build (failRequest request err t >>= k) Q r :=
  .bind change_le (record_acts _) fun _ r' _ => next r'

theorem putRoute_acts {st' : BrokerRouteState} (hf : r.routes.get lane = some st)
    (ch : RouteChange build false r lane st st') :
    Acts build (putRoute lane st' fates)
      (fun _ r' =>
        r' = { r with routes := r.routes.insert lane st', fates := r.fates ++ fates }) r :=
  .of_modify (.route hf ch) rfl

theorem tryInstallDirectory_acts (dir : BrokerDirectory) :
    Acts build (tryInstallDirectory build dir) (fun _ _ => True) r := by
  unfold tryInstallDirectory
  refine .get_bind ?_
  split_ifs
  · exact .throw
  cases known : r.directory with
  | none =>
    refine .modify_bind change_le (.adopt ?_) (.pure trivial)
    intro cur hg
    rw [known] at hg
    cases hg
  | some cur =>
    dsimp only
    split_ifs with hs he ho
    · exact .pure trivial
    · exact .throw
    · exact .pure trivial
    · refine .modify_bind change_le (.adopt ?_) (.pure trivial)
      intro ne hg
      obtain rfl := some.inj (known.symm.trans hg)
      exact lt_of_le_of_ne (not_lt.1 ho) he

/-! ## Submission -/

theorem failCurrentRouteRequest_acts {err : HostError} :
    Acts build (failCurrentRouteRequest request err : Host α) Q r :=
  failRequest_bind fun _ => .throw

theorem failStaleRoute_acts : Acts build (failStaleRoute request) (fun _ _ => True) r :=
  failRequest_bind fun _ => .pure trivial

theorem admitToRoute_acts {now : Moment} (hf : r.routes.get lane = some st)
    (cur : st.advertised = some ⟨rt, endpoint⟩)
    (want : r.Expects lane st rt endpoint) :
    Acts build (admitToRoute lane st request now) (fun _ _ => True) r :=
  .bind change_le (putRoute_acts hf (.queue cur want)) fun _ _ _ => .pure trivial

theorem submitToPhysical_acts (req : Request) (hf : r.routes.get lane = some st)
    (cur : st.advertised = some ⟨rt, endpoint⟩) (hs : r.ServedBy lane endpoint owner) :
    Acts build (submitToPhysical lane rt endpoint owner req now reply) (fun _ _ => True) r := by
  unfold submitToPhysical
  refine .get_bind ?_
  simp only [hf]
  have hi : RouteChange build false r lane st (st.markInstalled rt endpoint owner) :=
    .install cur hs
  refine .bind change_le (putRoute_acts hf hi) ?_
  rintro _ _ rfl
  -- the state just written, and the lane that still serves its endpoint
  have hw : (r.routes.insert lane (st.markInstalled rt endpoint owner)).get lane =
      some (st.markInstalled rt endpoint owner) := by simp
  split_ifs
  · exact .bind change_le (admitToRoute_acts hw cur (.inl ⟨owner, hs⟩)) fun _ _ _ => .pure trivial
  refine .get_bind ?_
  split
  · exact failCurrentRouteRequest_acts
  split
  · exact failCurrentRouteRequest_acts
  rename_i hg
  split
  · exact failRequest_bind fun _ => .pure trivial
  · split_ifs
    · exact .bind change_le (admitToRoute_acts hw cur (.inl ⟨owner, hs⟩))
        fun _ _ _ => .pure trivial
    · exact .bind change_le (submitToLane_moves hg req now reply) fun _ _ _ => .pure trivial

/-- A resolution that starts is under way for the route; one that fails to leaves only the
state of its own route changed. -/
theorem startRouteResolution_spec (rt : BrokerRoute) (endpoint : BrokerEndpoint)
    (fx : EffectId) (hf : r.routes.get lane = some st) :
    wp (startRouteResolution lane rt endpoint fx)
      (fun _ r' => ∃ resolution next epoch fates,
        resolution.state = .resolving rt endpoint epoch fx ∧
        r' = { r with
          routes := r.routes.insert lane { st with resolution, nextDnsEpoch := next }, fates })
      (fun _ r' => r' = r ∨ ∃ resolution next fates, r' = { r with
          routes := r.routes.insert lane { st with resolution, nextDnsEpoch := next }, fates })
      r := by
  unfold startRouteResolution
  simp only [wp_bind, wp_get, hf, reserveDnsEpoch]
  cases st.nextDnsEpoch with
  | none => exact .inl rfl
  | some raw =>
    simp only [map_some, BrokerResolutionMachine.apply, putRoute, wp_bind, wp_modify]
    rcases st.resolution.start_cases rt endpoint ⟨raw⟩ fx with hb | ⟨_, ignored⟩
    · rw [hb]
      exact ⟨_, _, ⟨raw⟩, _, rfl, rfl⟩
    · rw [ignored]
      exact .inr ⟨_, _, _, rfl⟩

/-- Queue a call and start the resolution it needs. -/
theorem queueForResolution_acts {now : Moment} (hf : r.routes.get lane = some st)
    (cur : st.advertised = some ⟨rt, endpoint⟩)
    (want : needsResolution = false → r.Expects lane st rt endpoint)
    (permit : needsResolution = true → fx.isSome = true) :
    Acts build (do
      let admitted ← admitToRoute lane st request now
      match admitted && needsResolution, fx with
      | true, some fx =>
        let resolution ← startRouteResolution lane rt endpoint fx
        pure (some (lane, resolution))
      | _, _ => pure none) (fun _ _ => True) r := by
  cases needs : needsResolution with
  | false =>
    refine .bind change_le (admitToRoute_acts hf cur (want needs)) ?_
    intro admitted r' _
    simp only [Bool.and_false]
    exact .pure trivial
  | true =>
    obtain ⟨fx, rfl⟩ := isSome_iff_exists.1 (permit needs)
    have hr : (st.waiting.admitCall request now).2.2 = false →
        RouteChange build false r lane st
          { st with waiting := (st.waiting.admitCall request now).1 } := fun hr =>
      .settle (RouteWaiting.len_admitCall_le hr)
    unfold Acts Moves
    simp only [admitToRoute, putRoute, wp_bind, wp_modify, wp_pure, Bool.and_true]
    cases admitted : (st.waiting.admitCall request now).2.2 with
    | false => exact ⟨.single (.route hf (hr admitted)), trivial⟩
    | true =>
      set queued := (st.waiting.admitCall request now).1 with ws
      have hw : (r.routes.insert lane { st with waiting := queued }).get lane =
          some { st with waiting := queued } := by simp
      have hs : Change build true r
          { r with
            routes := r.routes.insert lane { st with waiting := queued }
            fates := r.fates ++ (st.waiting.admitCall request now).2.1 } :=
        .route hf (.strand rfl)
      simp only [wp_bind]
      refine wp_mono (startRouteResolution_spec rt endpoint fx hw) ?_ ?_
      · rintro request' _ ⟨resolution, next, epoch, fates, hre, rfl⟩
        refine ⟨.single ?_, trivial⟩
        dsimp only
        rw [insert_insert]
        exact .route hf (.start cur hre)
      · rintro e _ (rfl | ⟨resolution, next, fates, rfl⟩)
        · exact .single hs
        · exact (Relation.ReflTransGen.single hs).tail (.route hw (.strand rfl))

theorem submitToRoute_acts {phys : Option DirectRefreshOwner} (req : Request)
    (hr : r.resolveRoute rt = some endpoint) (b : rt.brokerId = lane.brokerId)
    (hs : ∀ owner, phys = some owner → r.ServedBy lane endpoint owner)
    (want : phys = none → needsResolution = false → ∀ st,
      r.routes.get lane = some st → st.isResolving rt endpoint = true ∨
        st.pendingIsCurrent rt endpoint = true)
    (permit : needsResolution = true → fx.isSome = true) :
    Acts build (submitToRoute build lane rt endpoint phys needsResolution fx req
      now reply) (fun _ _ => True) r := by
  unfold submitToRoute
  refine .get_bind ?_
  cases found : r.routes.get lane with
  | none => exact failCurrentRouteRequest_acts
  | some st =>
    have hk := st.retainRoute_fst build rt endpoint
    have p : st.pendingIsCurrent rt endpoint = true →
        (st.retainRoute build rt endpoint).1.pendingIsCurrent rt endpoint = true :=
      pendingIsCurrent_retainRoute build
    have hre : RouteChange build false r lane st
        (st.retainRoute build rt endpoint).1 := .retain hr b
    simp only
    refine .bind change_le (putRoute_acts found hre) ?_
    rintro _ _ rfl
    generalize (st.retainRoute build rt endpoint).1 = state' at hk p ⊢
    have cur : state'.advertised = some ⟨rt, endpoint⟩ := by rw [hk]
    have res : state'.resolution = st.resolution := by rw [hk]
    have hw : (r.routes.insert lane state').get lane = some state' := by simp
    split
    · exact failRequest_bind fun _ => .pure trivial
    cases phys with
    | some owner =>
      exact submitToPhysical_acts now reply req hw cur (hs owner rfl)
    | none =>
      refine queueForResolution_acts hw cur (fun needless => ?_) permit
      rcases want rfl needless st found with hrg | hwa
      · refine .inr (.inr ?_)
        unfold isResolving at hrg ⊢
        rwa [res]
      · exact .inr (.inl (p hwa))

theorem insertRouteState_acts (hr : r.resolveRoute rt = some endpoint)
    (b : rt.brokerId = lane.brokerId) :
    Acts build (insertRouteState lane rt endpoint)
      (fun _ r' => ∃ routes, r' = { r with routes } ∧ ∀ st, routes.get lane = some st →
        r.routes.get lane = some st ∨ r.routes.get lane = none) r := by
  unfold insertRouteState
  refine .get_bind ?_
  split_ifs with hp
  · exact .pure ⟨r.routes, rfl, fun _ hf => .inl hf⟩
  · have ha : r.routes.get lane = none := by simpa using hp
    exact .modify_bind change_le (.insert hr b ha) (.pure ⟨_, rfl, fun _ _ => .inr ha⟩)
  · exact .pure ⟨r.routes, rfl, fun _ hf => .inl hf⟩

theorem trySubmitRoute_acts (rt : BrokerRoute) (fx : Option EffectId) (req : Request) :
    Acts build (trySubmitRoute build rt fx req now reply) (fun _ _ => True) r := by
  unfold trySubmitRoute
  refine .get_bind ?_
  split_ifs
  · exact failRequest_bind fun _ => .pure trivial
  cases resolves : r.resolveRoute rt with
  | none => exact failStaleRoute_acts
  | some ep =>
    set lane : BrokerLane := ⟨rt.brokerId, req.trafficClass⟩ with laneEq
    dsimp only
    cases current : r.currentPhysicalOwner lane ep with
    | error e => exact failCurrentRouteRequest_acts
    | ok phys =>
      dsimp only
      split_ifs with permit
      · exact failCurrentRouteRequest_acts
      refine .bind change_le (insertRouteState_acts resolves rfl) ?_
      rintro _ _ ⟨rs, rfl, hk⟩
      split_ifs
      · refine submitToRoute_acts now reply req resolves rfl ?_ ?_ ?_
        · rintro o rfl
          exact servedBy_of_currentPhysicalOwner current
        · rintro rfl needless st hf
          rcases hk st hf with hg | ha
          · rw [hg] at needless
            by_cases resolving : st.isResolving rt ep = true
            · exact .inl resolving
            · exact .inr (by simpa [needsResolution, resolving] using needless)
          · rw [ha] at needless
            cases needless
        · intro needs
          cases fx with
          | none => simp [needs] at permit
          | some _ => rfl
      · exact failStaleRoute_acts

/-! ## Resolution -/

/-- A current resolution failed : its calls fail with it. -/
theorem finishResolutionFailure_spec (err : DnsFailure) (hf : r.routes.get lane = some st)
    (cur : st.advertised = some ⟨rt, endpoint⟩)
    (hv : r.routeIsCurrent rt endpoint = true) :
    wp (finishResolutionFailure build lane rt err)
      (fun _ r' => ∃ fates, r' = { r with
        routes := r.routes.insert lane (({ st with
          lastDnsFailure := some err
          pendingInstall := none } : BrokerRouteState).failWaiting build
            (.nameResolutionFailed err) none).1
        fates }) (fun _ _ => False) r := by
  unfold finishResolutionFailure
  simp only [wp_bind, wp_get, hf, cur, any_some, decide_true, Bool.true_and, hv, if_true]
  exact ⟨_, rfl⟩

/-- Put a resolution into effect, given that its route is current. `state` is the state of
the route before the outcome, `resolution` the machine after it. -/
theorem installResolution_acts (build : Build) {pend : PendingInstall}
    {resolution : BrokerResolutionMachine} (found : r.routes.get lane = some st)
    (cur : st.advertised = some ⟨pend.route, pend.endpoint⟩)
    (valid : r.routeIsCurrent pend.route pend.endpoint = true) :
    wp (installResolution lane pend mk)
      (fun _ r' => Steps build false r r') (fun _ r' => Steps build true r r')
      { r with routes := r.routes.insert lane { st with resolution }, fates } := by
  have written : (r.routes.insert lane { st with resolution }).get lane =
      some { st with resolution } := by simp
  have advertises : ({ st with resolution } : BrokerRouteState).advertises pend.route
      pend.endpoint = true := by simp [advertises, cur]
  have hst : Change build true r
      { r with routes := r.routes.insert lane { st with resolution }, fates } :=
    .route found (.strand rfl)
  have valid' : ({ r with
      routes := r.routes.insert lane { st with resolution }, fates } :
        ClusterRuntime).routeIsCurrent pend.route pend.endpoint = true := valid
  unfold installResolution
  simp only [wp_bind, wp_get, written, advertises, valid', Bool.and_true, if_true]
  split_ifs
  · refine Relation.ReflTransGen.single ?_
    dsimp only
    rw [insert_insert]
    exact .route found (.defer cur)
  · -- the lanes change while the route keeps its old state, then the route is installed
    have finish : ∀ (r₂ : ClusterRuntime) (owner : DirectRefreshOwner) (fates' : List RequestFate),
        PhysicalSteps { r with
          routes := r.routes.insert lane { st with resolution }, fates } r₂ →
        r₂.ServedBy lane pend.endpoint owner →
        Steps build false r { r₂ with
          routes := r₂.routes.insert lane (({ st with resolution } : BrokerRouteState).markInstalled
            pend.route pend.endpoint owner)
          fates := fates' } := by
      intro r₂ owner fates' steps hse
      have start : Steps build false r { r with fates } := .single (.aside le_rfl)
      have moved : PhysicalSteps { r with fates } { r₂ with routes := r.routes } :=
        steps.frame r.routes
      have last : Change build false { r₂ with routes := r.routes }
          { r₂ with
            routes := r.routes.insert lane
              (({ st with resolution } : BrokerRouteState).markInstalled
              pend.route pend.endpoint owner)
            fates := fates' } := .route found (.install cur hse)
      have hs : r₂.routes.insert lane (({ st with resolution } : BrokerRouteState).markInstalled
          pend.route pend.endpoint owner) = r.routes.insert lane
            (({ st with resolution } : BrokerRouteState).markInstalled
              pend.route pend.endpoint owner) := by
        rw [steps.routes_eq, insert_insert]
      rw [hs]
      exact (start.trans moved.steps).tail last
    simp only [wp_bind, wp_query]
    refine ⟨fun owner? hh => ?_, fun _ _ => .single hst⟩
    cases owner? with
    | some owner => exact finish _ owner _ .refl (servedBy_of_currentPhysicalOwner hh)
    | none =>
      refine wp_bind.2 (wp_mono (activateResolvedLane_moves mk lane pend.endpoint _) ?_ ?_)
      · rintro owner r₂ ⟨steps, hse⟩
        exact finish r₂ owner _ steps hse
      · intro e r₂ steps
        exact (Relation.ReflTransGen.single hst).trans (PhysicalSteps.steps steps)

theorem tryCompleteRouteResolution_acts (lane : BrokerLane) (out : DnsOutcome) :
    Acts build (tryCompleteRouteResolution build lane out mk) (fun _ _ => True) r := by
  unfold tryCompleteRouteResolution
  refine .get_bind ?_
  split_ifs
  · exact .pure trivial
  cases found : r.routes.get lane with
  | none => exact .pure trivial
  | some st =>
    dsimp only
    split
    · rename_i rt endpoint epoch fx hf
      split_ifs with guards
      · obtain ⟨ha, hv⟩ := Bool.and_eq_true_iff.1 guards
        have cur : st.advertised = some ⟨rt, endpoint⟩ := of_decide_eq_true ha
        unfold Moves
        simp only [BrokerResolutionMachine.apply, putRoute, wp_bind, wp_modify]
        rcases BrokerResolutionMachine.complete_cases hf out with
          ignored | ⟨addresses, done⟩ | ⟨failure, done⟩
        · rw [ignored]
          exact ⟨.single (.route found (.settle le_rfl)), trivial⟩
        · rw [done]
          refine wp_mono (installResolution_acts mk build found cur hv) ?_ ?_
          · exact fun _ _ steps => ⟨steps, trivial⟩
          · exact fun _ _ steps => steps
        · rw [done]
          have hw : ∀ resolution : BrokerResolutionMachine,
              (r.routes.insert lane { st with resolution }).get lane =
                some { st with resolution } := by simp
          refine wp_mono (finishResolutionFailure_spec failure (hw _) cur hv) ?_ ?_
          · rintro _ _ ⟨fates, rfl⟩
            refine ⟨.single ?_, trivial⟩
            dsimp only
            rw [insert_insert]
            exact .route found .fail
          · exact fun _ _ never => never.elim
      · exact .pure trivial
    · exact .pure trivial

end ClusterRuntime

end KafkaDriver
