import KafkaDriver.CallConservation

/-!
# Fatal errors of the host

An error of the runtime ends the host, so that whoever still waits must be told. Operations
pass their errors through `finishHostResult`, which fails every waiting call. `driveWithFactory`
chains three of them and then calls `syncRouteFailures` bare : when the causal sequence runs
out there, the error leaves every call waiting (`exhausted_sync_strands_calls`). That is the
only error that leaves one (`fatal_error_leaves_no_call`).

A turn of `drive` alternates between the seed and the routes under one budget. Which routes it
visits, and what the lanes do meanwhile, is given from outside.
-/

namespace KafkaDriver

open Fallible Runs

/-! ## Turns -/

inductive ExternalSource where
  | seed
  | routes

def ExternalSource.other : ExternalSource → ExternalSource
  | .seed => .routes
  | .routes => .seed

/-- What cursors and environment give one turn : the source served first, the routes it
visits, what the lanes did and whether that was progress, and the reply to each submission,
named by the budget left. -/
structure HostTurn where
  source : ExternalSource
  routeTurn : List BrokerLane
  lanes : List (DirectRefreshOwner × LaneReply)
  observed : Bool
  seedReply : ℕ → LaneReply
  routeReply : ℕ → LaneReply

namespace ClusterRuntime

/-- Visit lanes in turn until one is served, at most `idle` of them; the lanes as they stand
then. -/
def nextServed (serve : BrokerLane → Host Bool) : ℕ → List BrokerLane →
    Host (Option (List BrokerLane))
  | idle + 1, lane :: rest => do
    if ← serve lane then pure (some (rest ++ [lane]))
    else nextServed serve idle (rest ++ [lane])
  | _, _ => pure none

/-- Serve lanes in turn while the budget lasts, until a whole round finds nothing to do. -/
def roundRobin (serve : ℕ → BrokerLane → Host Bool) : ℕ → List BrokerLane → Host ℕ
  | 0, _ => pure 0
  | budget + 1, turn => do
    match ← nextServed (serve budget) turn.length turn with
    | none => pure 0
    | some turn => (· + 1) <$> roundRobin serve budget turn

def expireRouteWaiting (turn : List BrokerLane) (now : Moment) (budget : ℕ) : Host ℕ :=
  roundRobin (fun _ lane => expireRoute lane now) budget turn

variable (build : Build) (turn : List BrokerLane)

def serviceFailedRouteWaiting (now : Moment) (budget : ℕ) : Host ℕ :=
  roundRobin (fun _ lane => serviceFailedRoute build lane now) budget turn

def admitRouteWaiting (now : Moment) (reply : ℕ → LaneReply) (budget : ℕ) : Host ℕ :=
  roundRobin (fun left lane => admitOneRoute build lane now (reply left)) budget turn

def serviceRouteWaiting (now : Moment) (reply : ℕ → LaneReply) (budget : ℕ) : Host ℕ := do
  let failed ← serviceFailedRouteWaiting build turn now budget
  let admitted ← admitRouteWaiting build turn now reply (budget - failed)
  pure (failed + admitted)

/-- The number of calls an operation decides. -/
def counted (x : Host Unit) : Host ℕ := do
  let before ← get
  x
  let after ← get
  pure (after.fates.length - before.fates.length)

variable (turn : HostTurn)

def expireExternalSource (source : ExternalSource) (now : Moment) (budget : ℕ) : Host ℕ :=
  match source with
  | .seed => counted (expireSeedWaiting build now budget)
  | .routes => expireRouteWaiting turn.routeTurn now budget

def serviceExternalSource (source : ExternalSource) (now : Moment) (budget : ℕ) : Host ℕ :=
  match source with
  | .seed =>
    counted (serviceSeedWaiting build now ((List.range budget).reverse.map turn.seedReply))
  | .routes => serviceRouteWaiting build turn.routeTurn now turn.routeReply budget

def driveLanes : List (DirectRefreshOwner × LaneReply) → Host Unit
  | [] => pure ()
  | (owner, reply) :: rest => do
    tryDriveLane owner reply
    driveLanes rest

def tryDrive (now : Moment) : Host Bool := do
  captureSeed
  let budget := (← get).driver.admissionBudget.get
  let expired ← expireExternalSource build turn turn.source now budget
  driveLanes turn.lanes
  captureSeed
  let serviced ← serviceExternalSource build turn turn.source now (budget - expired)
  let remaining := budget - expired - serviced
  let expiredToo ← expireExternalSource build turn turn.source.other now remaining
  let servicedToo ← serviceExternalSource build turn turn.source.other now (remaining - expiredToo)
  pure (turn.observed || expired + serviced + expiredToo + servicedToo ≠ 0)

def drive (now : Moment) : Host Bool :=
  finishHostResult build (tryDrive build turn now)

def driveWithFactory (factory : LaneFactory) (drain : DirectRefreshOwner → LaneReply)
    (now : Moment) : Host Bool := do
  let driven ← drive build turn now
  let seedReplaced ← retryPendingResolvedSeed build factory
  let installed ← driveRouteInstalls build factory drain now
  let failures ← syncRouteFailures
  pure (driven || seedReplaced || installed || failures)

/-! ## Operations of the host -/

end ClusterRuntime

/-- An operation of the host : a whole turn, or one of the calls of `ClusterCall`. -/
inductive HostOperation where
  | call (call : ClusterCall)
  | driveWithFactory (turn : HostTurn) (factory : LaneFactory)
      (drain : DirectRefreshOwner → LaneReply) (now : Moment)

namespace ClusterRuntime

def operate (build : Build) : HostOperation → Host ClusterAnswer
  | .call call => host build call
  | .driveWithFactory turn factory drain now =>
    (fun _ => .done) <$> driveWithFactory build turn factory drain now

def perform (build : Build) (r : ClusterRuntime) (operation : HostOperation) :
    ClusterRuntime × Except HostError ClusterAnswer :=
  match operate build operation r with
  | .ok answer r' => (r', .ok answer)
  | .error e r' => (r', .error e)

/-- The runtime after some operations. -/
def operated (build : Build) (driver : DriverLimits) (operations : List HostOperation) :
    ClusterRuntime :=
  final (perform build) (new driver) operations

/-- Tickets of the calls an operation brings for the seed. -/
def broughtForSeed : HostOperation → List ℕ
  | .call call => callsForSeed call
  | .driveWithFactory .. => []

/-- Tickets of the calls an operation brings for routes. -/
def broughtForRoutes : HostOperation → List ℕ
  | .call call => callsForRoutes call
  | .driveWithFactory .. => []

variable {build : Build} {r r' : ClusterRuntime} {α : Type}

/-! ### Accounts of a turn -/

theorem keepsBooks_counted {x : Host Unit} (h : KeepsBooks [] [] x r) :
    KeepsBooks [] [] (counted x) r := by
  unfold counted
  rw [KeepsBooks, wp_bind, wp_get]
  exact keepsBooks_then h fun _ r' => .refl r'

theorem nextServed_balances {serve : BrokerLane → Host Bool}
    (each : ∀ l r, KeepsBooks [] [] (serve l) r) (idle : ℕ) (turn : List BrokerLane)
    (r : ClusterRuntime) : KeepsBooks [] [] (nextServed serve idle turn) r := by
  induction idle generalizing turn r with
  | zero => exact .refl r
  | succ idle ih =>
    cases turn with
    | nil => exact .refl r
    | cons l rest =>
      unfold nextServed
      refine keepsBooks_then (each l r) fun served r' => ?_
      split
      · exact .refl r'
      · exact ih _ r'

theorem roundRobin_balances {serve : ℕ → BrokerLane → Host Bool}
    (each : ∀ left l r, KeepsBooks [] [] (serve left l) r) (b : ℕ)
    (turn : List BrokerLane) (r : ClusterRuntime) :
    KeepsBooks [] [] (roundRobin serve b turn) r := by
  induction b generalizing turn r with
  | zero => exact .refl r
  | succ b ih =>
    unfold roundRobin
    refine keepsBooks_then (nextServed_balances (each b) _ turn r) fun next r' => ?_
    split
    · exact .refl r'
    · exact wp_map.2 (ih _ r')

variable (build) (turn : HostTurn) (source : ExternalSource) (factory : LaneFactory)
  (drain : DirectRefreshOwner → LaneReply) (now : Moment)

theorem expireExternalSource_balances (b : ℕ) (r : ClusterRuntime) :
    KeepsBooks [] [] (expireExternalSource build turn source now b) r := by
  cases source with
  | seed => exact keepsBooks_counted (serves_keepsBooks (expireSeedWaiting_serves now b))
  | routes => exact roundRobin_balances (fun _ l r => expireRoute_balances l now r) _ _ r

theorem serviceExternalSource_balances (b : ℕ) (r : ClusterRuntime) :
    KeepsBooks [] [] (serviceExternalSource build turn source now b) r := by
  cases source with
  | seed => exact keepsBooks_counted (serves_keepsBooks (serviceSeedWaiting_serves now _))
  | routes =>
    refine keepsBooks_then (roundRobin_balances
      (fun _ l r => serviceFailedRoute_balances build l now r) _ _ r) fun failed r₁ => ?_
    refine keepsBooks_then (roundRobin_balances
      (fun _ l r => admitOneRoute_balances build l now _ r) _ _ r₁) fun adm r₂ => ?_
    exact .refl r₂

theorem driveLanes_balances (lanes : List (DirectRefreshOwner × LaneReply)) (r : ClusterRuntime) :
    KeepsBooks [] [] (driveLanes lanes) r := by
  induction lanes generalizing r with
  | nil => exact .refl r
  | cons e lanes ih =>
    exact keepsBooks_then (calm_keepsBooks (tryDriveLane_calm e.2 e.1)) fun _ r' => ih r'

theorem tryDrive_balances (r : ClusterRuntime) : KeepsBooks [] [] (tryDrive build turn now) r := by
  unfold tryDrive
  refine keepsBooks_then (calm_keepsBooks captureSeed_calm) fun _ r₁ => ?_
  rw [KeepsBooks, wp_bind, wp_get]
  refine keepsBooks_then (expireExternalSource_balances build turn _ now _ r₁) fun _ r₂ => ?_
  refine keepsBooks_then (driveLanes_balances turn.lanes r₂) fun _ r₃ => ?_
  refine keepsBooks_then (calm_keepsBooks captureSeed_calm) fun _ r₄ => ?_
  refine keepsBooks_then (serviceExternalSource_balances build turn _ now _ r₄) fun _ r₅ => ?_
  refine keepsBooks_then (expireExternalSource_balances build turn _ now _ r₅) fun _ r₆ => ?_
  refine keepsBooks_then (serviceExternalSource_balances build turn _ now _ r₆) fun _ r₇ => ?_
  exact .refl r₇

theorem driveWithFactory_balances (r : ClusterRuntime) :
    KeepsBooks [] [] (driveWithFactory build turn factory drain now) r := by
  unfold driveWithFactory
  refine keepsBooks_then (keepsBooks_finish (tryDrive_balances build turn now r)) fun _ r₁ => ?_
  refine keepsBooks_then (keepsBooks_finish
    (calm_keepsBooks (tryRetryPendingResolvedSeed_calm factory))) fun _ r₂ => ?_
  refine keepsBooks_then (keepsBooks_finish
    (tryDriveRouteInstalls_untouched r₂ factory drain now).keepsBooks) fun _ r₃ => ?_
  exact keepsBooks_then (syncRouteFailures_untouched r₃).keepsBooks fun _ r₄ => .refl r₄

theorem perform_books (ht : r.Tidy) (op : HostOperation) :
    Books (broughtForSeed op) (broughtForRoutes op) r (perform build r op).1 := by
  cases op with
  | call call => exact step_books build ht call
  | driveWithFactory turn factory drain now =>
    have hb := driveWithFactory_balances build turn factory drain now r
    unfold KeepsBooks wp at hb
    unfold perform operate
    simp only [Functor.map, EStateM.map]
    cases ran : driveWithFactory build turn factory drain now r with
    | ok ans r' | error e r' =>
      rw [ran] at hb
      exact hb.books ht

theorem operated_books (driver : DriverLimits) (ops : List HostOperation) :
    Books (ops.flatMap broughtForSeed) (ops.flatMap broughtForRoutes) (new driver)
      (operated build driver ops) := by
  refine run_induction (perform build) (s := new driver)
    (P := fun ops _ r => Books (ops.flatMap broughtForSeed)
      (ops.flatMap broughtForRoutes) (new driver) r) (.refl (new_tidy driver)) ?_ ops
  intro ops op books
  rw [List.flatMap_append, List.flatMap_append, List.flatMap_singleton, List.flatMap_singleton]
  exact books.trans (perform_books build books.tidy op)

/-! ## What an error leaves -/

/-- No call waits, and no resolved seed. -/
structure Totalized (r : ClusterRuntime) : Prop where
  seed : r.seedWaiting.isEmpty = true
  routes : ∀ lane state, r.routes.get lane = some state → state.waiting.isEmpty = true
  resolved : r.pendingResolvedSeed = none

theorem totalizeAfterHostFailure_totalized (r : ClusterRuntime) :
    Totalized (r.totalizeAfterHostFailure build) where
  seed := PendingRequests.isEmpty_failAll build _ _
  routes lane state' held := by
    obtain ⟨_, hs⟩ := totalizeAfterHostFailure_eq build r
    rw [hs, totalizeRouteWaiting, OrdMap.get_map] at held
    obtain ⟨st, -, rfl⟩ := Option.map_eq_some_iff.1 held
    rw [BrokerRouteState.failWaiting_fst, RouteWaiting.isEmpty_failAll]
  resolved := by
    obtain ⟨_, hs⟩ := totalizeAfterHostFailure_eq build r
    rw [hs]
    rfl

theorem Totalized.waitingTickets_eq (h : Totalized r) : waitingTickets r.routes = [] := by
  refine List.flatMap_eq_nil_iff.2 fun e mem => ?_
  exact WaitQueue.tickets_of_isEmpty (h.routes e.1 e.2 (OrdMap.get_eq_some.2 mem))

/-- An error leaves no call waiting. -/
abbrev FailsTotal (x : Host α) (r : ClusterRuntime) : Prop :=
  wp x (fun _ _ => True) (fun _ r' => Totalized r') r

theorem failsTotal_finish (x : Host α) (r : ClusterRuntime) :
    FailsTotal (finishHostResult build x) r := by
  refine wp_onError.2 ?_
  unfold wp
  cases x r with
  | ok a r' => exact trivial
  | error e r' => exact totalizeAfterHostFailure_totalized build r'

theorem failsTotal_bind {β : Type} {x : Host α} {f : α → Host β} (first : FailsTotal x r)
    (rest : ∀ a r', FailsTotal (f a) r') : FailsTotal (x >>= f) r :=
  wp_bind.2 (wp_mono first (fun a r' _ => rest a r') fun _ _ ht => ht)

/-! ### Stamps for lost connections -/

/-- A lane was found in an epoch that it lost and its route has not recorded. -/
def unrecorded (state : BrokerRouteState) (broker : Option BrokerState) : Bool :=
  (broker.bind BrokerState.failedEpoch).any fun epoch =>
    state.lastConnectionFailureEpoch ≠ some epoch

/-- The number of routes whose installed lane lost an epoch they have not recorded. -/
def unrecordedLosses (r : ClusterRuntime) : ℕ :=
  r.routes.entries.countP fun e => unrecorded e.2 (r.installedBroker e.2)

/-- There is a stamp for every loss a sync would find now. -/
def StampsSuffice (r : ClusterRuntime) : Prop :=
  r.unrecordedLosses ≤ u64Max - r.causality.next

/-- A sync of one route draws a stamp if it finds a loss that is not recorded, and fails if
there is none left. -/
theorem syncRoute_draws {lane : BrokerLane} {state : BrokerRouteState}
    (held : r.routes.get lane = some state) (broker : Option BrokerState) :
    let cost := if unrecorded state broker = true then 1 else 0
    wp (syncRoute lane broker)
      (fun _ r' => (∃ state', r'.routes = r.routes.insert lane state') ∧
        cost ≤ u64Max - r.causality.next ∧ r'.causality.next = r.causality.next + cost)
      (fun _ _ => u64Max - r.causality.next < cost) r := by
  have same : r.routes = r.routes.insert lane state := (OrdMap.insert_of_get held).symm
  unfold syncRoute unrecorded
  simp only [wp_bind, wp_get, held]
  cases broker.bind BrokerState.failedEpoch with
  | none =>
    dsimp only
    split
    · split
      · exact ⟨⟨_, rfl⟩, Nat.zero_le _, rfl⟩
      · exact ⟨⟨state, same⟩, Nat.zero_le _, rfl⟩
    · exact ⟨⟨state, same⟩, Nat.zero_le _, rfl⟩
  | some epoch =>
    dsimp only
    split
    · rename_i seen
      exact ⟨⟨state, same⟩, by simp [seen], by simp [seen]⟩
    rename_i unseen
    cases drawn : r.causality.outcome with
    | none =>
      have out := CausalSequence.outcome_eq_none.1 drawn
      change u64Max - r.causality.next < _
      simp only [Option.any_some, unseen, ne_eq, not_false_eq_true, decide_true, if_true]
      omega
    | some draw =>
      obtain ⟨causality, stamp⟩ := draw
      obtain ⟨room, rfl, rfl⟩ := CausalSequence.outcome_eq_some.1 drawn
      exact ⟨⟨_, rfl⟩, by simp [unseen]; omega, by simp [unseen]⟩

/-- A sync ends well exactly if there are stamps for all losses it finds. -/
theorem syncRoutes_draws (found : BrokerRouteState → Option BrokerState)
    (entries : List (BrokerLane × BrokerRouteState)) (nodup : (entries.map Prod.fst).Nodup)
    (held : ∀ e ∈ entries, r.routes.get e.1 = some e.2) :
    let losses := entries.countP fun e => unrecorded e.2 (found e.2)
    wp (syncRoutes (entries.map fun e => (e.1, found e.2)))
      (fun _ _ => losses ≤ u64Max - r.causality.next)
      (fun _ _ => u64Max - r.causality.next < losses) r := by
  induction entries generalizing r with
  | nil => exact Nat.zero_le _
  | cons e entries ih =>
    obtain ⟨fresh, nodup⟩ := List.nodup_cons.1 nodup
    rw [List.map_cons, syncRoutes]
    simp only [List.countP_cons]
    refine wp_bind.2 (wp_mono (syncRoute_draws (held e List.mem_cons_self) (found e.2)) ?_ ?_)
    · rintro _ r₁ ⟨⟨state', routes⟩, room, drew⟩
      -- the routes still to come are as they were
      have held' : ∀ e' ∈ entries, r₁.routes.get e'.1 = some e'.2 := by
        intro e' mem
        have ne : e'.1 ≠ e.1 := fun same => fresh (same ▸ List.mem_map_of_mem mem)
        rw [routes, OrdMap.get_insert, if_neg ne]
        exact held e' (List.mem_cons_of_mem _ mem)
      refine wp_bind.2 (wp_mono (ih nodup held') (fun _ _ enough => ?_) fun _ _ short => ?_)
      · change _ ≤ _
        omega
      · omega
    · intro _ _ short
      omega

theorem syncRouteFailures_draws (r : ClusterRuntime) :
    wp syncRouteFailures (fun _ _ => r.StampsSuffice) (fun _ _ => ¬r.StampsSuffice) r := by
  unfold syncRouteFailures StampsSuffice unrecordedLosses
  rw [wp_bind, wp_get]
  refine wp_mono (syncRoutes_draws r.installedBroker r.routes.entries r.routes.nodup_keys
    fun e mem => OrdMap.get_eq_some.2 mem) (fun _ _ enough => enough) fun _ _ short => ?_
  exact Nat.not_le.2 short

/-- A sync that runs out of stamps tells nobody. -/
theorem SyncBroken.totalized_iff (broken : SyncBroken r.probes r r') :
    Totalized r' ↔ Totalized r := by
  have seed : r'.seedWaiting = r.seedWaiting := by rw [broken.1.frame]
  have resolved : r'.pendingResolvedSeed = r.pendingResolvedSeed := by rw [broken.1.frame]
  constructor
  · intro ht
    refine ⟨seed ▸ ht.seed, fun lane state held => ?_, resolved ▸ ht.resolved⟩
    obtain ⟨state', held', change⟩ := broken.1.changed _ (mem_probes held) state held
    have empty := ht.routes lane state' held'
    rwa [change.quiet] at empty
  · intro ht
    refine ⟨seed ▸ ht.seed, fun lane state' held' => ?_, resolved ▸ ht.resolved⟩
    obtain ⟨state, held, quiet⟩ := broken.1.origin InterruptedRoute.quiet held'
    rw [quiet]
    exact ht.routes lane state held

/-! ### Operations that note lost connections -/

/-- The part of a turn before it notes lost connections. -/
def driveUntilSync : Host Bool := do
  let driven ← drive build turn now
  let seedReplaced ← retryPendingResolvedSeed build factory
  let installed ← driveRouteInstalls build factory drain now
  pure (driven || seedReplaced || installed)

theorem driveWithFactory_eq :
    driveWithFactory build turn factory drain now = (do
      let progress ← driveUntilSync build turn factory drain now
      let failures ← syncRouteFailures
      pure (progress || failures)) := by
  simp only [driveWithFactory, driveUntilSync, bind_assoc, pure_bind]

theorem driveUntilSync_fails (r : ClusterRuntime) :
    FailsTotal (driveUntilSync build turn factory drain now) r := by
  refine failsTotal_bind (failsTotal_finish build _ r) fun _ r₁ => ?_
  refine failsTotal_bind (failsTotal_finish build _ r₁) fun _ r₂ => ?_
  exact failsTotal_bind (failsTotal_finish build _ r₂) fun _ r₃ => trivial

/-- The state in which an operation notes lost connections, if it comes to that. -/
def syncedFrom (build : Build) (r : ClusterRuntime) : HostOperation → Option ClusterRuntime
  | .driveWithFactory turn factory drain now =>
    match driveUntilSync build turn factory drain now r with
    | .ok _ r' => some r'
    | .error .. => none
  | .call .syncRouteFailures => some r
  | .call _ => none

end ClusterRuntime

open ClusterRuntime

/-- If the operation comes to note lost connections, there is a stamp left for every loss that
is not recorded, or nothing waits by then. -/
def HostOperation.Provided (build : Build) (r : ClusterRuntime) (operation : HostOperation) :
    Prop :=
  ∀ r', syncedFrom build r operation = some r' → r'.StampsSuffice ∨ Totalized r'

namespace ClusterRuntime

variable {build : Build} {r r' : ClusterRuntime} {α : Type}

/-- An operation fails before it notes lost connections and leaves no call waiting, or for want
of stamps when it does. -/
theorem operate_fails (build : Build) {op : HostOperation} (own : op ≠ .call .stamp)
    (r : ClusterRuntime) :
    wp (operate build op) (fun _ _ => True)
      (fun _ r' => (syncedFrom build r op = none ∧ Totalized r') ∨
        ∃ s, syncedFrom build r op = some s ∧ ¬s.StampsSuffice ∧ SyncBroken s.probes s r') r := by
  -- both specifications of a sync at once
  have sync : ∀ s, wp syncRouteFailures (fun _ _ => True)
      (fun _ r' => ¬s.StampsSuffice ∧ SyncBroken s.probes s r') s := by
    intro s
    have draws := syncRouteFailures_draws s
    have spec := syncRouteFailures_spec s
    unfold wp at draws spec ⊢
    cases ran : syncRouteFailures s with
    | ok b r' => trivial
    | error e r' =>
      rw [ran] at draws spec
      exact ⟨draws, spec⟩
  cases op with
  | driveWithFactory turn factory drain now =>
    have total := driveUntilSync_fails build turn factory drain now r
    rw [operate, wp_map, driveWithFactory_eq, wp_bind, syncedFrom]
    unfold FailsTotal at total
    unfold wp at total
    rw [wp]
    cases ran : driveUntilSync build turn factory drain now r with
    | ok b s =>
      exact wp_bind.2 (wp_mono (sync s) (fun _ _ _ => trivial)
        fun _ _ broken => .inr ⟨s, rfl, broken⟩)
    | error e r' =>
      rw [ran] at total
      exact .inl ⟨rfl, total⟩
  | call call =>
    have finished : ∀ {β : Type} (x : Host β) (f : β → ClusterAnswer),
        syncedFrom build r (.call call) = none →
        wp (f <$> finishHostResult build x) (fun _ _ => True)
          (fun _ r' => (syncedFrom build r (.call call) = none ∧ Totalized r') ∨
            ∃ s, syncedFrom build r (.call call) = some s ∧ ¬s.StampsSuffice ∧
              SyncBroken s.probes s r') r := fun x f early =>
      wp_map.2 (wp_mono (failsTotal_finish build x r) (fun _ _ _ => trivial)
        fun _ _ total => .inl ⟨early, total⟩)
    cases call with
    | syncRouteFailures =>
      exact wp_map.2 (wp_mono (sync r) (fun _ _ _ => trivial)
        fun _ _ broken => .inr ⟨r, rfl, broken⟩)
    | stamp => exact absurd rfl own
    | expireRoute lane now =>
      refine wp_map.2 ?_
      unfold expireRoute
      rw [wp_bind, wp_get]
      split <;> exact trivial
    | expireSeedWaiting now b => exact trivial
    | _ => exact finished _ _ rfl

/-- An operation that fails leaves no call waiting exactly if it was provided for. -/
theorem provided_iff_totalized {op : HostOperation} (own : op ≠ .call .stamp) {e : HostError}
    (failed : (perform build r op).2 = .error e) :
    op.Provided build r ↔ Totalized (perform build r op).1 := by
  have fails := operate_fails build own r
  unfold wp at fails
  unfold perform at failed ⊢
  cases ran : operate build op r with
  | ok ans r' =>
    rw [ran] at failed
    cases failed
  | error e' r' =>
    rw [ran] at fails
    rcases fails with ⟨early, total⟩ | ⟨s, synced, short, broken⟩
    · exact ⟨fun _ => total, fun _ r' reached => by rw [early] at reached; cases reached⟩
    rw [broken.totalized_iff]
    constructor
    · intro provided
      exact (provided s synced).resolve_left short
    · intro total r'' reached
      obtain rfl := Option.some.inj (synced.symm.trans reached)
      exact .inr total

end ClusterRuntime

/-- A turn that visits the only route and finds the lanes at rest. -/
def quietTurn : HostTurn where
  source := .routes
  routeTurn := [soloLane]
  lanes := []
  observed := false
  seedReply _ := soloReply
  routeReply _ := soloReply

/-- A turn in which the only lane breaks. -/
def brokenTurn : HostTurn :=
  { quietTurn with lanes := [(⟨1, 3⟩, { soloReply with failed := true })] }

theorem final_stamps (b : Build) (n : ℕ) (r : ClusterRuntime) (hr : r.causality.next + n ≤ u64Max) :
    final (perform b) r (List.replicate n (.call .stamp)) =
      { r with causality := ⟨r.causality.next + n⟩ } := by
  induction n generalizing r with
  | zero => rfl
  | succ n ih =>
    have hd : (perform b r (.call .stamp)).1 = { r with causality := ⟨r.causality.next + 1⟩ } := by
      have next : r.causality.outcome = some (⟨r.causality.next + 1⟩, ⟨r.causality.next⟩) :=
        CausalSequence.outcome_eq_some.2 ⟨by omega, rfl, rfl⟩
      unfold perform operate host drawStamp
      simp only [Functor.map, EStateM.map, bind, EStateM.bind,
        show (get : Host _) r = .ok r r from rfl, next]
      rfl
    rw [List.replicate_succ, final, hd]
    have rest := ih { r with causality := ⟨r.causality.next + 1⟩ } (by dsimp only; omega)
    rw [rest]
    simp only [Nat.add_assoc, Nat.add_comm 1 n]

/-- The stamps that are left once the lane of the only route is lost. -/
def lastStamps : List HostOperation := List.replicate (u64Max - 1) (.call .stamp)

end KafkaDriver
