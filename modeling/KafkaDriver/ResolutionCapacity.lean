import KafkaDriver.ResolutionBooks
import KafkaDriver.Runs

/-!
# DNS capacity over a run

A host calls name resolution, holds the permits it is given and hands each back once. While
no call reaches `cancel`, the ownership table counts the live permits and the unanswered
requests in every state of a release run (`release_capacity_accounted`). A bootstrap pass
that ends reaches `cancel`, and its entry is then lost for good (`install_leaks_capacity`).
-/

namespace KafkaDriver

open Runs List

/-! ## The host's calls -/

/-- Name resolution with the permits its callers hold. -/
structure ResolutionHost where
  resolution : NameResolution
  permits : List ResolutionPermit

inductive ResolutionCall where
  | tryReserveBroker (lane : BrokerLane)
  | tryReserveDirect (owner : DirectRefreshOwner)
  | submit (permit : ResolutionPermit) (request : DnsRequest) (verdict : Verdict)
  | cancel (permit : ResolutionPermit)
  | restartBootstrap (offered : EffectId → Verdict)
  | drive (turn : DriveTurn)

inductive ResolutionReply where
  | reserved (answer : Except NameResolutionError (Option ResolutionPermit))
  | submitted (answer : Except NameResolutionError Unit)
  | cancelled
  | restarted (answer : Except NameResolutionError Bool)
  | driven (dispatch : Dispatch) (answer : Except NameResolutionError ResolutionProgress)

namespace ResolutionHost

/-- The host holds the permit of a successful reservation. -/
def hold (host : ResolutionHost)
    (reserved : NameResolution × Except NameResolutionError (Option ResolutionPermit)) :
    ResolutionHost × ResolutionReply :=
  match reserved with
  | (n, .ok (some permit)) => (⟨n, permit :: host.permits⟩, .reserved (.ok (some permit)))
  | (n, answer) => (⟨n, host.permits⟩, .reserved answer)

variable (build : Build) (host : ResolutionHost)

def step :
    ResolutionCall → ResolutionHost × ResolutionReply
  | .tryReserveBroker lane => host.hold (host.resolution.tryReserveBroker lane)
  | .tryReserveDirect owner => host.hold (host.resolution.tryReserveDirect owner)
  | .submit permit request verdict =>
    match host.resolution.submit build permit request verdict with
    | (n, answer) => (⟨n, host.permits.erase permit⟩, .submitted answer)
  | .cancel permit => (⟨host.resolution.cancel build permit, host.permits.erase permit⟩, .cancelled)
  | .restartBootstrap offered =>
    match host.resolution.restartBootstrap build offered with
    | (n, answer) => (⟨n, host.permits⟩, .restarted answer)
  | .drive turn =>
    match host.resolution.drive build turn with
    | ((n, d), answer) => (⟨n, host.permits⟩, .driven d answer)

/-- Permits are used while they are held, and the worker answers an accepted request at most
once. -/
def Legal : ResolutionCall → Prop
  | .submit permit _ _ | .cancel permit => permit ∈ host.permits
  | .drive turn =>
    NameResolution.Answers turn.available
      (host.resolution.restartExhaustedBootstrap build turn.now turn.offered).1.resolver.inFlight
  | _ => True

/-- The call gives up no permit through `cancel` and drops no collected outcome. -/
def Settles : ResolutionCall → Prop
  | .submit permit request _ => permit.effectId = request.effectId
  | .cancel _ => False
  | .restartBootstrap _ =>
    host.resolution.bootstrapInFlight = false → host.resolution.Reservable →
      host.resolution.bootstrap.nextEpoch ≠ none
  | .drive turn => host.resolution.Proceeds turn
  | _ => True

/-- The books of the host. -/
def Accounted (host : ResolutionHost) : Prop :=
  host.resolution.Accounted (host.permits.map (·.effectId)) [] ∧ host.resolution.Tracked []

theorem hold_accounted {host : ResolutionHost} (books : host.Accounted) {owner : ResolutionOwner}
    (hc : owner ≠ .bootstrap) : (host.hold (host.resolution.tryReserve owner)).1.Accounted := by
  obtain ⟨acc, ht⟩ := books
  rcases NameResolution.tryReserve_cases acc owner with
    ⟨raw, room, next, reserved⟩ | ⟨effectIds, answer, -, reserved, refused, used⟩
  · rw [reserved]
    exact ⟨acc.reserving room next owner, ht.reserving hc⟩
  rw [reserved]
  have hk : (⟨{ host.resolution with effectIds }, host.permits⟩ : ResolutionHost).Accounted :=
    ⟨acc.skip used, ht.ready, ht.newer, ht.awaited⟩
  rcases refused with rfl | ⟨err, rfl⟩ <;> exact hk

/-- One call keeps the books. -/
theorem step_accounted {b : Build} {host : ResolutionHost} (books : host.Accounted)
    {c : ResolutionCall} (hl : host.Legal b c) (hs : host.Settles c) :
    (host.step b c).1.Accounted := by
  cases c with
  | tryReserveBroker l | tryReserveDirect o => exact hold_accounted books (by simp)
  | submit permit req verdict =>
    have hg : host.resolution.Accounted
        (req.effectId :: (host.permits.erase permit).map (·.effectId)) [] := by
      have perm := (perm_cons_erase hl).map (·.effectId)
      rw [map_cons, show permit.effectId = req.effectId from hs] at perm
      exact books.1.permute perm
    dsimp only [step]
    rcases NameResolution.submit_cases b host.resolution verdict hs with
      ⟨n, submitted, s⟩ | ⟨n, error, submitted, -, s⟩
    · rw [submitted]
      exact ⟨s.accounted hg, s.tracked books.2⟩
    · rw [submitted]
      exact ⟨s.accounted hg, s.tracked books.2⟩
  | cancel permit => exact hs.elim
  | restartBootstrap verdicts =>
    exact NameResolution.restartBootstrap_keeps verdicts b books.1 books.2 hs
  | drive turn => exact NameResolution.drive_keeps b books.1 books.2 hl hs

/-- The calls made on freshly started name resolution, with their replies. -/
def run (n : NameResolution) (calls : List ResolutionCall) :
    List (Event ResolutionHost ResolutionCall ResolutionReply) :=
  trace (step build) ⟨n, []⟩ calls

/-- The host after these calls. -/
def after (n : NameResolution) (calls : List ResolutionCall) : ResolutionHost :=
  final (step build) ⟨n, []⟩ calls

theorem after_accounted {b : Build} {n : NameResolution}
    (books : (⟨n, []⟩ : ResolutionHost).Accounted) {cs : List ResolutionCall}
    (hl : ∀ e ∈ run b n cs, e.before.Legal b e.input)
    (hs : ∀ e ∈ run b n cs, e.before.Settles e.input) :
    (after b n cs).Accounted := by
  refine run_induction (step b) (P := fun _ past host =>
    (∀ e ∈ past, e.before.Legal b e.input) → (∀ e ∈ past, e.before.Settles e.input) →
      host.Accounted) (fun _ _ => books) (fun is c ih hl hs => ?_) cs hl hs
  have old := ih (fun e he => hl e (mem_append_left _ he)) (fun e he => hs e (mem_append_left _ he))
  have last : event (step b) (final (step b) ⟨n, []⟩ is) c ∈
      trace (step b) ⟨n, []⟩ is ++ [event (step b) (final (step b) ⟨n, []⟩ is) c] := by
    simp
  exact step_accounted old (hl _ last) (hs _ last)

end ResolutionHost

/-- In a release build, while no call reaches `cancel` or drops a collected outcome, the
ownership table has one entry for each live permit, waiting request and request with the
worker. Once all are settled it is empty, and only the end of the identities refuses a
reservation. -/
theorem release_capacity_accounted {endpoints : BootstrapSet} {limits : ResolverLimits}
    {entropy : JitterEntropy} {verdict : Verdict} {n : NameResolution}
    (started : NameResolution.start .release endpoints limits entropy verdict = .ok n)
    (calls : List ResolutionCall)
    (legal : ∀ e ∈ ResolutionHost.run .release n calls, e.before.Legal .release e.input)
    (settles : ∀ e ∈ ResolutionHost.run .release n calls, e.before.Settles e.input) :
    let host := ResolutionHost.after .release n calls
    host.resolution.ownership.owners.size =
        host.permits.length + host.resolution.pending.requests.length +
          host.resolution.resolver.inFlight.length ∧
      (host.permits = [] → host.resolution.pending.requests = [] →
        host.resolution.resolver.inFlight = [] →
        host.resolution.ownership.owners = .empty ∧
          ∀ owner, (host.resolution.tryReserve owner).2 =
            match host.resolution.effectIds.next with
            | none => .error .identityExhausted
            | some raw => .ok (some ⟨⟨raw⟩, owner⟩)) := by
  intro host
  obtain ⟨books, -⟩ : host.Accounted :=
    ResolutionHost.after_accounted (NameResolution.start_keeps started) legal settles
  have size := books.size_eq
  rw [length_map, length_nil, Nat.add_zero] at size
  refine ⟨size, fun permits requests hi => ?_⟩
  rw [permits, requests, hi] at size
  have empty : host.resolution.ownership.owners = .empty :=
    OrdMap.first_eq_none.1 (head?_eq_none_iff.2 (length_eq_zero_iff.1 size))
  have hr := host.resolution.ownership.capacity.pos
  have slot : host.resolution.pending.requests.length + host.resolution.pending.reserved <
      host.resolution.pending.capacity := by
    rw [requests, books.reserved, permits, books.capacity]
    exact hr
  refine ⟨empty, fun owner => ?_⟩
  cases next : host.resolution.effectIds.next with
  | none => exact NameResolution.tryReserve_exhausted slot next owner
  | some raw =>
    rcases NameResolution.tryReserve_cases books owner with
      ⟨raw', -, next', reserved⟩ | ⟨effectIds, answer, full, -⟩
    · obtain rfl : raw = raw' := Option.some.inj (next.symm.trans next')
      rw [reserved]
    · exact absurd ⟨slot, by simp [next], by rw [size]; exact hr⟩ full

/-! ### Small resolvers -/

def oneSlot : ResolverLimits := ⟨.one, .one, .one⟩

def twoSlots : ResolverLimits := { oneSlot with pendingCapacity := .two }

def seeds (hosts : List String) (nonempty : hosts ≠ []) (nodup : hosts.Nodup) : BootstrapSet :=
  ⟨hosts.map (⟨·, 9092⟩), by simpa using nonempty,
    nodup.map fun _ _ same => congrArg BrokerEndpoint.host same⟩

/-- The worker's answer to the bootstrap request with effect `id`. -/
def bootstrapTurn (id : ℕ) (result : Except DnsFailure ResolvedAddressSet) : DriveTurn :=
  ⟨⟨0⟩, [⟨⟨1⟩, ⟨id⟩, result⟩], false, fun _ => .accepted, fun _ => .accepted⟩

/-- The seed resolves and is installed : nothing is live, waiting or with the worker, yet the
table keeps the cancelled entry and refuses every reservation. -/
theorem install_leaks_capacity :
    ∃ n, NameResolution.start .release (seeds ["a"] (by simp) (by simp)) oneSlot ⟨0⟩ .accepted =
        .ok n ∧
      (∀ e ∈ ResolutionHost.run .release n
          [.drive (bootstrapTurn 1 (.ok ⟨[⟨[127, 0, 0, 1], 9092⟩], by simp⟩))],
        e.before.Legal .release e.input) ∧
      let host := ResolutionHost.after .release n
        [.drive (bootstrapTurn 1 (.ok ⟨[⟨[127, 0, 0, 1], 9092⟩], by simp⟩))]
      host.permits = [] ∧ host.resolution.pending.requests = [] ∧
        host.resolution.resolver.inFlight = [] ∧ host.resolution.ownership.owners.size = 1 ∧
        ∀ owner, (host.resolution.tryReserve owner).2 = .ok none := by
  refine ⟨_, rfl, ?_, rfl, rfl, rfl, rfl, fun _ => rfl⟩
  intro e he
  rw [mem_singleton.1 he]
  exact List.Subperm.refl _

/-- The first of two seeds fails and a broker reserves a slot : two entries, one for the
request for the second seed and one for the permit. -/
theorem release_capacity_accounted_twoSeeds :
    ∃ n, NameResolution.start .release (seeds ["a", "b"] (by simp) (by simp)) twoSlots ⟨0⟩
        .accepted = .ok n ∧
      let host := ResolutionHost.after .release n
        [.drive (bootstrapTurn 1 (.error .temporary)), .tryReserveBroker ⟨⟨7⟩, .bulk⟩]
      host.resolution.ownership.owners.size = 2 ∧ host.permits.length = 1 ∧
        host.resolution.resolver.inFlight.length = 1 := by
  have hs : NameResolution.start .release (seeds ["a", "b"] (by simp) (by simp)) twoSlots ⟨0⟩
    .accepted = .ok _ := rfl
  refine ⟨_, hs, (release_capacity_accounted hs _ ?_ ?_).1, rfl, rfl⟩
  · intro e he
    rcases mem_cons.1 he with rfl | he
    · exact List.Subperm.refl _
    · rw [mem_singleton.1 he]
      trivial
  · intro e he
    rcases mem_cons.1 he with rfl | he
    · exact ⟨by nofun, fun _ => ⟨rfl, rfl, by nofun⟩, trivial⟩
    · rw [mem_singleton.1 he]
      trivial

end KafkaDriver
