import KafkaDriver.NameResolution

/-!
# The books of name resolution

The ownership table has one entry for every live permit and every request that is waiting,
with the worker, or collected and not yet dispatched (`NameResolution.Accounted`). Each
function of `NameResolution` is shown to keep these books, with the permits it holds in its
hand and the outcomes it has still to dispatch as parameters. The exception is `cancel`,
which keeps the entry of its permit in a release build; `Continues` and `Proceeds` say when
a `drive` does without it.
-/

namespace KafkaDriver

open List OrdMap

/-- The epoch and effect by which an outcome answers a request. -/
def DnsRequest.key (q : DnsRequest) : ConnectionEpoch × EffectId := (q.epoch, q.effectId)

def DnsOutcome.key (o : DnsOutcome) : ConnectionEpoch × EffectId := (o.epoch, o.effectId)

namespace NameResolution

/-! ## The books -/

/-- Requests waiting or with the worker. -/
def outstanding (n : NameResolution) : List (ConnectionEpoch × EffectId) :=
  n.pending.requests.map (·.request.key) ++ n.resolver.inFlight.map DnsRequest.key

/-- The table has one entry for each of the `live` permits, of the outstanding requests and of
the outcomes in `hand`. -/
structure Accounted (n : NameResolution) (live : List EffectId)
    (hand : List (ConnectionEpoch × EffectId)) : Prop where
  owned : n.ownership.owners.keys.Perm (live ++ (n.outstanding ++ hand).map Prod.snd)
  reserved : n.pending.reserved = live.length
  capacity : n.pending.capacity = n.ownership.capacity.get
  within : n.ownership.owners.size ≤ n.ownership.capacity.get
  fresh : ∀ raw, n.effectIds.next = some raw → ∀ id ∈ n.ownership.owners.keys, id.raw < raw

/-- The only request a table entry of the bootstrap stands for is the one its machine waits
for, and no retry is scheduled. -/
structure Tracked (n : NameResolution) (hand : List (ConnectionEpoch × EffectId)) : Prop where
  ready : n.bootstrap.retryDeadline = none
  newer : ∀ e raw, n.bootstrap.machine.state.currentEpoch = some e →
    n.bootstrap.nextEpoch = some raw → e < ⟨raw⟩
  awaited : ∀ id, n.ownership.owners.get id = some .bootstrap → n.bootstrapInFlight = true ∧
    ∃ epoch endpoint remaining,
      n.bootstrap.machine.state = .resolving epoch id endpoint remaining ∧
      (epoch, id) ∈ n.outstanding ++ hand

variable {n : NameResolution} {live : List EffectId} {hand : List (ConnectionEpoch × EffectId)}

theorem Accounted.nodup (h : n.Accounted live hand) :
    (live ++ (n.outstanding ++ hand).map Prod.snd).Nodup :=
  h.owned.nodup_iff.1 n.ownership.owners.nodup_keys

theorem Accounted.size_eq (h : n.Accounted live hand) :
    n.ownership.owners.size = live.length + n.pending.requests.length +
      n.resolver.inFlight.length + hand.length := by
  rw [size_eq_length_keys, h.owned.length_eq]
  simp only [outstanding, length_append, length_map]
  omega

variable {key : ConnectionEpoch × EffectId} {raw : ℕ} {request : DnsRequest}

/-- An outcome in hand for an entry of the bootstrap answers the request its machine waits for. -/
theorem Tracked.key_eq (t : n.Tracked hand) (h : n.Accounted live hand)
    (mem : key ∈ n.outstanding ++ hand) (o : n.ownership.owners.get key.2 = some .bootstrap) :
    ∃ ep left, n.bootstrap.machine.state = .resolving key.1 key.2 ep left := by
  obtain ⟨-, e, ep, left, st, ha⟩ := t.awaited _ o
  have hd := inj_on_of_nodup_map h.nodup.of_append_right mem ha rfl
  exact ⟨ep, left, by rw [st, hd]⟩

/-! ## Reserving -/

/-- Whether the pending queue, the identities and the table have room for one more permit. -/
def Reservable (n : NameResolution) : Prop :=
  n.pending.requests.length + n.pending.reserved < n.pending.capacity ∧
    n.effectIds.next ≠ none ∧ n.ownership.owners.size < n.ownership.capacity.get

instance (n : NameResolution) : Decidable n.Reservable := inferInstanceAs (Decidable (_ ∧ _ ∧ _))

/-- The state after the effect `raw` was reserved for `owner`. -/
def reserving (n : NameResolution) (raw : ℕ) (owner : ResolutionOwner) : NameResolution :=
  { n with
    effectIds := ⟨checkedSucc raw⟩
    pending := { n.pending with reserved := n.pending.reserved + 1 }
    ownership := { n.ownership with owners := n.ownership.owners.insert ⟨raw⟩ owner } }

theorem releaseReservation_succ (p : PendingResolutions) :
    ({ p with reserved := p.reserved + 1 } : PendingResolutions).releaseReservation = p := by
  simp [PendingResolutions.releaseReservation]

/-- A reservation is taken in full, or only an identity may be used up. -/
theorem tryReserve_cases (h : n.Accounted live hand) (o : ResolutionOwner) :
    (∃ raw, n.Reservable ∧ n.effectIds.next = some raw ∧
      n.tryReserve o = (n.reserving raw o, .ok (some ⟨⟨raw⟩, o⟩))) ∨
    ∃ effectIds ans, ¬ n.Reservable ∧ n.tryReserve o = ({ n with effectIds }, ans) ∧
      (ans = .ok none ∨ ∃ err, ans = .error err) ∧
      (effectIds = n.effectIds ∨
        ∃ raw, n.effectIds.next = some raw ∧ effectIds = ⟨checkedSucc raw⟩) := by
  have hb : n.pending.capacity ≤ u64Max := h.capacity ▸ n.ownership.capacity.le
  unfold tryReserve PendingResolutions.tryReserve
  by_cases slot : n.pending.capacity ≤ min (n.pending.requests.length + n.pending.reserved) u64Max
  · have full : ¬ n.Reservable := fun hr => by have := hr.1; omega
    rw [if_pos slot]
    exact .inr ⟨n.effectIds, _, full, rfl, by simp, .inl rfl⟩
  have hr : n.pending.requests.length + n.pending.reserved < n.pending.capacity := by omega
  rw [if_neg slot]
  dsimp only
  unfold ResolverEffectIds.reserve
  cases next : n.effectIds.next with
  | none =>
    refine .inr ⟨n.effectIds, .error .identityExhausted, fun hr => hr.2.1 next, ?_,
      by simp, .inl rfl⟩
    simp only [releaseReservation_succ]
  | some raw =>
    have hf : n.ownership.owners.get ⟨raw⟩ = none :=
      get_eq_none.2 fun mem => (h.fresh raw next _ mem).false
    dsimp only
    unfold ResolverOwnership.register
    rw [hf, if_neg (by simp)]
    by_cases table : n.ownership.owners.size = n.ownership.capacity.get
    · rw [if_pos table]
      refine .inr ⟨_, .ok none, fun hr => hr.2.2.ne table, ?_, by simp, .inr ⟨raw, rfl, rfl⟩⟩
      simp only [releaseReservation_succ]
    · rw [if_neg table]
      exact .inl ⟨raw, ⟨hr, by simp [next], lt_of_le_of_ne h.within table⟩, rfl, rfl⟩

theorem tryReserve_exhausted
    (slot : n.pending.requests.length + n.pending.reserved < n.pending.capacity)
    (next : n.effectIds.next = none) (o : ResolutionOwner) :
    (n.tryReserve o).2 = .error .identityExhausted := by
  have hf : ¬ n.pending.capacity ≤
      min (n.pending.requests.length + n.pending.reserved) u64Max := by omega
  simp [tryReserve, PendingResolutions.tryReserve, hf, ResolverEffectIds.reserve, next]

theorem Accounted.reserving (h : n.Accounted live hand) (hr : n.Reservable)
    (next : n.effectIds.next = some raw) (o : ResolutionOwner) :
    (n.reserving raw o).Accounted (⟨raw⟩ :: live) hand := by
  have hf : n.ownership.owners.get ⟨raw⟩ = none :=
    get_eq_none.2 fun mem => (h.fresh raw next _ mem).false
  have keys := keys_insert_perm o hf
  refine ⟨keys.trans (h.owned.cons _), by simp [NameResolution.reserving, h.reserved], h.capacity,
    ?_, ?_⟩
  · have := hr.2.2
    simp only [NameResolution.reserving, size_insert o hf]
    omega
  · intro upcoming hlater id hid
    obtain ⟨-, rfl⟩ := checkedSucc_eq_some.1 hlater
    rcases mem_cons.1 (keys.mem_iff.1 hid) with rfl | old
    · exact Nat.lt_succ_self _
    · exact (h.fresh raw next id old).trans (Nat.lt_succ_self _)

/-- The entry of a caller's permit is none of the bootstrap. -/
theorem Tracked.reserving (t : n.Tracked hand) {o : ResolutionOwner}
    (hc : o ≠ .bootstrap) : (n.reserving raw o).Tracked hand := by
  refine ⟨t.ready, t.newer, fun id ho => ?_⟩
  have ho : (n.ownership.owners.insert ⟨raw⟩ o).get id = some .bootstrap := ho
  rw [get_insert] at ho
  split_ifs at ho
  · exact absurd (Option.some.inj ho) hc
  · exact t.awaited id ho

theorem Accounted.permute (h : n.Accounted live hand) {live' : List EffectId}
    (perm : live.Perm live') : n.Accounted live' hand :=
  ⟨h.owned.trans (perm.append_right _), h.reserved.trans perm.length_eq, h.capacity, h.within,
    h.fresh⟩

/-- An identity may be used up without being given out. -/
theorem Accounted.skip (h : n.Accounted live hand) {effectIds : ResolverEffectIds}
    (hu : effectIds = n.effectIds ∨
      ∃ raw, n.effectIds.next = some raw ∧ effectIds = ⟨checkedSucc raw⟩) :
    ({ n with effectIds } : NameResolution).Accounted live hand := by
  refine ⟨h.owned, h.reserved, h.capacity, h.within, fun upcoming hlater id hid => ?_⟩
  rcases hu with rfl | ⟨raw, next, rfl⟩
  · exact h.fresh upcoming hlater id hid
  · obtain ⟨-, rfl⟩ := checkedSucc_eq_some.1 hlater
    exact (h.fresh raw next id hid).trans (Nat.lt_succ_self _)

/-! ## Submitting -/

/-- What `submit` does with a request of the permit's own effect : the request becomes
outstanding, or the worker is gone and the entry is removed. -/
structure Submitted (n n' : NameResolution) (request : DnsRequest) (done : Bool) : Prop where
  bootstrap : n'.bootstrap = n.bootstrap
  inFlight : n'.bootstrapInFlight = n.bootstrapInFlight
  effectIds : n'.effectIds = n.effectIds
  slots : n'.pending.capacity = n.pending.capacity
  table : n'.ownership.capacity = n.ownership.capacity
  reserved : n'.pending.reserved = wrappingPred n.pending.reserved
  owners : n'.ownership.owners =
    if done then n.ownership.owners else n.ownership.owners.erase request.effectId
  outstanding : n'.outstanding.Perm (if done then request.key :: n.outstanding else n.outstanding)

theorem submit_cases (b : Build) (n : NameResolution) {permit : ResolutionPermit}
    (verdict : Verdict) (hs : permit.effectId = request.effectId) :
    (∃ n', n.submit b permit request verdict = (n', .ok ()) ∧ n.Submitted n' request true) ∨
    ∃ n' err, n.submit b permit request verdict = (n', .error err) ∧
      verdict = .closed ∧ n.Submitted n' request false := by
  unfold submit
  rw [if_neg (not_not.2 hs)]
  cases verdict with
  | accepted =>
    refine .inl ⟨_, rfl, rfl, rfl, rfl, rfl, rfl, rfl, rfl, ?_⟩
    simp only [NameResolution.outstanding, PendingResolutions.releaseReservation, map_append,
      map_cons, map_nil, if_true, ← append_assoc]
    exact perm_append_singleton _ _
  | full =>
    refine .inl ⟨_, rfl, rfl, rfl, rfl, rfl, rfl, rfl, rfl, ?_⟩
    simp only [NameResolution.outstanding, PendingResolutions.retainReserved, map_append,
      map_cons, map_nil, if_true, append_assoc]
    exact perm_middle
  | closed =>
    exact .inr ⟨_, _, rfl, rfl, rfl, rfl, rfl, rfl, rfl, rfl, by rw [hs]; rfl, .refl _⟩

theorem Submitted.accounted {n' : NameResolution} {done : Bool} (s : n.Submitted n' request done)
    (h : n.Accounted (request.effectId :: live) hand) : n'.Accounted live hand := by
  have res : n'.pending.reserved = live.length := by
    rw [s.reserved, h.reserved, length_cons, wrappingPred_succ]
  have cap : n'.pending.capacity = n'.ownership.capacity.get := by
    rw [s.slots, s.table, h.capacity]
  cases done with
  | true =>
    refine ⟨?_, res, cap, by rw [s.owners, s.table]; exact h.within, ?_⟩
    · have hm : ((n'.outstanding ++ hand).map Prod.snd).Perm
          (request.effectId :: (n.outstanding ++ hand).map Prod.snd) :=
        (s.outstanding.append_right hand).map Prod.snd
      rw [s.owners]
      exact h.owned.trans (perm_middle.symm.trans (hm.symm.append_left live))
    · intro raw next
      rw [s.effectIds] at next
      rw [s.owners]
      exact h.fresh raw next
  | false =>
    have mem : request.effectId ∈ n.ownership.owners.keys :=
      h.owned.mem_iff.2 (by simp)
    have he := keys_erase_perm mem
    refine ⟨?_, res, cap, ?_, ?_⟩
    · rw [s.owners]
      have rest := (he.symm.trans h.owned).cons_inv
      exact rest.trans (((s.outstanding.append_right hand).map Prod.snd).symm.append_left live)
    · have := size_erase mem
      have := h.within
      rw [s.owners, s.table]
      simp only [Bool.false_eq_true, if_false]
      omega
    · intro raw next id hid
      rw [s.effectIds] at next
      rw [s.owners] at hid
      exact h.fresh raw next id (he.mem_iff.2 (mem_cons_of_mem _ hid))

/-- A submission of a caller's request leaves the bootstrap's request awaited. -/
theorem Submitted.tracked {n' : NameResolution} {done : Bool} (s : n.Submitted n' request done)
    (t : n.Tracked hand) : n'.Tracked hand := by
  refine ⟨by rw [s.bootstrap]; exact t.ready, by rw [s.bootstrap]; exact t.newer, fun id o => ?_⟩
  have hk : n.ownership.owners.get id = some .bootstrap := by
    rw [s.owners] at o
    cases done with
    | true => exact o
    | false =>
      simp only [Bool.false_eq_true, if_false, get_erase] at o
      split_ifs at o
      exact o
  obtain ⟨hi, e, ep, left, st, mem⟩ := t.awaited id hk
  refine ⟨by rw [s.inFlight, hi], e, ep, left, by rw [s.bootstrap, st], ?_⟩
  refine (s.outstanding.append_right hand).mem_iff.2 ?_
  cases done with
  | true => exact mem_cons_of_mem _ mem
  | false => exact mem

/-! ## Requests of the bootstrap -/

/-- Reserving for the bootstrap and submitting the request its machine then waits for. -/
theorem submitBootstrap_keeps (build : Build) (h : n.Accounted live hand) (room : n.Reservable)
    (next : n.effectIds.next = some raw) (hi : ∀ id, n.ownership.owners.get id ≠ some .bootstrap)
    {b : BootstrapOwner} (entropy : JitterEntropy) (verdict : Verdict) {left : ℕ}
    (hr : b.retryDeadline = none)
    (hn : ∀ later, b.nextEpoch = some later → request.epoch < ⟨later⟩)
    (own : request.effectId = ⟨raw⟩)
    (st : b.machine.state = .resolving request.epoch ⟨raw⟩ request.endpoint left) :
    ∃ n' ans, ({ n.reserving raw .bootstrap with entropy, bootstrap := b }).submitBootstrap build
        ⟨⟨raw⟩, .bootstrap⟩ request verdict = (n', ans) ∧
      n'.Accounted live hand ∧ n'.Tracked hand ∧ n'.bootstrap = b ∧
      (∀ err, ans = .error err → verdict = .closed) := by
  have res := h.reserving room next .bootstrap
  have hg : ({ n.reserving raw .bootstrap with entropy, bootstrap := b }).Accounted
      (request.effectId :: live) hand := by
    rw [own]
    exact ⟨res.owned, res.reserved, res.capacity, res.within, res.fresh⟩
  have new : ∀ e later, b.machine.state.currentEpoch = some e →
      b.nextEpoch = some later → e < ⟨later⟩ := by
    intro e later cur
    rw [st] at cur
    obtain rfl : request.epoch = e := Option.some.inj cur
    exact hn later
  have hs : (⟨⟨raw⟩, .bootstrap⟩ : ResolutionPermit).effectId = request.effectId := own.symm
  unfold submitBootstrap
  rcases submit_cases build _ verdict hs with
    ⟨n', submitted, s⟩ | ⟨n', err, submitted, closed, s⟩
  · rw [submitted]
    have hk := s.accounted hg
    refine ⟨_, _, rfl, ⟨hk.owned, hk.reserved, hk.capacity, hk.within, hk.fresh⟩,
      ⟨s.bootstrap ▸ hr, s.bootstrap ▸ new, fun id o => ?_⟩, s.bootstrap, by simp⟩
    -- the entry just made is the only one of the bootstrap
    have os : n'.ownership.owners = n.ownership.owners.insert ⟨raw⟩ .bootstrap := s.owners
    change n'.ownership.owners.get id = _ at o
    rw [os, get_insert] at o
    split_ifs at o with hs
    · refine ⟨rfl, request.epoch, request.endpoint, left, ?_, ?_⟩
      · rw [hs, ← st]
        exact congrArg (·.machine.state) s.bootstrap
      · refine (s.outstanding.append_right hand).mem_iff.2 ?_
        rw [hs, ← own]
        exact mem_cons_self
    · exact absurd o (hi id)
  · rw [submitted]
    refine ⟨n', _, rfl, s.accounted hg,
      ⟨s.bootstrap ▸ hr, s.bootstrap ▸ new, fun id o => ?_⟩, s.bootstrap,
      fun _ _ => closed⟩
    have os : n'.ownership.owners =
      (n.ownership.owners.insert ⟨raw⟩ .bootstrap).erase request.effectId := s.owners
    rw [os, get_erase, get_insert, own] at o
    split_ifs at o
    exact absurd o (hi id)

/-! ## Dispatching outcomes -/

theorem Accounted.take (h : n.Accounted live (key :: hand)) :
    ({ n with ownership := (n.ownership.remove key.2).1 }).Accounted live hand ∧
      (n.ownership.owners.erase key.2).size < n.ownership.capacity.get := by
  have ho : n.ownership.owners.keys.Perm
      (key.2 :: (live ++ (n.outstanding ++ hand).map Prod.snd)) := by
    refine h.owned.trans ?_
    simp only [map_append, map_cons, ← append_assoc]
    exact perm_middle
  have mem : key.2 ∈ n.ownership.owners.keys := ho.mem_iff.2 mem_cons_self
  have he := keys_erase_perm mem
  have hs : (n.ownership.owners.erase key.2).size < n.ownership.capacity.get := by
    have := size_erase mem
    have := h.within
    omega
  refine ⟨⟨(he.symm.trans ho).cons_inv, h.reserved, h.capacity, hs.le, ?_⟩, hs⟩
  intro raw next id hid
  exact h.fresh raw next id (he.mem_iff.2 (mem_cons_of_mem _ hid))

theorem Tracked.take (t : n.Tracked (key :: hand)) :
    ({ n with ownership := (n.ownership.remove key.2).1 }).Tracked hand := by
  refine ⟨t.ready, t.newer, fun id o => ?_⟩
  have o : (n.ownership.owners.erase key.2).get id = some .bootstrap := o
  rw [get_erase] at o
  split_ifs at o with hs
  obtain ⟨hi, e, ep, left, st, mem⟩ := t.awaited id o
  refine ⟨hi, e, ep, left, st, ?_⟩
  rcases mem_append.1 mem with mem | mem
  · exact mem_append_left _ mem
  · rcases mem_cons.1 mem with rfl | mem
    · exact absurd rfl hs
    · exact mem_append_right _ mem

end NameResolution

def DnsOutcome.failed (o : DnsOutcome) : Bool :=
  match o.result with
  | .ok _ => false
  | .error _ => true

/-- Whether the running pass has an endpoint left to try. -/
def BootstrapMachine.moreEndpoints (m : BootstrapMachine) : Bool :=
  match m.state with
  | .resolving _ _ _ remaining => decide (0 < remaining)
  | _ => false

namespace NameResolution

variable {n : NameResolution} {live : List EffectId} {hand : List (ConnectionEpoch × EffectId)}

/-- An outcome of the bootstrap is followed by a request for another endpoint, or is the last
of its batch if that request cannot be made. -/
def Continues (n : NameResolution) (offered : EffectId → Verdict) (outcome : DnsOutcome)
    (later : List DnsOutcome) : Prop :=
  match n.effectIds.next with
  | none => later = []
  | some raw =>
    outcome.failed = true ∧ n.bootstrap.machine.moreEndpoints = true ∧
      (offered ⟨raw⟩ = .closed → later = [])

/-- Every outcome of the bootstrap in a batch continues its pass. -/
def AllContinue (n : NameResolution) (offered : EffectId → Verdict) : List DnsOutcome → Prop
  | [] => True
  | outcome :: later =>
    (n.ownership.owners.get outcome.effectId = some .bootstrap →
      n.Continues offered outcome later) ∧ n.AllContinue offered later

variable {offered : EffectId → Verdict} {later : List DnsOutcome}

/-- The condition reads the identities, the bootstrap and its table entries. -/
theorem AllContinue.mono {n' : NameResolution} {batch : List DnsOutcome}
    (h : n.AllContinue offered batch) (fxs : n'.effectIds = n.effectIds)
    (hb : n'.bootstrap = n.bootstrap)
    (os : ∀ id, n'.ownership.owners.get id = some .bootstrap →
      n.ownership.owners.get id = some .bootstrap) : n'.AllContinue offered batch := by
  induction batch with
  | nil => trivial
  | cons out outcomes ih =>
    refine ⟨fun o => ?_, ih h.2⟩
    unfold Continues
    rw [fxs, hb]
    exact h.1 (os _ o)

theorem allContinue_of_none :
    ∀ {batch : List DnsOutcome},
      (∀ o ∈ batch, n.ownership.owners.get o.effectId ≠ some .bootstrap) →
      n.AllContinue offered batch
  | [], _ => trivial
  | outcome :: _, h =>
    ⟨fun owner => absurd owner (h outcome mem_cons_self),
      allContinue_of_none fun o mem => h o (mem_cons_of_mem _ mem)⟩

/-- What one round of the loop leaves behind. -/
structure Settled (n : NameResolution) (turn : DriveTurn) (live : List EffectId)
    (later : List DnsOutcome) (answer : Except NameResolutionError Unit) : Prop where
  accounted : n.Accounted live (later.map DnsOutcome.key)
  tracked : n.Tracked (later.map DnsOutcome.key)
  continues : n.AllContinue turn.offered later
  failed : ∀ error, answer = .error error → later = []

variable (offered) (build : Build) (turn : DriveTurn)

/-- The bootstrap's own round, its entry being removed and no other of it left. -/
theorem completeBootstrap_settled (d : Dispatch) {out : DnsOutcome} {ep : BrokerEndpoint}
    {remaining : ℕ} (h : n.Accounted live (later.map DnsOutcome.key))
    (t : n.Tracked (later.map DnsOutcome.key))
    (room : n.ownership.owners.size < n.ownership.capacity.get)
    (hi : ∀ id, n.ownership.owners.get id ≠ some .bootstrap) (st : n.bootstrap.machine.state =
      .resolving out.epoch out.effectId ep remaining)
    (hc : n.Continues turn.offered out later) :
    (n.completeBootstrap build turn d out).1.1.Settled turn live later
      (n.completeBootstrap build turn d out).2 := by
  unfold completeBootstrap
  set m := n.recordBootstrap out
  have books : m.Accounted live (later.map DnsOutcome.key) :=
    ⟨h.owned, h.reserved, h.capacity, h.within, h.fresh⟩
  have slot : m.pending.requests.length + m.pending.reserved < m.pending.capacity := by
    have size := books.size_eq
    have : m.ownership.owners.size < m.ownership.capacity.get := room
    rw [books.reserved, books.capacity]
    omega
  unfold Continues at hc
  rcases tryReserve_cases books .bootstrap with
    ⟨raw, reservable, next, reserved⟩ | ⟨effectIds, ans, full, reserved, refused, used⟩
  · have hn' : n.effectIds.next = some raw := next
    rw [hn'] at hc
    obtain ⟨hf, more, hcl⟩ := hc
    obtain ⟨err, res⟩ : ∃ err, out.result = .error err := by
      cases res : out.result with
      | ok _ => simp [DnsOutcome.failed, res] at hf
      | error err => exact ⟨err, rfl⟩
    obtain ⟨left, rfl⟩ : ∃ left, remaining = left + 1 := by
      rw [BootstrapMachine.moreEndpoints, st] at more
      exact Nat.exists_eq_succ_of_ne_zero (of_decide_eq_true more).ne'
    obtain ⟨b, req, hco, e, own, hre, e', retry⟩ :=
      BootstrapOwner.complete_resolves ⟨raw⟩ turn.now m.entropy.nextSample.2 st res
    have hn : ∀ new, b.nextEpoch = some new → req.epoch < ⟨new⟩ := by
      intro new hnewest
      rw [e]
      exact t.newer _ new (by rw [st]; rfl) (e' ▸ hnewest)
    have hr : b.retryDeadline = none := by
      rw [BootstrapOwner.retryDeadline, retry]
      exact t.ready
    obtain ⟨n', ans, hsu, acc, ht, hs, hf⟩ :=
      submitBootstrap_keeps build books reservable next hi m.entropy.nextSample.1
        (turn.offered req.effectId) hr hn own (e ▸ hre)
    have act : (m.reserving raw .bootstrap).actBootstrap build turn d out
        ⟨⟨raw⟩, .bootstrap⟩ = ((n', d), ans) := by
      unfold actBootstrap
      rw [show (m.reserving raw .bootstrap).bootstrap.complete out ⟨raw⟩ turn.now
        (m.reserving raw .bootstrap).entropy.nextSample.2 = _ from hco]
      dsimp only
      exact congrArg (fun s => ((s.1, d), s.2)) hsu
    rw [reserved]
    dsimp only
    rw [act]
    refine ⟨acc, ht, allContinue_of_none fun o mem owner => ?_, fun error herror => ?_⟩
    · -- the new identity is above every identity of the batch
      obtain ⟨-, epoch', endpoint', _, st', -⟩ := ht.awaited _ owner
      rw [hs, hre] at st'
      have raw_eq : (⟨raw⟩ : EffectId) = o.effectId := by injection st'
      have old : o.effectId ∈ n.ownership.owners.keys := by
        refine h.owned.mem_iff.2 (mem_append_right _ ?_)
        rw [map_append]
        refine mem_append_right _ (mem_map.2 ⟨o.key, ?_, rfl⟩)
        exact mem_map_of_mem mem
      have hb := h.fresh raw hn' _ old
      rw [← raw_eq] at hb
      exact hb.false
    · exact hcl (own ▸ hf error herror)
  · have he : n.effectIds.next = none := by
      by_contra hne
      exact full ⟨slot, hne, room⟩
    rw [he] at hc
    subst hc
    have hu : effectIds = m.effectIds := by
      rcases used with hs | ⟨raw, next, -⟩
      · exact hs
      · rw [show m.effectIds.next = none from he] at next
        cases next
    subst hu
    have ht : m.Tracked (([] : List DnsOutcome).map DnsOutcome.key) :=
      ⟨t.ready, t.newer, fun id owner => absurd owner (hi id)⟩
    rw [reserved]
    rcases refused with rfl | ⟨error, rfl⟩ <;> exact ⟨books, ht, trivial, fun _ _ => rfl⟩

/-- One round of the loop. -/
theorem settle_settled (d : Dispatch) {out : DnsOutcome}
    (h : n.Accounted live ((out :: later).map DnsOutcome.key))
    (t : n.Tracked ((out :: later).map DnsOutcome.key))
    (hc : n.AllContinue turn.offered (out :: later)) :
    (n.settle build turn d out).1.1.Settled turn live later (n.settle build turn d out).2 := by
  rw [map_cons] at h t
  obtain ⟨ht, hsm⟩ := h.take
  have rest : ∀ answer : Except NameResolutionError Unit, (∀ err, answer ≠ .error err) →
      ({ n with ownership := (n.ownership.remove out.effectId).1 }).Settled turn live later
        answer := fun answer ok =>
    ⟨ht, t.take, hc.2.mono rfl rfl fun _ => of_get_erase, fun err herror => absurd herror (ok err)⟩
  unfold settle ResolverOwnership.remove
  dsimp only
  cases owner : n.ownership.owners.get out.effectId with
  | none => exact rest _ (by simp)
  | some holder =>
    cases holder with
    | broker lane | direct owner => exact rest _ (by simp)
    | bootstrap =>
      have mem : out.key ∈ n.outstanding ++ out.key :: later.map DnsOutcome.key := by simp
      obtain ⟨ep, left, st⟩ := t.key_eq h mem owner
      refine completeBootstrap_settled build turn d ht t.take hsm (fun id ne => ?_) st (hc.1 owner)
      -- the machine waits for one request only
      have ne : (n.ownership.owners.erase out.effectId).get id = some .bootstrap := ne
      rw [get_erase] at ne
      split_ifs at ne with hs
      obtain ⟨-, epoch', endpoint', _, st', -⟩ := t.awaited id ne
      rw [st] at st'
      injection st' with _ he
      exact hs he.symm

/-- The whole loop, by induction over the batch. -/
theorem settleAll_settled :
    ∀ (batch : List DnsOutcome) (n : NameResolution) (d : Dispatch),
      n.Accounted live (batch.map DnsOutcome.key) → n.Tracked (batch.map DnsOutcome.key) →
      n.AllContinue turn.offered batch →
      (n.settleAll build turn d batch).1.1.Accounted live [] ∧
        (n.settleAll build turn d batch).1.1.Tracked []
  | [], _, _, h, t, _ => ⟨h, t⟩
  | outcome :: later, n, d, h, t, hc => by
    have hs := settle_settled build turn d h t hc
    unfold settleAll
    revert hs
    rcases n.settle build turn d outcome with ⟨⟨n', d'⟩, ans⟩
    intro hs
    cases ans with
    | ok _ =>
      exact settleAll_settled later n' d' hs.accounted hs.tracked hs.continues
    | error err =>
      obtain rfl := hs.failed err rfl
      exact ⟨hs.accounted, hs.tracked⟩

/-! ## Collecting and retrying -/

/-- Collected outcomes answer distinct requests of the worker. -/
def Answers (outcomes : List DnsOutcome) (requests : List DnsRequest) : Prop :=
  (outcomes.map DnsOutcome.key).Subperm (requests.map DnsRequest.key)

theorem drained_perm {requests : List DnsRequest} {drained : List DnsOutcome}
    (ans : Answers drained requests) (hdi : (requests.map (·.effectId)).Nodup) :
    (requests.map DnsRequest.key).Perm
      ((requests.filter fun q => decide (q.effectId ∉ drained.map (·.effectId))).map DnsRequest.key
        ++ drained.map DnsOutcome.key) := by
  have hn : (requests.map DnsRequest.key).Nodup := by
    refine List.Nodup.of_map Prod.snd ?_
    rwa [map_map]
  refine (perm_ext_iff_of_nodup hn (nodup_append.2 ⟨?_, ?_, ?_⟩)).2 fun key => ?_
  · exact hn.sublist (filter_sublist.map _)
  · obtain ⟨part, perm, sub⟩ := ans
    exact perm.nodup_iff.1 (hn.sublist sub)
  · intro a ha b hb hab
    obtain ⟨q, hq, rfl⟩ := mem_map.1 ha
    obtain ⟨o, ho, rfl⟩ := mem_map.1 hb
    have hg := of_decide_eq_true (mem_filter.1 hq).2
    exact hg (mem_map.2 ⟨o, ho, (congrArg Prod.snd hab).symm⟩)
  · rw [mem_append]
    constructor
    · intro mem
      obtain ⟨q, hq, rfl⟩ := mem_map.1 mem
      by_cases drawn : q.effectId ∈ drained.map (·.effectId)
      · obtain ⟨o, ho, hs⟩ := mem_map.1 drawn
        obtain ⟨q', hq', key⟩ := mem_map.1 (ans.subset (mem_map_of_mem ho))
        have he : q' = q := by
          refine inj_on_of_nodup_map hdi hq' hq ?_
          exact (congrArg Prod.snd key).trans hs
        rw [← he, key]
        exact .inr (mem_map_of_mem ho)
      · exact .inl (mem_map_of_mem (mem_filter.2 ⟨hq, decide_eq_true drawn⟩))
    · rintro (mem | mem)
      · obtain ⟨q, hq, rfl⟩ := mem_map.1 mem
        exact mem_map_of_mem (mem_of_mem_filter hq)
      · exact ans.subset mem

/-- The retry loop hands waiting requests to the worker. -/
theorem retryLoop_moves :
    ∀ (fuel adm : ℕ) (p : PendingResolutions) (r : Resolver) {p' : PendingResolutions}
      {r' : Resolver} {ans : Except ResolverSubmitError ℕ},
      PendingResolutions.retryLoop offered adm fuel p r = ((p', r'), ans) →
      p'.capacity = p.capacity ∧ p'.reserved = p.reserved ∧
        (p'.requests.map (·.request.key) ++ r'.inFlight.map DnsRequest.key).Perm
          (p.requests.map (·.request.key) ++ r.inFlight.map DnsRequest.key)
  | 0, adm, p, r, p', r', ans, h => by
    cases h
    exact ⟨rfl, rfl, .refl _⟩
  | fuel + 1, adm, p, r, p', r', ans, h => by
    unfold PendingResolutions.retryLoop at h
    cases requests : p.requests with
    | nil =>
      rw [requests] at h
      cases h
      exact ⟨rfl, rfl, by rw [requests]⟩
    | cons first rest =>
      rw [requests] at h
      dsimp only at h
      cases verdict : offered first.request.effectId with
      | accepted =>
        rw [verdict] at h
        obtain ⟨cap, res, hm⟩ := retryLoop_moves fuel _ _ _ h
        refine ⟨cap, res, hm.trans ?_⟩
        simp only [map_append, map_cons, map_nil, ← append_assoc]
        exact perm_append_singleton _ _
      | full | closed =>
        rw [verdict] at h
        cases h
        exact ⟨rfl, rfl, .refl _⟩

theorem retryPending_keeps (h : n.Accounted live []) (t : n.Tracked []) :
    (n.retryPending offered).1.Accounted live [] ∧ (n.retryPending offered).1.Tracked [] := by
  have hm : ∀ p r, p.capacity = n.pending.capacity → p.reserved = n.pending.reserved →
      (p.requests.map (·.request.key) ++ r.inFlight.map DnsRequest.key).Perm n.outstanding →
      ({ n with pending := p, resolver := r }).Accounted live [] ∧
        ({ n with pending := p, resolver := r }).Tracked [] := by
    intro p r cap res perm
    refine ⟨⟨h.owned.trans ?_, res.trans h.reserved, cap.trans h.capacity, h.within,
      h.fresh⟩, t.ready, t.newer, fun id o => ?_⟩
    · exact (((perm.append_right []).map Prod.snd).symm).append_left live
    · obtain ⟨hi, e, ep, left, st, mem⟩ := t.awaited id o
      exact ⟨hi, e, ep, left, st, (perm.append_right []).mem_iff.2 mem⟩
  unfold retryPending PendingResolutions.retry
  rcases loop : PendingResolutions.retryLoop offered 0 n.pending.retryBudget n.pending n.resolver
    with ⟨⟨p, r⟩, ans⟩
  obtain ⟨cap, res, perm⟩ := retryLoop_moves offered _ _ _ _ loop
  cases ans with
  | ok _ | error _ => exact hm p r cap res perm

/-- With no retry scheduled, `drive` restarts nothing. -/
theorem restartExhaustedBootstrap_idle (b : Build) (hr : n.bootstrap.retryDeadline = none)
    (now : Moment) (offered : EffectId → Verdict) :
    n.restartExhaustedBootstrap b now offered = (n, .ok false) := by
  simp [restartExhaustedBootstrap, retryDue, hr]

/-! ## Turns and restarts -/

/-- A turn collects nothing in front of a lost channel, and continues the bootstrap pass. -/
def Proceeds (n : NameResolution) (turn : DriveTurn) : Prop :=
  (turn.lost = true → turn.available.length < n.resolver.outcomeBudget → turn.available = []) ∧
    n.AllContinue turn.offered (turn.available.take n.resolver.outcomeBudget)

theorem drive_keeps (h : n.Accounted live []) (t : n.Tracked []) {turn : DriveTurn}
    (answers : Answers turn.available
      (n.restartExhaustedBootstrap build turn.now turn.offered).1.resolver.inFlight)
    (proceeds : n.Proceeds turn) :
    (n.drive build turn).1.1.Accounted live [] ∧ (n.drive build turn).1.1.Tracked [] := by
  rw [restartExhaustedBootstrap_idle build t.ready] at answers
  unfold drive
  rw [restartExhaustedBootstrap_idle build t.ready]
  set drained := turn.available.take n.resolver.outcomeBudget with hdrained
  set r : Resolver := { n.resolver with
    inFlight := n.resolver.inFlight.filter fun q =>
      decide (q.effectId ∉ drained.map (·.effectId)) } with hr
  have distinct : (n.resolver.inFlight.map (·.effectId)).Nodup := by
    have tail := h.nodup.of_append_right
    rw [append_nil, outstanding, map_append, map_map, map_map] at tail
    exact tail.of_append_right
  have part : Answers drained n.resolver.inFlight :=
    (((take_sublist _ _).map _).subperm).trans answers
  have perm : n.outstanding.Perm
      (({ n with resolver := r }).outstanding ++ drained.map DnsOutcome.key) := by
    rw [outstanding, outstanding, append_assoc]
    exact (drained_perm part distinct).append_left _
  have books : ({ n with resolver := r }).Accounted live (drained.map DnsOutcome.key) := by
    refine ⟨h.owned.trans ?_, h.reserved, h.capacity, h.within, h.fresh⟩
    rw [append_nil]
    exact (perm.map Prod.snd).append_left live
  have tracked : ({ n with resolver := r }).Tracked (drained.map DnsOutcome.key) := by
    refine ⟨t.ready, t.newer, fun id owner => ?_⟩
    obtain ⟨inFlight, epoch, ep, remaining, state, mem⟩ := t.awaited id owner
    rw [append_nil] at mem
    exact ⟨inFlight, epoch, ep, remaining, state, perm.mem_iff.1 mem⟩
  have continues : ({ n with resolver := r }).AllContinue turn.offered drained :=
    proceeds.2.mono rfl rfl fun _ owner => owner
  dsimp only [Resolver.drainInto]
  rw [← hdrained, ← hr]
  by_cases lost : turn.lost = true ∧ turn.available.length < n.resolver.outcomeBudget
  · rw [if_pos lost]
    have nothing : drained = [] := by rw [hdrained, proceeds.1 lost.1 lost.2, take_nil]
    rw [nothing] at books tracked
    exact ⟨books, tracked⟩
  rw [if_neg lost]
  dsimp only
  have loop := settleAll_settled build turn drained _ .nothing books tracked continues
  revert loop
  rcases settleAll build turn { n with resolver := r } .nothing drained with ⟨⟨n', d⟩, answer⟩
  rintro ⟨accounted, followed⟩
  cases answer with
  | error error => exact ⟨accounted, followed⟩
  | ok _ =>
    have retried := retryPending_keeps turn.retried accounted followed
    dsimp only
    revert retried
    rcases n'.retryPending turn.retried with ⟨n'', answer⟩
    intro retried
    cases answer <;> exact retried

theorem restartBootstrap_keeps (h : n.Accounted live []) (t : n.Tracked [])
    (he : n.bootstrapInFlight = false → n.Reservable → n.bootstrap.nextEpoch ≠ none) :
    (n.restartBootstrap build offered).1.Accounted live [] ∧
      (n.restartBootstrap build offered).1.Tracked [] := by
  unfold restartBootstrap
  cases inFlight : n.bootstrapInFlight with
  | true => exact ⟨h, t⟩
  | false =>
    have hi : ∀ id, n.ownership.owners.get id ≠ some .bootstrap := by
      intro id owner
      rw [(t.awaited id owner).1] at inFlight
      cases inFlight
    simp only [Bool.false_eq_true, if_false]
    rcases tryReserve_cases h .bootstrap with
      ⟨raw, reservable, next, reserved⟩ | ⟨effectIds, ans, -, reserved, refused, used⟩
    · obtain ⟨epoch, e'⟩ := Option.ne_none_iff_exists'.1 (he inFlight reservable)
      obtain ⟨b, request, restarted, hepoch, own, resolving, later, retry⟩ :=
        BootstrapOwner.restart_resolves ⟨raw⟩ e' fun e cur => t.newer e _ cur e'
      have hn : ∀ new, b.nextEpoch = some new → request.epoch < ⟨new⟩ := by
        intro new hnewest
        rw [later] at hnewest
        obtain ⟨-, rfl⟩ := checkedSucc_eq_some.1 hnewest
        rw [hepoch]
        exact Nat.lt_succ_self _
      have hr : b.retryDeadline = none := by
        rw [BootstrapOwner.retryDeadline, retry]
        exact t.ready
      obtain ⟨n', ans, hs, accounted, ht, -, -⟩ :=
        submitBootstrap_keeps build h reservable next hi n.entropy (offered request.effectId)
          hr hn own (hepoch ▸ resolving)
      have hr' : (n.reserving raw .bootstrap).bootstrap.restart ⟨raw⟩ = (b, .ok request) :=
        restarted
      have hs' : ({ n.reserving raw .bootstrap with bootstrap := b }).submitBootstrap build
          ⟨⟨raw⟩, .bootstrap⟩ request (offered request.effectId) = (n', ans) := hs
      rw [reserved]
      simp only [hr', hs']
      cases ans <;> exact ⟨accounted, ht⟩
    · have hk : ({ n with effectIds }).Accounted live [] ∧ ({ n with effectIds }).Tracked [] :=
        ⟨h.skip used, t.ready, t.newer, t.awaited⟩
      rw [reserved]
      rcases refused with rfl | ⟨error, rfl⟩ <;> exact hk

/-- The first bootstrap request opens the books. -/
theorem start_keeps {build : Build} {eps : BootstrapSet} {lim : ResolverLimits}
    {entropy : JitterEntropy} {verdict : Verdict}
    (hst : start build eps lim entropy verdict = .ok n) :
    n.Accounted [] [] ∧ n.Tracked [] := by
  obtain ⟨b, req, first, epoch, own, st, e', hr⟩ :=
    BootstrapOwner.start_resolves eps ⟨1⟩
  -- the empty table, out of which the first reservation is taken
  let m : NameResolution :=
    { resolver := ⟨lim.outcomeBudget.get, []⟩
      bootstrap := b, bootstrapInFlight := false, entropy
      effectIds := .new, ownership := .new lim.pendingCapacity, pending := .new lim
      lastBootstrapDnsFailure := none }
  have books : m.Accounted [] [] :=
    ⟨.refl _, rfl, rfl, Nat.zero_le _, fun _ _ id mem => absurd mem not_mem_nil⟩
  have room : m.Reservable :=
    ⟨lim.pendingCapacity.pos, by simp [m, ResolverEffectIds.new], lim.pendingCapacity.pos⟩
  have hn : ∀ next, b.nextEpoch = some next → req.epoch < ⟨next⟩ := by
    intro next hlater
    rw [e'] at hlater
    obtain rfl : 2 = next := Option.some.inj hlater
    rw [epoch]
    exact ConnectionEpoch.lt_def.2 (by decide)
  have hi : ∀ id, m.ownership.owners.get id ≠ some .bootstrap := fun id => by
    simp [m, ResolverOwnership.new]
  obtain ⟨n', ans, hsu, acc, ht, -, -⟩ :=
    submitBootstrap_keeps build books room rfl hi entropy verdict hr hn own
      (epoch ▸ st)
  have slot : (PendingResolutions.new lim).tryReserve =
      ((m.reserving 1 .bootstrap).pending, true) := by
    have := lim.pendingCapacity.pos
    exact if_neg (show ¬ lim.pendingCapacity.get ≤ min 0 u64Max by omega)
  have hta : (ResolverOwnership.new lim.pendingCapacity).register ⟨1⟩ .bootstrap =
      ((m.reserving 1 .bootstrap).ownership, .ok ()) := by
    have hf : ¬ ((ResolverOwnership.new lim.pendingCapacity).owners.get ⟨1⟩).isSome = true := by
      simp [ResolverOwnership.new]
    exact (if_neg hf).trans (if_neg lim.pendingCapacity.pos.ne)
  have hs' : (m.reserving 1 .bootstrap).submitBootstrap build ⟨⟨1⟩, .bootstrap⟩ req
      verdict = (n', ans) := hsu
  have hb : start build eps lim entropy verdict = ans.map fun _ => n' := by
    unfold start
    rw [slot]
    dsimp only [ResolverEffectIds.reserve, ResolverEffectIds.new]
    rw [hta]
    dsimp only
    rw [first]
    dsimp only
    split <;> rename_i hs <;> cases hs'.symm.trans hs <;> rfl
  rw [hb] at hst
  cases ans with
  | error err => cases hst
  | ok _ =>
    cases hst
    exact ⟨acc, ht⟩

end NameResolution

end KafkaDriver
