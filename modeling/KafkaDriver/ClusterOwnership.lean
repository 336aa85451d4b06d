import KafkaDriver.ClusterRun

/-!
# Ownership of physical lanes

Three structures speak of the lanes of a runtime : the index of the dense list, the owners
families have reserved with their active marks, and the seed slot. `Ownership` says that
they agree. `Succession` says what a change leaves : a family keeps its owners or has owners
that were never handed out before, and a lane that stays is further on in its broker machine.

Under `Owned` the checks of `familyLaneState` never fail, and whether a lane of a broker
serves an endpoint can be read off the families alone (`Owned.currentPhysicalOwner_eq`).
-/

namespace KafkaDriver

open Fallible List OrdMap Prod SlotTable

/-! ## Identities -/

namespace BorneraIdentityAllocator

/-- The owner was handed out before. -/
def Issued (ids : BorneraIdentityAllocator) (owner : DirectRefreshOwner) : Prop :=
  ∀ next, ids.nextLane = some next → owner.lane < next

/-- The owner is still to be handed out. -/
def Fresh (ids : BorneraIdentityAllocator) (owner : DirectRefreshOwner) : Prop :=
  ∃ next, ids.nextLane = some next ∧ next ≤ owner.lane

variable {ids : BorneraIdentityAllocator}

theorem Fresh.ne {a b : DirectRefreshOwner} (hf : ids.Fresh a) (hi : ids.Issued b) : a ≠ b := by
  rintro rfl
  obtain ⟨next, eq, le⟩ := hf
  exact absurd (hi next eq) (not_lt.2 le)

/-- What a reservation hands out : fresh owners, all different, that count as issued from
then on. -/
structure Reserved (ids ids' : BorneraIdentityAllocator) (count : ℕ)
    (owners : ℕ → DirectRefreshOwner) : Prop where
  fresh : ∀ k, ids.Fresh (owners k)
  issued : ∀ k < count, ids'.Issued (owners k)
  kept : ∀ owner, ids.Issued owner → ids'.Issued owner
  injective : Function.Injective owners

theorem reserveEndpointLanes_ok {ids' : BorneraIdentityAllocator} {n : ℕ}
    {owners : ℕ → DirectRefreshOwner}
    (res : ids.reserveEndpointLanes n = .ok (ids', owners)) :
    Reserved ids ids' n owners := by
  unfold reserveEndpointLanes at res
  split at res
  · cases res
  · cases res
  rename_i ep lane _ eq
  split_ifs at res with hsp hr
  · obtain ⟨rfl, rfl⟩ := Prod.mk.inj (Except.ok.inj res)
    refine ⟨fun k => ⟨lane, eq, Nat.le_add_right _ _⟩, ?_, ?_, ?_⟩
    · rintro k lt next ⟨⟩
      exact Nat.add_lt_add_left lt lane
    · rintro owner hi next ⟨⟩
      exact (hi lane eq).trans_le (Nat.le_add_right lane n)
    · intro a b hs
      simpa using hs
  · obtain ⟨rfl, rfl⟩ := Prod.mk.inj (Except.ok.inj res)
    refine ⟨fun k => ⟨lane, eq, Nat.le_add_right _ _⟩, ?_, ?_, ?_⟩
    · intro k lt next hs
      cases hs
    · intro owner hi next hs
      cases hs
    · intro a b hs
      simpa using hs

end BorneraIdentityAllocator

/-! ## The invariant -/

/-- Index, families and seed agree on the lanes. -/
structure Ownership (lanes : List DirectLane) (slots : OrdMap DirectRefreshOwner ℕ)
    (families : OrdMap BrokerId BrokerFamily) (identities : BorneraIdentityAllocator)
    (seed : Option SeedSlot) : Prop where
  exact : SlotTable.Exact DirectLane.owner lanes slots
  slotIssued : ∀ owner i, slots.get owner = some i → identities.Issued owner
  familyIssued : ∀ b f t, families.get b = some f → identities.Issued (f.owners t)
  active : ∀ b f t, families.get b = some f →
    (f.active t = true ↔ (slots.get (f.owners t)).isSome)
  disjoint : ∀ b b' f f' t t', families.get b = some f → families.get b' = some f' →
    f.owners t = f'.owners t' → b = b' ∧ t = t'
  seedIssued : ∀ s, seed = some s → identities.Issued s.owner
  seedApart : ∀ s b f t, seed = some s → families.get b = some f → f.owners t ≠ s.owner

namespace Ownership

variable {lanes lanes' : List DirectLane} {slots slots' : OrdMap DirectRefreshOwner ℕ}
  {families families' : OrdMap BrokerId BrokerFamily} {ids ids' : BorneraIdentityAllocator}
  {seed : Option SeedSlot} {owner : DirectRefreshOwner} {b : BrokerId} {f : BrokerFamily}

theorem get_slot_of_fresh (h : Ownership lanes slots families ids seed) (hf : ids.Fresh owner) :
    slots.get owner = none := by
  cases held : slots.get owner with
  | none => rfl
  | some i => exact absurd rfl (hf.ne (h.slotIssued owner i held))

theorem owners_ne_of_fresh (h : Ownership lanes slots families ids seed)
    (hf : families.get b = some f) (t : TrafficClass) (hfr : ids.Fresh owner) :
    f.owners t ≠ owner := (hfr.ne (h.familyIssued b f t hf)).symm

/-- Families that keep their owners stay apart from each other and from the seed, whatever
becomes of the lanes. -/
theorem retain (h : Ownership lanes slots families ids seed)
    (exact : SlotTable.Exact DirectLane.owner lanes' slots')
    (hsl : ∀ owner i, slots'.get owner = some i → ids'.Issued owner)
    (hi : ∀ owner, ids.Issued owner → ids'.Issued owner)
    (hk : ∀ b f', families'.get b = some f' → ∃ f, families.get b = some f ∧ f'.owners = f.owners)
    (act : ∀ b f' t, families'.get b = some f' →
      (f'.active t = true ↔ (slots'.get (f'.owners t)).isSome)) :
    Ownership lanes' slots' families' ids' seed where
  exact := exact
  slotIssued := hsl
  familyIssued := by
    intro b f' t hf
    obtain ⟨f, ho, hs⟩ := hk b f' hf
    rw [hs]
    exact hi _ (h.familyIssued b f t ho)
  active := act
  disjoint := by
    intro b b' f f' t t' hf hf' hs
    obtain ⟨g, ho, os⟩ := hk b f hf
    obtain ⟨g', origin', owners'⟩ := hk b' f' hf'
    rw [os, owners'] at hs
    exact h.disjoint b b' g g' t t' ho origin' hs
  seedIssued := fun s hp => hi _ (h.seedIssued s hp)
  seedApart := by
    intro s b f' t hp hf
    obtain ⟨f, ho, hs⟩ := hk b f' hf
    rw [hs]
    exact h.seedApart s b f t hp ho

theorem reserve (h : Ownership lanes slots families ids seed)
    (hi : ∀ owner, ids.Issued owner → ids'.Issued owner) :
    Ownership lanes slots families ids' seed :=
  h.retain h.exact (fun owner i hg => hi _ (h.slotIssued owner i hg)) hi
    (fun _ f hf => ⟨f, hf, rfl⟩) h.active

theorem evolve (h : Ownership lanes slots families ids seed) {i : ℕ} {g : DirectLane → DirectLane}
    (hs : ∀ l, lanes[i]? = some l → (g l).owner = l.owner) :
    Ownership (lanes.modify i g) slots families ids seed :=
  h.retain (h.exact.modify hs) h.slotIssued (fun _ hi => hi) (fun _ f hf => ⟨f, hf, rfl⟩) h.active

theorem retire (h : Ownership lanes slots families ids seed) :
    Ownership lanes slots (families.adjust b fun f => { f with retiring := true }) ids seed := by
  have hk : ∀ c f', (families.adjust b fun f => { f with retiring := true }).get c = some f' →
      ∃ f, families.get c = some f ∧ f'.owners = f.owners ∧ f'.active = f.active := by
    intro c f' hf
    rw [get_adjust] at hf
    split_ifs at hf
    · obtain ⟨f, ho, rfl⟩ := Option.map_eq_some_iff.1 hf
      exact ⟨f, ho, rfl, rfl⟩
    · exact ⟨f', hf, rfl, rfl⟩
  refine h.retain h.exact h.slotIssued (fun _ hi => hi) ?_ ?_
  · intro c f' hf
    obtain ⟨f, ho, os, -⟩ := hk c f' hf
    exact ⟨f, ho, os⟩
  · intro c f' t hf
    obtain ⟨f, ho, os, act⟩ := hk c f' hf
    rw [os, act]
    exact h.active c f t ho

/-- A reserved class gets its lane. -/
theorem activate (h : Ownership lanes slots families ids seed) (hf : families.get b = some f)
    {t : TrafficClass} {l : DirectLane} (hd : slots.get (f.owners t) = none)
    (how : l.owner = f.owners t) :
    Ownership (lanes ++ [l]) (slots.insert l.owner lanes.length)
      (families.adjust b (·.markActive t)) ids seed := by
  have hfr : slots.get l.owner = none := how ▸ hd
  have hk : ∀ c f', (families.adjust b (·.markActive t)).get c = some f' →
      ∃ f, families.get c = some f ∧ f'.owners = f.owners ∧
        f'.active = if c = b then Function.update f.active t true else f.active := by
    intro c f' hg
    rw [get_adjust] at hg
    split_ifs at hg with hs
    · obtain ⟨g, ho, rfl⟩ := Option.map_eq_some_iff.1 hg
      exact ⟨g, ho, rfl, by simp [hs, BrokerFamily.markActive]⟩
    · exact ⟨f', hg, rfl, by simp [hs]⟩
  refine h.retain (h.exact.push hfr) ?_ (fun _ hi => hi) ?_ ?_
  · intro o i hg
    rw [get_insert] at hg
    split_ifs at hg with hs
    · rw [hs, how]
      exact h.familyIssued b f t hf
    · exact h.slotIssued o i hg
  · intro c f' hg
    obtain ⟨g, ho, os, -⟩ := hk c f' hg
    exact ⟨g, ho, os⟩
  · intro c f' u hg
    obtain ⟨g, ho, os, act⟩ := hk c f' hg
    rw [SlotTable.Exact.get_push, act, os, ← h.active c g u ho, how]
    have hp : g.owners u = f.owners t ↔ c = b ∧ u = t := by
      refine ⟨h.disjoint c b g f u t ho hf, ?_⟩
      rintro ⟨rfl, rfl⟩
      rw [Option.some.inj (ho.symm.trans hf)]
    rw [hp]
    by_cases broker : c = b
    · by_cases traffic : u = t
      · simp [broker, traffic]
      · simp [broker, traffic]
    · simp [broker]

variable {owners : ℕ → DirectRefreshOwner}

/-- A new family joins with the lanes of some of its classes. -/
theorem publish (h : Ownership lanes slots families ids seed)
    (res : ids.Reserved ids' 4 owners) {classes : List TrafficClass} (hn : classes.Nodup)
    {joined : List DirectLane}
    (ho : joined.map DirectLane.owner = classes.map (ClusterRuntime.familyOwners owners))
    (familyOwners : f.owners = ClusterRuntime.familyOwners owners)
    (hm : ∀ t, f.active t = true ↔ t ∈ classes) :
    Ownership (pushAll DirectLane.owner lanes slots joined).1
      (pushAll DirectLane.owner lanes slots joined).2 (families.insert b f) ids' seed := by
  have hi : Function.Injective (ClusterRuntime.familyOwners owners) :=
    res.injective.comp TrafficClass.stableOrder_injective
  have hfr : ∀ t, ids.Fresh (ClusterRuntime.familyOwners owners t) := fun t => res.fresh _
  have his : ∀ t, ids'.Issued (ClusterRuntime.familyOwners owners t) := fun t =>
    res.issued _ t.stableOrder_lt
  have hjo : ∀ owner, owner ∈ joined.map DirectLane.owner ↔
      ∃ t ∈ classes, ClusterRuntime.familyOwners owners t = owner := by
    intro owner
    rw [ho, mem_map]
  have free : ∀ l ∈ joined, slots.get l.owner = none := by
    intro l mem
    obtain ⟨t, -, hs⟩ := (hjo l.owner).1 (mem_map_of_mem mem)
    exact hs ▸ h.get_slot_of_fresh (hfr t)
  have hg : ∀ owner i, (pushAll DirectLane.owner lanes slots joined).2.get owner =
      some i → (∃ t ∈ classes, ClusterRuntime.familyOwners owners t = owner) ∨
        (slots.get owner).isSome := by
    intro owner i slot
    rw [← hjo owner, ← SlotTable.Exact.get_pushAll joined lanes slots, slot]
    rfl
  constructor
  · exact h.exact.pushAll joined (ho ▸ hn.map hi) free
  · intro owner i slot
    rcases hg owner i slot with ⟨t, -, rfl⟩ | pre
    · exact his t
    · obtain ⟨j, pre⟩ := Option.isSome_iff_exists.1 pre
      exact res.kept _ (h.slotIssued owner j pre)
  · intro c g t hf
    rw [get_insert] at hf
    split_ifs at hf
    · cases hf
      exact familyOwners ▸ his t
    · exact res.kept _ (h.familyIssued c g t hf)
  · intro c g t hf
    rw [SlotTable.Exact.get_pushAll, hjo]
    rw [get_insert] at hf
    split_ifs at hf
    · cases hf
      rw [hm, familyOwners, h.get_slot_of_fresh (hfr t)]
      simp [hi.eq_iff]
    · rw [h.active c g t hf]
      refine ⟨Or.inr, Or.rec ?_ id⟩
      rintro ⟨u, -, hs⟩
      exact absurd hs.symm (h.owners_ne_of_fresh hf t (hfr u))
  · intro c c' g g' t t' hf hf' hs
    rw [get_insert] at hf hf'
    split_ifs at hf hf' with here here' here'
    · cases hf
      cases hf'
      rw [familyOwners] at hs
      exact ⟨here.trans here'.symm, hi hs⟩
    · cases hf
      rw [familyOwners] at hs
      exact absurd hs.symm (h.owners_ne_of_fresh hf' t' (hfr t))
    · cases hf'
      rw [familyOwners] at hs
      exact absurd hs (h.owners_ne_of_fresh hf t (hfr t'))
    · exact h.disjoint c c' g g' t t' hf hf' hs
  · exact fun s hp => res.kept _ (h.seedIssued s hp)
  · intro s c g t hp hf
    rw [get_insert] at hf
    split_ifs at hf
    · cases hf
      rw [familyOwners]
      exact (hfr t).ne (h.seedIssued s hp)
    · exact h.seedApart s c g t hp hf

/-- The seed gets a lane of a fresh owner. -/
theorem seat (h : Ownership lanes slots families ids seed) (res : ids.Reserved ids' 1 owners)
    {gen : ConnectionEpoch} (exact : SlotTable.Exact DirectLane.owner lanes' slots')
    (hs : ∀ owner, owner ≠ owners 0 → (∀ s, seed = some s → owner ≠ s.owner) →
      slots'.get owner = slots.get owner)
    (hv : ∀ owner i, slots'.get owner = some i → owner = owners 0 ∨ (slots.get owner).isSome) :
    Ownership lanes' slots' families ids' (some ⟨owners 0, gen⟩) := by
  have hfr := res.fresh 0
  constructor
  · exact exact
  · intro owner i hg
    rcases hv owner i hg with rfl | pre
    · exact res.issued 0 Nat.one_pos
    · obtain ⟨j, pre⟩ := Option.isSome_iff_exists.1 pre
      exact res.kept _ (h.slotIssued owner j pre)
  · exact fun b f t hf => res.kept _ (h.familyIssued b f t hf)
  · intro b f t hf
    rw [h.active b f t hf, hs (f.owners t) (h.owners_ne_of_fresh hf t hfr)
      fun s hp => h.seedApart s b f t hp hf]
  · exact h.disjoint
  · rintro s ⟨⟩
    exact res.issued 0 Nat.one_pos
  · rintro s b f t ⟨⟩ hf
    exact h.owners_ne_of_fresh hf t hfr

/-- A family leaves with its lanes. -/
theorem remove (h : Ownership lanes slots families ids seed) (hf : families.get b = some f)
    (exact : SlotTable.Exact DirectLane.owner lanes' slots')
    (gone : ∀ owner, (slots'.get owner).isSome ↔
      (slots.get owner).isSome ∧ ∀ t, owner ≠ f.owners t) :
    Ownership lanes' slots' (families.erase b) ids seed := by
  refine h.retain exact ?_ (fun _ hi => hi) ?_ ?_
  · intro owner i hg
    obtain ⟨j, pre⟩ := Option.isSome_iff_exists.1 ((gone owner).1 (by simp [hg])).1
    exact h.slotIssued owner j pre
  · intro c f' hg
    exact ⟨f', of_get_erase hg, rfl⟩
  · intro c f' t hg
    have ho := of_get_erase hg
    have ha : c ≠ b := by
      rintro rfl
      simp at hg
    rw [gone, ← h.active c f' t ho]
    refine ⟨fun act => ⟨act, fun u hs => ?_⟩, And.left⟩
    exact ha (h.disjoint c b f' f t u ho hf hs).1

end Ownership

/-- The lane has moved on with its owner. -/
def DirectLane.Evolves (l l' : DirectLane) : Prop :=
  ∀ epoch, l'.lifecycle.state.MayFail epoch → l.lifecycle.state.MayFail epoch

theorem DirectLane.Evolves.refl (l : DirectLane) : l.Evolves l := fun _ h => h

theorem DirectLane.evolves_evolve (l : DirectLane) (ch : LaneChange) :
    l.Evolves (l.evolve ch) := fun _ may => BrokerMachine.mayFail_of_applyAll may

/-- What one change leaves of the lanes : a family keeps its owners and its active marks or
has owners handed out by the change, and a lane that stays has moved on. -/
structure Succession (lanes : List DirectLane) (slots : OrdMap DirectRefreshOwner ℕ)
    (families : OrdMap BrokerId BrokerFamily) (ids : BorneraIdentityAllocator)
    (lanes' : List DirectLane) (slots' : OrdMap DirectRefreshOwner ℕ)
    (families' : OrdMap BrokerId BrokerFamily) (ids' : BorneraIdentityAllocator) : Prop where
  issued : ∀ owner, ids.Issued owner → ids'.Issued owner
  family : ∀ b f', families'.get b = some f' →
    (∃ f, families.get b = some f ∧ f'.owners = f.owners ∧
      ∀ t, f.active t = true → f'.active t = true) ∨
    (families.get b = none ∧ ∀ t, ids.Fresh (f'.owners t))
  lane : ∀ owner l l', find lanes slots owner = some l →
    find lanes' slots' owner = some l' → l.Evolves l'

namespace ClusterRuntime

/-- The lane of an owner. -/
def laneOf (r : ClusterRuntime) (owner : DirectRefreshOwner) : Option DirectLane :=
  find r.lanes r.slots owner

def Owned (r : ClusterRuntime) : Prop :=
  Ownership r.lanes r.slots r.families r.identities r.seed

theorem new_owned (driver : DriverLimits) : (new driver).Owned where
  exact := .nil
  slotIssued := by
    intro o i hg
    cases hg
  familyIssued := by
    intro b f t hf
    cases hf
  active := by
    intro b f t hf
    cases hf
  disjoint := by
    intro b b' f f' t t' hf
    cases hf
  seedIssued := by
    intro s hf
    cases hf
  seedApart := by
    intro s b f t hf
    cases hf

variable {r r' r'' : ClusterRuntime}

/-! ### Reading the families -/

theorem Owned.positions_eq (h : r.Owned) (o : DirectRefreshOwner) :
    r.positions o = (r.slots.get o).toList := by
  rw [← h.exact.positions_eq]
  unfold positions
  congr! 4

variable {b : BrokerId} {f : BrokerFamily} {traffic : TrafficClass} {owner : DirectRefreshOwner}
  {endpoint : BrokerEndpoint} {removals : List (ℕ × DirectRefreshOwner)}

theorem Owned.familyLaneState_eq (h : r.Owned) (hf : r.families.get b = some f)
    (traffic : TrafficClass) :
    r.familyLaneState f traffic = .ok (match r.slots.get (f.owners traffic) with
      | some k => .active (f.owners traffic) k
      | none => .dormant) := by
  have hm := h.active b f traffic hf
  unfold familyLaneState
  dsimp only
  rw [h.positions_eq]
  cases held : r.slots.get (f.owners traffic) with
  | none =>
    have hi : f.active traffic = false := by simpa [held] using hm
    simp [hi]
  | some k =>
    have act : f.active traffic = true := by simpa [held] using hm
    simp [act]

/-- The lane `owner` of the broker's current family serves the endpoint. -/
def ServedBy (r : ClusterRuntime) (lane : BrokerLane) (endpoint : BrokerEndpoint)
    (owner : DirectRefreshOwner) : Prop :=
  ∃ f, r.families.get lane.brokerId = some f ∧ f.retiring = false ∧ f.endpoint = endpoint ∧
    f.active lane.trafficClass = true ∧ f.owners lane.trafficClass = owner

theorem familyLaneState_active {fam : BrokerFamily} {k : ℕ}
    (act : r.familyLaneState fam traffic = .ok (.active owner k)) :
    fam.active traffic = true ∧ fam.owners traffic = owner := by
  unfold familyLaneState at act
  dsimp only at act
  split at act
  · rename_i hm _ _
    split_ifs at act
    cases act
    exact ⟨hm, rfl⟩
  · cases act
  · cases act

theorem familyLaneState_dormant {fam : BrokerFamily}
    (hd : r.familyLaneState fam traffic = .ok .dormant) :
    r.slots.get (fam.owners traffic) = none := by
  unfold familyLaneState at hd
  dsimp only at hd
  split at hd
  · split_ifs at hd
    cases hd
  · rename_i hg _
    exact hg
  · cases hd

theorem servedBy_of_currentPhysicalOwner {l : BrokerLane}
    (cur : r.currentPhysicalOwner l endpoint = .ok (some owner)) :
    r.ServedBy l endpoint owner := by
  unfold currentPhysicalOwner at cur
  split at cur
  · cases cur
  rename_i fam hf
  split_ifs at cur with hs
  · cases cur
  have fits : fam.retiring = false ∧ fam.endpoint = endpoint := by simpa using hs
  split at cur
  · rename_i act
    cases cur
    exact ⟨fam, hf, fits.1, fits.2, familyLaneState_active act⟩
  · cases cur
  · cases cur

/-- What a runtime answers for the lane of an endpoint, read off the families. -/
theorem Owned.currentPhysicalOwner_eq (h : r.Owned) {l : BrokerLane} :
    r.currentPhysicalOwner l endpoint = .ok (some owner) ↔ r.ServedBy l endpoint owner := by
  refine ⟨servedBy_of_currentPhysicalOwner, ?_⟩
  rintro ⟨fam, hf, live, tgt, act, rfl⟩
  have hl := (h.active _ fam l.trafficClass hf).1 act
  obtain ⟨k, hg⟩ := Option.isSome_iff_exists.1 hl
  unfold currentPhysicalOwner
  simp only [hf, live, tgt, h.familyLaneState_eq hf, hg]
  simp

/-! ### Removing a family -/

theorem Owned.familyRemovals_eq (h : r.Owned) (hf : r.families.get b = some f) :
    r.familyRemovals b = .ok (TrafficClass.all.filterMap fun traffic =>
      (r.slots.get (f.owners traffic)).map fun k => (k, f.owners traffic)) := by
  unfold familyRemovals
  rw [hf]
  dsimp only
  generalize TrafficClass.all = classes
  induction classes with
  | nil => rfl
  | cons traffic classes ih =>
    rw [foldrM_cons, ih, filterMap_cons]
    simp only [Except.bind, bind, h.familyLaneState_eq hf]
    cases r.slots.get (f.owners traffic) <;> rfl

section

variable (r removals)

theorem removeLanes_eq :
    r.removeLanes removals =
      { r with
        lanes := (swapOutAll DirectLane.owner r.lanes r.slots
          (removals.insertionSort fun a b => b.1 ≤ a.1)).1
        slots := (swapOutAll DirectLane.owner r.lanes r.slots
          (removals.insertionSort fun a b => b.1 ≤ a.1)).2 } := by
  unfold removeLanes
  generalize removals.insertionSort (fun a b => b.1 ≤ a.1) = order
  induction order generalizing r with
  | nil => rfl
  | cons e order ih => exact ih (r.removeAt e.2 e.1)

@[simp]
theorem removeLanes_families :
    (r.removeLanes removals).families = r.families := by rw [removeLanes_eq]

@[simp]
theorem removeLanes_identities :
    (r.removeLanes removals).identities = r.identities := by rw [removeLanes_eq]

@[simp]
theorem removeLanes_seed : (r.removeLanes removals).seed = r.seed := by rw [removeLanes_eq]

@[simp]
theorem removeLanes_directory :
    (r.removeLanes removals).directory = r.directory := by rw [removeLanes_eq]

@[simp]
theorem removeLanes_routes : (r.removeLanes removals).routes = r.routes := by rw [removeLanes_eq]

@[simp]
theorem removeLanes_clusterDraining :
    (r.removeLanes removals).clusterDraining = r.clusterDraining := by rw [removeLanes_eq]

@[simp]
theorem removeLanes_causality :
    (r.removeLanes removals).causality = r.causality := by rw [removeLanes_eq]

end

/-- The active lanes of a family are those of its owners that are live, each at its own
position. -/
theorem Owned.mem_familyRemovals (h : r.Owned) (hf : r.families.get b = some f)
    (hl : r.familyRemovals b = .ok removals) (e : ℕ × DirectRefreshOwner) :
    e ∈ removals ↔ r.slots.get e.2 = some e.1 ∧ ∃ t, f.owners t = e.2 := by
  rw [h.familyRemovals_eq hf] at hl
  obtain rfl := Except.ok.inj hl
  obtain ⟨i, owner⟩ := e
  rw [mem_filterMap]
  constructor
  · rintro ⟨t, -, hs⟩
    obtain ⟨j, hg, eq⟩ := Option.map_eq_some_iff.1 hs
    cases eq
    exact ⟨hg, t, rfl⟩
  · rintro ⟨hg, t, rfl⟩
    exact ⟨t, t.mem_all, by simp [hg]⟩

theorem Owned.nodup_familyRemovals (h : r.Owned) (hf : r.families.get b = some f)
    (hl : r.familyRemovals b = .ok removals) : (removals.map Prod.fst).Nodup := by
  have members := fun e => h.mem_familyRemovals hf hl e
  rw [h.familyRemovals_eq hf] at hl
  obtain rfl := Except.ok.inj hl
  refine List.Nodup.map_on ?_ ?_
  · rintro ⟨i, o⟩ left ⟨j, o'⟩ right hs
    cases hs
    have owner : o = o' := h.exact.injective ((members _).1 left).1 ((members _).1 right).1
    rw [owner]
  · refine List.Nodup.filterMap ?_ (by decide)
    intro t u e left right
    obtain ⟨i, -, rfl⟩ := Option.map_eq_some_iff.1 left
    obtain ⟨j, -, hs⟩ := Option.map_eq_some_iff.1 right
    exact (h.disjoint b b f f t u hf hf (Prod.mk.inj hs).2.symm).2

theorem Owned.removeLanes (h : r.Owned) (hf : r.families.get b = some f)
    (hl : r.familyRemovals b = .ok removals) :
    Ownership (r.removeLanes removals).lanes (r.removeLanes removals).slots (r.families.erase b)
        r.identities r.seed ∧
      ∀ owner l, (r.removeLanes removals).laneOf owner = some l → r.laneOf owner = some l := by
  have members := fun e => h.mem_familyRemovals hf hl e
  have hdi := h.nodup_familyRemovals hf hl
  rw [removeLanes_eq]
  set order := removals.insertionSort fun a b => b.1 ≤ a.1 with sorted
  have perm : order.Perm removals := perm_insertionSort _ _
  have hd : order.Pairwise fun a b => b.1 < a.1 := by
    have hw : order.Pairwise fun a b => b.1 ≤ a.1 := pairwise_insertionSort _ _
    have ha : order.Pairwise fun a b => a.1 ≠ b.1 :=
      pairwise_map.1 ((perm.map fst).nodup_iff.2 hdi)
    exact (hw.and ha).imp fun pair => lt_of_le_of_ne pair.1 pair.2.symm
  have hg : ∀ e ∈ order, r.slots.get e.2 = some e.1 := fun e mem =>
    ((members e).1 (perm.mem_iff.1 mem)).1
  obtain ⟨exact, reads⟩ := h.exact.swapOutAll order hd hg
  have out : ∀ owner, owner ∈ order.map snd ↔
      (r.slots.get owner).isSome ∧ ∃ t, f.owners t = owner := by
    intro owner
    rw [(perm.map snd).mem_iff, mem_map]
    constructor
    · rintro ⟨e, mem, rfl⟩
      obtain ⟨slot, res⟩ := (members e).1 mem
      exact ⟨by simp [slot], res⟩
    · rintro ⟨live, res⟩
      obtain ⟨i, slot⟩ := Option.isSome_iff_exists.1 live
      exact ⟨(i, owner), (members _).2 ⟨slot, res⟩, rfl⟩
  constructor
  · refine Ownership.remove h hf exact fun owner => ?_
    have hr := reads owner
    rw [Option.isSome_iff_ne_none, Ne, ← exact.find_eq_none, hr, Option.isSome_iff_ne_none, Ne,
      ← h.exact.find_eq_none]
    by_cases gone : owner ∈ order.map snd
    · obtain ⟨-, t, hs⟩ := (out owner).1 gone
      simp only [gone, if_true, not_true, false_iff, not_and, not_forall]
      exact fun _ => ⟨t, not_not.2 hs.symm⟩
    · rw [if_neg gone]
      refine ⟨fun live => ⟨live, fun t hs => gone ((out owner).2 ⟨?_, t, hs.symm⟩)⟩, And.left⟩
      rwa [Option.isSome_iff_ne_none, Ne, ← h.exact.find_eq_none]
  · intro owner l hr
    change find _ _ owner = some l at hr
    rw [reads] at hr
    split_ifs at hr
    exact hr

end ClusterRuntime

end KafkaDriver
