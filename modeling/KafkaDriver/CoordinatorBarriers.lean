import KafkaDriver.CoordinatorAsks

/-!
# Barriers of the coordinator owner

The caller of an invalidation is answered at once or joins the barrier of its entry. The barrier
is kept beside the machine, and is settled after the operations that may end what it waits for.
It is live because of what machine and owner keep together (`Steady`) : the machine has a
revocation for the route of the barrier, so that a discovery is active, and a discovery in flight
has its call pending. A barrier keeps no stamps; the revocation is at or after the report of each
caller, so that a route it accepts is newer than all of them.

Inside an operation one entry is at work (`At`). Its machine has moved, and its barrier may be
due to be settled (`Unsettled`).
-/

namespace KafkaDriver

open Fallible Runs List CoordinatorMachine

/-! ## Reports and barriers -/

/-- The report of a failure, with the completion of its caller. -/
structure CoordinatorReport where
  completion : ℕ
  route : CoordinatorRoute
  observedAt : OutcomeStamp
  deriving DecidableEq

/-- The report a call hands in. -/
def CoordinatorCall.report : CoordinatorCall → Option CoordinatorReport
  | .invalidate route observedAt completion _ _ => some ⟨completion, route, observedAt⟩
  | _ => none

/-- The completion of an invalidation. -/
def CoordinatorFate.completion : CoordinatorFate → Option ℕ
  | .invalidated completion _ => some completion
  | _ => none

namespace CoordinatorInvalidation

variable (reports : List CoordinatorReport)

/-- The reports of all callers of a barrier were observed no later than `t`. -/
def Covered (i : CoordinatorInvalidation) (t : OutcomeStamp) : Prop :=
  ∀ completion ∈ i.subscribers, ∃ report ∈ reports, report.completion = completion ∧
    i.target.isSameTarget report.route = true ∧ report.observedAt ≤ t

/-- The machine waits for evidence later than the reports of the barrier. -/
def Awaited (i : CoordinatorInvalidation) (m : CoordinatorMachine) : Prop :=
  ∃ r, m.revocation = some r ∧ r.matchesRoute i.target = true ∧ i.Covered reports r.requiredAfter

/-- The machine waits no more : the route is unknown, or was found with later evidence. -/
def Released (steps : List CoordinatorEvent) (i : CoordinatorInvalidation)
    (m : CoordinatorMachine) : Prop :=
  m.revocation = none ∧ ((∃ epoch, m.state = .unknown epoch) ∨
    ∃ step ∈ steps, ∃ route t, CoordinatorMachine.Installs step route ∧
      route.key = i.target.key ∧ route.evidence.isAfter t = true ∧ i.Covered reports t)

variable {reports : List CoordinatorReport} {i : CoordinatorInvalidation} {m : CoordinatorMachine}
  {t t' : OutcomeStamp}

theorem Covered.mono (hc : i.Covered reports t) (hl : t ≤ t') : i.Covered reports t' := by
  intro done mem
  obtain ⟨r, hh, hs, hi, seen⟩ := hc done mem
  exact ⟨r, hh, hs, hi, seen.trans hl⟩

theorem Covered.more {reports' : List CoordinatorReport} (hc : i.Covered reports t)
    (old : reports ⊆ reports') : i.Covered reports' t := by
  intro done mem
  obtain ⟨r, hh, hs, hi, seen⟩ := hc done mem
  exact ⟨r, old hh, hs, hi, seen⟩

variable {steps : List CoordinatorEvent}

/-- An awaited barrier, after a step of the machine. -/
theorem Awaited.apply (ha : i.Awaited reports m) (gone : m.Withdrawn)
    (hk : i.target.key = m.key) (input : CoordinatorInput) :
    i.Awaited reports (m.apply input).1 ∨
      i.Released reports (steps ++ [event apply m input]) (m.apply input).1 := by
  obtain ⟨r, hg, his, hc⟩ := ha
  cases outcome_apply gone hg input with
  | @kept r' hg' hs hr =>
    refine .inl ⟨r', hg', ?_, hc.mono hr⟩
    rw [CoordinatorRevocation.matchesRoute, hs]
    exact his
  | lost he hu => exact .inr ⟨he, .inl ⟨_, hu⟩⟩
  | @met rt he hi post =>
    exact .inr ⟨he, .inr ⟨_, mem_append_right _ mem_cons_self, rt, _, hi,
      hi.2.2.trans hk.symm, post, hc⟩⟩

/-- A barrier due to be settled stays so when a discovery fails. -/
theorem Released.fail {d : CoordinatorDiscovery} (hr : i.Released reports steps m)
    (st : m.state = .discovering d) (next : OperationId) (step : CoordinatorEvent) :
    i.Released reports (steps ++ [step]) (m.fail d.operationId d.targetEpoch next).1 := by
  obtain ⟨free, ⟨e, hu⟩ | ⟨old, mem, hf⟩⟩ := hr
  · rw [st] at hu
    cases hu
  · exact ⟨fail_unrevoked next (by rw [st]; rfl) free, .inr ⟨old, mem_append_left _ mem, hf⟩⟩

end CoordinatorInvalidation

namespace CoordinatorEntry

/-- A discovery in flight has its call pending, and every pending call is of one. -/
def Manned (entry : CoordinatorEntry) : Prop :=
  entry.pending.map (fun pending => (pending.operationId, pending.epoch)) =
    entry.machine.state.inFlight

/-- An entry whose machine moved, before its barrier is settled. -/
structure Unsettled (reports : List CoordinatorReport) (steps : List CoordinatorEvent)
    (entry : CoordinatorEntry) : Prop where
  withdrawn : entry.machine.Withdrawn
  keyed : ∀ i, entry.invalidation = some i → i.target.key = entry.machine.key
  barrier : ∀ i, entry.invalidation = some i →
    i.Awaited reports entry.machine ∨ i.Released reports steps entry.machine

/-- An entry whose barrier is awaited. -/
structure Barred (reports : List CoordinatorReport) (entry : CoordinatorEntry) : Prop where
  withdrawn : entry.machine.Withdrawn
  keyed : ∀ i, entry.invalidation = some i → i.target.key = entry.machine.key
  barred : ∀ i, entry.invalidation = some i → i.Awaited reports entry.machine

/-- An entry between operations. -/
structure Steady (reports : List CoordinatorReport) (entry : CoordinatorEntry) : Prop
    extends Barred reports entry where
  manned : entry.Manned

variable {reports : List CoordinatorReport} {steps : List CoordinatorEvent}
  {entry : CoordinatorEntry}

theorem Barred.unsettled (hb : entry.Barred reports) : entry.Unsettled reports steps :=
  ⟨hb.withdrawn, hb.keyed, fun i hg => .inl (hb.barred i hg)⟩

theorem barred_of_idle (hg : entry.machine.Withdrawn) (hi : entry.invalidation = none) :
    entry.Barred reports :=
  ⟨hg, by simp [hi], by simp [hi]⟩

/-- More reports are handed in. -/
theorem Steady.more {reports' : List CoordinatorReport} (hs : entry.Steady reports)
    (old : reports ⊆ reports') : entry.Steady reports' := by
  refine ⟨⟨hs.withdrawn, hs.keyed, fun i hg => ?_⟩, hs.manned⟩
  obtain ⟨r, hr, hi, hc⟩ := hs.barred i hg
  exact ⟨r, hr, hi, hc.more old⟩

/-- A machine moves. -/
theorem Barred.apply (hb : entry.Barred reports) (input : CoordinatorInput) :
    Unsettled reports (steps ++ [event apply entry.machine input])
      { entry with machine := (entry.machine.apply input).1 } where
  withdrawn := hb.withdrawn.apply input
  keyed i held := by
    rw [key_apply hb.withdrawn]
    exact hb.keyed i held
  barrier i held := (hb.barred i held).apply hb.withdrawn (hb.keyed i held) input

variable {input : CoordinatorInput}

/-- A machine moves and keeps its revocation. -/
theorem Barred.kept (barred : entry.Barred reports) (hk : ∀ r, entry.machine.revocation = some r →
      ∃ r', (entry.machine.apply input).1.revocation = some r' ∧ r'.target = r.target ∧
        r.requiredAfter ≤ r'.requiredAfter) :
    Barred reports { entry with machine := (entry.machine.apply input).1 } where
  withdrawn := barred.withdrawn.apply input
  keyed i held := by
    rw [key_apply barred.withdrawn]
    exact barred.keyed i held
  barred i held := by
    obtain ⟨r, hr, hi, hc⟩ := barred.barred i held
    obtain ⟨r', hr', hs, hra⟩ := hk r hr
    refine ⟨r', hr', ?_, hc.mono hra⟩
    rw [CoordinatorRevocation.matchesRoute, hs]
    exact hi

theorem Barred.of_same (hb : entry.Barred reports)
    (hs : (entry.machine.apply input).1.revocation = entry.machine.revocation) :
    Barred reports { entry with machine := (entry.machine.apply input).1 } :=
  hb.kept fun r hr => ⟨r, hs.trans hr, rfl, le_rfl⟩

/-- A discovery in flight fails. -/
theorem Unsettled.fail {d : CoordinatorDiscovery} (unsettled : entry.Unsettled reports steps)
    (st : entry.machine.state = .discovering d) (next : OperationId) :
    Unsettled reports
      (steps ++ [event apply entry.machine (.discoveryFailed d.operationId d.targetEpoch next)])
      { entry with
        machine :=
          (entry.machine.fail d.operationId d.targetEpoch next).1 } where
  withdrawn := unsettled.withdrawn.apply (.discoveryFailed d.operationId d.targetEpoch next)
  keyed i held := by
    have key := key_apply unsettled.withdrawn (.discoveryFailed d.operationId d.targetEpoch next)
    exact (unsettled.keyed i held).trans key.symm
  barrier i held := by
    rcases unsettled.barrier i held with ha | hr
    · exact ha.apply unsettled.withdrawn (unsettled.keyed i held)
        (.discoveryFailed d.operationId d.targetEpoch next)
    · exact .inr (hr.fail st next _)

end CoordinatorEntry

/-! ## Operations -/

namespace CoordinatorOwner

open CoordinatorMachine (Installs Asks)

/-- The completions told. -/
def told (fates : List CoordinatorFate) : List ℕ := fates.filterMap (·.completion)

theorem told_append (fs fs' : List CoordinatorFate) : told (fs ++ fs') = told fs ++ told fs' :=
  filterMap_append

theorem told_invalidated (completions : List ℕ) (disp : InvalidationDisposition) :
    told (completions.map (.invalidated · disp)) = completions := by
  rw [told, filterMap_map]
  exact filterMap_some

/-- The limits of an owner, the reports of its callers, and the completions they brought. -/
structure Docket where
  limits : CoordinatorLimits
  reports : List CoordinatorReport
  brought : List ℕ

/-- One more completion is brought. -/
abbrev Docket.bring (c : Docket) (completion : ℕ) : Docket :=
  { c with brought := completion :: c.brought }

/-- In the middle of an operation : the counter is right and within the limit, every completion
that was brought is told or held, and newer evidence was found for the callers told so. -/
structure Accounts (c : Docket) (t : CoordinatorTurn) : Prop where
  limited : t.owner.limits = c.limits
  count : t.owner.invalidationSubscribers = t.owner.held.length
  within : t.owner.invalidationSubscribers ≤ c.limits.invalidationWaiters.get
  conserved : (told t.fates ++ t.owner.held).Perm c.brought
  applied : ∀ completion, .invalidated completion .applied ∈ t.fates →
    ∃ report ∈ c.reports, report.completion = completion ∧ ∃ step ∈ t.steps, ∃ route,
      Installs step route ∧ route.key = report.route.key ∧
        route.evidence.isAfter report.observedAt = true

/-- One entry is at work. -/
structure At (c : Docket) (index : ℕ) (entry : CoordinatorEntry) (t : CoordinatorTurn) : Prop
    extends Accounts c t where
  here : t.owner.entries[index]? = some entry
  others : ∀ other e, other ≠ index → t.owner.entries[other]? = some e → e.Steady c.reports

/-- All entries are at rest. -/
structure Rested (c : Docket) (t : CoordinatorTurn) : Prop extends Accounts c t where
  steady : ∀ e ∈ t.owner.entries, e.Steady c.reports

variable {c : Docket} {index : ℕ} {entry : CoordinatorEntry} {t t' : CoordinatorTurn} {α β : Type}

theorem held_split {o : CoordinatorOwner} (hf : o.entries[index]? = some entry) :
    ∃ rest, o.held.Perm (entry.subscribers ++ rest) ∧
      ∀ f, (o.modifyEntry index f).held.Perm ((f entry).subscribers ++ rest) := by
  obtain ⟨hi, his⟩ := List.getElem?_eq_some_iff.1 hf
  have split : o.entries = o.entries.take index ++ entry :: o.entries.drop (index + 1) := by
    rw [← his]
    simp
  refine ⟨(o.entries.take index).flatMap (·.subscribers) ++
    (o.entries.drop (index + 1)).flatMap (·.subscribers), ?_, fun f => ?_⟩
  · rw [held, split]
    simp only [List.flatMap_append, List.flatMap_cons]
    rw [← split]
    exact List.perm_append_comm_assoc _ _ _
  · rw [held, modifyEntry, List.modify_eq_take_cons_drop hi, his]
    simp only [List.flatMap_append, List.flatMap_cons]
    exact List.perm_append_comm_assoc _ _ _

/-- What the accounts are about is the same in two turns. -/
structure Alike (t t' : CoordinatorTurn) : Prop where
  entries : t'.owner.entries = t.owner.entries
  count : t'.owner.invalidationSubscribers = t.owner.invalidationSubscribers
  limited : t'.owner.limits = t.owner.limits
  fates : t'.fates = t.fates
  steps : t'.steps = t.steps

theorem Accounts.of_same (h : Accounts c t) (hs : Alike t t') : Accounts c t' := by
  have hg : t'.owner.held = t.owner.held := by rw [CoordinatorOwner.held, hs.entries]; rfl
  refine ⟨hs.limited.trans h.limited, ?_, ?_, ?_, ?_⟩
  · rw [hs.count, hg, h.count]
  · rw [hs.count]
    exact h.within
  · rw [hs.fates, hg]
    exact h.conserved
  · rw [hs.fates, hs.steps]
    exact h.applied

theorem At.of_same (h : At c index entry t) (hs : Alike t t') : At c index entry t' :=
  ⟨h.toAccounts.of_same hs, hs.entries ▸ h.here, hs.entries ▸ h.others⟩

theorem Rested.of_same (h : Rested c t) (hs : Alike t t') : Rested c t' :=
  ⟨h.toAccounts.of_same hs, hs.entries ▸ h.steady⟩

theorem At.rested (h : At c index entry t) (hs : entry.Steady c.reports) : Rested c t := by
  refine ⟨h.toAccounts, fun e mem => ?_⟩
  obtain ⟨ne, hf⟩ := mem_iff_getElem?.1 mem
  by_cases same : ne = index
  · rw [same, h.here] at hf
    cases hf
    exact hs
  · exact h.others ne e same hf

theorem Rested.at (h : Rested c t) (hf : t.owner.entries[index]? = some entry) :
    At c index entry t ∧ entry.Steady c.reports :=
  ⟨⟨h.toAccounts, hf, fun _ e _ mem => h.steady e (mem_of_getElem? mem)⟩,
    h.steady entry (mem_of_getElem? hf)⟩

/-- The entry at work changes. -/
theorem At.replace (h : At c index entry t) {f : CoordinatorEntry → CoordinatorEntry}
    {brought : List ℕ}
    (es : t'.owner.entries = t.owner.entries.modify index f)
    (accounts : Accounts { c with brought } t') : At { c with brought } index (f entry) t' := by
  refine ⟨accounts, ?_, fun ne e apart hf => ?_⟩
  · rw [es, getElem?_modify_eq, h.here]
    rfl
  · rw [es, getElem?_modify_ne f _ (Ne.symm apart)] at hf
    exact h.others ne e apart hf

/-- The entry at work changes and keeps its callers. -/
theorem At.modify (h : At c index entry t) (f : CoordinatorEntry → CoordinatorEntry)
    (hs : (f entry).subscribers = entry.subscribers) (more : List CoordinatorEvent) :
    At c index (f entry)
      { t with owner := t.owner.modifyEntry index f, steps := t.steps ++ more } := by
  obtain ⟨rest, pre, post⟩ := held_split h.here
  have hg : (t.owner.modifyEntry index f).held.Perm t.owner.held := by
    have now := post f
    rw [hs] at now
    exact now.trans pre.symm
  refine h.replace rfl ⟨h.limited, h.count.trans hg.length_eq.symm, h.within, ?_, ?_⟩
  · exact (hg.append_left _).trans h.conserved
  · intro done mem
    obtain ⟨r, hh, hi, step, taken, hf⟩ := h.applied done mem
    exact ⟨r, hh, hi, step, mem_append_left _ taken, hf⟩

/-- The entry at work changes between steps of its machine. -/
theorem At.alter (h : At c index entry t) (f : CoordinatorEntry → CoordinatorEntry)
    (hs : (f entry).subscribers = entry.subscribers) :
    At c index (f entry) { t with owner := t.owner.modifyEntry index f } :=
  (h.modify f hs []).of_same ⟨rfl, rfl, rfl, rfl, (append_nil _).symm⟩

/-- What an operation leaves if it succeeds. -/
abbrev Ends (x : CoordinatorM α) (Q : α → CoordinatorTurn → Prop) (t : CoordinatorTurn) : Prop :=
  wp x Q (fun _ _ => True) t

theorem ends_bind {x : CoordinatorM α} {f : α → CoordinatorM β}
    {Q : α → CoordinatorTurn → Prop} {R : β → CoordinatorTurn → Prop} (first : Ends x Q t)
    (rest : ∀ a t', Q a t' → Ends (f a) R t') : Ends (x >>= f) R t :=
  wp_bind.2 (wp_mono first rest fun _ _ _ => trivial)

theorem entryAt_ends (h : At c index entry t) :
    Ends (entryAt index) (fun e t' => e = entry ∧ t' = t) t := by
  unfold entryAt
  rw [Ends, wp_bind, wp_get, h.here]
  exact ⟨rfl, rfl⟩

theorem reserveOperation_ends (h : At c index entry t) :
    Ends reserveOperation (fun _ t' => At c index entry t' ∧ t'.steps = t.steps) t := by
  unfold reserveOperation
  rw [Ends, wp_bind, wp_get]
  split
  · exact trivial
  · exact ⟨h.of_same ⟨rfl, rfl, rfl, rfl, rfl⟩, rfl⟩

theorem applyMachine_ends (h : At c index entry t) (input : CoordinatorInput) :
    Ends (applyMachine index input)
      (fun tr t' => tr = (entry.machine.apply input).2 ∧
        At c index { entry with machine := (entry.machine.apply input).1 } t' ∧
        t'.steps = t.steps ++ [event apply entry.machine input]) t := by
  unfold applyMachine
  refine ends_bind (entryAt_ends h) ?_
  rintro e t' ⟨rfl, rfl⟩
  rw [Ends, wp_bind, wp_modify]
  exact ⟨rfl, h.modify (fun entry => { entry with machine := (e.machine.apply input).1 }) rfl
    [event apply e.machine input], rfl⟩

theorem beginScan_at (h : At c index entry t) :
    Ends beginScan (fun _ t' => At c index entry t' ∧ t'.steps = t.steps) t :=
  ⟨h.of_same ⟨rfl, rfl, rfl, rfl, rfl⟩, rfl⟩

variable {steps : List CoordinatorEvent} {op : OperationId} {epoch : CoordinatorEpoch}
  {calm : Option (OperationId × CoordinatorEpoch)} {R : α → CoordinatorTurn → Prop}
  {disp : InvalidationDisposition} {route : CoordinatorRoute} {observedAt : OutcomeStamp}

/-- What callers of a settled barrier are told is true. -/
theorem applied_of_settled {i : CoordinatorInvalidation}
    (unsettled : entry.Unsettled c.reports steps)
    (bar : entry.invalidation = some i)
    (hd : settledDisposition i entry.machine = some .applied) :
    ∃ step ∈ steps, ∃ route time, Installs step route ∧ route.key = i.target.key ∧
      route.evidence.isAfter time = true ∧ i.Covered c.reports time := by
  unfold settledDisposition at hd
  split_ifs at hd with p
  rcases unsettled.barrier i bar with ⟨r, hr, hi, -⟩ | ⟨-, ⟨e, hu⟩ | hf⟩
  · refine absurd ?_ p
    rw [revocationPending, hr]
    exact hi
  · rw [hu] at hd
    cases hd
  · exact hf

/-- A barrier is settled once nothing is awaited. -/
theorem settleInvalidation_ends (h : At c index entry t)
    (unsettled : entry.Unsettled c.reports t.steps) (hm : entry.Manned) :
    Ends (settleInvalidation index) (fun _ t' => Rested c t') t := by
  unfold settleInvalidation
  refine ends_bind (entryAt_ends h) ?_
  rintro e t' ⟨rfl, rfl⟩
  cases barrier : e.invalidation with
  | none =>
    have free : ∀ i, e.invalidation ≠ some i := fun i hg => by
      rw [barrier] at hg
      cases hg
    exact h.rested ⟨⟨unsettled.withdrawn, fun i hg => absurd hg (free i),
      fun i hg => absurd hg (free i)⟩, hm⟩
  | some i =>
    dsimp only
    split
    · rename_i hw
      have p : e.machine.revocationPending i.target = true := by
        unfold settledDisposition at hw
        split_ifs at hw with p
        · exact p
        · split at hw <;> cases hw
      refine h.rested ⟨⟨unsettled.withdrawn, unsettled.keyed, fun i' hg => ?_⟩, hm⟩
      obtain rfl := Option.some.inj (barrier.symm.trans hg)
      rcases unsettled.barrier i barrier with ha | ⟨free, -⟩
      · exact ha
      · rw [revocationPending, free] at p
        cases p
    · rename_i disp hd
      have subs : e.subscribers = i.subscribers := by
        rw [CoordinatorEntry.subscribers, barrier]
        rfl
      obtain ⟨rest, pre, post⟩ := held_split h.here
      have now : (t'.owner.modifyEntry index fun entry =>
          { entry with invalidation := none }).held.Perm rest := post _
      rw [subs] at pre
      have sum : t'.owner.held.length = i.subscribers.length + rest.length := by
        rw [pre.length_eq, length_append]
      have n := h.count
      have within := h.within
      have hr : wrappingSub t'.owner.invalidationSubscribers i.subscribers.length =
          rest.length := by
        rw [wrappingSub, if_pos (by omega)]
        omega
      unfold complete tell withOwner
      rw [Ends, wp_bind, wp_modify, wp_modify]
      refine At.rested (h.replace (f := fun entry => { entry with invalidation := none }) ?_
        ⟨h.limited, ?_, ?_, ?_, ?_⟩) ⟨⟨unsettled.withdrawn, nofun, nofun⟩, hm⟩
      · rfl
      · exact hr.trans now.length_eq.symm
      · change wrappingSub t'.owner.invalidationSubscribers i.subscribers.length ≤
          c.limits.invalidationWaiters.get
        omega
      · have all := h.conserved
        change (told (t'.fates ++ i.subscribers.map (.invalidated · disp)) ++ _).Perm c.brought
        rw [told_append, told_invalidated, append_assoc]
        exact ((now.append_left _).trans pre.symm |>.append_left _).trans all
      · intro done mem
        rcases mem_append.1 mem with old | told
        · exact h.applied done old
        obtain ⟨ne, sub, hs⟩ := mem_map.1 told
        injection hs with hi his
        subst hi his
        obtain ⟨step, taken, rt, time, installs, key, post, hc⟩ :=
          applied_of_settled unsettled barrier hd
        obtain ⟨r, hh, hisr, hit, seen⟩ := hc ne sub
        refine ⟨r, hh, hisr, step, taken, rt, installs, ?_, EvidenceStamp.isAfter_of_le post seen⟩
        exact key.trans (CoordinatorRoute.isSameTarget_iff.1 hit).1

theorem settleInvalidation_rested (h : Rested c t) :
    Ends (settleInvalidation index) (fun _ t' => Rested c t') t := by
  cases found : t.owner.entries[index]? with
  | none => simp [settleInvalidation, entryAt, Ends, wp_bind, wp_get, found]
  | some e =>
    obtain ⟨here, hs⟩ := h.at found
    exact settleInvalidation_ends here hs.toBarred.unsettled hs.manned

/-! ### Discoveries -/

/-- A discovery that cannot be sent fails, and its barrier is settled. -/
theorem rejectRounds_ends (rounds : ℕ) (h : At c index entry t)
    (unsettled : entry.Unsettled c.reports t.steps) (free : entry.pending = none)
    (hf : entry.machine.state.inFlight = some (op, epoch)) :
    Ends (rejectRounds index rounds op epoch) (fun _ t' => Rested c t') t := by
  induction rounds generalizing op epoch entry t with
  | zero => exact trivial
  | succ rounds ih =>
    obtain ⟨d, st, rfl, rfl⟩ : ∃ d, entry.machine.state = .discovering d ∧
        op = d.operationId ∧ epoch = d.targetEpoch := by
      cases st : entry.machine.state with
      | discovering d =>
        rw [st] at hf
        obtain ⟨hi, his⟩ := Prod.mk.inj (Option.some.inj hf)
        exact ⟨d, rfl, hi.symm, his.symm⟩
      | _ =>
        rw [st] at hf
        cases hf
    unfold rejectRounds
    refine ends_bind (reserveOperation_ends h) ?_
    rintro next t₁ ⟨h₁, steps₁⟩
    refine ends_bind (applyMachine_ends h₁ _) ?_
    rintro tr t₂ ⟨rfl, h₂, steps₂⟩
    refine ends_bind (beginScan_at h₂) ?_
    rintro _ t₃ ⟨h₃, steps₃⟩
    have hfa := unsettled.fail st next
    rw [← steps₁, ← steps₂, ← steps₃] at hfa
    have ha := fail_asks (m := entry.machine) (d := d) (by rw [st]; rfl)
      next
    simp only [apply] at h₃ ⊢
    generalize entry.machine.fail d.operationId d.targetEpoch next = result at *
    obtain ⟨machine, effs, disp⟩ := result
    cases ha with
    | nothing hs =>
      refine settleInvalidation_ends h₃ hfa ?_
      rw [CoordinatorEntry.Manned, free]
      exact hs.symm
    | find sent => exact ih h₃ hfa free sent
    | wait | exhausted => exact trivial

/-- What the interpretation of a transition leaves : the barrier settled, or the entry as it was
but for the pending call. -/
def Interpreted (c : Docket) (index : ℕ) (entry : CoordinatorEntry) (steps : List CoordinatorEvent)
    (t : CoordinatorTurn) : Prop :=
  Rested c t ∨ ∃ pending, At c index { entry with pending } t ∧
    CoordinatorEntry.Manned { entry with pending } ∧ t.steps = steps

variable (ev : EvidenceStamp) (rpc : CoordinatorRpc)

theorem submit_ends (h : At c index entry t) (unsettled : entry.Unsettled c.reports t.steps)
    (hf : entry.machine.state.inFlight = some (op, epoch)) (key : CoordinatorKey) :
    Ends (submit index op key epoch ev rpc)
      (fun _ t' => Interpreted c index entry t.steps t') t := by
  unfold submit
  refine ends_bind (entryAt_ends h) ?_
  rintro e t' ⟨rfl, rfl⟩
  cases free : e.pending with
  | some pend => exact trivial
  | none =>
    have hr : Ends (rejectFind index op epoch)
        (fun _ t'' => Interpreted c index e t'.steps t'') t' :=
      wp_mono (rejectRounds_ends 2 h unsettled free hf) (fun _ _ done => .inl done)
        fun _ _ _ => trivial
    simp only [Option.isSome_none, Bool.false_eq_true, if_false]
    split
    · exact hr
    split
    · exact hr
    split
    · exact trivial
    split
    · exact trivial
    have hs (pend : PendingCoordinator) :
        At c index { e with pending := some pend }
          { t' with
            owner := t'.owner.modifyEntry index fun entry =>
              { entry with pending := some pend } } :=
      h.alter (fun entry => { entry with pending := some pend }) rfl
    exact .inr ⟨_, hs _, hf.symm, rfl⟩

theorem expectRetry_ends (h : At c index entry t) (op : OperationId)
    (epoch : CoordinatorEpoch) (due : Moment) :
    Ends (expectRetry index op epoch due) (fun _ t' => t' = t) t := by
  unfold expectRetry
  refine ends_bind (entryAt_ends h) ?_
  rintro e t' ⟨rfl, rfl⟩
  split
  · split_ifs
    · exact rfl
    · exact trivial
  · exact trivial

/-- The effects of a transition are carried out. -/
theorem interpret_ends {tr : CoordinatorTransition} (h : At c index entry t)
    (ha : Asks entry.machine calm tr.effects)
    (hr : .epochExhausted ∉ tr.effects → entry.Unsettled c.reports t.steps ∧
      entry.pending.map (fun p => (p.operationId, p.epoch)) = calm) :
    Ends (interpret index tr ev rpc) (fun _ t' => Interpreted c index entry t.steps t') t := by
  obtain ⟨effs, disp⟩ := tr
  unfold interpret
  cases ha with
  | nothing hs =>
    obtain ⟨-, calm⟩ := hr (by simp)
    exact .inr ⟨entry.pending, h, calm.trans hs.symm, rfl⟩
  | find sent =>
    obtain ⟨unsettled, -⟩ := hr (by simp)
    exact wp_bind.2 (submit_ends ev rpc h unsettled sent _)
  | wait hs =>
    obtain ⟨-, calm⟩ := hr (by simp)
    refine ends_bind (expectRetry_ends h _ _ _) ?_
    rintro _ _ rfl
    exact .inr ⟨entry.pending, h, calm.trans hs.symm, rfl⟩
  | exhausted => exact trivial

theorem Interpreted.rested (h : Interpreted c index entry steps t)
    (hb : entry.Barred c.reports) : Rested c t := by
  rcases h with hr | ⟨p, here, hm, -⟩
  · exact hr
  · exact here.rested ⟨⟨hb.withdrawn, hb.keyed, hb.barred⟩, hm⟩

/-- The barrier is settled after the effects of a transition. -/
theorem Interpreted.settle (h : Interpreted c index entry steps t)
    (unsettled : entry.Unsettled c.reports steps) :
    Ends (settleInvalidation index) (fun _ t' => Rested c t') t := by
  rcases h with hr | ⟨p, here, hm, rfl⟩
  · exact settleInvalidation_rested hr
  · exact settleInvalidation_ends here ⟨unsettled.withdrawn, unsettled.keyed, unsettled.barrier⟩ hm

/-! ### Moves of one machine -/

/-- A machine is given an input, and the effects of its transition are carried out. -/
theorem moved (input : OperationId → CoordinatorInput) (h : At c index entry t)
    (hb : entry.Barred c.reports)
    (p : entry.pending.map (fun p => (p.operationId, p.epoch)) = calm)
    (ha : ∀ id, Asks (entry.machine.apply (input id)).1 calm
      (entry.machine.apply (input id)).2.effects)
    (ev : EvidenceStamp) (rpc : CoordinatorRpc) {k : CoordinatorTransition → CoordinatorM α}
    (rest : ∀ id t', Interpreted c index
      { entry with machine := (entry.machine.apply (input id)).1 }
      (t.steps ++ [event apply entry.machine (input id)]) t' →
      Ends (k (entry.machine.apply (input id)).2) R t') :
    Ends (do
      let id ← reserveOperation
      let transition ← applyMachine index (input id)
      interpret index transition ev rpc
      k transition) R t := by
  refine ends_bind (reserveOperation_ends h) ?_
  rintro id t₁ ⟨h₁, steps₁⟩
  refine ends_bind (applyMachine_ends h₁ (input id)) ?_
  rintro _ t₂ ⟨rfl, h₂, steps₂⟩
  rw [steps₁] at steps₂
  have unsettled : CoordinatorEntry.Unsettled c.reports t₂.steps
      { entry with machine := (entry.machine.apply (input id)).1 } := by
    rw [steps₂]
    exact hb.apply (input id)
  refine ends_bind (interpret_ends ev rpc h₂ (ha id) (fun _ => ⟨unsettled, p⟩)) ?_
  intro _ t' hi
  rw [steps₂] at hi
  exact rest id t' hi

/-- An operation on the entry of an index. -/
theorem entryAt_bind {f : CoordinatorEntry → CoordinatorM α} (h : Rested c t)
    (rest : ∀ entry, At c index entry t → entry.Steady c.reports →
      Ends (f entry) R t) : Ends (entryAt index >>= f) R t := by
  unfold entryAt
  simp only [Ends, wp_bind, wp_get]
  cases found : t.owner.entries[index]? with
  | none => exact trivial
  | some entry =>
    obtain ⟨here, hs⟩ := h.at found
    exact rest entry here hs

theorem startOne_rested (h : Rested c t) (k : ℕ) :
    Ends (startOne ev rpc k) (fun _ t' => Rested c t') t := by
  refine entryAt_bind h fun e here hs => ?_
  split_ifs
  · have ha := here.alter (fun e => { e with discoveryRequested := false }) rfl
    have hb : CoordinatorEntry.Barred c.reports { e with discoveryRequested := false } :=
      ⟨hs.withdrawn, hs.keyed, hs.barred⟩
    rw [Ends, wp_bind, withOwner, wp_modify]
    refine moved .resolve ha hb hs.manned (fun id => e.machine.resolve_asks id)
      ev rpc fun id t' hi => ?_
    exact hi.rested (hb.of_same (e.machine.resolve_revocation id))
  · exact h

theorem fireDueRetry_rested (h : Rested c t) (now : Moment) (k : ℕ) :
    Ends (fireDueRetry now ev rpc k) (fun _ t' => Rested c t') t := by
  refine entryAt_bind h fun e here hs => ?_
  cases state : e.machine.state with
  | retrying d due =>
    have calm : e.pending.map (fun p => (p.operationId, p.epoch)) = none := by
      rw [hs.manned, state]
      rfl
    have act : e.machine.state.discovery = some d := by rw [state]; rfl
    dsimp only
    split_ifs with he hb
    · exact h
    · exact trivial
    rw [Ends, wp_bind, wp_get]
    split_ifs
    · unfold startRetry
      simp only [bind_assoc]
      refine moved (.retryElapsed d.operationId d.targetEpoch now) here hs.toBarred calm
        (fun id => retryElapsed_asks state (not_lt.1 he) id) ev rpc
        fun id t' hi => ?_
      exact hi.rested (hs.toBarred.of_same (e.machine.retryElapsed_revocation _ _ _ _))
    · unfold endRetry
      simp only [bind_assoc]
      refine moved (.discoveryFailed d.operationId d.targetEpoch) here hs.toBarred calm
        (fun id => fail_asks act id) ev rpc
        fun id t' hi => ?_
      refine ends_bind (hi.settle (hs.toBarred.apply _)) ?_
      exact fun _ t'' hr => hr.of_same ⟨rfl, rfl, rfl, rfl, rfl⟩
  | _ => exact h

/-- The input of a finished call is for the discovery in flight. -/
theorem resultInput_asks {m : CoordinatorMachine} {d : CoordinatorDiscovery}
    {pend : PendingCoordinator} {now : Moment} {result : DiscoveryResult}
    {input : OperationId → CoordinatorInput} (st : m.state = .discovering d)
    (ho : pend.operationId = d.operationId) (epoch : pend.epoch = d.targetEpoch)
    (hm : resultInput m.key pend now result = some input) (id : OperationId) :
    Asks (m.apply (input id)).1 none (m.apply (input id)).2.effects := by
  have hf : Asks (m.apply (discoveryFailed pend id)).1 none
      (m.apply (discoveryFailed pend id)).2.effects := by
    rw [discoveryFailed, ho, epoch]
    exact fail_asks (by rw [st]; rfl) id
  cases result with
  | pending => cases hm
  | failed =>
    cases hm
    exact hf
  | responded resp =>
    cases hm
    unfold successInput
    split
    · rw [ho, epoch]
      exact succeed_asks st _ _ _ id
    · split_ifs
      · rw [ho, epoch]
        exact reject_asks id st now
      · exact hf

theorem observe_rested (h : Rested c t) (now : Moment) (res : DiscoveryResult) (k : ℕ) :
    Ends (observe now ev res rpc k) (fun _ t' => Rested c t') t := by
  refine entryAt_bind h fun e here hs => ?_
  split
  · exact h
  rename_i input hm
  obtain ⟨pend, sent, hm⟩ := Option.bind_eq_some_iff.1 hm
  have hf := hs.manned
  rw [CoordinatorEntry.Manned, sent] at hf
  cases state : e.machine.state with
  | discovering d =>
    rw [state] at hf
    obtain ⟨ho, epoch⟩ := Prod.mk.inj (Option.some.inj hf)
    have ht := here.alter (fun e => { e with pending := none }) rfl
    have hb : CoordinatorEntry.Barred c.reports { e with pending := none } :=
      ⟨hs.withdrawn, hs.keyed, hs.barred⟩
    rw [Ends, wp_bind, withOwner, wp_modify]
    refine moved input ht hb rfl (resultInput_asks state ho epoch hm) ev rpc fun id t' hi => ?_
    refine ends_bind (hi.settle (hb.apply _)) ?_
    exact fun _ t'' hr => hr.of_same ⟨rfl, rfl, rfl, rfl, rfl⟩
  | _ =>
    rw [state] at hf
    cases hf

theorem invalidateUnobserved_rested (h : Rested c t) (rt : CoordinatorRoute) :
    Ends (invalidateUnobserved rt ev rpc) (fun _ t' => Rested c t') t := by
  unfold invalidateUnobserved
  simp only [Ends, wp_bind, wp_get]
  split
  · exact h
  rename_i k hf
  obtain ⟨hi, -⟩ := findIdx?_eq_some_iff_getElem.1 hf
  obtain ⟨here, hs⟩ := h.at (getElem?_eq_getElem hi)
  refine moved (.withdraw rt) here hs.toBarred hs.manned (fun id => withdraw_asks id rt _) ev rpc
    fun id t' hin => ?_
  exact hin.rested (hs.toBarred.of_same (withdraw_revocation _ id rt))

/-! ### Invalidation -/

/-- A caller is answered at once. -/
theorem Accounts.answered (h : Accounts c t) (done : ℕ) (hr : disp ≠ .applied) :
    Accounts (c.bring done) { t with fates := t.fates ++ [.invalidated done disp] } := by
  refine ⟨h.limited, h.count, h.within, ?_, ?_⟩
  · change (told (t.fates ++ [_]) ++ t.owner.held).Perm _
    rw [told_append, append_assoc]
    exact perm_middle.trans (h.conserved.cons done)
  · intro ne mem
    rcases mem_append.1 mem with old | now
    · exact h.applied ne old
    · injection mem_singleton.1 now with _ hi
      exact absurd hi.symm hr

theorem Rested.answered (h : Rested c t) (done : ℕ) (hr : disp ≠ .applied) :
    Rested (c.bring done) { t with fates := t.fates ++ [.invalidated done disp] } :=
  ⟨h.toAccounts.answered done hr, h.steady⟩

/-- A caller joins the barrier of the entry at work. -/
theorem At.subscribed (h : At c index entry t)
    (hr : t.owner.hasInvalidationCapacity = true) (rt : CoordinatorRoute) (done : ℕ) :
    At (c.bring done) index (subscribe rt done entry)
      { t with
        owner :=
          { t.owner.modifyEntry index (subscribe rt done) with
            invalidationSubscribers := t.owner.invalidationSubscribers + 1 } } := by
  obtain ⟨rest, pre, post⟩ := held_split h.here
  have hj : (subscribe rt done entry).subscribers = entry.subscribers ++ [done] := by
    unfold subscribe CoordinatorEntry.subscribers
    cases entry.invalidation <;> rfl
  have now : (t.owner.modifyEntry index (subscribe rt done)).held.Perm (done :: t.owner.held) := by
    have ha := post (subscribe rt done)
    rw [hj, append_assoc] at ha
    exact ha.trans (perm_middle.trans (pre.symm.cons done))
  refine h.replace rfl ⟨h.limited, ?_, ?_, ?_, h.applied⟩
  · change t.owner.invalidationSubscribers + 1 =
      (t.owner.modifyEntry index (subscribe rt done)).held.length
    rw [now.length_eq, length_cons, h.count]
  · rw [← h.limited]
    exact Nat.succ_le_of_lt (of_decide_eq_true hr)
  · exact (now.append_left _).trans (perm_middle.trans (h.conserved.cons done))

/-- The caller of an invalidation is answered, or joins the barrier. -/
theorem await_ends (h : At c index entry t) (rt : CoordinatorRoute)
    (done : ℕ) (disp : CoordinatorDisposition) :
    Ends (await index rt done disp)
      (fun _ t' => ∃ entry', At (c.bring done) index entry' t' ∧
        t'.steps = t.steps ∧ (entry' = entry ∨
          waitsForEvidence disp = true ∧ entry' = subscribe rt done entry)) t := by
  have ha (ans : InvalidationDisposition) (hr : ans ≠ .applied) :
      At (c.bring done) index entry { t with fates := t.fates ++ [.invalidated done ans] } :=
    ⟨h.toAccounts.answered done hr, h.here, h.others⟩
  unfold await
  split_ifs with hw
  · simp only [Ends, wp_bind, wp_get]
    split_ifs with hf
    · exact ⟨entry, ha .capacityReached (by simp), rfl, .inl rfl⟩
    · have room : t.owner.hasInvalidationCapacity = true := by simpa using hf
      exact ⟨_, h.subscribed room rt done, rfl, .inr ⟨hw, rfl⟩⟩
  · refine ⟨entry, ha (immediateDisposition disp) ?_, rfl, .inl rfl⟩
    cases disp <;> simp [immediateDisposition]

/-- The revocation that an invalidation leaves covers a caller who joins. -/
theorem barred_subscribe {done : ℕ} {r : CoordinatorRevocation} (hb : entry.Barred c.reports)
    (hh : (⟨done, route, observedAt⟩ : CoordinatorReport) ∈ c.reports)
    (hk : route.key = entry.machine.key)
    (hs : ∀ i, entry.invalidation = some i → i.matchesRoute route = true)
    (hr : entry.machine.revocation = some r) (hi : r.matchesRoute route = true)
    (hc : observedAt ≤ r.requiredAfter) :
    (subscribe route done entry).Barred c.reports := by
  unfold subscribe
  refine ⟨hb.withdrawn, ?_, ?_⟩
  · rintro _ ⟨⟩
    cases barrier : entry.invalidation with
    | none => exact hk
    | some i => exact hb.keyed i barrier
  · rintro _ ⟨⟩
    cases barrier : entry.invalidation with
    | none =>
      refine ⟨r, hr, hi, fun ne mem => ?_⟩
      obtain rfl := mem_singleton.1 mem
      exact ⟨_, hh, rfl, CoordinatorRoute.isSameTarget_iff.2 ⟨rfl, rfl, rfl⟩, hc⟩
    | some i =>
      obtain ⟨r', hr', hi', hco⟩ := hb.barred i barrier
      obtain rfl := Option.some.inj (hr.symm.trans hr')
      refine ⟨r, hr, hi', fun ne mem => ?_⟩
      rcases mem_append.1 mem with old | now
      · exact hco ne old
      · obtain rfl := mem_singleton.1 now
        exact ⟨_, hh, rfl, hs i barrier, hc⟩

/-- A machine that is told of a failure keeps its revocation. -/
theorem barred_invalidate (hb : entry.Barred c.reports) (rt : CoordinatorRoute)
    (seen : OutcomeStamp) (op : OperationId) :
    CoordinatorEntry.Barred c.reports
      { entry with
        machine := (entry.machine.apply (.invalidate rt seen op)).1 } := by
  refine hb.kept fun r hr => ?_
  cases same : r.matchesRoute rt with
  | true =>
    obtain ⟨r', hr', tgt, hra, -⟩ :=
      invalidate_of_same hr same seen op
    exact ⟨r', hr', tgt, hra⟩
  | false =>
    have hs :=
      invalidate_of_other hb.withdrawn hr same seen op
    refine ⟨r, ?_, rfl, le_rfl⟩
    simp only [apply, hs, hr]

theorem invalidate_rested (h : Rested c t) {done : ℕ}
    (hh : (⟨done, route, observedAt⟩ : CoordinatorReport) ∈ c.reports) :
    Ends (invalidate route observedAt done ev rpc) (fun _ t' => Rested (c.bring done) t') t := by
  unfold invalidate
  simp only [Ends, wp_bind, wp_get]
  split
  · exact h.answered done (by simp)
  rename_i k hf
  obtain ⟨hi, hiy, -⟩ := findIdx?_eq_some_iff_getElem.1 hf
  obtain ⟨here, hst⟩ := h.at (getElem?_eq_getElem hi)
  have hk := of_decide_eq_true hiy
  generalize t.owner.entries[k] = entry at here hst hk
  refine ends_bind (entryAt_ends here) ?_
  rintro e t' ⟨rfl, rfl⟩
  split_ifs with ne
  · exact h.answered done (by simp)
  have hs (i : CoordinatorInvalidation) (hg : e.invalidation = some i) :
      i.matchesRoute route = true := by
    simpa [hg] using ne
  refine ends_bind (reserveOperation_ends here) ?_
  rintro id t₁ ⟨h₁, steps₁⟩
  refine ends_bind (applyMachine_ends h₁ _) ?_
  rintro _ t₂ ⟨rfl, h₂, -⟩
  refine ends_bind (await_ends h₂ route done _) ?_
  rintro _ t₃ ⟨e', h₃, -, hj⟩
  -- An exhausted epoch ends the operation, so the machine has its revocation here.
  have hb (room : .epochExhausted ∉
      (e.machine.apply (.invalidate route observedAt id)).2.effects) : e'.Barred c.reports := by
    have pre := barred_invalidate hst.toBarred route observedAt id
    rcases hj with rfl | ⟨hw, rfl⟩
    · exact pre
    obtain ⟨r, hr, his, hc⟩ :=
      invalidate_covers hst.withdrawn hw room
    refine barred_subscribe pre hh ?_ hs hr his hc
    rw [key_apply hst.withdrawn]
    exact hk.symm
  have machine : e'.machine = (e.machine.apply (.invalidate route observedAt id)).1 := by
    rcases hj with rfl | ⟨-, rfl⟩ <;> rfl
  have p : e'.pending = e.pending := by
    rcases hj with rfl | ⟨-, rfl⟩ <;> rfl
  have ha : Asks e'.machine e.machine.state.inFlight
      (e.machine.apply (.invalidate route observedAt id)).2.effects := by
    rw [machine]
    exact invalidate_asks id route hst.withdrawn observedAt
  by_cases room : .epochExhausted ∈
      (e.machine.apply (.invalidate route observedAt id)).2.effects
  · generalize (e.machine.apply (.invalidate route observedAt id)).2 = transition at *
    obtain ⟨effs, disp⟩ := transition
    cases ha with
    | exhausted => exact trivial
    | nothing => cases room
    | find | wait => simp at room
  · refine wp_mono (interpret_ends ev rpc h₃
      ha (fun room => ⟨(hb room).unsettled, ?_⟩)) (fun _ _ hin => hin.rested (hb room))
      fun _ _ _ => trivial
    rw [p]
    exact hst.manned

end CoordinatorOwner

end KafkaDriver
