import KafkaDriver.CoordinatorBarriers

/-!
# Barriers over runs of the coordinator owner

Every operation of the owner leaves its entries at rest (`operation_rested`), so a run that
succeeds does. A completion that is handed in is told once or held, a barrier that is held waits
for something that is under way, and callers told `applied` were told the truth
(`coordinator_barriers_truthful`).
-/

namespace KafkaDriver

open Fallible Runs CoordinatorMachine

namespace CoordinatorOwner

variable {limits : CoordinatorLimits} {reports : List CoordinatorReport} {c : Docket}
  {t : CoordinatorTurn}

/-! ## Turns of the reactor -/

variable {visit : ℕ → ℕ → CoordinatorM Bool} {o : CoordinatorOwner} {call : CoordinatorCall}
  {entry : CoordinatorEntry} {i : CoordinatorInvalidation}

theorem visitEntries_rested (hv : ∀ offset k t, Rested c t →
      Ends (visit offset k) (fun _ t' => Rested c t') t)
    (b len : ℕ) (offsets : List ℕ) (done : ℕ) (h : Rested c t) :
    Ends (visitEntries b len visit offsets done) (fun _ t' => Rested c t') t := by
  induction offsets generalizing done t with
  | nil => exact h
  | cons offset rest ih =>
    unfold visitEntries
    split_ifs
    · exact h
    rw [Ends, wp_bind, wp_get]
    refine ends_bind (hv offset _ t h) fun _ t' hr => ?_
    split_ifs
    · rw [Ends, wp_bind, withOwner, wp_modify]
      exact ih _ (hr.of_same ⟨rfl, rfl, rfl, rfl, rfl⟩)
    · exact ih _ hr

theorem visitAll_rested (hv : ∀ offset k t, Rested c t →
      Ends (visit offset k) (fun _ t' => Rested c t') t)
    (b : ℕ) (h : Rested c t) :
    Ends (visitAll b visit) (fun _ t' => Rested c t') t := by
  unfold visitAll
  rw [Ends, wp_bind, wp_get]
  exact visitEntries_rested hv b _ _ 0 h

variable (evidence : EvidenceStamp) (now : Moment) (ws : CoordinatorWait) (build : Build)
  (calls : List CoordinatorCall)

theorem startRequested_rested (h : Rested c t) (b : ℕ) (broker : CoordinatorBroker) :
    Ends (startRequested b evidence broker) (fun _ t' => Rested c t') t := by
  unfold startRequested
  split_ifs
  · exact visitAll_rested (fun offset k t hr =>
      startOne_rested evidence (broker.rpc offset) hr k) b h
  · exact h

theorem drive_rested (h : Rested c t) (turn : CoordinatorDrive) :
    Ends (drive turn now evidence) (fun _ t' => Rested c t') t := by
  unfold drive
  rw [Ends, wp_bind, wp_get]
  refine ends_bind (visitAll_rested (fun offset k t hr =>
    fireDueRetry_rested evidence (turn.retries offset) hr now k) _ h) ?_
  intro settled t₁ h₁
  have hs (seen : ℕ) (t₂ : CoordinatorTurn) (h₂ : Rested c t₂) :
      Ends (if t.owner.limits.turnBudget.get - (settled + seen) = 0 then
          pure (decide (settled + seen + 0 ≠ 0))
        else do
          let begun ←
            startRequested (t.owner.limits.turnBudget.get - (settled + seen)) evidence turn.starts
          pure (decide (settled + seen + begun ≠ 0)))
        (fun _ t' => Rested c t') t₂ := by
    split_ifs
    · exact h₂
    · exact ends_bind (startRequested_rested evidence h₂ _ turn.starts) fun _ _ h₃ => h₃
  dsimp only
  split
  · exact hs 0 t₁ h₁
  · refine ends_bind (visitAll_rested (fun offset k t hr => ?_) _ h₁) hs
    exact observe_rested evidence (turn.replies offset) hr now (turn.results offset) k

/-! ## Waiting calls -/

/-- Calls are told, and no caller of an invalidation. -/
theorem Rested.told_calls (h : Rested c t) (waiters : CoordinatorWaiters)
    {fs : List CoordinatorFate} (cs : ∀ f ∈ fs, f.completion = none) :
    Rested c { t with owner := { t.owner with waiters }, fates := t.fates ++ fs } := by
  refine ⟨⟨h.limited, h.count, h.within, ?_, ?_⟩, h.steady⟩
  · have hs : told fs = [] := List.filterMap_eq_nil_iff.2 cs
    change (told (t.fates ++ fs) ++ t.owner.held).Perm c.brought
    rw [told_append, hs, List.append_nil]
    exact h.conserved
  · intro done mem
    rcases List.mem_append.1 mem with old | now
    · exact h.applied done old
    · cases cs _ now

theorem admitCall_calls (w : CoordinatorWaiters) :
    ∀ f ∈ (admitCall w ws now).2.1, f.completion = none := by
  intro f mem
  unfold admitCall at mem
  split at mem
  · obtain rfl := List.mem_singleton.1 mem
    rfl
  split_ifs at mem
  · obtain rfl := List.mem_singleton.1 mem
    rfl
  · obtain ⟨v, rfl⟩ := w.admitEntry_told _ _ _ _ f mem
    rfl

theorem admitWaiting_rested (h : Rested c t) :
    Ends (admitWaiting ws now) (fun _ t' => Rested c t') t :=
  h.told_calls (admitCall t.owner.waiters ws now).1 (admitCall_calls now ws _)

theorem rejectKeyCapacity_rested (h : Rested c t) (ticket : ℕ) :
    Ends (rejectKeyCapacity build ticket) (fun _ t' => Rested c t') t := by
  unfold rejectKeyCapacity
  rw [Ends, wp_bind, wp_get]
  split
  · exact trivial
  · refine h.told_calls _ fun f mem => ?_
    obtain rfl := List.mem_singleton.1 mem
    rfl

/-- A new entry is at rest. -/
theorem entryOrInsert_rested (h : Rested c t) (key : CoordinatorKey) :
    Rested c { t with owner := (t.owner.entryOrInsert key).1 } := by
  unfold entryOrInsert
  split
  · exact h
  split_ifs
  · exact h
  have hg : CoordinatorOwner.held
      { t.owner with entries := t.owner.entries ++ [.new (.new key)] } = t.owner.held := by
    simp [CoordinatorOwner.held, CoordinatorEntry.new, CoordinatorEntry.subscribers]
  refine ⟨⟨h.limited, ?_, h.within, ?_, h.applied⟩, fun e mem => ?_⟩
  · rw [hg]
    exact h.count
  · rw [hg]
    exact h.conserved
  · rcases List.mem_append.1 mem with old | new
    · exact h.steady e old
    · obtain rfl := List.mem_singleton.1 new
      exact ⟨CoordinatorEntry.barred_of_idle (by rintro ⟨⟩) rfl, rfl⟩

theorem requestDiscovery_rested (h : Rested c t) (k : ℕ) :
    Rested c { t with owner := t.owner.modifyEntry k requestDiscovery } := by
  cases found : t.owner.entries[k]? with
  | none =>
    refine h.of_same ⟨?_, rfl, rfl, rfl, rfl⟩
    exact List.modify_eq_self (List.getElem?_eq_none_iff.1 found)
  | some e =>
    obtain ⟨here, hs⟩ := h.at found
    unfold requestDiscovery
    refine (here.alter requestDiscovery ?_).rested ?_
    · unfold requestDiscovery
      split_ifs <;> rfl
    · unfold requestDiscovery
      split_ifs
      · exact ⟨⟨hs.withdrawn, hs.keyed, hs.barred⟩, hs.manned⟩
      · exact hs

theorem waitFor_rested (h : Rested c t) (b : Option CoordinatorBroker) :
    Ends (waitFor build ws b now evidence) (fun _ t' => Rested c t') t := by
  unfold waitFor
  refine ends_bind (admitWaiting_rested now ws h) fun adm t₁ h₁ => ?_
  split_ifs
  · rw [Ends, wp_bind, wp_get]
    have hi := entryOrInsert_rested h₁ ws.key
    split
    · exact rejectKeyCapacity_rested build h₁ ws.request.ticket
    rename_i owner k hf
    rw [hf] at hi
    rw [wp_bind, withOwner, wp_modify]
    have ha := requestDiscovery_rested hi k
    cases b with
    | none => exact ha
    | some b => exact wp_map.2 (startRequested_rested evidence ha _ b)
  · exact h₁

theorem examine_calls {ws : WaitingCoordinatorCall} {f : CoordinatorFate}
    (ans : examine o ws = some f) : f.completion = none := by
  unfold examine at ans
  split at ans
  · cases ans
    rfl
  · split_ifs at ans
    cases ans
    rfl

theorem drainWaiters_rested (h : Rested c t) :
    Ends (drainWaiters build now) (fun _ t' => Rested c t') t := by
  unfold drainWaiters
  rw [Ends, wp_bind, wp_get]
  refine h.told_calls _ fun f mem => ?_
  obtain ⟨v, rfl | ⟨lim, cap, rfl⟩ | ans⟩ :=
    Waiters.scan_told _ waitPolicy now build _ _ f mem
  · rfl
  · rfl
  · exact examine_calls ans

/-- All barriers end. -/
theorem failAllInvalidations_rested (h : Rested c t) :
    Ends failAllInvalidations (fun _ t' => Rested c t') t := by
  unfold failAllInvalidations tell withOwner
  rw [Ends, wp_bind, wp_get, wp_bind, wp_modify, wp_modify]
  have none_held : CoordinatorOwner.held { t.owner with
      entries := t.owner.entries.map fun entry => { entry with invalidation := none } } = [] := by
    simp [CoordinatorOwner.held, CoordinatorEntry.subscribers, List.flatMap_map]
  have hr : wrappingSub t.owner.invalidationSubscribers t.owner.held.length = 0 := by
    rw [h.count, wrappingSub, if_pos le_rfl, Nat.sub_self]
  refine ⟨⟨h.limited, ?_, ?_, ?_, ?_⟩, ?_⟩
  · exact hr.trans (List.length_eq_zero_iff.2 none_held).symm
  · exact hr.le.trans (Nat.zero_le _)
  · change (told (t.fates ++ t.owner.held.map _) ++ CoordinatorOwner.held { t.owner with
      entries :=
        t.owner.entries.map fun entry => { entry with invalidation := none } }).Perm c.brought
    rw [none_held, told_append, told_invalidated, List.append_nil]
    exact h.conserved
  · intro done mem
    rcases List.mem_append.1 mem with old | now
    · exact h.applied done old
    · obtain ⟨_, _, hs⟩ := List.mem_map.1 now
      cases hs
  · intro e mem
    obtain ⟨entry, old, rfl⟩ := List.mem_map.1 mem
    have hst := h.steady entry old
    exact ⟨CoordinatorEntry.barred_of_idle hst.withdrawn rfl, hst.manned⟩

theorem failWaiters_rested (h : Rested c t) (err : RequestError) :
    Ends (failWaiters err) (fun _ t' => Rested c t') t := by
  unfold failWaiters
  rw [Ends, wp_bind, wp_get]
  refine failAllInvalidations_rested (h.told_calls _ fun f mem => ?_)
  obtain ⟨ws, -, rfl⟩ := List.mem_map.1 mem
  rfl

/-! ## Runs -/

/-- The completion a call hands in. -/
def handedIn (call : CoordinatorCall) : List ℕ := (call.report.map (·.completion)).toList

/-- Every operation leaves the entries at rest. -/
theorem operation_rested (h : Rested c t) (hh : ∀ r, call.report = some r → r ∈ c.reports) :
    Ends (operation build call)
      (fun _ t' => Rested { c with brought := handedIn call ++ c.brought } t') t := by
  cases call with
  | waitFor ws b now ev =>
    exact waitFor_rested ev now ws build h b
  | invalidate rt seen done ev rpc =>
    exact invalidate_rested ev rpc h (hh _ rfl)
  | invalidateUnobserved rt ev rpc =>
    exact wp_map.2 (invalidateUnobserved_rested ev rpc h rt)
  | drive turn now ev => exact wp_map.2 (drive_rested ev now h turn)
  | drainWaiters now => exact drainWaiters_rested now build h
  | failWaiters err => exact failWaiters_rested h err

/-- An owner between calls, all of whose callers reported a failure in `reports`. -/
def Truthful (limits : CoordinatorLimits) (reports : List CoordinatorReport)
    (o : CoordinatorOwner) : Prop :=
  Rested ⟨limits, reports, o.held⟩ ⟨o, [], []⟩

theorem step_rested (h : Truthful limits reports o) {b : Build}
    (hh : ∀ r, call.report = some r → r ∈ reports)
    (hs : (step b o call).2.failure = none) :
    Rested ⟨limits, reports, handedIn call ++ o.held⟩
      ⟨(step b o call).1, (step b o call).2.fates, (step b o call).2.steps⟩ := by
  have he := operation_rested b h hh
  unfold Ends wp at he
  unfold step at hs ⊢
  cases ran : operation b call ⟨o, [], []⟩ with
  | ok _ t' =>
    rw [ran] at he
    exact he
  | error e t' =>
    rw [ran] at hs
    cases hs

theorem Rested.truthful (h : Rested c t) : Truthful c.limits c.reports t.owner :=
  ⟨⟨h.limited, h.count, h.within, .refl _, nofun⟩, h.steady⟩

theorem new_truthful (lim : CoordinatorLimits) : Truthful lim [] (new lim) where
  limited := rfl
  count := rfl
  within := Nat.zero_le _
  conserved := .refl _
  applied _ mem := absurd mem List.not_mem_nil
  steady _ mem := absurd mem List.not_mem_nil

theorem Truthful.more {reports' : List CoordinatorReport} (h : Truthful limits reports o)
    (old : reports ⊆ reports') : Truthful limits reports' o :=
  ⟨⟨h.limited, h.count, h.within, .refl _, nofun⟩, fun e mem => (h.steady e mem).more old⟩

/-- The reports that calls hand in. -/
def reportsOf (calls : List CoordinatorCall) : List CoordinatorReport := calls.filterMap (·.report)

theorem reportsOf_concat (call : CoordinatorCall) :
    reportsOf (calls ++ [call]) = reportsOf calls ++ call.report.toList := by
  rw [reportsOf, List.filterMap_append, ← reportsOf]
  cases found : call.report <;> simp [found]

/-- A step took a route with evidence after the report as the current one. -/
def Found (steps : List CoordinatorEvent) (report : CoordinatorReport) : Prop :=
  ∃ step ∈ steps, ∃ route, CoordinatorMachine.Installs step route ∧
    route.key = report.route.key ∧ route.evidence.isAfter report.observedAt = true

/-- A run that succeeds : every completion is told or held, and newer evidence was found for the
callers told so. -/
theorem run_truthful (lim : CoordinatorLimits)
    (ok : ∀ e ∈ trace (step build) (new lim) calls, e.answer.failure = none) :
    Truthful lim (reportsOf calls) (final (step build) (new lim) calls) ∧
      (told ((trace (step build) (new lim) calls).flatMap (·.answer.fates)) ++
        (final (step build) (new lim) calls).held).Perm ((reportsOf calls).map (·.completion)) ∧
      ∀ e ∈ trace (step build) (new lim) calls, ∀ done,
        .invalidated done .applied ∈ e.answer.fates →
          ∃ report ∈ reportsOf calls, report.completion = done ∧ Found e.answer.steps report := by
  revert ok
  refine run_induction (step build) (P := fun calls past o =>
    (∀ e ∈ past, e.answer.failure = none) → Truthful lim (reportsOf calls) o ∧
      (told (past.flatMap (·.answer.fates)) ++ o.held).Perm ((reportsOf calls).map (·.completion)) ∧
      ∀ e ∈ past, ∀ done, .invalidated done .applied ∈ e.answer.fates →
        ∃ report ∈ reportsOf calls, report.completion = done ∧
          Found e.answer.steps report) ?_ ?_ calls
  · intro _
    exact ⟨new_truthful lim, .refl _, fun _ mem => absurd mem List.not_mem_nil⟩
  · intro calls call ih ok
    obtain ⟨truthful, hc, ha⟩ :=
      ih fun e mem => ok e (List.mem_append_left _ mem)
    generalize final (step build) (new lim) calls = o at *
    have old : reportsOf calls ⊆ reportsOf (calls ++ [call]) := by
      rw [reportsOf_concat]
      exact List.subset_append_left _ _
    have hh (report : CoordinatorReport) (hm : call.report = some report) :
        report ∈ reportsOf (calls ++ [call]) := by
      rw [reportsOf_concat, hm]
      exact List.mem_append_right _ List.mem_cons_self
    have hr := step_rested (truthful.more old) hh
      (ok (event (step build) o call) (List.mem_append_right _ List.mem_cons_self))
    refine ⟨hr.truthful, ?_, ?_⟩
    · rw [List.flatMap_append, List.flatMap_singleton, told_append, List.append_assoc]
      refine (hr.conserved.append_left _).trans ?_
      rw [reportsOf_concat, List.map_append]
      have hh : call.report.toList.map (·.completion) = handedIn call := by
        unfold handedIn
        cases call.report <;> rfl
      rw [hh]
      exact (List.perm_append_comm_assoc _ _ _).trans
        ((hc.append_left _).trans List.perm_append_comm)
    · intro e mem done hi
      rcases List.mem_append.1 mem with past | last
      · obtain ⟨report, rep, hs, hf⟩ := ha e past done hi
        exact ⟨report, old rep, hs, hf⟩
      · obtain rfl := List.mem_singleton.1 last
        obtain ⟨report, rep, hs, hf⟩ := hr.applied done hi
        exact ⟨report, rep, hs, hf⟩

/-- The discovery of an entry is under way : a call is outstanding, or a retry is scheduled. -/
def InProgress (entry : CoordinatorEntry) : Prop :=
  (∃ d pending, entry.machine.state = .discovering d ∧ entry.pending = some pending ∧
    pending.operationId = d.operationId ∧ pending.epoch = d.targetEpoch) ∨
  ∃ d due, entry.machine.state = .retrying d due

/-- A barrier waits for a discovery that is under way. -/
theorem inProgress_of_steady (hst : entry.Steady reports) (hg : entry.invalidation = some i) :
    entry.machine.revocationPending i.target = true ∧ InProgress entry := by
  obtain ⟨r, hr, hi, -⟩ := hst.barred i hg
  have hm := hst.manned
  refine ⟨?_, ?_⟩
  · rw [revocationPending, hr]
    exact hi
  · obtain ⟨act, -⟩ := hst.withdrawn (by rw [hr]; rfl)
    unfold CoordinatorEntry.Manned at hm
    cases state : entry.machine.state with
    | discovering d =>
      rw [state] at hm
      obtain ⟨p, sent, hs⟩ := Option.map_eq_some_iff.1 hm
      obtain ⟨op, e⟩ := Prod.mk.inj hs
      exact .inl ⟨d, p, state, sent, op, e⟩
    | retrying d due => exact .inr ⟨d, due, state⟩
    | unknown e | ready rt =>
      rw [state] at act
      cases act

/-- A caller whose route is not the one of the barrier held is answered at once, and the machine
too would call it stale. -/
theorem stale_of_other (h : Truthful limits reports o) {rt : CoordinatorRoute}
    (hf : o.entry rt.key = some entry) (hg : entry.invalidation = some i)
    (ne : i.matchesRoute rt = false) (seen : OutcomeStamp) (done : ℕ)
    (rpc : CoordinatorRpc) :
    step build o (.invalidate rt seen done evidence rpc) =
        (o, ⟨[.invalidated done .ignoredStale], [], none⟩) ∧
      ∀ id, entry.machine.apply (.invalidate rt seen id) = (entry.machine, .stale) := by
  obtain ⟨k, his, here⟩ := Option.bind_eq_some_iff.1 hf
  refine ⟨?_, fun id => ?_⟩
  · have hgu : (entry.invalidation.any fun i => !i.matchesRoute rt) = true := by
      rw [hg, Option.any_some, ne]
      rfl
    have ha : operation build (.invalidate rt seen done evidence rpc)
        ⟨o, [], []⟩ = .ok () ⟨o, [.invalidated done .ignoredStale], []⟩ := by
      change invalidate rt seen done evidence rpc ⟨o, [], []⟩ = _
      simp [invalidate, entryAt, tell, his, here, hgu, bind, EStateM.bind, pure, EStateM.pure,
        show ∀ s, (get : CoordinatorM _) s = .ok s s from fun _ => rfl,
        show ∀ f s, (modify f : CoordinatorM _) s = .ok () (f s) from fun _ _ => rfl]
    unfold step
    rw [ha]
  · have hs := h.steady entry (List.mem_of_getElem? here)
    obtain ⟨r, hr, hi, -⟩ := hs.barred i hg
    refine invalidate_of_other hs.withdrawn hr ?_ seen id
    by_contra same
    have hre : i.target.isSameTarget rt = true :=
      CoordinatorRoute.isSameTarget_trans (CoordinatorRoute.isSameTarget_symm hi)
        ((Bool.not_eq_false _).mp same)
    rw [CoordinatorInvalidation.matchesRoute, hre] at ne
    cases ne

/-- Barriers are live and their callers are told the truth : a barrier that is held waits for a
discovery that is under way; a completion handed in is told once or held, within the limit;
callers told `applied` have a route with later evidence than their report; and a caller turned
away because of another barrier would have been stale in the machine. -/
theorem coordinator_barriers_truthful (build : Build) (limits : CoordinatorLimits)
    (calls : List CoordinatorCall)
    (succeeded : ∀ e ∈ trace (step build) (new limits) calls, e.answer.failure = none)
    (distinct : ((reportsOf calls).map (·.completion)).Nodup) :
    (∀ entry ∈ (final (step build) (new limits) calls).entries, ∀ i,
      entry.invalidation = some i →
        entry.machine.revocationPending i.target = true ∧ InProgress entry) ∧
    (∀ report ∈ reportsOf calls,
      (told ((trace (step build) (new limits) calls).flatMap (·.answer.fates))).count
        report.completion +
      (final (step build) (new limits) calls).held.count report.completion = 1) ∧
    (final (step build) (new limits) calls).invalidationSubscribers =
      (final (step build) (new limits) calls).held.length ∧
    (final (step build) (new limits) calls).invalidationSubscribers ≤
      limits.invalidationWaiters.get ∧
    (∀ e ∈ trace (step build) (new limits) calls, ∀ report ∈ reportsOf calls,
      .invalidated report.completion .applied ∈ e.answer.fates → Found e.answer.steps report) ∧
    (∀ e ∈ trace (step build) (new limits) calls,
      ∀ route observedAt completion evidence rpc entry i,
        e.input = .invalidate route observedAt completion evidence rpc →
        e.before.entry route.key = some entry → entry.invalidation = some i →
        i.matchesRoute route = false → e.answer.fates = [.invalidated completion .ignoredStale] ∧
          ∀ id, entry.machine.apply (.invalidate route observedAt id) =
            (entry.machine, .stale)) := by
  obtain ⟨truthful, hc, ha⟩ := run_truthful build calls limits succeeded
  refine ⟨fun entry mem i held => inProgress_of_steady (truthful.steady entry mem) held,
    ?_, truthful.count, truthful.within, ?_, ?_⟩
  · intro report hr
    rw [← List.count_append, hc.count_eq]
    exact List.count_eq_one_of_mem distinct (List.mem_map_of_mem hr)
  · intro e mem report hr hi
    obtain ⟨earlier, hh, same, hf⟩ := ha e mem report.completion hi
    rwa [List.inj_on_of_nodup_map distinct hh hr same] at hf
  · intro e mem route observedAt completion evidence rpc entry i his hf held ho
    obtain ⟨past, rest, split⟩ := List.append_of_mem mem
    obtain ⟨js, call, rfl, rfl⟩ := of_trace_eq_append_cons (step build) split
    obtain rfl := his
    have pre := (run_truthful build js limits fun e mem =>
      succeeded e (by rw [split]; exact List.mem_append_left _ mem)).1
    obtain ⟨ans, hs⟩ :=
      stale_of_other evidence build pre hf held ho observedAt completion rpc
    refine ⟨?_, hs⟩
    unfold event
    dsimp only
    rw [ans]

/-! ### A run with two reports -/

/-- Room for four of everything. -/
def fourLimits : CoordinatorLimits :=
  ⟨.four, .four, ⟨4000, by decide, by decide⟩, .four, .four⟩

/-- A broker that takes every discovery. -/
def willing : CoordinatorRpc := ⟨some ⟨3⟩, true, true⟩

/-- Broker 1 is found. -/
def answering (evidence : EvidenceStamp) : CoordinatorCall :=
  .drive ⟨fun _ => willing, fun _ => .responded ⟨0, 1, "broker", 9092, []⟩, fun _ => willing,
    true, fun _ => willing⟩ ⟨5⟩ evidence

/-- The coordinator is found, and is reported to have failed, as is a broker it never was; then
it is found again. -/
def reportedTwice : List CoordinatorCall :=
  [.waitFor ⟨ordersKey, 0, ⟨1, .bulk, 5000, none, 8, false⟩⟩
      (some ⟨true, fun _ => willing⟩) ⟨0⟩ ⟨1⟩,
    answering ⟨2⟩,
    .invalidate (ordersRoute ⟨1⟩ ⟨1⟩) ⟨3⟩ 7 ⟨4⟩ willing,
    .invalidate { ordersRoute ⟨1⟩ ⟨1⟩ with brokerId := ⟨2⟩ } ⟨3⟩ 8 ⟨4⟩ willing,
    answering ⟨5⟩]

/-- The first caller waits for the second discovery. -/
theorem coordinator_barriers_truthful_reportedTwice :
    (∃ e ∈ trace (step .release) (new fourLimits) reportedTwice,
      .invalidated 8 .ignoredStale ∈ e.answer.fates) ∧
    (∀ entry ∈ (final (step .release) (new fourLimits) (reportedTwice.take 4)).entries, ∀ i,
      entry.invalidation = some i →
        entry.machine.revocationPending i.target = true ∧ InProgress entry) ∧
    ∃ e ∈ trace (step .release) (new fourLimits) reportedTwice,
      .invalidated 7 .applied ∈ e.answer.fates ∧
        Found e.answer.steps ⟨7, ordersRoute ⟨1⟩ ⟨1⟩, ⟨3⟩⟩ := by
  have hh := coordinator_barriers_truthful .release fourLimits (reportedTwice.take 4)
    (by decide +kernel) (by decide +kernel)
  obtain ⟨-, -, -, -, ha, -⟩ := coordinator_barriers_truthful .release fourLimits
    reportedTwice (by decide +kernel) (by decide +kernel)
  refine ⟨by decide +kernel, hh.1, ?_⟩
  obtain ⟨e, mem, ht⟩ : ∃ e ∈ trace (step .release) (new fourLimits) reportedTwice,
      .invalidated 7 .applied ∈ e.answer.fates := by
    decide +kernel
  exact ⟨e, mem, ht, ha e mem _ (by decide +kernel) ht⟩

end CoordinatorOwner

end KafkaDriver
