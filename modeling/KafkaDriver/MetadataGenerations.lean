import KafkaDriver.MetadataDemand
import KafkaDriver.LeaderEpochs

/-!
# Metadata generations

A snapshot is installed under the generation that was reserved for its fetch. The machine
computes that generation in three places : when a demand starts a fetch, when a success goes on
with the next query, and when a failure does. `nextGeneration` is the generation the next
install will take, in every state, and only an install changes it (`Reserved.generates`). So
generations count the installs of a run (`generations_count_installs`).
-/

namespace KafkaDriver

open List Runs MetadataMachine

namespace MetadataMachine

/-- The generation the next snapshot will be installed under. -/
def nextGeneration (m : MetadataMachine) : Option MetadataGeneration :=
  match m.state with
  | .empty generation => some generation
  | .refreshing _ _ _ targetGeneration _ => some targetGeneration
  | .ready snapshot => snapshot.generation.next

/-- The generation reserved for the next snapshot is the one after the current snapshot's. -/
def Reserved (m : MetadataMachine) : Prop :=
  ∀ snapshot, m.current = some snapshot → m.nextGeneration = snapshot.generation.next

/-! ## One input -/

variable (snapshot : MetadataSnapshot) (fu : OperationId)

theorem generation_revoke (tgt : InvalidationTarget) :
    (tgt.revoke snapshot).generation = snapshot.generation := by
  cases tgt <;> rfl

theorem generation_apply (r : MetadataRevocations) (q : MetadataQuery) :
    (r.apply snapshot q).2.generation = snapshot.generation := by
  unfold MetadataRevocations.apply MetadataRevocations.applyController MetadataSnapshot.generation
  rw [MetadataRevocations.withdrawAll_brokers]
  cases r.controller with
  | none => rfl
  | some rev =>
    dsimp only
    split_ifs <;> rfl

variable {m m' : MetadataMachine} {query : MetadataQuery} {operationId : OperationId}
  {res : MetadataMachine × MetadataTransition}

theorem nextGeneration_mapCurrent (m : MetadataMachine) (tgt : InvalidationTarget) :
    (m.mapCurrent tgt.revoke).nextGeneration = m.nextGeneration := by
  unfold mapCurrent nextGeneration
  cases m.state with
  | ready snap => exact congrArg MetadataGeneration.next (generation_revoke snap tgt)
  | empty | refreshing => rfl

theorem Admission.nextGeneration_eq (ha : Admission m query operationId res) :
    res.1.nextGeneration = m.nextGeneration := by
  cases ha with
  | coalesced | full | exhausted => rfl
  | queued st => simp [nextGeneration, st]
  | started hi =>
    rcases hi with st | ⟨snapshot, st, next⟩
    · simp [nextGeneration, st, start, restart]
    · simp [nextGeneration, st, next, start, restart]

/-- A failure takes no generation. -/
theorem Reserved.fail_nextGeneration (hr : m.Reserved) (operationId : OperationId) :
    (m.fail operationId fu).1.nextGeneration = m.nextGeneration := by
  unfold fail
  split
  · rename_i current want query target queued st
    split_ifs
    · rfl
    split
    · cases current with
      | none => simp [nextGeneration, st]
      | some snapshot => exact (hr snapshot (by simp [current, st])).symm
    · simp [restart, nextGeneration, st]
  · rfl

/-- What one input does to the current snapshot and the next generation. -/
inductive Generates (m : MetadataMachine) (input : MetadataInput) : Prop
  | keeps (unapplied : appliedRefresh (event apply m input) = none)
      (generation : (m.apply input).1.nextGeneration = m.nextGeneration)
      (current : (m.apply input).1.current = m.current)
  | revokes {target : InvalidationTarget} {observedAt : OutcomeStamp}
      (invalidates : input.invalidation = some (target, observedAt))
      (generation : (m.apply input).1.nextGeneration = m.nextGeneration)
      (current : (m.apply input).1.current = m.current.map target.revoke)
  | installs {snapshot installed : MetadataSnapshot} {previous : Option MetadataSnapshot}
      {operationId : OperationId} {queued : List MetadataQuery} {query : MetadataQuery}
      (applied : appliedRefresh (event apply m input) = some (query, snapshot))
      (state : m.state = .refreshing previous operationId query snapshot.generation queued)
      (current : (m.apply input).1.current = some installed)
      (generation : installed.generation = snapshot.generation)
      (next : (m.apply input).1.nextGeneration = snapshot.generation.next)

theorem Admission.generates {i : MetadataInput} (eq : m.apply i = res)
    (d : i.demand ≠ none) (adm : Admission m query operationId res) :
    Generates m i := by
  subst eq
  refine .keeps ?_ adm.nextGeneration_eq adm.current_eq
  cases i with
  | refreshSucceeded => exact absurd rfl d
  | _ => rfl

theorem invalidateTarget_generates {i : MetadataInput} {tgt : InvalidationTarget}
    {t : OutcomeStamp} (hi : i.invalidation = some (tgt, t))
    (eq : m.apply i = m.invalidateTarget tgt t operationId) :
    Generates m i := by
  have hu : appliedRefresh (event apply m i) = none := by
    cases i with
    | refreshSucceeded => cases hi
    | _ => rfl
  have inv := m.invalidateTarget_invalidation t operationId tgt
  rw [← eq] at inv
  generalize applied : m.apply i = res at inv
  cases inv with
  | ignored | refused | covered => exact .keeps hu (by rw [applied]) (by rw [applied])
  | @withdrawn m' tr adm =>
    refine .revokes hi ?_ ?_
    · rw [applied]
      exact (nextGeneration_mapCurrent m' tgt).trans adm.nextGeneration_eq
    · rw [applied]
      exact (mapCurrent_current m' tgt.revoke).trans (congrArg _ adm.current_eq)

/-- After an install the next generation is the one after the snapshot's. -/
theorem install_nextGeneration (m : MetadataMachine) (queued : List MetadataQuery) :
    (m.install snapshot queued fu).1.nextGeneration = snapshot.generation.next := by
  unfold install
  split
  · rfl
  split
  · rfl
  · rename_i next
    rw [next]
    rfl

theorem install_disposition (m : MetadataMachine) (queued : List MetadataQuery) :
    (m.install snapshot queued fu).2.disposition = .applied := by
  unfold install
  split
  · rfl
  · split <;> rfl

/-- A report of the fetch in flight that does not regress is installed. -/
theorem appliedRefresh_of_kept {previous : Option MetadataSnapshot} {op : OperationId}
    {q : MetadataQuery} {queued : List MetadataQuery}
    (st : m.state = .refreshing previous op q snapshot.generation queued)
    (kept : regresses q snapshot previous = false) :
    appliedRefresh (event apply m (.refreshSucceeded op snapshot fu)) = some (q, snapshot) := by
  simp [appliedRefresh, event, apply, succeed, st, kept, install_disposition]

theorem Reserved.succeed_generates (hre : m.Reserved) (op : OperationId) :
    Generates m (.refreshSucceeded op snapshot fu) := by
  cases applied : appliedRefresh (event apply m (.refreshSucceeded op snapshot fu)) with
  | some install =>
    obtain ⟨q, rep⟩ := install
    obtain ⟨prev, _, queued, _, st, eq, hm, cur⟩ := of_appliedRefresh applied
    obtain ⟨rfl, rfl, rfl⟩ := MetadataInput.refreshSucceeded.inj eq
    refine .installs applied st cur (generation_apply _ _ _) ?_
    simp only [apply, succeed, st, ne_eq, not_true_eq_false, or_self, if_false, hm,
      Bool.false_eq_true]
    rw [install_nextGeneration, generation_apply]
  | none =>
    cases own : m.Completes (.refreshSucceeded op snapshot fu) with
    | false => exact .keeps applied (by rw [apply_stale rfl own]) (by rw [apply_stale rfl own])
    | true =>
      obtain ⟨⟨want, gen, q⟩, hg, hs⟩ := (Option.any_eq_true _ _).1 own
      obtain ⟨rfl, rfl⟩ : op = want ∧ snapshot.generation = gen := by
        simpa using hs
      obtain ⟨prev, queued, st⟩ := awaiting_eq_some.1 hg
      cases regressed : regresses q snapshot prev with
      | true =>
        have hf : (m.apply (.refreshSucceeded op snapshot fu)).1 = (m.fail op fu).1 := by
          simp [apply, succeed, st, regressed]
        exact .keeps applied (hf ▸ hre.fail_nextGeneration fu op) (hf ▸ (m.fail_kept op fu).1)
      | false =>
        rw [appliedRefresh_of_kept snapshot fu st regressed] at applied
        cases applied

theorem Reserved.generates (hr : m.Reserved) (i : MetadataInput) : Generates m i := by
  cases i with
  | resolve q op | refresh q op =>
    exact (m.admitQuery_admission q op _).generates rfl nofun
  | invalidateBrokerRoute rt t op | invalidatePartitionRoute rt t op =>
    exact invalidateTarget_generates rfl rfl
  | refreshSucceeded op snap fu =>
    exact hr.succeed_generates snap fu op
  | refreshFailed op fu =>
    exact .keeps rfl (hr.fail_nextGeneration fu op) (m.fail_kept op fu).1

theorem Reserved.step (hr : m.Reserved) (i : MetadataInput) : (m.apply i).1.Reserved := by
  cases hr.generates i with
  | keeps _ gen cur =>
    intro snap hg
    rw [gen]
    exact hr snap (cur ▸ hg)
  | revokes _ gen cur =>
    intro snap hg
    rw [cur] at hg
    obtain ⟨pre, hk, rfl⟩ := Option.map_eq_some_iff.1 hg
    rw [gen, generation_revoke]
    exact hr pre hk
  | installs _ _ cur gen next =>
    intro snap hg
    obtain rfl := Option.some.inj (cur.symm.trans hg)
    rw [next, gen]

/-! ## Every run -/

/-- The generations a run installed. -/
def installsOf (run : List MetadataEvent) : List MetadataGeneration :=
  run.filterMap fun e => (appliedRefresh e).map fun refreshed => refreshed.2.generation

/-- How a run from `start` uses its generations. -/
structure GenerationLaw (initial : MetadataGeneration) (start : MetadataMachine)
    (inputs : List MetadataInput) : Prop where
  target : ∀ current operationId query target queued,
    (final apply start inputs).state =
      .refreshing current operationId query target queued →
    match current with
    | some snapshot => snapshot.generation.next = some target
    | none => target = initial ∧ installsOf (trace apply start inputs) = []
  installed : ∀ e ∈ trace apply start inputs, ∀ query snapshot,
    appliedRefresh e = some (query, snapshot) →
    (∃ previous operationId queued,
      e.before.state = .refreshing previous operationId query snapshot.generation queued) ∧
    ∃ installed, e.after.current = some installed ∧ installed.generation = snapshot.generation
  installs : ∀ e ∈ trace apply start inputs, ∀ previous operationId query snapshot queued followup,
    e.before.state = .refreshing previous operationId query snapshot.generation queued →
    e.input = .refreshSucceeded operationId snapshot followup →
    regresses query snapshot previous = false → appliedRefresh e = some (query, snapshot)
  consecutive : (installsOf (trace apply start inputs)).map MetadataGeneration.raw =
    range' initial.raw (installsOf (trace apply start inputs)).length
  kept : ∀ e ∈ trace apply start inputs, appliedRefresh e = none →
    e.after.nextGeneration = e.before.nextGeneration ∧
    (e.after.current = e.before.current ∨ ∃ target observedAt,
      e.input.invalidation = some (target, observedAt) ∧
      e.after.current = e.before.current.map target.revoke)
  stale : ∀ e ∈ trace apply start inputs, e.input.demand = none →
    e.before.Completes e.input = false → e.after = e.before ∧ e.answer = .stale

/-- What holds along a run : the reserved generation, and the installs counted by it. -/
structure Counts (initial : MetadataGeneration) (run : List MetadataEvent) (m : MetadataMachine) :
    Prop where
  reserved : m.Reserved
  consecutive : (installsOf run).map MetadataGeneration.raw =
    range' initial.raw (installsOf run).length
  next : ∀ generation, m.nextGeneration = some generation →
    generation.raw = initial.raw + (installsOf run).length
  unset : m.current = none → installsOf run = []

variable {initial : MetadataGeneration} {run : List MetadataEvent}

theorem installsOf_concat (run : List MetadataEvent) (e : MetadataEvent) :
    installsOf (run ++ [e]) =
      installsOf run ++ ((appliedRefresh e).map fun install => install.2.generation).toList := by
  rw [installsOf, filterMap_append, ← installsOf]
  cases applied : appliedRefresh e <;> simp [applied]

/-- A step that installs nothing leaves the count as it is. -/
theorem Counts.kept (hc : Counts initial run m) {e : MetadataEvent}
    (hu : appliedRefresh e = none) (hr : m'.Reserved)
    (gen : m'.nextGeneration = m.nextGeneration)
    (hk : m'.current = none → m.current = none) : Counts initial (run ++ [e]) m' := by
  have hs : installsOf (run ++ [e]) = installsOf run := by simp [installsOf_concat, hu]
  refine ⟨hr, ?_, ?_, ?_⟩
  · rw [hs]
    exact hc.consecutive
  · rw [hs, gen]
    exact hc.next
  · rw [hs]
    exact fun hun => hc.unset (hk hun)

theorem Counts.step (hc : Counts initial run m) (i : MetadataInput) :
    Counts initial (run ++ [event apply m i]) (m.apply i).1 := by
  have hr := hc.reserved.step i
  cases hc.reserved.generates i with
  | keeps hun gen cur =>
    exact hc.kept hun hr gen fun hu => cur ▸ hu
  | revokes hi gen cur =>
    refine hc.kept ?_ hr gen fun hu => ?_
    · cases i with
      | refreshSucceeded => cases hi
      | _ => rfl
    · rw [cur] at hu
      exact Option.map_eq_none_iff.1 hu
  | @installs snapshot installed previous operationId queued query applied state cur gen
      next =>
    have n : snapshot.generation.raw = initial.raw + (installsOf run).length :=
      hc.next snapshot.generation (by simp [nextGeneration, state])
    have more : installsOf (run ++ [event apply m i]) =
        installsOf run ++ [snapshot.generation] := by
      simp [installsOf_concat, applied]
    refine ⟨hr, ?_, ?_, fun hu => ?_⟩
    · rw [more, map_append, hc.consecutive, length_append, length_singleton,
        range'_concat, map_singleton, n, Nat.one_mul]
    · intro generation hg
      rw [next] at hg
      obtain ⟨-, rfl⟩ := MetadataGeneration.next_eq_some.1 hg
      rw [more, length_append, length_singleton, n, Nat.add_assoc]
    · rw [cur] at hu
      cases hu

/-- Generations are consumed exactly by installs, one each. -/
theorem generations_count_installs (initial : MetadataGeneration) (limits : MetadataQueryLimits)
    (inputs : List MetadataInput) :
    GenerationLaw initial (withQueryLimits initial limits) inputs := by
  have hc : ∀ inputs, Counts initial (trace apply (withQueryLimits initial limits) inputs)
      (final apply (withQueryLimits initial limits) inputs) := by
    refine run_induction apply (P := fun _ run m => Counts initial run m) ?_ ?_
    · refine ⟨nofun, rfl, ?_, fun _ => rfl⟩
      rintro gen ⟨⟩
      rfl
    · intro before input hc
      exact hc.step input
  -- a step of the run is taken in a state that keeps the count
  have hg : ∀ e ∈ trace apply (withQueryLimits initial limits) inputs,
      ∃ m input, e = event apply m input ∧ Generates m input := by
    intro e mem
    obtain ⟨before, input, rfl⟩ := of_mem_trace apply mem
    exact ⟨_, input, rfl, (hc before).reserved.generates input⟩
  refine ⟨?_, ?_, ?_, (hc inputs).consecutive, ?_, ?_⟩
  · intro current operationId query target queued st
    have next : (final apply (withQueryLimits initial limits) inputs).nextGeneration =
        some target := by simp [nextGeneration, st]
    have hk : (final apply (withQueryLimits initial limits) inputs).current = current := by
      simp [MetadataMachine.current, st]
    cases current with
    | some snapshot => exact ((hc inputs).reserved snapshot hk).symm.trans next
    | none =>
      have hun := (hc inputs).unset hk
      have first := (hc inputs).next target next
      rw [hun] at first
      exact ⟨congrArg MetadataGeneration.mk first, hun⟩
  · intro e mem query snapshot ha
    obtain ⟨m, input, rfl, hg⟩ := hg e mem
    cases hg with
    | keeps hu => simp [hu] at ha
    | revokes hi =>
      cases input with
      | refreshSucceeded => cases hi
      | _ => cases ha
    | installs hr st current gen next =>
      obtain ⟨rfl, rfl⟩ := Prod.mk.inj (Option.some.inj (hr.symm.trans ha))
      exact ⟨⟨_, _, _, st⟩, _, current, gen⟩
  · intro e mem previous operationId query snapshot queued followup st input kept
    obtain ⟨m, _, rfl, -⟩ := hg e mem
    obtain rfl : _ = MetadataInput.refreshSucceeded operationId snapshot followup := input
    exact appliedRefresh_of_kept snapshot followup st kept
  · intro e mem hu
    obtain ⟨m, input, rfl, hg⟩ := hg e mem
    cases hg with
    | keeps _ gen current => exact ⟨gen, .inl current⟩
    | revokes hi gen current =>
      exact ⟨gen, .inr ⟨_, _, hi, current⟩⟩
    | installs ha => simp [ha] at hu
  · intro e mem outcome ho
    obtain ⟨m, input, rfl, -⟩ := hg e mem
    have hs := apply_stale outcome ho
    exact ⟨congrArg Prod.fst hs, congrArg Prod.snd hs⟩

end MetadataMachine

end KafkaDriver
