import KafkaDriver.OwnerMoves

/-!
# What a call does to the metadata owner

Seen from its machine, its fetches and its barriers, every move of the owner is one of a few
`OwnerStep`s : `quiet` steps leave the machine and the fetches alone, `submitted` sends a fetch
that was kept, and the others give the machine one input and carry out its effects, together
with what the owner does to its barriers around that input. What every step keeps, every call
(`step_steps`) and every run keeps.
-/

namespace KafkaDriver

open Fallible List TopicViewWaiters MetadataFate Waiters MetadataMachine

/-- A view was delivered. -/
def MetadataFate.IsView (fate : MetadataFate) : Prop :=
  ∃ topic requirement completion view, fate = .viewed topic requirement completion (.ok view)

namespace MetadataFate

theorem not_isView_failed (req : Request) (err : RequestError) : ¬ (failed req err).IsView := nofun

theorem not_isView_error (ws : WaitingTopicView) (err : TopicViewError) :
    ¬ (ws.complete (.error err)).IsView := by
  rintro ⟨_, _, _, _, view⟩
  cases view

/-- What a demand for a view is told. -/
def ofView : MetadataFate → Bool
  | viewed _ _ _ _ => true
  | _ => false

theorem not_isView_of_ofView {f : MetadataFate} (ne : f.ofView = false) : ¬ f.IsView := by
  rintro ⟨_, _, _, _, rfl⟩
  cases ne

end MetadataFate

namespace WaitClass

/-- Waiters that are refused, expire or find no room get no view. -/
theorem not_isView_refused (c : WaitClass) (maxC maxB : NonZeroUsize)
    (value : c.Subject) : ¬ (c.policy.refused maxC maxB value).IsView := by
  cases c with
  | partition | controller => exact not_isView_failed _ _
  | view => exact not_isView_error _ _

theorem not_isView_expired (c : WaitClass) (value : c.Subject) :
    ¬ (c.policy.expired value).IsView := by
  cases c with
  | partition | controller => exact not_isView_failed _ _
  | view => exact not_isView_error _ _

theorem not_isView_crowdedOut (c : WaitClass) (o : MetadataOwner) (value : c.Subject) :
    ¬ (c.crowdedOut o value).IsView := by
  cases c with
  | partition | controller => exact not_isView_failed _ _
  | view => exact not_isView_error _ _

/-- Only a demand for a view is answered as one. -/
theorem ofView_examined {c : WaitClass} (ne : c ≠ .view) {reserve : ℕ → Bool}
    {m : MetadataMachine} {v : c.Subject} {f : MetadataFate}
    (hs : c.examine reserve m v = some f) : f.ofView = false := by
  cases c with
  | partition =>
    simp only [examine, PartitionWaiters.examine] at hs
    split at hs
    · cases hs
      rfl
    · split_ifs at hs
      cases hs
      rfl
  | controller =>
    simp only [examine, ControllerWaiters.examine] at hs
    split at hs
    · cases hs
      rfl
    · split_ifs at hs
      cases hs
      rfl
  | view => exact absurd rfl ne

theorem demand_isDemand (c : WaitClass) (value : c.Subject) (id : OperationId) :
    MetadataOwner.IsDemand (c.demand value id) := by
  cases c with
  | partition | controller => exact .resolve _ _
  | view =>
    change MetadataOwner.IsDemand (if _ then _ else _)
    split_ifs
    · exact .refresh _ _
    · exact .resolve _ _

end WaitClass

namespace MetadataCall

/-- The invalidation a call asks for. -/
def invalidation (call : MetadataCall) : Option (InvalidationTarget × OutcomeStamp) :=
  call.barrier.map fun (target, observedAt, _) => (target, observedAt)

end MetadataCall

namespace MetadataOwner

/-- The demands for views a call holds against the current snapshot. -/
def examines (o : MetadataOwner) : MetadataCall → List (TopicName × TopicViewRequirement)
  | .drainTopicViewWaiters _ now =>
    ((o.topicViews.front o.limits.topicViewAdmissionBudget).filter fun entry =>
      now < entry.deadline ∧ entry.value.value.terminal = none).map fun entry =>
        (entry.value.value.topic, entry.value.value.requirement)
  | .processTopicView _ topic newerThan deadline _ _ _ now _ =>
    if now < deadline then [(topic, requirementOf newerThan)] else []
  | _ => []

/-! ## Steps -/

/-- What a turn may do to the barriers on its own. -/
inductive BarrierStep (machine : MetadataMachine) (i : MetadataInvalidations) :
    MetadataInvalidations → Prop
  | same : BarrierStep machine i i
  | begun : BarrierStep machine i i.beginScan
  | scanned (budget : NonZeroUsize) : BarrierStep machine i (i.scan machine budget).1
  | failed : BarrierStep machine i i.failAll.1

variable (o : MetadataOwner) (call : MetadataCall)

/-- A delivered view was examined by the call, in the snapshot the call started with. -/
def Justified (t : OwnerTurn) (fate : MetadataFate) : Prop :=
  ∀ topic requirement completion view, fate = .viewed topic requirement completion (.ok view) →
    t.inputs = [] ∧ t.owner.machine = o.machine ∧ (topic, requirement) ∈ o.examines call ∧
      ∃ reserve, projected reserve o.machine topic requirement = .ok (some view)

/-- Neither the machine nor a fetch changes. -/
structure Quiet (t t' : OwnerTurn) : Prop where
  machine : t'.owner.machine = t.owner.machine
  slots : t'.owner.slots = t.owner.slots
  inputs : t'.inputs = t.inputs
  invalidations : BarrierStep t.owner.machine t.owner.invalidations t'.owner.invalidations
  views : t.owner.topicViews.Scannable → t'.owner.topicViews.Scannable
  fates : ∃ told, t'.fates = t.fates ++ told ∧ ∀ fate ∈ told, Justified o call t fate

/-- The machine gets an input and no view is delivered. -/
structure Applies (input : MetadataInput) (t t' : OwnerTurn) : Prop where
  machine : t'.owner.machine = (t.owner.machine.apply input).1
  inputs : t'.inputs = t.inputs ++ [input]
  views : t.owner.topicViews.Scannable → t'.owner.topicViews.Scannable
  fates : ∃ told, t'.fates = t.fates ++ told ∧ ∀ fate ∈ told, ¬ fate.IsView

/-- An input that reports what became of a fetch. -/
inductive IsOutcome (o : MetadataOwner) (fetch : MetadataFetch) : MetadataInput → Prop
  | failed (followup : OperationId) : IsOutcome o fetch (.refreshFailed fetch.operationId followup)
  | succeeded {response : MetadataResponse} {snapshot : MetadataSnapshot}
      (built : response.snapshotFromResponse (provenance fetch) o.machine.current
        o.limits.brokerDirectory o.limits.partitionLeaders = .ok snapshot)
      (followup : OperationId) :
      IsOutcome o fetch (.refreshSucceeded fetch.operationId snapshot followup)

/-- One step of a call of an owner `o`. -/
inductive OwnerStep : OwnerTurn → OwnerTurn → Prop
  | quiet {t t' : OwnerTurn} (h : Quiet o call t t') : OwnerStep t t'
  | submitted {t : OwnerTurn} {fetch : MetadataFetch} (kept : t.owner.requested = some fetch)
      (free : t.owner.pending = none) :
      OwnerStep t (t.withOwner fun o =>
        { o with pending := some fetch, requested := none, initialRefresh := false })
  | demanded {t t' : OwnerTurn} {input : MetadataInput} (evidence : EvidenceStamp)
      (demand : IsDemand input) (applies : Applies input t t')
      (sends : Sends evidence (t.owner.machine.apply input).2.effects t.owner.slots t'.owner.slots)
      (barriers : t'.owner.invalidations = t.owner.invalidations) : OwnerStep t t'
  | invalidated {t t' : OwnerTurn} {target : InvalidationTarget} {observedAt : OutcomeStamp}
      {operationId : OperationId} (evidence : EvidenceStamp) (completion : ℕ)
      (asked : call.invalidation = some (target, observedAt))
      (first : t.owner.machine = o.machine)
      (applies : Applies (invalidationInput target observedAt operationId) t t')
      (sends : Sends evidence
        (t.owner.machine.apply (invalidationInput target observedAt operationId)).2.effects
        t.owner.slots t'.owner.slots)
      (barriers : t'.owner.invalidations = (subscribed t.owner.invalidations target completion
        (t.owner.machine.apply
          (invalidationInput target observedAt operationId)).2.disposition).1) :
      OwnerStep t t'
  | completed {t t' : OwnerTurn} {fetch : MetadataFetch} {input : MetadataInput}
      (evidence : EvidenceStamp) (held : t.owner.pending = some fetch)
      (outcome : IsOutcome t.owner fetch input)
      (applies : Applies input t t')
      (sends : Sends evidence (t.owner.machine.apply input).2.effects (none, t.owner.requested)
        t'.owner.slots)
      (barriers : t'.owner.invalidations = t.owner.invalidations.beginScan) : OwnerStep t t'

variable {o call} {t t' : OwnerTurn}

variable (i : MetadataInvalidations) (target : InvalidationTarget)

theorem apply_invalidationInput (m : MetadataMachine) (seen : OutcomeStamp) (op : OperationId) :
    m.apply (invalidationInput target seen op) = m.invalidateTarget target seen op := by
  cases target <;> rfl

/-! ## Moves as steps -/

theorem Reports.isOutcome {fetch : MetadataFetch} {res : CallResult} {input : MetadataInput}
    {err : Option (TopicName × TopicViewError)}
    (rs : Reports o fetch res input err) :
    IsOutcome o fetch input := by
  cases rs with
  | failed fu | rejected _ fu => exact .failed fu
  | succeeded hb fu => exact .succeeded hb fu

variable {told : List MetadataFate} {build : Build} {reserve : ℕ → Bool} {m : MetadataMachine}
  {c : WaitClass}

/-- Fates without a delivered view need no justification. -/
theorem justified_of_silent (hs : ∀ fate ∈ told, ¬ fate.IsView) :
    ∀ fate ∈ told, Justified o call t fate :=
  fun fate mem topic req done view hv =>
    absurd ⟨topic, req, done, view, hv⟩ (hs fate mem)

/-- Only identities, waiters and fates without a delivered view change. -/
theorem quiet_of_told (machine : t'.owner.machine = t.owner.machine)
    (slots : t'.owner.slots = t.owner.slots) (is : t'.inputs = t.inputs)
    (bs : t'.owner.invalidations = t.owner.invalidations)
    (hv : t.owner.topicViews.Scannable → t'.owner.topicViews.Scannable)
    (fs : t'.fates = t.fates ++ told) (hs : ∀ fate ∈ told, ¬ fate.IsView) :
    Quiet o call t t' :=
  ⟨machine, slots, is, bs ▸ .same, hv, told, fs, justified_of_silent hs⟩

/-- A delivered view of a scan was examined and found in the snapshot. -/
theorem examine_view {ws : WaitingTopicView} {topic : TopicName} {req : TopicViewRequirement}
    {done : ℕ} {view : TopicView}
    (hs : examine reserve m ws = some (.viewed topic req done (.ok view))) :
    ws.terminal = none ∧ ws.topic = topic ∧ ws.requirement = req ∧
      projected reserve m topic req = .ok (some view) := by
  unfold examine at hs
  split at hs
  · cases hs
  rename_i stays
  split at hs
  · rename_i hf
    cases hs
    exact ⟨stays, rfl, rfl, hf⟩
  · cases hs
  · split_ifs at hs
    cases hs

theorem drained_quiet (c : WaitClass) {now : Moment}
    (had : c = .view → call = .drainTopicViewWaiters reserve now) (hv : o.topicViews.Scannable) :
    Quiet o call ⟨o, [], []⟩ (OwnerTurn.withWaiters ⟨o, [], []⟩ c (c.scan build reserve now o).1
      ((c.scan build reserve now o).2.due ++ (c.scan build reserve now o).2.answered)) := by
  by_cases other : c ≠ .view
  · refine quiet_of_told (c.put_machine _ _) ?_ rfl (c.put_invalidations _ _) ?_ rfl ?_
    · exact Prod.ext (c.put_pending _ _) (c.put_requested _ _)
    · cases c <;> first | exact id | exact absurd rfl other
    · intro f mem
      obtain ⟨v, rfl | ⟨_, _, rfl⟩ | said⟩ := scan_told _ _ now build _ _ f mem
      · exact c.not_isView_expired _
      · exact c.not_isView_refused _ _ _
      · exact not_isView_of_ofView (WaitClass.ofView_examined other said)
  · rw [not_not] at other
    subst other
    obtain rfl := had rfl
    obtain ⟨hs, due, ha⟩ := hv.scan build policy now
      o.limits.topicViewAdmissionBudget (examine reserve o.machine)
    refine ⟨rfl, rfl, rfl, .same, fun _ => hs, _, rfl, ?_⟩
    intro f mem topic req done view viewed
    subst viewed
    rcases mem_append.1 mem with he | told
    · obtain ⟨v, never⟩ := due _ he
      cases never
    refine ⟨rfl, rfl, ?_⟩
    have told : viewed topic req done (.ok view) ∈
        (o.topicViews.scan build policy now o.limits.topicViewAdmissionBudget
          (examine reserve o.machine)).2.answered := told
    rw [ha] at told
    obtain ⟨e, front, said⟩ := mem_filterMap.1 told
    unfold answer verdict at said
    split_ifs at said with late
    · cases said
    · obtain ⟨stays, rfl, rfl, hf⟩ := examine_view said
      refine ⟨mem_map.2 ⟨e, mem_filter.2 ⟨front, ?_⟩, rfl⟩, reserve, hf⟩
      simpa [stays] using late

theorem answered_quiet {f : MetadataFate} (hd : Direct o call f) :
    Quiet o call ⟨o, [], []⟩ ⟨o, [f], []⟩ := by
  refine ⟨rfl, rfl, rfl, .same, id, [f], rfl, ?_⟩
  intro told mem topic req done view hv
  rw [mem_singleton.1 mem] at hv
  cases hd with
  | late => cases hv
  | examined ha he hf =>
    cases hv
    subst ha
    exact ⟨rfl, rfl, by simp [examines, he], _, hf⟩

theorem examineLoop_ofView (m : MetadataMachine) (n : ℕ) :
    ∀ f ∈ (i.examineLoop m n).2, f.ofView = false := by
  induction n generalizing i with
  | zero => simp [MetadataInvalidations.examineLoop]
  | succ n ih =>
    unfold MetadataInvalidations.examineLoop
    split
    · simp
    split
    · intro f mem
      rcases mem_append.1 mem with told | hl
      · obtain ⟨done, -, rfl⟩ := mem_map.1 told
        rfl
      · exact ih _ f hl
    · exact ih _

theorem failed_quiet (err : RequestError) : Quiet o call ⟨o, [], []⟩ (o.failedTurn err) := by
  have hv := o.topicViews.failAll_scannable fun ws =>
    ws.complete (.error .draining)
  refine ⟨rfl, rfl, rfl, .failed, fun _ => hv, (o.failedTurn err).fates, rfl,
    justified_of_silent ?_⟩
  intro fate mem
  simp only [failedTurn, failAll, MetadataInvalidations.failAll, mem_append, mem_map,
    mem_flatMap] at mem
  rcases mem with ((⟨_, -, rfl⟩ | ⟨_, -, rfl⟩) | ⟨_, -, rfl⟩) | ⟨_, -, _, -, rfl⟩
  · exact not_isView_failed _ _
  · exact not_isView_failed _ _
  · exact not_isView_error _ _
  · exact not_isView_of_ofView rfl

theorem subscribed_ofView (done : ℕ) (disp : MetadataDisposition) :
    ∀ f ∈ (subscribed i target done disp).2, f.ofView = false := by
  unfold subscribed MetadataInvalidations.subscribe
  split_ifs
  · split
    · simp
    · simp [ofView]
    · split_ifs <;> simp [ofView]
  · simp [ofView]

section MarkTerminal

variable (evidence : EvidenceStamp) (terminal : Option (TopicName × TopicViewError))
  (o : MetadataOwner)

theorem markTerminal_machine : (markTerminal evidence terminal o).machine = o.machine := by
  cases terminal <;> rfl

theorem markTerminal_slots : (markTerminal evidence terminal o).slots = o.slots := by
  cases terminal <;> rfl

theorem markTerminal_invalidations :
    (markTerminal evidence terminal o).invalidations = o.invalidations := by
  cases terminal <;> rfl

end MarkTerminal

theorem markTerminal_scannable (ev : EvidenceStamp)
    (terminal : Option (TopicName × TopicViewError)) (o : MetadataOwner)
    (hv : o.topicViews.Scannable) : (markTerminal ev terminal o).topicViews.Scannable := by
  cases terminal with
  | none => exact hv
  | some _ => exact hv.iterMut _

/-- A demand without room has no effect. -/
theorem IsDemand.effects_of_full {input : MetadataInput} (d : IsDemand input)
    (hf : (m.apply input).2.disposition = .queryCapacityReached) :
    (m.apply input).2.effects = [] := by
  cases d with
  | resolve q op | refresh q op =>
    exact (admitQuery_admission _ _ _ _).effects_of_full hf

/-- An admission delivers no view. -/
theorem admitted_silent {w w' : Waiters c.Subject} {v : c.Subject} {bytes : ℕ} {due : Moment}
    {fs : List MetadataFate} {adm : Bool}
    (ans : w.admitEntry c.policy v bytes due = (w', fs, adm)) : ∀ f ∈ fs, ¬ f.IsView := by
  intro f mem
  have told := w.admitEntry_told c.policy v bytes due f
  rw [ans] at told
  obtain ⟨v, rfl⟩ := told mem
  exact c.not_isView_refused _ _ _

theorem invalidation_of_barrier {tgt : InvalidationTarget} {seen : OutcomeStamp}
    {done : ℕ} (ha : call.barrier = some (tgt, seen, done)) :
    call.invalidation = some (tgt, seen) := by
  rw [MetadataCall.invalidation, ha]
  rfl

/-- Waiters of a class were changed within their order. -/
theorem put_scannable {o o' : MetadataOwner} {w : Waiters c.Subject}
    (hs : o'.topicViews = o.topicViews) (hk : (c.get o).Scannable → w.Scannable)
    (hv : o.topicViews.Scannable) : (c.put o' w).topicViews.Scannable := by
  cases c with
  | partition | controller => exact hs ▸ hv
  | view => exact hk hv

/-- A move is a step. -/
theorem OwnerMove.step (hm : OwnerMove build o call t t') (hv : t.owner.topicViews.Scannable) :
    OwnerStep o call t t' := by
  cases hm with
  | drawn ids initialRefresh =>
    exact .quiet (quiet_of_told rfl rfl rfl rfl id (append_nil _).symm (by simp))
  | submitted hk free => exact .submitted hk free
  | begun =>
    exact .quiet ⟨rfl, rfl, rfl, .begun, fun hv => hv.beginScan, [],
      (append_nil _).symm, by simp⟩
  | answered hd => exact .quiet (answered_quiet hd)
  | unqueued req err =>
    exact .quiet (quiet_of_told rfl rfl rfl rfl id rfl (by simp [not_isView_failed]))
  | drained c reserve now ha => exact .quiet (drained_quiet c ha hv)
  | barriersDrained b =>
    exact .quiet ⟨rfl, rfl, rfl, .scanned _, id, _, rfl,
      justified_of_silent fun fate mem =>
        not_isView_of_ofView (examineLoop_ofView _ _ _ fate mem)⟩
  | @refused t c v bytes due w fs ans =>
    refine .quiet (quiet_of_told (c.put_machine _ _) (Prod.ext (c.put_pending _ _)
      (c.put_requested _ _)) rfl (c.put_invalidations _ _)
      (put_scannable rfl fun hk => hk.of_refused ans ▸ hk) rfl ?_)
    exact admitted_silent ans
  | @queued t c v bytes due w fs op ev slots ha ans met hs =>
    refine .demanded ev (c.demand_isDemand v op)
      ⟨c.put_machine _ _, rfl, put_scannable rfl fun hk => (hk.of_admitted ans).1, fs, rfl,
        admitted_silent ans⟩ ?_ (c.put_invalidations _ _)
    have sent : ((t.asked (c.demand v op) slots).withWaiters c w fs).owner.slots =
        slots := Prod.ext (c.put_pending _ _) (c.put_requested _ _)
    rw [sent]
    exact hs
  | @turnedAway t c v ws bytes due w w' fs op isMeant ans hf ht =>
    refine .demanded ⟨0⟩ (c.demand_isDemand v op)
      ⟨c.put_machine _ _, rfl, put_scannable rfl fun hk => (hk.of_retracted ans ht).1, _, rfl, ?_⟩
      ?_
      (c.put_invalidations _ _)
    · intro fate mem
      rcases mem_append.1 mem with adm | told
      · exact admitted_silent ans fate adm
      · rw [mem_singleton.1 told]
        exact c.not_isView_crowdedOut _ _
    · have sent : ((t.asked (c.demand v op) t.owner.slots).withWaiters c w'
          (fs ++ [c.crowdedOut t.owner ws])).owner.slots = t.owner.slots :=
        Prod.ext (c.put_pending _ _) (c.put_requested _ _)
      rw [sent, (c.demand_isDemand v op).effects_of_full hf]
      exact .nothing
  | asked demand hs =>
    exact .demanded _ demand ⟨rfl, rfl, id, [], (append_nil _).symm, by simp⟩ hs rfl
  | @invalidated ids tgt seen done op ev slots ha hs =>
    have hap : Applies (invalidationInput tgt seen op) ⟨o, [], []⟩
        (o.invalidatedTurn ids tgt seen done op slots) :=
      ⟨rfl, rfl, id, _, rfl, fun fate mem =>
        not_isView_of_ofView (subscribed_ofView _ _ _ _ fate mem)⟩
    exact .invalidated ev done (invalidation_of_barrier ha) rfl hap hs rfl
  | @completed t turn fetch input err ids ev slots ha ho machine lim hh rs hs =>
    refine .completed ev hh rs.isOutcome ⟨markTerminal_machine _ _ _, rfl, fun hv => ?_, [],
      (append_nil _).symm, by simp⟩ ?_ ?_
    · exact (markTerminal_scannable fetch.evidence err
        { (t.asked input slots).owner with operationIds := ids } hv).beginScan
    · exact (markTerminal_slots fetch.evidence err _).symm ▸ hs
    · exact congrArg MetadataInvalidations.beginScan (markTerminal_invalidations _ _ _)
  | failed err => exact .quiet (failed_quiet err)

/-! ## Runs -/

open Runs

theorem scannable_step (step : OwnerStep o call t t') (hv : t.owner.topicViews.Scannable) :
    t'.owner.topicViews.Scannable := by
  cases step with
  | quiet hq => exact hq.views hv
  | submitted hk hf => exact hv
  | demanded _ d ha hs bs | invalidated _ done had first ha hs bs | completed _ hg out ha hs bs =>
    exact ha.views hv

/-- A call that does not fail leads from the owner to its new state by steps. -/
theorem step_steps (hv : o.topicViews.Scannable) {c : MetadataCall}
    (ok : (o.step build c).2.failure = none) :
    Relation.ReflTransGen (OwnerStep o c) ⟨o, [], []⟩
      ⟨(o.step build c).1, (o.step build c).2.fates, (o.step build c).2.inputs⟩ := by
  have steps : ∀ t, Relation.ReflTransGen (OwnerMove build o c) ⟨o, [], []⟩ t →
      Relation.ReflTransGen (OwnerStep o c) ⟨o, [], []⟩ t ∧ t.owner.topicViews.Scannable := by
    intro t hm
    induction hm with
    | refl => exact ⟨.refl, hv⟩
    | tail _ move ih =>
      obtain ⟨pre, hv⟩ := ih
      exact ⟨pre.tail (move.step hv), scannable_step (move.step hv) hv⟩
  exact (steps _ (step_moves ok)).1

/-- What holds of a new owner and is kept by the steps of every call that meets `G` holds of
every run of such calls. The calls before are at hand. -/
theorem run_owner {lim : MetadataLimits} {I : List CallEvent → MetadataOwner → Prop}
    {G : List CallEvent → CallEvent → Prop} (start : I [] (new lim))
    (more : ∀ past (e : CallEvent), I past e.before → G past e → e.before.topicViews.Scannable →
      Relation.ReflTransGen (OwnerStep e.before e.input) ⟨e.before, [], []⟩
        ⟨e.after, e.answer.fates, e.answer.inputs⟩ → I (past ++ [e]) e.after)
    (cs : List MetadataCall)
    (ok : ∀ e ∈ trace (step build) (new lim) cs, e.answer.failure = none)
    (hg : ∀ past e rest, trace (step build) (new lim) cs = past ++ e :: rest → G past e) :
    I (trace (step build) (new lim) cs) (final (step build) (new lim) cs) := by
  refine (run_calls (I := fun past o => o.topicViews.Scannable ∧ I past o)
    (G := fun past e => e.answer.failure = none ∧ G past e) ⟨new_scannable _ _, start⟩ ?_ cs
    fun past e rest split => ⟨ok e (by simp [split]), hg past e rest split⟩).2
  rintro past o c ⟨ok, hg⟩ ⟨hv, hk⟩
  have steps := step_steps hv ok
  exact ⟨steps_invariant (J := fun t => t.owner.topicViews.Scannable) (fun _ _ => scannable_step)
    steps hv, more _ (event (step build) o c) hk hg hv steps⟩

end MetadataOwner

end KafkaDriver
