import KafkaDriver.MetadataOwner

/-!
# The moves of the metadata owner

Every call of the owner is a sequence of `OwnerMove`s. A move says all that happens at once :
it draws an identity, begins or carries on a scan, queues a waiter together with the demand for
what it waits for, gives the machine the outcome of a fetch, and so on. What is known of the
owner is a property every move keeps (`step_moves`).

The three collections of waiters are used in one way. `WaitClass` names them, so that a move
of any of them is one constructor.
-/

namespace KafkaDriver

open Fallible List TopicViewWaiters

/-! ## Classes of waiters -/

/-- What waiters wait for. -/
inductive WaitClass where
  | partition
  | controller
  | view
  deriving DecidableEq

namespace WaitClass

abbrev Subject : WaitClass → Type
  | .partition => WaitingPartitionCall
  | .controller => WaitingControllerCall
  | .view => WaitingTopicView

/-- The waiters of a class. -/
def get : (c : WaitClass) → MetadataOwner → Waiters c.Subject
  | .partition, o => o.waiters
  | .controller, o => o.controllerWaiters
  | .view, o => o.topicViews

/-- Replace the waiters of a class. -/
def put : (c : WaitClass) → MetadataOwner → Waiters c.Subject → MetadataOwner
  | .partition, o, waiters => { o with waiters }
  | .controller, o, controllerWaiters => { o with controllerWaiters }
  | .view, o, topicViews => { o with topicViews }

/-- The query whose fetch can answer a waiter. -/
def query : (c : WaitClass) → c.Subject → MetadataQuery
  | .partition, waiting => .topic waiting.topic
  | .controller, _ => .cluster
  | .view, waiting => .topic waiting.topic

/-- What the machine is asked when a waiter is queued. -/
def demand : (c : WaitClass) → c.Subject → OperationId → MetadataInput
  | .partition, waiting, operationId => .resolve (.topic waiting.topic) operationId
  | .controller, _, operationId => .resolve .cluster operationId
  | .view, waiting, operationId =>
    if waiting.requirement.requiresRefresh then .refresh (.topic waiting.topic) operationId
    else .resolve (.topic waiting.topic) operationId

/-- The failure noted on a waiter. -/
def terminal : (c : WaitClass) → c.Subject → Option TopicViewError
  | .partition, _ => none
  | .controller, _ => none
  | .view, waiting => waiting.terminal

def policy : (c : WaitClass) → WaitPolicy c.Subject MetadataFate
  | .partition => requestPolicy (·.request)
  | .controller => requestPolicy (·.request)
  | .view => TopicViewWaiters.policy

def examine : (c : WaitClass) → (ℕ → Bool) → MetadataMachine → c.Subject → Option MetadataFate
  | .partition, _, machine, waiting => PartitionWaiters.examine machine waiting
  | .controller, _, machine, waiting => ControllerWaiters.examine machine waiting
  | .view, reserve, machine, waiting => TopicViewWaiters.examine reserve machine waiting

def budget : WaitClass → MetadataLimits → NonZeroUsize
  | .partition, limits => limits.partitionAdmissionBudget
  | .controller, limits => limits.controllerWaiting.admissionBudget
  | .view, limits => limits.topicViewAdmissionBudget

/-- One turn over the waiters of a class. -/
def scan (c : WaitClass) (build : Build) (reserve : ℕ → Bool) (now : Moment) (o : MetadataOwner) :
    Waiters c.Subject × WaitScan MetadataFate :=
  (c.get o).scan build c.policy now (c.budget o.limits) (c.examine reserve o.machine)

/-- What a waiter is told whose fetch found no room. -/
def crowdedOut : (c : WaitClass) → MetadataOwner → c.Subject → MetadataFate
  | .partition, o, waiting => .failed waiting.request o.queryCapacity
  | .controller, o, waiting => .failed waiting.request o.queryCapacity
  | .view, o, waiting =>
    waiting.complete (.error (.queryCapacityReached o.limits.queries.pendingQueries.get))

variable (c : WaitClass) (o : MetadataOwner) (w : Waiters c.Subject)

@[simp] theorem get_put : c.get (c.put o w) = w := by cases c <;> rfl

theorem get_put_of_ne {c c' : WaitClass} (ne : c' ≠ c) (o : MetadataOwner)
    (w : Waiters c.Subject) : c'.get (c.put o w) = c'.get o := by
  cases c <;> cases c' <;> first | rfl | exact absurd rfl ne

@[simp] theorem put_machine : (c.put o w).machine = o.machine := by cases c <;> rfl

@[simp] theorem put_pending : (c.put o w).pending = o.pending := by cases c <;> rfl

@[simp] theorem put_requested : (c.put o w).requested = o.requested := by cases c <;> rfl

@[simp] theorem put_invalidations : (c.put o w).invalidations = o.invalidations := by
  cases c <;> rfl

end WaitClass

/-! ## Moves -/

/-- The fetch that was sent and the one that is kept. -/
abbrev FetchSlots := Option MetadataFetch × Option MetadataFetch

namespace MetadataCall

/-- The invalidation a call asks for, with its completion. -/
def barrier : MetadataCall → Option (InvalidationTarget × OutcomeStamp × ℕ)
  | .invalidateBrokerRoute route observedAt completion _ _ =>
    some (.controller route, observedAt, completion)
  | .invalidatePartitionRoute route observedAt completion _ _ =>
    some (.partition route, observedAt, completion)
  | _ => none

end MetadataCall

/-- A turn after the machine got an input, with the fetches sent and kept then. -/
def OwnerTurn.asked (t : OwnerTurn) (input : MetadataInput)
    (slots : FetchSlots) : OwnerTurn :=
  { t with
    owner := { t.owner with
      machine := (t.owner.machine.apply input).1
      pending := slots.1
      requested := slots.2 }
    inputs := t.inputs ++ [input] }

/-- A turn with other waiters of a class and further fates. -/
def OwnerTurn.withWaiters (t : OwnerTurn) (c : WaitClass) (w : Waiters c.Subject)
    (fates : List MetadataFate) : OwnerTurn :=
  { t with owner := c.put t.owner w, fates := t.fates ++ fates }

theorem OwnerTurn.asked_withWaiters (t : OwnerTurn) (i : MetadataInput)
    (slots : FetchSlots) (c : WaitClass) (w : Waiters c.Subject)
    (fs : List MetadataFate) :
    (t.withWaiters c w fs).asked i slots = (t.asked i slots).withWaiters c w fs := by
  cases c <;> rfl

theorem OwnerTurn.withWaiters_withWaiters (t : OwnerTurn) (c : WaitClass)
    (w w' : Waiters c.Subject) (fs fs' : List MetadataFate) :
    (t.withWaiters c w fs).withWaiters c w' fs' = t.withWaiters c w' (fs ++ fs') := by
  unfold withWaiters
  rw [append_assoc]
  cases c <;> rfl

namespace MetadataOwner

def slots (o : MetadataOwner) : FetchSlots := (o.pending, o.requested)

/-- A demand for a fetch. -/
inductive IsDemand : MetadataInput → Prop
  | resolve (query : MetadataQuery) (operationId : OperationId) :
      IsDemand (.resolve query operationId)
  | refresh (query : MetadataQuery) (operationId : OperationId) :
      IsDemand (.refresh query operationId)

/-- Where the effects of a transition went, with the evidence of the call. -/
inductive Sends (evidence : EvidenceStamp) : List MetadataEffect →
    FetchSlots → FetchSlots → Prop
  | nothing {slots : FetchSlots} : Sends evidence [] slots slots
  | submitted {operationId : OperationId} {generation : MetadataGeneration}
      {query : MetadataQuery} {requested : Option MetadataFetch} :
      Sends evidence [.fetch operationId generation query] (none, requested)
        (some ⟨operationId, generation, evidence, query⟩, requested)
  | requested {operationId : OperationId} {generation : MetadataGeneration}
      {query : MetadataQuery} {pending : Option MetadataFetch} :
      Sends evidence [.fetch operationId generation query] (pending, none)
        (pending, some ⟨operationId, generation, evidence, query⟩)

/-- What the machine is told of a fetch, and the failure noted on the views that wait for it. -/
inductive Reports (o : MetadataOwner) (fetch : MetadataFetch) :
    CallResult → MetadataInput → Option (TopicName × TopicViewError) → Prop
  | failed (followup : OperationId) :
      Reports o fetch .failed (.refreshFailed fetch.operationId followup)
        (topicError fetch.query .refreshFailed)
  | rejected {response : MetadataResponse} {error : MetadataBuildError}
      (rejected : response.snapshotFromResponse (provenance fetch) o.machine.current
        o.limits.brokerDirectory o.limits.partitionLeaders = .error error)
      (followup : OperationId) :
      Reports o fetch (.responded response) (.refreshFailed fetch.operationId followup)
        ((responseTopicError fetch.query response).or (topicError fetch.query .malformedMetadata))
  | succeeded {response : MetadataResponse} {snapshot : MetadataSnapshot}
      (built : response.snapshotFromResponse (provenance fetch) o.machine.current
        o.limits.brokerDirectory o.limits.partitionLeaders = .ok snapshot)
      (followup : OperationId) :
      Reports o fetch (.responded response)
        (.refreshSucceeded fetch.operationId snapshot followup)
        (responseTopicError fetch.query response)

/-- The fetch whose outcome a turn may see : one that was sent before, or one it sends first. -/
def observedFetch (o : MetadataOwner) (turn : DriveTurn) : Option MetadataFetch :=
  if turn.requested.ready then o.requested.or o.pending else o.pending

/-- A demand for a view that is answered at once. -/
inductive Direct (o : MetadataOwner) (call : MetadataCall) : MetadataFate → Prop
  | late {topic : TopicName} {requirement : TopicViewRequirement} {completion : ℕ} :
      Direct o call (.viewed topic requirement completion (.error .deadlineExceeded))
  | examined {reserve : ℕ → Bool} {topic : TopicName} {newerThan : Option MetadataGeneration}
      {deadline : Moment} {retainedBytes completion : ℕ} {rpc : RpcTurn} {now : Moment}
      {evidence : EvidenceStamp} {result : Except TopicViewError TopicView}
      (asked : call = .processTopicView reserve topic newerThan deadline retainedBytes completion
        rpc now evidence)
      (early : now < deadline)
      (found : projected reserve o.machine topic (requirementOf newerThan) =
        some <$> result) :
      Direct o call (.viewed topic (requirementOf newerThan) completion result)

/-- Subscribe a completion to the barrier of its target, or answer it, as the machine said. -/
def subscribed (i : MetadataInvalidations) (target : InvalidationTarget) (completion : ℕ)
    (disposition : MetadataDisposition) : MetadataInvalidations × List MetadataFate :=
  if waitsForEvidence disposition then i.subscribe target completion
  else (i, [.invalidated completion (immediateDisposition disposition)])

/-- The turn of an invalidation. -/
def invalidatedTurn (o : MetadataOwner) (ids : MetadataOperationIds) (target : InvalidationTarget)
    (observedAt : OutcomeStamp) (completion : ℕ) (operationId : OperationId)
    (slots : FetchSlots) : OwnerTurn :=
  let answer := o.machine.apply (invalidationInput target observedAt operationId)
  let barriers := subscribed o.invalidations target completion answer.2.disposition
  { owner := { o with
      operationIds := ids
      machine := answer.1
      pending := slots.1
      requested := slots.2
      invalidations := barriers.1 }
    fates := barriers.2
    inputs := [invalidationInput target observedAt operationId] }

/-- The turn that fails all waiters. -/
def failedTurn (o : MetadataOwner) (failure : RequestError) : OwnerTurn :=
  let controllers := o.controllerWaiters.failAll fun waiting =>
    MetadataFate.failed waiting.request failure
  let partitions := o.waiters.failAll fun waiting => MetadataFate.failed waiting.request failure
  let views := o.topicViews.failAll fun waiting => waiting.complete (.error .draining)
  { owner := { o with
      controllerWaiters := controllers.1
      waiters := partitions.1
      topicViews := views.1
      invalidations := o.invalidations.failAll.1 }
    fates := controllers.2 ++ partitions.2 ++ views.2 ++ o.invalidations.failAll.2
    inputs := [] }

variable (build : Build) (o : MetadataOwner) (call : MetadataCall)

/-- One move of a call of an owner `o`. -/
inductive OwnerMove : OwnerTurn → OwnerTurn → Prop
  | drawn {t : OwnerTurn} (ids : MetadataOperationIds) (initialRefresh : Bool) :
      OwnerMove t (t.withOwner fun o => { o with operationIds := ids, initialRefresh })
  | submitted {t : OwnerTurn} {fetch : MetadataFetch} (kept : t.owner.requested = some fetch)
      (free : t.owner.pending = none) :
      OwnerMove t (t.withOwner fun o =>
        { o with pending := some fetch, requested := none, initialRefresh := false })
  | begun {t : OwnerTurn} : OwnerMove t (t.withOwner beginScans)
  | answered {fate : MetadataFate} (direct : Direct o call fate) :
      OwnerMove ⟨o, [], []⟩ ⟨o, [fate], []⟩
  | unqueued {t : OwnerTurn} (request : Request) (failure : RequestError) :
      OwnerMove t { t with fates := t.fates ++ [.failed request failure] }
  | drained (c : WaitClass) (reserve : ℕ → Bool) (now : Moment)
      (asked : c = .view → call = .drainTopicViewWaiters reserve now) :
      OwnerMove ⟨o, [], []⟩ (OwnerTurn.withWaiters ⟨o, [], []⟩ c (c.scan build reserve now o).1
        ((c.scan build reserve now o).2.due ++ (c.scan build reserve now o).2.answered))
  | barriersDrained {t : OwnerTurn} (budget : NonZeroUsize) :
      OwnerMove t
        { t with
          owner := { t.owner with
            invalidations := (t.owner.invalidations.scan t.owner.machine budget).1 }
          fates := t.fates ++ (t.owner.invalidations.scan t.owner.machine budget).2.1 }
  | refused {t : OwnerTurn} (c : WaitClass) {value : c.Subject} {bytes : ℕ} {deadline : Moment}
      {w : Waiters c.Subject} {fates : List MetadataFate}
      (answer : (c.get t.owner).admitEntry c.policy value bytes deadline = (w, fates, false)) :
      OwnerMove t (t.withWaiters c w fates)
  | queued {t : OwnerTurn} (c : WaitClass) {value : c.Subject} {bytes : ℕ} {deadline : Moment}
      {w : Waiters c.Subject} {fates : List MetadataFate} {operationId : OperationId}
      {evidence : EvidenceStamp} {slots : FetchSlots}
      (unmarked : c.terminal value = none)
      (answer : (c.get t.owner).admitEntry c.policy value bytes deadline = (w, fates, true))
      (met : (t.owner.machine.apply (c.demand value operationId)).2.disposition ≠
        .queryCapacityReached)
      (sends : Sends evidence (t.owner.machine.apply (c.demand value operationId)).2.effects
        t.owner.slots slots) :
      OwnerMove t ((t.asked (c.demand value operationId) slots).withWaiters c w fates)
  | turnedAway {t : OwnerTurn} (c : WaitClass) {value waiting : c.Subject} {bytes : ℕ}
      {deadline : Moment} {w w' : Waiters c.Subject} {fates : List MetadataFate}
      {operationId : OperationId} {isMeant : c.Subject → Bool}
      (answer : (c.get t.owner).admitEntry c.policy value bytes deadline = (w, fates, true))
      (full : (t.owner.machine.apply (c.demand value operationId)).2.disposition =
        .queryCapacityReached)
      (taken : w.retractLast build isMeant = (w', some waiting)) :
      OwnerMove t ((t.asked (c.demand value operationId) t.owner.slots).withWaiters c w'
        (fates ++ [c.crowdedOut t.owner waiting]))
  | asked {t : OwnerTurn} {input : MetadataInput} {evidence : EvidenceStamp}
      {slots : FetchSlots}
      (demand : IsDemand input)
      (sends : Sends evidence (t.owner.machine.apply input).2.effects t.owner.slots slots) :
      OwnerMove t (t.asked input slots)
  | invalidated {ids : MetadataOperationIds} {target : InvalidationTarget}
      {observedAt : OutcomeStamp} {completion : ℕ} {operationId : OperationId}
      {evidence : EvidenceStamp} {slots : FetchSlots}
      (asked : call.barrier = some (target, observedAt, completion))
      (sends : Sends evidence
        (o.machine.apply (invalidationInput target observedAt operationId)).2.effects
        o.slots slots) :
      OwnerMove ⟨o, [], []⟩ (o.invalidatedTurn ids target observedAt completion operationId slots)
  | completed {t : OwnerTurn} {turn : DriveTurn} {fetch : MetadataFetch} {input : MetadataInput}
      {failure : Option (TopicName × TopicViewError)} {ids : MetadataOperationIds}
      {evidence : EvidenceStamp} {slots : FetchSlots}
      (asked : call = .drive turn evidence) (observed : o.observedFetch turn = some fetch)
      (machine : t.owner.machine = o.machine) (limits : t.owner.limits = o.limits)
      (held : t.owner.pending = some fetch)
      (reports : Reports t.owner fetch turn.result input failure)
      (sends : Sends evidence (t.owner.machine.apply input).2.effects (none, t.owner.requested)
        slots) :
      OwnerMove t ((t.asked input slots).withOwner fun o =>
        beginScans (markTerminal fetch.evidence failure { o with operationIds := ids }))
  | failed (failure : RequestError) : OwnerMove ⟨o, [], []⟩ (o.failedTurn failure)

/-- A call that does not fail is a sequence of moves. -/
abbrev Performs {α : Type} (x : OwnerM α) (Q : α → OwnerTurn → Prop) (t : OwnerTurn) : Prop :=
  Moves (OwnerMove build o call) (fun _ _ => True) x Q t

variable {build o call} {t t' : OwnerTurn} {rpc : RpcTurn} {evidence : EvidenceStamp}

/-! ## Fetches -/

theorem wp_reserveOperation :
    wp reserveOperation
      (fun _ t' => ∃ ids, t' = t.withOwner fun o => { o with operationIds := ids })
      (fun _ _ => True) t := by
  simp only [reserveOperation, wp_bind, wp_get]
  cases t.owner.operationIds.reserve with
  | none => trivial
  | some drawn => exact ⟨drawn.2, rfl⟩

variable {fetch : MetadataFetch} {input : MetadataInput} {E : MetadataOwnerError → OwnerTurn → Prop}
  {α : Type} {demand : OperationId → MetadataInput} {now : Moment} {target : InvalidationTarget}
  {completion : ℕ} {Q : PUnit → OwnerTurn → Prop} {observedAt : OutcomeStamp} {turn : DriveTurn}
  {x : OwnerM α} {c : WaitClass}

theorem wp_submit :
    wp (submit fetch rpc)
      (fun _ t' => t.owner.pending = none ∧
        t' = t.withOwner fun o => { o with pending := some fetch })
      (fun _ _ => True) t := by
  simp only [submit, wp_ite, wp_bind, wp_get, wp_set, wp_throw, implies_true, true_and]
  intro hf _ _
  exact ⟨Option.not_isSome_iff_eq_none.1 hf, trivial⟩

theorem wp_request :
    wp (request fetch)
      (fun _ t' => t.owner.requested = none ∧
        t' = t.withOwner fun o => { o with requested := some fetch })
      (fun _ _ => True) t := by
  simp only [request, wp_ite, wp_bind, wp_get, wp_set, wp_throw, wp_pure, implies_true, true_and]
  intro hf
  exact ⟨Option.not_isSome_iff_eq_none.1 hf, trivial⟩

theorem wp_applyMachine {Q : MetadataTransition → OwnerTurn → Prop} :
    wp (applyMachine input) Q E t ↔
      Q (t.owner.machine.apply input).2 (t.asked input t.owner.slots) := Iff.rfl

/-- The slots of the owner are all that changes when effects are carried out. -/
theorem wp_interpret {m : MetadataMachine} :
    wp (interpret (m.apply input).2 rpc evidence)
      (fun _ t' => ∃ slots, Sends evidence (m.apply input).2.effects t.owner.slots slots ∧
        t' = t.withOwner fun o => { o with pending := slots.1, requested := slots.2 })
      (fun _ _ => True) t := by
  unfold interpret
  rcases m.apply_lone input with effs | ⟨op, gen, q, effs⟩ | effs
  · rw [effs]
    exact ⟨_, .nothing, rfl⟩
  · rw [effs]
    simp only [interpretEffects, wp_bind]
    unfold send
    refine wp_ite.2 ⟨fun _ => ?_, fun _ => ?_⟩
    · refine wp_imp wp_submit ?_
      rintro _ _ ⟨hf, rfl⟩
      refine ⟨(some ⟨op, gen, evidence, q⟩, t.owner.requested), ?_, rfl⟩
      rw [slots, hf]
      exact .submitted
    · refine wp_imp wp_request ?_
      rintro _ _ ⟨hf, rfl⟩
      refine ⟨(t.owner.pending, some ⟨op, gen, evidence, q⟩), ?_, rfl⟩
      rw [slots, hf]
      exact .requested
  · rw [effs]
    trivial

/-! ## Sequences of moves -/

theorem performs_bind {β : Type} {f : α → OwnerM β} {Q : α → OwnerTurn → Prop}
    {R : β → OwnerTurn → Prop} (h : Performs build o call x Q t)
    (next : ∀ a t', Q a t' → Performs build o call (f a) R t') :
    Performs build o call (x >>= f) R t :=
  .bind (fun _ _ _ => trivial) h next

/-- An operation that is one move. -/
theorem of_move (h : wp x (fun _ t' => OwnerMove build o call t t') (fun _ _ => True) t) :
    Performs build o call x (fun _ _ => True) t :=
  .of_wp (wp_mono h (fun _ _ hm => ⟨hm, trivial⟩) fun _ _ _ => trivial)

/-- A move, then the rest of a call. -/
theorem performs_head {Q : α → OwnerTurn → Prop} (first : OwnerMove build o call t t')
    (h : Performs build o call x Q t') :
    wp x (fun a s => Relation.ReflTransGen (OwnerMove build o call) t s ∧ Q a s)
      (fun _ s => Relation.ReflTransGen (fun _ _ => True) t s) t' :=
  wp_mono h (fun _ _ hr => ⟨.head first hr.1, hr.2⟩) fun _ _ _ => .single trivial

theorem reserveOperation_performs :
    Performs build o call reserveOperation
      (fun _ t' => ∃ ids, t' = t.withOwner fun o => { o with operationIds := ids }) t := by
  refine .of_wp (wp_imp wp_reserveOperation ?_)
  rintro _ _ ⟨ids, rfl⟩
  exact ⟨.drawn ids t.owner.initialRefresh, ids, rfl⟩

/-- The machine gets a demand. -/
theorem ask_performs (d : IsDemand input) :
    Performs build o call
      (do
        let transition ← applyMachine input
        interpret transition rpc evidence)
      (fun _ _ => True) t := by
  refine of_move ?_
  simp only [applyMachine, wp_bind, wp_modifyGet]
  refine wp_imp wp_interpret ?_
  rintro _ _ ⟨slots, hse, rfl⟩
  exact .asked d hse

/-! ## Waiting -/

variable (build o call) in
/-- An admission answers a waiter of a class in one move, or queues it. -/
def Admits (c : WaitClass) (demand : OperationId → MetadataInput) (admission : OwnerM Bool) :
    Prop :=
  ∀ t, wp admission
    (fun admitted t' =>
      admitted = false ∧ OwnerMove build o call t t' ∨
      admitted = true ∧ ∃ value bytes deadline w fates,
        (c.get t.owner).admitEntry c.policy value bytes deadline = (w, fates, true) ∧
        demand = c.demand value ∧ c.terminal value = none ∧ t' = t.withWaiters c w fates)
    (fun _ _ => True) t

/-- A rejection takes the last waiter of a class back. -/
def Rejects (build : Build) (c : WaitClass) (reject : OwnerM Unit) : Prop :=
  ∀ t, wp reject
    (fun _ t' => ∃ isMeant w waiting,
      (c.get t.owner).retractLast build isMeant = (w, some waiting) ∧
      t' = t.withWaiters c w [c.crowdedOut t.owner waiting])
    (fun _ _ => True) t

/-- A waiter is answered, or queued with its demand, or taken back. -/
theorem waitFor_performs {adm : OwnerM Bool} {reject : OwnerM Unit}
    (ha : Admits build o call c demand adm) (hre : Rejects build c reject) :
    Performs build o call (waitFor adm demand reject rpc evidence) (fun _ _ => True) t := by
  unfold waitFor
  refine performs_bind reserveOperation_performs ?_
  rintro op _ ⟨ids, rfl⟩
  refine of_move ?_
  generalize t.withOwner (fun o => { o with operationIds := ids }) = t
  simp only [wp_bind]
  refine wp_imp (ha t) ?_
  rintro _ t' (⟨rfl, move⟩ | ⟨rfl, v, bytes, due, w, fates, ans, rfl, had, rfl⟩)
  · exact move
  · -- the machine is asked as it was before the waiter was queued
    have machine : (t.withWaiters c w fates).owner.machine = t.owner.machine := c.put_machine _ _
    have slots : (t.withWaiters c w fates).owner.slots = t.owner.slots := by cases c <;> rfl
    simp only [if_true, wp_bind, wp_applyMachine, wp_ite, machine, slots,
      OwnerTurn.asked_withWaiters]
    refine ⟨fun hf => ?_, fun met => ?_⟩
    · refine wp_imp (hre _) ?_
      rintro _ _ ⟨isMeant, w', ws, ht, rfl⟩
      rw [OwnerTurn.withWaiters, WaitClass.get_put] at ht
      rw [OwnerTurn.withWaiters_withWaiters]
      have told : c.crowdedOut ((t.asked (c.demand v op) t.owner.slots).withWaiters c w
          fates).owner ws = c.crowdedOut t.owner ws := by cases c <;> rfl
      rw [told]
      exact .turnedAway c ans hf ht
    · refine wp_imp wp_interpret ?_
      rintro _ _ ⟨slots', hse, rfl⟩
      have sent : ((t.asked (c.demand v op) t.owner.slots).withWaiters c w fates).owner.slots =
          t.owner.slots := by cases c <;> rfl
      rw [sent] at hse
      have hm : OwnerMove build o call t _ := .queued c had ans met hse
      have hs : (((t.asked (c.demand v op) t.owner.slots).withWaiters c w fates).withOwner
          fun o => { o with pending := slots'.1, requested := slots'.2 }) =
          (t.asked (c.demand v op) slots').withWaiters c w fates := by cases c <;> rfl
      rw [hs]
      exact hm

/-- A request is failed at once, or its waiter is refused or queued. -/
theorem admitRequest_admits {subject : Request → c.Subject} {request : c.Subject → Request}
    {bytes : Request → ℕ} {req : Request} (hi : c.policy = requestPolicy request)
    (dms : ∀ req, demand = c.demand (subject req)) (ha : ∀ req, c.terminal (subject req) = none) :
    Admits build o call c demand (modifyGet fun t =>
      match admitRequest (c.get t.owner) subject request bytes req now with
      | (w, fs, adm) => (adm, t.withWaiters c w fs)) := by
  intro t
  have hs : ∀ fs, t.withWaiters c (c.get t.owner) fs = { t with fates := t.fates ++ fs } := by
    intro fs
    cases c <;> rfl
  simp only [wp_modifyGet, admitRequest, ← hi]
  split
  · exact .inl ⟨rfl, hs _ ▸ .unqueued _ _⟩
  rename_i req due he
  split_ifs
  · exact .inl ⟨rfl, hs _ ▸ .unqueued _ _⟩
  cases answer : (c.get t.owner).admitEntry c.policy (subject req) (bytes req) due with
  | mk w rest =>
    obtain ⟨fs, adm⟩ := rest
    cases adm with
    | false => exact .inl ⟨rfl, .refused c answer⟩
    | true => exact .inr ⟨rfl, _, _, _, w, fs, answer, dms req, ha req, rfl⟩

theorem waitForPartition_performs {ws : PartitionWait} :
    Performs build o call (waitForPartition build ws rpc now evidence) (fun _ _ => True) t := by
  refine waitFor_performs (c := .partition)
    (admitRequest_admits (c := .partition) rfl (fun _ => rfl) fun _ => rfl) fun t => ?_
  simp only [rejectQueryCapacity, wp_bind, wp_get]
  split
  · trivial
  · exact ⟨_, _, _, ‹_›, rfl⟩

theorem waitForClusterRoute_performs {tgt : ClusterRouteTarget} {req : Request} :
    Performs build o call (waitForClusterRoute build tgt req rpc now evidence)
      (fun _ _ => True) t := by
  refine waitFor_performs (c := .controller)
    (admitRequest_admits (c := .controller) rfl (fun _ => rfl) fun _ => rfl) fun t => ?_
  simp only [rejectControllerQueryCapacity, wp_bind, wp_get]
  split
  · trivial
  · exact ⟨_, _, _, ‹_›, rfl⟩

theorem waitForTopicView_performs {ws : TopicViewWait} :
    Performs build o call (waitForTopicView build ws rpc evidence) (fun _ _ => True) t := by
  refine waitFor_performs (c := .view) ?_ fun t => ?_
  · intro t
    simp only [admitTopicView, wp_modifyGet, TopicViewWaiters.admitView]
    cases answer : t.owner.topicViews.admitEntry TopicViewWaiters.policy
      ⟨ws.topic, ws.requirement, ws.completion, none⟩ ws.retainedBytes
      ws.deadline with
    | mk w rest =>
      obtain ⟨fs, adm⟩ := rest
      cases adm with
      | false => exact .inl ⟨rfl, .refused .view answer⟩
      | true => exact .inr ⟨rfl, _, _, _, w, fs, answer, rfl, rfl, rfl⟩
  · simp only [rejectTopicView, wp_bind, wp_get]
    split
    · trivial
    · exact ⟨_, _, _, ‹_›, rfl⟩

theorem resolveCoordinatorDirectory_performs :
    Performs build o call (resolveCoordinatorDirectory rpc evidence) (fun _ _ => True) t := by
  unfold resolveCoordinatorDirectory
  refine performs_bind reserveOperation_performs ?_
  rintro op _ ⟨ids, rfl⟩
  refine of_move ?_
  simp only [wp_bind, wp_applyMachine]
  refine wp_imp wp_interpret ?_
  rintro _ _ ⟨slots, hse, rfl⟩
  exact .asked (.resolve _ _) hse

/-! ## Invalidation -/

theorem wp_await {disp : MetadataDisposition} :
    wp (await target completion disp) Q E t ↔
      Q ⟨⟩
        { t with
          owner := { t.owner with
            invalidations := (subscribed t.owner.invalidations target completion disp).1 }
          fates := t.fates ++ (subscribed t.owner.invalidations target completion disp).2 } := by
  unfold await subscribed
  split_ifs <;> exact Iff.rfl

theorem wp_invalidateRoute :
    wp (invalidateRoute target observedAt completion rpc evidence)
      (fun _ t' => ∃ ids op slots,
        Sends evidence (o.machine.apply (invalidationInput target observedAt op)).2.effects
          o.slots slots ∧
        t' = o.invalidatedTurn ids target observedAt completion op slots)
      (fun _ _ => True) ⟨o, [], []⟩ := by
  simp only [invalidateRoute, wp_bind]
  refine wp_imp wp_reserveOperation ?_
  rintro op _ ⟨ids, rfl⟩
  simp only [wp_bind, wp_applyMachine, wp_await]
  refine wp_imp wp_interpret ?_
  rintro _ _ ⟨slots, hs, rfl⟩
  exact ⟨ids, op, slots, hs, rfl⟩

theorem invalidateRoute_performs (ha : call.barrier = some (target, observedAt, completion)) :
    Performs build o call (invalidateRoute target observedAt completion rpc evidence)
      (fun _ _ => True) ⟨o, [], []⟩ := by
  refine of_move (wp_imp wp_invalidateRoute ?_)
  rintro _ _ ⟨ids, op, slots, hse, rfl⟩
  exact .invalidated ha hse

/-! ## Replies and turns -/

/-- What `finish` does after the pending fetch was taken and an identity was drawn. -/
theorem wp_finish {ids : MetadataOperationIds}
    {out : MetadataInput × Option (TopicName × TopicViewError)} :
    wp (finish fetch rpc evidence out)
      (fun done t' => done = true ∧ ∃ slots,
        Sends evidence (t.owner.machine.apply out.1).2.effects (none, t.owner.requested) slots ∧
        t' = (t.asked out.1 slots).withOwner fun o =>
          markTerminal fetch.evidence out.2 { o with operationIds := ids })
      (fun _ _ => True)
      (t.withOwner fun o => { o with pending := none, operationIds := ids }) := by
  obtain ⟨i, err⟩ := out
  simp only [finish, wp_bind, wp_modify, wp_applyMachine]
  refine wp_imp wp_interpret ?_
  rintro _ _ ⟨slots, hs, rfl⟩
  refine ⟨rfl, slots, ?_, ?_⟩
  · cases err <;> exact hs
  · cases err <;> rfl

/-- The outcome of the fetch in flight was given to the machine. -/
def Reported (result : CallResult) (evidence : EvidenceStamp) (t t' : OwnerTurn) : Prop :=
  ∃ fetch input failure ids slots, t.owner.pending = some fetch ∧
    Reports t.owner fetch result input failure ∧
    Sends evidence (t.owner.machine.apply input).2.effects (none, t.owner.requested) slots ∧
    t' = (t.asked input slots).withOwner fun o =>
      markTerminal fetch.evidence failure { o with operationIds := ids }

theorem wp_observeCompletion {res : CallResult} :
    wp (observeCompletion res rpc evidence)
      (fun done t' => done = false ∧ t' = t ∨ done = true ∧ Reported res evidence t t')
      (fun _ _ => True) t := by
  have hf : ∀ {fetch out ids}, t.owner.pending = some fetch →
      Reports t.owner fetch res out.1 out.2 →
      wp (finish fetch rpc evidence out)
        (fun done t' => done = false ∧ t' = t ∨ done = true ∧ Reported res evidence t t')
        (fun _ _ => True)
        (t.withOwner fun o => { o with pending := none, operationIds := ids }) := by
    intro fetch out ids hg rs
    refine wp_imp wp_finish ?_
    rintro _ _ ⟨rfl, slots, hs, rfl⟩
    exact .inr ⟨rfl, fetch, _, _, ids, slots, hg, rs, hs, rfl⟩
  simp only [observeCompletion, wp_bind, wp_get]
  split
  · rename_i fetch resp hg
    simp only [wp_bind, wp_set, successInput, wp_get]
    split
    · rename_i err hr
      simp only [failureInput, wp_bind]
      refine wp_imp wp_reserveOperation ?_
      rintro fu _ ⟨ids, rfl⟩
      exact hf hg (.rejected (o := t.owner) hr fu)
    · rename_i snap hb
      simp only [wp_bind]
      refine wp_imp wp_reserveOperation ?_
      rintro fu _ ⟨ids, rfl⟩
      exact hf hg (.succeeded (o := t.owner) hb fu)
  · rename_i fetch hg
    simp only [wp_bind, wp_set, failureInput]
    refine wp_imp wp_reserveOperation ?_
    rintro fu _ ⟨ids, rfl⟩
    exact hf hg (.failed fu)
  · exact .inl ⟨rfl, rfl⟩

/-- A turn sends a fetch that was kept, and what it sees next is the outcome of the fetch it
then has in flight. -/
theorem submitRequested_performs :
    Performs build o call (submitRequested turn.requested)
      (fun _ t => t.owner.machine = o.machine ∧ t.owner.limits = o.limits ∧
        t.owner.pending = o.observedFetch turn)
      ⟨o, [], []⟩ := by
  simp only [Moves, submitRequested, wp_bind, wp_get]
  split
  · rename_i fetch hr hk
    simp only [wp_bind, wp_set]
    refine wp_mono wp_submit ?_ fun _ _ _ => .single trivial
    rintro _ _ ⟨hf, rfl⟩
    refine ⟨.single (.submitted hk hf), rfl, rfl, ?_⟩
    rw [observedFetch, if_pos hr, hk]
    rfl
  · rename_i idle
    refine ⟨.refl, rfl, rfl, ?_⟩
    unfold observedFetch
    split_ifs with hr
    · cases hk : o.requested with
      | none => rfl
      | some fetch => exact (idle fetch hr hk).elim
    · rfl

theorem wp_beginScansAfter {progress : Bool} :
    wp (beginScansAfter progress) Q E t ↔
      Q ⟨⟩ (if progress then t.withOwner beginScans else t) := by
  cases progress <;> exact Iff.rfl

/-- The outcome of a fetch and the scans it begins are one move. -/
theorem Reported.move (ha : call = .drive turn evidence) (m : t.owner.machine = o.machine)
    (lim : t.owner.limits = o.limits) (seen : t.owner.pending = o.observedFetch turn)
    (rep : Reported turn.result evidence t t') :
    OwnerMove build o call t (t'.withOwner beginScans) := by
  obtain ⟨fetch, i, err, ids, slots, hg, rs, hs, rfl⟩ := rep
  exact .completed ha (seen.symm.trans hg) m lim hg rs hs

theorem refreshInitially_performs {retry : Bool} :
    Performs build o call (refreshInitially retry rpc evidence) (fun _ _ => True) t := by
  unfold refreshInitially
  refine Moves.get_bind ?_
  split_ifs
  · refine Moves.modify_bind (f := fun _ => _) (fun _ _ _ => trivial)
      (.drawn t.owner.operationIds false) ?_
    refine performs_bind reserveOperation_performs ?_
    rintro op _ ⟨ids, rfl⟩
    exact ask_performs (.refresh _ _)
  · exact Moves.pure trivial

theorem drive_performs (ha : call = .drive turn evidence) :
    Performs build o call (drive turn evidence) (fun _ _ => True) ⟨o, [], []⟩ := by
  unfold drive
  refine performs_bind submitRequested_performs fun submitted t₁ ⟨m, lim, seen⟩ => ?_
  have rest : ∀ completed t₂, Performs build o call
      (do
        let refreshed ← refreshInitially turn.readyForInitial turn.initial evidence
        pure (submitted || completed || refreshed))
      (fun _ _ => True) t₂ := fun completed t₂ =>
    performs_bind (refreshInitially_performs) fun _ _ _ => Moves.pure trivial
  refine wp_bind.2 (wp_mono wp_observeCompletion ?_ fun _ _ _ => .single trivial)
  rintro _ t₂ (⟨rfl, rfl⟩ | ⟨rfl, rep⟩)
  · refine wp_bind.2 (wp_beginScansAfter.2 ?_)
    cases submitted with
    | false => exact rest false _
    | true => exact performs_head .begun (rest false _)
  · refine wp_bind.2 (wp_beginScansAfter.2 ?_)
    rw [if_pos (Bool.or_true submitted)]
    exact performs_head (rep.move ha m lim seen) (rest true _)

/-! ## Calls -/

theorem processTopicView_performs {reserve : ℕ → Bool} {topic : TopicName}
    {newerThan : Option MetadataGeneration} {deadline : Moment} {bytes : ℕ} :
    Performs build o
      (.processTopicView reserve topic newerThan deadline bytes completion rpc now evidence)
      (processTopicView build reserve topic newerThan deadline bytes completion rpc now evidence)
      (fun _ _ => True) ⟨o, [], []⟩ := by
  unfold processTopicView
  refine Moves.get_bind ?_
  split_ifs with late
  · exact of_move (.answered .late)
  have hs : (fun s : MetadataSnapshot => (requirementOf newerThan).satisfiedBy s topic) =
      fun s => newerThan.all fun floor => decide (floor < s.generation) := by
    cases newerThan <;> rfl
  split
  · exact waitForTopicView_performs
  rename_i s isCurrent
  have projected : projected reserve o.machine topic (requirementOf newerThan) =
      TopicView.fromSnapshot reserve s topic := by
    rw [projected, hs, isCurrent]
  split
  · rename_i view found
    exact of_move (.answered (.examined rfl (not_le.1 late) (projected.trans found)))
  · rename_i error found
    exact of_move (.answered (.examined rfl (not_le.1 late) (projected.trans found)))
  · exact waitForTopicView_performs

theorem processTopicViewAfterFailure_performs {topic : TopicName} {due : Moment}
    {bytes : ℕ} :
    Performs build o call
      (processTopicViewAfterFailure build topic observedAt due bytes completion rpc now evidence)
      (fun _ _ => True) ⟨o, [], []⟩ := by
  unfold processTopicViewAfterFailure
  split_ifs
  · exact of_move (.answered .late)
  · exact waitForTopicView_performs

theorem performs_discard (h : Performs build o call x (fun _ _ => True) t) :
    Performs build o call (discard x) (fun _ _ => True) t := by
  change wp ((fun _ => PUnit.unit) <$> x) _ _ t
  exact wp_map.2 h

/-- A call is a sequence of moves. -/
theorem operation_performs (b : Build) (o : MetadataOwner) (call : MetadataCall) :
    Performs b o call (operation b call) (fun _ _ => True) ⟨o, [], []⟩ := by
  cases call with
  | drive turn ev => exact performs_discard (drive_performs rfl)
  | drainControllerWaiters now =>
    exact performs_discard (of_move (.drained .controller (fun _ => true) now nofun))
  | drainPartitionWaiters now =>
    exact performs_discard (of_move (.drained .partition (fun _ => true) now nofun))
  | drainTopicViewWaiters reserve now =>
    exact performs_discard (of_move (.drained .view reserve now fun _ => rfl))
  | drainInvalidationWaiters => exact performs_discard (of_move (.barriersDrained _))
  | waitForPartition ws rpc now ev => exact waitForPartition_performs
  | waitForController req rpc now ev | waitForBroker bid req rpc now ev =>
    exact waitForClusterRoute_performs
  | resolveCoordinatorDirectory rpc ev => exact resolveCoordinatorDirectory_performs
  | processTopicView => exact processTopicView_performs
  | processTopicViewAfterFailure => exact processTopicViewAfterFailure_performs
  | invalidateBrokerRoute | invalidatePartitionRoute => exact invalidateRoute_performs rfl
  | failWaiters err => exact of_move (.failed err)

/-- What holds of how an operation ends holds of the answer of its call. -/
theorem step_of_wp {call : MetadataCall} {Q : OwnerTurn → Prop}
    (h : wp (operation build call) (fun _ t => Q t) (fun _ _ => True) ⟨o, [], []⟩)
    (ok : (o.step build call).2.failure = none) :
    Q ⟨(o.step build call).1, (o.step build call).2.fates, (o.step build call).2.inputs⟩ := by
  unfold wp at h
  unfold step at ok ⊢
  split at h
  · rename_i ans t run
    rw [run]
    exact h
  · rename_i err t run
    rw [run] at ok
    cases ok

/-- A call that does not fail leads from the owner to its new state by moves. -/
theorem step_moves {call : MetadataCall} (ok : (o.step build call).2.failure = none) :
    Relation.ReflTransGen (OwnerMove build o call) ⟨o, [], []⟩
      ⟨(o.step build call).1, (o.step build call).2.fates, (o.step build call).2.inputs⟩ :=
  step_of_wp (wp_mono (operation_performs build o call) (fun _ _ => And.left) fun _ _ _ => trivial)
    ok

/-! ## Runs -/

open Runs

abbrev CallEvent := Event MetadataOwner MetadataCall MetadataAnswer

/-- What holds of a new owner and is kept by every call that meets `G` holds of every run of
such calls. The calls before are at hand. -/
theorem run_calls {lim : MetadataLimits} {I : List CallEvent → MetadataOwner → Prop}
    {G : List CallEvent → CallEvent → Prop} (start : I [] (new lim))
    (more : ∀ past o call, G past (event (step build) o call) → I past o →
      I (past ++ [event (step build) o call]) (o.step build call).1)
    (cs : List MetadataCall)
    (ok : ∀ past e rest, trace (step build) (new lim) cs = past ++ e :: rest → G past e) :
    I (trace (step build) (new lim) cs) (final (step build) (new lim) cs) := by
  refine run_induction (step build) (P := fun _ past o =>
    (∀ pre e rest, past = pre ++ e :: rest → G pre e) → I past o) (fun _ => start) ?_ cs ok
  intro is call ih ok
  refine more _ _ call (ok _ _ [] rfl) (ih ?_)
  exact fun pre e rest split => ok pre e (rest ++ [_]) (by rw [split, append_assoc, cons_append])

end MetadataOwner

end KafkaDriver
