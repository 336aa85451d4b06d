import KafkaDriver.MetadataRevocation
import KafkaDriver.OwnerSteps

/-!
# Callers of invalidations

The caller of an invalidation hands in a completion, which is answered at once or joins the
barrier of its route. `Barriers` is the part of the metadata owner this concerns : the machine
and the barriers, driven by invalidations, other inputs of the machine, scans and `failAll`.

A barrier keeps no stamps. Callers with different reports share it, and the machine keeps only
the latest report of a withdrawn route (`watermark`). `Awaited` ties the two : for every held
completion the watermark is at or after its report, or a refresh brought newer evidence since.
So a barrier that finds its route no longer withdrawn has newer evidence for all of its callers.
-/

namespace KafkaDriver

open Runs MetadataOwner List MetadataFate MetadataInvalidations MetadataMachine

/-! ## Barriers over a machine -/

/-- The machine and the barriers of a metadata owner. -/
structure Barriers where
  machine : MetadataMachine
  invalidations : MetadataInvalidations

inductive BarrierCall where
  | invalidate (target : InvalidationTarget) (observedAt : OutcomeStamp) (operationId : OperationId)
      (completion : ℕ)
  | drive (input : MetadataInput)
  | beginScan
  | scan (budget : NonZeroUsize)
  | failAll

namespace BarrierCall

/-- The completion a call hands in. -/
def completion : BarrierCall → Option ℕ
  | invalidate _ _ _ completion => some completion
  | _ => none

end BarrierCall

namespace Barriers

def step (s : Barriers) : BarrierCall → Barriers × List MetadataFate
  | .invalidate target observedAt operationId completion =>
    let answer := s.machine.apply (invalidationInput target observedAt operationId)
    let barriers := subscribed s.invalidations target completion answer.2.disposition
    (⟨answer.1, barriers.1⟩, barriers.2)
  | .drive input => (⟨(s.machine.apply input).1, s.invalidations⟩, [])
  | .beginScan => (⟨s.machine, s.invalidations.beginScan⟩, [])
  | .scan budget =>
    let turn := s.invalidations.scan s.machine budget
    (⟨s.machine, turn.1⟩, turn.2.1)
  | .failAll => (⟨s.machine, s.invalidations.failAll.1⟩, s.invalidations.failAll.2)

def new (generation : MetadataGeneration) (queries : MetadataQueryLimits)
    (capacity : NonZeroUsize) : Barriers :=
  ⟨.withQueryLimits generation queries, .new capacity⟩

end Barriers

abbrev BarrierEvent := Event Barriers BarrierCall (List MetadataFate)

namespace MetadataFate

/-- The completion of an invalidation. -/
def invalidationOf : MetadataFate → Option ℕ
  | invalidated completion _ => some completion
  | _ => none

end MetadataFate

namespace MetadataInvalidations

/-- The completions the barriers hold. -/
def held (i : MetadataInvalidations) : List ℕ := i.pending.flatMap (·.subscribers)

/-- The counter of subscribers is right and within the capacity. -/
structure Counted (i : MetadataInvalidations) : Prop where
  count : i.subscriberCount = i.held.length
  within : i.subscriberCount ≤ i.capacity.get

variable {i : MetadataInvalidations}

/-- The ways a completion is subscribed. -/
inductive Subscription (i : MetadataInvalidations) (target : InvalidationTarget) (completion : ℕ) :
    MetadataInvalidations × List MetadataFate → Prop
  | full (full : i.capacity.get ≤ i.subscriberCount) :
      Subscription i target completion (i, [.invalidated completion .capacityReached])
  | joined {front back : List PendingInvalidation} {barrier : PendingInvalidation}
      (split : i.pending = front ++ barrier :: back) (isSame : barrier.target.same target = true)
      (room : i.subscriberCount < i.capacity.get) :
      Subscription i target completion
        ({ i with
            pending := front ++
              { barrier with subscribers := barrier.subscribers ++ [completion] } :: back
            subscriberCount := i.subscriberCount + 1 }, [])
  | pushed (room : i.subscriberCount < i.capacity.get) :
      Subscription i target completion (i.push target completion, [])

variable {target : InvalidationTarget} {completion : ℕ}
  {result : MetadataInvalidations × List MetadataFate}

theorem join_subscription (i : MetadataInvalidations) (meant : InvalidationTarget → Bool)
    (hs : ∀ ne, meant ne = true → ne.same target = true) :
    (∃ result, Subscription i target completion (result, []) ∧
        i.join meant completion = (result, .joined)) ∨
      (i.capacity.get ≤ i.subscriberCount ∧ i.join meant completion = (i, .full)) ∨
      i.join meant completion = (i, .missing) := by
  unfold join
  split
  · exact .inr (.inr rfl)
  rename_i k hf
  split_ifs with full
  · exact .inr (.inl ⟨by simpa [hasCapacity] using full, rfl⟩)
  obtain ⟨hi, hm, -⟩ := findIdx?_eq_some_iff_getElem.1 hf
  have hr : i.subscriberCount < i.capacity.get := by simpa [hasCapacity] using full
  refine .inl ⟨_, ?_, rfl⟩
  have split : i.pending = i.pending.take k ++ i.pending[k] :: i.pending.drop (k + 1) := by
    simp
  rw [modify_eq_take_cons_drop hi]
  exact .joined split (hs _ hm) hr

theorem subscribe_subscription (i : MetadataInvalidations) (tgt : InvalidationTarget)
    (done : ℕ) : Subscription i tgt done (i.subscribe tgt done) := by
  have hjo : (∃ res, Subscription i tgt done (res, []) ∧ i.joinTarget tgt done = (res, .joined)) ∨
      (i.capacity.get ≤ i.subscriberCount ∧ i.joinTarget tgt done = (i, .full)) ∨
      i.joinTarget tgt done = (i, .missing) := by
    cases tgt with
    | controller rt =>
      refine i.join_subscription (·.matchesController rt) fun ne hm => ?_
      cases ne with
      | controller cur => exact hm
      | partition cur => cases hm
    | partition rt =>
      refine i.join_subscription (·.matchesPartition rt) fun ne hm => ?_
      cases ne with
      | controller cur => cases hm
      | partition cur => exact hm
  unfold subscribe
  rcases hjo with ⟨res, sub, hj⟩ | ⟨hf, hi⟩ | hmi
  · rw [hj]
    exact sub
  · rw [hi]
    exact .full hf
  rw [hmi]
  dsimp only
  split_ifs with hr
  · exact .pushed (by simpa [hasCapacity] using hr)
  · exact .full (by simpa [hasCapacity] using hr)

theorem Counted.subscribe (cnt : i.Counted)
    (sub : Subscription i target completion result) : result.1.Counted := by
  obtain ⟨n, hw⟩ := cnt
  cases sub with
  | full => exact ⟨n, hw⟩
  | joined split hs hr =>
    refine ⟨?_, hr⟩
    rw [held, split] at n
    simp only [held, flatMap_append, flatMap_cons, length_append, length_singleton] at n ⊢
    omega
  | pushed hr =>
    refine ⟨?_, hr⟩
    simp only [push, held, flatMap_append, flatMap_singleton, length_append,
      length_singleton] at n ⊢
    omega

/-- A subscribed completion is told at once or held. -/
theorem Subscription.conserved {done : ℕ} (sub : Subscription i target done result) :
    (result.2.filterMap invalidationOf ++ result.1.held).Perm (done :: i.held) := by
  cases sub with
  | full => exact .refl _
  | @joined front back bar split hs hr =>
    simp only [held, split, filterMap_nil, nil_append, flatMap_append, flatMap_cons]
    have hm : ((front.flatMap (·.subscribers) ++ bar.subscribers) ++
        done :: back.flatMap (·.subscribers)).Perm (done ::
          ((front.flatMap (·.subscribers) ++ bar.subscribers) ++
            back.flatMap (·.subscribers))) := perm_middle
    simpa only [append_assoc, singleton_append] using hm
  | pushed hr =>
    simp only [push, held, filterMap_nil, nil_append, flatMap_append, flatMap_singleton]
    exact perm_append_singleton _ _

/-- What one turn over the barriers does. -/
structure Scanned (machine : MetadataMachine) (i : MetadataInvalidations)
    (result : MetadataInvalidations × List MetadataFate) : Prop where
  counted : result.1.Counted
  kept : result.1.pending ⊆ i.pending
  conserved : (result.2.filterMap invalidationOf ++ result.1.held).Perm i.held
  told : ∀ fate ∈ result.2, ∃ barrier ∈ i.pending, ∃ completion ∈ barrier.subscribers,
    ∃ disposition, fate = .invalidated completion disposition ∧
      barrier.target.settled machine = some disposition

theorem filterMap_invalidationOf (completions : List ℕ) (disp : InvalidationDisposition) :
    (completions.map (invalidated · disp)).filterMap invalidationOf = completions := by
  rw [filterMap_map]
  exact filterMap_some

theorem Counted.examineLoop (cnt : i.Counted) (machine : MetadataMachine) (n : ℕ) :
    Scanned machine i (i.examineLoop machine n) := by
  induction n generalizing i with
  | zero => exact ⟨cnt, List.Subset.refl _, .refl _, by simp [examineLoop]⟩
  | succ n ih =>
    unfold examineLoop
    split
    · exact ⟨⟨cnt.count, cnt.within⟩, List.Subset.refl _, .refl _, by simp⟩
    rename_i bar rest front
    have sum :
        i.subscriberCount = bar.subscribers.length + (rest.flatMap (·.subscribers)).length := by
      rw [cnt.count, held, front, flatMap_cons, length_append]
    have hw := cnt.within
    split
    · rename_i disp hd
      have hr : wrappingSub i.subscriberCount bar.subscribers.length =
          (rest.flatMap (·.subscribers)).length := by
        rw [wrappingSub, if_pos (by omega)]
        omega
      have room : (rest.flatMap (·.subscribers)).length ≤ i.capacity.get := by omega
      set next : MetadataInvalidations := { i with
        pending := rest
        scanRemaining := wrappingPred i.scanRemaining
        subscriberCount := wrappingSub i.subscriberCount bar.subscribers.length }
      have cnt : next.Counted := ⟨hr, hr.trans_le room⟩
      have hs := ih cnt
      have whole : i.held = bar.subscribers ++ next.held := by
        rw [held, front, flatMap_cons, held]
      have sub : next.pending ⊆ i.pending := front ▸ subset_cons_self _ _
      generalize next.examineLoop machine n = result at hs
      refine ⟨hs.counted, fun ne mem => sub (hs.kept mem), ?_, ?_⟩
      · rw [filterMap_append, filterMap_invalidationOf, append_assoc, whole]
        exact hs.conserved.append_left _
      · intro f mem
        rcases mem_append.1 mem with now | hl
        · obtain ⟨done, hsu, rfl⟩ := mem_map.1 now
          exact ⟨bar, front ▸ mem_cons_self, done, hsu, disp, rfl, hd⟩
        · obtain ⟨ne, mem, rest⟩ := hs.told f hl
          exact ⟨ne, sub mem, rest⟩
    · have ht : (rest ++ [bar]).flatMap (·.subscribers) =
          rest.flatMap (·.subscribers) ++ bar.subscribers := by
        rw [flatMap_append, flatMap_singleton]
      have sub : rest ++ [bar] ⊆ i.pending := by
        rw [front]
        exact perm_append_singleton bar rest |>.subset
      have hs := ih (i := { i with
        pending := rest ++ [bar]
        scanRemaining := wrappingPred i.scanRemaining })
        ⟨by rw [held, ht, length_append]; dsimp only; omega, hw⟩
      refine ⟨hs.counted, fun ne mem => sub (hs.kept mem), ?_, ?_⟩
      · refine hs.conserved.trans ?_
        rw [held, ht, held, front, flatMap_cons]
        exact perm_append_comm
      · intro f mem
        obtain ⟨ne, mem, rest⟩ := hs.told f mem
        exact ⟨ne, sub mem, rest⟩

theorem capacity_examineLoop (machine : MetadataMachine) (n : ℕ) (i : MetadataInvalidations) :
    (i.examineLoop machine n).1.capacity = i.capacity := by
  induction n generalizing i with
  | zero => rfl
  | succ n ih =>
    unfold examineLoop
    split
    · rfl
    · split
      · exact ih _
      · exact ih _

end MetadataInvalidations

/-! ## Newer evidence -/

namespace InvalidationTarget

variable {target ne : InvalidationTarget} {m : MetadataMachine} {observedAt : OutcomeStamp}

/-- The evidence a call brought by an applied refresh of the target's query. -/
def renewedBy (target : InvalidationTarget) (e : BarrierEvent) : Option EvidenceStamp :=
  match e.input with
  | .drive input => target.refreshedBy (event apply e.before.machine input)
  | _ => none

/-- A refresh of the target's query was applied, with evidence after the report. -/
def Renewed (past : List BarrierEvent) (target : InvalidationTarget) (observedAt : OutcomeStamp) :
    Prop :=
  ∃ e ∈ past, ∃ evidence ∈ target.renewedBy e, evidence.isAfter observedAt = true

/-- The target is withdrawn until evidence comes that is after the report. -/
def Awaits (m : MetadataMachine) (target : InvalidationTarget) (observedAt : OutcomeStamp) :
    Prop :=
  ∃ w, target.watermark m.revocations = some w ∧ observedAt ≤ w

/-- The machine waits for evidence after the report until an applied refresh brings it. -/
theorem Awaits.apply (ha : Awaits m target observedAt) (gone : m.Withdrawn)
    (input : MetadataInput) :
    Awaits (m.apply input).1 target observedAt ∨
      ∃ ev ∈ target.refreshedBy (event MetadataMachine.apply m input),
        ev.isAfter observedAt = true := by
  obtain ⟨w, hg, hn⟩ := ha
  have hm : target.watermark (m.apply input).1.revocations = _ :=
    gone.watermark_step input target
  rw [show (event MetadataMachine.apply m input).before = m from rfl, hg] at hm
  split at hm
  · rename_i hl seen
    exact .inl ⟨raise (some w) hl, hm, hn.trans (le_max_left w hl)⟩
  split at hm
  · rename_i ev hr
    by_cases after : ev.isAfter w = true
    · exact .inr ⟨ev, hr, EvidenceStamp.isAfter_of_le after hn⟩
    · refine .inl ⟨w, ?_, hn⟩
      simpa [Option.filter_some, after] using hm
  · exact .inl ⟨w, hm, hn⟩

/-- An invalidation that waits for evidence makes the machine wait for it. -/
theorem awaits_invalidated (hg : m.Withdrawn) (op : OperationId)
    (hw : waitsForEvidence (m.apply (invalidationInput target observedAt op)).2.disposition =
      true) :
    Awaits (m.apply (invalidationInput target observedAt op)).1 target observedAt := by
  have hm := hg.watermark_step (invalidationInput target observedAt op) target
  unfold MetadataMachine.WatermarkStep at hm
  have seen : target.observedBy
      (event apply m (invalidationInput target observedAt op)) = some observedAt := by
    have ha : (invalidationInput target observedAt op).invalidation =
        some (target, observedAt) := by cases target <;> rfl
    have ok : (m.apply (invalidationInput target observedAt op)).2.disposition.accepted = true := by
      revert hw
      cases (m.apply (invalidationInput target observedAt op)).2.disposition <;> decide
    simp only [observedBy, event, ha]
    exact if_pos ⟨target.same_refl, ok⟩
  rw [seen] at hm
  exact ⟨raise (target.watermark m.revocations) observedAt, hm, le_raise _ _⟩

/-- An invalidation brings no evidence. -/
theorem refreshedBy_invalidation (tgt aim : InvalidationTarget) (m : MetadataMachine)
    (t : OutcomeStamp) (op : OperationId) :
    tgt.refreshedBy (event apply m (invalidationInput aim t op)) = none := by
  cases aim <;> rfl

end InvalidationTarget

/-! ## What every call keeps -/

namespace Barriers

open InvalidationTarget

/-- The completions told in a run. -/
def told (past : List BarrierEvent) : List ℕ :=
  past.flatMap fun e => e.answer.filterMap invalidationOf

/-- The completions handed in. -/
def handedIn (calls : List BarrierCall) : List ℕ := calls.filterMap (·.completion)

/-- A completion held for `target` was handed in with a report the machine still waits to see
outdated, or that a refresh outdated. -/
def Awaited (past : List BarrierEvent) (m : MetadataMachine) (target : InvalidationTarget)
    (completion : ℕ) : Prop :=
  ∃ asked observedAt operationId, (∃ e ∈ past, e.input = .invalidate asked observedAt operationId
    completion) ∧ target.same asked = true ∧
      (Awaits m asked observedAt ∨ Renewed past asked observedAt)

structure Kept (past : List BarrierEvent) (s : Barriers) : Prop where
  withdrawn : s.machine.Withdrawn
  counted : s.invalidations.Counted
  conserved : (told past ++ s.invalidations.held).Perm (handedIn (past.map (·.input)))
  awaited : ∀ barrier ∈ s.invalidations.pending, ∀ completion ∈ barrier.subscribers,
    Awaited past s.machine barrier.target completion

variable {past : List BarrierEvent} {s : Barriers} {e : BarrierEvent} {m : MetadataMachine}
  {target : InvalidationTarget} {completion : ℕ} {observedAt : OutcomeStamp}

theorem Renewed.concat (hr : Renewed past target observedAt) (e : BarrierEvent) :
    Renewed (past ++ [e]) target observedAt := by
  obtain ⟨old, mem, rest⟩ := hr
  exact ⟨old, mem_append_left _ mem, rest⟩

/-- A held completion stays awaited through a call that may tell the machine something. -/
theorem Awaited.concat {m' : MetadataMachine} (haw : Awaited past m target completion)
    (e : BarrierEvent) (hm : ∀ aim observedAt, Awaits m aim observedAt →
      Awaits m' aim observedAt ∨ Renewed [e] aim observedAt) :
    Awaited (past ++ [e]) m' target completion := by
  obtain ⟨aim, observedAt, op, ⟨call, mem, input⟩, hs, hw | hr⟩ := haw
  · refine ⟨aim, observedAt, op, ⟨call, mem_append_left _ mem, input⟩, hs, ?_⟩
    rcases hm aim observedAt hw with hst | ⟨now, hi, rest⟩
    · exact .inl hst
    · exact .inr ⟨now, mem_append_right _ hi, rest⟩
  · exact
      ⟨aim, observedAt, op, ⟨call, mem_append_left _ mem, input⟩, hs, .inr (Renewed.concat hr e)⟩

/-- A call that hands in `new` conserves completions if its answers and what is held after are
what was held before and `new`. -/
theorem conserved_concat {held held' : List ℕ}
    (hc : (told past ++ held).Perm (handedIn (past.map (·.input))))
    (here : (e.answer.filterMap invalidationOf ++ held').Perm (e.input.completion.toList ++ held)) :
    (told (past ++ [e]) ++ held').Perm (handedIn ((past ++ [e]).map (·.input))) := by
  have now : told (past ++ [e]) = told past ++ e.answer.filterMap invalidationOf := by
    rw [told, flatMap_append, flatMap_singleton, told]
  have hh : handedIn ((past ++ [e]).map (·.input)) =
      handedIn (past.map (·.input)) ++ e.input.completion.toList := by
    rw [handedIn, map_append, filterMap_append, handedIn]
    cases h : e.input.completion <;> simp [h]
  rw [now, hh, append_assoc]
  refine (here.append_left _).trans ?_
  refine (perm_append_comm.append_left _).trans ?_
  rw [← append_assoc]
  exact hc.append_right _

/-- What an invalidation does to the barriers. -/
theorem Kept.invalidate (hk : Kept past s) (target : InvalidationTarget)
    (observedAt : OutcomeStamp) (op : OperationId) (completion : ℕ) :
    Kept (past ++ [event step s (.invalidate target observedAt op completion)])
      (s.step (.invalidate target observedAt op completion)).1 := by
  set input := invalidationInput target observedAt op with his
  set e := event step s (.invalidate target observedAt op completion) with hit
  have old : ∀ bar ∈ s.invalidations.pending, ∀ completion ∈ bar.subscribers,
      Awaited (past ++ [e]) (s.machine.apply input).1 bar.target completion := by
    intro bar mem ne subscribed
    refine (hk.awaited bar mem ne subscribed).concat e fun aim seenAt hw => .inl ?_
    rcases hw.apply hk.withdrawn input with hst | ⟨ev, hr, -⟩
    · exact hst
    · rw [his, refreshedBy_invalidation] at hr
      cases hr
  cases hw : waitsForEvidence (s.machine.apply input).2.disposition with
  | false =>
    have ht : s.step (.invalidate target observedAt op completion) =
        (⟨(s.machine.apply input).1, s.invalidations⟩,
          [.invalidated completion
            (immediateDisposition (s.machine.apply input).2.disposition)]) := by
      simp only [step, subscribed, ← his, hw, Bool.false_eq_true, if_false]
    rw [ht]
    refine ⟨hk.withdrawn.apply input, hk.counted, conserved_concat hk.conserved ?_, old⟩
    rw [hit, event, ht]
    exact .refl _
  | true =>
    have ht : s.step (.invalidate target observedAt op completion) =
        (⟨(s.machine.apply input).1, (s.invalidations.subscribe target completion).1⟩,
          (s.invalidations.subscribe target completion).2) := by
      simp only [step, subscribed, ← his, hw, if_true]
    have hs := s.invalidations.subscribe_subscription target completion
    have ha : Awaits (s.machine.apply input).1 target observedAt :=
      awaits_invalidated hk.withdrawn op hw
    have hh : ∃ e' ∈ past ++ [e], e'.input = .invalidate target observedAt op completion :=
      ⟨e, mem_append_right _ mem_cons_self, rfl⟩
    rw [ht]
    refine ⟨hk.withdrawn.apply input, hk.counted.subscribe hs, conserved_concat hk.conserved ?_, ?_⟩
    · rw [hit, event, ht]
      exact hs.conserved
    · generalize s.invalidations.subscribe target completion = result at hs
      cases hs with
      | full => exact old
      | @joined front back barrier split hi room =>
        intro bar mem ne subscribed
        rw [split] at old
        rcases mem_append.1 mem with pre | rest
        · exact old bar (mem_append_left _ pre) ne subscribed
        rcases mem_cons.1 rest with rfl | hb
        · rcases mem_append.1 subscribed with earlier | now
          · exact old barrier (mem_append_right _ mem_cons_self) ne earlier
          · rw [mem_singleton.1 now]
            exact ⟨target, observedAt, op, hh, hi, .inl ha⟩
        · exact old bar (mem_append_right _ (mem_cons_of_mem _ hb)) ne subscribed
      | pushed room =>
        intro bar mem ne subscribed
        rcases mem_append.1 mem with pre | last
        · exact old bar pre ne subscribed
        · rw [mem_singleton.1 last] at subscribed ⊢
          rw [mem_singleton.1 subscribed]
          exact ⟨target, observedAt, op, hh, target.same_refl, .inl ha⟩

/-- A call that leaves the machine as it is keeps what barriers it keeps awaited. -/
theorem Awaited.same (ha : Awaited past m target completion) (e : BarrierEvent) :
    Awaited (past ++ [e]) m target completion :=
  ha.concat e fun _ _ => .inl

theorem Kept.called (hk : Kept past s) (c : BarrierCall) :
    Kept (past ++ [event step s c]) (s.step c).1 := by
  cases c with
  | invalidate tgt t op done =>
    exact hk.invalidate tgt t op done
  | drive input =>
    refine ⟨hk.withdrawn.apply input, hk.counted, conserved_concat hk.conserved (.refl _), ?_⟩
    intro bar mem done sub
    refine (hk.awaited bar mem done sub).concat _ fun aim seenAt hw => ?_
    rcases hw.apply hk.withdrawn input with hst | hr
    · exact .inl hst
    · exact .inr ⟨_, mem_cons_self, hr⟩
  | beginScan =>
    have cnt : s.invalidations.beginScan.Counted := ⟨hk.counted.count, hk.counted.within⟩
    exact ⟨hk.withdrawn, cnt, conserved_concat hk.conserved (.refl _),
      fun bar mem done sub =>
        (hk.awaited bar mem done sub).same _⟩
  | scan b =>
    have hs := hk.counted.examineLoop s.machine (min s.invalidations.scanRemaining b.get)
    exact ⟨hk.withdrawn, hs.counted, conserved_concat hk.conserved hs.conserved,
      fun bar mem done sub =>
        (hk.awaited bar (hs.kept mem) done sub).same _⟩
  | failAll =>
    refine ⟨hk.withdrawn, ⟨rfl, Nat.zero_le _⟩, conserved_concat hk.conserved ?_, nofun⟩
    have all : s.invalidations.failAll.2.filterMap invalidationOf = s.invalidations.held := by
      simp only [failAll, filterMap_flatMap, filterMap_invalidationOf, held]
    change (s.invalidations.failAll.2.filterMap invalidationOf ++ []).Perm _
    rw [all, append_nil]
    exact .refl _

theorem kept_run (gen : MetadataGeneration) (queries : MetadataQueryLimits)
    (cap : NonZeroUsize) (cs : List BarrierCall) :
    Kept (trace step (new gen queries cap) cs) (final step (new gen queries cap) cs) := by
  refine run_induction step (P := fun _ past s => Kept past s) ?_ (fun _ c hk => hk.called c) cs
  exact ⟨withdrawn_run gen queries [], ⟨rfl, Nat.zero_le _⟩, .refl _, nofun⟩

/-! ## Answers -/

/-- Why a caller is told what it is told, after the calls of `past`. -/
inductive Answered (past : List BarrierEvent) (e : BarrierEvent) (target : InvalidationTarget)
    (observedAt : OutcomeStamp) (completion : ℕ) : InvalidationDisposition → Prop
  | applied (renewed : Renewed past target observedAt) :
      Answered past e target observedAt completion .applied
  | failed (all : e.input = .failAll) :
      Answered past e target observedAt completion .unavailable
  | given {budget : NonZeroUsize} (scan : e.input = .scan budget)
      (pending : target.isPending e.before.machine.revocations = true)
      (ended : e.before.machine.queryPending target.query = false) :
      Answered past e target observedAt completion .unavailable
  | crowded {operationId : OperationId}
      (asked : e.input = .invalidate target observedAt operationId completion)
      (full : (e.before.machine.apply
        (invalidationInput target observedAt operationId)).2.disposition = .queryCapacityReached) :
      Answered past e target observedAt completion .unavailable
  | stale {operationId : OperationId}
      (asked : e.input = .invalidate target observedAt operationId completion)
      (stale : (e.before.machine.apply
        (invalidationInput target observedAt operationId)).2.disposition = .ignoredStale) :
      Answered past e target observedAt completion .ignoredStale
  | refused {operationId : OperationId}
      (asked : e.input = .invalidate target observedAt operationId completion)
      (full : e.before.invalidations.capacity.get ≤ e.before.invalidations.subscriberCount) :
      Answered past e target observedAt completion .capacityReached

variable {ne : InvalidationTarget} {disposition : InvalidationDisposition}

theorem query_congr (hs : target.same ne = true) : ne.query = target.query := by
  cases target with
  | controller rt =>
    cases ne with
    | controller _ => rfl
    | partition _ => cases hs
  | partition rt =>
    cases ne with
    | controller _ => cases hs
    | partition _ =>
      simp only [same, PartitionRoute.isSameAssignment, decide_eq_true_eq] at hs
      simp only [InvalidationTarget.query, hs.1]

theorem isPending_congr (hs : target.same ne = true) (r : MetadataRevocations) :
    ne.isPending r = target.isPending r := by
  rw [Bool.eq_iff_iff, isPending_iff, isPending_iff, watermark_congr hs]

/-- An invalidation waits, is stale or finds no room. -/
theorem invalidation_disposition (m : MetadataMachine) (tgt : InvalidationTarget)
    (t : OutcomeStamp) (op : OperationId) :
    let disposition := (m.apply (invalidationInput tgt t op)).2.disposition
    waitsForEvidence disposition = true ∨ disposition = .ignoredStale ∨
      disposition = .queryCapacityReached := by
  rw [apply_invalidationInput]
  have step := m.invalidateTarget_invalidation t op tgt
  generalize m.invalidateTarget tgt t op = result at step
  cases step with
  | ignored => exact .inr (.inl rfl)
  | refused hf => exact .inr (.inr hf)
  | covered => exact .inl rfl
  | withdrawn adm met =>
    cases adm with
    | full => exact absurd rfl met
    | _ => exact .inl rfl

/-- A settled barrier tells each of its callers the truth. -/
theorem answered_of_settled (b : NonZeroUsize) (haw : Awaited past s.machine target completion)
    (hd : target.settled s.machine = some disposition) :
    ∃ aim observedAt op, (∃ e ∈ past, e.input = .invalidate aim observedAt op completion) ∧
      Answered past (event step s (.scan b)) aim observedAt completion disposition := by
  obtain ⟨aim, observedAt, op, hh, hs, hsi⟩ := haw
  refine ⟨aim, observedAt, op, hh, ?_⟩
  unfold InvalidationTarget.settled at hd
  split_ifs at hd with hu p
  · cases hd
    rcases hsi with ⟨w, hg, -⟩ | hr
    · -- a route with a watermark is still withdrawn
      have p : aim.isPending s.machine.revocations = true :=
        isPending_iff.2 (by rw [hg]; rfl)
      rw [isPending_congr hs] at p
      simp [p] at hu
    · exact .applied hr
  · cases hd
    have gone : target.isPending s.machine.revocations = true := by simpa using hu
    refine .given (show _ = BarrierCall.scan b from rfl) ?_ ?_
    · rw [isPending_congr hs]
      exact gone
    · rw [query_congr hs]
      exact Bool.eq_false_iff.2 p

/-- Every answer of a call is to a completion that was handed in, and is explained. -/
theorem Kept.answered (hk : Kept past s) (call : BarrierCall)
    (ht : .invalidated completion disposition ∈ (s.step call).2) :
    ∃ asked observedAt op,
      (∃ e ∈ past ++ [event step s call], e.input = .invalidate asked observedAt op completion) ∧
      Answered past (event step s call) asked observedAt completion disposition := by
  cases call with
  | invalidate target observedAt op handed =>
    have now : ∃ e ∈ past ++ [event step s (.invalidate target observedAt op handed)],
        e.input = .invalidate target observedAt op handed :=
      ⟨_, mem_append_right _ mem_cons_self, rfl⟩
    unfold step subscribed at ht
    dsimp only at ht
    split_ifs at ht with waits
    · have sub := s.invalidations.subscribe_subscription target handed
      generalize s.invalidations.subscribe target handed = result at sub ht
      cases sub with
      | full hf =>
        cases mem_singleton.1 ht
        exact ⟨target, observedAt, op, now, .refused rfl hf⟩
      | joined | pushed => cases ht
    · have only := invalidation_disposition s.machine target observedAt op
      injection mem_singleton.1 ht with isCompletion hi
      subst isCompletion hi
      refine ⟨target, observedAt, op, now, ?_⟩
      rcases only with waiting | stale | hf
      · exact absurd waiting waits
      · rw [stale]
        exact .stale rfl stale
      · rw [hf]
        exact .crowded rfl hf
  | drive input | beginScan => cases ht
  | scan budget =>
    have scanned := hk.counted.examineLoop s.machine (min s.invalidations.scanRemaining budget.get)
    obtain ⟨barrier, mem, when, subscribed, _, fate, settled⟩ := scanned.told _ ht
    cases fate
    obtain ⟨asked, observedAt, op, ⟨e, before, input⟩, answered⟩ :=
      answered_of_settled budget (hk.awaited barrier mem completion subscribed) settled
    exact ⟨asked, observedAt, op, ⟨e, mem_append_left _ before, input⟩, answered⟩
  | failAll =>
    obtain ⟨barrier, mem, ht⟩ := mem_flatMap.1 ht
    obtain ⟨when, subscribed, fate⟩ := mem_map.1 ht
    cases fate
    obtain ⟨asked, observedAt, op, ⟨e, before, input⟩, -, -⟩ :=
      hk.awaited barrier mem completion subscribed
    exact ⟨asked, observedAt, op, ⟨e, mem_append_left _ before, input⟩, .failed rfl⟩

/-- Completions handed in once name the call that handed them in. -/
theorem eq_of_completion {cs : List BarrierCall} (hd : (handedIn cs).Nodup)
    {a b : BarrierCall} (first : a ∈ cs) (second : b ∈ cs)
    (here : a.completion = some completion) (ht : b.completion = some completion) : a = b := by
  by_contra apart
  have : Std.Symm fun a b : BarrierCall =>
      ∀ c, a.completion = some c → ∀ d, b.completion = some d → c ≠ d :=
    ⟨fun _ _ differ c ofFirst d ofSecond => (differ d ofSecond c ofFirst).symm⟩
  exact (pairwise_filterMap.1 hd).forall first second apart completion here completion ht rfl

/-- The capacity never changes. -/
theorem capacity_step (s : Barriers) (c : BarrierCall) :
    (s.step c).1.invalidations.capacity = s.invalidations.capacity := by
  cases c with
  | invalidate tgt t op done =>
    unfold step subscribed
    dsimp only
    split_ifs
    · have sub := s.invalidations.subscribe_subscription tgt done
      generalize s.invalidations.subscribe tgt done = result at sub
      cases sub <;> rfl
    · rfl
  | scan b => exact capacity_examineLoop _ _ _
  | _ => rfl

/-- Callers of invalidations get one truthful answer. A completion that was handed in was told
once or is held once. The counter of subscribers is right and within the capacity, so that no
release underflows. Every answer has its reason : newer evidence than the caller's report, no
evidence to come, or no room. -/
theorem invalidation_callers_answered (generation : MetadataGeneration)
    (queries : MetadataQueryLimits) (capacity : NonZeroUsize) (calls : List BarrierCall)
    (distinct : (handedIn calls).Nodup) :
    let start := new generation queries capacity
    let i := (final step start calls).invalidations
    (∀ completion ∈ handedIn calls,
      (told (trace step start calls)).count completion + i.held.count completion = 1) ∧
    i.subscriberCount = (i.pending.map (·.subscribers.length)).sum ∧
    i.subscriberCount ≤ capacity.get ∧
    ∀ past e rest, trace step start calls = past ++ e :: rest →
      ∀ target observedAt op completion disposition,
        .invalidate target observedAt op completion ∈ calls →
        .invalidated completion disposition ∈ e.answer →
          Answered past e target observedAt completion disposition := by
  intro start i
  have kept : Kept (trace step start calls) (final step start calls) :=
    kept_run generation queries capacity calls
  have hf : i.capacity = capacity :=
    final_invariant step (I := fun s => s.invalidations.capacity = capacity)
      (fun s call same => (capacity_step s call).trans same) rfl calls
  refine ⟨fun completion hh => ?_, ?_, hf ▸ kept.counted.within, ?_⟩
  · have hc := kept.conserved.count_eq completion
    rw [map_input_trace, count_append] at hc
    rw [hc]
    exact count_eq_one_of_mem distinct hh
  · rw [kept.counted.count, held, length_flatMap]
  · intro past e rest split target observedAt op completion disposition hh told
    have is : ∀ e' ∈ past ++ [e], e'.input ∈ calls := by
      intro e' mem
      refine input_mem step (s := start) ?_
      rw [split]
      rcases mem_append.1 mem with pre | last
      · exact mem_append_left _ pre
      · rw [mem_singleton.1 last]
        simp
    obtain ⟨old, call, rfl, rfl⟩ := of_trace_eq_append_cons step split
    obtain ⟨aim, at', op', ⟨e', mem, input⟩, ha⟩ :=
      (kept_run generation queries capacity old).answered call told
    have same : BarrierCall.invalidate aim at' op' completion =
        .invalidate target observedAt op completion :=
      eq_of_completion distinct (input ▸ is e' mem) hh rfl rfl
    cases same
    exact ha

/-- Two callers report the failure of the controller, and a later refresh finds it again. -/
def twoReports : List BarrierCall :=
  let route : BrokerRoute := ⟨⟨1⟩, ⟨7⟩, ⟨1⟩⟩
  [.drive (.resolve .cluster ⟨1⟩),
    .drive (.refreshSucceeded ⟨1⟩ (soleSnapshot 1 1) ⟨2⟩),
    .invalidate (.controller route) ⟨2⟩ ⟨3⟩ 0,
    .invalidate (.controller route) ⟨3⟩ ⟨4⟩ 1,
    .drive (.refreshSucceeded ⟨3⟩ (soleSnapshot 2 5) ⟨5⟩),
    .beginScan]

theorem invalidation_callers_answered_twoReports :
    let four : NonZeroUsize := ⟨4, by decide, by decide⟩
    Renewed (trace step (new ⟨1⟩ ⟨four⟩ four) twoReports) (.controller ⟨⟨1⟩, ⟨7⟩, ⟨1⟩⟩) ⟨3⟩ := by
  intro four
  have ha := (invalidation_callers_answered ⟨1⟩ ⟨four⟩ four (twoReports ++ [.scan four])
    (by decide)).2.2.2 _ _ [] (trace_concat _ _ _ _) (.controller ⟨⟨1⟩, ⟨7⟩, ⟨1⟩⟩) ⟨3⟩ ⟨4⟩ 1
      .applied
    (by simp [twoReports]) (by decide +kernel)
  cases ha with
  | applied hr => exact hr

end Barriers

end KafkaDriver
