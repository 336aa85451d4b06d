import KafkaDriver.OwnerSteps

/-!
# The fetch in flight

The machine and its owner each keep the fetch in flight : the machine as the refresh it waits
for, the owner as the fetch it has sent or still keeps. `Mirrors` says that these are the same
fetch, or that there is none. It holds in every run (`mirrors_run`), so an outcome the owner
reports is that of the refresh the machine waits for, and a second fetch never finds the place
of the first taken.
-/

namespace KafkaDriver

open Fallible Runs

/-! ## The machine's refresh -/

namespace MetadataMachine

/-- What a transition with these effects makes of the refresh in flight. -/
inductive Asks (before : Option FetchTarget) : List MetadataEffect → Option FetchTarget → Prop
  | nothing : Asks before [] before
  | fetch {operationId : OperationId} {generation : MetadataGeneration} {query : MetadataQuery}
      (idle : before = none) :
      Asks before [.fetch operationId generation query] (some (operationId, generation, query))
  | exhausted {after : Option FetchTarget} : Asks before [.generationExhausted] after

theorem Admission.asks {m : MetadataMachine} {q : MetadataQuery} {op : OperationId}
    {res : MetadataMachine × MetadataTransition} (adm : Admission m q op res) :
    Asks m.awaiting res.2.effects res.1.awaiting := by
  cases adm with
  | coalesced | full => exact .nothing
  | queued st =>
    simp only [awaiting, st]
    exact .nothing
  | started hi =>
    refine .fetch ?_
    rcases hi with st | ⟨_, st, -⟩ <;> simp [awaiting, st]
  | exhausted => exact .exhausted

theorem withdraw_asks (m : MetadataMachine) (tgt : InvalidationTarget)
    (seen : OutcomeStamp) (op : OperationId) :
    Asks m.awaiting (m.withdraw tgt seen op).2.effects (m.withdraw tgt seen op).1.awaiting := by
  have ha := (m.admitQuery_admission tgt.query op .mustFollowCurrent).asks
  unfold withdraw
  split
  rename_i m' tr met
  rw [← refresh, met] at ha
  split_ifs
  · exact ha
  · exact (mapCurrent_awaiting m' tgt.revoke).symm ▸ ha

theorem invalidateTarget_asks (m : MetadataMachine) (tgt : InvalidationTarget)
    (seen : OutcomeStamp) (op : OperationId) :
    Asks m.awaiting (m.invalidateTarget tgt seen op).2.effects
      (m.invalidateTarget tgt seen op).1.awaiting := by
  rcases m.invalidateTarget_cases tgt seen op with ans | ⟨-, -, ans⟩ | ans
  · rw [ans]
    exact .nothing
  · rw [ans]
    exact .nothing
  · rw [ans]
    exact m.withdraw_asks tgt seen op

variable {m : MetadataMachine} {operationId : OperationId} {generation : MetadataGeneration}
  {query : MetadataQuery}

/-- A failure ends the refresh in flight. -/
theorem fail_asks (hg : m.awaiting = some (operationId, generation, query)) (fu : OperationId) :
    Asks none (m.fail operationId fu).2.effects (m.fail operationId fu).1.awaiting := by
  obtain ⟨cur, queued, st⟩ := awaiting_eq_some.1 hg
  simp only [fail, st, ne_eq, not_true_eq_false, if_false]
  cases queued with
  | nil => cases cur <;> exact .nothing
  | cons next queued => exact .fetch rfl

/-- A success of the reserved generation ends the refresh in flight. -/
theorem succeed_asks {snap : MetadataSnapshot}
    (hg : m.awaiting = some (operationId, generation, query))
    (res : snap.generation = generation) (fu : OperationId) :
    Asks none (m.succeed operationId snap fu).2.effects
      (m.succeed operationId snap fu).1.awaiting := by
  obtain ⟨cur, queued, st⟩ := awaiting_eq_some.1 hg
  simp only [succeed, st, res, ne_eq, not_true_eq_false, or_self, if_false]
  split_ifs
  · exact fail_asks hg fu
  unfold install
  split
  · exact .nothing
  · split
    · exact .exhausted
    · exact .fetch rfl

end MetadataMachine

/-! ## The owner's fetch -/

def MetadataFetch.target (fetch : MetadataFetch) : FetchTarget :=
  (fetch.operationId, fetch.generation, fetch.query)

namespace MetadataOwner

open MetadataMachine

/-- The fetches held, the sent one first. -/
def fetches (slots : FetchSlots) : List FetchTarget :=
  (slots.1.toList ++ slots.2.toList).map MetadataFetch.target

/-- The owner holds the fetch the machine waits for and no other. -/
def Mirrors (o : MetadataOwner) : Prop := fetches o.slots = o.machine.awaiting.toList

variable {o : MetadataOwner} {c : MetadataCall} {t t' : OwnerTurn}

theorem Sends.mirrors {ev : EvidenceStamp} {effs : List MetadataEffect}
    {slots slots' : FetchSlots} {pre post : Option FetchTarget}
    (hs : Sends ev effs slots slots') (ha : Asks pre effs post)
    (hg : fetches slots = pre.toList) : fetches slots' = post.toList := by
  cases hs with
  | nothing =>
    cases ha
    exact hg
  | submitted | requested =>
    cases ha with
    | fetch hi =>
      rw [hi] at hg
      simp_all [fetches, MetadataFetch.target]

/-- A fetch that was sent is the only one, and the machine waits for it. -/
theorem Mirrors.awaiting {fetch : MetadataFetch} (hm : Mirrors o) (hg : o.pending = some fetch) :
    o.machine.awaiting = some fetch.target ∧ o.requested = none := by
  unfold Mirrors fetches slots at hm
  cases waits : o.machine.awaiting <;> cases kept : o.requested <;>
    simp_all

/-- The outcome of the fetch that was sent ends the machine's refresh. -/
theorem IsOutcome.asks {fetch : MetadataFetch} {i : MetadataInput}
    (out : IsOutcome o fetch i) (hw : o.machine.awaiting = some fetch.target) :
    Asks none (o.machine.apply i).2.effects (o.machine.apply i).1.awaiting := by
  cases out with
  | failed fu => exact fail_asks hw fu
  | succeeded hb fu =>
    exact succeed_asks hw (MetadataResponse.snapshotFromResponse_stamps hb).1 fu

theorem IsDemand.asks {i : MetadataInput} (d : IsDemand i) (m : MetadataMachine) :
    Asks m.awaiting (m.apply i).2.effects (m.apply i).1.awaiting := by
  cases d with
  | resolve q op | refresh q op => exact (m.admitQuery_admission q op _).asks

theorem Mirrors.step (step : OwnerStep o c t t') (hm : Mirrors t.owner) : Mirrors t'.owner := by
  cases step with
  | quiet hq =>
    unfold Mirrors
    rw [hq.slots, hq.machine]
    exact hm
  | submitted hk hf =>
    unfold Mirrors fetches slots at hm
    rw [hk, hf] at hm
    exact hm
  | demanded _ d ha hs bs =>
    unfold Mirrors
    rw [ha.machine]
    exact hs.mirrors (d.asks _) hm
  | invalidated _ done had first ha hs bs =>
    unfold Mirrors
    rw [ha.machine, apply_invalidationInput]
    rw [apply_invalidationInput] at hs
    exact hs.mirrors (invalidateTarget_asks _ _ _ _) hm
  | completed _ hg out ha hs bs =>
    obtain ⟨hw, hk⟩ := hm.awaiting hg
    unfold Mirrors
    rw [ha.machine]
    exact hs.mirrors (out.asks hw) (by simp [fetches, hk])

/-- The owner holds the fetch the machine waits for, in every run. -/
theorem mirrors_run (b : Build) (lim : MetadataLimits) (cs : List MetadataCall)
    (ok : ∀ e ∈ trace (step b) (new lim) cs, e.answer.failure = none) :
    Mirrors (final (step b) (new lim) cs) :=
  run_owner (I := fun _ o => Mirrors o) (G := fun _ _ => True) rfl
    (fun _ _ hm _ _ steps =>
      steps_invariant (J := fun t => Mirrors t.owner) (fun _ _ => Mirrors.step) steps hm)
    cs ok fun _ _ _ _ => trivial

end MetadataOwner

end KafkaDriver
