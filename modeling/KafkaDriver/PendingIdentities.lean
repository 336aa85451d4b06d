import KafkaDriver.CallLedger

/-!
# The identities of pending calls

Correlations are drawn in a circle of `2 ^ 31` values. A value that a pending call uses is
passed over, and one value more is tried than calls are pending, so the search fails only if
every value is in use (`CorrelationAllocator.inUse_of_exhausted`). Pending calls are told apart
by each of their identities, however often the circle was gone round (`pending_identities`).
-/

namespace KafkaDriver

open Connection List ConnectionMachine PendingQueue

namespace CorrelationAllocator

/-- The number of correlations. -/
def space : ℤ := 2147483648

def InRange (c : ℤ) : Prop := 0 ≤ c ∧ c ≤ i32Max

theorem inRange_zero : InRange 0 := ⟨le_rfl, by decide⟩

variable {isInUse : CorrelationId → Bool} {n : ℕ} {a a' : CorrelationAllocator}
  {drawn : Option CorrelationId}

theorem advance_eq {c : ℤ} (h : InRange c) : advance c = (c + 1) % space := by
  unfold InRange i32Max at h
  unfold advance space i32Max
  split_ifs <;> omega

/-- A search draws a value of the circle, or meets only values in use, one after the other. -/
theorem allocateLoop_spec (h : InRange a.next) (run : allocateLoop isInUse n a = (a', drawn)) :
    InRange a'.next ∧ (∀ c ∈ drawn, InRange c.raw) ∧
      (drawn = none → ∀ k < n, isInUse ⟨(a.next + k) % space⟩ = true) := by
  induction n generalizing a with
  | zero =>
    cases run
    exact ⟨h, by simp, fun _ _ never => (Nat.not_lt_zero _ never).elim⟩
  | succ n ih =>
    have h' : InRange (advance a.next) := by
      rw [advance_eq h]
      unfold InRange space i32Max
      omega
    simp only [allocateLoop] at run
    split_ifs at run with hu
    · obtain ⟨next, range, met⟩ := ih (a := ⟨advance a.next⟩) h' run
      refine ⟨next, range, fun refused k hk => ?_⟩
      cases k with
      | zero =>
        have hs : a.next % space = a.next := Int.emod_eq_of_lt h.1 (Int.lt_of_le_sub_one h.2)
        simpa [hs] using hu
      | succ k =>
        have hl := met refused k (Nat.lt_of_succ_lt_succ hk)
        rwa [advance_eq h, Int.emod_add_emod, add_assoc, add_comm 1] at hl
    · cases run
      exact ⟨h', by simpa using h, by simp⟩

/-- The search for a correlation fails only if all of them are in use. -/
theorem inUse_of_exhausted {q : PendingQueue} (h : InRange a.next)
    (run : a.allocate q.len q.containsCorrelation = (a', none)) {c : ℤ} (hc : InRange c) :
    ∃ call ∈ q.calls, call.correlationId = ⟨c⟩ := by
  have hu : ∀ k < q.len + 1, ∃ call ∈ q.calls, call.correlationId = ⟨(a.next + k) % space⟩ := by
    intro k hk
    simpa [containsCorrelation] using (allocateLoop_spec h run).2.2 rfl k hk
  unfold InRange i32Max at h hc
  by_cases all : space ≤ q.len + 1
  · -- the search went all the way round
    have here : (a.next + ((c - a.next) % space).toNat) % space = c := by
      unfold space
      omega
    obtain ⟨call, p, hs⟩ := hu ((c - a.next) % space).toNat (by
      unfold space at *
      omega)
    exact ⟨call, p, hs.trans (by rw [here])⟩
  · -- more different values would be in use than there are calls
    have hf := Finset.card_le_card_of_injOn (s := Finset.range (q.len + 1))
      (t := (q.calls.map (·.correlationId.raw)).toFinset) (fun k => (a.next + k) % space)
      (by
        intro k hk
        obtain ⟨call, p, hs⟩ := hu k (Finset.mem_range.1 hk)
        exact mem_toFinset.2 (mem_map.2 ⟨call, p, by rw [hs]⟩))
      (by
        intro k hk k' hk' hs
        have hk := Finset.mem_range.1 hk
        have hk' := Finset.mem_range.1 hk'
        unfold space at hs all
        dsimp only at hs
        omega)
    have few := toFinset_card_le (q.calls.map (·.correlationId.raw))
    rw [Finset.card_range] at hf
    rw [length_map] at few
    unfold len at hf
    omega

end CorrelationAllocator

open CorrelationAllocator

/-- What the queue of a state and its next correlation keep within. -/
def Bounded (limits : ConnectionLimits) : StateData → Prop
  | .active _ connection => InRange connection.correlations.next ∧
    (∀ c ∈ connection.pending.calls.map PendingCall.correlationId, InRange c.raw) ∧
    connection.pending.capacity = limits.maxInFlight.get ∧
    connection.pending.calls.length ≤ limits.maxInFlight.get
  | _ => True

variable {m : ConnectionMachine}

theorem Bounded.step {i : ConnectionInput} {st' : StateData} {session' : KafkaSessionMachine}
    {d : Decision} (h : Bounded m.limits m.state) (step : m.Step i st' session' d) :
    Bounded m.limits st' := by
  cases step with
  | kept | rearmed => exact h
  | opens | negotiates | handshakes | exchanges | closes | ends => trivial
  | authenticated | negotiated => exact ⟨inRange_zero, nofun, rfl, Nat.zero_le _⟩
  | exhausted st _ drawn =>
    rw [st] at h
    exact ⟨(allocateLoop_spec h.1 drawn).1, h.2⟩
  | @submits conn _ _ _ _ _ _ _ st _ hr drawn =>
    rw [st] at h
    obtain ⟨next, range, cap, -⟩ := h
    obtain ⟨hn', drawn, -⟩ := allocateLoop_spec next drawn
    refine ⟨hn', ?_, cap, ?_⟩
    · intro c hc
      rcases List.mem_append.1 (by simpa only [push, List.map_append] using hc) with
        old | new
      · exact range c old
      · obtain rfl := List.mem_singleton.1 new
        exact drawn _ rfl
    · have hr : conn.pending.calls.length < conn.pending.capacity := by
        simpa [isFull] using hr
      simp only [push, List.length_append, List.length_singleton]
      omega
  | marks st _ _ hs =>
    rw [st] at h
    obtain ⟨next, range, cap, length⟩ := h
    have count := congrArg List.length hs.2
    rw [List.length_map, List.length_map] at count
    exact ⟨next, hs.2 ▸ range, hs.1.trans cap, count ▸ length⟩
  | settles st _ cs rest _ _ _ hs =>
    rw [st] at h
    obtain ⟨next, range, cap, length⟩ := h
    rw [cs] at range length
    refine ⟨next, ?_, hs.trans cap, ?_⟩
    · intro c hc
      rw [rest] at hc
      refine range c ?_
      simp only [List.map_append, List.map_cons, List.mem_append, List.mem_cons] at hc ⊢
      tauto
    · rw [rest]
      simp only [List.length_append, List.length_cons] at length ⊢
      omega
  | drains st =>
    rw [st] at h
    exact h

theorem bounded_after (initial : m.Initial) (is : List ConnectionInput) :
    Bounded m.limits (m.after is).state := by
  have start : Bounded m.limits m.state := by cases initial <;> trivial
  refine (step_induction (P := fun _ m' => m'.limits = m.limits ∧
    Bounded m.limits m'.state) initial.inStep ⟨rfl, start⟩ (fun _ _ _ _ _ hg => hg) ?_
    is).2.2
  rintro past m₁ i m₂ tr - hm ⟨lim, hg⟩
  have hl' : m₂.limits = m₁.limits := hm.limits
  rw [← lim] at hg ⊢
  exact ⟨hl'.trans rfl, hg.step hm.step⟩

/-- In every ready or draining state the pending calls are at most as many as may be in flight,
and no two share a call, a correlation, a write effect or a timer. A submission is refused for
want of a correlation only if each of the `2 ^ 31` correlations is pending. -/
theorem pending_identities (initial : m.Initial) (inputs : List ConnectionInput)
    {mode : ActiveMode} {connection : ActiveConnection}
    (active : (m.after inputs).state = .active mode connection) :
    connection.pending.calls.Pairwise PendingCall.Distinct ∧
    (∀ call ∈ connection.pending.calls,
      0 ≤ call.correlationId.raw ∧ call.correlationId.raw ≤ i32Max) ∧
    connection.pending.calls.length ≤ m.limits.maxInFlight.get ∧
    ∀ callId effectId timer now deadline,
      ((m.after inputs).submit callId effectId timer now deadline).2 =
        .ok (reject callId .correlationSpaceExhausted) →
      ∀ c, 0 ≤ c → c ≤ i32Max → ∃ call ∈ connection.pending.calls, call.correlationId = ⟨c⟩ := by
  have hb := bounded_after initial inputs
  rw [active] at hb
  obtain ⟨next, range, -, length⟩ := hb
  have hd := (exists_ledger initial inputs).1.distinct
  rw [callQueue_active active] at hd
  refine ⟨hd, fun call pend => range _ (mem_map_of_mem pend), length, ?_⟩
  intro callId effectId timer now deadline hr c low hh
  unfold submit at hr
  rw [active] at hr
  cases mode with
  | draining => simp [reject, failureForClosedState, active, Decision.rejected] at hr
  | ready =>
    dsimp only at hr
    split_ifs at hr
    · cases hr
    · cases hr
    · split at hr
      · exact inUse_of_exhausted next ‹_› ⟨low, hh⟩
      · cases hr

/-- Two calls are pending, under different correlations. -/
theorem pending_identities_twoCalls :
    ∃ connection : ActiveConnection, ((new ⟨1⟩ smallLimits).after
        (twoCalls.take 5)).state = .active .ready connection ∧
      connection.pending.calls.map PendingCall.correlationId = [⟨0⟩, ⟨1⟩] ∧
      connection.pending.calls.length ≤ 2 :=
  ⟨_, rfl, by decide, (pending_identities (.plain ⟨1⟩ smallLimits) (twoCalls.take 5) rfl).2.2.1⟩

end KafkaDriver
