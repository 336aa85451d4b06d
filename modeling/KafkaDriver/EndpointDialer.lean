import KafkaDriver.Bootstrap
import KafkaDriver.Rotation
import KafkaDriver.Runs

/-!
# Dialing the addresses of one endpoint

`EndpointDialer` opens the resolved addresses of an endpoint one after the other and asks for
another resolution when all of them failed in a row. The position and the number of failures are
two counters, reset by different events.

The history of a run is read newest first. `dialed` are the candidates it ends with that were
opened and failed, one right after the other. In every run they are a turn of the addresses that
ends at the position, as many as the counter says, and so all of them when the dialer asks for a
resolution (`resolves_after_all_failed`).
-/

namespace KafkaDriver

open Rotation Runs List

/-! ## The machine -/

inductive DialPhase where
  | idle
  | candidate (selected : ℕ)
  | connected (selected : ℕ)
  deriving DecidableEq

inductive EndpointDialerInput where
  | openCandidate
  | connectionReady
  | connectionFailed
  | resolutionCompleted (addresses : ResolvedAddressSet)

inductive EndpointDialerEffect where
  | openCandidate (endpoint : BrokerEndpoint) (address : ResolvedAddress)
  | resolve (endpoint : BrokerEndpoint)

/-- Owner of one endpoint and its current candidates. An answer is the list of effects. -/
structure EndpointDialer where
  endpoint : BrokerEndpoint
  addresses : ResolvedAddressSet
  next : ℕ
  failures : ℕ
  phase : DialPhase

namespace EndpointDialer

def new (endpoint : BrokerEndpoint) (addresses : ResolvedAddressSet) : EndpointDialer :=
  ⟨endpoint, addresses, 0, 0, .idle⟩

variable (d : EndpointDialer)

def openCandidate : EndpointDialer × List EndpointDialerEffect :=
  if d.phase ≠ .idle then (d, [])
  else
    match d.addresses.addresses[d.next]? with
    | none => (d, [])
    | some address =>
      ({ d with
          next := (d.next + 1) % d.addresses.addresses.length
          phase := .candidate d.next },
        [.openCandidate d.endpoint address])

def connectionReady : EndpointDialer × List EndpointDialerEffect :=
  match d.phase with
  | .candidate selected => ({ d with failures := 0, phase := .connected selected }, [])
  | _ => (d, [])

def candidateFailed : EndpointDialer × List EndpointDialerEffect :=
  if d.failures + 1 < d.addresses.addresses.length then
    ({ d with failures := d.failures + 1, phase := .idle }, [])
  else ({ d with failures := 0, phase := .idle }, [.resolve d.endpoint])

def connectionFailed : EndpointDialer × List EndpointDialerEffect :=
  match d.phase with
  | .candidate _ => d.candidateFailed
  | .connected selected => ({ d with next := selected, failures := 0, phase := .idle }, [])
  | .idle => (d, [])

def replaceAddresses (addresses : ResolvedAddressSet) :
    EndpointDialer × List EndpointDialerEffect :=
  ({ d with addresses, next := 0, failures := 0, phase := .idle }, [])

def apply : EndpointDialerInput → EndpointDialer × List EndpointDialerEffect
  | .openCandidate => d.openCandidate
  | .connectionReady => d.connectionReady
  | .connectionFailed => d.connectionFailed
  | .resolutionCompleted addresses => d.replaceAddresses addresses

/-! ## Histories -/

/-- What happened to the candidates. -/
inductive Mark where
  | opened (address : ResolvedAddress)
  | ready
  | failed
  | lost
  | resolve
  | replaced (addresses : ResolvedAddressSet)

/-- What an input says of the candidate at work. -/
def inputMark : EndpointDialerInput → DialPhase → Option Mark
  | .connectionReady, .candidate _ => some .ready
  | .connectionFailed, .candidate _ => some .failed
  | .connectionFailed, .connected _ => some .lost
  | .resolutionCompleted addresses, _ => some (.replaced addresses)
  | _, _ => none

def effectMark : EndpointDialerEffect → Mark
  | .openCandidate _ address => .opened address
  | .resolve _ => .resolve

/-- The marks of a step, newest first. -/
def marks (i : EndpointDialerInput) : List Mark :=
  (d.apply i).2.reverse.map effectMark ++ (inputMark i d.phase).toList

/-- The marks of a run, newest first. -/
def history (is : List EndpointDialerInput) : List Mark :=
  (trace apply d is).foldl (fun H e => e.before.marks e.input ++ H) []

/-- The candidates that failed one right after the other, up to now. -/
def dialed : List Mark → List ResolvedAddress
  | .failed :: .opened address :: H => dialed H ++ [address]
  | _ => []

/-- The number of candidates opened and not ended. -/
def outstanding : List Mark → ℕ
  | .opened _ :: H => outstanding H + 1
  | .failed :: H | .lost :: H => outstanding H - 1
  | .ready :: H | .resolve :: H => outstanding H
  | .replaced _ :: _ | [] => 0

/-- What the history says of an idle dialer. -/
structure Idle (H : List Mark) (addresses : List ResolvedAddress) (next failures : ℕ) : Prop where
  within : next < addresses.length
  few : failures < addresses.length
  settled : outstanding H = 0
  counts : (dialed H).length = failures
  turn : Turn addresses next (dialed H)
  lost : H.head? = some .lost →
    ∃ a rest, addresses[next]? = some a ∧ H = .lost :: .ready :: .opened a :: rest
  replaced : ∀ as rest, H = .replaced as :: rest → addresses = as.addresses ∧ next = 0

/-- What the history says of a dialer. -/
def Tells (H : List Mark) (d : EndpointDialer) : Prop :=
  match d.phase with
  | .idle => Idle H d.addresses.addresses d.next d.failures
  | .candidate selected => ∃ a rest, H = .opened a :: rest ∧
      d.addresses.addresses[selected]? = some a ∧
      d.next = (selected + 1) % d.addresses.addresses.length ∧
      Idle rest d.addresses.addresses selected d.failures
  | .connected selected => ∃ a rest, H = .ready :: .opened a :: rest ∧
      d.addresses.addresses[selected]? = some a ∧ outstanding rest = 0

variable {d : EndpointDialer} {H : List Mark} {addresses : List ResolvedAddress}
  {a : ResolvedAddress} {next failures : ℕ}

/-- The candidate at the position fails. -/
theorem Idle.fail (h : Idle H addresses next failures) (here : addresses[next]? = some a) :
    (dialed (.failed :: .opened a :: H)).length = failures + 1 ∧
      Turn addresses ((next + 1) % addresses.length) (dialed (.failed :: .opened a :: H)) := by
  refine ⟨by rw [dialed, length_append, h.counts]; rfl, (h.turn.concat ?_ ?_).mod⟩
  · rw [h.counts]
    exact h.few
  · rw [Nat.mod_eq_of_lt h.within, here]

/-- A mark after which nothing was dialed yet. -/
theorem Idle.fresh (hw : next < addresses.length) (settled : outstanding H = 0) (hn : dialed H = [])
    (hl : H.head? = some .lost →
      ∃ a rest, addresses[next]? = some a ∧ H = .lost :: .ready :: .opened a :: rest)
    (hr : ∀ as rest, H = .replaced as :: rest → addresses = as.addresses ∧ next = 0) :
    Idle H addresses next 0 :=
  ⟨hw, by omega, settled, by rw [hn]; rfl, hn ▸ .nil _ _, hl, hr⟩

theorem Tells.step (h : Tells H d) (i : EndpointDialerInput) :
    Tells (d.marks i ++ H) (d.apply i).1 := by
  cases i with
  | openCandidate =>
    cases phase : d.phase with
    | idle =>
      simp only [Tells, phase] at h
      have here := getElem?_eq_getElem h.within
      simp only [marks, apply, openCandidate, inputMark, phase, here]
      exact ⟨_, H, rfl, here, rfl, h⟩
    | _ => simpa [marks, apply, openCandidate, inputMark, phase] using h
  | connectionReady =>
    cases phase : d.phase with
    | candidate sel =>
      simp only [Tells, phase] at h
      obtain ⟨a, rest, rfl, here, -, hi⟩ := h
      simp only [marks, apply, connectionReady, inputMark, phase]
      exact ⟨a, rest, rfl, here, hi.settled⟩
    | _ => simpa [marks, apply, connectionReady, inputMark, phase] using h
  | connectionFailed =>
    cases phase : d.phase with
    | idle => simpa [marks, apply, connectionFailed, inputMark, phase] using h
    | connected sel =>
      simp only [Tells, phase] at h
      obtain ⟨a, rest, rfl, here, settled⟩ := h
      simp only [marks, apply, connectionFailed, inputMark, phase]
      exact .fresh (List.getElem?_eq_some_iff.1 here).1 (by simp [outstanding, settled]) rfl
        (fun _ => ⟨a, rest, here, rfl⟩) nofun
    | candidate sel =>
      simp only [Tells, phase] at h
      obtain ⟨a, rest, rfl, here, next, hi⟩ := h
      obtain ⟨hc, turn⟩ := hi.fail here
      have hw : d.next < d.addresses.addresses.length := by
        rw [next]
        exact Nat.mod_lt _ (Nat.zero_lt_of_lt hi.within)
      have settled : outstanding (.failed :: .opened a :: rest) = 0 := by
        simp [outstanding, hi.settled]
      simp only [marks, apply, connectionFailed, candidateFailed, inputMark, phase]
      split_ifs with more
      · exact ⟨hw, more, settled, hc, next ▸ turn, nofun, nofun⟩
      · exact .fresh hw settled rfl nofun nofun
  | resolutionCompleted addresses =>
    refine Idle.fresh (length_pos_iff.2 addresses.nonempty) rfl rfl nofun ?_
    intro as rest hs
    cases hs
    exact ⟨rfl, rfl⟩

variable (endpoint : BrokerEndpoint) (addresses : ResolvedAddressSet)
  (is : List EndpointDialerInput)

theorem tells_run :
    Tells ((new endpoint addresses).history is) (final apply (new endpoint addresses) is) := by
  refine run_induction apply
    (P := fun _ t d => Tells (t.foldl (fun H e => e.before.marks e.input ++ H) []) d) ?_ ?_ is
  · exact Idle.fresh (length_pos_iff.2 addresses.nonempty) rfl rfl nofun nofun
  · intro is i h
    rw [foldl_append]
    exact h.step i

/-- In every run at most one candidate is outstanding. A step asks for a resolution if and only if
it is the failure of the last of as many candidates as there are addresses, opened and failed
one right after the other, in cyclic order. An idle dialer opens the address at its position,
which follows those that failed last; after the loss of a connected candidate that is the same
address, and after a replacement the first one. -/
theorem resolves_after_all_failed (i : EndpointDialerInput) :
    let d := final apply (new endpoint addresses) is
    let H := (new endpoint addresses).history is
    outstanding H ≤ 1 ∧
    (.resolve ∈ d.marks i ↔ inputMark i d.phase = some .failed ∧
      d.addresses.addresses.length ≤ (dialed (.failed :: H)).length) ∧
    (.resolve ∈ d.marks i → ∃ k, dialed (.failed :: H) = d.addresses.addresses.rotate k) ∧
    (d.phase = .idle → Turn d.addresses.addresses d.next (dialed H) ∧
      ∃ b, d.addresses.addresses[d.next]? = some b ∧ d.marks .openCandidate = [.opened b]) ∧
    ∀ b, .opened b ∈ d.marks i →
      (H.head? = some .lost → ∃ rest, H = .lost :: .ready :: .opened b :: rest) ∧
      ∀ as rest, H = .replaced as :: rest → as.addresses.head? = some b := by
  intro d H
  have h : Tells H d := tells_run endpoint addresses is
  generalize d = d at h
  generalize H = H at h
  cases phase : d.phase with
  | idle =>
    simp only [Tells, phase] at h
    obtain ⟨next, here⟩ : ∃ b, d.addresses.addresses[d.next]? = some b :=
      ⟨_, getElem?_eq_getElem h.within⟩
    have hsi : .resolve ∉ d.marks i ∧ inputMark i .idle ≠ some .failed := by
      cases i <;> simp [marks, apply, openCandidate, connectionReady, connectionFailed,
        replaceAddresses, inputMark, effectMark, phase, here]
    have opens : d.marks .openCandidate = [.opened next] := by
      simp only [marks, apply, openCandidate, inputMark, phase, here]
      rfl
    refine ⟨by rw [h.settled]; omega, by simp [hsi], fun ha => absurd ha hsi.1,
      fun _ => ⟨h.turn, next, here, opens⟩, ?_⟩
    intro b ho
    have hs : d.addresses.addresses[d.next]? = some b := by
      revert ho
      cases i <;> simp +contextual [marks, apply, openCandidate, connectionReady, connectionFailed,
        replaceAddresses, inputMark, effectMark, phase, here]
    refine ⟨fun hl => ?_, fun as rest hr => ?_⟩
    · obtain ⟨a, rest, hf, rfl⟩ := h.lost hl
      obtain rfl := Option.some.inj (hs.symm.trans hf)
      exact ⟨rest, rfl⟩
    · obtain ⟨all, zero⟩ := h.replaced as rest hr
      rw [← hs, all, zero, head?_eq_getElem?]
  | connected sel =>
    simp only [Tells, phase] at h
    obtain ⟨a, rest, rfl, -, settled⟩ := h
    have hsi : .resolve ∉ d.marks i ∧ (∀ b, .opened b ∉ d.marks i) ∧
        inputMark i (.connected sel) ≠ some .failed := by
      cases i <;> simp [marks, apply, openCandidate, connectionReady, connectionFailed,
        replaceAddresses, inputMark, phase]
    exact ⟨by simp [outstanding, settled], by simp [hsi], fun ha => absurd ha hsi.1, nofun,
      fun b ho => absurd ho (hsi.2.1 b)⟩
  | candidate sel =>
    simp only [Tells, phase] at h
    obtain ⟨a, rest, rfl, here, -, hi⟩ := h
    obtain ⟨counts, turn⟩ := hi.fail here
    have few := hi.few
    have ha : .resolve ∈ d.marks i ↔ inputMark i (.candidate sel) = some .failed ∧
        d.addresses.addresses.length ≤ d.failures + 1 := by
      cases i with
      | connectionFailed =>
        simp only [marks, apply, connectionFailed, candidateFailed, inputMark, phase]
        split_ifs with more <;> simp [effectMark] <;> omega
      | _ => simp [marks, apply, openCandidate, connectionReady, replaceAddresses, inputMark, phase]
    have hop : ∀ b, .opened b ∉ d.marks i := by
      intro b
      cases i with
      | connectionFailed =>
        simp only [marks, apply, connectionFailed, candidateFailed, inputMark, phase]
        split_ifs <;> simp [effectMark]
      | _ => simp [marks, apply, openCandidate, connectionReady, replaceAddresses, inputMark, phase]
    refine ⟨by simp [outstanding, hi.settled], by rw [ha, counts], fun now => ⟨_, turn.whole ?_⟩,
      nofun, fun b ho => absurd ho (hop b)⟩
    have all := (ha.1 now).2
    omega

end EndpointDialer

end KafkaDriver
