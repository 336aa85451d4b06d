import Mathlib.Tactic
import Mathlib.Data.Prod.Lex

/-!
# Identities, time and delivery certainty

The driver names calls, external effects, timers, transports and connection generations
by distinct wrappers of one machine word. A wrapper here holds a natural number : an
identity is only compared, and where the source steps one with `checked_add` the
definition that steps it carries the bound `u64Max`.

`Moment` is driver-relative time in nanoseconds. `Delivery` says whether a broker may have
seen a request.
-/

namespace KafkaDriver

/-- `u64::MAX`. -/
def u64Max : ℕ := 2 ^ 64 - 1

/-- `value.checked_add(1)` on a `u64`. -/
def checkedSucc (value : ℕ) : Option ℕ :=
  if value < u64Max then some (value + 1) else none

theorem checkedSucc_eq_some {v next : ℕ} :
    checkedSucc v = some next ↔ v < u64Max ∧ next = v + 1 := by
  unfold checkedSucc
  split_ifs with h <;> simp [h, eq_comm]

/-- `value -= 1` on a `usize` without overflow checks. -/
def wrappingPred (value : ℕ) : ℕ := if value = 0 then u64Max else value - 1

@[simp]
theorem wrappingPred_succ (v : ℕ) : wrappingPred (v + 1) = v := by
  simp [wrappingPred]

/-- `a -= b` on a `usize` without overflow checks. -/
def wrappingSub (a b : ℕ) : ℕ := if b ≤ a then a - b else a + (u64Max + 1) - b

/-- How the crate was built : a release build does not evaluate the arguments of
`debug_assert!` and its relatives. -/
inductive Build where
  | debug
  | release

/-- A `NonZeroUsize` on a 64-bit target. -/
structure NonZeroUsize where
  get : ℕ
  pos : 0 < get
  le : get ≤ u64Max

namespace NonZeroUsize

def one : NonZeroUsize := ⟨1, by decide, by decide⟩

def two : NonZeroUsize := ⟨2, by decide, by decide⟩

def four : NonZeroUsize := ⟨4, by decide, by decide⟩

end NonZeroUsize

/-- Public logical call. -/
structure CallId where
  raw : ℕ
  deriving DecidableEq

/-- Requested external effect. -/
structure EffectId where
  raw : ℕ
  deriving DecidableEq

instance : LinearOrder EffectId :=
  LinearOrder.lift' EffectId.raw fun a b h => by cases a; cases b; simp_all

/-- Scheduled timer. -/
structure TimerId where
  raw : ℕ
  deriving DecidableEq

/-- Reactor transport resource. -/
structure TransportId where
  raw : ℕ
  deriving DecidableEq

/-- Reconnect generation of one connection. -/
structure ConnectionEpoch where
  raw : ℕ
  deriving DecidableEq

instance : LinearOrder ConnectionEpoch :=
  LinearOrder.lift' ConnectionEpoch.raw fun a b h => by cases a; cases b; simp_all

theorem ConnectionEpoch.lt_def {a b : ConnectionEpoch} : a < b ↔ a.raw < b.raw := Iff.rfl

/-- Kafka correlation value of a request header, an `i32`. -/
structure CorrelationId where
  raw : ℤ
  deriving DecidableEq

/-- Validated Kafka node, a nonnegative `i32`. -/
structure BrokerId where
  raw : ℕ
  deriving DecidableEq

instance : LinearOrder BrokerId :=
  LinearOrder.lift' BrokerId.raw fun a b h => by cases a; cases b; simp_all

/-- Traffic kept apart on its own connection of a broker. -/
inductive TrafficClass where
  | control
  | interactive
  | bulk
  | longPoll
  deriving DecidableEq

/-- Every class in stable order. -/
def TrafficClass.all : List TrafficClass := [.control, .interactive, .bulk, .longPoll]

theorem TrafficClass.mem_all (traffic : TrafficClass) : traffic ∈ TrafficClass.all := by
  cases traffic <;> decide

def TrafficClass.stableOrder : TrafficClass → ℕ
  | .control => 0
  | .interactive => 1
  | .bulk => 2
  | .longPoll => 3

theorem TrafficClass.stableOrder_injective : Function.Injective TrafficClass.stableOrder := by
  intro a b hs
  cases a <;> cases b <;> simp_all [TrafficClass.stableOrder]

theorem TrafficClass.stableOrder_lt (traffic : TrafficClass) : traffic.stableOrder < 4 := by
  cases traffic <;> decide

/-- Broker and traffic class of one connection lane. -/
structure BrokerLane where
  brokerId : BrokerId
  trafficClass : TrafficClass
  deriving DecidableEq

instance : LinearOrder BrokerLane :=
  LinearOrder.lift' (fun l => toLex (l.brokerId, l.trafficClass.stableOrder)) fun a b h => by
    obtain ⟨a₁, a₂⟩ := a
    obtain ⟨b₁, b₂⟩ := b
    obtain ⟨h₁, h₂⟩ := Prod.mk.inj (toLex.injective h)
    dsimp only at h₁ h₂
    cases a₂ <;> cases b₂ <;> simp_all [TrafficClass.stableOrder]

/-- Nanoseconds from the driver's monotonic origin. -/
structure Moment where
  nanos : ℕ
  deriving DecidableEq

instance : LinearOrder Moment :=
  LinearOrder.lift' Moment.nanos fun a b h => by cases a; cases b; simp_all

/-- The instant a duration of `nanos` later, absent past the clock's range. -/
def Moment.checkedAdd (m : Moment) (nanos : ℕ) : Option Moment :=
  if m.nanos + nanos ≤ u64Max then some ⟨m.nanos + nanos⟩ else none

/-- Whether a failed operation may have reached a broker. -/
inductive Delivery where
  | notSent
  | possiblySent
  deriving DecidableEq

/-- Combine two observations without letting certainty regress. -/
def Delivery.combine : Delivery → Delivery → Delivery
  | .notSent, .notSent => .notSent
  | .possiblySent, _ => .possiblySent
  | _, .possiblySent => .possiblySent

@[simp] theorem Delivery.combine_possiblySent (d : Delivery) :
    d.combine .possiblySent = .possiblySent := by
  cases d <;> rfl

end KafkaDriver
