import KafkaDriver.FrameDecoder

/-!
# The reactor's frame decoder

`KafkaFrameDecoder` keeps its bytes in a `Vec` of its own and asks a fresh `FrameDecoder` for each
frame. Chunks have at most `Q` bytes, and beyond the configured buffer of `B` bytes it has room
for one more chunk. It answers as one `FrameDecoder` with a buffer of `B + Q` bytes would, and its
allocation never exceeds these `B + Q` bytes (`kafkaFrameDecoder_refines`).
-/

namespace KafkaDriver

open Framing Runs List

/-- A `Vec<u8>` : its bytes and what is allocated for them. -/
structure ByteVec where
  bytes : List UInt8
  capacity : ℕ

namespace ByteVec

def new : ByteVec := ⟨[], 0⟩

def len (v : ByteVec) : ℕ := v.bytes.length

/-- Room for `additional` more bytes; what is allocated is exactly what was asked for. -/
def reserveExact (v : ByteVec) (additional : ℕ) : ByteVec :=
  if v.capacity - v.len < additional then { v with capacity := v.len + additional } else v

/-- More bytes; without room for them the allocation is doubled or more. -/
def extendFromSlice (v : ByteVec) (input : List UInt8) : ByteVec :=
  ⟨v.bytes ++ input, if v.len + input.length ≤ v.capacity then v.capacity
    else max 8 (max (2 * v.capacity) (v.len + input.length))⟩

end ByteVec

inductive KafkaFrameDecodeError where
  | decoderFailed
  | inputChunkTooLarge (incoming limit : ℕ)
  | allocationCapacityExceeded (observed limit : ℕ)
  | framing (error : FrameDecodeError)

inductive KafkaFrameDecoderConfigError where
  | retainedLimitOverflow (buffered maxInput : ℕ)
  | invalidEffectiveLimits (maxFrame maxBuffered : ℕ)

structure KafkaFrameDecoder where
  coalescedLimits : FrameLimits
  maxInputBytes : NonZeroUsize
  borneraRetainedLimit : ℕ
  buffered : ByteVec
  failed : Bool

namespace KafkaFrameDecoder

def minGrowthBytes : ℕ := 8

def new (limits : FrameLimits) (maxInputBytes : NonZeroUsize) :
    Except KafkaFrameDecoderConfigError KafkaFrameDecoder :=
  let buffered := limits.maxBufferedBytes.get
  if fits : buffered + maxInputBytes.get ≤ u64Max then
    if u64Max < buffered + maxInputBytes.get + maxInputBytes.get then
      .error (.retainedLimitOverflow buffered maxInputBytes.get)
    else
      match FrameLimits.new limits.maxFrameBytes
          ⟨buffered + maxInputBytes.get, Nat.add_pos_right _ maxInputBytes.pos, fits⟩ with
      | .error _ => .error (.invalidEffectiveLimits limits.maxFrameBytes.get
          (buffered + maxInputBytes.get))
      | .ok coalescedLimits => .ok ⟨coalescedLimits, maxInputBytes,
          buffered + maxInputBytes.get + maxInputBytes.get, .new, false⟩
  else .error (.retainedLimitOverflow buffered maxInputBytes.get)

variable (k : KafkaFrameDecoder)

def ensureCapacity (accepted : ℕ) : KafkaFrameDecoder × Except KafkaFrameDecodeError Unit :=
  if accepted ≤ k.buffered.capacity then (k, .ok ())
  else
    let target := min (max (max accepted (min u64Max (k.buffered.capacity * 2))) minGrowthBytes)
      k.coalescedLimits.maxBufferedBytes.get
    let buffered := k.buffered.reserveExact (target - k.buffered.len)
    if k.coalescedLimits.maxBufferedBytes.get < buffered.capacity then
      ({ k with buffered := .new, failed := true },
        .error (.allocationCapacityExceeded buffered.capacity
          k.coalescedLimits.maxBufferedBytes.get))
    else ({ k with buffered }, .ok ())

def feed (input : List UInt8) : KafkaFrameDecoder × Except KafkaFrameDecodeError Unit :=
  if k.failed then (k, .error .decoderFailed)
  else if k.maxInputBytes.get < input.length then
    (k, .error (.inputChunkTooLarge input.length k.maxInputBytes.get))
  else if u64Max < k.buffered.len + input.length ∨
      k.coalescedLimits.maxBufferedBytes.get < k.buffered.len + input.length then
    (k, .error (.framing (.bufferCapacityExceeded k.buffered.len input.length
      k.coalescedLimits.maxBufferedBytes.get)))
  else
    match k.ensureCapacity (k.buffered.len + input.length) with
    | (k, .error error) => (k, .error error)
    | (k, .ok ()) => ({ k with buffered := k.buffered.extendFromSlice input }, .ok ())

def nextFrame (k : KafkaFrameDecoder) :
    KafkaFrameDecoder × Except KafkaFrameDecodeError (Option (List UInt8)) :=
  if k.failed then (k, .error .decoderFailed)
  else
    match (FrameDecoder.new k.coalescedLimits).feed k.buffered.bytes with
    | (_, .error error) => ({ k with failed := true }, .error (.framing error))
    | (decoder, .ok ()) =>
      match decoder.nextFrame with
      | (_, .error error) => ({ k with failed := true }, .error (.framing error))
      | (_, .ok none) => (k, .ok none)
      | (_, .ok (some body)) =>
        let rest := k.buffered.bytes.drop (lengthPrefixBytes + body.length)
        ({ k with buffered := if rest.isEmpty then .new else { k.buffered with bytes := rest } },
          .ok (some body))

def step :
    FrameInput → KafkaFrameDecoder × Except KafkaFrameDecodeError (Option (List UInt8))
  | .feed input => ((k.feed input).1, (k.feed input).2.map fun _ => none)
  | .nextFrame => k.nextFrame

/-! ## One call -/

/-- The bytes are within their allocation, and it within its limit. -/
structure Sound (k : KafkaFrameDecoder) : Prop where
  allocated : k.buffered.len ≤ k.buffered.capacity
  within : k.buffered.capacity ≤ k.coalescedLimits.maxBufferedBytes.get

/-- How the adapter reports an error of the framing. -/
def reported : FrameDecodeError → KafkaFrameDecodeError
  | .decoderFailed => .decoderFailed
  | error => .framing error

/-- The `FrameDecoder` the adapter stands for. -/
def mirror : FrameDecoder := ⟨k.coalescedLimits, k.buffered.bytes, k.failed⟩

/-- What is fixed when a decoder is made. -/
def config : FrameLimits × NonZeroUsize × ℕ :=
  (k.coalescedLimits, k.maxInputBytes, k.borneraRetainedLimit)

variable {k : KafkaFrameDecoder}

theorem ensureCapacity_spec (h : k.Sound) {ok : ℕ}
    (hf : ok ≤ k.coalescedLimits.maxBufferedBytes.get) (more : k.buffered.len ≤ ok) :
    ∃ cap, ok ≤ cap ∧ cap ≤ k.coalescedLimits.maxBufferedBytes.get ∧
      k.ensureCapacity ok = ({ k with buffered := ⟨k.buffered.bytes, cap⟩ }, .ok ()) := by
  unfold ensureCapacity
  by_cases enough : ok ≤ k.buffered.capacity
  · exact ⟨k.buffered.capacity, enough, h.within, if_pos enough⟩
  rw [if_neg enough]
  generalize goal : min (max (max ok (min u64Max (k.buffered.capacity * 2))) minGrowthBytes)
    k.coalescedLimits.maxBufferedBytes.get = target
  have ha := h.allocated
  have hl : ok ≤ target := by omega
  have hm : target ≤ k.coalescedLimits.maxBufferedBytes.get := by omega
  have he : k.buffered.reserveExact (target - k.buffered.len) = ⟨k.buffered.bytes, target⟩ := by
    rw [ByteVec.reserveExact, if_pos (by omega)]
    congr 1
    omega
  refine ⟨target, hl, hm, ?_⟩
  simp only [he, not_lt.2 hm, if_false]

/-- A call keeps the bounds. -/
structure Keeps (k k' : KafkaFrameDecoder) : Prop where
  sound : k'.Sound
  config : k'.config = k.config

/-- A chunk is accepted as the `FrameDecoder` accepts it, unless it is too large. -/
theorem feed_spec (h : k.Sound) (i : List UInt8) :
    Keeps k (k.feed i).1 ∧ ((k.feed i).2 ≠ .ok () → (k.feed i).1 = k) ∧
      (i.length ≤ k.maxInputBytes.get →
        (k.feed i).1.mirror = (k.mirror.feed i).1 ∧
          (k.feed i).2 = (k.mirror.feed i).2.mapError reported) := by
  have hs : Keeps k k := ⟨h, rfl⟩
  unfold feed FrameDecoder.feed
  by_cases dead : k.failed = true
  · rw [if_pos dead, if_pos (show k.mirror.failed = true from dead)]
    exact ⟨hs, fun _ => rfl, fun _ => ⟨rfl, rfl⟩⟩
  rw [if_neg dead, if_neg (show ¬ k.mirror.failed = true from dead)]
  by_cases large : k.maxInputBytes.get < i.length
  · rw [if_pos large]
    exact ⟨hs, fun _ => rfl, fun hsm => absurd large (not_lt.2 hsm)⟩
  rw [if_neg large]
  have lim : (u64Max < k.mirror.buffered.length + i.length ∨
      k.mirror.limits.maxBufferedBytes.get < k.mirror.buffered.length + i.length) =
    (u64Max < k.buffered.len + i.length ∨
      k.coalescedLimits.maxBufferedBytes.get < k.buffered.len + i.length) := rfl
  simp only [lim]
  split_ifs with full
  · exact ⟨hs, fun _ => rfl, fun _ => ⟨rfl, rfl⟩⟩
  obtain ⟨-, hf⟩ := not_or.1 full
  obtain ⟨cap, enough, hw, hen⟩ :=
    ensureCapacity_spec h (not_lt.1 hf) (Nat.le_add_right _ _)
  have he : (⟨k.buffered.bytes, cap⟩ : ByteVec).extendFromSlice i =
      ⟨k.buffered.bytes ++ i, cap⟩ := by
    rw [ByteVec.extendFromSlice]
    exact congrArg _ (if_pos enough)
  rw [hen]
  dsimp only
  rw [he]
  refine ⟨⟨⟨?_, hw⟩, rfl⟩, fun hr => absurd rfl hr, fun _ => ⟨rfl, rfl⟩⟩
  exact (length_append).trans_le enough

/-- The errors of framing are reported as such. -/
theorem reported_of_bad {maxFrame : ℕ} {xs : List UInt8} {err : FrameDecodeError}
    (bad : (frameCutter maxFrame).cut xs = .bad err) : reported err = .framing err := by
  change frontFrame maxFrame xs = _ at bad
  unfold frontFrame at bad
  split at bad
  · dsimp only at bad
    split_ifs at bad <;> cases bad <;> rfl
  · cases bad

/-- A frame is taken as the `FrameDecoder` takes it. -/
theorem nextFrame_spec (h : k.Sound) :
    Keeps k k.nextFrame.1 ∧ k.nextFrame.1.mirror = k.mirror.nextFrame.1 ∧
      k.nextFrame.2 = k.mirror.nextFrame.2.mapError reported := by
  cases dead : k.failed with
  | true =>
    rw [nextFrame, if_pos dead, FrameDecoder.nextFrame,
      if_pos (show k.mirror.failed = true from dead)]
    exact ⟨⟨h, rfl⟩, rfl, rfl⟩
  | false =>
    have fed : (FrameDecoder.new k.coalescedLimits).feed k.buffered.bytes = (k.mirror, .ok ()) := by
      have ha := h.allocated
      have hw := h.within
      have hm := k.coalescedLimits.maxBufferedBytes.le
      simp only [ByteVec.len] at ha
      simp only [FrameDecoder.feed, FrameDecoder.new, length_nil, Nat.zero_add, mirror, dead]
      rw [if_neg Bool.false_ne_true, if_neg (by omega)]
      rfl
    have ht := FrameDecoder.nextFrame_eq (d := k.mirror) dead
    unfold nextFrame
    rw [if_neg (by rw [dead]; exact Bool.false_ne_true), fed]
    dsimp only
    rw [ht]
    cases cut : (frameCutter k.mirror.limits.maxFrameBytes.get).cut k.mirror.buffered with
    | wait => exact ⟨⟨h, rfl⟩, rfl, rfl⟩
    | bad err => exact ⟨⟨⟨h.allocated, h.within⟩, rfl⟩, rfl, congrArg _ (reported_of_bad cut).symm⟩
    | frame body rest =>
      have hr : rest = k.buffered.bytes.drop (lengthPrefixBytes + body.length) :=
        rest_of_frame cut
      dsimp only
      rw [← hr]
      split_ifs with empty
      · refine ⟨⟨⟨le_rfl, Nat.zero_le _⟩, rfl⟩, ?_, rfl⟩
        rw [isEmpty_iff.1 empty]
        rfl
      · refine ⟨⟨⟨?_, h.within⟩, rfl⟩, rfl, rfl⟩
        have hf : rest.length ≤ k.buffered.bytes.length := by
          rw [hr]
          exact (drop_sublist _ _).length_le
        exact hf.trans h.allocated

/-! ## Runs -/

theorem Keeps.step (h : k.Sound) (i : FrameInput) : Keeps k (k.step i).1 := by
  cases i with
  | feed i => exact (feed_spec h i).1
  | nextFrame => exact (nextFrame_spec h).1

theorem Keeps.run (h : k.Sound) (is : List FrameInput) :
    Keeps k (final KafkaFrameDecoder.step k is) :=
  final_invariant _ (I := Keeps k) (fun _ i hk =>
    ⟨(Keeps.step hk.sound i).sound, (Keeps.step hk.sound i).config.trans hk.config⟩)
    ⟨h, rfl⟩ is

theorem frameIn_mapError (ans : Except FrameDecodeError (Option (List UInt8))) :
    frameIn (ans.mapError reported) = frameIn ans ∧
      errorIn (ans.mapError reported) = (errorIn ans).map reported := by
  cases ans <;> exact ⟨rfl, rfl⟩

/-- The frames and the first error are those of the `FrameDecoder`. -/
theorem mirrors (h : k.Sound) (is : List FrameInput)
    (hsm : ∀ i, .feed i ∈ is → i.length ≤ k.maxInputBytes.get) :
    framesOf (trace step k is) = framesOf (trace FrameDecoder.step k.mirror is) ∧
      terminalOf (trace step k is) =
        (terminalOf (trace FrameDecoder.step k.mirror is)).map reported := by
  induction is generalizing k with
  | nil => exact ⟨rfl, rfl⟩
  | cons i is ih =>
    have hk := Keeps.step h i
    have hs : (k.step i).1.mirror = (k.mirror.step i).1 ∧
        (k.step i).2 = (k.mirror.step i).2.mapError reported := by
      cases i with
      | feed i =>
        obtain ⟨-, -, ht⟩ := feed_spec h i
        obtain ⟨hm, ans⟩ := ht (hsm i mem_cons_self)
        refine ⟨hm, ?_⟩
        change (k.feed i).2.map _ = _
        rw [ans]
        change _ = ((k.mirror.feed i).2.map _).mapError _
        cases (k.mirror.feed i).2 <;> rfl
      | nextFrame => exact (nextFrame_spec h).2
    have hi : (k.step i).1.maxInputBytes = k.maxInputBytes :=
      congrArg (·.2.1) hk.config
    obtain ⟨frames, terminal⟩ := ih hk.sound fun i mem =>
      hi ▸ hsm i (mem_cons_of_mem _ mem)
    obtain ⟨hf, err⟩ := frameIn_mapError (k.mirror.step i).2
    rw [hs.1] at frames terminal
    simp only [trace, framesOf, terminalOf, flatMap_cons, findSome?_cons, event]
      at frames terminal ⊢
    rw [hs.2, hf, err, frames, terminal]
    refine ⟨rfl, ?_⟩
    cases errorIn (k.mirror.step i).2 <;> rfl

/-- There is room for a chunk behind bytes that are not a whole frame. -/
theorem feed_accepted (h : k.Sound) (hl : k.failed = false) {i : List UInt8}
    (hs : i.length ≤ k.maxInputBytes.get)
    (hr : k.buffered.len + k.maxInputBytes.get ≤ k.coalescedLimits.maxBufferedBytes.get) :
    (k.step (.feed i)).2 = .ok none := by
  obtain ⟨-, -, ht⟩ := feed_spec h i
  have hm := k.coalescedLimits.maxBufferedBytes.le
  have ok : (k.mirror.feed i).2 = .ok () := by
    simp only [FrameDecoder.feed, mirror, hl]
    rw [if_neg Bool.false_ne_true, if_neg]
    simp only [ByteVec.len] at hr
    omega
  change (k.feed i).2.map _ = _
  rw [(ht hs).2, ok]
  rfl

end KafkaFrameDecoder

/-- Chunks are fed to a new decoder, or once it was found to have no further frame. -/
def FedWhenDrained {σ ε : Type*}
    (past : List (Event σ FrameInput (Except ε (Option (List UInt8))))) : Prop :=
  ∀ before e after, past = before ++ e :: after → e.input ≠ .nextFrame →
    before = [] ∨ Drained before

namespace KafkaFrameDecoder

theorem new_spec {lim : FrameLimits} {maxInputBytes : NonZeroUsize} {k : KafkaFrameDecoder}
    (hm : new lim maxInputBytes = .ok k) :
    k.coalescedLimits.maxFrameBytes = lim.maxFrameBytes ∧
      k.coalescedLimits.maxBufferedBytes.get = lim.maxBufferedBytes.get + maxInputBytes.get ∧
      k.maxInputBytes = maxInputBytes ∧
      k.borneraRetainedLimit = lim.maxBufferedBytes.get + 2 * maxInputBytes.get ∧
      k.buffered = .new ∧ k.failed = false := by
  simp only [new, FrameLimits.new] at hm
  split_ifs at hm with hf overflow hre hr
  · cases hm
    refine ⟨rfl, rfl, rfl, ?_, rfl, rfl⟩
    dsimp only
    omega

/-- A decoder that was found to have no further frame holds less than a largest frame. -/
theorem len_of_drained {k : KafkaFrameDecoder} (h : k.Sound) {is : List FrameInput}
    (hd : Drained (trace step k is)) (hl : (final step k is).failed = false) :
    (final step k is).buffered.len <
      lengthPrefixBytes + (final step k is).coalescedLimits.maxFrameBytes.get := by
  obtain ⟨e, last, ha, short⟩ := hd
  rcases eq_nil_or_concat is with rfl | ⟨old, i, rfl⟩
  · cases last
  rw [concat_eq_append] at *
  rw [trace_concat, getLast?_concat] at last
  cases last
  cases ha
  rw [final_concat] at hl ⊢
  obtain ⟨-, hm, ans⟩ := nextFrame_spec (Keeps.run h old).sound
  change frameIn (final step k old).nextFrame.2 = [] at short
  rw [ans, (frameIn_mapError _).1] at short
  have hw := FrameDecoder.cut_of_none (hm ▸ hl) short
  rw [← hm] at hw
  exact length_of_wait hw

end KafkaFrameDecoder

open KafkaFrameDecoder in
/-- Every accepted configuration : with chunks of at most `Q` bytes that are fed after draining,
every chunk is accepted until the decoder fails, and frames and terminal error are those of a
`FrameDecoder` with a buffer of `B + Q` bytes; whatever is called, no more than `B + Q` bytes are
allocated, and a rejected chunk changes nothing. -/
theorem kafkaFrameDecoder_refines (limits : FrameLimits) (maxInputBytes : NonZeroUsize)
    (k : KafkaFrameDecoder) (made : new limits maxInputBytes = .ok k) :
    (k.coalescedLimits.maxFrameBytes = limits.maxFrameBytes ∧
      k.coalescedLimits.maxBufferedBytes.get = limits.maxBufferedBytes.get + maxInputBytes.get ∧
      k.borneraRetainedLimit = limits.maxBufferedBytes.get + 2 * maxInputBytes.get) ∧
    (∀ inputs, (∀ input, .feed input ∈ inputs → input.length ≤ maxInputBytes.get) →
      FedWhenDrained (trace step k inputs) →
        (∀ e ∈ trace step k inputs, e.input ≠ .nextFrame → e.before.failed = false →
          e.answer = .ok none) ∧
        framesOf (trace step k inputs) =
          framesOf (trace FrameDecoder.step (.new k.coalescedLimits) inputs) ∧
        terminalOf (trace step k inputs) =
          (terminalOf (trace FrameDecoder.step (.new k.coalescedLimits) inputs)).map reported) ∧
    ∀ inputs, (final step k inputs).buffered.capacity ≤
        limits.maxBufferedBytes.get + maxInputBytes.get ∧
      (∀ chunk : List UInt8, chunk.length ≤ maxInputBytes.get →
        (final step k inputs).buffered.capacity + chunk.length ≤ k.borneraRetainedLimit) ∧
      ∀ e ∈ trace step k inputs, e.input ≠ .nextFrame → e.answer ≠ .ok none →
        e.after = e.before := by
  obtain ⟨hf, buffer, quantum, hre, empty, live⟩ := new_spec made
  have hs : k.Sound := by
    constructor <;> rw [empty]
    · exact le_rfl
    · exact Nat.zero_le _
  have hm : k.mirror = .new k.coalescedLimits := by
    rw [KafkaFrameDecoder.mirror, empty, live]
    rfl
  refine ⟨⟨hf, buffer, hre⟩, fun inputs hsm fed => ⟨?_, ?_⟩, fun inputs => ?_⟩
  · intro e mem ha hru
    obtain ⟨pre, post, split⟩ := append_of_mem mem
    have hd := fed pre e post split ha
    obtain ⟨old, input, rfl, rfl⟩ := of_trace_eq_append_cons step split
    obtain ⟨hk, same⟩ := Keeps.run hs old
    have hl : (final step k old).coalescedLimits = k.coalescedLimits := congrArg (·.1) same
    have hc : (final step k old).maxInputBytes = maxInputBytes :=
      (congrArg (·.2.1) same).trans quantum
    have few : (final step k old).buffered.len ≤ limits.maxBufferedBytes.get := by
      rcases hd with first | hd
      · cases old with
        | nil =>
          rw [final, empty]
          exact Nat.zero_le _
        | cons => cases first
      · have hsh := len_of_drained hs hd hru
        have hro := limits.roomy
        rw [hl, hf] at hsh
        omega
    cases input with
    | nextFrame => exact absurd rfl ha
    | feed input =>
      refine feed_accepted hk hru ?_ ?_
      · rw [hc]
        exact hsm input (input_mem step mem)
      · rw [hc, hl, buffer]
        exact Nat.add_le_add_right few _
  · rw [← hm]
    exact mirrors hs inputs (quantum ▸ hsm)
  · obtain ⟨hk, same⟩ := Keeps.run hs inputs
    have hl : (final step k inputs).coalescedLimits = k.coalescedLimits := congrArg (·.1) same
    have hw := hk.within
    rw [hl, buffer] at hw
    refine ⟨hw, fun chunk hsm => by omega, fun e mem ha hr => ?_⟩
    obtain ⟨pre, post, split⟩ := append_of_mem mem
    obtain ⟨old, input, rfl, rfl⟩ := of_trace_eq_append_cons step split
    cases input with
    | nextFrame => exact absurd rfl ha
    | feed input =>
      refine (feed_spec (Keeps.run hs old).sound input).2.1 fun hac => hr ?_
      change ((final step k old).feed input).2.map _ = _
      rw [hac]
      rfl

/-- Frames of at most four bytes, a buffer of eight and chunks of seven. -/
def smallDecoder : KafkaFrameDecoder :=
  ⟨⟨.four, ⟨15, by decide, by decide⟩, by decide, by decide⟩,
    ⟨7, by decide, by decide⟩, 22, .new, false⟩

theorem kafkaFrameDecoder_refines_smallDecoder :
    smallDecoder.borneraRetainedLimit = 22 ∧ framesOf (trace KafkaFrameDecoder.step smallDecoder
      [.feed [0, 0, 0, 2, 8, 9], .nextFrame]) = framesOf (trace FrameDecoder.step
        (.new smallDecoder.coalescedLimits) [.feed [0, 0, 0, 2, 8, 9], .nextFrame]) := by
  obtain ⟨⟨-, -, hr⟩, refines, -⟩ := kafkaFrameDecoder_refines
    ⟨⟨4, by decide, by decide⟩, ⟨8, by decide, by decide⟩, by decide, by decide⟩
    ⟨7, by decide, by decide⟩ smallDecoder rfl
  refine ⟨hr, (refines _ (by simp) fun pre e after split ha => ?_).2.1⟩
  rcases pre with _ | ⟨first, _ | ⟨second, rest⟩⟩
  · exact .inl rfl
  · cases split
    exact absurd rfl ha
  · have length := congrArg length split
    simp [trace] at length

end KafkaDriver
