import KafkaDriver.Framing
import KafkaDriver.Identity
import KafkaDriver.Runs

/-!
# Kafka frames

A `FrameDecoder` accumulates chunks of bytes and takes frames off them, each a signed 32-bit
length in big-endian order and a body. It is a `Framing.Cutter` with a buffer : which frames and
which terminal error come out depends on the bytes fed, not on the chunks they were fed in nor on
when frames were asked for (`frames_of_every_chunking`).
-/

namespace KafkaDriver

open Framing Runs List

/-! ## Limits -/

def lengthPrefixBytes : ℕ := 4

def maxI32 : ℕ := 2 ^ 31 - 1

/-- Limits on one frame and on the bytes held : the buffer has room for the largest frame. -/
structure FrameLimits where
  maxFrameBytes : NonZeroUsize
  maxBufferedBytes : NonZeroUsize
  representable : maxFrameBytes.get ≤ maxI32
  roomy : maxFrameBytes.get + lengthPrefixBytes ≤ maxBufferedBytes.get

inductive FrameLimitsError where
  | frameExceedsProtocolMaximum (requested maximum : ℕ)
  | bufferCannotHoldMaximumFrame (required configured : ℕ)

def FrameLimits.new (maxFrameBytes maxBufferedBytes : NonZeroUsize) :
    Except FrameLimitsError FrameLimits :=
  if representable : maxFrameBytes.get ≤ maxI32 then
    -- the sum cannot overflow : the frame limit is far below `usize::MAX`
    if roomy : maxFrameBytes.get + lengthPrefixBytes ≤ maxBufferedBytes.get then
      .ok ⟨maxFrameBytes, maxBufferedBytes, representable, roomy⟩
    else .error (.bufferCannotHoldMaximumFrame (maxFrameBytes.get + lengthPrefixBytes)
      maxBufferedBytes.get)
  else .error (.frameExceedsProtocolMaximum maxFrameBytes.get maxI32)

/-! ## The decoder -/

inductive FrameDecodeError where
  | decoderFailed
  | bufferCapacityExceeded (buffered incoming limit : ℕ)
  | negativeFrameLength (length : ℤ)
  | frameTooLarge (length limit : ℕ)
  deriving DecidableEq

/-- Four bytes as a signed integer, the most significant one first. -/
def i32FromBeBytes (b₀ b₁ b₂ b₃ : UInt8) : ℤ :=
  let raw := ((b₀.toNat * 256 + b₁.toNat) * 256 + b₂.toNat) * 256 + b₃.toNat
  if raw ≤ maxI32 then raw else raw - 2 ^ 32

structure FrameDecoder where
  limits : FrameLimits
  buffered : List UInt8
  failed : Bool

namespace FrameDecoder

def new (limits : FrameLimits) : FrameDecoder := ⟨limits, [], false⟩

def bufferedBytes (d : FrameDecoder) : ℕ := d.buffered.length

def feed (d : FrameDecoder) (input : List UInt8) : FrameDecoder × Except FrameDecodeError Unit :=
  if d.failed then (d, .error .decoderFailed)
  else if u64Max < d.buffered.length + input.length ∨
      d.limits.maxBufferedBytes.get < d.buffered.length + input.length then
    (d, .error (.bufferCapacityExceeded d.buffered.length input.length
      d.limits.maxBufferedBytes.get))
  else ({ d with buffered := d.buffered ++ input }, .ok ())

def fail (d : FrameDecoder) (error : FrameDecodeError) :
    FrameDecoder × Except FrameDecodeError (Option (List UInt8)) :=
  ({ d with failed := true }, .error error)

def nextFrame (d : FrameDecoder) : FrameDecoder × Except FrameDecodeError (Option (List UInt8)) :=
  if d.failed then (d, .error .decoderFailed)
  else
    match d.buffered with
    | b₀ :: b₁ :: b₂ :: b₃ :: _ =>
      let signedLength := i32FromBeBytes b₀ b₁ b₂ b₃
      if signedLength < 0 then d.fail (.negativeFrameLength signedLength)
      else
        let length := signedLength.toNat
        if d.limits.maxFrameBytes.get < length then
          d.fail (.frameTooLarge length d.limits.maxFrameBytes.get)
        else
          let total := lengthPrefixBytes + length
          if d.buffered.length < total then (d, .ok none)
          else ({ d with buffered := d.buffered.drop total },
            .ok (some ((d.buffered.take total).drop lengthPrefixBytes)))
    | _ => (d, .ok none)

end FrameDecoder

/-! ## Frames of a stream -/

/-- What stands at the front of a stream of bytes. -/
def frontFrame (maxFrame : ℕ) : List UInt8 → Cut UInt8 (List UInt8) FrameDecodeError
  | b₀ :: b₁ :: b₂ :: b₃ :: body =>
    let signedLength := i32FromBeBytes b₀ b₁ b₂ b₃
    if signedLength < 0 then .bad (.negativeFrameLength signedLength)
    else if maxFrame < signedLength.toNat then .bad (.frameTooLarge signedLength.toNat maxFrame)
    else if body.length < signedLength.toNat then .wait
    else .frame (body.take signedLength.toNat) (body.drop signedLength.toNat)
  | _ => .wait

/-- Frames are cut off the front. -/
def frameCutter (maxFrame : ℕ) : Cutter UInt8 (List UInt8) FrameDecodeError where
  cut := frontFrame maxFrame
  shrinks {xs body rest} cut := by
    unfold frontFrame at cut
    split at cut
    · dsimp only at cut
      split_ifs at cut
      obtain ⟨-, rfl⟩ := Cut.frame.inj cut
      simp only [length_drop, length_cons]
      omega
    · cases cut
  frame_append {xs body rest} more cut := by
    unfold frontFrame at cut
    split at cut
    · dsimp only at cut
      split_ifs at cut with negative large short
      obtain ⟨rfl, rfl⟩ := Cut.frame.inj cut
      simp only [cons_append, frontFrame, negative, large, if_false]
      rw [not_lt] at short
      rw [if_neg (by rw [length_append]; omega), take_append_of_le_length short,
        drop_append_of_le_length short]
    · cases cut

/-- What is left behind a frame. -/
theorem rest_of_frame {maxFrame : ℕ} {xs body rest : List UInt8}
    (cut : (frameCutter maxFrame).cut xs = .frame body rest) :
    rest = xs.drop (lengthPrefixBytes + body.length) := by
  change frontFrame maxFrame xs = _ at cut
  unfold frontFrame at cut
  split at cut
  · dsimp only at cut
    split_ifs at cut with negative large hs
    obtain ⟨rfl, rfl⟩ := Cut.frame.inj cut
    rw [length_take, min_eq_left (not_lt.1 hs), lengthPrefixBytes, Nat.add_comm]
    rfl
  · cases cut

/-- Bytes that are not a whole frame are fewer than a largest frame. -/
theorem length_of_wait {maxFrame : ℕ} {xs : List UInt8}
    (cut : (frameCutter maxFrame).cut xs = .wait) : xs.length < lengthPrefixBytes + maxFrame := by
  change frontFrame maxFrame xs = _ at cut
  unfold frontFrame at cut
  split at cut
  · dsimp only at cut
    split_ifs at cut with negative large hs
    simp only [length_cons, lengthPrefixBytes]
    omega
  · rename_i hs
    match xs, hs with
    | [], _ | [_], _ | [_, _], _ | [_, _, _], _ =>
      simp only [length_cons, length_nil, lengthPrefixBytes]
      omega
    | _ :: _ :: _ :: _ :: _, hs => exact (hs _ _ _ _ _ rfl).elim

/-- A body with its length in front. -/
def encodeFrame (body : List UInt8) : List UInt8 :=
  UInt8.ofNat (body.length / 2 ^ 24) :: UInt8.ofNat (body.length / 2 ^ 16) ::
    UInt8.ofNat (body.length / 2 ^ 8) :: UInt8.ofNat body.length :: body

theorem i32FromBeBytes_encode {length : ℕ} (hf : length ≤ maxI32) :
    i32FromBeBytes (UInt8.ofNat (length / 2 ^ 24)) (UInt8.ofNat (length / 2 ^ 16))
      (UInt8.ofNat (length / 2 ^ 8)) (UInt8.ofNat length) = length := by
  unfold i32FromBeBytes maxI32 at *
  simp only [UInt8.toNat_ofNat']
  split_ifs <;> omega

variable {limits : FrameLimits}

/-- Framed bodies are cut into these bodies. -/
theorem parses_encoded {bodies : List (List UInt8)}
    (hs : ∀ body ∈ bodies, body.length ≤ limits.maxFrameBytes.get) :
    Parses (frameCutter limits.maxFrameBytes.get) (bodies.flatMap encodeFrame) bodies (.ok []) := by
  induction bodies with
  | nil => exact .wait rfl
  | cons body bodies ih =>
    have hsh : body.length ≤ limits.maxFrameBytes.get := hs body mem_cons_self
    have hl := ih fun ne mem => hs ne (mem_cons_of_mem _ mem)
    refine .frame ?_ hl
    change frontFrame _ (encodeFrame body ++ bodies.flatMap encodeFrame) = _
    simp only [encodeFrame, cons_append, frontFrame,
      i32FromBeBytes_encode (hsh.trans limits.representable), Int.toNat_natCast]
    rw [if_neg (by omega), if_neg (by omega), if_neg (by rw [length_append]; omega),
      take_left, drop_left]

namespace FrameDecoder

/-- The decoder does what the cutter finds. -/
theorem nextFrame_eq {d : FrameDecoder} (hl : d.failed = false) :
    d.nextFrame = match (frameCutter d.limits.maxFrameBytes.get).cut d.buffered with
      | .wait => (d, .ok none)
      | .bad error => (d.fail error)
      | .frame body rest => ({ d with buffered := rest }, .ok (some body)) := by
  change _ = match frontFrame d.limits.maxFrameBytes.get d.buffered with
    | .wait => _ | .bad error => _ | .frame body rest => _
  unfold nextFrame frontFrame
  rw [hl]
  simp only [Bool.false_eq_true, if_false]
  split
  · rename_i b₀ b₁ b₂ b₃ body hb
    rw [hb]
    have hs : (b₀ :: b₁ :: b₂ :: b₃ :: body).length <
        lengthPrefixBytes + (i32FromBeBytes b₀ b₁ b₂ b₃).toNat ↔
          body.length < (i32FromBeBytes b₀ b₁ b₂ b₃).toNat := by
      simp only [length_cons, lengthPrefixBytes]
      omega
    simp only [hs]
    split_ifs
    · rfl
    · rfl
    · rfl
    · simp only [lengthPrefixBytes, Nat.add_comm 4, drop_succ_cons, take_succ_cons, drop_zero]
  · rfl

end FrameDecoder

/-! ## Runs -/

inductive FrameInput where
  | feed (input : List UInt8)
  | nextFrame
  deriving DecidableEq

namespace FrameDecoder

/-- One call; a chunk that was accepted is answered like a frame that is not complete. -/
def step (d : FrameDecoder) :
    FrameInput → FrameDecoder × Except FrameDecodeError (Option (List UInt8))
  | .feed input => ((d.feed input).1, (d.feed input).2.map fun _ => none)
  | .nextFrame => d.nextFrame

end FrameDecoder

/-- The bytes of all chunks. -/
def bytesFed (inputs : List FrameInput) : List UInt8 :=
  inputs.flatMap fun
    | .feed input => input
    | .nextFrame => []

/-- The frame of an answer. -/
def frameIn {ε : Type*} : Except ε (Option (List UInt8)) → List (List UInt8)
  | .ok body => body.toList
  | .error _ => []

/-- The error of an answer. -/
def errorIn {ε : Type*} : Except ε (Option (List UInt8)) → Option ε
  | .ok _ => none
  | .error error => some error

section

variable {σ ε : Type*} (past : List (Event σ FrameInput (Except ε (Option (List UInt8)))))

/-- The frames among the answers of a run. -/
def framesOf : List (List UInt8) := past.flatMap fun e => frameIn e.answer

/-- The first error among the answers. -/
def terminalOf : Option ε := past.findSome? fun e => errorIn e.answer

/-- Every chunk was accepted. -/
def Accepted : Prop := ∀ e ∈ past, e.input = .nextFrame ∨ e.answer = .ok none

/-- The last call found no further frame. -/
def Drained : Prop :=
  ∃ e, past.getLast? = some e ∧ e.input = .nextFrame ∧ frameIn e.answer = []

theorem framesOf_concat (e : Event σ FrameInput (Except ε (Option (List UInt8)))) :
    framesOf (past ++ [e]) = framesOf past ++ frameIn e.answer := by
  simp [framesOf]

theorem terminalOf_concat (e : Event σ FrameInput (Except ε (Option (List UInt8)))) :
    terminalOf (past ++ [e]) = (terminalOf past).or (errorIn e.answer) := by
  simp [terminalOf]

end

namespace FrameDecoder

/-- A decoder against the bytes it was fed, the frames it returned and its first error. -/
structure Follows (limits : FrameLimits) (d : FrameDecoder) (fed : List UInt8)
    (frames : List (List UInt8)) (terminal : Option FrameDecodeError) : Prop where
  limits_eq : d.limits = limits
  live : d.failed = false → terminal = none ∧
    Holds (frameCutter limits.maxFrameBytes.get) fed frames d.buffered
  dead : d.failed = true → ∃ error, terminal = some error ∧
    Parses (frameCutter limits.maxFrameBytes.get) fed frames (.error error)

variable {d : FrameDecoder} {fed : List UInt8} {frames : List (List UInt8)}
  {terminal : Option FrameDecodeError}

/-- A chunk is accepted by a decoder that has not failed, at the end of its buffer. -/
theorem Follows.feed (h : Follows limits d fed frames terminal) {i : List UInt8}
    (ok : (d.step (.feed i)).2 = .ok none) :
    Follows limits (d.step (.feed i)).1 (fed ++ i) frames terminal := by
  revert ok
  simp only [step, FrameDecoder.feed]
  split_ifs with hf
  · exact nofun
  · exact nofun
  · obtain ⟨rfl, holds⟩ := h.live (Bool.eq_false_iff.2 hf)
    exact fun _ => ⟨h.limits_eq, fun _ => ⟨rfl, holds.feed i⟩, fun hd => absurd hd hf⟩

theorem Follows.nextFrame (h : Follows limits d fed frames terminal) :
    Follows limits d.nextFrame.1 fed (frames ++ frameIn d.nextFrame.2)
      (terminal.or (errorIn d.nextFrame.2)) := by
  obtain ⟨rfl, hl, hd⟩ := h
  cases failed : d.failed with
  | true =>
    obtain ⟨err, rfl, parses⟩ := hd failed
    rw [FrameDecoder.nextFrame, if_pos failed]
    refine ⟨rfl, fun hl => (nomatch failed.symm.trans hl), fun _ => ⟨err, rfl, ?_⟩⟩
    simpa [frameIn] using parses
  | false =>
    obtain ⟨rfl, holds⟩ := hl failed
    rw [nextFrame_eq failed]
    cases cut : (frameCutter d.limits.maxFrameBytes.get).cut d.buffered with
    | wait =>
      refine ⟨rfl, fun _ => ⟨rfl, ?_⟩, fun hd => (nomatch failed.symm.trans hd)⟩
      simpa [frameIn] using holds
    | bad err =>
      refine ⟨rfl, nofun, fun _ => ⟨err, rfl, ?_⟩⟩
      simpa [frameIn, fail] using holds.rejects cut
    | frame body rest =>
      exact ⟨rfl, fun _ => ⟨rfl, holds.take cut⟩, fun hd => (nomatch failed.symm.trans hd)⟩

/-- A call that finds no frame leaves none at the front. -/
theorem cut_of_none (hl : d.nextFrame.1.failed = false) (short : frameIn d.nextFrame.2 = []) :
    (frameCutter d.nextFrame.1.limits.maxFrameBytes.get).cut d.nextFrame.1.buffered = .wait := by
  cases failed : d.failed with
  | true =>
    rw [FrameDecoder.nextFrame, if_pos failed] at hl
    cases failed.symm.trans hl
  | false =>
    rw [nextFrame_eq failed] at hl short ⊢
    cases cut : (frameCutter d.limits.maxFrameBytes.get).cut d.buffered with
    | wait => exact cut
    | bad err =>
      rw [cut] at hl
      cases hl
    | frame body rest =>
      rw [cut] at short
      cases short

theorem length_of_frame (hf : frameIn d.nextFrame.2 ≠ []) :
    d.nextFrame.1.buffered.length < d.buffered.length := by
  revert hf
  cases failed : d.failed with
  | true =>
    rw [FrameDecoder.nextFrame, if_pos failed]
    exact fun hf => absurd rfl hf
  | false =>
    rw [nextFrame_eq failed]
    cases cut : (frameCutter d.limits.maxFrameBytes.get).cut d.buffered with
    | wait | bad err => exact fun hf => absurd rfl hf
    | frame body rest => exact fun _ => (frameCutter d.limits.maxFrameBytes.get).shrinks cut

/-- Asking often enough finds no further frame. -/
theorem exists_drained (d : FrameDecoder) :
    ∃ count, Drained (trace step d (replicate count .nextFrame)) := by
  generalize bytes : d.buffered.length = n
  induction n using Nat.strong_induction_on generalizing d with
  | _ n ih =>
    by_cases short : frameIn d.nextFrame.2 = []
    · exact ⟨1, _, rfl, rfl, short⟩
    obtain ⟨count, e, last, ha, hq⟩ := ih _ (bytes ▸ length_of_frame short) d.nextFrame.1 rfl
    refine ⟨count + 1, e, ?_, ha, hq⟩
    change (event step d .nextFrame :: trace step d.nextFrame.1 _).getLast? = some e
    rw [getLast?_cons, last]
    rfl

theorem follows (lim : FrameLimits) (is : List FrameInput)
    (ok : Accepted (trace step (new lim) is)) :
    Follows lim (final step (new lim) is) (bytesFed is)
      (framesOf (trace step (new lim) is)) (terminalOf (trace step (new lim) is)) := by
  revert ok
  refine run_induction step (P := fun is past d =>
    Accepted past → Follows lim d (bytesFed is) (framesOf past) (terminalOf past)) ?_ ?_ is
  · exact fun _ => ⟨rfl, fun _ => ⟨rfl, .start _⟩, nofun⟩
  · intro is i ih ok
    have h := ih fun e mem => ok e (mem_append_left _ mem)
    have last := ok _ (mem_append_right _ mem_cons_self)
    rw [framesOf_concat, terminalOf_concat, bytesFed, flatMap_append, flatMap_singleton]
    cases i with
    | nextFrame =>
      rw [append_nil]
      exact h.nextFrame
    | feed i =>
      have hj : (event step (final step (new lim) is) (.feed i)).answer = .ok none :=
        last.resolve_left nofun
      rw [hj, frameIn, errorIn, Option.toList_none, append_nil, Option.or_none]
      exact h.feed hj

/-- A run whose chunks were accepted and whose last call found no frame cut the bytes fed. -/
theorem parses_of_drained {is : List FrameInput} (ok : Accepted (trace step (new limits) is))
    (hd : Drained (trace step (new limits) is)) :
    ∃ ending, Parses (frameCutter limits.maxFrameBytes.get) (bytesFed is)
        (framesOf (trace step (new limits) is)) ending ∧
      match ending with
      | .ok rest => terminalOf (trace step (new limits) is) = none ∧
          (final step (new limits) is).buffered = rest
      | .error error => terminalOf (trace step (new limits) is) = some error := by
  have h := follows limits is ok
  cases failed : (final step (new limits) is).failed with
  | true =>
    obtain ⟨error, terminal, parses⟩ := h.dead failed
    exact ⟨_, parses, terminal⟩
  | false =>
    obtain ⟨terminal, holds⟩ := h.live failed
    refine ⟨_, holds.ends ?_, terminal, rfl⟩
    obtain ⟨e, last, ha, short⟩ := hd
    rcases eq_nil_or_concat is with rfl | ⟨old, i, rfl⟩
    · cases last
    rw [concat_eq_append] at *
    rw [trace_concat, getLast?_concat] at last
    cases last
    cases ha
    rw [final_concat] at failed ⊢
    have hs : (final step (new limits) old).nextFrame.1.limits = limits :=
      (congrArg FrameDecoder.limits (final_concat step _ old _).symm).trans h.limits_eq
    have front := cut_of_none failed short
    rwa [hs] at front

end FrameDecoder

open FrameDecoder in
/-- Frames come out as they were framed, however the bytes are cut into chunks and whenever frames
are asked for : runs that feed the same bytes return the same frames and the same terminal error. -/
theorem frames_of_every_chunking (limits : FrameLimits) :
    (∀ bodies inputs, (∀ body ∈ bodies, body.length ≤ limits.maxFrameBytes.get) →
      bytesFed inputs = bodies.flatMap encodeFrame →
      Accepted (trace step (new limits) inputs) → Drained (trace step (new limits) inputs) →
        framesOf (trace step (new limits) inputs) = bodies ∧
        terminalOf (trace step (new limits) inputs) = none ∧
        (final step (new limits) inputs).bufferedBytes = 0) ∧
    (∀ inputs inputs', bytesFed inputs = bytesFed inputs' →
      Accepted (trace step (new limits) inputs) → Drained (trace step (new limits) inputs) →
      Accepted (trace step (new limits) inputs') → Drained (trace step (new limits) inputs') →
        framesOf (trace step (new limits) inputs) = framesOf (trace step (new limits) inputs') ∧
        terminalOf (trace step (new limits) inputs) =
          terminalOf (trace step (new limits) inputs')) ∧
    ∀ inputs, Accepted (trace step (new limits) inputs) → ∃ count,
      Accepted (trace step (new limits) (inputs ++ replicate count .nextFrame)) ∧
      Drained (trace step (new limits) (inputs ++ replicate count .nextFrame)) := by
  refine ⟨fun bodies inputs hs hf ha hd => ?_,
    fun inputs inputs' same ha hd ha' hd' => ?_, fun inputs ha => ?_⟩
  · obtain ⟨ending, parses, he⟩ := parses_of_drained ha hd
    rw [hf] at parses
    obtain ⟨frames, rfl⟩ := parses.unique (parses_encoded hs)
    exact ⟨frames, he.1, congrArg length he.2⟩
  · obtain ⟨ending, parses, he⟩ := parses_of_drained ha hd
    obtain ⟨ending', parses', he'⟩ := parses_of_drained ha' hd'
    rw [same] at parses
    obtain ⟨frames, rfl⟩ := parses.unique parses'
    cases ending with
    | ok rest => exact ⟨frames, he.1.trans he'.1.symm⟩
    | error err => exact ⟨frames, he.trans he'.symm⟩
  · obtain ⟨count, e, last, had, hq⟩ := exists_drained (final step (new limits) inputs)
    refine ⟨count, fun e mem => ?_, e, ?_, had, hq⟩
    · rw [trace_append] at mem
      rcases mem_append.1 mem with old | hl
      · exact ha e old
      · exact .inl (eq_of_mem_replicate (input_mem step hl))
    · rw [trace_append, getLast?_append, last]
      rfl

/-- Two frames, cut in the middle of the second length. -/
def twoFrames : List FrameInput :=
  [.feed [0, 0, 0, 1, 7, 0, 0], .nextFrame, .feed [0, 2, 8, 9], .nextFrame, .nextFrame]

theorem frames_of_every_chunking_twoFrames :
    framesOf (trace FrameDecoder.step (.new ⟨⟨16, by decide, by decide⟩, ⟨40, by decide, by decide⟩,
      by decide, by decide⟩) twoFrames) = [[7], [8, 9]] :=
  ((frames_of_every_chunking _).1 [[7], [8, 9]] twoFrames (by decide) (by decide)
    (by unfold Accepted; decide) ⟨_, rfl, rfl, rfl⟩).1

end KafkaDriver
