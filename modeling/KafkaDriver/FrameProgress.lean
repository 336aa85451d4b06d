import KafkaDriver.FrameDecoder

/-!
# A frame decoder is bounded and makes progress

`Moves` says once what a call can do. The buffer stays within its limit, every byte accepted is
buffered or was returned in a frame, and a decoder that failed stays as it is. A buffer that
holds no whole frame is shorter than the largest one, for which the limits leave room, so a
decoder that was drained takes another byte (`decoder_bounded`).
-/

namespace KafkaDriver

open Runs List

abbrev FrameEvent := Event FrameDecoder FrameInput (Except FrameDecodeError (Option (List UInt8)))

namespace FrameDecoder

/-! ## One call -/

/-- A frame at the front is within the limit, and is taken with its length. -/
theorem length_of_cut {maxFrame : ℕ} {xs body rest : List UInt8}
    (cut : (frameCutter maxFrame).cut xs = .frame body rest) :
    body.length ≤ maxFrame ∧ xs.length = lengthPrefixBytes + body.length + rest.length := by
  change frontFrame maxFrame xs = _ at cut
  unfold frontFrame at cut
  split at cut
  · dsimp only at cut
    split_ifs at cut with negative large hs
    obtain ⟨rfl, rfl⟩ := Framing.Cut.frame.inj cut
    simp only [length_take, length_drop, length_cons, lengthPrefixBytes]
    omega
  · cases cut

/-- What one call can do. -/
inductive Moves (d : FrameDecoder) : FrameInput →
    FrameDecoder × Except FrameDecodeError (Option (List UInt8)) → Prop
  | refused {input} (error : FrameDecodeError)
      (dead : d.failed = true ∧ error = .decoderFailed ∨ d.failed = false ∧ input ≠ .nextFrame) :
      Moves d input (d, .error error)
  | fed {chunk : List UInt8} (live : d.failed = false)
      (room : d.buffered.length + chunk.length ≤ d.limits.maxBufferedBytes.get) :
      Moves d (.feed chunk) ({ d with buffered := d.buffered ++ chunk }, .ok none)
  | waits (live : d.failed = false)
      (short : d.buffered.length < lengthPrefixBytes + d.limits.maxFrameBytes.get) :
      Moves d .nextFrame (d, .ok none)
  | fails (live : d.failed = false) (error : FrameDecodeError) :
      Moves d .nextFrame ({ d with failed := true }, .error error)
  | takes {body rest : List UInt8} (live : d.failed = false)
      (small : body.length ≤ d.limits.maxFrameBytes.get)
      (whole : d.buffered.length = lengthPrefixBytes + body.length + rest.length) :
      Moves d .nextFrame ({ d with buffered := rest }, .ok (some body))

theorem step_moves (d : FrameDecoder) (i : FrameInput) : d.Moves i (d.step i) := by
  cases failed : d.failed with
  | true =>
    have hd : d.step i = (d, .error .decoderFailed) := by
      cases i <;> simp [step, feed, nextFrame, failed, Except.map]
    rw [hd]
    exact .refused _ (.inl ⟨failed, rfl⟩)
  | false =>
    cases i with
    | feed chunk =>
      change d.Moves _ ((d.feed chunk).1, (d.feed chunk).2.map fun _ => none)
      unfold feed
      rw [if_neg (by simp [failed])]
      split_ifs with hf
      · exact .refused _ (.inr ⟨failed, by simp⟩)
      · exact .fed failed (not_lt.1 (not_or.1 hf).2)
    | nextFrame =>
      change d.Moves _ d.nextFrame
      rw [nextFrame_eq failed]
      cases cut : (frameCutter d.limits.maxFrameBytes.get).cut d.buffered with
      | wait => exact .waits failed (length_of_wait cut)
      | bad err => exact .fails failed err
      | frame body rest => exact .takes failed (length_of_cut cut).1 (length_of_cut cut).2

/-- A decoder that found no whole frame takes another byte. -/
theorem accepts_of_waits {d : FrameDecoder} (hl : d.failed = false)
    (waits : d.nextFrame.2 = .ok none) : d.bufferedBytes < d.limits.maxBufferedBytes.get ∧
      ∀ byte, (d.feed [byte]).2 = .ok () := by
  have hs : d.buffered.length < d.limits.maxBufferedBytes.get := by
    have hr := d.limits.roomy
    have hm : d.Moves .nextFrame d.nextFrame := d.step_moves .nextFrame
    generalize d.nextFrame = res at hm waits
    cases hm with
    | waits _ hs => omega
    | refused | fails | takes => cases waits
  have hf := d.limits.maxBufferedBytes.le
  refine ⟨hs, fun byte => ?_⟩
  rw [feed, hl, if_neg (by simp), if_neg (by simp only [length_singleton]; omega)]

/-- Asking often enough ends the decoder, or leaves it without a whole frame. -/
theorem exists_waiting (d : FrameDecoder) :
    ∃ count, (final step d (replicate count .nextFrame)).failed = true ∨
      (final step d (replicate count .nextFrame)).nextFrame.2 = .ok none := by
  generalize bytes : d.buffered.length = n
  induction n using Nat.strong_induction_on generalizing d with
  | _ n ih =>
    have hm : d.Moves .nextFrame d.nextFrame := d.step_moves .nextFrame
    cases found : d.nextFrame with
    | mk d' answer =>
      have next : ∀ count, final step d (replicate (count + 1) .nextFrame) =
          final step d' (replicate count .nextFrame) := fun count => by
        rw [replicate_succ, final, step, found]
      rw [found] at hm
      cases hm with
      | refused _ hd =>
        rcases hd with ⟨hf, -⟩ | ⟨-, ne⟩
        · exact ⟨0, .inl hf⟩
        · exact absurd rfl ne
      | waits => exact ⟨0, .inr (congrArg Prod.snd found)⟩
      | fails =>
        refine ⟨1, .inl ?_⟩
        rw [next 0]
        rfl
      | @takes body rest _ _ whole =>
        obtain ⟨count, he⟩ := ih rest.length (by unfold lengthPrefixBytes at whole; omega)
          { d with buffered := rest } rfl
        refine ⟨count + 1, ?_⟩
        rw [next count]
        exact he

end FrameDecoder

/-! ## Runs -/

/-- The bytes of the chunks that were accepted. -/
def acceptedBytes (past : List FrameEvent) : List UInt8 :=
  past.flatMap fun e =>
    match e.input, e.answer with
    | .feed chunk, .ok _ => chunk
    | _, _ => []

/-- The bytes of the frames that were returned, with their lengths. -/
def consumedBytes (past : List FrameEvent) : ℕ :=
  ((framesOf past).map fun body => lengthPrefixBytes + body.length).sum

/-- A call that met a length out of bounds. -/
def FrameEvent.Terminal (e : FrameEvent) : Prop :=
  e.input = .nextFrame ∧ ((∃ length, e.answer = .error (.negativeFrameLength length)) ∨
    ∃ length limit, e.answer = .error (.frameTooLarge length limit))

namespace FrameDecoder

/-- A decoder against the calls it answered. -/
structure Bounded (limits : FrameLimits) (past : List FrameEvent) (d : FrameDecoder) : Prop where
  limits_eq : d.limits = limits
  buffered : d.bufferedBytes ≤ limits.maxBufferedBytes.get
  bodies : ∀ body ∈ framesOf past, body.length ≤ limits.maxFrameBytes.get
  consumed : (acceptedBytes past).length = consumedBytes past + d.bufferedBytes
  /-- After a length out of bounds every call is refused and the buffer stays. -/
  dead : ∀ before e rest, past = before ++ e :: rest → e.Terminal → d.failed = true ∧
    d.buffered = e.before.buffered ∧ ∀ e' ∈ rest,
      e'.answer = .error .decoderFailed ∧ e'.after.buffered = e.before.buffered

variable {limits : FrameLimits} {past : List FrameEvent} {d : FrameDecoder}

/-- The decoder fails at a length out of bounds, which it leaves where it is. -/
theorem Moves.terminal {input res} (hm : d.Moves input res)
    (h : FrameEvent.Terminal ⟨d, input, res.1, res.2⟩) :
    res.1.failed = true ∧ res.1.buffered = d.buffered := by
  obtain ⟨ha, error⟩ := h
  cases hm with
  | refused err hd =>
    rcases hd with ⟨hf, -⟩ | ⟨-, ne⟩
    · exact ⟨hf, rfl⟩
    · exact absurd ha ne
  | fed => cases ha
  | fails => exact ⟨rfl, rfl⟩
  | waits | takes => simp at error

theorem Bounded.step (h : Bounded limits past d) {input res} (hm : d.Moves input res) :
    Bounded limits (past ++ [⟨d, input, res.1, res.2⟩]) res.1 := by
  obtain ⟨rfl, hb, bodies, hc, hd⟩ := h
  have hd' : ∀ pre e rest, past ++ [⟨d, input, res.1, res.2⟩] = pre ++ e :: rest →
      e.Terminal → res.1.failed = true ∧ res.1.buffered = e.before.buffered ∧ ∀ e' ∈ rest,
        e'.answer = .error .decoderFailed ∧ e'.after.buffered = e.before.buffered := by
    intro pre e rest split terminal
    rcases concat_eq_append_cons.1 split with ⟨rfl, rfl, rfl⟩ | ⟨rest, rfl, rfl⟩
    · obtain ⟨hf, same⟩ := hm.terminal terminal
      exact ⟨hf, same, by simp⟩
    obtain ⟨hf, same, hr⟩ := hd pre e rest rfl terminal
    -- every other move needs a decoder that has not failed
    have hs : res = (d, .error .decoderFailed) := by
      cases hm with
      | refused err why =>
        rcases why with ⟨-, rfl⟩ | ⟨hl, -⟩
        · rfl
        · cases hf.symm.trans hl
      | fed hl | waits hl | fails hl | takes hl => cases hf.symm.trans hl
    subst hs
    refine ⟨hf, same, fun e' mem => ?_⟩
    rcases mem_append.1 mem with old | new
    · exact hr e' old
    · obtain rfl := mem_singleton.1 new
      exact ⟨rfl, same⟩
  unfold acceptedBytes consumedBytes at hc
  cases hm with
  | refused | waits | fails =>
    refine ⟨rfl, hb, ?_, ?_, hd'⟩
    · simpa [framesOf_concat, frameIn] using bodies
    · simpa [acceptedBytes, consumedBytes, framesOf_concat, frameIn, bufferedBytes] using hc
  | fed hl room =>
    refine ⟨rfl, ?_, ?_, ?_, hd'⟩
    · simpa [bufferedBytes] using room
    · simpa [framesOf_concat, frameIn] using bodies
    · simp only [acceptedBytes, consumedBytes, framesOf_concat, frameIn, flatMap_append,
        flatMap_singleton, Option.toList_none, append_nil, length_append, bufferedBytes]
      simp only [bufferedBytes] at hc
      omega
  | @takes body rest hl hsm whole =>
    refine ⟨rfl, ?_, ?_, ?_, hd'⟩
    · simp only [bufferedBytes] at hb ⊢
      omega
    · simp only [framesOf_concat, frameIn, Option.toList_some, mem_append, mem_singleton]
      rintro b (old | rfl)
      · exact bodies b old
      · exact hsm
    · simp only [acceptedBytes, consumedBytes, framesOf_concat, frameIn, flatMap_append,
        flatMap_singleton, Option.toList_some, append_nil, map_append, sum_append, map_cons,
        map_nil, sum_singleton, bufferedBytes]
      simp only [bufferedBytes] at hc
      omega

theorem bounded_run (limits : FrameLimits) (is : List FrameInput) :
    Bounded limits (trace step (new limits) is) (final step (new limits) is) :=
  run_induction step (P := fun _ past d => Bounded limits past d)
    ⟨rfl, Nat.zero_le _, by simp [framesOf], rfl, by simp⟩
    (fun _ i h => h.step (step_moves _ i)) is

/-- In every run the buffer and the frames are within their limits, the bytes accepted are those
of the frames returned and those buffered, a refused chunk changes nothing, a length out of
bounds ends the decoder for good, and a decoder that found no whole frame is below its limit and
takes another byte, as every decoder that has not failed does after enough calls. -/
theorem decoder_bounded (limits : FrameLimits) (inputs : List FrameInput) :
    Bounded limits (trace step (new limits) inputs) (final step (new limits) inputs) ∧
    (∀ e ∈ trace step (new limits) inputs, ∀ chunk error, e.input = .feed chunk →
      e.answer = .error error → e.after = e.before) ∧
    ((final step (new limits) inputs).failed = false →
      (final step (new limits) inputs).nextFrame.2 = .ok none →
      (final step (new limits) inputs).bufferedBytes < limits.maxBufferedBytes.get ∧
        ∀ byte, ((final step (new limits) inputs).feed [byte]).2 = .ok ()) ∧
    ∃ count,
      (final step (new limits) (inputs ++ replicate count .nextFrame)).failed = true ∨ ∀ byte,
        ((final step (new limits) (inputs ++ replicate count .nextFrame)).feed [byte]).2 =
          .ok () := by
  have hb := bounded_run limits inputs
  refine ⟨hb, fun e mem chunk error fed hf => ?_, fun hl waits => ?_, ?_⟩
  · obtain ⟨js, i, rfl⟩ := of_mem_trace step mem
    have hm := step_moves (final step (new limits) js) i
    obtain rfl : i = .feed chunk := fed
    change ((final step (new limits) js).step (.feed chunk)).2 = _ at hf
    change ((final step (new limits) js).step (.feed chunk)).1 = final step (new limits) js
    generalize (final step (new limits) js).step (.feed chunk) = res at hm hf
    cases hm with
    | refused => rfl
    | fed => cases hf
  · have ha := accepts_of_waits hl waits
    rwa [hb.limits_eq] at ha
  · obtain ⟨count, he⟩ := exists_waiting (final step (new limits) inputs)
    refine ⟨count, ?_⟩
    rw [final_append]
    cases hf :
        (final step (final step (new limits) inputs) (replicate count .nextFrame)).failed with
    | true => exact .inl rfl
    | false => exact .inr (accepts_of_waits hf (he.resolve_left (by simp [hf]))).2

end FrameDecoder

end KafkaDriver
