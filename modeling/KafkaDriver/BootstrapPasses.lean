import KafkaDriver.Bootstrap
import KafkaDriver.Rotation
import KafkaDriver.Runs

/-!
# Passes over the bootstrap endpoints

A run of a `BootstrapMachine` leaves a log : the passes begun, the endpoints asked for, the
failures taken in and the passes given up, each under the epoch of its pass. The cursor of the
machine runs on through all passes, while `remaining` belongs to one. In every run the endpoints
asked for go round the configured ones, and the record of each pass is a turn of that rotation :
an endpoint, its failure, the next endpoint, and `exhausted` only when the turn is whole
(`passes_rotate`).
-/

namespace KafkaDriver

open Rotation Runs List

/-- What happened to a pass. -/
inductive BootstrapMark where
  | begun
  | asked (effectId : EffectId) (endpoint : BrokerEndpoint)
  | failed (effectId : EffectId)
  | exhausted
  deriving DecidableEq

namespace BootstrapMark

def ofInput : BootstrapInput → Option (ConnectionEpoch × BootstrapMark)
  | .start epoch _ => some (epoch, begun)
  | .resolutionCompleted ⟨epoch, effectId, .error _⟩ _ => some (epoch, failed effectId)
  | .resolutionCompleted ⟨_, _, .ok _⟩ _ => none

def ofEffect : BootstrapEffect → Option (ConnectionEpoch × BootstrapMark)
  | .resolve request => some (request.epoch, asked request.effectId request.endpoint)
  | .exhausted epoch _ => some (epoch, exhausted)
  | .resolved .. => none

def endpoint : BootstrapMark → Option BrokerEndpoint
  | asked _ endpoint => some endpoint
  | _ => none

end BootstrapMark

namespace BootstrapMachine

/-- Marks with the epochs of their passes. -/
abbrev Log := List (ConnectionEpoch × BootstrapMark)

/-- Endpoints with the effects that asked for them. -/
abbrev Tries := List (EffectId × BrokerEndpoint)

/-- The marks a step leaves : of its input if that was applied, and of its effects. -/
def marks (i : BootstrapInput) (answer : BootstrapTransition) : Log :=
  (if answer.disposition = .applied then (BootstrapMark.ofInput i).toList else []) ++
    answer.effects.filterMap BootstrapMark.ofEffect

/-- The marks of a run. -/
def log (endpoints : BootstrapSet) (is : List BootstrapInput) : Log :=
  (trace apply (new endpoints) is).flatMap fun e => marks e.input e.answer

variable (epoch : ConnectionEpoch) (L : Log)

/-- The marks of one pass. -/
def record : List BootstrapMark := (L.filter (·.1 = epoch)).map (·.2)

/-- The endpoints of the `Resolve` effects. -/
def visited : List BrokerEndpoint := L.filterMap (·.2.endpoint)

/-- The epochs of the applied starts. -/
def begun : List ConnectionEpoch := (L.filter (·.2 = .begun)).map (·.1)

/-- Each endpoint asked for failed. -/
def tries (tried : Tries) : List BootstrapMark :=
  .begun :: tried.flatMap fun (effectId, endpoint) => [.asked effectId endpoint, .failed effectId]

/-- The record of a pass that was not begun, asks for an endpoint or found one, or gave up. -/
inductive Pass (l : List BrokerEndpoint) : List BootstrapMark → Prop
  | unopened : Pass l []
  | asks {tried : Tries} {next : ℕ} (effectId : EffectId)
      {endpoint : BrokerEndpoint} (turn : Turn l next (tried.map (·.2) ++ [endpoint])) :
      Pass l (tries tried ++ [.asked effectId endpoint])
  | gaveUp {tried : Tries} {k : ℕ}
      (whole : tried.map (·.2) = l.rotate k) : Pass l (tries tried ++ [.exhausted])

/-! ## One step -/

/-- The endpoints asked for go round, `cursor` is the next one, and newer passes were begun
later. -/
structure Round (endpoints : BootstrapSet) (L : Log) (cursor : ℕ) : Prop where
  counts : cursor = (visited L).length % endpoints.len
  visits : ∀ k x, (visited L)[k]? = some x → endpoints.endpoints[k % endpoints.len]? = some x
  sorted : (begun L).Pairwise (· < ·)

/-- Every record is that of a pass, and the state tells how far the newest one is. -/
structure Rotates (endpoints : BootstrapSet) (L : Log)
    (m : BootstrapMachine) : Prop extends Round endpoints L m.cursor.val where
  same : m.endpoints = endpoints
  ahead : ∀ epoch, (∀ c, m.state.currentEpoch = some c → c < epoch) → record epoch L = []
  passes : ∀ epoch, Pass endpoints.endpoints (record epoch L)
  newest : ∀ epoch f x remaining, m.state = .resolving epoch f x remaining →
    ∃ tried, record epoch L = tries tried ++ [.asked f x] ∧
      Turn endpoints.endpoints m.cursor.val (tried.map (·.2) ++ [x]) ∧
      tried.length + 1 + remaining = endpoints.len

/-- Inside a step : the newest pass has tried some endpoints and neither asks nor gave up. -/
structure Between (endpoints : BootstrapSet) (L : Log)
    (cursor : ℕ) (epoch : ConnectionEpoch) (tried : Tries) : Prop
    extends Round endpoints L cursor where
  ahead : ∀ other, epoch < other → record other L = []
  passes : ∀ other, other ≠ epoch → Pass endpoints.endpoints (record other L)
  newest : record epoch L = tries tried
  turn : Turn endpoints.endpoints cursor (tried.map (·.2))

variable {endpoints : BootstrapSet} {L : Log}
  {m : BootstrapMachine} {epoch other : ConnectionEpoch} {mark : BootstrapMark} {cursor : ℕ}
  {tried : Tries} {f : EffectId} {x : BrokerEndpoint} {remaining : ℕ}

theorem record_concat (L : Log) (e : ConnectionEpoch)
    (mark : BootstrapMark) : record e (L ++ [(e, mark)]) = record e L ++ [mark] := by
  simp [record]

theorem record_concat_of_ne (ne : other ≠ epoch) :
    record other (L ++ [(epoch, mark)]) = record other L := by
  simp [record, ne.symm]

theorem tries_concat (tried : Tries) (f : EffectId) (x : BrokerEndpoint) :
    tries (tried ++ [(f, x)]) = tries tried ++ [.asked f x, .failed f] := by
  simp [tries]

/-- A mark that asks for nothing and begins nothing leaves the round as it is. -/
theorem Round.silent (h : Round endpoints L cursor) (ha : mark.endpoint = none)
    (hb : mark ≠ .begun) : Round endpoints (L ++ [(epoch, mark)]) cursor := by
  have seen : visited (L ++ [(epoch, mark)]) = visited L := by
    simp only [visited, filterMap_append, filterMap_cons, ha, filterMap_nil, append_nil]
  refine ⟨by rw [seen, ← h.counts], by rw [seen]; exact h.visits, ?_⟩
  simpa [begun, hb] using h.sorted

theorem Between.asks (h : Between endpoints L cursor epoch tried) {m : BootstrapMachine}
    (here : endpoints.endpoints[cursor]? = some x) (hs : m.endpoints = endpoints)
    (next : m.cursor.val = (cursor + 1) % endpoints.len)
    (st : m.state = .resolving epoch f x remaining)
    (hr : tried.length + 1 + remaining = endpoints.len) :
    Rotates endpoints (L ++ [(epoch, .asked f x)]) m := by
  have seen : visited (L ++ [(epoch, .asked f x)]) = visited L ++ [x] := filterMap_append
  have hm := record_concat L epoch (.asked f x)
  rw [h.newest] at hm
  have hsm : cursor % endpoints.len = cursor := by rw [h.counts, Nat.mod_mod]
  have turn : Turn endpoints.endpoints m.cursor.val (tried.map (·.2) ++ [x]) := by
    rw [next]
    refine (h.turn.concat ?_ (by rw [← here]; exact congrArg _ hsm)).mod
    rw [length_map]
    exact Nat.lt_of_lt_of_eq (by omega) hr
  refine ⟨⟨?_, fun k y hg => ?_, ?_⟩, hs, fun other hn => ?_, fun other => ?_, ?_⟩
  · rw [next, seen, h.counts, length_append, length_singleton, Nat.mod_add_mod]
  · rw [seen, getElem?_append] at hg
    split_ifs at hg with old
    · exact h.visits k y hg
    · obtain ⟨last, rfl⟩ := List.getElem?_eq_some_iff.1 hg
      obtain rfl : k = (visited L).length := by simp at last; omega
      simpa [← h.counts] using here
  · simpa [begun] using h.sorted
  · have ha : epoch < other := hn epoch (by rw [st]; rfl)
    rw [record_concat_of_ne ha.ne', h.ahead other ha]
  · by_cases ne : other = epoch
    · rw [ne, hm]
      exact .asks f turn
    · rw [record_concat_of_ne ne]
      exact h.passes other ne
  · intro e g y r hg
    rw [st] at hg
    cases hg
    exact ⟨tried, hm, turn, hr⟩

theorem Between.givesUp (h : Between endpoints L cursor epoch tried) {m : BootstrapMachine}
    {err : DnsFailure} (hs : m.endpoints = endpoints) (hst : m.cursor.val = cursor)
    (st : m.state = .exhausted epoch err) (whole : tried.length = endpoints.len) :
    Rotates endpoints (L ++ [(epoch, .exhausted)]) m := by
  refine ⟨hst ▸ h.silent rfl nofun, hs, fun other hn => ?_, fun other => ?_,
    by rw [st]; exact fun _ _ _ _ => nofun⟩
  · have ha : epoch < other := hn epoch (by rw [st]; rfl)
    rw [record_concat_of_ne ha.ne', h.ahead other ha]
  · by_cases ne : other = epoch
    · rw [ne, record_concat, h.newest]
      exact .gaveUp (h.turn.whole (by rw [length_map, whole]; rfl))
    · rw [record_concat_of_ne ne]
      exact h.passes other ne

/-- The newest pass takes in a failure. -/
theorem Rotates.fails (h : Rotates endpoints L m) (st : m.state = .resolving epoch f x remaining) :
    ∃ tried, tried.length + remaining = endpoints.len ∧
      Between endpoints (L ++ [(epoch, .failed f)]) m.cursor.val epoch tried := by
  obtain ⟨tried, hm, turn, hr⟩ := h.newest epoch f x remaining st
  refine ⟨tried ++ [(f, x)], by rw [length_append]; exact hr, h.silent rfl nofun,
    fun other ha => ?_, fun other ne => ?_, ?_, by simpa using turn⟩
  · rw [record_concat_of_ne ha.ne']
    refine h.ahead other fun c hg => ?_
    rw [st] at hg
    exact (Option.some.inj hg) ▸ ha
  · rw [record_concat_of_ne ne]
    exact h.passes other
  · rw [record_concat, hm, tries_concat, append_assoc]
    rfl

theorem Rotates.begins (h : Rotates endpoints L m)
    (hn : ∀ c, m.state.currentEpoch = some c → c < epoch) :
    Between endpoints (L ++ [(epoch, .begun)]) m.cursor.val epoch [] := by
  have seen : visited (L ++ [(epoch, .begun)]) = visited L := by
    simp [visited, BootstrapMark.endpoint]
  refine ⟨⟨by rw [seen, h.counts], by rw [seen]; exact h.visits, ?_⟩, fun other ha => ?_,
    fun other ne => ?_, ?_, .nil _ _⟩
  · simp only [begun, filter_append, map_append, pairwise_append]
    refine ⟨h.sorted, by simp, fun c mem d last => ?_⟩
    obtain rfl : d = epoch := by simpa using last
    by_contra older
    -- an older pass would have left no record yet
    have empty := h.ahead c fun now hg => (hn now hg).trans_le (not_lt.1 older)
    obtain ⟨y, hl, rfl⟩ := mem_map.1 mem
    have left : y.2 ∈ record y.1 L := mem_map_of_mem (by simpa using (mem_filter.1 hl).1)
    exact absurd (empty ▸ left) not_mem_nil
  · rw [record_concat_of_ne ha.ne']
    exact h.ahead other fun c hg => (hn c hg).trans ha
  · rw [record_concat_of_ne ne]
    exact h.passes other
  · rw [record_concat, h.ahead epoch hn]
    rfl

theorem Rotates.step (h : Rotates endpoints L m) (i : BootstrapInput) :
    Rotates endpoints (L ++ marks i (m.apply i).2) (m.apply i).1 := by
  obtain rfl := h.same
  have here : m.endpoints.endpoints[m.cursor.val]? = some (m.cursor.selectNext).2 :=
    getElem?_eq_getElem m.cursor.isLt
  have pos := m.endpoints.len_pos
  have hq : ∀ d, d ≠ .applied → Rotates m.endpoints (L ++ marks i ⟨[], d⟩) m := by
    intro d hi
    simpa [marks, hi] using h
  cases i with
  | start e f =>
    have hb : (∀ c, m.state.currentEpoch = some c → c < e) →
        Rotates m.endpoints (L ++ [(e, .begun), (e, .asked f (m.cursor.selectNext).2)])
          (m.resolveNext e f (m.endpoints.len - 1)).1 := by
      intro hn
      have ha := (h.begins hn).asks (m := (m.resolveNext e f (m.endpoints.len - 1)).1) here
        rfl rfl rfl (by simp only [length_nil]; omega)
      rwa [append_assoc] at ha
    change Rotates _ (L ++ marks _ (m.start e f).2) (m.start e f).1
    unfold start
    split
    · rename_i fresh
      exact hb fun c hg => by rw [fresh] at hg; cases hg
    rename_i cur hg
    split_ifs with ho hs
    · exact hq _ (by decide)
    · exact hq _ (by decide)
    · refine hb fun c now => ?_
      obtain rfl := Option.some.inj (hg.symm.trans now)
      exact lt_of_le_of_ne (not_lt.1 ho) (Ne.symm hs)
  | resolutionCompleted out f' =>
    obtain ⟨epoch', g, res⟩ := out
    change Rotates _ (L ++ marks _ (m.complete _ f').2) (m.complete _ f').1
    unfold complete
    split
    · rename_i e f ep left st
      split
      · exact hq _ (by decide)
      rename_i cur
      obtain ⟨rfl, rfl⟩ : epoch' = e ∧ g = f := by simpa using cur
      cases res with
      | ok addresses =>
        have hs : L ++ marks (.resolutionCompleted ⟨epoch', g, .ok addresses⟩ f')
            ⟨[.resolved epoch' ep addresses], .applied⟩ = L := append_nil L
        rw [hs]
        refine ⟨h.toRound, rfl, fun ne hn => ?_, h.passes, fun _ _ _ _ => nofun⟩
        exact h.ahead ne fun c hg => hn c (by rw [st] at hg; exact hg)
      | error err =>
        obtain ⟨tried, hr, between⟩ := h.fails st
        dsimp only
        split_ifs with last
        · have hga := between.givesUp (m := { m with state := .exhausted epoch' err }) rfl
            rfl rfl (by omega)
          rwa [append_assoc] at hga
        · have ha := between.asks (m := (m.resolveNext epoch' f' (left - 1)).1) here rfl rfl
            rfl (by omega)
          rwa [append_assoc] at ha
    · exact hq _ (by decide)

theorem apply_of_ignored (m : BootstrapMachine) (i : BootstrapInput)
    (ignored : (m.apply i).2.disposition ≠ .applied) :
    (m.apply i).1 = m ∧ (m.apply i).2.effects = [] := by
  revert ignored
  cases i <;> simp only [apply, start, complete, retry, resolveNext] <;> split <;>
    (try split) <;> (try split) <;> (try split_ifs) <;> simp

theorem rotates_run (endpoints : BootstrapSet) (is : List BootstrapInput) :
    Rotates endpoints (log endpoints is) (final apply (new endpoints) is) := by
  refine run_induction apply
    (P := fun _ t m => Rotates endpoints (t.flatMap fun e => marks e.input e.answer) m) ?_ ?_ is
  · exact ⟨⟨(Nat.zero_mod _).symm, nofun, .nil⟩, rfl, fun _ _ => rfl, fun _ => .unopened,
      fun _ _ _ _ => nofun⟩
  · intro is i h
    rw [flatMap_append, flatMap_singleton]
    exact h.step i

/-- A pass asks for each endpoint at most once, and gives up after all of them failed. -/
theorem Pass.spec {l : List BrokerEndpoint} {marks : List BootstrapMark} (hp : Pass l marks)
    (hn : l.Nodup) : (marks.filterMap (·.endpoint)).Nodup ∧
      (.exhausted ∈ marks →
        ∃ tried, (tried.map (·.2)).Perm l ∧ marks = tries tried ++ [.exhausted]) := by
  have hs : ∀ tried : Tries, (tries tried).filterMap (·.endpoint) = tried.map (·.2) := by
    intro tried
    induction tried using reverseRecOn with
    | nil => rfl
    | append_singleton tried y ih =>
      rw [tries_concat, filterMap_append, ih, map_append]
      rfl
  cases hp with
  | unopened => exact ⟨.nil, nofun⟩
  | asks f turn =>
    refine ⟨?_, fun mem => by simp [tries] at mem⟩
    rw [filterMap_append, hs]
    exact turn.nodup hn
  | @gaveUp tried k whole =>
    have perm : (tried.map (·.2)).Perm l := whole ▸ rotate_perm l k
    refine ⟨?_, fun _ => ⟨tried, perm, rfl⟩⟩
    rw [filterMap_append, hs]
    exact (append_nil (tried.map (·.2))).symm ▸ perm.nodup_iff.2 hn

/-- In every run over `n` endpoints : an applied start has a greater epoch than all before it;
in one pass a failure is followed by the next endpoint in turn or by `exhausted`, and the endpoints
asked for are distinct; a pass gives up once, after all `n` were asked for and failed in it; the
`k`-th endpoint asked for is number `k` modulo `n`; and ignored inputs change nothing. -/
theorem passes_rotate (endpoints : BootstrapSet) (is : List BootstrapInput) :
    (begun (log endpoints is)).Pairwise (· < ·) ∧
    (∀ epoch, Pass endpoints.endpoints (record epoch (log endpoints is)) ∧
      ((record epoch (log endpoints is)).filterMap (·.endpoint)).Nodup ∧
      (.exhausted ∈ record epoch (log endpoints is) →
        ∃ tried, (tried.map (·.2)).Perm endpoints.endpoints ∧
          record epoch (log endpoints is) = tries tried ++ [.exhausted])) ∧
    (∀ k x, (visited (log endpoints is))[k]? = some x →
      endpoints.endpoints[k % endpoints.len]? = some x) ∧
    ∀ e ∈ trace apply (new endpoints) is, e.answer.disposition ≠ .applied →
      e.after = e.before ∧ e.answer.effects = [] := by
  have h := rotates_run endpoints is
  refine ⟨h.sorted, fun epoch => ⟨h.passes epoch, (h.passes epoch).spec endpoints.nodup⟩, h.visits,
    ?_⟩
  intro e mem hi
  obtain ⟨js, i, rfl⟩ := of_mem_trace apply mem
  exact apply_of_ignored _ i hi

end BootstrapMachine

end KafkaDriver
