import KafkaDriver.Authentication
import KafkaDriver.Canonical

/-!
# Negotiated versions

`negotiate` walks the APIs a broker advertises in key order and keeps, for each the driver knows,
the overlap of the advertised range with the driver's stable one. `VersionSelection` then picks
one version of the overlap within the bounds of a request. The sort by key is unstable : the
model takes any arrangement in key order.

The version picked is the greatest integer that broker, driver and caller allow, and no version
is picked only when there is none (`selects_greatest`).
-/

namespace KafkaDriver

open Canonical List

/-! ## Negotiation -/

structure AdvertisedApi where
  apiKey : ApiKey
  minVersion : ℤ
  maxVersion : ℤ

structure ApiVersionsResponse where
  errorCode : ℤ
  apiKeys : List AdvertisedApi

/-- An API as the driver's generated code speaks it. -/
structure ApiDescriptor where
  apiKey : ApiKey
  supportedMin : ℤ
  supportedMax : ℤ
  latestStableVersion : Option ℤ
  valid : supportedMin ≤ supportedMax

/-- The generated descriptors, ascending by key. -/
structure ApiDescriptors where
  descriptors : List ApiDescriptor
  ascending : Ascending ApiDescriptor.apiKey descriptors

structure NegotiationLimits where
  maxAdvertisedApis : NonZeroUsize
  maxNegotiatedApis : NonZeroUsize

inductive CapabilityError where
  | capacityReached (limit : ℕ) (rejected : NegotiatedApi)
  | nonAscending (previous rejected : NegotiatedApi)

inductive NegotiationError where
  | brokerRejected (errorCode : ℤ)
  | advertisementCapacity (observed limit : ℕ)
  | invalidRange (apiKey : ApiKey) (minVersion maxVersion : ℤ)
  | duplicateApi (apiKey : ApiKey)
  | capability (error : CapabilityError)

/-- A sort by key that may put equal keys in any order. -/
structure SortByKey where
  sort : List AdvertisedApi → List AdvertisedApi
  perm : ∀ l, (sort l).Perm l
  ordered : ∀ l, (sort l).Pairwise fun a b => a.apiKey ≤ b.apiKey

/-- `VersionRange::try_new` makes a range of bounds that are in order. -/
structure VersionRanges where
  tryNew : ℤ → ℤ → Option (ApiVersion × ApiVersion)
  tryNew_eq : ∀ min max, tryNew min max = if min ≤ max then some (⟨min⟩, ⟨max⟩) else none

def VersionRanges.checked : VersionRanges := ⟨_, fun _ _ => rfl⟩

def SortByKey.insertion : SortByKey :=
  ⟨sorted AdvertisedApi.apiKey, sorted_perm, sorted_ordered⟩

namespace NegotiatedCapabilities

/-- One more API, above the last one. -/
def push (c : NegotiatedCapabilities) (api : NegotiatedApi)
    (above : ∀ previous ∈ c.apis.getLast?, previous.apiKey < api.apiKey) :
    NegotiatedCapabilities where
  apis := c.apis ++ [api]
  ascending := by
    refine pairwise_append.2 ⟨c.ascending, pairwise_singleton _ _, fun a mem b last => ?_⟩
    obtain rfl := mem_singleton.1 last
    rcases eq_nil_or_concat c.apis with empty | ⟨init, previous, split⟩
    · rw [empty] at mem
      cases mem
    have asc := c.ascending
    rw [split, concat_eq_append] at asc mem
    have below := above previous (by simp [split])
    rcases mem_append.1 mem with early | here
    · exact ((pairwise_append.1 asc).2.2 a early previous (by simp)).trans below
    · rwa [mem_singleton.1 here]

/-- Retain the entries that come, at most `limit` of them. -/
def retain (limit : ℕ) :
    NegotiatedCapabilities → List NegotiatedApi → Except CapabilityError NegotiatedCapabilities
  | retained, [] => .ok retained
  | retained, api :: apis =>
    match last : retained.apis.getLast? with
    | some previous =>
      if above : previous.apiKey < api.apiKey then
        if retained.len = limit then .error (.capacityReached limit api)
        else retain limit (retained.push api (by simp [last, above])) apis
      else .error (.nonAscending previous api)
    | none =>
      if retained.len = limit then .error (.capacityReached limit api)
      else retain limit (retained.push api (by simp [last])) apis

def tryFromIter (apis : List NegotiatedApi) (capacity : NonZeroUsize) :
    Except CapabilityError NegotiatedCapabilities :=
  retain capacity.get empty apis

end NegotiatedCapabilities

def localDescriptor (table : ApiDescriptors) (apiKey : ApiKey) : Option ApiDescriptor :=
  find ApiDescriptor.apiKey table.descriptors apiKey

section

variable (ranges : VersionRanges)

/-- The stable versions that the driver and a broker share. -/
def stableOverlap (descriptor : ApiDescriptor) (brokerMin brokerMax : ℤ) :
    Option (ApiVersion × ApiVersion) :=
  match descriptor.latestStableVersion with
  | none => none
  | some localMax =>
    ranges.tryNew (max descriptor.supportedMin brokerMin) (min localMax brokerMax)

variable (table : ApiDescriptors)

/-- The overlap with what the driver speaks, if any. -/
def overlap (a : AdvertisedApi) : Option NegotiatedApi :=
  (localDescriptor table a.apiKey).bind fun descriptor =>
    (stableOverlap ranges descriptor a.minVersion a.maxVersion).map fun versions =>
      ⟨a.apiKey, versions.1, versions.2⟩

/-- The walk over the advertised APIs in key order. -/
def selectOverlaps (previous : Option ApiKey) (selected : List NegotiatedApi) :
    List AdvertisedApi → Except NegotiationError (List NegotiatedApi)
  | [] => .ok selected
  | a :: rest =>
    if a.minVersion > a.maxVersion then
      .error (.invalidRange a.apiKey a.minVersion a.maxVersion)
    else if previous = some a.apiKey then .error (.duplicateApi a.apiKey)
    else selectOverlaps (some a.apiKey) (selected ++ (overlap ranges table a).toList) rest

/-- The APIs that driver and broker share, each with the versions both speak. -/
def negotiate (s : SortByKey) (response : ApiVersionsResponse) (limits : NegotiationLimits) :
    Except NegotiationError NegotiatedCapabilities :=
  if response.errorCode ≠ 0 then .error (.brokerRejected response.errorCode)
  else if response.apiKeys.length > limits.maxAdvertisedApis.get then
    .error (.advertisementCapacity response.apiKeys.length limits.maxAdvertisedApis.get)
  else
    match selectOverlaps ranges table none [] (s.sort response.apiKeys) with
    | .error error => .error error
    | .ok selected =>
      match NegotiatedCapabilities.tryFromIter selected limits.maxNegotiatedApis with
      | .error error => .error (.capability error)
      | .ok capabilities => .ok capabilities

end

/-! ## Selection -/

/-- Why a request got no version. -/
inductive VersionRefusal where
  | apiUnavailable (apiKey : ApiKey)
  | versionBoundsInvalid (apiKey : ApiKey) (minimum maximum : ApiVersion)
  | versionLimitUnavailable (apiKey : ApiKey) (maximum negotiatedMinimum : ApiVersion)
  | versionFloorUnavailable (apiKey : ApiKey) (minimum negotiatedMaximum : ApiVersion)
  deriving DecidableEq

inductive VersionSelection where
  | highest
  | atLeast (minimum : ApiVersion)
  | atMost (maximum : ApiVersion)
  | within (minimum maximum : ApiVersion)

namespace NegotiatedApi

variable (api : NegotiatedApi) (minimum maximum : ApiVersion)

def highestAtMost : Option ApiVersion :=
  if maximum.value < api.min.value then none
  else if maximum.value < api.max.value then some maximum
  else some api.max

def selectMinimum : Except VersionRefusal ApiVersion :=
  if api.version.value < minimum.value then
    .error (.versionFloorUnavailable api.apiKey minimum api.max)
  else .ok api.version

def selectMaximum : Except VersionRefusal ApiVersion :=
  match api.highestAtMost maximum with
  | some version => .ok version
  | none => .error (.versionLimitUnavailable api.apiKey maximum api.min)

def selectWithin : Except VersionRefusal ApiVersion :=
  if minimum.value > maximum.value then
    .error (.versionBoundsInvalid api.apiKey minimum maximum)
  else
    match api.selectMaximum maximum with
    | .error failure => .error failure
    | .ok selected =>
      if selected.value < minimum.value then
        .error (.versionFloorUnavailable api.apiKey minimum api.max)
      else .ok selected

end NegotiatedApi

namespace VersionSelection

def fromBounds : Option ApiVersion → Option ApiVersion → VersionSelection
  | none, none => highest
  | some minimum, none => atLeast minimum
  | none, some maximum => atMost maximum
  | some minimum, some maximum => within minimum maximum

def select (api : NegotiatedApi) : VersionSelection → Except VersionRefusal ApiVersion
  | highest => .ok api.version
  | atLeast minimum => api.selectMinimum minimum
  | atMost maximum => api.selectMaximum maximum
  | within minimum maximum => api.selectWithin minimum maximum

end VersionSelection

/-- The version of a request for `key`, as `admit_ready` looks it up. -/
def selectVersion (capabilities : NegotiatedCapabilities) (key : ApiKey)
    (minimum maximum : Option ApiVersion) : Except VersionRefusal ApiVersion :=
  match capabilities.api key with
  | none => .error (.apiUnavailable key)
  | some api => (VersionSelection.fromBounds minimum maximum).select api

/-! ## What is negotiated -/

variable {ranges : VersionRanges} {s s' : SortByKey} {table : ApiDescriptors}
  {response : ApiVersionsResponse} {limits : NegotiationLimits} {caps : NegotiatedCapabilities}
  {a : AdvertisedApi}
  {api : NegotiatedApi} {key : ApiKey} {v : ℤ}

theorem NegotiatedCapabilities.retain_ok {limit : ℕ} {c : NegotiatedCapabilities}
    {apis : List NegotiatedApi} (h : c.retain limit apis = .ok caps) :
    caps.apis = c.apis ++ apis := by
  induction apis generalizing c with
  | nil =>
    cases h
    rw [append_nil]
  | cons api apis ih =>
    unfold retain at h
    split at h
    all_goals
      split_ifs at h
      rw [ih h]
      simp [push]

/-- The walk succeeds on valid ranges and distinct keys only, and keeps every overlap. -/
theorem selectOverlaps_ok {prev : Option ApiKey} {sel out : List NegotiatedApi}
    {l : List AdvertisedApi} (h : selectOverlaps ranges table prev sel l = .ok out)
    (ord : l.Pairwise fun a b => a.apiKey ≤ b.apiKey)
    (pre : ∀ p ∈ prev, ∀ a ∈ l, p ≤ a.apiKey) :
    out = sel ++ l.filterMap (overlap ranges table) ∧
      Ascending AdvertisedApi.apiKey l ∧ (∀ a ∈ l, a.minVersion ≤ a.maxVersion) ∧
      ∀ p ∈ prev, ∀ a ∈ l, p < a.apiKey := by
  induction l generalizing prev sel with
  | nil =>
    cases h
    exact ⟨by simp, .nil, nofun, nofun⟩
  | cons a l ih =>
    unfold selectOverlaps at h
    split_ifs at h with hi twice
    obtain ⟨hle, ord⟩ := pairwise_cons.1 ord
    obtain ⟨rfl, asc, hv, ha⟩ := ih h ord fun p here b mem => by
      cases here
      exact hle b mem
    have first : ∀ p ∈ prev, p < a.apiKey := fun p here =>
      lt_of_le_of_ne (pre p here a mem_cons_self) fun hs => twice (hs ▸ here)
    refine ⟨?_, pairwise_cons.2 ⟨ha a.apiKey rfl, asc⟩, ?_, fun p here b mem => ?_⟩
    · cases kept : overlap ranges table a <;> simp [kept]
    · exact forall_mem_cons.2 ⟨not_lt.1 hi, hv⟩
    · rcases mem_cons.1 mem with rfl | hl
      · exact first p here
      · exact (first p here).trans (ha a.apiKey rfl b hl)

/-- What an accepted advertisement is, and what was made of it. -/
theorem negotiate_ok (h : negotiate ranges table s response limits = .ok caps) :
    response.apiKeys.length ≤ limits.maxAdvertisedApis.get ∧
      Ascending AdvertisedApi.apiKey (s.sort response.apiKeys) ∧
      (∀ a ∈ response.apiKeys, a.minVersion ≤ a.maxVersion) ∧
      caps.apis = (s.sort response.apiKeys).filterMap (overlap ranges table) := by
  unfold negotiate at h
  split_ifs at h with _ hm
  split at h
  · cases h
  rename_i sel hw
  split at h
  · cases h
  rename_i caps' hre
  cases h
  obtain ⟨rfl, asc, hv, -⟩ := selectOverlaps_ok hw (s.ordered _) nofun
  refine ⟨not_lt.1 hm, asc, fun a mem => ?_, ?_⟩
  · exact hv a ((s.perm _).mem_iff.2 mem)
  · exact NegotiatedCapabilities.retain_ok hre

theorem overlap_eq_some : overlap ranges table a = some api ↔
    ∃ d ∈ table.descriptors, d.apiKey = a.apiKey ∧ ∃ stable ∈ d.latestStableVersion,
      max d.supportedMin a.minVersion ≤ min stable a.maxVersion ∧
      api = ⟨a.apiKey, ⟨max d.supportedMin a.minVersion⟩, ⟨min stable a.maxVersion⟩⟩ := by
  simp only [overlap, localDescriptor, Option.bind_eq_some_iff,
    find_eq_some table.ascending, and_assoc]
  refine exists_congr fun d => and_congr_right fun _ => and_congr_right fun _ => ?_
  unfold stableOverlap
  cases d.latestStableVersion <;> simp [ranges.tryNew_eq, eq_comm]

/-- The versions of an API that broker, driver and caller allow. -/
def Allowed (table : ApiDescriptors) (response : ApiVersionsResponse) (key : ApiKey)
    (minimum maximum : Option ApiVersion) : Set ℤ :=
  {v | (∃ a ∈ response.apiKeys, a.apiKey = key ∧ a.minVersion ≤ v ∧ v ≤ a.maxVersion) ∧
    (∃ d ∈ table.descriptors, d.apiKey = key ∧ d.supportedMin ≤ v ∧
      ∃ stable ∈ d.latestStableVersion, v ≤ stable) ∧
    (∀ lo ∈ minimum, lo.value ≤ v) ∧ ∀ hi ∈ maximum, v ≤ hi.value}

/-- The versions of an overlap within the bounds of the caller. -/
def NegotiatedApi.Within (api : NegotiatedApi) (minimum maximum : Option ApiVersion) : Set ℤ :=
  {v | (api.min.value ≤ v ∧ v ≤ api.max.value) ∧
    (∀ lo ∈ minimum, lo.value ≤ v) ∧ ∀ hi ∈ maximum, v ≤ hi.value}

variable {minimum maximum : Option ApiVersion}

theorem api_eq_some (h : negotiate ranges table s response limits = .ok caps) :
    caps.api key = some api ↔ ∃ a ∈ response.apiKeys, a.apiKey = key ∧
      overlap ranges table a = some api := by
  have asc : Ascending NegotiatedApi.apiKey caps.apis := caps.ascending
  refine (find_eq_some asc).trans ?_
  simp only [(negotiate_ok h).2.2.2, mem_filterMap, (s.perm _).mem_iff]
  constructor
  · rintro ⟨⟨a, mem, hk⟩, rfl⟩
    obtain ⟨d, -, -, _, -, -, rfl⟩ := overlap_eq_some.1 hk
    exact ⟨a, mem, rfl, hk⟩
  · rintro ⟨a, mem, rfl, hk⟩
    obtain ⟨d, -, -, _, -, -, rfl⟩ := overlap_eq_some.1 hk
    exact ⟨⟨a, mem, hk⟩, rfl⟩

/-- What all three allow is what the caller allows of the negotiated overlap. -/
theorem mem_allowed (h : negotiate ranges table s response limits = .ok caps) :
    v ∈ Allowed table response key minimum maximum ↔
      ∃ api, caps.api key = some api ∧ v ∈ api.Within minimum maximum := by
  simp only [api_eq_some h, overlap_eq_some, Allowed, NegotiatedApi.Within, Set.mem_ofPred_eq]
  constructor
  · rintro ⟨⟨a, mem, rfl, low, hh⟩, ⟨d, hk, latest, hl, stable, new, hm⟩, hb⟩
    have hi : max d.supportedMin a.minVersion ≤ v ∧ v ≤ min stable a.maxVersion :=
      ⟨max_le hl low, le_min hm hh⟩
    exact ⟨_, ⟨a, mem, rfl, d, hk, latest, stable, new, hi.1.trans hi.2, rfl⟩, hi, hb⟩
  · rintro ⟨_, ⟨a, mem, rfl, d, hk, latest, stable, new, -, rfl⟩, ⟨low, hh⟩, hb⟩
    exact ⟨⟨a, mem, rfl, (le_max_right _ _).trans low, hh.trans (min_le_right _ _)⟩,
      ⟨d, hk, latest, (le_max_left _ _).trans low, stable, new, hh.trans (min_le_left _ _)⟩, hb⟩

/-! ## What is selected -/

/-- The greatest version of the set, or a refusal if there is none. -/
def Picks (S : Set ℤ) : Except VersionRefusal ApiVersion → Prop
  | .ok v => IsGreatest S v.value
  | .error _ => S = ∅

theorem NegotiatedApi.selectMaximum_picks (hv : api.min.value ≤ api.max.value)
    (hi : ApiVersion) : Picks (api.Within none (some hi)) (api.selectMaximum hi) := by
  unfold selectMaximum highestAtMost
  split_ifs with hb inside
  · refine Set.eq_empty_iff_forall_notMem.2 fun v mem => ?_
    exact absurd hb (not_lt.2 (mem.1.1.trans (mem.2.2 hi rfl)))
  · exact ⟨⟨⟨not_lt.1 hb, inside.le⟩, nofun, fun _ hs => by cases hs; exact le_rfl⟩,
      fun v mem => mem.2.2 hi rfl⟩
  · exact ⟨⟨⟨hv, le_rfl⟩, nofun, fun _ hs => by cases hs; exact not_lt.1 inside⟩,
      fun v mem => mem.1.2⟩

/-- A floor refuses the greatest version or leaves it. -/
theorem Picks.floor {hi : Option ApiVersion} {w lo : ApiVersion} {refusal : VersionRefusal}
    (hg : IsGreatest (api.Within none hi) w.value) :
    Picks (api.Within (some lo) hi) (if w.value < lo.value then .error refusal else .ok w) := by
  split_ifs with low
  · refine Set.eq_empty_iff_forall_notMem.2 fun v mem => ?_
    have hm := hg.2 ⟨mem.1, nofun, mem.2.2⟩
    exact absurd (low.trans_le (mem.2.1 lo rfl)) (not_lt.2 hm)
  · exact ⟨⟨hg.1.1, fun _ hs => by cases hs; exact not_lt.1 low, hg.1.2.2⟩,
      fun v mem => hg.2 ⟨mem.1, nofun, mem.2.2⟩⟩

theorem VersionSelection.select_picks (hv : api.min.value ≤ api.max.value)
    (minimum maximum : Option ApiVersion) :
    Picks (api.Within minimum maximum) ((fromBounds minimum maximum).select api) := by
  have hh : IsGreatest (api.Within none none) api.max.value :=
    ⟨⟨⟨hv, le_rfl⟩, nofun, nofun⟩, fun v mem => mem.1.2⟩
  cases minimum with
  | none =>
    cases maximum with
    | none => exact hh
    | some hi => exact NegotiatedApi.selectMaximum_picks hv hi
  | some lo =>
    cases maximum with
    | none => exact .floor hh
    | some hi =>
      change Picks _ (api.selectWithin lo hi)
      unfold NegotiatedApi.selectWithin
      have hp := NegotiatedApi.selectMaximum_picks hv hi
      split_ifs with hin
      · refine Set.eq_empty_iff_forall_notMem.2 fun v mem => ?_
        exact absurd ((mem.2.1 lo rfl).trans (mem.2.2 hi rfl)) (not_le.2 hin)
      cases found : api.selectMaximum hi with
      | error refusal =>
        rw [found] at hp
        exact Set.eq_empty_of_subset_empty (hp ▸ fun v mem => ⟨mem.1, nofun, mem.2.2⟩)
      | ok w =>
        rw [found] at hp
        exact .floor hp

theorem selectVersion_picks (h : negotiate ranges table s response limits = .ok caps) (key : ApiKey)
    (minimum maximum : Option ApiVersion) :
    Picks (Allowed table response key minimum maximum)
      (selectVersion caps key minimum maximum) := by
  unfold selectVersion
  cases found : caps.api key with
  | none =>
    refine Set.eq_empty_iff_forall_notMem.2 fun v mem => ?_
    obtain ⟨api, hg, -⟩ := (mem_allowed h).1 mem
    rw [found] at hg
    cases hg
  | some api =>
    have hs : Allowed table response key minimum maximum = api.Within minimum maximum := by
      ext v
      rw [mem_allowed h, found]
      exact ⟨fun ⟨_, hg, mem⟩ => Option.some.inj hg ▸ mem, fun mem => ⟨api, rfl, mem⟩⟩
    rw [hs]
    refine VersionSelection.select_picks ?_ minimum maximum
    obtain ⟨a, -, -, hk⟩ := (api_eq_some h).1 found
    obtain ⟨d, -, -, stable, -, hv, rfl⟩ := overlap_eq_some.1 hk
    exact hv

/-- For an accepted advertisement : the version selected is the greatest one that broker, driver
and caller allow, and selection fails if and only if there is none; the keys are distinct, the
ranges valid and the entries few enough; and the result depends on no order. -/
theorem selects_greatest (accepted : negotiate ranges table s response limits = .ok caps) :
    (∀ key minimum maximum,
      (∀ v, selectVersion caps key minimum maximum = .ok v ↔
        IsGreatest (Allowed table response key minimum maximum) v.value) ∧
      ((∃ refusal, selectVersion caps key minimum maximum = .error refusal) ↔
        Allowed table response key minimum maximum = ∅)) ∧
    (response.apiKeys.map AdvertisedApi.apiKey).Nodup ∧
    (∀ a ∈ response.apiKeys, a.minVersion ≤ a.maxVersion) ∧
    response.apiKeys.length ≤ limits.maxAdvertisedApis.get ∧
    ∀ (s' : SortByKey) (response' : ApiVersionsResponse),
      response'.errorCode = response.errorCode → response'.apiKeys.Perm response.apiKeys →
        negotiate ranges table s' response' limits = .ok caps := by
  obtain ⟨few, asc, hv, -⟩ := negotiate_ok accepted
  refine ⟨fun key minimum maximum => ?_, ?_, hv, few, fun s' response' code perm => ?_⟩
  · have hp := selectVersion_picks accepted key minimum maximum
    generalize selectVersion caps key minimum maximum = result at hp
    cases result with
    | ok w =>
      have hn : Allowed table response key minimum maximum ≠ ∅ :=
        Set.nonempty_iff_ne_empty.1 ⟨_, hp.1⟩
      refine ⟨fun v => ⟨fun hs => ?_, fun hm => ?_⟩, by simpa using hn⟩
      · cases hs
        exact hp
      · obtain ⟨v⟩ := v
        obtain ⟨w⟩ := w
        obtain rfl : w = v := hp.unique hm
        rfl
    | error refusal =>
      have empty : Allowed table response key minimum maximum = ∅ := hp
      refine ⟨fun v => ⟨nofun, fun hm => ?_⟩, by simpa using empty⟩
      rw [empty] at hm
      exact absurd hm.1 (Set.notMem_empty _)
  · refine ((s.perm response.apiKeys).map _).nodup_iff.1 ?_
    exact pairwise_map.2 (asc.imp fun hb => hb.ne)
  · have ha := (s'.perm response'.apiKeys).trans (perm.trans (s.perm response.apiKeys).symm)
    have hs : s'.sort response'.apiKeys = s.sort response.apiKeys := by
      refine ha.eq_of_pairwise ?_ (s'.ordered _) (s.ordered _)
      intro a b inside inside' ab ba
      exact asc.inj (ha.mem_iff.1 inside) inside' (le_antisymm ab ba)
    rw [← accepted]
    simp only [negotiate, hs, code, perm.length_eq]

/-- A broker that speaks Produce from 0 to 9, and a driver that speaks it from 3 to 11. -/
def produceTable : ApiDescriptors := ⟨[⟨⟨0⟩, 3, 11, some 11, by decide⟩], by decide⟩

def produceResponse : ApiVersionsResponse := ⟨0, [⟨⟨0⟩, 0, 9⟩]⟩

theorem selects_greatest_produce :
    ∃ caps, negotiate .checked produceTable .insertion produceResponse
        ⟨⟨256, by decide, by decide⟩, ⟨128, by decide, by decide⟩⟩ = .ok caps ∧
      selectVersion caps ⟨0⟩ none (some ⟨8⟩) = .ok ⟨8⟩ ∧
      IsGreatest (Allowed produceTable produceResponse ⟨0⟩ none (some ⟨8⟩)) 8 := by
  have accepted : negotiate .checked produceTable .insertion produceResponse
      ⟨⟨256, by decide, by decide⟩, ⟨128, by decide, by decide⟩⟩ =
        .ok ⟨[⟨⟨0⟩, ⟨3⟩, ⟨9⟩⟩], pairwise_singleton _ _⟩ := rfl
  have selected : selectVersion ⟨[⟨⟨0⟩, ⟨3⟩, ⟨9⟩⟩], pairwise_singleton _ _⟩ ⟨0⟩ none (some ⟨8⟩) =
      .ok ⟨8⟩ := by decide +kernel
  exact ⟨_, accepted, selected,
    (((selects_greatest accepted).1 ⟨0⟩ none (some ⟨8⟩)).1 ⟨8⟩).1 selected⟩

end KafkaDriver
