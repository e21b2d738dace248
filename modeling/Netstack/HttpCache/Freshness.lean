import Netstack.HttpCache.CacheStrategy

/-!
# What a fresh verdict means

The age and the freshness lifetime of RFC 7234, sections 4.2.1 to 4.2.3, stated
over exact integers and in seconds. The strategy computes them in 64-bit
milliseconds; each of its functions, when it has a result, has the exact
quantity with the copy's cut-off.
-/

namespace Netstack.HttpCache

open Foundation Option
open CacheConstant (invalidTime)

namespace Rfc7234

/-- The current age of a stored response, with negative delays replaced by zero. -/
def currentAge (ageValue dateValue requestTime responseTime now : Int) : Int :=
  let apparentAge := max 0 (responseTime - dateValue)
  let responseDelay := max 0 (responseTime - requestTime)
  let correctedAgeValue := ageValue + responseDelay
  let residentTime := max 0 (now - responseTime)
  max apparentAge correctedAgeValue + residentTime

/-- The freshness lifetime: the first source that is present decides, and the
heuristic takes a tenth of the time since the last modification. -/
def freshnessLifetime (sMaxAge maxAge expires lastModified : Option Int)
    (received asked : Int) : Int :=
  match sMaxAge, maxAge, expires, lastModified with
  | some seconds, _, _, _ => seconds
  | none, some seconds, _, _ => seconds
  | none, none, some expires, _ => max (expires - received) 0
  | none, none, none, some modified => max ((asked - modified).tdiv 10) 0
  | none, none, none, none => 0

end Rfc7234

/-- A getter's value, or nothing when the header is absent. -/
def present (value : Int) : Option Int := if value = invalidTime then none else some value

theorem present_invalid {value : Int} (h : ¬ value ≠ invalidTime) : present value = none :=
  if_pos (not_not.mp h)

theorem present_valid {value : Int} (h : value ≠ invalidTime) : present value = some value :=
  if_neg h

theorem present_getD (value other : Int) :
    (present value).getD other = if value ≠ invalidTime then value else other := by
  by_cases h : value = invalidTime <;> simp [present, h]

variable {c : Copy} {time : HttpTime} {s : HttpCacheStrategy}

namespace HttpCacheStrategy

def currentAge (c : Copy) (time : HttpTime) (s : HttpCacheStrategy) : Int :=
  Rfc7234.currentAge (max 0 (s.cacheResponse.getAgeSeconds c))
    (max 0 (s.cacheResponse.getDate time)) (max 0 (s.cacheResponse.getRequestTime time))
    (max 0 (s.cacheResponse.getResponseTime time)) (max 0 time.getNowTimeSeconds)

/-- The lifetime the response grants. -/
def grantedLifetime (c : Copy) (time : HttpTime) (s : HttpCacheStrategy) : Int :=
  let date := present (s.cacheResponse.getDate time)
  Rfc7234.freshnessLifetime (present (s.cacheResponse.getSMaxAgeSeconds c))
    (present (s.cacheResponse.getMaxAgeSeconds c)) (present (s.cacheResponse.getExpires time))
    (present (s.cacheResponse.getLastModified time))
    (date.getD (s.cacheResponse.getResponseTime time))
    (date.getD (s.cacheRequest.getRequestTime time))

/-- The request's own `max-age` can only shorten the lifetime. -/
def lifetime (c : Copy) (time : HttpTime) (s : HttpCacheStrategy) : Int :=
  match present (s.cacheRequest.getMaxAgeSeconds c) with
  | none => s.grantedLifetime c time
  | some maxAge => min (s.grantedLifetime c time) maxAge

def minFresh (c : Copy) (s : HttpCacheStrategy) : Int :=
  max 0 (s.cacheRequest.getMinFreshSeconds c)

def maxStale (c : Copy) (s : HttpCacheStrategy) : Int :=
  if s.cacheResponse.mustRevalidate then 0 else max 0 (s.cacheRequest.getMaxStaleSeconds c)

theorem cacheResponseAgeMillis_eq {a : Int} (h : s.cacheResponseAgeMillis c time = some a) :
    a = boundedSeconds c (s.currentAge c time) * convertToMilliseconds := by
  simp only [cacheResponseAgeMillis, bind_eq_bind, bind_eq_some_iff,
    int64_eq_some_iff] at h
  obtain ⟨_, ⟨rfl, -⟩, _, ⟨rfl, -⟩, _, ⟨rfl, -⟩, _, ⟨rfl, -⟩, _, ⟨rfl, -⟩, rfl, -⟩ := h
  rfl

theorem computeFreshnessLifetimeSecondsInternal_eq {l : Int}
    (h : s.computeFreshnessLifetimeSecondsInternal c time = some l) :
    l = s.grantedLifetime c time := by
  unfold computeFreshnessLifetimeSecondsInternal at h
  simp only [bind_eq_bind] at h
  unfold grantedLifetime
  simp only [present_getD]
  split at h
  · rename_i hshared
    rw [present_valid hshared]
    exact (some.inj h).symm
  · rename_i hshared
    rw [present_invalid hshared]
    split at h
    · rename_i hmax
      rw [present_valid hmax]
      exact (some.inj h).symm
    · rename_i hmax
      rw [present_invalid hmax]
      split at h
      · rename_i hexpires
        rw [present_valid hexpires]
        obtain ⟨delta, hdelta, hl⟩ := bind_eq_some_iff.mp h
        obtain ⟨rfl, -⟩ := int64_eq_some_iff.mp hdelta
        exact (some.inj hl).symm
      · rename_i hexpires
        rw [present_invalid hexpires]
        split at h
        · rename_i hmodified
          rw [present_valid hmodified]
          obtain ⟨delta, hdelta, hl⟩ := bind_eq_some_iff.mp h
          obtain ⟨rfl, -⟩ := int64_eq_some_iff.mp hdelta
          exact (some.inj hl).symm
        · rename_i hmodified
          rw [present_invalid hmodified]
          exact (some.inj h).symm

theorem computeFreshnessLifetimeMillis_eq
    {l : Int} (h : s.computeFreshnessLifetimeMillis c time = some l) :
    l = boundedSeconds c (s.lifetime c time) * convertToMilliseconds := by
  obtain ⟨granted, hgranted, hl⟩ := bind_eq_some_iff.mp h
  obtain ⟨rfl, -⟩ := int64_eq_some_iff.mp hl
  obtain rfl := computeFreshnessLifetimeSecondsInternal_eq hgranted
  grind [lifetime, present_valid, present_invalid]

theorem maxTimeSeconds_eq : maxTimeSeconds = 9223372036854775 := by
  decide +kernel

/-- Scaling ignores a negative number of seconds. -/
theorem scaled_max_zero (c : Copy) (x : Int) :
    max 0 (boundedSeconds c (max 0 x) * convertToMilliseconds) =
      max 0 (boundedSeconds c x * convertToMilliseconds) := by
  cases c <;> simp only [boundedSeconds, convertToMilliseconds, maxTimeSeconds_eq] <;> omega

theorem getFreshness_eq {f : Freshness} (h : s.getFreshness c time = some f) :
    f.ageMillis = boundedSeconds c (s.currentAge c time) * convertToMilliseconds ∧
      f.minFreshMillis = max 0 (boundedSeconds c (s.minFresh c) * convertToMilliseconds) ∧
      f.lifeTime = boundedSeconds c (s.lifetime c time) * convertToMilliseconds ∧
      f.maxStaleMillis = max 0 (boundedSeconds c (s.maxStale c) * convertToMilliseconds) := by
  obtain ⟨age, hage, h⟩ := bind_eq_some_iff.mp h
  obtain ⟨life, hlife, h⟩ := bind_eq_some_iff.mp h
  obtain ⟨fresh, hfresh, h⟩ := bind_eq_some_iff.mp h
  obtain ⟨rfl, -⟩ := int64_eq_some_iff.mp hfresh
  obtain ⟨stale, hstale, h⟩ := bind_eq_some_iff.mp h
  cases h
  refine ⟨cacheResponseAgeMillis_eq hage, (scaled_max_zero c _).symm,
    computeFreshnessLifetimeMillis_eq hlife, ?_⟩
  unfold maxStale
  split_ifs at hstale ⊢
  · cases hstale
    cases c <;> rfl
  · obtain ⟨rfl, -⟩ := int64_eq_some_iff.mp hstale
    exact (scaled_max_zero c _).symm

theorem currentAge_nonneg (c : Copy) (time : HttpTime) (s : HttpCacheStrategy) :
    0 ≤ s.currentAge c time := by
  unfold currentAge Rfc7234.currentAge
  grind

theorem minFresh_nonneg (c : Copy) (s : HttpCacheStrategy) : 0 ≤ s.minFresh c :=
  le_max_left _ _

theorem maxStale_nonneg (c : Copy) (s : HttpCacheStrategy) : 0 ≤ s.maxStale c := by
  unfold maxStale
  split
  · exact le_rfl
  · exact le_max_left _ _

/-- The cut-offs cannot make a stale response pass: whenever both sums stay in
the 64-bit range, the cut-off test implies the exact one. -/
theorem exact_of_bounded {age fresh life stale : Int}
    (hage : 0 ≤ age) (hfresh : 0 ≤ fresh) (hstale : 0 ≤ stale)
    (hallowed : boundedSeconds c life * convertToMilliseconds +
      max 0 (boundedSeconds c stale * convertToMilliseconds) ≤ longMax)
    (hlt : boundedSeconds c age * convertToMilliseconds +
        max 0 (boundedSeconds c fresh * convertToMilliseconds) <
      boundedSeconds c life * convertToMilliseconds +
        max 0 (boundedSeconds c stale * convertToMilliseconds)) : age + fresh < life + stale := by
  have hlong : longMax = 9223372036854775807 := by decide +kernel
  cases c with
  | http =>
    simp only [boundedSeconds, convertToMilliseconds, maxTimeSeconds_eq, hlong] at *
    omega
  | httpClient =>
    simp only [boundedSeconds, convertToMilliseconds] at *
    omega

/-- Everything that lets the strategy answer `FRESH`. -/
theorem runStrategyInternal_fresh {response : HttpResponse}
    (h : (s.runStrategyInternal c time response).map Prod.fst = some .fresh) :
    s.cacheRequest.noCache = false ∧ s.cacheResponse.noCache = false ∧
      (s.cacheRequest.onlyIfCached = true ∨
        s.isCacheableResponse c time s.cacheResponse = true ∧
          ∃ f, s.getFreshness c time = some f ∧
            f.lifeTime + f.maxStaleMillis ≤ longMax ∧
            f.ageMillis + f.minFreshMillis < f.lifeTime + f.maxStaleMillis) := by
  unfold runStrategyInternal at h
  split_ifs at h with hnoCache hnoCache' honly hcacheable hconditional
  all_goals try cases h
  · exact ⟨by simpa using hnoCache, by simpa using hnoCache', Or.inl honly⟩
  · refine ⟨by simpa using hnoCache, by simpa using hnoCache', Or.inr ?_⟩
    refine ⟨by simpa using hcacheable, ?_⟩
    obtain ⟨⟨status, s', response'⟩, hrun, rfl⟩ := map_eq_some_iff.mp h
    obtain ⟨f, hf, hrun⟩ := bind_eq_some_iff.mp hrun
    obtain ⟨needed, hneeded, hrun⟩ := bind_eq_some_iff.mp hrun
    obtain ⟨allowed, hallowed, hrun⟩ := bind_eq_some_iff.mp hrun
    obtain ⟨rfl, -⟩ := int64_eq_some_iff.mp hneeded
    obtain ⟨rfl, -, hallowed⟩ := int64_eq_some_iff.mp hallowed
    split at hrun
    · rename_i hlt
      exact ⟨f, hf, hallowed, hlt⟩
    · cases hrun

/-- A fresh verdict without overflow is forced by `only-if-cached`, or the stored
response is cacheable and the exact freshness test of RFC 7234 holds. -/
theorem runStrategy_fresh_sound (c : Copy) (time : HttpTime) (s : HttpCacheStrategy)
    (response : HttpResponse) (h : (s.runStrategy c time response).map Prod.fst = some .fresh) :
    let seen := s.readResponse response
    seen.cacheRequest.noCache = false ∧ seen.cacheResponse.noCache = false ∧
      (seen.cacheRequest.onlyIfCached = true ∨
        seen.isCacheableResponse c time seen.cacheResponse = true ∧
          seen.cacheRequest.noStore = false ∧ seen.cacheResponse.noStore = false ∧
          seen.currentAge c time + seen.minFresh c < seen.lifetime c time + seen.maxStale c) := by
  intro seen
  obtain ⟨hrequest, hresponse, hwhy⟩ := runStrategyInternal_fresh h
  refine ⟨hrequest, hresponse, ?_⟩
  rcases hwhy with honly | ⟨hcacheable, f, hf, hallowed, hlt⟩
  · exact Or.inl honly
  · have hstore : seen.cacheResponse.noStore = false ∧ seen.cacheRequest.noStore = false := by
      simp only [isCacheableResponse, Bool.and_eq_true, Bool.not_eq_true'] at hcacheable
      exact hcacheable.2
    obtain ⟨hage, hfresh, hlife, hstale⟩ := getFreshness_eq hf
    rw [hage, hfresh, hlife, hstale] at hlt
    rw [hlife, hstale] at hallowed
    exact Or.inr ⟨hcacheable, hstore.2, hstore.1,
      exact_of_bounded (currentAge_nonneg c time seen) (minFresh_nonneg c seen)
        (maxStale_nonneg c seen) hallowed hlt⟩

/-- A response with these cache-control and age headers, for a clock at zero. -/
def agedResponse (cacheControl age : Bytes) : HttpResponse :=
  { responseCode := .ok
    headers := ((∅ : Headers).insert CacheConstant.cacheControl cacheControl).insert
      CacheConstant.age age }

theorem runStrategy_fresh_sound_of_maxAge :
    ((create {}).runStrategy .http .undated
        (agedResponse (ascii "max-age=60") (ascii "10"))).map Prod.fst = some .fresh ∧
      let seen := (create {}).readResponse (agedResponse (ascii "max-age=60") (ascii "10"))
      seen.currentAge .http .undated + seen.minFresh .http <
        seen.lifetime .http .undated + seen.maxStale .http := by
  have hfresh : ((create {}).runStrategy .http .undated
      (agedResponse (ascii "max-age=60") (ascii "10"))).map Prod.fst = some .fresh := by
    decide +kernel
  have hsound := runStrategy_fresh_sound .http .undated (create {})
    (agedResponse (ascii "max-age=60") (ascii "10")) hfresh
  exact ⟨hfresh, (hsound.2.2.resolve_left (by decide +kernel)).2.2.2⟩

/-- The request asks for a cached answer only, so an expired response that must
not be stored at all is fresh. -/
theorem onlyIfCached_is_fresh : let request : RequestOptions :=
      { headers := (∅ : Headers).insert CacheConstant.cacheControl (ascii "only-if-cached") }
    let response := agedResponse (ascii "no-store, max-age=60") (ascii "100")
    let seen := (create request).readResponse response
    ((create request).runStrategy .http .undated response).map Prod.fst = some .fresh ∧
      seen.cacheResponse.noStore = true ∧
      seen.isCacheableResponse .http .undated seen.cacheResponse = false ∧
      ¬ seen.currentAge .http .undated + seen.minFresh .http <
        seen.lifetime .http .undated + seen.maxStale .http := by
  decide +kernel

end HttpCacheStrategy

end Netstack.HttpCache
