import Netstack.HttpCache.CacheStrategy

/-!
# The no-store directive

RFC 7234 reads a cache-control value as a comma-separated list whose elements
may be surrounded by blanks and are compared without letter case. The parsers
split at the two bytes `", "` and compare exactly. The directive is therefore
honoured precisely when it is spelled in lower case between such separators or
the ends of the value.
-/

namespace Netstack.HttpCache

open Foundation CommonUtils CacheConstant

/-- Optional white space of a header value: space and horizontal tab. -/
def isBlank (b : UInt8) : Bool := b == 32 || b == 9

/-- The directives of a cache-control value after RFC 7234: the elements of the
comma-separated list, without surrounding blanks and without letter case. -/
def directives (value : Bytes) : List Bytes :=
  (value.splitOn 44).map fun piece => lower ((piece.dropWhile isBlank).rdropWhile isBlank)

variable (headers : Headers)

/-- Some cache-control header carries the directive. -/
def SaysNoStore : Prop :=
  ∃ header ∈ headers.toList, lower header.1 = cacheControl ∧
    CacheConstant.noStore ∈ directives header.2

/-- Some cache-control header carries the directive in lower case, with the
exact separator `", "` or an end of the value on either side. -/
def SpellsNoStore : Prop :=
  ∃ header ∈ headers.toList, lower header.1 = cacheControl ∧
    Delimited split CacheConstant.noStore header.2

instance : Decidable (SaysNoStore headers) :=
  inferInstanceAs (Decidable (∃ header ∈ headers.toList, _))

/-- One header as the parsers see it: it raises the no-store flag when one of
the pieces of a cache-control value is the directive. -/
def raisesNoStore (header : Bytes × Bytes) : Bool :=
  lower header.1 == cacheControl &&
    (split header.2 split).any (· == CacheConstant.noStore)

theorem any_raisesNoStore_iff :
    headers.toList.any raisesNoStore = true ↔ SpellsNoStore headers := by
  have hmem : ∀ value, CacheConstant.noStore ∈ split value split ↔
      Delimited split CacheConstant.noStore value :=
    mem_split_iff (by decide) (by decide) (by decide)
  simp only [List.any_eq_true, raisesNoStore, Bool.and_eq_true, beq_iff_eq, exists_eq_right,
    SpellsNoStore, hmem]

instance : Decidable (SpellsNoStore headers) :=
  decidable_of_iff _ (any_raisesNoStore_iff headers)

/-- The flag after a header loop, if a cache-control value is read directive by directive and no
other header touches the flag. -/
theorem foldl_noStore_iff {σ : Type} (flag : σ → Bool) {parse : σ → Bytes → σ}
    {parseHeader : σ → Bytes × Bytes → σ} {start : σ} (hstart : flag start = false)
    (hparse : ∀ s str, flag (parse s str) = (flag s || str == CacheConstant.noStore))
    (hheader : ∀ s header, if lower header.1 = cacheControl
      then parseHeader s header = (split header.2 split).foldl parse s
      else flag (parseHeader s header) = flag s) :
    flag (headers.toList.foldl parseHeader start) = true ↔ SpellsNoStore headers := by
  have hraises : ∀ s header, flag (parseHeader s header) = (flag s || raisesNoStore header) := by
    intro s header
    have hread := hheader s header
    unfold raisesNoStore
    by_cases hkey : lower header.1 = cacheControl
    · rw [if_pos hkey] at hread
      rw [hread, hkey, beq_self_eq_true, Bool.true_and]
      exact Execution.foldl_flag flag hparse _ s
    · grind
  rw [Execution.foldl_flag flag hraises, hstart, Bool.false_or, any_raisesNoStore_iff]

namespace HttpCacheRequest

theorem noStore_parse (r : HttpCacheRequest) (str : Bytes) :
    ((r.parseFlag str).parseValue str).noStore = (r.noStore || str == CacheConstant.noStore) := by
  have hother : CacheConstant.noStore ≠ CacheConstant.noCache := by decide
  have hvalue (s : HttpCacheRequest) : (s.parseValue str).noStore = s.noStore := by
    grind [parseValue]
  rw [hvalue]
  grind [parseFlag]

/-- The parsed flag of a request is the exact spelling of the directive. -/
theorem parse_noStore_iff :
    (parseRequestHeader {} headers).noStore = true ↔ SpellsNoStore headers := by
  refine foldl_noStore_iff headers noStore rfl noStore_parse fun r header => ?_
  grind [parseHeader, parseCacheControl]

end HttpCacheRequest

namespace HttpCacheResponse

theorem noStore_parse (r : HttpCacheResponse) (str : Bytes) :
    ((r.parseFlag str).parseValue str).noStore = (r.noStore || str == CacheConstant.noStore) := by
  have hother : CacheConstant.noStore ≠ CacheConstant.noCache := by decide
  have hvalue (s : HttpCacheResponse) : (s.parseValue str).noStore = s.noStore := by
    grind [parseValue]
  rw [hvalue]
  grind [parseFlag]

/-- The parsed flag of a response is the exact spelling of the directive. -/
theorem parse_noStore_iff :
    (parseCacheResponseHeader {} headers).noStore = true ↔ SpellsNoStore headers := by
  refine foldl_noStore_iff headers noStore rfl noStore_parse fun r header => ?_
  grind [parseHeader, parseCacheControl]

end HttpCacheResponse

namespace HttpCacheStrategy

/-- A response is cacheable exactly when the request may use the cache, the code
is admitted and neither side spells the directive. -/
theorem isCacheable_create_iff (c : Copy) (time : HttpTime) (request : RequestOptions)
    (response : HttpResponse) :
    (create request).isCacheable c time response = true ↔
      (create request).couldUseCache = true ∧
        admitsCode c time
          { HttpCacheResponse.parseCacheResponseHeader {} response.headers with
            respCode := response.responseCode } = true ∧
        ¬ SpellsNoStore response.headers ∧ ¬ SpellsNoStore request.headers := by
  have hresponse := HttpCacheResponse.parse_noStore_iff response.headers
  have hrequest := HttpCacheRequest.parse_noStore_iff request.headers
  grind [isCacheable, create, isCacheableResponse]

/-- A plain GET request of a response with code 200: only the directive can
keep it out of the cache. -/
theorem isCacheable_get_ok_iff (time : HttpTime) (headers : Headers) :
    (create {}).isCacheable .httpClient time { responseCode := .ok, headers := headers } = true ↔
      ¬ SpellsNoStore headers := by
  have hempty : ¬ SpellsNoStore (∅ : Headers) := by decide
  rw [isCacheable_create_iff]
  constructor
  · rintro ⟨-, -, hspells, -⟩
    exact hspells
  · intro hspells
    exact ⟨rfl, rfl, hspells, hempty⟩

/-- A header map that says no-store keeps every response out of the cache
exactly when it spells the directive the way the parsers expect. -/
theorem noStore_honoured_iff (time : HttpTime) :
    (∀ headers : Headers, SaysNoStore headers →
      ((∀ (request : HttpClientRequest) (response : HttpResponse), response.headers = headers →
          (create request.toRequestOptions).isCacheable .httpClient time response = false) ↔
        SpellsNoStore headers)) ∧
    (∀ request : HttpClientRequest, SaysNoStore request.headers →
      ((∀ response : HttpResponse,
          (create request.toRequestOptions).isCacheable .httpClient time response = false) ↔
        (create request.toRequestOptions).couldUseCache = false ∨
          SpellsNoStore request.headers)) := by
  constructor
  · intro headers _
    constructor
    · intro hnever
      by_contra hspells
      have hstored := (isCacheable_get_ok_iff time headers).mpr hspells
      have hrefused := hnever {} { responseCode := .ok, headers := headers } rfl
      rw [hrefused] at hstored
      cases hstored
    · rintro hspells request response rfl
      rw [← Bool.not_eq_true, isCacheable_create_iff]
      rintro ⟨-, -, hnot, -⟩
      exact hnot hspells
  · intro request _
    constructor
    · intro hnever
      by_contra hnone
      rw [not_or, Bool.not_eq_false] at hnone
      have hrefused := hnever { responseCode := .ok }
      rw [← Bool.not_eq_true, isCacheable_create_iff] at hrefused
      exact hrefused ⟨hnone.1, rfl, by decide, hnone.2⟩
    · intro hwhen response
      rw [← Bool.not_eq_true, isCacheable_create_iff]
      grind

/-- A header map with this cache-control value only. -/
def cacheControlHeaders (value : Bytes) : Headers :=
  (∅ : Headers).insert cacheControl value

def spelledHeaders : Headers := cacheControlHeaders (ascii "max-age=60, no-store")

theorem noStore_honoured_of_spelled :
    SaysNoStore spelledHeaders ∧
      ∀ (request : HttpClientRequest) (response : HttpResponse), response.headers = spelledHeaders →
        (create request.toRequestOptions).isCacheable .httpClient .undated response = false :=
  have hdirective : SaysNoStore spelledHeaders := by decide
  have hspells : SpellsNoStore spelledHeaders := by decide
  ⟨hdirective, ((noStore_honoured_iff .undated).1 spelledHeaders hdirective).mpr hspells⟩

/-- Without a space behind the comma the directive is not seen, on either side. -/
theorem noStore_after_bare_comma_is_stored :
    SaysNoStore (cacheControlHeaders (ascii "max-age=60,no-store")) ∧
      (create {}).isCacheable .httpClient .undated
        { responseCode := .ok
          headers := cacheControlHeaders (ascii "max-age=60,no-store") } = true ∧
      (create (HttpClientRequest.setHeader {} (ascii "Cache-Control")
          (ascii "max-age=60,no-store")).toRequestOptions).isCacheable .httpClient .undated
        { responseCode := .ok } = true := by
  decide

end HttpCacheStrategy

end Netstack.HttpCache
