import Netstack.Foundation.FiniteMaps
import Netstack.HttpCache.Base64
import Netstack.HttpCache.CacheStrategy

/-!
# The cache key

The key of a request is the base64 text of an unescaped concatenation: URL and lower-cased method
on lines of their own, one `name:value` line for each header except the two conditional ones, and
the version number. It never looks at the body.

## Implementation notes

The JS copy removes CR and LF from header values; the native copy appends them as they are.
-/

namespace Netstack.HttpCache

open Foundation CommonUtils CacheConstant HttpCacheStrategy HttpClientRequest List
open HttpConstant

/-- The header value as it enters the key. -/
def keyValue (c : Copy) (value : Bytes) : Bytes :=
  match c with
  | .http => value.filter fun b => b ≠ 13 ∧ b ≠ 10
  | .httpClient => value

/-- Headers that `CacheProxy` leaves out of the key. -/
def isConditional (name : Bytes) : Bool :=
  name == ifNoneMatch || name == ifModifiedSince

/-- The text the constructor of `CacheProxy` assembles. -/
def keyText (c : Copy) (requestOptions : RequestOptions) : Bytes :=
  let str := requestOptions.url ++ httpLineSeparator ++ lower requestOptions.method ++
    httpLineSeparator
  let str := requestOptions.headers.toList.foldl
    (fun str p =>
      if isConditional p.1 then str
      else str ++ (p.1 ++ httpHeaderSeparator ++ keyValue c p.2 ++ httpLineSeparator)) str
  str ++ decimal requestOptions.getHttpVersion

def cacheKey (c : Copy) (requestOptions : RequestOptions) : Bytes :=
  Base64.encode (keyText c requestOptions)

/-- The headers that enter the key, in map order. -/
def keyHeaders (requestOptions : RequestOptions) : List (Bytes × Bytes) :=
  requestOptions.headers.toList.filter fun p => !isConditional p.1

/-- The line of one header. -/
def headerLine (p : Bytes × Bytes) : Bytes := p.1 ++ 58 :: p.2

variable (r : RequestOptions)

section Separation

theorem foldl_headerLines (headers : List (Bytes × Bytes)) (str : Bytes) :
    headers.foldl
      (fun str p =>
        if isConditional p.1 then str
        else str ++ (p.1 ++ httpHeaderSeparator ++ keyValue .httpClient p.2 ++ httpLineSeparator))
      str =
      str ++ terminated 13 10 ((headers.filter fun p => !isConditional p.1).map headerLine) [] := by
  have hcolon : httpHeaderSeparator = [58] := by decide
  induction headers generalizing str with
  | nil => simp
  | cons p headers ih =>
    rw [foldl_cons, ih]
    grind [terminated, headerLine, keyValue, httpLineSeparator]

/-- The native key text is a list of terminated lines with the version behind it. -/
theorem keyText_eq : keyText .httpClient r =
      terminated 13 10 (r.url :: lower r.method :: (keyHeaders r).map headerLine)
        (decimal r.getHttpVersion) := by
  simp only [keyText, foldl_headerLines]
  simp [terminated, keyHeaders, httpLineSeparator]

/-- A text that stays on one line. -/
def SingleLine (s : Bytes) : Prop := (13 : UInt8) ∉ s ∧ (10 : UInt8) ∉ s

instance (s : Bytes) : Decidable (SingleLine s) :=
  inferInstanceAs (Decidable ((13 : UInt8) ∉ s ∧ (10 : UInt8) ∉ s))

/-- Every field stays on one line and no header name contains a colon. -/
def Separable : Prop :=
  SingleLine r.url ∧ SingleLine r.method ∧
    ∀ p ∈ r.headers.toList, SingleLine p.1 ∧ SingleLine p.2 ∧ (58 : UInt8) ∉ p.1

instance : Decidable (Separable r) :=
  inferInstanceAs (Decidable (_ ∧ _ ∧ ∀ p ∈ r.headers.toList, _))

theorem Separable.colon_notMem {r : RequestOptions} (h : Separable r) :
    ∀ p ∈ keyHeaders r, (58 : UInt8) ∉ p.1 :=
  fun p hp => (h.2.2 p (mem_filter.mp hp).1).2.2

theorem Separable.lines {r : RequestOptions} (h : Separable r) :
    ∀ l ∈ r.url :: lower r.method :: (keyHeaders r).map headerLine, (13 : UInt8) ∉ l := by
  intro l hl
  rcases mem_cons.mp hl with rfl | hl
  · exact h.1.1
  · rcases mem_cons.mp hl with rfl | hl
    · exact notMem_lower (by decide) h.2.1.1
    · obtain ⟨p, hp, rfl⟩ := mem_map.mp hl
      obtain ⟨hname, hvalue, -⟩ := h.2.2 p (mem_filter.mp hp).1
      simp [headerLine, hname.1, hvalue.1]

/-- Header lines with colon-free names are told apart. -/
theorem headerLines_injective {ps qs : List (Bytes × Bytes)}
    (hp : ∀ p ∈ ps, (58 : UInt8) ∉ p.1) (hq : ∀ q ∈ qs, (58 : UInt8) ∉ q.1)
    (h : ps.map headerLine = qs.map headerLine) : ps = qs := by
  induction ps generalizing qs with
  | nil => exact (map_eq_nil_iff.mp h.symm).symm
  | cons p ps ih =>
    cases qs with
    | nil => simp at h
    | cons q qs =>
      obtain ⟨hline, hrest⟩ := cons.inj h
      obtain ⟨hname, hvalue⟩ :=
        append_cons_inj_of_notMem (hp p (by simp)) (hq q (by simp)) hline
      grind

/-- The header map without the conditional headers. -/
def unconditional (headers : Headers) : Headers :=
  (headers.erase ifNoneMatch).erase ifModifiedSince

theorem getElem?_unconditional (name value : Bytes) :
    (unconditional r.headers)[name]? = some value ↔ (name, value) ∈ keyHeaders r := by
  unfold unconditional keyHeaders
  rw [FiniteMaps.getElem?_erase, FiniteMaps.getElem?_erase, mem_filter,
    Std.ExtTreeMap.mem_toList_iff_getElem?_eq_some]
  grind [isConditional]

theorem unconditional_eq_of_keyHeaders {r r' : RequestOptions}
    (h : keyHeaders r = keyHeaders r') : unconditional r.headers = unconditional r'.headers := by
  apply Std.ExtTreeMap.ext_getElem?
  intro name
  apply Option.ext
  grind [getElem?_unconditional]

/-- Equal keys of separable requests come from equal lines. -/
theorem lines_eq_of_cacheKey_eq {r r' : RequestOptions} (h : Separable r) (h' : Separable r')
    (hkey : cacheKey .httpClient r = cacheKey .httpClient r') :
    r.url = r'.url ∧ lower r.method = lower r'.method ∧ keyHeaders r = keyHeaders r' ∧
      r.getHttpVersion = r'.getHttpVersion := by
  have hcr : isDigit 13 = false := by decide
  have htext := Base64.encode_injective hkey
  rw [keyText_eq, keyText_eq] at htext
  obtain ⟨hlines, hversion⟩ := terminated_injective h.lines h'.lines (notMem_decimal hcr _)
    (notMem_decimal hcr _) htext
  simp only [cons.injEq] at hlines
  obtain ⟨hurl, hmethod, hheaders⟩ := hlines
  exact ⟨hurl, hmethod, headerLines_injective h.colon_notMem h'.colon_notMem hheaders,
    decimal_injective hversion⟩

end Separation

section Sharing

/-- Requests that stay on their lines share a key only if the URL, the method
without letter case, the unconditional headers and the version agree. -/
theorem cacheKey_separates (r r' : HttpClientRequest) (h : Separable r.toRequestOptions)
    (h' : Separable r'.toRequestOptions)
    (hkey : cacheKey .httpClient r.toRequestOptions = cacheKey .httpClient r'.toRequestOptions) :
    r.url = r'.url ∧ lower r.method = lower r'.method ∧
      unconditional r.headers = unconditional r'.headers ∧
      r.getHttpVersion = r'.getHttpVersion := by
  obtain ⟨hurl, hmethod, hheaders, hversion⟩ := lines_eq_of_cacheKey_eq h h' hkey
  exact ⟨hurl, hmethod, unconditional_eq_of_keyHeaders hheaders, hversion⟩

/-- A request for `u` with one header, and the same request made conditional. -/
def plainRequest : HttpClientRequest :=
  (setURL {} (ascii "u")).setHeader (ascii "Accept") (ascii "a:b")

def conditionalRequest : HttpClientRequest :=
  plainRequest.setHeader (ascii "If-None-Match") (ascii "1")

theorem cacheKey_separates_conditional :
    plainRequest.headers ≠ conditionalRequest.headers ∧
      unconditional plainRequest.headers = unconditional conditionalRequest.headers :=
  ⟨by decide, (cacheKey_separates plainRequest conditionalRequest (by decide) (by decide)
    (by decide +kernel)).2.2.1⟩

/-- Two requests that may use the cache and share an entry have the same method,
provided their URLs contain no line separator. The body plays no part in it, and
without a range header only GET and HEAD are involved. -/
theorem shared_entry_same_method (r r' : HttpClientRequest)
    (hurl : ¬ httpLineSeparator <:+: r.url) (hurl' : ¬ httpLineSeparator <:+: r'.url)
    (hcould : (create r.toRequestOptions).couldUseCache = true)
    (hkey : cacheKey .httpClient r.toRequestOptions = cacheKey .httpClient r'.toRequestOptions) :
    r.method = r'.method ∧ r.url = r'.url ∧
      (∀ body : Bytes,
        cacheKey .httpClient { r.toRequestOptions with body := body } =
            cacheKey .httpClient r'.toRequestOptions ∧
          (create { r.toRequestOptions with body := body }).couldUseCache =
            true) ∧
      (r.headers.contains keyRange = false →
        r.method = httpMethodGet ∨ r.method = httpMethodHead) := by
  have htext := Base64.encode_injective hkey
  simp only [keyText_eq, terminated_cons] at htext
  obtain ⟨hsame, hrest⟩ := append_separator_inj (by decide) hurl hurl' htext
  obtain ⟨hmethod, -⟩ := append_cons_inj_of_notMem
    (cr_notMem_lower_of_admitsMethod r.method_admitted)
    (cr_notMem_lower_of_admitsMethod r'.method_admitted) hrest
  refine ⟨eq_of_lower_eq_of_admitsMethod r.method_admitted r'.method_admitted hmethod, hsame,
    fun body => ⟨hkey, hcould⟩, ?_⟩
  intro hrange
  have hcould : (r.method = httpMethodGet ∨ r.method = httpMethodHead) ∨
      r.headers.contains keyRange = true := by
    simpa [couldUseCache, create] using hcould
  grind

theorem shared_entry_same_method_conditional :
    plainRequest.method = conditionalRequest.method ∧
      cacheKey .httpClient { plainRequest.toRequestOptions with body := ascii "b" } =
        cacheKey .httpClient conditionalRequest.toRequestOptions :=
  have hshared := shared_entry_same_method plainRequest conditionalRequest (by decide) (by decide)
    (by decide) (by decide +kernel)
  ⟨hshared.1, (hshared.2.2.1 (ascii "b")).1⟩

/-- A range request with a body; the cache may be used whatever the method is. -/
def rangePost (body : Bytes) : HttpClientRequest :=
  (((setURL {} (ascii "u")).setMethod httpMethodPost).setHeader
    (ascii "Range") (ascii "0")).setBody body

/-- Two POST requests with a range header and different bodies share an entry,
and so do a GET and a POST request when line separators stand in the fields. -/
theorem shared_entry_other_body_and_method :
    ((create (rangePost (ascii "1")).toRequestOptions).couldUseCache = true ∧
      (create (rangePost (ascii "2")).toRequestOptions).couldUseCache = true ∧
      cacheKey .httpClient (rangePost (ascii "1")).toRequestOptions =
        cacheKey .httpClient (rangePost (ascii "2")).toRequestOptions ∧
      (rangePost (ascii "1")).body ≠ (rangePost (ascii "2")).body) ∧
    let get : HttpClientRequest :=
      (setURL {} (ascii "u")).setHeader (ascii "a")
        (ascii "1\r\npost\r\nrange:0")
    let post : HttpClientRequest :=
      ((setURL {} (ascii "u\r\nget\r\na:1")).setMethod httpMethodPost).setHeader
        (ascii "range") (ascii "0")
    (create get.toRequestOptions).couldUseCache = true ∧
      (create post.toRequestOptions).couldUseCache = true ∧
      cacheKey .httpClient get.toRequestOptions = cacheKey .httpClient post.toRequestOptions ∧
      get.method ≠ post.method := by
  decide +kernel

end Sharing

end Netstack.HttpCache
