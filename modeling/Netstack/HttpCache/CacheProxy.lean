import Netstack.HttpCache.CacheKey
import Netstack.HttpCache.LatestReads

/-!
# Storing and serving responses

`CacheProxy` of the native API writes five base64 fields of a response into the
store and builds a response from them when the same request comes again. The
store and the flag that says whether the cache runs are global.

The status code is not among the fields: every served response has code 200.
-/

namespace Netstack.HttpCache

open Foundation Foundation.Recency LruCacheDiskHandler Base64 HttpConstant HttpResponse

namespace HttpConstant

def responseKeyHeader : Bytes := ascii "header"
def responseKeyResult : Bytes := ascii "result"
def responseKeyCookies : Bytes := ascii "cookies"
def responseTime : Bytes := ascii "responseTime"
def requestTime : Bytes := ascii "requestTime"

end HttpConstant

/-- `DISK_LRU_CACHE` and `g_cacheIsRunning`. -/
structure GlobalCache where
  diskLruCache : LruCacheDiskHandler
  cacheIsRunning : Bool

structure CacheProxy where
  key : Bytes
  strategy : HttpCacheStrategy

namespace CacheProxy

def create (requestOptions : HttpClientRequest) : CacheProxy where
  key := cacheKey .httpClient requestOptions.toRequestOptions
  strategy := .create requestOptions.toRequestOptions

/-- The map `WriteResponseToCache` stores. -/
def encodeResponse (response : HttpResponse) : ValueMap :=
  (((((∅ : ValueMap).insert responseKeyHeader
    (encode response.rawHeader)).insert responseKeyResult
    (encode response.result)).insert responseKeyCookies
    (encode response.cookies)).insert responseTime
    (encode response.responseTime)).insert requestTime
    (encode response.requestTime)

/-- `Base64::Decode(responseFromCache[key])`; a missing field reads as the empty text. -/
def decodeField (responseFromCache : ValueMap) (key : Bytes) : Bytes :=
  decode (responseFromCache[key]?.getD [])

/-- The response `ReadResponseFromCache` builds. -/
def decodeResponse (responseFromCache : ValueMap) : HttpResponse :=
  parseHeaders
    { rawHeader := decodeField responseFromCache responseKeyHeader
      result := decodeField responseFromCache responseKeyResult
      cookies := decodeField responseFromCache responseKeyCookies
      responseTime := decodeField responseFromCache responseTime
      requestTime := decodeField responseFromCache requestTime
      responseCode := .ok }

variable (rt : Runtime) (js : JsonLibrary)

def readResponseFromCache (proxy : CacheProxy) (g : GlobalCache) :
    Option (Option HttpResponse × GlobalCache) :=
  if !g.cacheIsRunning then some (none, g)
  else if !proxy.strategy.couldUseCache then some (none, g)
  else do
    let (responseFromCache, diskLruCache) ← g.diskLruCache.get rt .httpClient js proxy.key
    let g := { g with diskLruCache := diskLruCache }
    if responseFromCache.isEmpty then
      return (none, g)
    else
      return (some (decodeResponse responseFromCache), g)

def writeResponseToCache (time : HttpTime) (proxy : CacheProxy) (g : GlobalCache)
    (response : HttpResponse) : Option GlobalCache :=
  if !g.cacheIsRunning then some g
  else if !proxy.strategy.isCacheable .httpClient time response then some g
  else do
    let diskLruCache ← g.diskLruCache.put rt .httpClient proxy.key (encodeResponse response)
    return { g with diskLruCache := diskLruCache }

end CacheProxy

section Frame

/-- Parsing the header text changes the header map and the cookie list only. -/
theorem HttpResponse.parseHeaderLine_frame (r : HttpResponse) (line : Bytes) :
    ∃ headers setCookie, r.parseHeaderLine line =
      { r with headers := headers, setCookie := setCookie } := by
  unfold parseHeaderLine
  split_ifs
  · exact ⟨r.headers, r.setCookie, rfl⟩
  · split
    · exact ⟨_, r.setCookie, rfl⟩
    · split_ifs
      · exact ⟨r.headers, _, rfl⟩
      · exact ⟨_, r.setCookie, rfl⟩

theorem HttpResponse.foldl_parseHeaderLine_frame (lines : List Bytes) (r : HttpResponse) :
    ∃ headers setCookie, lines.foldl parseHeaderLine r =
      { r with headers := headers, setCookie := setCookie } := by
  induction lines generalizing r with
  | nil => exact ⟨r.headers, r.setCookie, rfl⟩
  | cons line lines ih =>
    obtain ⟨headers, setCookie, hline⟩ := r.parseHeaderLine_frame line
    obtain ⟨headers', setCookie', hrest⟩ := ih (r.parseHeaderLine line)
    grind

end Frame

namespace CacheProxy

/-- The parts of a message that a cache has to give back. -/
def SameMessage (served response : HttpResponse) : Prop :=
  served.responseCode = response.responseCode ∧ served.rawHeader = response.rawHeader ∧
    served.result = response.result ∧ served.cookies = response.cookies ∧
    served.responseTime = response.responseTime ∧ served.requestTime = response.requestTime

variable (fields : ValueMap)

variable (response : HttpResponse)

/-- The stored fields decode to the five texts of the response. -/
def Holds : Prop :=
  decodeField fields responseKeyHeader = response.rawHeader ∧
    decodeField fields responseKeyResult = response.result ∧
    decodeField fields responseKeyCookies = response.cookies ∧
    decodeField fields responseTime = response.responseTime ∧
    decodeField fields requestTime = response.requestTime

/-- A served response is the stored one exactly when the fields are right and
the code is 200. -/
theorem sameMessage_decodeResponse_iff :
    SameMessage (decodeResponse fields) response ↔
      response.responseCode = .ok ∧ Holds fields response := by
  obtain ⟨headers, setCookie, hparse⟩ := foldl_parseHeaderLine_frame
    (CommonUtils.split (decodeField fields responseKeyHeader)
      httpLineSeparator)
    { rawHeader := decodeField fields responseKeyHeader
      result := decodeField fields responseKeyResult
      cookies := decodeField fields responseKeyCookies
      responseTime := decodeField fields responseTime
      requestTime := decodeField fields requestTime
      responseCode := .ok }
  have hserved : decodeResponse fields = _ := hparse
  rw [SameMessage, hserved, eq_comm (a := response.responseCode)]
  rfl

theorem decodeResponse_code : (decodeResponse fields).responseCode = .ok :=
  ((sameMessage_decodeResponse_iff fields (decodeResponse fields)).mp
    ⟨rfl, rfl, rfl, rfl, rfl, rfl⟩).1

theorem holds_encodeResponse : Holds (encodeResponse response) response := by
  have hfield : ∀ key text, (encodeResponse response)[key]? = some (encode text) →
      decodeField (encodeResponse response) key = text := by
    intro key text h
    rw [decodeField, h, Option.getD_some, decode_encode]
  exact ⟨hfield _ _ rfl, hfield _ _ rfl, hfield _ _ rfl, hfield _ _ rfl, hfield _ _ rfl⟩

section Store

variable (rt : Runtime) (js : JsonLibrary) {slack : Nat} {g : GlobalCache} {proxy : CacheProxy}

/-- Reading serves what the store finds for the key. -/
theorem readResponseFromCache_spec (hinv : g.diskLruCache.Inv slack)
    (hrunning : g.cacheIsRunning = true) (hcould : proxy.strategy.couldUseCache = true) :
    ∃ g', proxy.readResponseFromCache rt js g =
      some ((g.diskLruCache.lookup rt .httpClient js proxy.key).map decodeResponse, g') := by
  obtain ⟨h', hget, -⟩ := hinv.get_spec rt .httpClient js proxy.key
  refine ⟨{ g with diskLruCache := h' }, ?_⟩
  cases hlookup : g.diskLruCache.lookup rt .httpClient js proxy.key with
  | none =>
    grind [readResponseFromCache]
  | some fields =>
    have hne := ne_empty_of_accepted (hinv.accepted_of_lookup hlookup)
    rw [hlookup] at hget
    simp [readResponseFromCache, hrunning, hcould, hget, hne]

/-- Writing an accepted response makes the store find its fields, unless they
exceed what the memory can keep; then only the file is left. -/
theorem writeResponseToCache_spec (time : HttpTime) (hinv : g.diskLruCache.Inv slack)
    (hrunning : g.cacheIsRunning = true) {response : HttpResponse}
    (hcacheable : proxy.strategy.isCacheable .httpClient time response = true)
    (haccepted : Accepted (encodeResponse response)) :
    ∃ g', proxy.writeResponseToCache rt time g response = some g' ∧
      g'.diskLruCache.Inv slack ∧ g'.cacheIsRunning = true ∧
      g'.diskLruCache.lookup rt .httpClient js proxy.key =
        if mapBytes (encodeResponse response) ≤ g.diskLruCache.cache.budget
          then some (encodeResponse response)
          else find proxy.key (g.diskLruCache.fileView rt .httpClient js) := by
  obtain ⟨h', hput, hinv', hdisk, hent⟩ :=
    hinv.put_spec rt .httpClient proxy.key (encodeResponse response)
  refine ⟨{ g with diskLruCache := h' }, ?_, hinv', hrunning, ?_⟩
  · simp [writeResponseToCache, hrunning, hcacheable, hput]
  · have hview : h'.fileView rt .httpClient js = g.diskLruCache.fileView rt .httpClient js :=
      fileView_congr hdisk
    rw [if_pos haccepted, ← hinv.memory_capacity, ← hinv.memory.budget_eq] at hent
    rw [lookup, hent, find_put_self, hview]
    split <;> rfl

theorem couldUseCache_of_isCacheable {c : Copy} {time : HttpTime} {s : HttpCacheStrategy}
    {response : HttpResponse} (h : s.isCacheable c time response = true) :
    s.couldUseCache = true := by
  grind [HttpCacheStrategy.isCacheable]

/-- Whatever the store went through before, a response that was just written is
served unchanged exactly when its code is 200 and its fields are kept in memory or
already stand in the file. -/
theorem read_after_write_iff (time : HttpTime) (disk : DiskHandler) (capacity : Nat)
    (ops : List LruCacheDiskHandler.Op) (request : HttpClientRequest) (response : HttpResponse)
    (hreached : (LruCacheDiskHandler.create disk capacity).run rt .httpClient js ops =
      some g.diskLruCache) (hrunning : g.cacheIsRunning = true)
    (hcacheable : (create request).strategy.isCacheable .httpClient time response = true)
    (haccepted : Accepted (encodeResponse response)) :
    ∃ g₁ g₂ served, (create request).writeResponseToCache rt time g response = some g₁ ∧
      (create request).readResponseFromCache rt js g₁ = some (served, g₂) ∧
      ((∃ r, served = some r ∧ SameMessage r response) ↔
        response.responseCode = .ok ∧
          (mapBytes (encodeResponse response) ≤ g.diskLruCache.cache.budget ∨
            ∃ fields, find (create request).key (g.diskLruCache.fileView rt .httpClient js) =
              some fields ∧ Holds fields response)) := by
  obtain ⟨h, hrun, slack, hinv⟩ :=
    (inv_create disk capacity).exists_run rt .httpClient js ops
  obtain rfl : g.diskLruCache = h := Option.some.inj (hreached.symm.trans hrun)
  obtain ⟨g₁, hwrite, hinv₁, hrunning₁, hlookup⟩ :=
    writeResponseToCache_spec rt js time hinv hrunning hcacheable haccepted
  obtain ⟨g₂, hread⟩ := readResponseFromCache_spec rt js hinv₁ hrunning₁
    (couldUseCache_of_isCacheable hcacheable)
  refine ⟨g₁, g₂, _, hwrite, hread, ?_⟩
  have hserved : ∀ fields : Option ValueMap,
      (∃ r, fields.map decodeResponse = some r ∧ SameMessage r response) ↔
        response.responseCode = .ok ∧ ∃ f, fields = some f ∧ Holds f response := by
    intro fields
    cases fields with
    | none => simp
    | some f => simp [sameMessage_decodeResponse_iff]
  rw [hserved, hlookup]
  apply and_congr_right
  intro _
  by_cases hfits : mapBytes (encodeResponse response) ≤ g.diskLruCache.cache.budget
  · rw [if_pos hfits]
    grind [holds_encodeResponse]
  · rw [if_neg hfits, or_iff_right hfits]

/-- A running cache over an empty store. -/
def startedCache : GlobalCache where
  diskLruCache := .create emptyObjectFile 0
  cacheIsRunning := true

def sampleResponse (code : ResponseCode) : HttpResponse :=
  { responseCode := code, rawHeader := ascii "age:1", result := ascii "text" }

theorem read_after_write_of_ok :
    ∃ g₁ g₂ r,
      (create plainRequest).writeResponseToCache .ordered .undated startedCache
          (sampleResponse .ok) = some g₁ ∧
        (create plainRequest).readResponseFromCache .ordered JsonText.cJson g₁ = some (some r, g₂) ∧
        SameMessage r (sampleResponse .ok) := by
  obtain ⟨g₁, g₂, served, hwrite, hread, hiff⟩ :=
    read_after_write_iff .ordered JsonText.cJson .undated emptyObjectFile 0 []
      plainRequest (sampleResponse .ok) (g := startedCache) rfl rfl (by decide) (by decide)
  obtain ⟨r, rfl, hsame⟩ := hiff.mpr ⟨rfl, Or.inl (by decide)⟩
  exact ⟨g₁, g₂, r, hwrite, hread, hsame⟩

/-- A cached 404 response is served as 200. -/
theorem notFound_served_as_ok :
    (create plainRequest).strategy.isCacheable .httpClient .undated (sampleResponse .notFound) =
        true ∧
      Accepted (encodeResponse (sampleResponse .notFound)) ∧
      ((create plainRequest).writeResponseToCache .ordered .undated startedCache
          (sampleResponse .notFound)).bind (fun g₁ =>
        ((create plainRequest).readResponseFromCache .ordered JsonText.cJson g₁).map fun p =>
          p.1.map responseCode) = some (some .ok) := by
  decide +kernel

end Store

end CacheProxy

end Netstack.HttpCache
