import Netstack.HttpCache.CacheProxy
import Netstack.HttpExec.Receiving

/-!
# Revalidation of a stale entry

An entry that is stale makes the strategy add a condition to the request, and is parked in the
context for the answer 304. Nothing takes it from there: `SetResponseByCache` is not called,
and the caller gets the answer of the server whatever it is.

## Implementation notes

The strategy writes to the options of the context. The extra items of a response are left out.
-/

namespace Netstack.HttpExec

open Foundation Option HttpCache CacheProxy HttpCacheStrategy JsonText

def notModified : HttpCache.ResponseCode := 304

/-- The part of `RequestContext` that an exchange with the cache and the server uses. -/
structure Exchange where
  options : RequestOptions
  isUsingCache : Bool := true
  maxLimit : Nat := 5 * 1024 * 1024
  response : HttpCache.HttpResponse := {}
  cacheResponse : HttpCache.HttpResponse := {}

namespace Exchange

variable (rt : Runtime) (js : JsonLibrary) (time : HttpTime)

def setCacheResponse (cacheResponse : HttpCache.HttpResponse) (c : Exchange) : Exchange :=
  { c with cacheResponse := cacheResponse }

/-- `CacheProxy::ReadResponseFromCache` of the JS interface; it says whether the request
is answered. -/
def readResponseFromCache (c : Exchange) (g : GlobalCache) :
    Option (Bool × Exchange × GlobalCache) :=
  let strategy := create c.options
  if !g.cacheIsRunning then some (false, c, g)
  else if !strategy.couldUseCache then some (false, c, g)
  else do
    let (responseFromCache, diskLruCache) ←
      g.diskLruCache.get rt .http js (cacheKey .http c.options)
    let g := { g with diskLruCache := diskLruCache }
    if responseFromCache.isEmpty then return (false, c, g)
    else
      let (status, strategy, cachedResponse) ←
        strategy.runStrategy .http time (decodeResponse responseFromCache)
      let c := { c with options := strategy.requestOptions }
      match status with
      | .fresh => return (true, { c with response := cachedResponse }, g)
      | .stale => return (false, c.setCacheResponse cachedResponse, g)
      | .deny => return (false, c, g)

/-- The cache is asked only if the request uses it. -/
def askCache (c : Exchange) (g : GlobalCache) : Option (Bool × Exchange × GlobalCache) :=
  if c.isUsingCache then c.readResponseFromCache rt js time g else some (false, c, g)

/-- What `BuildRequestCallback` is made from after the transfer. -/
def delivered (answer : ServerAnswer) (c : Exchange) : Option HttpCache.HttpResponse :=
  receive c.maxLimit answer c.response

/-- The entry that the strategy judges stale, and the options as it leaves them. -/
def staleEntry (c : Exchange) (g : GlobalCache) :
    Option (HttpCache.HttpResponse × RequestOptions) :=
  let strategy := create c.options
  if c.isUsingCache && g.cacheIsRunning && strategy.couldUseCache then do
    let (responseFromCache, _) ←
      g.diskLruCache.get rt .http js (cacheKey .http c.options)
    if responseFromCache.isEmpty then none
    else
      match strategy.runStrategy .http time
        (decodeResponse responseFromCache) with
      | some (.stale, strategy, cachedResponse) => some (cachedResponse, strategy.requestOptions)
      | _ => none
  else none

section Spec

variable {rt js time} {c c' : Exchange} {g g' : GlobalCache}

/-- What the strategy leaves as it is: a stale response, and the options of a request for
which it finds no stale one. -/
theorem runStrategy_frame {copy : Copy} {s s' : HttpCacheStrategy}
    {response response' : HttpCache.HttpResponse} {status : CacheStatus}
    (h : s.runStrategy copy time response = some (status, s', response')) :
    status = .stale ∧ response' = response ∨
      status ≠ .stale ∧ s'.requestOptions = s.requestOptions := by
  simp only [runStrategy,
    runStrategyInternal] at h
  split_ifs at h
  · cases h
    exact Or.inr ⟨by decide, rfl⟩
  · cases h
    exact Or.inl ⟨rfl, rfl⟩
  · cases h
    exact Or.inr ⟨by decide, rfl⟩
  · cases h
    exact Or.inr ⟨by decide, rfl⟩
  · cases h
    exact Or.inr ⟨by decide, rfl⟩
  · simp only [bind_eq_bind, bind_eq_some_iff] at h
    obtain ⟨f, -, needed, -, allowed, -, h⟩ := h
    split_ifs at h
    · cases h
      exact Or.inr ⟨by decide, rfl⟩
    · cases h
      exact Or.inl ⟨rfl, rfl⟩

/-- An unanswered request goes on with the response it had. If there is a stale entry it
is parked and the strategy has seen to the options, otherwise they stay. -/
theorem askCache_false (h : c.askCache rt js time g = some (false, c', g')) :
    c'.response = c.response ∧ c'.maxLimit = c.maxLimit ∧
      match c.staleEntry rt js time g with
      | some (cached, options) => c'.cacheResponse = cached ∧ c'.options = options
      | none => c'.options = c.options := by
  simp only [askCache, readResponseFromCache] at h
  simp only [staleEntry]
  cases husing : c.isUsingCache with
  | false =>
    grind
  | true =>
    simp only [husing, if_true] at h
    split_ifs at h with hrunning hcould
    · cases h
      exact ⟨rfl, rfl, by simp_all⟩
    · cases h
      exact ⟨rfl, rfl, by simp_all⟩
    · simp only [Bool.not_eq_true, Bool.not_eq_false'] at hrunning hcould
      simp only [hrunning, hcould, Bool.and_self, if_true]
      simp only [bind_eq_bind, bind_eq_some_iff, Prod.exists] at h
      obtain ⟨stored, disk, hget, h⟩ := h
      rw [hget]
      split_ifs at h with hempty
      · grind
      · simp only [bind_eq_some_iff, Prod.exists] at h
        obtain ⟨status, strategy, cached, hrun, h⟩ := h
        simp only [bind_eq_bind, bind_some, hempty, hrun]
        cases status with
        | fresh => cases h
        | stale =>
          cases h
          exact ⟨rfl, rfl, rfl, rfl⟩
        | deny =>
          cases h
          obtain ⟨hstale, -⟩ | ⟨-, hoptions⟩ := runStrategy_frame hrun
          · cases hstale
          · exact ⟨rfl, rfl, hoptions⟩

theorem staleEntry_code {cached : HttpCache.HttpResponse} {options : RequestOptions}
    (h : c.staleEntry rt js time g = some (cached, options)) : cached.responseCode = .ok := by
  simp only [staleEntry, ite_none_right_eq_some, bind_eq_bind,
    bind_eq_some_iff, Prod.exists, ite_none_left_eq_some] at h
  obtain ⟨-, stored, -, -, -, h⟩ := h
  split at h
  · rename_i strategy response hrun
    cases h
    obtain ⟨-, rfl⟩ | ⟨hnot, -⟩ := runStrategy_frame hrun
    · exact decodeResponse_code stored
    · exact absurd rfl hnot
  · cases h

end Spec

end Exchange

/-- A header that makes the request conditional is in the new options and was not in the
old ones. -/
def AddsCondition (before after : RequestOptions) : Prop :=
  ∃ name ∈ [CacheConstant.ifNoneMatch, CacheConstant.ifModifiedSince],
    before.headers.contains name = false ∧ after.headers.contains name = true

instance (before after : RequestOptions) : Decidable (AddsCondition before after) := by
  unfold AddsCondition
  infer_instance

/-- The response has the status and the body of the cached one, and each of its headers
unless the server sent a newer one. -/
def Refreshes (cached server response : HttpCache.HttpResponse) : Prop :=
  response.responseCode = cached.responseCode ∧ response.result = cached.result ∧
    ∀ name value : Bytes, cached.headers[name]? = some value →
      response.headers[name]? = some value ∨ response.headers[name]? = server.headers[name]?

/-- If the request was made conditional and the server answers 304, the caller gets the
cached response refreshed. In every other case the caller gets the answer of the
server. -/
def RevalidationTransparent (before sent : Exchange)
    (server : HttpCache.HttpResponse) (delivered : Option HttpCache.HttpResponse) : Prop :=
  (AddsCondition before.options sent.options ∧ server.responseCode = notModified →
    ∃ response ∈ delivered, Refreshes sent.cacheResponse server response) ∧
  (¬ (AddsCondition before.options sent.options ∧ server.responseCode = notModified) →
    delivered = some server)

/-- Revalidation is transparent to the caller exactly if there is no stale entry that
makes the request conditional or the server does not answer 304. -/
theorem revalidationTransparent_iff (rt : Runtime) (js : JsonLibrary)
    (time : HttpTime) (c c' : Exchange) (g g' : GlobalCache)
    (answer : ServerAnswer) (server : HttpCache.HttpResponse)
    (hmiss : c.askCache rt js time g = some (false, c', g'))
    (hserver : receive c.maxLimit answer c.response = some server) :
    RevalidationTransparent c c' server (c'.delivered answer) ↔
      ¬ ((∃ entry ∈ c.staleEntry rt js time g, AddsCondition c.options entry.2) ∧
        answer.responseCode = notModified) := by
  obtain ⟨hresponse, hlimit, hentry⟩ := Exchange.askCache_false hmiss
  have hdelivered : c'.delivered answer = some server := by
    rw [Exchange.delivered, hresponse, hlimit, hserver]
  rw [RevalidationTransparent, hdelivered, responseCode_of_receive hserver]
  cases hstale : c.staleEntry rt js time g with
  | none =>
    grind [AddsCondition]
  | some entry =>
    obtain ⟨cached, options⟩ := entry
    rw [hstale] at hentry
    obtain ⟨hcached, hoptions⟩ := hentry
    simp only [mem_some_iff, exists_eq_left', hoptions]
    constructor
    · rintro ⟨hrefresh, -⟩ hcond
      have hcode := (hrefresh hcond).1
      rw [responseCode_of_receive hserver, hcond.2, hcached,
        Exchange.staleEntry_code hstale] at hcode
      exact absurd hcode (by decide)
    grind

/-- A request without headers. -/
def plainExchange : Exchange where
  options := { url := ascii "http://a/" }

/-- A cache with an entry for that request that has a validator and no lifetime. -/
def staleCache : GlobalCache :=
  let response : HttpCache.HttpResponse :=
    { responseCode := .ok, rawHeader := ascii "etag:v1", result := ascii "text" }
  { startedCache with
    diskLruCache := (startedCache.diskLruCache.put .ordered .http
      (cacheKey .http plainExchange.options)
      (encodeResponse response)).getD
        startedCache.diskLruCache }

def answerWith (code : HttpCache.ResponseCode) (body : List Bytes) : ServerAnswer where
  responseCode := code
  headerLines := [ascii "HTTP/1.1" ++ [13, 10], [13, 10]]
  chunks := body

/-- The server sends a new version. -/
theorem revalidation_of_changed :
    ∃ c' g' server, plainExchange.askCache .ordered cJson .undated staleCache =
        some (false, c', g') ∧
      AddsCondition plainExchange.options c'.options ∧
      RevalidationTransparent plainExchange c' server
        (c'.delivered (answerWith .ok [ascii "new"])) := by
  have hask : (plainExchange.askCache .ordered cJson .undated staleCache).map
      (fun r => (r.1, decide (AddsCondition plainExchange.options r.2.1.options))) =
        some (false, true) := by decide +kernel
  obtain ⟨⟨hit, c', g'⟩, hmiss, hfacts⟩ := map_eq_some_iff.mp hask
  obtain ⟨rfl, hadds⟩ := Prod.mk.inj hfacts
  obtain ⟨server, hserver⟩ := isSome_iff_exists.mp
    (show (receive plainExchange.maxLimit (answerWith .ok [ascii "new"]) {}).isSome = true by
      decide +kernel)
  refine ⟨c', g', server, hmiss, of_decide_eq_true hadds, ?_⟩
  apply (revalidationTransparent_iff _ _ _ _ _ _ _ _ _ hmiss hserver).mpr
  rintro ⟨-, hcode⟩
  exact absurd hcode (by decide)

/-- The server answers 304, and so does the request. -/
theorem bare_notModified_delivered :
    ∃ c' g' server, plainExchange.askCache .ordered cJson .undated staleCache =
        some (false, c', g') ∧
      c'.delivered (answerWith notModified []) = some server ∧
      ¬ RevalidationTransparent plainExchange c' server
        (c'.delivered (answerWith notModified [])) := by
  have hask : (plainExchange.askCache .ordered cJson .undated staleCache).map
      (fun r => (r.1, decide (AddsCondition plainExchange.options r.2.1.options),
        r.2.1.cacheResponse.responseCode)) = some (false, true, .ok) := by decide +kernel
  obtain ⟨⟨hit, c', g'⟩, hmiss, hfacts⟩ := map_eq_some_iff.mp hask
  simp only [Prod.mk.injEq, decide_eq_true_eq] at hfacts
  obtain ⟨rfl, hadds, hcached⟩ := hfacts
  obtain ⟨hresponse, hlimit, -⟩ := Exchange.askCache_false hmiss
  obtain ⟨server, hserver⟩ := isSome_iff_exists.mp
    (show (receive plainExchange.maxLimit (answerWith notModified []) {}).isSome = true by
      decide +kernel)
  have hdelivered : c'.delivered (answerWith notModified []) = some server := by
    rw [Exchange.delivered, hresponse, hlimit]
    exact hserver
  have hcode := responseCode_of_receive hserver
  refine ⟨c', g', server, hmiss, hdelivered, ?_⟩
  rintro ⟨hcond, -⟩
  obtain ⟨response, hmem, hsame, -⟩ := hcond ⟨hadds, hcode⟩
  rw [hdelivered, mem_some_iff] at hmem
  rw [← hmem, hcode, hcached] at hsame
  exact absurd hsame (by decide)

end Netstack.HttpExec
