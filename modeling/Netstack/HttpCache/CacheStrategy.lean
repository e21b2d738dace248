import Netstack.HttpCache.CacheControl

/-!
# The cache strategy

`HttpCacheStrategy` decides whether a response may be stored and whether a
stored one may be served. The freshness test adds and scales 64-bit seconds;
an overflow is undefined and gives no result here. The JS copy cuts every
number of seconds off at `MAX_TIME_SECONDS` before scaling it, the native copy
does not.
-/

namespace Netstack.HttpCache

open Foundation CacheConstant
open CacheConstant (invalidTime)

inductive CacheStatus where
  | fresh
  | stale
  | deny
  deriving DecidableEq, Repr

def convertToMilliseconds : Int := 1000

def oneDayMilliseconds : Int := 24 * 60 * 60 * 1000

def maxTimeSeconds : Int := longMax / convertToMilliseconds

def keyRange : Bytes := ascii "range"

variable (c : Copy)

/-- The cut-off before scaling, which only the JS copy has. -/
def boundedSeconds (seconds : Int) : Int :=
  match c with
  | .http => min seconds maxTimeSeconds
  | .httpClient => seconds

structure HttpCacheStrategy where
  requestOptions : RequestOptions
  cacheRequest : HttpCacheRequest
  cacheResponse : HttpCacheResponse := {}

/-- What `GetFreshness` returns, in milliseconds. -/
structure Freshness where
  ageMillis : Int
  minFreshMillis : Int
  lifeTime : Int
  maxStaleMillis : Int

namespace HttpCacheStrategy

def create (requestOptions : RequestOptions) : HttpCacheStrategy where
  requestOptions := requestOptions
  cacheRequest :=
    { HttpCacheRequest.parseRequestHeader {} requestOptions.headers with
      requestTime := requestOptions.requestTime }

variable (time : HttpTime) (s : HttpCacheStrategy)

def couldUseCache : Bool :=
  s.requestOptions.method == HttpConstant.httpMethodGet ||
    s.requestOptions.method == HttpConstant.httpMethodHead ||
    s.requestOptions.headers.contains keyRange

/-- The codes that can be cached unless headers forbid it. -/
def cacheableCodes : List ResponseCode :=
  [.ok, .notAuthoritative, .noContent, .multChoice, .movedPerm, .notFound, .badMethod, .gone,
    .reqTooLong, .notImplemented]

/-- The `switch` over the response code. -/
def admitsCode (r : HttpCacheResponse) : Bool :=
  if r.respCode ∈ cacheableCodes then true
  else if r.respCode = ResponseCode.movedTemp then
    r.getExpires time != invalidTime || r.getMaxAgeSeconds c != invalidTime ||
      r.publicCache || r.privateCache
  else false

def isCacheableResponse (r : HttpCacheResponse) : Bool :=
  admitsCode c time r && (!r.noStore && !s.cacheRequest.noStore)

variable (response : HttpResponse)

def isCacheable : Bool :=
  if !s.couldUseCache then false
  else
    s.isCacheableResponse c time
      { HttpCacheResponse.parseCacheResponseHeader {} response.headers with
        respCode := response.responseCode }

def cacheResponseAgeMillis : Option Int := do
  let age := max 0 (s.cacheResponse.getAgeSeconds c)
  let dateTime := max 0 (s.cacheResponse.getDate time)
  let nowTime := max 0 time.getNowTimeSeconds
  let requestTime := max 0 (s.cacheResponse.getRequestTime time)
  let responseTime := max 0 (s.cacheResponse.getResponseTime time)
  let sinceDate ← int64 (responseTime - dateTime)
  let apparentAge := max 0 sinceDate
  let sinceRequest ← int64 (responseTime - requestTime)
  let responseDelay := max 0 sinceRequest
  let correctedAgeValue ← int64 (age + responseDelay)
  let correctedInitialAge := max apparentAge correctedAgeValue
  let sinceResponse ← int64 (nowTime - responseTime)
  let residentTime := max 0 sinceResponse
  let totalAge ← int64 (correctedInitialAge + residentTime)
  int64 (boundedSeconds c totalAge * convertToMilliseconds)

def computeFreshnessLifetimeSecondsInternal : Option Int := do
  let sMaxAge := s.cacheResponse.getSMaxAgeSeconds c
  let maxAge := s.cacheResponse.getMaxAgeSeconds c
  if sMaxAge ≠ invalidTime then
    some sMaxAge
  else if maxAge ≠ invalidTime then
    some maxAge
  else if s.cacheResponse.getExpires time ≠ invalidTime then
    let responseTime :=
      if s.cacheResponse.getDate time ≠ invalidTime then s.cacheResponse.getDate time
      else s.cacheResponse.getResponseTime time
    let delta ← int64 (s.cacheResponse.getExpires time - responseTime)
    some (max delta 0)
  else if s.cacheResponse.getLastModified time ≠ invalidTime then
    let requestTime :=
      if s.cacheResponse.getDate time ≠ invalidTime then s.cacheResponse.getDate time
      else s.cacheRequest.getRequestTime time
    let delta ← int64 (requestTime - s.cacheResponse.getLastModified time)
    some (max (delta.tdiv 10) 0)
  else
    some 0

def computeFreshnessLifetimeMillis : Option Int := do
  let lifeTime ← s.computeFreshnessLifetimeSecondsInternal c time
  let reqMaxAge := s.cacheRequest.getMaxAgeSeconds c
  let lifeTime := if reqMaxAge ≠ invalidTime then min lifeTime reqMaxAge else lifeTime
  int64 (boundedSeconds c lifeTime * convertToMilliseconds)

def getFreshness : Option Freshness := do
  let ageMillis ← s.cacheResponseAgeMillis c time
  let lifeTime ← s.computeFreshnessLifetimeMillis c time
  let minFresh ←
    int64 (boundedSeconds c (s.cacheRequest.getMinFreshSeconds c) * convertToMilliseconds)
  let maxStale ← (
    if s.cacheResponse.mustRevalidate then some 0
    else int64 (boundedSeconds c (s.cacheRequest.getMaxStaleSeconds c) * convertToMilliseconds))
  some
    { ageMillis := ageMillis
      minFreshMillis := max 0 minFresh
      lifeTime := lifeTime
      maxStaleMillis := max 0 maxStale }

/-- A stale entry turns the request into a conditional one. -/
def updateRequestHeader (etag lastModified date : Bytes) : HttpCacheStrategy :=
  if etag ≠ [] then
    { s with requestOptions := s.requestOptions.setHeader c ifNoneMatch etag }
  else if lastModified ≠ [] then
    { s with
      requestOptions := s.requestOptions.setHeader c ifModifiedSince lastModified }
  else if date ≠ [] then
    { s with requestOptions := s.requestOptions.setHeader c ifModifiedSince date }
  else s

/-- The warnings a fresh answer may carry; the second one replaces the first. -/
def setWarnings (f : Freshness)
    (needed : Int) (response : HttpResponse) : HttpResponse :=
  let response :=
    if needed ≥ f.lifeTime then response.setWarning (ascii "110 \"Response is STALE\"")
    else response
  if f.ageMillis > oneDayMilliseconds ∧ s.cacheRequest.getMaxAgeSeconds c = invalidTime ∧
      s.cacheResponse.getExpires time = invalidTime then
    response.setWarning (ascii "113 \"Heuristic expiration\"")
  else response

def runStrategyInternal : Option (CacheStatus × HttpCacheStrategy × HttpResponse) :=
  if s.cacheRequest.noCache then some (.deny, s, response)
  else if s.cacheResponse.noCache then some (.stale, s, response)
  else if s.cacheRequest.onlyIfCached then some (.fresh, s, response)
  else if !s.isCacheableResponse c time s.cacheResponse then some (.deny, s, response)
  else if s.cacheRequest.getIfModifiedSince time ≠ invalidTime ∨ s.cacheRequest.ifNoneMatch ≠ []
  then some (.deny, s, response)
  else do
    let f ← s.getFreshness c time
    let needed ← int64 (f.ageMillis + f.minFreshMillis)
    let allowed ← int64 (f.lifeTime + f.maxStaleMillis)
    if needed < allowed then
      some (.fresh, s, s.setWarnings c time f needed response)
    else
      some (.stale, s.updateRequestHeader c s.cacheResponse.etag s.cacheResponse.lastModified
        s.cacheResponse.date, response)

/-- What `RunStrategy` reads off the stored response; earlier readings stay. -/
def readResponse : HttpCacheStrategy :=
  { s with
    cacheResponse :=
      { s.cacheResponse.parseCacheResponseHeader response.headers with
        respCode := response.responseCode
        responseTime := response.responseTime
        requestTime := response.requestTime } }

def runStrategy : Option (CacheStatus × HttpCacheStrategy × HttpResponse) :=
  (s.readResponse response).runStrategyInternal c time response

end HttpCacheStrategy

end Netstack.HttpCache
