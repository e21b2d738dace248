import Netstack.Foundation.Execution
import Netstack.Foundation.Numerals
import Netstack.HttpCache.Messages

/-!
# Cache directives of requests and responses

`HttpCacheRequest` and `HttpCacheResponse` collect what the headers say about caching. A
cache-control value is split at the exact text `", "`, and a piece counts as a directive only when
it is that directive letter by letter.

## Implementation notes

The JS copy accepts whole numerals only, the native copy what `strtol` makes of the text.
-/

namespace Netstack.HttpCache

open Foundation CommonUtils

namespace CacheConstant

def split : Bytes := ascii ", "
def equal : Bytes := ascii "="
def noCache : Bytes := ascii "no-cache"
def noStore : Bytes := ascii "no-store"
def noTransform : Bytes := ascii "no-transform"
def onlyIfCached : Bytes := ascii "only-if-cached"
def maxAge : Bytes := ascii "max-age"
def maxStale : Bytes := ascii "max-stale"
def minFresh : Bytes := ascii "min-fresh"
def cacheControl : Bytes := ascii "cache-control"
def ifModifiedSince : Bytes := ascii "if-modified-since"
def ifNoneMatch : Bytes := ascii "if-none-match"
def mustRevalidate : Bytes := ascii "must-revalidate"
def publicCache : Bytes := ascii "public"
def privateCache : Bytes := ascii "private"
def proxyRevalidate : Bytes := ascii "proxy-revalidate"
def sMaxAge : Bytes := ascii "s-maxage"
def expires : Bytes := ascii "expires"
def lastModified : Bytes := ascii "last-modified"
def etag : Bytes := ascii "etag"
def age : Bytes := ascii "age"
def date : Bytes := ascii "date"

def invalidTime : Int := -1

end CacheConstant

open CacheConstant (invalidTime)

/-- The C library's clock and its reading of a date. -/
structure HttpTime where
  strTimeToTimestamp : Bytes → Int
  getNowTimeSeconds : Int

variable (time : HttpTime)

/-- The time getters of both classes: an empty text is no time. -/
def HttpTime.ofText (text : Bytes) : Int :=
  if text = [] then invalidTime else time.strTimeToTimestamp text

/-- A clock at the epoch, for headers without dates. -/
def HttpTime.undated : HttpTime where
  strTimeToTimestamp := fun _ => invalidTime
  getNowTimeSeconds := 0

structure HttpCacheRequest where
  requestTime : Bytes := []
  ifModifiedSince : Bytes := []
  ifNoneMatch : Bytes := []
  maxAge : Bytes := []
  maxStale : Bytes := []
  minFresh : Bytes := []
  noCache : Bool := false
  noStore : Bool := false
  noTransform : Bool := false
  onlyIfCached : Bool := false

variable (c : Copy) (r : HttpCacheRequest)

namespace HttpCacheRequest

/-- The chain of exact comparisons in one round of `ParseCacheControl`. -/
def parseFlag (str : Bytes) : HttpCacheRequest :=
  if str = CacheConstant.noCache then { r with noCache := true }
  else if str = CacheConstant.noStore then { r with noStore := true }
  else if str = CacheConstant.noTransform then { r with noTransform := true }
  else if str = CacheConstant.onlyIfCached then { r with onlyIfCached := true }
  else r

/-- The part of the same round that looks for `name=value`. -/
def parseValue (str : Bytes) : HttpCacheRequest :=
  match cut CacheConstant.equal str with
  | none => r
  | some (key, value) =>
    if key = CacheConstant.maxAge then { r with maxAge := value }
    else if key = CacheConstant.maxStale then { r with maxStale := value }
    else if key = CacheConstant.minFresh then { r with minFresh := value }
    else r

def parseCacheControl (cacheControl : Bytes) : HttpCacheRequest :=
  (split cacheControl CacheConstant.split).foldl
    (fun r str => (r.parseFlag str).parseValue str) r

def parseHeader (header : Bytes × Bytes) : HttpCacheRequest :=
  let key := lower header.1
  let value := header.2
  if key = CacheConstant.cacheControl then r.parseCacheControl value
  else if key = CacheConstant.ifModifiedSince then { r with ifModifiedSince := value }
  else if key = CacheConstant.ifNoneMatch then { r with ifNoneMatch := value }
  else r

def parseRequestHeader (requestHeader : Headers) : HttpCacheRequest :=
  requestHeader.toList.foldl parseHeader r

def getIfModifiedSince (r : HttpCacheRequest) : Int :=
  time.ofText r.ifModifiedSince

def getRequestTime (r : HttpCacheRequest) : Int :=
  time.ofText r.requestTime

/-- The number getters: the JS copy also turns a negative number into no number. -/
def seconds (text : Bytes) : Int :=
  match c with
  | .http =>
    match fromChars text with
    | none => invalidTime
    | some val => if val < 0 then invalidTime else val
  | .httpClient => if text = [] then invalidTime else strtol (cString text)

def getMaxAgeSeconds (r : HttpCacheRequest) : Int := seconds c r.maxAge

def getMaxStaleSeconds (r : HttpCacheRequest) : Int := seconds c r.maxStale

def getMinFreshSeconds (r : HttpCacheRequest) : Int := seconds c r.minFresh

end HttpCacheRequest

structure HttpCacheResponse where
  date : Bytes := []
  expires : Bytes := []
  lastModified : Bytes := []
  etag : Bytes := []
  age : Bytes := []
  responseTime : Bytes := []
  requestTime : Bytes := []
  mustRevalidate : Bool := false
  noCache : Bool := false
  noStore : Bool := false
  publicCache : Bool := false
  privateCache : Bool := false
  proxyRevalidate : Bool := false
  noTransform : Bool := false
  maxAge : Bytes := []
  sMaxAge : Bytes := []
  respCode : ResponseCode := 0

namespace HttpCacheResponse

def parseFlag (r : HttpCacheResponse) (str : Bytes) : HttpCacheResponse :=
  if str = CacheConstant.noCache then { r with noCache := true }
  else if str = CacheConstant.noStore then { r with noStore := true }
  else if str = CacheConstant.noTransform then { r with noTransform := true }
  else if str = CacheConstant.mustRevalidate then { r with mustRevalidate := true }
  else if str = CacheConstant.publicCache then { r with publicCache := true }
  else if str = CacheConstant.privateCache then { r with privateCache := true }
  else if str = CacheConstant.proxyRevalidate then { r with proxyRevalidate := true }
  else r

def parseValue (r : HttpCacheResponse) (str : Bytes) : HttpCacheResponse :=
  match cut CacheConstant.equal str with
  | none => r
  | some (key, value) =>
    if key = CacheConstant.maxAge then { r with maxAge := value }
    else if key = CacheConstant.sMaxAge then { r with sMaxAge := value }
    else r

def parseCacheControl (r : HttpCacheResponse) (cacheControl : Bytes) : HttpCacheResponse :=
  (split cacheControl CacheConstant.split).foldl
    (fun r str => (r.parseFlag str).parseValue str) r

def parseHeader (r : HttpCacheResponse) (header : Bytes × Bytes) : HttpCacheResponse :=
  let key := lower header.1
  let value := header.2
  if key = CacheConstant.cacheControl then r.parseCacheControl value
  else if key = CacheConstant.expires then { r with expires := value }
  else if key = CacheConstant.lastModified then { r with lastModified := value }
  else if key = CacheConstant.etag then { r with etag := value }
  else if key = CacheConstant.age then { r with age := value }
  else if key = CacheConstant.date then { r with date := value }
  else r

def parseCacheResponseHeader (r : HttpCacheResponse) (cacheResponseHeader : Headers) :
    HttpCacheResponse :=
  cacheResponseHeader.toList.foldl parseHeader r

def getDate (r : HttpCacheResponse) : Int := time.ofText r.date

def getExpires (r : HttpCacheResponse) : Int := time.ofText r.expires

def getLastModified (r : HttpCacheResponse) : Int := time.ofText r.lastModified

def getResponseTime (r : HttpCacheResponse) : Int := time.ofText r.responseTime

def getRequestTime (r : HttpCacheResponse) : Int := time.ofText r.requestTime

/-- The number getters: the JS copy keeps a negative number. -/
def seconds (text : Bytes) : Int :=
  match c with
  | .http => (fromChars text).getD invalidTime
  | .httpClient => if text = [] then invalidTime else strtol (cString text)

def getAgeSeconds (r : HttpCacheResponse) : Int := seconds c r.age

def getMaxAgeSeconds (r : HttpCacheResponse) : Int := seconds c r.maxAge

def getSMaxAgeSeconds (r : HttpCacheResponse) : Int := seconds c r.sMaxAge

end HttpCacheResponse

end Netstack.HttpCache
