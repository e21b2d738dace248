import Netstack.HttpCache.CacheProxy

/-!
# The task of the native interface

A `HttpClientTask` has one response. The callbacks of curl fill it during the transfer,
and `ProcessResponse` completes it and hands it to the listeners. With `usingCache` the
cache is asked then, after the transfer.

## Implementation notes

No global interceptor for responses is registered. `canceled_` is written by another thread.
-/

namespace Netstack.HttpClient

open Foundation HttpCache

def maxDataLimit : Nat := 100 * 1024 * 1024

def httpResponseHeaderSeparator : Bytes := [13, 10, 13, 10]

def httpContentType : Bytes := ascii "content-type"

def curleOk : Nat := 0

def curleAbortedByCallback : Nat := 42

inductive HttpDataType where
  | string
  | object
  | arrayBuffer
  | noDataType
  deriving DecidableEq, Repr

/-- What a task reports in the end, and with which response. -/
inductive Report where
  | succeeded (response : HttpResponse)
  | failed (response : HttpResponse)
  | canceled (response : HttpResponse)

structure HttpClientTask where
  request : HttpClientRequest
  usingCache : Bool := false
  maxLimit : Nat := maxDataLimit
  expectDataType : HttpDataType := .noDataType
  isRequestInStream : Bool := false
  response : HttpResponse := {}
  hasOnSucceeded : Bool := true
  hasOnFailed : Bool := true
  hasOnCanceled : Bool := true
  hasOnHeadersReceive : Bool := false
  isHeadersOnce : Bool := false
  reports : List Report := []
  /-- The responses given to `WriteResopnseToCache`. -/
  writtenBack : List HttpResponse := []

/-- A call of a receive callback, with the flag as the callback reads it. -/
structure ReceiveCall where
  canceled : Bool := false
  data : Bytes

def ReceiveCall.size (call : ReceiveCall) : Nat := call.data.length

/-- What curl says about a transfer that is done. The response code and the cookies are
read with `curl_easy_getinfo`, which may fail. -/
structure TransferResult where
  code : Nat := curleOk
  responseCode : Option ResponseCode := some .ok
  cookieList : Option (List Bytes) := some []
  nowTimeGMT : Bytes := []

namespace HttpClientTask

def setMaxLimit (maxLimit : Nat) (t : HttpClientTask) : HttpClientTask :=
  if maxLimit > maxDataLimit then { t with maxLimit := maxDataLimit }
  else { t with maxLimit := maxLimit }

def onResponse (f : HttpResponse → HttpResponse) (t : HttpClientTask) : HttpClientTask :=
  { t with response := f t.response }

variable (t : HttpClientTask)

def dataReceiveCallback (call : ReceiveCall) : Nat × HttpClientTask :=
  if call.canceled then (0, t)
  else if t.isRequestInStream then (call.size, t)
  else if t.response.result.length < t.maxLimit then
    (call.size, t.onResponse fun r => { r with result := r.result ++ call.data })
  else (call.size, t)

def offHeadersReceive : HttpClientTask :=
  { t with hasOnHeadersReceive := false, isHeadersOnce := false }

def headerReceiveCallback (call : ReceiveCall) : Nat × HttpClientTask :=
  if call.canceled then (0, t)
  else if call.size > maxDataLimit then (0, t)
  else
    let t := t.onResponse fun r => { r with rawHeader := r.rawHeader ++ call.data }
    if t.hasOnHeadersReceive ∧ httpResponseHeaderSeparator <:+ t.response.rawHeader then
      let t := t.onResponse HttpResponse.parseHeaders
      (call.size, if t.isHeadersOnce then t.offHeadersReceive else t)
    else (call.size, t)

variable (m : TransferResult)

def logResponseInfo (t : HttpClientTask) : HttpClientTask :=
  t.onResponse ({ · with responseTime := m.nowTimeGMT })

def processCookie (t : HttpClientTask) : HttpClientTask :=
  match m.cookieList with
  | none => t
  | some cookies => t.onResponse fun r =>
    { r with cookies := r.cookies ++
        HttpConstant.httpLineSeparator.intercalate (cookies.map cString) }

/-- The lookup of the content type adds an empty one if there is none. The data type that
comes out of it is left out. -/
def processResponseExpectType : HttpClientTask :=
  if t.expectDataType ≠ .noDataType then t
  else t.onResponse fun r =>
    { r with headers := r.headers.insertIfNew httpContentType [] }

def processResponseCode (t : HttpClientTask) : Bool × HttpClientTask :=
  match m.responseCode with
  | none => (false, t)
  | some code => (true, t.onResponse ({ · with responseCode := code }))

def processResponseCoreLogic (t : HttpClientTask) : Bool × HttpClientTask :=
  let t := t.processCookie m
  let t := t.onResponse HttpResponse.parseHeaders
  let t := t.processResponseExpectType
  t.processResponseCode m

def report (r : Report) (t : HttpClientTask) : HttpClientTask :=
  { t with reports := t.reports ++ [r] }

def reportSucceeded : HttpClientTask :=
  if t.hasOnSucceeded then t.report (.succeeded t.response) else t

def reportFailed : HttpClientTask :=
  if t.hasOnFailed then t.report (.failed t.response) else t

def handleCancelCallback (t : HttpClientTask) : Bool × HttpClientTask :=
  if m.code ≠ curleAbortedByCallback then (false, t)
  else
    let t := (t.processResponseCode m).2
    (true, if t.hasOnCanceled then t.report (.canceled t.response) else t)

def handleErrorCallback (t : HttpClientTask) : Bool × HttpClientTask :=
  if m.code = curleOk then (false, t) else (true, t.reportFailed)

def handleResultCallback (isResponseOk : Bool) (t : HttpClientTask) : HttpClientTask :=
  if isResponseOk then t.reportSucceeded else t.reportFailed

section Cache

variable (rt : Runtime) (js : JsonLibrary) (time : HttpTime)

/-- `CacheProxy(request_)`; its strategy has a reference to the request. -/
def proxy (t : HttpClientTask) : CacheProxy := .create t.request

def setResponse (response : HttpResponse) (t : HttpClientTask) : HttpClientTask :=
  { t with response := response }

/-- The verdict is asked for after the transfer, and a stale response also takes the place
of the one received. -/
def readResopnseFromCache (t : HttpClientTask) (g : GlobalCache) :
    Option (Bool × HttpClientTask × GlobalCache) := do
  let (stored, g) ← t.proxy.readResponseFromCache rt js g
  match stored with
  | none => some (false, t, g)
  | some stored =>
    let (status, strategy, response) ← t.proxy.strategy.runStrategy .httpClient time stored
    let t := { t with request :=
      { t.request with headers := strategy.requestOptions.headers } }
    match status with
    | .fresh => some (true, t.setResponse response, g)
    | .stale => some (false, t.setResponse response, g)
    | .deny => some (false, t, g)

def writeResopnseToCache (response : HttpResponse) (t : HttpClientTask)
    (g : GlobalCache) : Option (HttpClientTask × GlobalCache) := do
  let g ← t.proxy.writeResponseToCache rt time g response
  some ({ t with writtenBack := t.writtenBack ++ [response] }, g)

def processUsingCache (t : HttpClientTask) (g : GlobalCache) :
    Option (Bool × HttpClientTask × GlobalCache) := do
  if t.usingCache = false then some (false, t, g)
  else
    let (answered, t, g) ← t.readResopnseFromCache rt js time g
    if answered = false then some (false, t, g)
    else if t.response.responseCode = .ok then some (true, t.reportSucceeded, g)
    else some (true, t.reportFailed, g)

/-- The part of `ProcessResponse` that does not ask the cache. -/
def processTransfer (m : TransferResult) (t : HttpClientTask) (g : GlobalCache) :
    Option (HttpClientTask × GlobalCache) :=
  let (canceled, t) := t.handleCancelCallback m
  if canceled then some (t, g)
  else
    let (failed, t) := t.handleErrorCallback m
    if failed then some (t, g)
    else
      let (ret, t) := t.processResponseCoreLogic m
      let t := t.handleResultCallback ret
      t.writeResopnseToCache rt time t.response g

def processResponse (m : TransferResult) (t : HttpClientTask) (g : GlobalCache) :
    Option (HttpClientTask × GlobalCache) := do
  let t := t.logResponseInfo m
  let (answered, t, g) ← t.processUsingCache rt js time g
  if answered then some (t, g) else t.processTransfer rt time m g

end Cache

end HttpClientTask

end Netstack.HttpClient
