import Netstack.HttpExec.Context

/-!
# What a request goes through

`ExecRequest` checks the request, asks the initial interceptor and the cache, and gives a
handle to the curl driver. At every stage the context is passed on: to a queue, to a promise,
to the thread that waits for it, or to the callback that reports the outcome and deletes it.

## Implementation notes

A function that returns without passing the context on leaves `none` as its `holder`. A promise
calls one of its callbacks once. `HandleCurlData` is cut in two after its write of the flag.
-/

namespace Netstack.HttpExec

open Foundation

/-- How `SetOption` ends, with the error code that a failure leaves. -/
inductive SetOptionResult where
  | ok
  | failsBeforeUrl (errorCode : Nat)
  | failsAfterUrl (errorCode : Nat)
  deriving DecidableEq

/-- What the global C interceptors of requests do. A modified request without a URL has
the empty one. -/
inductive GlobalInterceptor where
  | disabled
  | convertFailed
  | aborted
  | unmodified
  | modified (url : Bytes) (options : SetOptionResult)
  deriving DecidableEq

/-- How a promise of an interceptor ends: resolved with `true`, with the property `url`
of the request if it can be read, resolved with anything else, with the response code
if there is one, or rejected. -/
inductive Settlement where
  | continued (url : Option Bytes)
  | blocked (responseCode : Option Nat)
  | rejected
  deriving DecidableEq

/-- How far a call of an interceptor gets. `notCalled` is a missing reference, an
unreadable handle or a call without a value; `thenFailed` a value without a callable
`then`, or one whose `then` throws; `settled` a promise that settles at once. -/
inductive Invocation where
  | noRequestContext
  | noResponseContext
  | notCalled
  | thenUnreadable
  | thenFailed
  | settled (settlement : Settlement)
  | pending
  deriving DecidableEq

/-- The objects for the call could be made. -/
def Invocation.isMade : Invocation → Bool
  | .noRequestContext => false
  | .noResponseContext => false
  | _ => true

/-- What the request meets on its way to curl. -/
structure Answers where
  initialRequest : Invocation := .pending
  readResponseFromCache : Bool := false
  cacheChecked : Invocation := .pending
  curlEasyInit : Bool := true
  privateOption : Nat := curleOk
  setOption : SetOptionResult := .ok
  globalInterceptor : GlobalInterceptor := .disabled

inductive Stage where
  | initialRequest
  | cacheChecked
  | connectNetwork
  | redirection (message : CurlMessage)
  | finalResponse
  deriving DecidableEq

/-- Who has the context: the wrapper that made it, the queue of the driver, curl, the
second half of `HandleCurlData`, the JS loop with work for an interceptor, a promise, or
the JS loop with the completion callback. -/
inductive Holder where
  | caller
  | incoming
  | curl
  | completing
  | uvConnectNetwork
  | uvRedirection (message : CurlMessage)
  | promise (stage : Stage)
  | uvCompletion
  deriving DecidableEq

/-- Where the thread is that made the request. -/
inductive JsThread where
  | calling
  | returned (execResult : Bool)
  | free
  | ended
  deriving DecidableEq

structure Request where
  context : RequestContext
  holder : Option Holder := some .caller
  /-- The wrapper made an async work for the context, whoever else has it. -/
  asyncWork : Bool := false
  jsThread : JsThread := .calling
  /-- A handler of the application was called inside `ExecRequest`. -/
  handlerCalled : Bool := false
  curlUrls : List Bytes := []
  /-- How often the context was given to a callback that deletes it. -/
  handedOver : Nat := 0
  syncComplete : Bool := false
  /-- What `GetCurlDataFromHandle` returned to `HandleCurlData`. -/
  verdict : Option Bool := none
  /-- The answer came from the cache or from an interceptor that blocked. -/
  answered : Bool := false
  /-- The flag as it was read in the end. -/
  outcome : Option Bool := none
  deriving DecidableEq

variable (s : Request) (a : Answers) (m : CurlMessage)

namespace Request

def take : Request := { s with holder := none }

def give (h : Holder) (s : Request) : Request := { s with holder := some h }

def onContext (f : RequestContext → RequestContext) (s : Request) : Request :=
  { s with context := f s.context }

/-- `curl_easy_setopt` with `CURLOPT_URL` and the URL of the context as a C string. -/
def passUrl : Request :=
  { s with curlUrls := s.curlUrls ++ [cString s.context.url] }

def enqueueCallback : Request :=
  if s.context.settings.hasSharedManager then
    { s.give .uvCompletion with handedOver := s.handedOver + 1 }
  else s

def setOption (result : SetOptionResult) (s : Request) : Bool × Request :=
  match result with
  | .ok => (true, s.passUrl)
  | .failsBeforeUrl code => (false, s.onContext (·.setErrorCode code))
  | .failsAfterUrl code => (false, s.passUrl.onContext (·.setErrorCode code))

def convertInterceptorReqToRequestContext (url : Bytes) (options : SetOptionResult)
    (s : Request) : Bool × Request :=
  (if url ≠ [] then s.onContext (·.setUrl url) else s).setOption options

def globalRequestInterceptorCheck (interceptor : GlobalInterceptor) (s : Request) :
    Bool × Request :=
  match interceptor with
  | .disabled => (true, s)
  | .convertFailed => (false, s)
  | .aborted => (false, s.onContext ({ · with requestIntercepted := true }))
  | .unmodified => (true, s)
  | .modified url options => s.convertInterceptorReqToRequestContext url options

/-- `EpollRequestHandler::Process`, which starts the driver with the first request. -/
def process : Request := s.give .incoming

def executeConnectNetworkInterceptor : Bool × Request :=
  if s.context.settings.interceptor.isConnectNetworkInterceptor then
    (true, s.give .uvConnectNetwork)
  else (true, s.process)

/-- With a handle and a context there is nothing that fails. -/
def addCurlHandle : Bool × Request := s.executeConnectNetworkInterceptor

def requestWithoutCache (s : Request) : Bool × Request :=
  if a.curlEasyInit = false then (false, s)
  else if a.privateOption ≠ curleOk then (false, s.onContext (·.setErrorCode a.privateOption))
  else
    let (set, s) := s.setOption a.setOption
    if set = false then (false, s)
    else
      let (passed, s) := s.globalRequestInterceptorCheck a.globalInterceptor
      if passed = false then (false, s) else s.addCurlHandle

/-- What the native side of an interceptor does, by how far the call of it gets. -/
structure Reaction where
  noContext : Request → Request
  thenUnreadable : Request → Request
  after : Request → Request
  settle : Settlement → Request → Request

def invoke (stage : Stage) (reaction : Reaction) (invocation : Invocation) (s : Request) :
    Request :=
  match invocation with
  | .noRequestContext => reaction.noContext s
  | .noResponseContext => reaction.noContext s
  | .notCalled => reaction.after s
  | .thenUnreadable => reaction.thenUnreadable s
  | .thenFailed => reaction.after s
  | .settled settlement => reaction.settle settlement s
  | .pending => s.give (.promise stage)

def setBlockedResponse (responseCode : Option Nat) (s : Request) : Request :=
  match responseCode with
  | some code => s.onContext (·.setResponseCode code)
  | none => s

/-- The callback with which an interceptor answers in place of the network. -/
def blockCallback : Request := { s with answered := true }.enqueueCallback

def settleCacheChecked : Settlement → Request → Request
  | .continued url, s => (s.onContext (·.setUrl (url.getD []))).enqueueCallback
  | .blocked code, s => (s.setBlockedResponse code).enqueueCallback
  | .rejected, s => s.enqueueCallback

def cacheCheckedInterceptor : Invocation → Request → Request :=
  invoke .cacheChecked
    { noContext := id, thenUnreadable := id, after := enqueueCallback,
      settle := settleCacheChecked }

def handleInitialRequestPostProcessing (s : Request) : Bool × Request :=
  if s.context.settings.isUsingCache && a.readResponseFromCache then
    let s := { s with answered := true }
    if s.context.settings.interceptor.isCacheCheckedInterceptor then
      (true, s.cacheCheckedInterceptor a.cacheChecked)
    else (true, s.enqueueCallback)
  else
    let (requested, s) := s.requestWithoutCache a
    if requested = false then
      (false, (s.onContext (·.setErrorCode netstackNapiInternalError)).enqueueCallback)
    else (true, s)

def settleInitialRequest : Settlement → Request → Request
  | .continued url, s =>
    ((s.onContext (·.setUrl (url.getD []))).handleInitialRequestPostProcessing a).2
  | .blocked code, s => (s.setBlockedResponse code).blockCallback
  | .rejected, s => (s.handleInitialRequestPostProcessing a).2

def initialRequestInterceptor : Invocation → Request → Request :=
  invoke .initialRequest
    { noContext := id, thenUnreadable := id,
      after := fun s => (s.handleInitialRequestPostProcessing a).2,
      settle := settleInitialRequest a }

/-- A refused request stays with its caller. -/
def execRequest (policy : Policy) (a : Answers) (s : Request) : Bool × Request :=
  let (passed, c) := s.context.execRequestCheck policy
  let s := { s with context := c }
  if passed = false then (false, s)
  else if s.context.settings.hasSharedManager = false ∨ s.context.isEventDestroy = true then
    (false, s)
  else if s.context.settings.interceptor.isInitialRequestInterceptor then
    (true, s.take.initialRequestInterceptor a a.initialRequest)
  else s.take.handleInitialRequestPostProcessing a

/-- `HandleCurlData` up to its write of the flag. -/
def handleCurlData (s : Request) : Request :=
  let (ok, c) := s.context.getCurlDataFromHandle m
  { s.give .completing with context := c.setExecOK ok, verdict := some ok }

/-- The rest of `HandleCurlData`. -/
def passOn : Request :=
  if s.context.settings.isSyncWait then { s with syncComplete := true } else s.enqueueCallback

def handleCompletion (s : Request) : Request := s.handleCurlData m

def handleRedirect (location : Bytes) (s : Request) : Request :=
  ((s.onContext (·.redirectTo location)).requestWithoutCache a).2

def settleConnectNetwork : Settlement → Request → Request
  | .continued url, s => (s.onContext (·.setUrl (url.getD []))).passUrl.process
  | .blocked code, s => (s.setBlockedResponse code).blockCallback
  | .rejected, s => s.process

def connectNetworkInterceptor : Invocation → Request → Request :=
  invoke .connectNetwork
    { noContext := id, thenUnreadable := process, after := process,
      settle := settleConnectNetwork }

/-- A blocked redirect ends as the transfer did, with the response code of the
interceptor in place of the one of the transfer. -/
def settleRedirection (a : Answers) : Settlement → Request → Request
  | .continued url, s => s.handleRedirect a (url.getD (m.redirectUrl.getD []))
  | .blocked (some code), s =>
    (s.onContext (·.blockRedirection code)).handleCompletion m
  | .blocked none, s => s.handleCompletion m
  | .rejected, s => s.handleCompletion m

/-- The response shown to the interceptor is read from the handle as if the transfer had
succeeded. -/
def redirectionInterceptor (a : Answers) (invocation : Invocation) (s : Request) : Request :=
  if invocation = .noRequestContext then s
  else
    let shown := { m with msg := .done, result := curleOk }
    invoke (.redirection m)
      { noContext := id, thenUnreadable := handleCompletion m, after := handleCompletion m,
        settle := settleRedirection m a }
      invocation (s.onContext fun c => (c.getCurlDataFromHandle shown).2)

def handleCurlDoneMessage (s : Request) : Request :=
  if s.context.seesRedirect m then
    if s.context.isReachRedirectLimit = false then s.give (.uvRedirection m)
    else s.handleCompletion { m with result := curleTooManyRedirects }
  else s.handleCompletion m

def checkMultiInfo (s : Request) : Request :=
  if m.msg = .done then s.handleCurlDoneMessage m else s.give .curl

/-- The driver adds a queued request to curl. -/
def incomingRequestCallback (added : Bool) (s : Request) : Request :=
  if added = false then s else s.give .curl

/-- The flag is read, and the context deleted. -/
def finalResponseProcessing : Request :=
  { s with asyncWork := false, outcome := some s.context.execOK }

def settleFinalResponse : Settlement → Request → Request
  | .continued url, s => (s.onContext (·.setUrl (url.getD []))).finalResponseProcessing
  | .blocked code, s => (s.setBlockedResponse code).finalResponseProcessing
  | .rejected, s => s.finalResponseProcessing

def finalResponseInterceptor : Invocation → Request → Request :=
  invoke .finalResponse
    { noContext := finalResponseProcessing, thenUnreadable := finalResponseProcessing,
      after := finalResponseProcessing, settle := settleFinalResponse }

/-- The completion callbacks, `AsyncWorkRequestInStreamCallback` for a stream. -/
def asyncWorkRequestCallback (invocation : Invocation) (s : Request) : Request :=
  if s.context.settings.isRequestInStream = false ∧
      s.context.settings.interceptor.isFinalResponseInterceptor = true then
    s.finalResponseInterceptor invocation
  else s.finalResponseProcessing

def settle : Stage → Settlement → Request → Request
  | .initialRequest => settleInitialRequest a
  | .cacheChecked => settleCacheChecked
  | .connectNetwork => settleConnectNetwork
  | .redirection m => settleRedirection m a
  | .finalResponse => settleFinalResponse

end Request

end Netstack.HttpExec
