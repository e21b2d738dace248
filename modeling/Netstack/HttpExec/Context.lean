import Netstack.Common.Url

/-!
# The context of a JS request

One `RequestContext` goes with a request from the call in JS to its answer. It says how
the request was made, which checks refused it, and in `execOK` whether it succeeded.

## Implementation notes

The modelled build has `HAS_NETMANAGER_BASE`, `ENABLE_HTTP_INTERCEPT` and
`ENABLE_HTTP_GLOBAL_INTERCEPT`. Headers, bodies, cookies and timings are left out.
-/

namespace Netstack.HttpExec

open Foundation CommonUtils

def curleOk : Nat := 0

def curleTooManyRedirects : Nat := 47

def parseErrorCode : Nat := 401

def netstackNapiInternalError : Nat := 2300002

def httpStatusRedirectStart : Nat := 300

def httpStatusClientErrorStart : Nat := 400

def domainTypeHttpRequest : Bytes := ascii "httpRequest"

/-- The interceptors of the request object, each registered or not. -/
structure HttpInterceptor where
  isInitialRequestInterceptor : Bool := false
  isRedirectionInterceptor : Bool := false
  isFinalResponseInterceptor : Bool := false
  isCacheCheckedInterceptor : Bool := false
  isConnectNetworkInterceptor : Bool := false
  deriving DecidableEq

structure RequestSettings where
  isParseOK : Bool := true
  isSyncWait : Bool := false
  isRequestInStream : Bool := false
  isUsingCache : Bool := true
  isAtomicService : Bool := false
  bundleName : Bytes := []
  hasSharedManager : Bool := true
  interceptor : HttpInterceptor := {}
  maxRedirects : Nat := 30
  deriving DecidableEq

structure HttpResponse where
  responseCode : Nat := 0
  isApplyBlockRedirectionInterceptor : Bool := false
  deriving DecidableEq

structure RequestContext where
  settings : RequestSettings := {}
  /-- The flag of the shared event manager. -/
  isEventDestroy : Bool := false
  url : Bytes
  response : HttpResponse := {}
  redirects : Nat := 0
  execOK : Bool := false
  permissionDenied : Bool := false
  noAllowedHost : Bool := false
  cleartextNotPermitted : Bool := false
  requestIntercepted : Bool := false
  errorCode : Nat := 0
  deriving DecidableEq

/-- The permission of the application and the policy services of the system. -/
structure Policy where
  hasInternetPermission : Bool
  services : PolicyServices

/-- A policy that allows every host and permits cleartext. -/
def openPolicy : Policy where
  hasInternetPermission := true
  services :=
    { isAllowedHostname := fun _ _ _ => true
      isCleartextCfgByComponent := fun _ => some true
      isCleartextPermitted := fun _ => some true }

inductive CurlMsg where
  | none | done | last
  deriving DecidableEq

/-- A message of the curl multi interface, with what `curl_easy_getinfo` answers for its
handle. A status is the `CURLcode` of such a call. -/
structure CurlMessage where
  msg : CurlMsg := .done
  result : Nat := curleOk
  responseCodeStatus : Nat := curleOk
  responseCode : Nat := 200
  cookieListStatus : Nat := curleOk
  redirectUrl : Option Bytes := none
  deriving DecidableEq

variable {c d : RequestContext} {policy : Policy}

namespace RequestContext

def setErrorCode (code : Nat) (c : RequestContext) : RequestContext := { c with errorCode := code }

def setUrl (url : Bytes) (c : RequestContext) : RequestContext := { c with url := url }

def setExecOK (ok : Bool) (c : RequestContext) : RequestContext := { c with execOK := ok }

/-- `Destroy` of the request object, which nothing takes back. -/
def setEventDestroy (c : RequestContext) : RequestContext := { c with isEventDestroy := true }

def execRequestCheck (policy : Policy) (c : RequestContext) : Bool × RequestContext :=
  if policy.hasInternetPermission = false then (false, { c with permissionDenied := true })
  else if c.settings.isAtomicService = true ∧ isAllowedHostname policy.services
      c.settings.bundleName domainTypeHttpRequest c.url = false then
    (false, { c with noAllowedHost := true })
  else if isCleartextPermitted policy.services c.url (ascii "http://") = false then
    (false, { c with cleartextNotPermitted := true })
  else (true, c)

/-- One of the checks has refused the request. -/
def isRefused (c : RequestContext) : Bool :=
  c.permissionDenied || c.noAllowedHost || c.cleartextNotPermitted

/-- The case in which `InterfaceWithOutAsyncWorkWithManagerWrapper` makes an async work of
its own after the request was executed. -/
def needsAsyncWork (c : RequestContext) : Bool :=
  !c.settings.isParseOK || c.isRefused || c.settings.hasSharedManager && c.isEventDestroy

theorem needsAsyncWork_setEventDestroy (h : c.needsAsyncWork = true) :
    c.setEventDestroy.needsAsyncWork = true := by
  grind [needsAsyncWork, setEventDestroy, isRefused]

def isReachRedirectLimit (c : RequestContext) : Bool :=
  decide (c.settings.maxRedirects ≤ c.redirects)

def setResponseCode (code : Nat) (c : RequestContext) : RequestContext :=
  { c with response := { c.response with responseCode := code } }

/-- The changes that `HandleRedirect` makes before it requests the new location. -/
def redirectTo (location : Bytes) (c : RequestContext) : RequestContext :=
  { c with url := cString location, redirects := c.redirects + 1, response := {} }

/-- An interceptor gave the response code of a blocked redirect. -/
def blockRedirection (code : Nat) (c : RequestContext) : RequestContext :=
  { c with response := { responseCode := code, isApplyBlockRedirectionInterceptor := true } }

variable (m : CurlMessage)

def getCurlDataFromHandle (c : RequestContext) : Bool × RequestContext :=
  if m.msg ≠ .done then (false, c.setErrorCode netstackNapiInternalError)
  else if m.result ≠ curleOk then (false, c.setErrorCode m.result)
  else if c.response.isApplyBlockRedirectionInterceptor = false ∧ m.responseCodeStatus ≠ curleOk
      then (false, c.setErrorCode m.responseCodeStatus)
  else
    let c := if c.response.isApplyBlockRedirectionInterceptor then c
      else c.setResponseCode m.responseCode
    if m.cookieListStatus ≠ curleOk then (false, c.setErrorCode m.cookieListStatus) else (true, c)

/-- The transfer is one that the redirection interceptor is asked about, as far as the
limit on redirects allows. -/
def seesRedirect (c : RequestContext) : Bool :=
  let responseCode := if m.responseCodeStatus = curleOk then m.responseCode else 0
  decide (httpStatusRedirectStart ≤ responseCode) &&
    decide (responseCode < httpStatusClientErrorStart) && m.redirectUrl.isSome &&
    c.settings.interceptor.isRedirectionInterceptor

/-- A request passes with the permission, an allowed host if it is one of an atomic
service, and cleartext permitted if its URL asks for it. -/
theorem execRequestCheck_fst (policy : Policy) (c : RequestContext) :
    (c.execRequestCheck policy).1 = true ↔ policy.hasInternetPermission = true ∧
      (c.settings.isAtomicService = true → isAllowedHostname policy.services
        c.settings.bundleName domainTypeHttpRequest c.url = true) ∧
      isCleartextPermitted policy.services c.url (ascii "http://") = true := by
  simp only [execRequestCheck]
  split_ifs with hpermission hhost hcleartext
  · simp [hpermission]
  · simp [hhost]
  · simp [hcleartext]
  grind

theorem execRequestCheck_passed
    (h : (c.execRequestCheck policy).1 = true) : c.execRequestCheck policy = (true, c) := by
  simp only [execRequestCheck] at h ⊢
  split_ifs at h ⊢
  rfl

/-- A check that fails sets one of the flags, and a check changes nothing else. -/
theorem execRequestCheck_keeps (policy : Policy) (c : RequestContext) :
    (c.execRequestCheck policy).2.settings = c.settings ∧
      (c.execRequestCheck policy).2.url = c.url ∧
      (c.execRequestCheck policy).2.isRefused =
        (c.isRefused || !(c.execRequestCheck policy).1) := by
  simp only [execRequestCheck]
  split_ifs <;> simp [isRefused]

/-- Only the settings and the URL decide. -/
theorem execRequestCheck_congr (hsettings : c.settings = d.settings) (hurl : c.url = d.url) :
    (c.execRequestCheck policy).1 = (d.execRequestCheck policy).1 := by
  rw [Bool.eq_iff_iff, execRequestCheck_fst, execRequestCheck_fst, hsettings, hurl]

/-- A context with a flag of a check set is one that the check refuses. -/
def RefusalHolds (policy : Policy) (c : RequestContext) : Prop :=
  c.isRefused = true → (c.execRequestCheck policy).1 = false

theorem RefusalHolds.congr (h : d.RefusalHolds policy)
    (hsettings : c.settings = d.settings) (hurl : c.url = d.url)
    (hrefused : c.isRefused = d.isRefused) : c.RefusalHolds policy := by
  intro hset
  rw [execRequestCheck_congr hsettings hurl]
  exact h (hrefused.symm.trans hset)

theorem RefusalHolds.check (h : c.RefusalHolds policy) :
    (c.execRequestCheck policy).2.RefusalHolds policy := by
  obtain ⟨hsettings, hurl, hrefused⟩ := c.execRequestCheck_keeps policy
  intro hset
  rw [execRequestCheck_congr hsettings hurl]
  obtain hset | hset := Bool.or_eq_true_iff.mp (hrefused.symm.trans hset)
  · exact h hset
  · exact Bool.not_eq_true' _ ▸ hset

/-- The context is the same but for its response and its codes. -/
structure Alters (c d : RequestContext) : Prop where
  settings : d.settings = c.settings
  url : d.url = c.url
  isRefused : d.isRefused = c.isRefused
  needsAsyncWork : d.needsAsyncWork = c.needsAsyncWork
  execOK : d.execOK = c.execOK

theorem getCurlDataFromHandle_alters (c : RequestContext) :
    c.Alters (c.getCurlDataFromHandle m).2 := by
  simp only [getCurlDataFromHandle]
  split_ifs <;> exact ⟨rfl, rfl, rfl, rfl, rfl⟩

end RequestContext

end Netstack.HttpExec
