import Netstack.Common.Text
import Netstack.HttpCache.Environment

/-!
# Requests and responses

The part of a request and of a response that the cache reads or writes. The JS
API has `HttpRequestOptions` and `HttpResponse`, the native API has
`HttpClientRequest` and `HttpClientResponse`; their cache-related fields agree.

A native request carries the fact that its method is one `SetMethod` admits:
every other method is refused by the setter and the old one stays.
-/

namespace Netstack.HttpCache

open Foundation CommonUtils

abbrev Headers := Std.ExtTreeMap Bytes Bytes

abbrev ResponseCode := Nat

namespace ResponseCode

def ok : ResponseCode := 200
def notAuthoritative : ResponseCode := 203
def noContent : ResponseCode := 204
def multChoice : ResponseCode := 300
def movedPerm : ResponseCode := 301
def movedTemp : ResponseCode := 302
def notFound : ResponseCode := 404
def badMethod : ResponseCode := 405
def gone : ResponseCode := 410
def reqTooLong : ResponseCode := 414
def notImplemented : ResponseCode := 501

end ResponseCode

namespace HttpConstant

def httpMethodGet : Bytes := ascii "GET"
def httpMethodHead : Bytes := ascii "HEAD"
def httpMethodOptions : Bytes := ascii "OPTIONS"
def httpMethodTrace : Bytes := ascii "TRACE"
def httpMethodDelete : Bytes := ascii "DELETE"
def httpMethodPost : Bytes := ascii "POST"
def httpMethodPut : Bytes := ascii "PUT"
def httpMethodConnect : Bytes := ascii "CONNECT"
def responseKeySetCookie : Bytes := ascii "set-cookie"
def httpLineSeparator : Bytes := [13, 10]
def httpHeaderSeparator : Bytes := ascii ":"
def warning : Bytes := ascii "Warning"

end HttpConstant

open HttpConstant

inductive HttpProtocol where
  | httpNone
  | http11
  | http2
  | http3
  | httpProtocolMax
  deriving DecidableEq, Repr

structure RequestOptions where
  url : Bytes := []
  method : Bytes := httpMethodGet
  headers : Headers := ∅
  body : Bytes := []
  protocol : HttpProtocol := .httpNone
  requestTime : Bytes := []

/-- The number curl gives to the selected protocol version. -/
def RequestOptions.getHttpVersion (r : RequestOptions) : Nat :=
  match r.protocol with
  | .http3 => 30
  | .http2 => 3
  | .http11 => 2
  | .httpNone | .httpProtocolMax => 0

/-- Only the native setter lower-cases the name. -/
def RequestOptions.setHeader (c : Copy) (r : RequestOptions) (key val : Bytes) : RequestOptions :=
  match c with
  | .http => { r with headers := r.headers.insert key val }
  | .httpClient => { r with headers := r.headers.insert (lower key) val }

variable (method : Bytes)

def methodForGet : Bool :=
  method == httpMethodHead || method == httpMethodOptions || method == httpMethodTrace ||
    method == httpMethodGet || method == httpMethodConnect

def methodForPost : Bool :=
  method == httpMethodPost || method == httpMethodPut || method == httpMethodDelete

/-- The methods `SetMethod` lets through. -/
def admitsMethod : Bool :=
  methodForGet method || methodForPost method || method.isEmpty

theorem admitsMethod_get : admitsMethod httpMethodGet = true := by decide

structure HttpClientRequest extends RequestOptions where
  method_admitted : admitsMethod method = true := by exact HttpCache.admitsMethod_get

namespace HttpClientRequest

variable (r : HttpClientRequest)

def setURL (url : Bytes) : HttpClientRequest :=
  { r with url := url }

def setHeader (key val : Bytes) : HttpClientRequest :=
  { toRequestOptions := RequestOptions.setHeader .httpClient r.toRequestOptions key val
    method_admitted := r.method_admitted }

def setMethod (method : Bytes) : HttpClientRequest :=
  if h : admitsMethod method = true then { r with method := method, method_admitted := h } else r

def setBody (data : Bytes) : HttpClientRequest :=
  { r with body := r.body ++ data }

end HttpClientRequest

structure HttpResponse where
  responseCode : ResponseCode := 0
  rawHeader : Bytes := []
  headers : Headers := ∅
  setCookie : List Bytes := []
  cookies : Bytes := []
  result : Bytes := []
  responseTime : Bytes := []
  requestTime : Bytes := []

namespace HttpResponse

variable (r : HttpResponse)

/-- One round of `ParseHeaders`. -/
def parseHeaderLine (header : Bytes) : HttpResponse :=
  if strip header 32 = [] then r
  else
    match cut httpHeaderSeparator header with
    | none => { r with headers := r.headers.insert (strip header 32) [] }
    | some (name, value) =>
      if lower (strip name 32) = responseKeySetCookie then
        { r with setCookie := r.setCookie ++ [strip value 32] }
      else
        { r with headers := r.headers.insert (lower (strip name 32)) (strip value 32) }

def parseHeaders : HttpResponse :=
  (split r.rawHeader httpLineSeparator).foldl parseHeaderLine r

def setWarning (val : Bytes) : HttpResponse :=
  { r with headers := r.headers.insert warning val }

end HttpResponse

/-- The methods `SetMethod` lets through, as a list. -/
def admittedMethods : List Bytes :=
  [httpMethodHead, httpMethodOptions, httpMethodTrace, httpMethodGet, httpMethodConnect,
    httpMethodPost, httpMethodPut, httpMethodDelete, []]

theorem mem_admittedMethods {method : Bytes} (h : admitsMethod method = true) :
    method ∈ admittedMethods := by
  simpa [admittedMethods, admitsMethod, methodForGet, methodForPost, or_assoc] using h

theorem cr_notMem_lower_of_admitsMethod {method : Bytes} (h : admitsMethod method = true) :
    (13 : UInt8) ∉ lower method := by
  have hall : ∀ m ∈ admittedMethods, (13 : UInt8) ∉ lower m := by decide +kernel
  exact hall method (mem_admittedMethods h)

/-- Admitted methods are told apart without letter case. -/
theorem eq_of_lower_eq_of_admitsMethod {m n : Bytes} (hm : admitsMethod m = true)
    (hn : admitsMethod n = true) (h : lower m = lower n) : m = n := by
  have hinj : ∀ m ∈ admittedMethods, ∀ n ∈ admittedMethods, lower m = lower n → m = n := by
    decide +kernel
  exact hinj m (mem_admittedMethods hm) n (mem_admittedMethods hn) h

end Netstack.HttpCache
