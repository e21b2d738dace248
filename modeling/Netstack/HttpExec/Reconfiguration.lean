import Netstack.HttpExec.HandleOptions

/-!
# Global interceptors of JS requests

When an interceptor has rewritten a request, its fields are copied back into the context and
`SetOption` runs again on the handle it has already configured. It never sets an option back,
so what the first run set and the second does not stays in force.

## Implementation notes

A node of the header list may have no data; the copy of the list leaves it out.
-/

namespace Netstack.HttpExec

open Foundation
open Curl hiding setOption
open HttpCache hiding HttpResponse
open HttpCache.HttpConstant

structure InterceptorRequest where
  url : Bytes := []
  method : Bytes := []
  body : Bytes := []
  headers : List (Option Bytes) := []

def deepCopyHeaders (headers : List (Option Bytes)) : List Bytes := headers.filterMap id

/-- The fields of the context after those of an interceptor were copied into it. -/
def rewritten (req : InterceptorRequest) (r : RequestFields) : RequestFields where
  url := if req.url ≠ [] then req.url else r.url
  method := if req.method ≠ [] then req.method else r.method
  body := if req.body ≠ [] then req.body else r.body
  curlHeaderList :=
    if req.headers ≠ [] then deepCopyHeaders req.headers else r.curlHeaderList

section Conversion

variable (curl : CurlLibrary) (net : HandleServices) (c : HandleConfig)

/-- A new handle on which `SetOption` has run. -/
def configured (r : RequestFields) : Handle RequestFields :=
  (setOption curl net c { owner := r }).2

def convertInterceptorReqToRequestContext (req : InterceptorRequest)
    (h : Handle RequestFields) : Handle RequestFields :=
  (setOption curl net c { h with owner := rewritten req h.owner }).2

/-- The handle is worth a new one, and the context has the body and the headers of the
interceptor. -/
structure ConfiguredAfresh (req : InterceptorRequest) (h : Handle RequestFields) : Prop where
  options : ∀ o, describesRequest o = true →
    latest o h.settings = latest o (configured curl net c h.owner).settings
  body : h.owner.body = req.body
  headers : h.owner.curlHeaderList = deepCopyHeaders req.headers

/-- A HEAD stays one, a request that sends a body goes on to send one, and nothing that was
there is taken away. -/
structure Reconfigurable (req : InterceptorRequest) (r : RequestFields) : Prop where
  head : r.method = httpMethodHead → req.method = [] ∨ req.method = httpMethodHead
  sends : SendsBody c r → methodForGet req.method = true → c.bodyOrQueryConfigured = true
  body : req.body = [] → r.body = []
  headers : req.headers = [] → r.curlHeaderList = []

end Conversion

/-- An old value only shows where there is no new one. -/
theorem or_eq_left_iff {ν : Type} {new old : Option ν} :
    new.or old = new ↔ (new = none → old = none) := by
  cases new with
  | none => simp
  | some v => simp

section Options

variable {c : HandleConfig} {r s : RequestFields}

theorem describedBy_covers_iff :
    (∀ o, describesRequest o = true → describedBy c s o = none → describedBy c r o = none) ↔
      (r.method = httpMethodHead → s.method = httpMethodHead) ∧
        (r.method ≠ [] → s.method ≠ []) ∧ (SendsBody c r → SendsBody c s) := by
  constructor
  · intro h
    refine ⟨?_, ?_, ?_⟩
    · have hnoBody := h .noBody rfl
      simp only [describedBy, ite_eq_right_iff, reduceCtorEq, imp_false] at hnoBody
      exact not_imp_not.1 hnoBody
    · have hcustom := h .customRequest rfl
      simp only [describedBy, ite_eq_right_iff, reduceCtorEq, imp_false] at hcustom
      exact not_imp_not.1 hcustom
    · have hpost := h .post rfl
      simp only [describedBy, ite_eq_right_iff, reduceCtorEq, imp_false] at hpost
      exact not_imp_not.1 hpost
  · rintro ⟨hhead, hmethod, hsends⟩ o ho
    rcases describesRequest_cases ho with rfl | rfl | rfl | rfl | rfl | rfl | rfl
    all_goals simp only [describedBy, ite_eq_right_iff, reduceCtorEq, imp_false]
    · exact False.elim
    · exact mt hmethod
    · exact mt hhead
    · exact mt hsends
    · exact mt hsends
    · exact mt hsends
    · exact False.elim

end Options

section Result

variable (c : HandleConfig) (r : RequestFields) (req : InterceptorRequest)

theorem rewritten_body_iff : (rewritten req r).body = req.body ↔ (req.body = [] → r.body = []) := by
  grind [rewritten]

theorem rewritten_headers_iff :
    (rewritten req r).curlHeaderList = deepCopyHeaders req.headers ↔
      (req.headers = [] → r.curlHeaderList = []) := by
  grind [rewritten, deepCopyHeaders]

theorem rewritten_head_iff :
    (r.method = httpMethodHead → (rewritten req r).method = httpMethodHead) ↔
      (r.method = httpMethodHead → req.method = [] ∨ req.method = httpMethodHead) := by
  apply imp_congr_right
  grind [rewritten]

theorem rewritten_sends_iff :
    (SendsBody c r → SendsBody c (rewritten req r)) ↔
      (SendsBody c r → methodForGet req.method = true → c.bodyOrQueryConfigured = true) := by
  apply imp_congr_right
  rintro ⟨hmethod, hbody⟩
  have hkept : (rewritten req r).body ≠ [] := by
    grind [rewritten]
  by_cases hm : req.method = []
  · have hempty : methodForGet [] = false := by decide
    grind [rewritten, SendsBody]
  · have hnew : (rewritten req r).method = req.method := by simp [rewritten, hm]
    rw [SendsBody, hnew, and_iff_left hkept, ← Bool.not_eq_true, or_iff_not_imp_left, not_not]

/-- A method is never taken away. -/
theorem rewritten_method_ne_nil (hm : r.method ≠ []) : (rewritten req r).method ≠ [] := by
  grind [rewritten]

variable {curl : CurlLibrary} (hcurl : curl.TakesAll) (net : HandleServices)
include hcurl

theorem converted_owner :
    (convertInterceptorReqToRequestContext curl net c req (configured curl net c r)).owner =
      rewritten req r := by
  rw [convertInterceptorReqToRequestContext, (setOption_leaves net c hcurl _).1, configured,
    (setOption_leaves net c hcurl _).1]

theorem latest_configured {o : CurlOption} (ho : describesRequest o = true) :
    latest o (configured curl net c r).settings = describedBy c r o := by
  rw [configured, (setOption_leaves net c hcurl _).latest ho, latest_description c r ho]
  exact Option.or_none

theorem latest_converted {o : CurlOption} (ho : describesRequest o = true) :
    latest o (convertInterceptorReqToRequestContext curl net c req
        (configured curl net c r)).settings =
      (describedBy c (rewritten req r) o).or (describedBy c r o) := by
  rw [convertInterceptorReqToRequestContext, (setOption_leaves net c hcurl _).latest ho,
    latest_description c _ ho, latest_configured c r hcurl net ho, configured,
    (setOption_leaves net c hcurl _).1]

/-- A handle that was configured once and is configured again for what an interceptor has made of
the request is worth a new one if and only if the interceptor has taken nothing away. -/
theorem reconfigured_iff :
    ConfiguredAfresh curl net c req
        (convertInterceptorReqToRequestContext curl net c req (configured curl net c r)) ↔
      Reconfigurable c req r := by
  have hoptions : (∀ o, describesRequest o = true →
      latest o (convertInterceptorReqToRequestContext curl net c req
          (configured curl net c r)).settings =
        latest o (configured curl net c (rewritten req r)).settings) ↔
      ∀ o, describesRequest o = true →
        describedBy c (rewritten req r) o = none → describedBy c r o = none := by
    refine forall₂_congr fun o ho => ?_
    rw [latest_converted c r req hcurl net ho, latest_configured c _ hcurl net ho]
    exact or_eq_left_iff
  constructor
  · rintro ⟨options, body, headers⟩
    rw [converted_owner c r req hcurl net] at options body headers
    obtain ⟨hhead, -, hsends⟩ := describedBy_covers_iff.1 (hoptions.1 options)
    refine ⟨?_, ?_, ?_, ?_⟩
    · exact (rewritten_head_iff r req).1 hhead
    · exact (rewritten_sends_iff c r req).1 hsends
    · exact (rewritten_body_iff r req).1 body
    · exact (rewritten_headers_iff r req).1 headers
  · rintro ⟨head, sends, body, headers⟩
    refine ⟨?_, ?_, ?_⟩
    all_goals rw [converted_owner c r req hcurl net]
    · apply hoptions.2
      apply describedBy_covers_iff.2
      grind [rewritten_method_ne_nil, rewritten_head_iff, rewritten_sends_iff]
    · exact (rewritten_body_iff r req).2 body
    · exact (rewritten_headers_iff r req).2 headers

end Result

/-- A GET that becomes a POST is as good as a new one. -/
theorem get_to_post_reconfigured :
    ConfiguredAfresh obligingCurl {} {}
      { method := httpMethodPost, body := ascii "b", headers := [some (ascii "x:1")] }
      (convertInterceptorReqToRequestContext obligingCurl {} {}
        { method := httpMethodPost, body := ascii "b", headers := [some (ascii "x:1")] }
        (configured obligingCurl {} {} { url := ascii "http://a/" })) := by
  apply (reconfigured_iff {} { url := ascii "http://a/" } _ obligingCurl_takesAll {}).2
  exact ⟨by decide, by decide, by decide, by decide⟩

/-- An interceptor makes a POST a GET without a body. The old body is still there, and it is
posted. -/
theorem post_to_get_posts :
    let h := convertInterceptorReqToRequestContext obligingCurl {} {} { method := httpMethodGet }
      (configured obligingCurl {} {}
        { url := ascii "http://a/", method := httpMethodPost, body := ascii "b" })
    latest .post h.settings = some (.long 1) ∧
      latest .post (configured obligingCurl {} {} h.owner).settings = none ∧
      h.owner.body = ascii "b" := by
  decide +kernel

end Netstack.HttpExec
