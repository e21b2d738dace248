import Netstack.HttpClient.CurlOptions

/-!
# The cache and the configuration of the handle

`SetCurlOptions` stops at a request that uses the cache, before the callbacks and everything
after them are set. The request goes to the network all the same when the cache has no
answer, and then without callbacks, redirects, certificates, proxy, timeouts and
authentication.
-/

namespace Netstack.HttpClient

open Foundation Curl Attempt
open HttpCache hiding HttpResponse
open HttpCache.HttpConstant

variable {r : HttpClientRequest}

section Configured

variable (curl : CurlLibrary) (net : TaskServices) (c : TaskConfig)

/-- The options the constructor sets for a request, in their order. -/
def optionsSet (r : HttpClientRequest) : List Setting :=
  (setCurlOptions curl net c { owner := r }).2.settings

/-- The file of an upload can be used and curl takes it. -/
def TakesFile : Prop :=
  c.filePath ≠ [] ∧ ∃ realPath size, net.realpath (cString c.filePath) = some realPath ∧
    net.fileSize realPath = some size ∧ curl.takes (.readData, .file realPath) = true ∧
    curl.takes (.inFileSize, .long size) = true ∧ curl.takes (.upload, .long 1) = true

/-- Curl takes every option that describes the request. -/
structure TakesRequest (r : HttpClientRequest) : Prop where
  headers : curl.takes (.httpHeader, .slist (headerLines r.headers)) = true
  noBody : r.method = httpMethodHead → curl.takes (.noBody, .long 1) = true
  url : curl.takes (.url, .text (applyExtraData net.json c.extraData r).url) = true
  file : c.type = .upload → TakesFile curl net c
  method : c.type ≠ .upload → r.method ≠ [] → curl.takes (.customRequest, .text r.method) = true
  body : c.type ≠ .upload → carriesBody r.method = true →
    (applyExtraData net.json c.extraData r).body ≠ [] →
      curl.takes (.post, .long 1) = true ∧
      curl.takes (.postFields, .bytes (applyExtraData net.json c.extraData r).body) = true ∧
      curl.takes
        (.postFieldSize, .long (applyExtraData net.json c.extraData r).body.length) = true

variable {curl net c} {h : Handle HttpClientRequest}

theorem ends_setUploadOptions :
    Attempt.Ends (setUploadOptions curl net c) h (fun _ _ => True) ↔ TakesFile curl net c := by
  unfold setUploadOptions TakesFile
  rw [ends_ite]
  cases hr : net.realpath (cString c.filePath) with
  | none => simp
  | some realPath =>
    cases hs : net.fileSize realPath with
    | none => simp [hs]
    | some size =>
      by_cases hp : c.filePath = []
      · simp [hp]
      · simp [hp, hs, ends_bind, ends_setOption]

theorem ends_setMethodAndBody :
    Attempt.Ends (setMethodAndBody curl r) h (fun _ _ => True) ↔
      (r.method ≠ [] → curl.takes (.customRequest, .text r.method) = true) ∧
      (carriesBody r.method = true → r.body ≠ [] →
        curl.takes (.post, .long 1) = true ∧ curl.takes (.postFields, .bytes r.body) = true ∧
          curl.takes (.postFieldSize, .long r.body.length) = true) := by
  unfold setMethodAndBody setPost
  simp only [ends_bind, ends_when, ends_setOption]
  by_cases hm : r.method = [] <;> simp [hm]

/-- A step that is only made in one case and changes nothing the rest depends on. -/
theorem and_of_cases {p q s : Prop} : (p → q ∧ s) ∧ (¬p → s) ↔ (p → q) ∧ s := by
  grind

theorem ends_describeRequest :
    Attempt.Ends (describeRequest curl net c) { owner := r } (fun _ _ => True) ↔
      TakesRequest curl net c r := by
  unfold describeRequest setHttpHeaders setCurlMethod
  simp only [ends_bind, ends_when, ends_ite, ends_state,
    ends_update, ends_ignoring, ends_setOption, ends_setUploadOptions,
    ends_setMethodAndBody, setTraceOptions_owner, and_of_cases, r.method_admitted,
    applyExtraData_method, Bool.true_eq_false, false_imp_iff, not_false_eq_true, true_imp_iff,
    true_and]
  constructor
  · rintro ⟨headers, noBody, url, file, rest⟩
    exact ⟨headers, noBody, url, file, fun h => (rest h).1, fun h => (rest h).2⟩
  · rintro ⟨headers, noBody, url, file, method, body⟩
    grind

theorem describeRequest_of_takes (h : TakesRequest curl net c r) :
    ∃ k, describeRequest curl net c { owner := r } = (some (), k) := by
  obtain ⟨_, k, hk, -⟩ := ends_describeRequest.2 h
  exact ⟨k, hk⟩

theorem describeRequest_of_refuses (h : ¬TakesRequest curl net c r) :
    ∃ k, describeRequest curl net c { owner := r } = (none, k) := by
  cases hd : describeRequest curl net c { owner := r } with
  | mk answer k =>
    cases answer with
    | none => exact ⟨k, rfl⟩
    | some _ => exact absurd (ends_describeRequest.1 ⟨_, k, hd, trivial⟩) h

/-- With the first callback taken, there is at least one more option. -/
theorem setCallbackFunctions_grows
    (ht : curl.takes (.xferInfoFunction, .callback .progressCallback) = true)
    (k : Handle HttpClientRequest) :
    k.settings.length <
      ((do
        setCallbackFunctions curl
        setTransferOptions curl net c : Configure) k).2.settings.length := by
  rw [setCallbackFunctions, setCallbacksTo, bind_bind]
  apply settings_grow ht
  change SetsOthers _
  simp only [bind_bind]
  apply_rules [setTransferOptions_setsOthers, SetsOthers.bind, setsOthers_setOption, rfl]

theorem setCallbackFunctions_of_refuses
    (ht : curl.takes (.xferInfoFunction, .callback .progressCallback) = false)
    (k : Handle HttpClientRequest) : setCallbackFunctions curl k = (none, k) :=
  bind_of_none (setOption_of_refuses ht k)

/-- Whether a request uses the cache makes no difference to the options exactly if curl
refuses the request, or the first callback, anyway. -/
theorem cache_keeps_options_iff (curl : CurlLibrary) (net : TaskServices) (c : TaskConfig)
    (r : HttpClientRequest) :
    optionsSet curl net { c with usingCache := true } r =
        optionsSet curl net { c with usingCache := false } r ↔
      ¬TakesRequest curl net c r ∨
        curl.takes (.xferInfoFunction, .callback .progressCallback) = false := by
  unfold optionsSet
  rw [setCurlOptions_eq, setCurlOptions_eq]
  change ((describeRequest curl net c >>= _) _).2.settings =
    ((describeRequest curl net c >>= _) _).2.settings ↔ _
  by_cases hr : TakesRequest curl net c r
  · obtain ⟨k, hk⟩ := describeRequest_of_takes hr
    rw [bind_of_some hk, bind_of_some hk]
    rw [when_of_pos rfl, when_of_neg Bool.false_ne_true]
    rw [bind_of_none (giveUp_apply k),
      bind_of_some (pure_apply () k)]
    cases ht : curl.takes (.xferInfoFunction, .callback .progressCallback) with
    | true =>
      simp only [hr, not_true_eq_false, Bool.true_eq_false, or_self, iff_false]
      intro heq
      exact absurd (congrArg List.length heq) (setCallbackFunctions_grows ht k).ne
    | false =>
      rw [bind_of_none (setCallbackFunctions_of_refuses ht k)]
      simp
  grind [describeRequest_of_refuses, bind_of_none]

/-- With the cache there is no callback, no redirect and no timeout. -/
theorem cached_request_unconfigured :
    optionsSet obligingCurl {} { usingCache := true } { url := ascii "http://a/" } ≠
      optionsSet obligingCurl {} { usingCache := false } { url := ascii "http://a/" } := by
  intro heq
  have hlen := congrArg List.length heq
  revert hlen
  decide +kernel

end Configured

end Netstack.HttpClient
