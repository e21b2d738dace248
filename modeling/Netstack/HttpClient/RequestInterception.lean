import Netstack.HttpClient.HeaderText

/-!
# Global interceptors of native requests

Before a task is started, its request is copied into a C structure that the interceptors may
change. If one of them says it did, the structure is copied back and `SetCurlOptions` runs
once more on the same handle, which still has the options of the first run.

## Implementation notes

A buffer that is null or has no length is the empty text. Memory does not run out.
-/

namespace Netstack.HttpClient

open Foundation Curl Attempt Option
open HttpCache hiding HttpResponse
open HttpCache.HttpConstant

variable {o : CurlOption}

structure InterceptorRequest where
  url : Bytes := []
  method : Bytes := []
  body : Bytes := []
  headers : List Bytes := []

def convertRequestContextToInterceptorReq (r : HttpClientRequest) : InterceptorRequest where
  url := r.url
  method := r.method
  body := r.body
  headers := headerLines r.headers

section Fields

variable (r : HttpClientRequest) (text : Bytes)

def takeUrl : HttpClientRequest := if text ≠ [] then r.setURL text else r

def takeMethod : HttpClientRequest := if text ≠ [] then r.setMethod text else r

def takeBody : HttpClientRequest := if text ≠ [] then { r with body := text } else r

@[simp] theorem takeUrl_url : (takeUrl r text).url = if text ≠ [] then text else r.url := by
  unfold takeUrl
  split <;> rfl

@[simp] theorem takeUrl_method : (takeUrl r text).method = r.method := by
  unfold takeUrl
  split <;> rfl

@[simp] theorem takeUrl_body : (takeUrl r text).body = r.body := by
  unfold takeUrl
  split <;> rfl

/-- A method that `SetMethod` does not know is not taken. -/
theorem takeMethod_eq : takeMethod r text =
    if h : text ≠ [] ∧ admitsMethod text = true then
      { r with method := text, method_admitted := h.2 }
    else r := by
  unfold takeMethod HttpClientRequest.setMethod
  grind

@[simp] theorem takeMethod_url : (takeMethod r text).url = r.url := by
  rw [takeMethod_eq]
  split <;> rfl

@[simp] theorem takeMethod_method : (takeMethod r text).method =
    if text ≠ [] ∧ admitsMethod text = true then text else r.method := by
  rw [takeMethod_eq]
  split <;> rfl

@[simp] theorem takeMethod_body : (takeMethod r text).body = r.body := by
  rw [takeMethod_eq]
  split <;> rfl

@[simp] theorem takeBody_url : (takeBody r text).url = r.url := by
  unfold takeBody
  split <;> rfl

@[simp] theorem takeBody_method : (takeBody r text).method = r.method := by
  unfold takeBody
  split <;> rfl

@[simp] theorem takeBody_body : (takeBody r text).body = if text ≠ [] then text else r.body := by
  unfold takeBody
  split <;> rfl

end Fields

/-- The request that is made of what the interceptors left. -/
def interceptedRequest (req : InterceptorRequest) (r : HttpClientRequest) : HttpClientRequest :=
  { takeBody (takeMethod (takeUrl r req.url) req.method) req.body with
    headers := parseHeaders (rawHeaderOf req.headers) }

section Conversion

variable (curl : CurlLibrary) (net : TaskServices) (c : TaskConfig)

/-- The handle when the constructor is done. -/
def constructed (r : HttpClientRequest) : Handle HttpClientRequest :=
  (setCurlOptions curl net c { owner := r }).2

def convertInterceptorReqToRequestContext (req : InterceptorRequest)
    (h : Handle HttpClientRequest) : Handle HttpClientRequest :=
  (setCurlOptions curl net c { h with owner := interceptedRequest req h.owner }).2

end Conversion

section Described

variable (curl : CurlLibrary) (net : TaskServices) (c : TaskConfig)

/-- The body of the request is given to curl. -/
def Posts (r : HttpClientRequest) : Prop :=
  c.type ≠ .upload ∧ carriesBody r.method = true ∧ r.body ≠ []

instance (r : HttpClientRequest) : Decidable (Posts c r) := inferInstanceAs (Decidable (_ ∧ _))

/-- The values of the options that describe a request. -/
def describedBy (headers : Headers) (r : HttpClientRequest) : CurlOption → Option CurlValue
  | .httpHeader => some (.slist (headerLines headers))
  | .noBody => if r.method = httpMethodHead then some (.long 1) else none
  | .url => some (.text r.url)
  | .customRequest => if c.type ≠ .upload ∧ r.method ≠ [] then some (.text r.method) else none
  | .post => if Posts c r then some (.long 1) else none
  | .postFields => if Posts c r then some (.bytes r.body) else none
  | .postFieldSize => if Posts c r then some (.long r.body.length) else none
  | _ => none

/-- The settings of `SetCurlOptions` that describe a request. -/
def description (headers : Headers) (r : HttpClientRequest) : List Setting :=
  [(.httpHeader, .slist (headerLines headers))] ++
    (settingIf (r.method = httpMethodHead) .noBody (.long 1) ++
      ([(.url, .text r.url)] ++ if c.type = .upload then [] else
        settingIf (r.method ≠ []) .customRequest (.text r.method) ++
          if carriesBody r.method = true ∧ r.body ≠ [] then postSettings r.body else []))

theorem latest_description (ho : describesRequest o = true) (headers : Headers)
    (r : HttpClientRequest) : latest o (description c headers r) = describedBy c headers r o := by
  by_cases hu : c.type = .upload
  all_goals
    rcases describesRequest_cases ho with rfl | rfl | rfl | rfl | rfl | rfl | rfl
    all_goals simp [description, describedBy, settingIf, postSettings, Posts, hu]

variable {curl} (hcurl : curl.TakesAll)
include hcurl

theorem setMethodAndBody_makes {r q : HttpClientRequest} {h : Handle HttpClientRequest}
    (hq : h.owner = q) : Makes (setMethodAndBody curl r) h q
    (settingIf (r.method ≠ []) .customRequest (.text r.method) ++
      if carriesBody r.method = true ∧ r.body ≠ [] then postSettings r.body else []) := by
  refine ((makes_setOption hcurl _ _ hq).when hq).bind fun k hk => ?_
  exact (makes_setPost hcurl r.body hk).when hk

/-- Behind the description of the request only other options are set. -/
theorem setCurlOptions_leaves (h : Handle HttpClientRequest) :
    Leaves (setCurlOptions curl net c) h (applyExtraData net.json c.extraData h.owner)
      (description c h.owner.headers (applyExtraData net.json c.extraData h.owner)) := by
  have hrest : SetsOthers (do
      Attempt.when (c.usingCache = true) giveUp
      setCallbackFunctions curl
      setTransferOptions curl net c : Configure) := by
    apply_rules [setCallbackFunctions_setsOthers, setTransferOptions_setsOthers, SetsOthers.bind,
      SetsOthers.when, setsOthers_giveUp]
  rw [setCurlOptions, setHttpHeaders, setCurlMethod, description, applyExtraData_method]
  simp only [bind_bind]
  refine Leaves.reading ((makes_setOption hcurl _ _ rfl).leaves_bind fun k hk => ?_)
  refine Leaves.reading ?_
  rw [hk, when_of_neg (by rw [h.owner.method_admitted]; decide)]
  refine (makes_pure hk).leaves_after fun k hk => ?_
  refine ((makes_setOption hcurl _ _ hk).when hk).leaves_bind fun k hk => ?_
  refine (makes_update _ hk).leaves_after fun k hk => ?_
  refine ((setTraceOptions_setsOthers curl).makes_ignoring hk).leaves_after fun k hk => ?_
  refine Leaves.reading ?_
  rw [hk]
  refine (makes_setOption hcurl _ _ hk).leaves_bind fun k hk => ?_
  split
  · exact ((setUploadOptions_setsOthers curl net c).bind hrest).leaves hk
  · rw [← List.append_nil (_ ++ ite _ _ _), ← applyExtraData_method net.json c.extraData h.owner]
    exact (setMethodAndBody_makes hcurl hk).leaves_bind fun k hk => hrest.leaves hk

/-- What an option is worth after a run of `SetCurlOptions`: what the request says about it,
or else what it was worth before. -/
theorem latest_setCurlOptions (ho : describesRequest o = true) (h : Handle HttpClientRequest) :
    latest o (setCurlOptions curl net c h).2.settings =
      (describedBy c h.owner.headers (applyExtraData net.json c.extraData h.owner) o).or
        (latest o h.settings) := by
  rw [(setCurlOptions_leaves net c hcurl h).latest ho, latest_description c ho]

/-- The kind of request that is chosen, if the request is one that chooses. -/
def kindChosen (r : HttpClientRequest) : Option RequestKind :=
  if r.method = httpMethodHead then some .head else if Posts c r then some .post else none

omit hcurl in
theorem lastKind_description (hu : c.type ≠ .upload) (headers : Headers) (r : HttpClientRequest) :
    lastKind (description c headers r) = kindChosen c r := by
  have hno : carriesBody httpMethodHead = false := by decide
  have hcustom : lastKind (settingIf (r.method ≠ []) .customRequest (.text r.method)) = none := by
    unfold settingIf
    split <;> rfl
  simp only [description, lastKind_append, hcustom, kindChosen, if_neg hu]
  by_cases hhead : r.method = httpMethodHead
  · simp [hhead, hno, lastKind, settingIf, kindOf]
  · rw [settingIf, if_neg hhead, if_neg hhead]
    split
    · next hp => exact (if_pos ⟨hu, hp⟩).symm
    · next hp => exact (if_neg fun h => hp h.2).symm

theorem lastKind_setCurlOptions (hu : c.type ≠ .upload) (h : Handle HttpClientRequest) :
    lastKind (setCurlOptions curl net c h).2.settings =
      (kindChosen c (applyExtraData net.json c.extraData h.owner)).or (lastKind h.settings) := by
  rw [(setCurlOptions_leaves net c hcurl h).lastKind, lastKind_description c hu]

end Described

section Intercepted

variable (req : InterceptorRequest) (r : HttpClientRequest)

/-- The method that is left when `SetMethod` has refused one it does not know. -/
def methodLeft : Bytes :=
  if req.method ≠ [] ∧ admitsMethod req.method = true then req.method else r.method

@[simp] theorem interceptedRequest_url :
    (interceptedRequest req r).url = if req.url ≠ [] then req.url else r.url := by
  simp [interceptedRequest]

@[simp] theorem interceptedRequest_method :
    (interceptedRequest req r).method = methodLeft req r := by
  simp [interceptedRequest, methodLeft]

@[simp] theorem interceptedRequest_body :
    (interceptedRequest req r).body = if req.body ≠ [] then req.body else r.body := by
  simp [interceptedRequest]

/-- An interceptor that changes nothing leaves a request whose headers were read again. -/
theorem interceptedRequest_self :
    interceptedRequest (convertRequestContextToInterceptorReq r) r =
      { r with headers := reread r.headers } := by
  have hurl : takeUrl r r.url = r := by
    unfold takeUrl
    split <;> rfl
  have hmethod : takeMethod r r.method = r := by
    rw [takeMethod_eq]
    split <;> rfl
  have hbody : takeBody r r.body = r := by
    unfold takeBody
    split <;> rfl
  simp only [interceptedRequest, convertRequestContextToInterceptorReq, hurl, hmethod, hbody]
  rfl

end Intercepted

section Kept

variable (net : TaskServices) (c : TaskConfig) (req : InterceptorRequest) (r : HttpClientRequest)

/-- The URL is taken over and no parameter is added to it. -/
def UrlKept : Prop :=
  if c.extraData.present = true ∧ methodForGet (methodLeft req r) = true then
    extraParam net.json c.extraData = [] ∧
      if req.url ≠ [] then ¬ httpUrlParamStart <:+: req.url
      else r.url = [] ∨ r.url = httpUrlParamStart
  else req.url = [] → r.url = []

/-- The method is one that `SetMethod` knows, and it is not taken away. -/
structure MethodKept : Prop where
  admitted : admitsMethod req.method = true
  present : req.method = [] → r.method = []

/-- With a body nothing is added to it; without one, nothing in the request before called for
another kind of request. -/
def BodyKept : Prop :=
  if req.method = httpMethodHead then True
  else if carriesBody req.method = true then
    ¬(c.extraData.present = true ∧ methodForPost req.method = true) ∧
      (req.body = [] → r.body = [] ∧ r.method ≠ httpMethodHead)
  else r.method ≠ httpMethodHead ∧ ¬(carriesBody r.method = true ∧ r.body ≠ [])

/-- The request that `SetCurlOptions` leaves of an intercepted one. -/
def resent : HttpClientRequest :=
  applyExtraData net.json c.extraData (interceptedRequest req r)

@[simp] theorem resent_method : (resent net c req r).method = methodLeft req r := by
  rw [resent, applyExtraData_method, interceptedRequest_method]

theorem resent_body :
    (resent net c req r).body =
      (if req.body ≠ [] then req.body else r.body) ++
        if c.extraData.present = true ∧ methodForPost (methodLeft req r) = true then
          c.extraData.data
        else [] := by
  rw [resent, applyExtraData_body, interceptedRequest_body, interceptedRequest_method]
  split
  · rfl
  · rw [List.append_nil]

variable {net c req r}

theorem resent_url_iff : (resent net c req r).url = req.url ↔ UrlKept net c req r := by
  rw [resent, applyExtraData_url, interceptedRequest_url, interceptedRequest_method, UrlKept]
  by_cases hadds : c.extraData.present = true ∧ methodForGet (methodLeft req r) = true
  · rw [if_pos hadds, if_pos hadds]
    by_cases hu : req.url = []
    · rw [if_neg (not_not.2 hu), if_neg (not_not.2 hu), hu]
      exact addExtraParam_eq_nil_iff
    · rw [if_pos hu, if_pos hu]
      exact addExtraParam_eq_iff
  grind

theorem methodLeft_eq_iff : methodLeft req r = req.method ↔ MethodKept req r := by
  rw [methodLeft]
  by_cases hm : req.method = []
  · have hempty : admitsMethod [] = true := by decide
    constructor
    · intro heq
      rw [if_neg fun h => h.1 hm] at heq
      exact ⟨hm ▸ hempty, fun h => heq.trans h⟩
    · rintro ⟨-, hpresent⟩
      rw [if_neg fun h => h.1 hm, hpresent hm, hm]
  · constructor
    · intro heq
      refine ⟨?_, fun h => absurd h hm⟩
      grind [@r.method_admitted]
    · rintro ⟨hadmitted, -⟩
      rw [if_pos ⟨hm, hadmitted⟩]

/-- What is added to a body makes it another one. -/
theorem resent_body_iff (hm : methodLeft req r = req.method) :
    (resent net c req r).body = req.body ↔
      ¬(c.extraData.present = true ∧ methodForPost req.method = true) ∧
        (req.body = [] → r.body = []) := by
  rw [resent_body, hm]
  by_cases hadds : c.extraData.present = true ∧ methodForPost req.method = true
  · have hdata : c.extraData.data ≠ [] := (EscapedData.present_iff.1 hadds.1).2
    by_cases hb : req.body = []
    · simp [hadds, hb, hdata]
    · simp [hadds, hb, hdata]
  grind

end Kept

section Given

variable (c : TaskConfig) (req : InterceptorRequest) (fields : List HeaderField)

/-- The interceptor left a body and a method that sends it. -/
def BodyAsked : Prop := carriesBody req.method = true ∧ req.body ≠ []

instance : Decidable (BodyAsked req) := inferInstanceAs (Decidable (_ ∧ _))

/-- What curl has been given is the request of the interceptor. An upload sends its file, by
the method of curl. -/
structure GivesIntercepted (settings : List Setting) : Prop where
  url : latest .url settings = some (.text req.url)
  headers : latest .httpHeader settings = some (.slist (headerLines (headerMap fields)))
  method : c.type ≠ .upload → latest .customRequest settings =
    if req.method = [] then none else some (.text req.method)
  kind : c.type ≠ .upload → requestKind settings =
    if req.method = httpMethodHead then .head else if BodyAsked req then .post else .get
  body : c.type ≠ .upload → BodyAsked req →
    latest .postFields settings = some (.bytes req.body) ∧
      latest .postFieldSize settings = some (.long req.body.length)

variable (net : TaskServices) (r : HttpClientRequest)

/-- The condition under which curl is given the request of the interceptor. -/
structure InterceptionKept : Prop where
  url : UrlKept net c req r
  headers : ∀ f ∈ fields, f.value ≠ []
  method : c.type ≠ .upload → MethodKept req r
  body : c.type ≠ .upload → BodyKept c req r

end Given

section Kinds

variable {c : TaskConfig} {r : HttpClientRequest}

theorem kindChosen_of_head (h : r.method = httpMethodHead) : kindChosen c r = some .head :=
  if_pos h

theorem kindChosen_of_posts (h : Posts c r) : kindChosen c r = some .post := by
  have hhead : r.method ≠ httpMethodHead := by
    intro heq
    have hcarries := h.2.1
    rw [heq] at hcarries
    exact absurd hcarries (by decide)
  rw [kindChosen, if_neg hhead, if_pos h]

theorem kindChosen_eq_none_iff :
    kindChosen c r = none ↔ r.method ≠ httpMethodHead ∧ ¬Posts c r := by
  unfold kindChosen
  grind

theorem kindChosen_getD_iff :
    (kindChosen c r).getD .get = .get ↔ r.method ≠ httpMethodHead ∧ ¬Posts c r := by
  grind [kindChosen]

variable {req : InterceptorRequest} {r s : HttpClientRequest}

/-- Given what is sent, the kind of request and its body are right exactly when the body was
taken over and no other kind is left from before. -/
theorem kind_and_body_iff (hu : c.type ≠ .upload) (hm : s.method = req.method)
    (hb : req.body ≠ [] → s.body ≠ []) :
    ((kindChosen c s).or (kindChosen c r)).getD .get =
        (if req.method = httpMethodHead then .head
          else if BodyAsked req then .post else .get) ∧
      (BodyAsked req → s.body = req.body) ↔
      if req.method = httpMethodHead then True
      else if carriesBody req.method = true then
        s.body = req.body ∧ (req.body = [] → r.method ≠ httpMethodHead ∧ ¬Posts c r)
      else r.method ≠ httpMethodHead ∧ ¬Posts c r := by
  by_cases hhead : req.method = httpMethodHead
  · have hno : ¬BodyAsked req := by
      rintro ⟨hcarries, -⟩
      rw [hhead] at hcarries
      exact absurd hcarries (by decide)
    rw [kindChosen_of_head (hm.trans hhead)]
    simp [hhead, hno]
  · rw [if_neg hhead, if_neg hhead]
    by_cases hcarries : carriesBody req.method = true
    · rw [if_pos hcarries]
      by_cases hempty : req.body = []
      · have hno : ¬BodyAsked req := fun h => h.2 hempty
        rw [if_neg hno]
        by_cases hs : s.body = []
        · have hnone : kindChosen c s = none :=
            kindChosen_eq_none_iff.2 ⟨hm ▸ hhead, fun h => h.2.2 hs⟩
          rw [hnone, none_or, kindChosen_getD_iff]
          simp [hno, hempty, hs]
        · rw [kindChosen_of_posts ⟨hu, hm ▸ hcarries, hs⟩]
          simp [hempty, hs]
      · have hasked : BodyAsked req := ⟨hcarries, hempty⟩
        rw [if_pos hasked, kindChosen_of_posts ⟨hu, hm ▸ hcarries, hb hempty⟩]
        simp [hasked, hempty]
    · have hno : ¬BodyAsked req := fun h => hcarries h.1
      have hnone : kindChosen c s = none :=
        kindChosen_eq_none_iff.2 ⟨hm ▸ hhead, fun h => hcarries (hm ▸ h.2.1)⟩
      rw [if_neg hcarries, if_neg hno, hnone, none_or, kindChosen_getD_iff]
      simp [hno]

end Kinds

/-- The settings of curl when the request of an interceptor has been taken over. -/
def given (curl : CurlLibrary) (net : TaskServices) (c : TaskConfig) (r₀ : HttpClientRequest)
    (req : InterceptorRequest) : List Setting :=
  (convertInterceptorReqToRequestContext curl net c req (constructed curl net c r₀)).settings

section Result

variable {curl : CurlLibrary} (net : TaskServices) (c : TaskConfig) (hcurl : curl.TakesAll)
  (r₀ : HttpClientRequest) (req : InterceptorRequest)
include hcurl

theorem constructed_owner :
    (constructed curl net c r₀).owner = applyExtraData net.json c.extraData r₀ :=
  (setCurlOptions_leaves net c hcurl _).1

theorem latest_converted (ho : describesRequest o = true) :
    latest o (given curl net c r₀ req) =
      (describedBy c (parseHeaders (rawHeaderOf req.headers))
        (resent net c req (constructed curl net c r₀).owner) o).or
        (describedBy c r₀.headers (constructed curl net c r₀).owner o) := by
  have hold : latest o (constructed curl net c r₀).settings =
      describedBy c r₀.headers (constructed curl net c r₀).owner o := by
    rw [constructed_owner net c hcurl, constructed, latest_setCurlOptions net c hcurl ho]
    exact or_none
  rw [given, convertInterceptorReqToRequestContext, latest_setCurlOptions net c hcurl ho, hold]
  rfl

theorem url_given_iff :
    latest .url (given curl net c r₀ req) = some (.text req.url) ↔
      UrlKept net c req (constructed curl net c r₀).owner := by
  rw [latest_converted net c hcurl r₀ req rfl, ← resent_url_iff]
  simp [describedBy]

theorem headers_given_iff {fields : List HeaderField}
    (hfields : req.headers = fields.map HeaderField.line) :
    latest .httpHeader (given curl net c r₀ req) = some (.slist (headerLines (headerMap fields))) ↔
      ∀ f ∈ fields, f.value ≠ [] := by
  rw [latest_converted net c hcurl r₀ req rfl, ← headerLines_parseHeaders_iff, hfields]
  simp [describedBy]

section

variable (hu : c.type ≠ .upload)
include hu

theorem requestKind_converted :
    requestKind (given curl net c r₀ req) =
      ((kindChosen c (resent net c req (constructed curl net c r₀).owner)).or
        (kindChosen c (constructed curl net c r₀).owner)).getD .get := by
  have hold : lastKind (constructed curl net c r₀).settings =
      kindChosen c (constructed curl net c r₀).owner := by
    rw [constructed_owner net c hcurl, constructed, lastKind_setCurlOptions net c hcurl hu]
    exact or_none
  rw [requestKind, given, convertInterceptorReqToRequestContext,
    lastKind_setCurlOptions net c hcurl hu, hold]
  rfl

theorem method_given_iff :
    latest .customRequest (given curl net c r₀ req) =
        (if req.method = [] then none else some (.text req.method)) ↔
      MethodKept req (constructed curl net c r₀).owner := by
  rw [latest_converted net c hcurl r₀ req rfl, ← methodLeft_eq_iff]
  simp only [describedBy, resent_method, ne_eq, hu, not_false_eq_true, true_and]
  generalize (constructed curl net c r₀).owner = r
  by_cases hm : req.method = []
  · have hleft : methodLeft req r = r.method := if_neg fun h => h.1 hm
    grind
  · by_cases hl : methodLeft req r = []
    · have hr : r.method = [] := by
        grind [methodLeft]
      simp [hm, hl, hr, Ne.symm hm]
    · simp [hm, hl]

theorem body_given_iff (hm : MethodKept req (constructed curl net c r₀).owner) :
    (requestKind (given curl net c r₀ req) =
        (if req.method = httpMethodHead then .head
          else if BodyAsked req then .post else .get) ∧
      (BodyAsked req →
        latest .postFields (given curl net c r₀ req) = some (.bytes req.body) ∧
        latest .postFieldSize (given curl net c r₀ req) = some (.long req.body.length))) ↔
      BodyKept c req (constructed curl net c r₀).owner := by
  rw [requestKind_converted net c hcurl r₀ req hu, latest_converted net c hcurl r₀ req rfl,
    latest_converted net c hcurl r₀ req rfl]
  generalize (constructed curl net c r₀).owner = r at hm ⊢
  have hleft : methodLeft req r = req.method := methodLeft_eq_iff.2 hm
  have hmethod : (resent net c req r).method = req.method := (resent_method net c req r).trans hleft
  have hsent : req.body ≠ [] → (resent net c req r).body ≠ [] := by
    intro hb
    rw [resent_body, if_pos hb]
    exact List.append_ne_nil_of_left_ne_nil hb _
  have hfields : (BodyAsked req → (describedBy c (parseHeaders (rawHeaderOf req.headers))
        (resent net c req r) .postFields).or (describedBy c r₀.headers r .postFields) =
        some (.bytes req.body) ∧
      (describedBy c (parseHeaders (rawHeaderOf req.headers))
        (resent net c req r) .postFieldSize).or (describedBy c r₀.headers r .postFieldSize) =
        some (.long req.body.length)) ↔
      (BodyAsked req → (resent net c req r).body = req.body) := by
    refine imp_congr_right fun hasked => ?_
    have hposts : Posts c (resent net c req r) := ⟨hu, hmethod ▸ hasked.1, hsent hasked.2⟩
    simp only [describedBy, if_pos hposts, some_or, some.injEq,
      CurlValue.bytes.injEq, CurlValue.long.injEq]
    exact ⟨And.left, fun h => ⟨h, by rw [h]⟩⟩
  rw [hfields, kind_and_body_iff hu hmethod hsent, resent_body_iff hleft, BodyKept]
  simp only [Posts, ne_eq, hu, not_false_eq_true, true_and]
  grind

end

/-- The interceptor changes nothing: the headers are read again and the extra data is added a
second time. -/
theorem unchanged_iff :
    (convertInterceptorReqToRequestContext curl net c
        (convertRequestContextToInterceptorReq (constructed curl net c r₀).owner)
        (constructed curl net c r₀)).owner = (constructed curl net c r₀).owner ↔
      (∀ header ∈ (constructed curl net c r₀).owner.headers.toList, Rereadable header) ∧
        AddsNothing net.json c.extraData (constructed curl net c r₀).owner := by
  rw [convertInterceptorReqToRequestContext, (setCurlOptions_leaves net c hcurl _).1]
  generalize (constructed curl net c r₀).owner = r
  rw [interceptedRequest_self, ← reread_eq_iff]
  constructor
  · intro heq
    have hadds : AddsNothing net.json c.extraData { r with headers := reread r.headers } :=
      addsNothing_of_eq (congrArg (fun q => q.url) heq) (congrArg (fun q => q.body) heq)
    rw [applyExtraData_eq_self hadds] at heq
    exact ⟨congrArg (fun q => q.headers) heq, hadds⟩
  · rintro ⟨hheaders, hadds⟩
    rw [hheaders]
    exact applyExtraData_eq_self hadds

/-- Curl is given the request of the interceptor if and only if its fields take the place of those
that were there, and an interceptor that changes nothing leaves the request as it was if and only
if its headers are read back and the extra data were added before. -/
theorem intercepted_request_iff :
    (∀ (req : InterceptorRequest) (fields : List HeaderField),
      req.headers = fields.map HeaderField.line →
        (GivesIntercepted c req fields (convertInterceptorReqToRequestContext curl net c req
            (constructed curl net c r₀)).settings ↔
          InterceptionKept c req fields net (constructed curl net c r₀).owner)) ∧
    ((convertInterceptorReqToRequestContext curl net c
        (convertRequestContextToInterceptorReq (constructed curl net c r₀).owner)
        (constructed curl net c r₀)).owner = (constructed curl net c r₀).owner ↔
      (∀ header ∈ (constructed curl net c r₀).owner.headers.toList, Rereadable header) ∧
        AddsNothing net.json c.extraData (constructed curl net c r₀).owner) := by
  refine ⟨fun req fields hfields => ?_, unchanged_iff net c hcurl r₀⟩
  constructor
  · intro h
    have hmethod : c.type ≠ .upload → MethodKept req (constructed curl net c r₀).owner :=
      fun hu => (method_given_iff net c hcurl r₀ req hu).1 (h.method hu)
    refine ⟨?_, ?_, hmethod, ?_⟩
    · exact (url_given_iff net c hcurl r₀ req).1 h.url
    · exact (headers_given_iff net c hcurl r₀ req hfields).1 h.headers
    · intro hu
      exact (body_given_iff net c hcurl r₀ req hu (hmethod hu)).1 ⟨h.kind hu, h.body hu⟩
  · intro h
    have hbody := fun hu => (body_given_iff net c hcurl r₀ req hu (h.method hu)).2 (h.body hu)
    refine ⟨?_, ?_, ?_, fun hu => (hbody hu).1, fun hu => (hbody hu).2⟩
    · exact (url_given_iff net c hcurl r₀ req).2 h.url
    · exact (headers_given_iff net c hcurl r₀ req hfields).2 h.headers
    · intro hu
      exact (method_given_iff net c hcurl r₀ req hu).2 (h.method hu)

end Result

/-- A header an interceptor adds. -/
def markField : HeaderField where
  name := ascii "mark"
  value := ascii "1"
  name_token := by decide +kernel
  value_text := by decide +kernel

/-- What an interceptor makes of a GET: a POST with a body and a header. -/
def markedPost : InterceptorRequest where
  url := ascii "http://a/"
  method := httpMethodPost
  body := ascii "b"
  headers := [markField.line]

theorem markedPost_given :
    GivesIntercepted {} markedPost [markField]
      (convertInterceptorReqToRequestContext obligingCurl {} {} markedPost
        (constructed obligingCurl {} {} { url := ascii "http://b/" })).settings := by
  apply ((intercepted_request_iff {} {} obligingCurl_takesAll
    { url := ascii "http://b/" }).1 markedPost [markField] rfl).2
  rw [constructed_owner {} {} obligingCurl_takesAll, applyExtraData_of_absent _ _ _ rfl]
  refine ⟨?_, ?_, fun _ => ⟨by decide, by decide⟩, fun _ => ?_⟩
  · rw [UrlKept, if_neg (by decide)]
    decide
  · intro f hf
    rw [List.mem_singleton.1 hf]
    decide
  · rw [BodyKept, if_neg (by decide), if_pos (by decide)]
    decide

/-- A form that is sent a second time behind itself. -/
def formTask : TaskConfig where
  extraData := { data := ascii "a=1", dataType := .string }

/-- No interceptor has changed anything, and the body is there twice. -/
theorem unchanged_body_doubled :
    (convertInterceptorReqToRequestContext obligingCurl {} formTask
      (convertRequestContextToInterceptorReq
        (constructed obligingCurl {} formTask
          (HttpClientRequest.setMethod {} httpMethodPost)).owner)
      (constructed obligingCurl {} formTask
        (HttpClientRequest.setMethod {} httpMethodPost))).owner.body = ascii "a=1a=1" ∧
    (constructed obligingCurl {} formTask
      (HttpClientRequest.setMethod {} httpMethodPost)).owner.body = ascii "a=1" := by
  decide +kernel

end Netstack.HttpClient
