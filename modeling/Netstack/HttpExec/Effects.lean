import Netstack.HttpExec.Pipeline

/-!
# What the stages of a request can do

A stage edits the context and then passes it on at most once. `Edited` is a change of the
context, a `Route` is how it is passed on, and `Leads` says of each stage on which route it
leads, by the settings of the request and by what the stage meets.
-/

namespace Netstack.HttpExec

open Foundation Answers

/-- A holder on the way of the request, before anything completes it. -/
def Holder.isStage : Holder → Bool
  | .caller => false
  | .completing => false
  | .uvCompletion => false
  | .promise stage => decide (stage ≠ .finalResponse)
  | _ => true

/-- A holder that a stage on the way of the request may pass the context on to. -/
def Holder.isNext (h : Holder) : Bool :=
  h.isStage || decide (h = .completing) || decide (h = .uvCompletion)

def SetOptionResult.isOk : SetOptionResult → Bool
  | .ok => true
  | _ => false

def GlobalInterceptor.passes : GlobalInterceptor → Bool
  | .disabled => true
  | .unmodified => true
  | .modified _ options => options.isOk
  | _ => false

/-- Nothing fails between the request and the driver. -/
def Answers.reachesCurl (a : Answers) : Bool :=
  a.curlEasyInit && decide (a.privateOption = curleOk) && a.setOption.isOk &&
    a.globalInterceptor.passes

/-- The cache answers the request or the driver gets it. -/
def Answers.fetches (c : RequestSettings) (a : Answers) : Bool :=
  c.isUsingCache && a.readResponseFromCache || a.reachesCurl

section NewUrl

/-- The URL that an interceptor writes to the context. -/
def Settlement.newUrl : Settlement → Option Bytes
  | .continued url => some (url.getD [])
  | _ => none

def Invocation.newUrl : Invocation → Option Bytes
  | .settled settlement => settlement.newUrl
  | _ => none

def GlobalInterceptor.newUrl : GlobalInterceptor → Option Bytes
  | .modified url _ => if url ≠ [] then some url else none
  | _ => none

/-- The location that a redirect goes to if the interceptor lets it pass. -/
def Settlement.location (m : CurlMessage) : Settlement → Option Bytes
  | .continued url => some (url.getD (m.redirectUrl.getD []))
  | _ => none

def Invocation.location (m : CurlMessage) : Invocation → Option Bytes
  | .settled settlement => settlement.location m
  | _ => none

/-- The URL that curl may get next after a promise of this stage has settled. -/
def Settlement.written (settlement : Settlement) : Stage → Option Bytes
  | .initialRequest => settlement.newUrl
  | .connectNetwork => settlement.newUrl
  | .redirection m => settlement.location m
  | _ => none

end NewUrl

/-- How a stage passes the context on: not at all, to another stage, to the completion
callback, with a URL that nobody requests any more, or to the end of a transfer. -/
inductive Route where
  | dropped
  | given (h : Holder) (hstage : h.isStage = true)
  | enqueued (answered : Bool) (url : Option Bytes)
  | completed (m : CurlMessage)

namespace Route

def follow : Route → Request → Request
  | .dropped, s => s
  | .given h _, s => s.give h
  | .enqueued _ none, s => s.enqueueCallback
  | .enqueued _ (some url), s => (s.onContext (·.setUrl url)).enqueueCallback
  | .completed m, s => s.handleCurlData m

/-- A request that goes this way was answered by the cache or by an interceptor. -/
def isAnswered : Route → Bool
  | .enqueued answered _ => answered
  | .given (.promise .cacheChecked) _ => true
  | _ => false

def holder : Route → Option Holder
  | .dropped => none
  | .given h _ => some h
  | .enqueued _ _ => some .uvCompletion
  | .completed _ => some .completing

end Route

section Routes

variable (c : RequestSettings) (a : Answers) (m : CurlMessage)

/-- A request that reached the driver. -/
def queued : Route :=
  if c.interceptor.isConnectNetworkInterceptor then .given .uvConnectNetwork rfl
  else .given .incoming rfl

def requestRoute (failed : Route) : Route := if a.reachesCurl then queued c else failed

/-- The routes of an interceptor, by how far the call of it gets. -/
def invokeRoute (stage : Stage) (hstage : (Holder.promise stage).isStage = true)
    (noContext thenUnreadable after : Route) (settle : Settlement → Route) : Invocation → Route
  | .noRequestContext => noContext
  | .noResponseContext => noContext
  | .notCalled => after
  | .thenUnreadable => thenUnreadable
  | .thenFailed => after
  | .settled settlement => settle settlement
  | .pending => .given (.promise stage) hstage

def cacheRoute : Invocation → Route :=
  invokeRoute .cacheChecked rfl .dropped .dropped (.enqueued true none)
    fun settlement => .enqueued true settlement.newUrl

def postRoute : Route :=
  if c.isUsingCache && a.readResponseFromCache then
    if c.interceptor.isCacheCheckedInterceptor then cacheRoute a.cacheChecked
    else .enqueued true none
  else requestRoute c a (.enqueued false none)

def initialSettleRoute : Settlement → Route
  | .blocked _ => .enqueued true none
  | _ => postRoute c a

def initialRoute : Invocation → Route :=
  invokeRoute .initialRequest rfl .dropped .dropped (postRoute c a) (initialSettleRoute c a)

/-- The route of a request that is executed. -/
def executionRoute : Route :=
  if c.interceptor.isInitialRequestInterceptor then initialRoute c a a.initialRequest
  else postRoute c a

def connectSettleRoute : Settlement → Route
  | .blocked _ => .enqueued true none
  | _ => .given .incoming rfl

def connectRoute : Invocation → Route :=
  invokeRoute .connectNetwork rfl .dropped (.given .incoming rfl) (.given .incoming rfl)
    connectSettleRoute

def redirectionSettleRoute : Settlement → Route
  | .continued _ => requestRoute c a .dropped
  | _ => .completed m

def redirectionRoute : Invocation → Route :=
  invokeRoute (.redirection m) rfl .dropped (.completed m) (.completed m)
    (redirectionSettleRoute c a m)

def acceptRoute (added : Bool) : Route := if added then .given .curl rfl else .dropped

/-- The route of a message, by the context that it is for. -/
def messageRoute (c : RequestContext) : Route :=
  if m.msg = .done then
    if c.seesRedirect m then
      if c.isReachRedirectLimit = false then .given (.uvRedirection m) rfl
      else .completed { m with result := curleTooManyRedirects }
    else .completed m
  else .given .curl rfl

/-- The routes of a promise that settles, by its stage. -/
def settleRoute (answered : Bool) (settlement : Settlement) : Stage → Route
  | .initialRequest => initialSettleRoute c a settlement
  | .cacheChecked => .enqueued answered settlement.newUrl
  | .connectNetwork => connectSettleRoute settlement
  | .redirection m => redirectionSettleRoute c a m settlement
  | .finalResponse => .dropped

theorem queued_isAnswered : (queued c).isAnswered = false := by
  rw [queued]
  split_ifs <;> rfl

end Routes

namespace Request

/-- Nothing changed but the URL, the response and the codes of the context, the URLs that
curl was given, and that the request may have been answered. -/
structure Edits (s t : Request) : Prop where
  settings : t.context.settings = s.context.settings
  isRefused : t.context.isRefused = s.context.isRefused
  needsAsyncWork : t.context.needsAsyncWork = s.context.needsAsyncWork
  execOK : t.context.execOK = s.context.execOK
  holder : t.holder = s.holder
  asyncWork : t.asyncWork = s.asyncWork
  jsThread : t.jsThread = s.jsThread
  handedOver : t.handedOver = s.handedOver
  syncComplete : t.syncComplete = s.syncComplete
  verdict : t.verdict = s.verdict
  answered : s.answered = true → t.answered = true
  outcome : t.outcome = s.outcome

/-- A context that nobody had was edited and passed on, or dropped. -/
structure Forwards (s t : Request) : Prop where
  settings : t.context.settings = s.context.settings
  isRefused : t.context.isRefused = s.context.isRefused
  needsAsyncWork : t.context.needsAsyncWork = s.context.needsAsyncWork
  asyncWork : t.asyncWork = s.asyncWork
  jsThread : t.jsThread = s.jsThread
  syncComplete : t.syncComplete = s.syncComplete
  outcome : t.outcome = s.outcome
  answered : s.answered = true → t.answered = true
  next : ∀ h ∈ t.holder, h.isNext = true
  handedOver : t.handedOver = s.handedOver + if t.holder = some .uvCompletion then 1 else 0
  flag : t.context.execOK = s.context.execOK ∧ t.verdict = s.verdict ∧
      t.holder ≠ some .completing ∨
    t.verdict = some t.context.execOK ∧ t.holder = some .completing

variable {ok : Bytes → Prop} {s t u : Request} {c : RequestContext} {url : Bytes}

/-- A change of the context in which every URL that replaces its own is `ok` as curl gets it. -/
inductive Edited (ok : Bytes → Prop) (s : Request) : Request → Prop
  | refl : Edited ok s s
  | alter {t : Request} {c : RequestContext} (h : Edited ok s t) (hc : t.context.Alters c) :
      Edited ok s { t with context := c }
  | setUrl {t : Request} (h : Edited ok s t) (url : Bytes) (hurl : ok (cString url)) :
      Edited ok s (t.onContext (·.setUrl url))
  | redirectTo {t : Request} (h : Edited ok s t) (url : Bytes) (hurl : ok (cString url)) :
      Edited ok s (t.onContext (·.redirectTo url))
  | passUrl {t : Request} (h : Edited ok s t) : Edited ok s t.passUrl
  | answer {t : Request} (h : Edited ok s t) : Edited ok s { t with answered := true }

namespace Edited

theorem trans (h : Edited ok s t) (h' : Edited ok t u) : Edited ok s u := by
  induction h' with
  | refl => exact h
  | alter _ hc ih => exact ih.alter hc
  | setUrl _ url hurl ih => exact ih.setUrl url hurl
  | redirectTo _ url hurl ih => exact ih.redirectTo url hurl
  | passUrl _ ih => exact ih.passUrl
  | answer _ ih => exact ih.answer

theorem edits (h : Edited ok s t) : s.Edits t := by
  induction h with
  | refl => exact ⟨rfl, rfl, rfl, rfl, rfl, rfl, rfl, rfl, rfl, rfl, id, rfl⟩
  | alter _ hc ih =>
    exact { ih with
      settings := hc.settings.trans ih.settings
      isRefused := hc.isRefused.trans ih.isRefused
      needsAsyncWork := hc.needsAsyncWork.trans ih.needsAsyncWork
      execOK := hc.execOK.trans ih.execOK }
  | setUrl _ _ _ ih => exact { ih with }
  | redirectTo _ _ _ ih => exact { ih with }
  | passUrl _ ih => exact { ih with }
  | answer _ ih => exact { ih with answered := fun _ => rfl }

theorem setErrorCode (h : Edited ok s t) (code : Nat) :
    Edited ok s (t.onContext (·.setErrorCode code)) :=
  h.alter ⟨rfl, rfl, rfl, rfl, rfl⟩

theorem setBlockedResponse (h : Edited ok s t) (code : Option Nat) :
    Edited ok s (t.setBlockedResponse code) := by
  cases code with
  | none => exact h
  | some code => exact h.alter ⟨rfl, rfl, rfl, rfl, rfl⟩

theorem setOption (h : Edited ok s t) (result : SetOptionResult) :
    Edited ok s (t.setOption result).2 := by
  cases result with
  | ok => exact h.passUrl
  | failsBeforeUrl code => exact h.setErrorCode code
  | failsAfterUrl code => exact h.passUrl.setErrorCode code

theorem globalRequestInterceptorCheck (h : Edited ok s t) {interceptor : GlobalInterceptor}
    (hglobal : ∀ u ∈ interceptor.newUrl, ok (cString u)) :
    Edited ok s (t.globalRequestInterceptorCheck interceptor).2 := by
  cases interceptor with
  | aborted => exact h.alter ⟨rfl, rfl, rfl, rfl, rfl⟩
  | modified url options =>
    simp only [Request.globalRequestInterceptorCheck, convertInterceptorReqToRequestContext]
    split_ifs with hurl
    · exact (h.setUrl url (hglobal url (if_pos hurl))).setOption options
    · exact h.setOption options
  | _ => exact h

end Edited

/-- The context is edited and passed on by the route. -/
def Leads (ok : Bytes → Prop) (s : Request) (route : Route) (t : Request) : Prop :=
  ∃ u, Edited ok s u ∧ (route.isAnswered = true → u.answered = true) ∧ route.follow u = t

variable {route : Route}

theorem Edited.leads (h : Edited ok s u) (route : Route)
    (hanswered : route.isAnswered = true → u.answered = true) : Leads ok s route (route.follow u) :=
  ⟨u, h, hanswered, rfl⟩

theorem leads_follow (route : Route) (hunanswered : route.isAnswered = false) :
    Leads ok s route (route.follow s) :=
  Edited.refl.leads route (hunanswered ▸ nofun)

theorem Edited.leads_trans (h : Edited ok s t) (h' : Leads ok t route u) : Leads ok s route u := by
  obtain ⟨v, hedited, hanswered, rfl⟩ := h'
  exact ⟨v, h.trans hedited, hanswered, rfl⟩

section Stages

variable {a : Answers} {settlement : Settlement} {invocation : Invocation} {m : CurlMessage}

theorem setOption_fst (result : SetOptionResult) (s : Request) :
    (s.setOption result).1 = result.isOk := by
  cases result <;> rfl

theorem globalRequestInterceptorCheck_fst (interceptor : GlobalInterceptor) (s : Request) :
    (s.globalRequestInterceptorCheck interceptor).1 = interceptor.passes := by
  cases interceptor with
  | modified url options => exact setOption_fst options _
  | _ => rfl

section Invoke

variable {stage : Stage} {hstage : (Holder.promise stage).isStage = true} {reaction : Reaction}
  {noContext thenUnreadable after : Route} {settle : Settlement → Route}

/-- An interceptor leads on the routes that its reactions lead on. -/
theorem invoke_leads (hpending : stage = .cacheChecked → s.answered = true)
    (hnoContext : Leads ok s noContext (reaction.noContext s))
    (hthen : Leads ok s thenUnreadable (reaction.thenUnreadable s))
    (hafter : Leads ok s after (reaction.after s))
    (hsettle : ∀ settlement, invocation = .settled settlement →
      Leads ok s (settle settlement) (reaction.settle settlement s)) :
    Leads ok s (invokeRoute stage hstage noContext thenUnreadable after settle invocation)
      (invoke stage reaction invocation s) := by
  cases invocation with
  | noRequestContext => exact hnoContext
  | noResponseContext => exact hnoContext
  | notCalled => exact hafter
  | thenUnreadable => exact hthen
  | thenFailed => exact hafter
  | settled settlement => exact hsettle settlement rfl
  | pending =>
    refine Edited.refl.leads (.given (.promise stage) hstage) fun hanswered => hpending ?_
    cases stage <;> first | rfl | cases hanswered

end Invoke

theorem settleCacheChecked_leads (settlement : Settlement) (s : Request) :
    Leads ok s (.enqueued s.answered settlement.newUrl) (settleCacheChecked settlement s) := by
  cases settlement with
  | continued url => exact Edited.refl.leads (.enqueued s.answered _) id
  | blocked code =>
    have hedited : Edited ok s (s.setBlockedResponse code) := Edited.refl.setBlockedResponse code
    exact hedited.leads (.enqueued s.answered none) hedited.edits.answered
  | rejected => exact Edited.refl.leads (.enqueued s.answered none) id

theorem cacheCheckedInterceptor_leads (invocation : Invocation) (hanswered : s.answered = true) :
    Leads ok s (cacheRoute invocation) (s.cacheCheckedInterceptor invocation) := by
  refine invoke_leads (fun _ => hanswered) ?_ ?_ ?_ ?_
  · exact leads_follow .dropped rfl
  · exact leads_follow .dropped rfl
  · exact Edited.refl.leads (.enqueued true none) fun _ => hanswered
  · exact fun settlement _ => hanswered ▸ settleCacheChecked_leads settlement s

theorem blockCallback_leads (code : Option Nat) :
    Leads ok s (.enqueued true none) (s.setBlockedResponse code).blockCallback :=
  (Edited.refl.setBlockedResponse code).answer.leads (.enqueued true none) fun _ => rfl

theorem settleConnectNetwork_leads (hurl : ∀ u ∈ settlement.newUrl, ok (cString u)) :
    Leads ok s (connectSettleRoute settlement) (settleConnectNetwork settlement s) := by
  cases settlement with
  | continued url =>
    exact (Edited.refl.setUrl _ (hurl _ rfl)).passUrl.leads (.given .incoming rfl) nofun
  | blocked code => exact blockCallback_leads code
  | rejected => exact leads_follow (.given .incoming rfl) rfl

theorem connectNetworkInterceptor_leads (hurl : ∀ u ∈ invocation.newUrl, ok (cString u)) :
    Leads ok s (connectRoute invocation) (s.connectNetworkInterceptor invocation) := by
  refine invoke_leads nofun ?_ ?_ ?_ ?_
  · exact leads_follow .dropped rfl
  · exact leads_follow (.given .incoming rfl) rfl
  · exact leads_follow (.given .incoming rfl) rfl
  · rintro settlement rfl
    exact settleConnectNetwork_leads hurl

theorem incomingRequestCallback_leads (added : Bool) (s : Request) :
    Leads ok s (acceptRoute added) (s.incomingRequestCallback added) := by
  cases added with
  | false => exact leads_follow .dropped rfl
  | true => exact leads_follow (.given .curl rfl) rfl

theorem checkMultiInfo_leads (m : CurlMessage) (s : Request) :
    Leads ok s (messageRoute m s.context) (s.checkMultiInfo m) := by
  simp only [messageRoute, checkMultiInfo, handleCurlDoneMessage]
  split_ifs
  · exact leads_follow (.given (.uvRedirection m) rfl) rfl
  · exact leads_follow (.completed _) rfl
  · exact leads_follow (.completed m) rfl
  · exact leads_follow (.given .curl rfl) rfl

section Global

variable (hglobal : ∀ u ∈ a.globalInterceptor.newUrl, ok (cString u))
include hglobal

/-- A request that does not reach the driver is left to nobody. -/
theorem requestWithoutCache_spec (s : Request) : ∃ t, Edited ok s t ∧ s.requestWithoutCache a =
      if a.reachesCurl then (true, (queued s.context.settings).follow t) else (false, t) := by
  have hset : Edited ok s (s.setOption a.setOption).2 := Edited.refl.setOption a.setOption
  have hchecked := hset.globalRequestInterceptorCheck hglobal
  simp only [requestWithoutCache, setOption_fst, globalRequestInterceptorCheck_fst]
  by_cases hinit : a.curlEasyInit = false
  · exact ⟨s, .refl, by simp [reachesCurl, hinit]⟩
  by_cases hprivate : a.privateOption ≠ curleOk
  · exact ⟨_, Edited.refl.setErrorCode a.privateOption, by simp [reachesCurl, hinit, hprivate]⟩
  by_cases hok : a.setOption.isOk = false
  · exact ⟨_, hset, by simp [reachesCurl, hinit, hprivate, hok]⟩
  by_cases hpasses : a.globalInterceptor.passes = false
  · exact ⟨_, hchecked, by simp [reachesCurl, hinit, hprivate, hok, hpasses]⟩
  refine ⟨_, hchecked, ?_⟩
  have hreaches : a.reachesCurl = true := by
    rw [Bool.not_eq_false] at hinit hok hpasses
    grind [reachesCurl]
  rw [if_neg hinit, if_neg hprivate, if_neg hok, if_neg hpasses, if_pos hreaches, addCurlHandle,
    executeConnectNetworkInterceptor, hchecked.edits.settings, queued]
  split_ifs <;> rfl

/-- The result says whether the request was fetched. -/
theorem handleInitialRequestPostProcessing_leads (s : Request) :
    (s.handleInitialRequestPostProcessing a).1 = a.fetches s.context.settings ∧
      Leads ok s (postRoute s.context.settings a) (s.handleInitialRequestPostProcessing a).2 := by
  obtain ⟨t, hedited, heq⟩ := requestWithoutCache_spec hglobal s
  simp only [handleInitialRequestPostProcessing, postRoute, requestRoute, heq]
  by_cases hcache : (s.context.settings.isUsingCache && a.readResponseFromCache) = true
  · have hfetches : a.fetches s.context.settings = true := by rw [fetches, hcache, Bool.true_or]
    rw [if_pos hcache, if_pos hcache, hfetches]
    split_ifs
    · exact ⟨rfl, Edited.refl.answer.leads_trans (cacheCheckedInterceptor_leads _ rfl)⟩
    · exact ⟨rfl, Edited.refl.answer.leads (.enqueued true none) fun _ => rfl⟩
  · have hfetches : a.fetches s.context.settings = a.reachesCurl := by
      rw [fetches, eq_false_of_ne_true hcache, Bool.false_or]
    rw [if_neg hcache, if_neg hcache, hfetches]
    cases a.reachesCurl with
    | false => exact ⟨rfl, (hedited.setErrorCode _).leads (.enqueued false none) nofun⟩
    | true => exact ⟨rfl, hedited.leads (queued _) (by rw [queued_isAnswered]; nofun)⟩

theorem settleInitialRequest_leads (hurl : ∀ u ∈ settlement.newUrl, ok (cString u)) :
    Leads ok s (initialSettleRoute s.context.settings a settlement)
      (settleInitialRequest a settlement s) := by
  cases settlement with
  | continued url =>
    exact (Edited.refl.setUrl _ (hurl _ rfl)).leads_trans
      (handleInitialRequestPostProcessing_leads hglobal _).2
  | blocked code => exact blockCallback_leads code
  | rejected => exact (handleInitialRequestPostProcessing_leads hglobal s).2

theorem initialRequestInterceptor_leads (hurl : ∀ u ∈ invocation.newUrl, ok (cString u)) :
    Leads ok s (initialRoute s.context.settings a invocation)
      (s.initialRequestInterceptor a invocation) := by
  refine invoke_leads nofun ?_ ?_ ?_ ?_
  · exact leads_follow .dropped rfl
  · exact leads_follow .dropped rfl
  · exact (handleInitialRequestPostProcessing_leads hglobal s).2
  · rintro settlement rfl
    exact settleInitialRequest_leads hglobal hurl

theorem settleRedirection_leads (hurl : ∀ u ∈ settlement.location m, ok (cString u)) :
    Leads ok s (redirectionSettleRoute s.context.settings a m settlement)
      (settleRedirection m a settlement s) := by
  match settlement with
  | .continued url =>
    obtain ⟨t, hedited, heq⟩ := requestWithoutCache_spec hglobal
      (s.onContext (·.redirectTo (url.getD (m.redirectUrl.getD []))))
    have hedited' := (Edited.refl.redirectTo _ (hurl _ rfl)).trans hedited
    simp only [settleRedirection, handleRedirect, redirectionSettleRoute, requestRoute, heq]
    split_ifs
    · exact hedited'.leads (queued _) (by rw [queued_isAnswered]; nofun)
    · exact hedited'.leads .dropped nofun
  | .blocked (some code) =>
    have halters : s.context.Alters (s.context.blockRedirection code) := ⟨rfl, rfl, rfl, rfl, rfl⟩
    exact (Edited.refl.alter halters).leads (.completed m) nofun
  | .blocked none => exact leads_follow (.completed m) rfl
  | .rejected => exact leads_follow (.completed m) rfl

theorem redirectionInterceptor_leads (hurl : ∀ u ∈ invocation.location m, ok (cString u)) :
    Leads ok s (redirectionRoute s.context.settings a m invocation)
      (s.redirectionInterceptor m a invocation) := by
  rw [redirectionInterceptor]
  split_ifs with hno
  · rw [hno]
    exact leads_follow .dropped rfl
  have halters := s.context.getCurlDataFromHandle_alters { m with msg := .done, result := curleOk }
  refine (Edited.refl.alter halters).leads_trans ?_
  rw [← halters.settings]
  refine invoke_leads nofun ?_ ?_ ?_ ?_
  · exact leads_follow .dropped rfl
  · exact leads_follow (.completed m) rfl
  · exact leads_follow (.completed m) rfl
  · rintro settlement rfl
    exact settleRedirection_leads hglobal hurl

/-- A promise that settles before the final response. -/
theorem settle_leads {stage : Stage} (hstage : stage ≠ .finalResponse)
    (hurl : ∀ u ∈ settlement.written stage, ok (cString u)) :
    Leads ok s (settleRoute s.context.settings a s.answered settlement stage)
      (s.settle a stage settlement) := by
  cases stage with
  | initialRequest => exact settleInitialRequest_leads hglobal hurl
  | cacheChecked => exact settleCacheChecked_leads settlement s
  | connectNetwork => exact settleConnectNetwork_leads hurl
  | redirection m => exact settleRedirection_leads hglobal hurl
  | finalResponse => exact absurd rfl hstage

end Global

/-- The final interceptor changes the context and lets the outcome be reported. -/
theorem settleFinalResponse_spec (settlement : Settlement) (s : Request) :
    ∃ t, s.Edits t ∧ t.curlUrls = s.curlUrls ∧
      settleFinalResponse settlement s = t.finalResponseProcessing := by
  have hrefl : Edited (fun _ => True) s s := .refl
  match settlement with
  | .continued url => exact ⟨_, (hrefl.setUrl (url.getD []) trivial).edits, rfl, rfl⟩
  | .blocked (some code) => exact ⟨_, (hrefl.setBlockedResponse (some code)).edits, rfl, rfl⟩
  | .blocked none => exact ⟨s, hrefl.edits, rfl, rfl⟩
  | .rejected => exact ⟨s, hrefl.edits, rfl, rfl⟩

/-- The completion callback reports the outcome, or waits for the final interceptor. -/
theorem asyncWorkRequestCallback_spec (invocation : Invocation) (s : Request) :
    (∃ t, s.Edits t ∧ t.curlUrls = s.curlUrls ∧
        s.asyncWorkRequestCallback invocation = t.finalResponseProcessing) ∨
      s.asyncWorkRequestCallback invocation = s.give (.promise .finalResponse) := by
  have hrefl : Edited (fun _ => True) s s := .refl
  rw [asyncWorkRequestCallback]
  split_ifs
  · cases invocation with
    | settled settlement => exact Or.inl (settleFinalResponse_spec settlement s)
    | pending => exact Or.inr rfl
    | _ => exact Or.inl ⟨s, hrefl.edits, rfl, rfl⟩
  · exact Or.inl ⟨s, hrefl.edits, rfl, rfl⟩

end Stages

section Forwards

/-- The context was dropped. -/
theorem Forwards.drop (hnone : s.holder = none) : s.Forwards s where
  settings := rfl
  isRefused := rfl
  needsAsyncWork := rfl
  asyncWork := rfl
  jsThread := rfl
  syncComplete := rfl
  outcome := rfl
  answered := id
  next := by rw [hnone]; nofun
  handedOver := by rw [hnone]; rfl
  flag := Or.inl ⟨rfl, rfl, by rw [hnone]; nofun⟩

theorem Forwards.give {h : Holder} (hstage : h.isStage = true) : s.Forwards (s.give h) where
  settings := rfl
  isRefused := rfl
  needsAsyncWork := rfl
  asyncWork := rfl
  jsThread := rfl
  syncComplete := rfl
  outcome := rfl
  answered := id
  next := by rintro _ ⟨⟩; simp [Holder.isNext, hstage]
  handedOver := by
    rw [if_neg]
    · rfl
    · rintro ⟨⟩
      cases hstage
  flag := by
    refine Or.inl ⟨rfl, rfl, ?_⟩
    rintro ⟨⟩
    cases hstage

theorem Forwards.enqueueCallback (hmanager : s.context.settings.hasSharedManager = true) :
    s.Forwards s.enqueueCallback ∧ s.enqueueCallback.holder = some .uvCompletion := by
  rw [Request.enqueueCallback, if_pos hmanager]
  refine ⟨⟨rfl, rfl, rfl, rfl, rfl, rfl, rfl, id, ?_, rfl, Or.inl ⟨rfl, rfl, nofun⟩⟩, rfl⟩
  rintro _ ⟨⟩
  rfl

theorem Forwards.handleCurlData (m : CurlMessage) (s : Request) :
    s.Forwards (s.handleCurlData m) := by
  have halters := s.context.getCurlDataFromHandle_alters m
  refine ⟨halters.settings, halters.isRefused, halters.needsAsyncWork, rfl, rfl, rfl, rfl, id, ?_,
    rfl, Or.inr ⟨rfl, rfl⟩⟩
  rintro _ ⟨⟩
  rfl

theorem Forwards.of_edits (h : s.Edits t) (h' : t.Forwards u) : s.Forwards u where
  settings := h'.settings.trans h.settings
  isRefused := h'.isRefused.trans h.isRefused
  needsAsyncWork := h'.needsAsyncWork.trans h.needsAsyncWork
  asyncWork := h'.asyncWork.trans h.asyncWork
  jsThread := h'.jsThread.trans h.jsThread
  syncComplete := h'.syncComplete.trans h.syncComplete
  outcome := h'.outcome.trans h.outcome
  answered := h'.answered ∘ h.answered
  next := h'.next
  handedOver := by rw [h'.handedOver, h.handedOver]
  flag := by rw [← h.execOK, ← h.verdict]; exact h'.flag

theorem follow_forwards (route : Route) (hmanager : s.context.settings.hasSharedManager = true)
    (hnone : s.holder = none) :
    s.Forwards (route.follow s) ∧ (route.follow s).holder = route.holder := by
  match route with
  | .dropped => exact ⟨.drop hnone, hnone⟩
  | .given h hstage => exact ⟨.give hstage, rfl⟩
  | .enqueued _ none => exact Forwards.enqueueCallback hmanager
  | .enqueued _ (some url) =>
    have hedited : Edited (fun _ => True) s (s.onContext (·.setUrl url)) :=
      Edited.refl.setUrl url trivial
    obtain ⟨hforwards, hholder⟩ :=
      Forwards.enqueueCallback (s := s.onContext (·.setUrl url)) hmanager
    exact ⟨.of_edits hedited.edits hforwards, hholder⟩
  | .completed m => exact ⟨.handleCurlData m s, rfl⟩

/-- The context is with the holder of the route, and answered if the route says so. -/
theorem Leads.forwards (hleads : Leads ok s route t)
    (hmanager : s.context.settings.hasSharedManager = true) (hnone : s.holder = none) :
    s.Forwards t ∧ t.holder = route.holder ∧ (route.isAnswered = true → t.answered = true) := by
  obtain ⟨u, hedited, hanswered, rfl⟩ := hleads
  have hedits := hedited.edits
  obtain ⟨hforwards, hholder⟩ :=
    follow_forwards route (hedits.settings ▸ hmanager) (hedits.holder.trans hnone)
  exact ⟨.of_edits hedits hforwards, hholder, hforwards.answered ∘ hanswered⟩

end Forwards

end Request

end Netstack.HttpExec
