import Netstack.Foundation.Execution
import Netstack.HttpExec.Runs

/-!
# The URLs that curl gets

`ExecRequestCheck` looks at the URL that the caller gave. Later the initial interceptor,
the global C interceptors, the connect interceptor and each intercepted redirect may put
another URL in its place, and every one of them is given to curl without a check.

## Implementation notes

Curl gets the URL as a C string. The check looks at the whole text, so that the two
differ for a URL of the caller with a NUL in it.
-/

namespace Netstack.HttpExec

open Foundation Foundation.Execution

variable (policy : Policy)

/-- A request with these settings passes `ExecRequestCheck` with the URL. -/
def RequestSettings.permits (c : RequestSettings) (url : Bytes) : Bool :=
  (({ settings := c, url := url } : RequestContext).execRequestCheck policy).1

theorem RequestContext.permits_url (c : RequestContext) :
    c.settings.permits policy c.url = (c.execRequestCheck policy).1 :=
  execRequestCheck_congr rfl rfl

/-- A URL that replaces the one of the context passes the check as curl gets it. -/
def RequestSettings.RewriteOk (c : RequestSettings) (url : Option Bytes) : Prop :=
  ∀ u ∈ url, c.permits policy (cString u) = true

namespace Request

/-- Every URL passed with `CURLOPT_URL` satisfies `ExecRequestCheck`. -/
def UrlsPermitted (policy : Policy) (s : Request) : Prop :=
  ∀ u ∈ s.curlUrls, s.context.settings.permits policy u = true

end Request

/-- What a step has to meet for curl to get permitted URLs only: interceptors and servers
choose such URLs themselves. -/
def RewritesOk (s : Request) (e : Event) : Prop :=
  let c := s.context.settings
  match e with
  | .call a =>
    s.Admits policy →
      (c.interceptor.isInitialRequestInterceptor = true →
          c.RewriteOk policy a.initialRequest.newUrl) ∧
        c.RewriteOk policy a.globalInterceptor.newUrl
  | .intercept invocation a =>
    match s.holder with
    | some .uvConnectNetwork => c.RewriteOk policy invocation.newUrl
    | some (.uvRedirection m) =>
      c.RewriteOk policy (invocation.location m) ∧ c.RewriteOk policy a.globalInterceptor.newUrl
    | _ => True
  | .settle settlement a =>
    match s.holder with
    | some (.promise .initialRequest) =>
      c.RewriteOk policy settlement.newUrl ∧ c.RewriteOk policy a.globalInterceptor.newUrl
    | some (.promise .connectNetwork) => c.RewriteOk policy settlement.newUrl
    | some (.promise (.redirection m)) =>
      c.RewriteOk policy (settlement.location m) ∧ c.RewriteOk policy a.globalInterceptor.newUrl
    | _ => True
  | _ => True

namespace Request

/-- The URLs given to curl and the one that it may get next are permitted. -/
structure Screened (policy : Policy) (s : Request) : Prop where
  sent : s.UrlsPermitted policy
  url : s.context.settings.permits policy (cString s.context.url) = true

/-- A context that was passed on is screened, or goes to the completion callback. The
interceptor of cached answers may have changed its URL, but nobody requests it then. -/
structure Cleared (policy : Policy) (s : Request) : Prop where
  sent : s.UrlsPermitted policy
  url : s.holder ≠ some .uvCompletion →
    s.context.settings.permits policy (cString s.context.url) = true

variable {policy : Policy} {s t : Request} {route : Route}

/-- The URLs of a context that are permitted replace each other. -/
abbrev Permits (policy : Policy) (s : Request) (url : Bytes) : Prop :=
  s.context.settings.permits policy url = true

theorem Edited.screened (hedited : Edited (s.Permits policy) s t) (h : s.Screened policy) :
    t.Screened policy := by
  induction hedited with
  | refl => exact h
  | alter _ hc ih =>
    refine ⟨fun u hu => ?_, ?_⟩
    · exact (congrArg (·.permits policy u) hc.settings).trans (ih.sent u hu)
    · rw [hc.settings, hc.url]
      exact ih.url
  | setUrl hedited url hurl ih => exact ⟨ih.sent, hedited.edits.settings ▸ hurl⟩
  | redirectTo hedited url hurl ih =>
    refine ⟨ih.sent, ?_⟩
    change RequestSettings.permits policy _ (cString (cString url)) = true
    rw [cString_of_notMem (zero_notMem_cString url)]
    exact hedited.edits.settings ▸ hurl
  | passUrl _ ih =>
    refine ⟨fun u hu => ?_, ih.url⟩
    obtain hu | hu := List.mem_append.mp hu
    · exact ih.sent u hu
    · obtain rfl := List.mem_singleton.mp hu
      exact ih.url
  | answer _ ih => exact ⟨ih.sent, ih.url⟩

theorem Leads.cleared (hleads : Leads (s.Permits policy) s route t) (h : s.Screened policy)
    (hmanager : s.context.settings.hasSharedManager = true) : t.Cleared policy := by
  obtain ⟨u, hedited, -, rfl⟩ := hleads
  obtain ⟨hsent, hurl⟩ := hedited.screened h
  have hmanager' : u.context.settings.hasSharedManager = true := hedited.edits.settings ▸ hmanager
  match route with
  | .dropped => exact ⟨hsent, fun _ => hurl⟩
  | .given h hstage => exact ⟨hsent, fun _ => hurl⟩
  | .enqueued _ none =>
    rw [Route.follow, enqueueCallback, if_pos hmanager']
    exact ⟨hsent, fun hne => absurd rfl hne⟩
  | .enqueued _ (some url) =>
    rw [Route.follow, enqueueCallback, if_pos (by exact hmanager')]
    exact ⟨hsent, fun hne => absurd rfl hne⟩
  | .completed m =>
    have halters := u.context.getCurlDataFromHandle_alters m
    obtain ⟨hsent, hurl⟩ := (hedited.alter halters).screened h
    exact ⟨hsent, fun _ => hurl⟩

/-- What holds in every state of a run: the URL of a context on its way is permitted, and
the caller's own URL is a C string. -/
structure Guarded (policy : Policy) (s : Request) : Prop where
  sent : s.UrlsPermitted policy
  caller : s.holder = some .caller → (0 : UInt8) ∉ s.context.url
  url : ∀ h ∈ s.holder, h ≠ .caller → h.isHandedOver = false →
    s.context.settings.permits policy (cString s.context.url) = true

namespace Guarded

theorem take (hguarded : s.Guarded policy) {h : Holder} (hholder : s.holder = some h)
    (hcaller : h ≠ .caller) (hbefore : h.isHandedOver = false) : s.take.Screened policy :=
  ⟨hguarded.sent, hguarded.url h hholder hcaller hbefore⟩

/-- A stage took the context and passed it on. -/
theorem of_leads (hscreened : s.take.Screened policy)
    (hmanager : s.context.settings.hasSharedManager = true)
    (hleads : Leads (s.take.Permits policy) s.take route t) {j : JsThread} {b : Bool} :
    ({ t with jsThread := j, handlerCalled := b } : Request).Guarded policy where
  sent := (hleads.cleared hscreened hmanager).sent
  caller heq := by cases (hleads.forwards hmanager rfl).1.next _ heq
  url h hh _ hbefore := by
    apply (hleads.cleared hscreened hmanager).url
    intro heq
    obtain rfl := Option.some.inj (heq.symm.trans hh)
    cases hbefore

/-- A stage that does not run on behalf of the caller took the context and passed it on. -/
theorem passedOn (hguarded : s.Guarded policy) (htracks : s.Tracks policy) {h : Holder}
    (hholder : s.holder = some h) (hcaller : h ≠ .caller) (hbefore : h.isHandedOver = false)
    (hleads : Leads (s.take.Permits policy) s.take route t) : t.Guarded policy :=
  of_leads (hguarded.take hholder hcaller hbefore) (htracks.passed h hholder hcaller).1 hleads

variable (hguarded : s.Guarded policy)
include hguarded

/-- Nothing was requested, and the context is with nobody or on its way to be deleted. -/
theorem ended (hsettings : t.context.settings = s.context.settings)
    (hurls : t.curlUrls = s.curlUrls) (hover : ∀ h ∈ t.holder, h.isHandedOver = true) :
    t.Guarded policy where
  sent := by
    rw [UrlsPermitted, hurls, hsettings]
    exact hguarded.sent
  caller heq := by cases hover _ heq
  url h hh _ hbefore := absurd (hbefore.symm.trans (hover h hh)) Bool.noConfusion

/-- The requesting thread goes on. -/
theorem leaveWrapper : s.leaveWrapper.Guarded policy := by
  simp only [Request.leaveWrapper]
  split_ifs
  · exact hguarded.ended rfl rfl (by rintro _ ⟨⟩)
  · exact hguarded.ended rfl rfl (by rintro _ ⟨⟩)
  · exact ⟨hguarded.sent, hguarded.caller, hguarded.url⟩
  · exact ⟨hguarded.sent, hguarded.caller, hguarded.url⟩

/-- An admitted request of the caller is screened. -/
theorem admitted (hholder : s.holder = some .caller)
    (hadmits : s.Admits policy) : s.take.Screened policy where
  sent := hguarded.sent
  url := by
    change s.context.settings.permits policy (cString s.context.url) = true
    rw [cString_of_notMem (hguarded.caller hholder), RequestContext.permits_url]
    exact hadmits.passed

theorem call (htracks : s.Tracks policy)
    (hjs : s.jsThread = .calling) (a : Answers) (hok : RewritesOk policy s (.call a)) :
    (s.call policy a).Guarded policy := by
  have hholder := htracks.calling hjs
  rw [Request.call]
  split_ifs with hparse hwait
  · exact hguarded.ended rfl rfl (by rintro _ ⟨⟩)
  · exact leaveWrapper (s := s.onContext (·.setErrorCode parseErrorCode))
      ⟨hguarded.sent, hguarded.caller, hguarded.url⟩
  · by_cases hadmits : s.Admits policy
    · obtain ⟨hinitial, hglobal⟩ := hok hadmits
      have hscreened := hguarded.admitted hholder hadmits
      exact of_leads hscreened hadmits.manager (execRequest_leads a hadmits hinitial hglobal)
    · obtain ⟨hsettings, hurl, -⟩ := s.context.execRequestCheck_keeps policy
      rw [execRequest_refused a hadmits]
      refine ⟨fun u hu => ?_, fun heq => ?_, ?_⟩
      · exact (congrArg (·.permits policy u) hsettings).trans (hguarded.sent u hu)
      · exact hurl.symm ▸ hguarded.caller heq
      grind

theorem reported (hedits : s.take.Edits t)
    (hurls : t.curlUrls = s.curlUrls) : t.finalResponseProcessing.Guarded policy := by
  refine hguarded.ended hedits.settings hurls fun h hh => ?_
  cases hedits.holder.symm.trans hh

/-- The promise of an interceptor settles. -/
theorem settle (htracks : s.Tracks policy) {stage : Stage}
    (hholder : s.holder = some (.promise stage)) (settlement : Settlement) (a : Answers)
    (hok : RewritesOk policy s (.settle settlement a)) :
    (s.take.settle a stage settlement).Guarded policy := by
  by_cases hstage : stage = .finalResponse
  · obtain ⟨u, hedits, hurls, heq⟩ := settleFinalResponse_spec settlement s.take
    rw [hstage, Request.settle, heq]
    exact hguarded.reported hedits hurls
  have hpassed {route : Route} {t : Request}
      (hleads : Leads (s.take.Permits policy) s.take route t) : t.Guarded policy :=
    hguarded.passedOn htracks hholder Holder.noConfusion (decide_eq_false hstage) hleads
  simp only [RewritesOk, hholder] at hok
  cases stage with
  | initialRequest => exact hpassed (settleInitialRequest_leads hok.2 hok.1)
  | cacheChecked => exact hpassed (settleCacheChecked_leads settlement s.take)
  | connectNetwork => exact hpassed (settleConnectNetwork_leads hok)
  | redirection m => exact hpassed (settleRedirection_leads hok.2 hok.1)
  | finalResponse => exact absurd rfl hstage

theorem step {e : Event} (htracks : s.Tracks policy)
    (hok : RewritesOk policy s e) (h : s.Step policy e t) : t.Guarded policy := by
  cases h with
  | call a hjs => exact hguarded.call htracks hjs a hok
  | storeSync r hjs hwait hdone => exact hguarded.ended rfl rfl (by rintro _ ⟨⟩)
  | storeAsync r hjs hasync =>
    exact leaveWrapper (s := s.onContext (·.setExecOK r))
      ⟨hguarded.sent, hguarded.caller, hguarded.url⟩
  | asyncWork a hjs hwork =>
    obtain ⟨c, hsettings, -, -, heq⟩ := htracks.runAsyncWork_eq hwork a
    rw [heq]
    exact hguarded.ended hsettings rfl (by simp)
  | accept added hholder =>
    exact hguarded.passedOn htracks hholder nofun rfl (incomingRequestCallback_leads added _)
  | message m hholder =>
    exact hguarded.passedOn htracks hholder nofun rfl (checkMultiInfo_leads m _)
  | deliver hholder =>
    rw [passOn]
    split_ifs
    · exact hguarded.ended rfl rfl (by rintro _ ⟨⟩)
    · exact hguarded.passedOn htracks hholder Holder.noConfusion rfl
        (leads_follow (.enqueued false none) rfl)
  | connectNetwork invocation a hjs hholder =>
    simp only [RewritesOk, hholder] at hok
    exact hguarded.passedOn htracks hholder Holder.noConfusion rfl
      (connectNetworkInterceptor_leads hok)
  | redirection m invocation a hjs hholder =>
    simp only [RewritesOk, hholder] at hok
    exact hguarded.passedOn htracks hholder Holder.noConfusion rfl
      (redirectionInterceptor_leads hok.2 hok.1)
  | settle stage settlement a hjs hholder =>
    exact hguarded.settle htracks hholder settlement a hok
  | complete invocation hjs hholder =>
    obtain ⟨u, hedits, hurls, heq⟩ | heq := asyncWorkRequestCallback_spec invocation s.take
    · exact heq ▸ hguarded.reported hedits hurls
    · rw [heq]
      exact hguarded.ended rfl rfl (by rintro _ ⟨⟩; rfl)
  | destroy hjs => exact ⟨hguarded.sent, hguarded.caller, hguarded.url⟩

end Guarded

/-- If the caller's URL is a C string, then in every run whose steps meet the condition
each URL passed with `CURLOPT_URL` satisfies `ExecRequestCheck`. -/
theorem urlsPermitted_throughout (policy : Policy) (settings : RequestSettings) (url : Bytes)
    (hurl : (0 : UInt8) ∉ url) (events : List Event)
    (hmeets : Meets (step policy) (RewritesOk policy) events (start settings url)) :
    Throughout (step policy) (UrlsPermitted policy) events (start settings url) := by
  refine throughout_of_meets (J := fun s => s.Tracks policy ∧ s.Guarded policy) ?_ ?_ events ?_
    hmeets
  · rintro s e t ⟨htracks, hguarded⟩ hok h
    exact ⟨htracks.step (.of_step h), hguarded.step htracks hok (.of_step h)⟩
  · exact fun s hs => hs.2.sent
  · refine ⟨.of_start policy settings url, nofun, fun _ => hurl, ?_⟩
    rintro _ ⟨⟩ hcaller
    exact absurd rfl hcaller

instance (policy : Policy) (s : Request) : Decidable (s.UrlsPermitted policy) :=
  inferInstanceAs (Decidable (∀ u ∈ s.curlUrls, s.context.settings.permits policy u = true))

instance (policy : Policy) (c : RequestSettings) (url : Option Bytes) :
    Decidable (c.RewriteOk policy url) :=
  inferInstanceAs (Decidable (∀ u ∈ url, c.permits policy (cString u) = true))

instance (policy : Policy) (s : Request) (e : Event) : Decidable (RewritesOk policy s e) := by
  induction e using Event.casesOn <;> simp only [RewritesOk] <;> (try split) <;> infer_instance

/-- A policy that allows one host to atomic services and one host no cleartext. -/
def hostPolicy : Policy where
  hasInternetPermission := true
  services :=
    { isAllowedHostname := fun _ _ host => decide (host = ascii "https://a.example")
      isCleartextCfgByComponent := fun _ => some true
      isCleartextPermitted := fun host => some (decide (host ≠ ascii "b.example")) }

/-- A redirect that goes over two hosts with encryption. -/
theorem urlsPermitted_throughout_redirect :
    Throughout (step hostPolicy) (UrlsPermitted hostPolicy)
      [.call {}, .store, .accept true,
        .message { responseCode := 302, redirectUrl := some (ascii "https://b.example/") },
        .intercept (.settled (.continued none)) {}, .accept true]
      (start { interceptor := { isRedirectionInterceptor := true } }
        (ascii "http://a.example/")) :=
  urlsPermitted_throughout _ _ _ (by decide +kernel) _ (by decide +kernel)

/-- The initial interceptor sends an atomic service to a host that is not allowed. The
connect interceptor, a C interceptor and a redirect go on to a host without cleartext.
The check takes a NUL for a part of the host, curl does not. -/
theorem forbidden_url_requested :
    ¬ Throughout (step hostPolicy) (UrlsPermitted hostPolicy)
        [.call { initialRequest := .settled (.continued (some (ascii "https://b.example/"))) }]
        (start
          { isAtomicService := true
            bundleName := ascii "com.example"
            interceptor := { isInitialRequestInterceptor := true } }
          (ascii "https://a.example/")) ∧
      ¬ Throughout (step hostPolicy) (UrlsPermitted hostPolicy)
        [.call {}, .store, .intercept (.settled (.continued (some (ascii "http://b.example/")))) {}]
        (start { interceptor := { isConnectNetworkInterceptor := true } }
          (ascii "https://a.example/")) ∧
      ¬ Throughout (step hostPolicy) (UrlsPermitted hostPolicy)
        [.call { globalInterceptor := .modified (ascii "http://b.example/") .ok }]
        (start {} (ascii "https://a.example/")) ∧
      ¬ Throughout (step hostPolicy) (UrlsPermitted hostPolicy)
        [.call {}, .store, .accept true,
          .message { responseCode := 302, redirectUrl := some (ascii "http://b.example/") },
          .intercept (.settled (.continued none)) {}]
        (start { interceptor := { isRedirectionInterceptor := true } }
          (ascii "https://a.example/")) ∧
      ¬ Throughout (step hostPolicy) (UrlsPermitted hostPolicy) [.call {}]
        (start {} (ascii "http://b.example" ++ [0])) := by
  decide +kernel

end Request

end Netstack.HttpExec
