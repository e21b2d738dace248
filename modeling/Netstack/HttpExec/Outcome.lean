import Netstack.Foundation.Execution
import Netstack.HttpExec.Runs

/-!
# The reported outcome

Whether a request succeeded is one flag of its context. The driver writes what
`GetCurlDataFromHandle` returned for the transfer, the thread that made the request
writes what `ExecRequest` returned, and the flag is read when the outcome is reported.

## Implementation notes

The write of the requesting thread may come after the one of the driver. In
`RequestSync` it always does.
-/

namespace Netstack.HttpExec

open Foundation Foundation.Execution Answers

/-- The transfer is one for which `GetCurlDataFromHandle` returns `true`. -/
def CurlMessage.isComplete (m : CurlMessage) : Bool :=
  decide (m.result = curleOk) && decide (m.responseCodeStatus = curleOk) &&
    decide (m.cookieListStatus = curleOk)

/-- The promise lets the request go on. -/
def Settlement.goesOn : Settlement → Bool
  | .blocked _ => false
  | _ => true

/-- The interceptor lets the request go on at once. -/
def Invocation.goesOn : Invocation → Bool
  | .notCalled => true
  | .thenFailed => true
  | .settled settlement => settlement.goesOn
  | _ => false

/-- The message does not report a failure: it is none of the end of a transfer, the
redirection interceptor is asked first, or the transfer is complete. -/
def RequestContext.reportsNoFailure (c : RequestContext) (m : CurlMessage) : Bool :=
  if m.msg = .done then
    if c.seesRedirect m then !c.isReachRedirectLimit else m.isComplete
  else true

namespace Request

/-- A success is reported only if the transfer succeeded, or if the answer came from the
cache or from an interceptor. -/
def ReportsTruly (s : Request) : Prop :=
  s.outcome = some true → s.verdict = some true ∨ s.answered = true

end Request

/-- What a step has to meet for the flag to be true only of a success. A transfer fails
only after the thread that made the request has written its result, and a request that
the initial interceptor let go on does not fail before it reaches curl. -/
def FlagOk (policy : Policy) (s : Request) : Event → Prop
  | .call a =>
    s.Admits policy → s.context.settings.isSyncWait = false →
      s.context.settings.interceptor.isInitialRequestInterceptor = true →
        a.initialRequest.goesOn = true → a.fetches s.context.settings = true
  | .message m => s.jsThread = .free ∨ s.context.reportsNoFailure m = true
  | .settle settlement a =>
    s.holder = some (.promise .initialRequest) → settlement.goesOn = true →
      a.fetches s.context.settings = true
  | _ => True

theorem RequestContext.getCurlDataFromHandle_isComplete {m : CurlMessage} {c : RequestContext}
    (hdone : m.msg = .done) (hcomplete : m.isComplete = true) :
    (c.getCurlDataFromHandle m).1 = true := by
  simp only [CurlMessage.isComplete, Bool.and_eq_true, decide_eq_true_eq] at hcomplete
  grind [getCurlDataFromHandle]

/-- The outcome will be read off the flag as it is, but for a write of the requesting
thread. -/
def Holder.isFinal : Holder → Bool
  | .completing => true
  | .uvCompletion => true
  | .promise stage => decide (stage = .finalResponse)
  | _ => false

theorem Holder.isFinal_eq_false {h : Holder} (hstage : h.isStage = true) : h.isFinal = false := by
  cases h with
  | promise stage => exact decide_eq_false (of_decide_eq_true hstage)
  | _ => simp_all [isStage, isFinal]

section Failures

/-- The route completes the request although nothing answered it. -/
def Route.isFailed : Route → Bool
  | .enqueued answered _ => !answered
  | _ => false

/-- The route ends a transfer. -/
def Route.isSent : Route → Bool
  | .completed _ => true
  | _ => false

variable (c : RequestSettings) (a : Answers) (settlement : Settlement) (invocation : Invocation)

theorem queued_fails : (queued c).isFailed = false ∧ (queued c).isSent = false := by
  rw [queued]
  split_ifs
  · exact ⟨rfl, rfl⟩
  · exact ⟨rfl, rfl⟩

/-- Only a request that was not fetched fails. -/
theorem postRoute_fails :
    (postRoute c a).isFailed = !a.fetches c ∧ (postRoute c a).isSent = false := by
  simp only [postRoute, requestRoute, fetches]
  split_ifs with hcache hinterceptor hreaches
  · cases a.cacheChecked <;> simp [hcache, cacheRoute, invokeRoute, Route.isFailed, Route.isSent]
  · simp [hcache, Route.isFailed, Route.isSent]
  · simp [hreaches, queued_fails]
  · simp [hcache, hreaches, Route.isFailed, Route.isSent]

theorem initialSettleRoute_fails :
    (initialSettleRoute c a settlement).isFailed = (settlement.goesOn && !a.fetches c) ∧
      (initialSettleRoute c a settlement).isSent = false := by
  cases settlement with
  | blocked code => exact ⟨rfl, rfl⟩
  | _ => exact postRoute_fails c a

theorem initialRoute_fails :
    (initialRoute c a invocation).isFailed = (invocation.goesOn && !a.fetches c) ∧
      (initialRoute c a invocation).isSent = false := by
  cases invocation with
  | notCalled => exact postRoute_fails c a
  | thenFailed => exact postRoute_fails c a
  | settled settlement => exact initialSettleRoute_fails c a settlement
  | _ => exact ⟨rfl, rfl⟩

theorem connectSettleRoute_isFailed : (connectSettleRoute settlement).isFailed = false := by
  cases settlement <;> rfl

theorem connectRoute_isFailed : (connectRoute invocation).isFailed = false := by
  cases invocation with
  | settled settlement => exact connectSettleRoute_isFailed settlement
  | _ => rfl

theorem redirectionSettleRoute_isFailed (m : CurlMessage) :
    (redirectionSettleRoute c a m settlement).isFailed = false := by
  cases settlement with
  | continued url =>
    simp only [redirectionSettleRoute, requestRoute]
    split_ifs
    · exact (queued_fails c).1
    · rfl
  | _ => rfl

theorem redirectionRoute_isFailed (m : CurlMessage) :
    (redirectionRoute c a m invocation).isFailed = false := by
  cases invocation with
  | settled settlement => exact redirectionSettleRoute_isFailed c a settlement m
  | _ => rfl

variable {route : Route} {h : Holder}

theorem Route.isAnswered_of_holder (heq : route.holder = some (.promise .cacheChecked)) :
    route.isAnswered = true := by
  cases route with
  | given h hstage =>
    obtain rfl := Option.some.inj heq
    rfl
  | _ => cases heq

theorem Route.isSent_iff : route.isSent = true ↔ route.holder = some .completing := by
  cases route with
  | given h hstage =>
    refine iff_of_false nofun ?_
    rintro ⟨⟩
    cases hstage
  | _ => simp [isSent, holder]

/-- A route to a holder who reports is one of an answer, of a failure or of a transfer. -/
theorem Route.cases_of_isFinal (hholder : route.holder = some h) (hfinal : h.isFinal = true) :
    route.isAnswered = true ∨ route.isFailed = true ∨ route.isSent = true := by
  cases route with
  | dropped => cases hholder
  | given h' hstage =>
    obtain rfl := Option.some.inj hholder
    cases (Holder.isFinal_eq_false hstage).symm.trans hfinal
  | enqueued answered url => cases answered <;> simp [isAnswered, isFailed]
  | completed m => exact Or.inr (Or.inr rfl)

end Failures

variable {h : Holder} {route : Route}

namespace Request

/-- A message that ends a transfer and reports no failure. -/
theorem verdict_checkMultiInfo {s : Request} {m : CurlMessage}
    (hreports : s.context.reportsNoFailure m = true)
    (hsent : (messageRoute m s.context).isSent = true) :
    (s.checkMultiInfo m).verdict = some true := by
  simp only [messageRoute] at hsent
  simp only [RequestContext.reportsNoFailure] at hreports
  simp only [checkMultiInfo, handleCurlDoneMessage]
  split_ifs at hsent hreports ⊢ with hdone hredirect hlimit
  · cases hsent
  · rw [Bool.not_eq_true'] at hreports
    exact absurd hreports hlimit
  · exact congrArg some (RequestContext.getCurlDataFromHandle_isComplete hdone hreports)
  · cases hsent

/-- The flag of a context on its way to the report tells the truth, or will do so once
the requesting thread has written it. -/
structure Justified (s : Request) : Prop where
  reported : s.ReportsTruly
  notified : s.syncComplete = true → s.verdict = some true
  waited : s.context.settings.isSyncWait = true → s.holder = some .completing →
    s.verdict = some true
  flagged : s.context.settings.isSyncWait = false → ∀ h ∈ s.holder, h.isFinal = true →
    s.verdict = some true ∨ s.answered = true ∨ s.jsThread = .returned false ∨
      s.jsThread = .free ∧ s.context.execOK = false
  cached : s.holder = some (.promise .cacheChecked) → s.answered = true

variable {policy : Policy} {s t : Request}

namespace Justified

/-- Nobody reads the flag next. -/
theorem unread (hreported : s.ReportsTruly) (hnotified : s.syncComplete = true →
    s.verdict = some true) (hfinal : ∀ h ∈ s.holder, h.isFinal = false)
    (hcached : s.holder ≠ some (.promise .cacheChecked)) : s.Justified where
  reported := hreported
  notified := hnotified
  waited _ heq := by cases hfinal _ heq
  flagged _ h hh hlate := absurd ((hfinal h hh).symm.trans hlate) Bool.noConfusion
  cached heq := absurd heq hcached

/-- Nobody has the context. -/
theorem dropped (hreported : s.ReportsTruly) (hnotified : s.syncComplete = true →
    s.verdict = some true) (hnone : s.holder = none) : s.Justified :=
  unread hreported hnotified (by rw [hnone]; nofun) (by rw [hnone]; nofun)

/-- The requesting thread writes the result of `ExecRequest`. -/
theorem leaveWrapper (hjustified : s.Justified) {r : Bool} (hjs : s.jsThread = .returned r) :
    (s.onContext (·.setExecOK r)).leaveWrapper.Justified := by
  have hflagged (hasync : s.context.settings.isSyncWait = false) (h : Holder) (hh : h ∈ s.holder)
      (hfinal : h.isFinal = true) : s.verdict = some true ∨ s.answered = true ∨ r = false := by
    obtain hverdict | hanswered | hreturned | ⟨hfree, -⟩ := hjustified.flagged hasync h hh hfinal
    · exact Or.inl hverdict
    · exact Or.inr (Or.inl hanswered)
    · exact Or.inr (Or.inr (JsThread.returned.inj (hjs.symm.trans hreturned)))
    · cases hjs.symm.trans hfree
  simp only [Request.leaveWrapper]
  split_ifs
  · exact dropped hjustified.reported hjustified.notified rfl
  · exact dropped hjustified.reported hjustified.notified rfl
  all_goals
    refine ⟨hjustified.reported, hjustified.notified, hjustified.waited, ?_, hjustified.cached⟩
    intro hasync h hh hfinal
    refine (hflagged hasync h hh hfinal).imp_right fun hrest => hrest.imp_right fun hr => ?_
    exact Or.inr ⟨rfl, hr⟩

variable (htracks : s.Tracks policy)
include htracks

section

variable (hholder : s.holder = some h) (hleads : Leads (fun _ => True) s.take route t)
include hholder hleads

/-- A stage took the context and passed it on. -/
theorem forwarded (hmanager : s.context.settings.hasSharedManager = true) {j : JsThread} {b : Bool}
    (hfree : j = .free → s.context.settings.isSyncWait = false)
    (hsent : route.isSent = true → j = .free ∨ t.verdict = some true)
    (hfailed : route.isFailed = true → s.context.settings.isSyncWait = false →
      j = .returned false) :
    ({ t with jsThread := j, handlerCalled := b } : Request).Justified := by
  obtain ⟨houtcome, hsync⟩ := htracks.pending hholder
  obtain ⟨hforwards, hheld, hanswered⟩ := hleads.forwards hmanager rfl
  have houtcome' : t.outcome = none := hforwards.outcome.trans houtcome
  have hsync' : t.syncComplete = false := hforwards.syncComplete.trans hsync
  have hsettings : t.context.settings = s.context.settings := hforwards.settings
  constructor
  · intro hread
    cases houtcome'.symm.trans hread
  · intro hdone
    cases hsync'.symm.trans hdone
  · intro hwait heq
    obtain hjs | hverdict := hsent (Route.isSent_iff.mpr (hheld.symm.trans heq))
    · cases (hfree hjs).symm.trans (hsettings ▸ hwait)
    · exact hverdict
  · intro hasync x hx hfinal
    obtain hroute | hroute | hroute := Route.cases_of_isFinal (hheld.symm.trans hx) hfinal
    · exact Or.inr (Or.inl (hanswered hroute))
    · exact Or.inr (Or.inr (Or.inl (hfailed hroute (hsettings ▸ hasync))))
    · obtain hjs | hverdict := hsent hroute
      · have hflag := hforwards.flag.resolve_left fun h =>
          h.2.2 (hheld.trans (Route.isSent_iff.mp hroute))
        obtain hexec | hexec := Bool.eq_false_or_eq_true t.context.execOK
        · exact Or.inl (hexec ▸ hflag.1)
        · exact Or.inr (Or.inr (Or.inr ⟨hjs, hexec⟩))
      · exact Or.inl hverdict
  · exact fun heq => hanswered (Route.isAnswered_of_holder (hheld.symm.trans heq))

/-- A stage that does not run on behalf of the caller took the context and passed it on. -/
theorem passedOn (hcaller : h ≠ .caller)
    (hsent : route.isSent = true → s.jsThread = .free ∨ t.verdict = some true)
    (hfailed : route.isFailed = false) : t.Justified := by
  have hmanager := (htracks.passed h hholder hcaller).1
  have hjs : t.jsThread = s.jsThread := (hleads.forwards hmanager rfl).1.jsThread
  apply forwarded htracks hholder hleads hmanager (j := t.jsThread) (b := t.handlerCalled)
  · exact fun heq => htracks.free (hjs.symm.trans heq)
  · exact hjs ▸ hsent
  · exact fun heq => absurd (hfailed.symm.trans heq) Bool.noConfusion

end

/-- The driver gets a message. -/
theorem checkMultiInfo (hholder : s.holder = some .curl) (m : CurlMessage)
    (hok : s.jsThread = .free ∨ s.context.reportsNoFailure m = true) :
    (s.take.checkMultiInfo m).Justified := by
  refine passedOn htracks hholder (checkMultiInfo_leads m s.take) Holder.noConfusion
    (fun hsent => hok.imp_right fun hreports => ?_) ?_
  · exact verdict_checkMultiInfo (s := s.take) hreports hsent
  · rw [messageRoute]
    split_ifs <;> rfl

variable (hjustified : s.Justified)
include hjustified

/-- The outcome is read off the flag. -/
theorem report (hjs : s.jsThread = .free) (hholder : s.holder = some h) (hfinal : h.isFinal = true)
    (hedits : s.take.Edits t) : t.finalResponseProcessing.Justified := by
  have hnone : t.holder = none := hedits.holder
  have hsync := (htracks.pending hholder).2
  refine dropped ?_ ?_ hnone
  · intro hread
    have hexec : s.context.execOK = true := hedits.execOK.symm.trans (Option.some.inj hread)
    obtain hverdict | hanswered | hreturned | ⟨-, hfalse⟩ :=
      hjustified.flagged (htracks.free hjs) h hholder hfinal
    · exact Or.inl (hedits.verdict.trans hverdict)
    · exact Or.inr (hedits.answered hanswered)
    · cases hjs.symm.trans hreturned
    grind
  · intro hdone
    cases hsync.symm.trans (hedits.syncComplete.symm.trans hdone)

/-- `ExecRequest` and the rest of the call. -/
theorem call (hjs : s.jsThread = .calling)
    (a : Answers) (hok : FlagOk policy s (.call a)) : (s.call policy a).Justified := by
  have hholder := htracks.calling hjs
  rw [Request.call]
  split_ifs with hparse hwait
  · exact dropped (by rintro ⟨⟩) hjustified.notified rfl
  · simp only [Request.leaveWrapper]
    split_ifs with hcaller hneeds hneeds
    · exact dropped hjustified.reported hjustified.notified rfl
    · exact dropped hjustified.reported hjustified.notified rfl
    · exact absurd hholder hcaller
    · exact absurd hholder hcaller
  · by_cases hadmits : s.Admits policy
    · have hleads : Leads (fun _ => True) s.take _ _ :=
        execRequest_leads a hadmits (fun _ _ _ => trivial) fun _ _ => trivial
      refine forwarded htracks hholder hleads hadmits.manager (by simp) ?_ ?_
      · intro hsent
        rw [executionRoute] at hsent
        split_ifs at hsent
        · cases (initialRoute_fails _ _ _).2.symm.trans hsent
        · cases (postRoute_fails _ _).2.symm.trans hsent
      · intro hfailed hasync
        rw [execRequest_admitted a hadmits]
        rw [executionRoute] at hfailed
        split_ifs at hfailed ⊢ with hinitial
        · rw [(initialRoute_fails _ _ _).1, Bool.and_eq_true, Bool.not_eq_true'] at hfailed
          cases hfailed.2.symm.trans (hok hadmits hasync hinitial hfailed.1)
        · have hresult : _ ∧ Leads (fun _ => True) s.take _ _ :=
            handleInitialRequestPostProcessing_leads (a := a) (fun _ _ => trivial) s.take
          rw [(postRoute_fails _ _).1, Bool.not_eq_true'] at hfailed
          exact congrArg JsThread.returned (hresult.1.trans hfailed)
    · rw [execRequest_refused a hadmits]
      refine unread hjustified.reported hjustified.notified ?_ ?_
      · intro h hh
        obtain rfl := Option.some.inj (hholder.symm.trans hh)
        rfl
      grind

/-- `HandleCurlData` wakes the waiting thread or enqueues the completion callback. -/
theorem passOn (hholder : s.holder = some .completing) : s.take.passOn.Justified := by
  rw [Request.passOn]
  split_ifs with hwait
  · exact dropped hjustified.reported (fun _ => hjustified.waited hwait hholder) rfl
  · have hmanager := (htracks.passed _ hholder (by simp)).1
    rw [Request.enqueueCallback, if_pos (by exact hmanager)]
    refine ⟨hjustified.reported, hjustified.notified, by rintro _ ⟨⟩, ?_, by rintro ⟨⟩⟩
    rintro hasync _ ⟨⟩ _
    exact hjustified.flagged hasync _ hholder rfl

/-- The promise of an interceptor settles. -/
theorem settle (hjs : s.jsThread = .free)
    {stage : Stage} (hholder : s.holder = some (.promise stage)) (settlement : Settlement)
    (a : Answers) (hok : FlagOk policy s (.settle settlement a)) :
    (s.take.settle a stage settlement).Justified := by
  by_cases hstage : stage = .finalResponse
  · obtain ⟨u, hedits, -, heq⟩ := settleFinalResponse_spec settlement s.take
    rw [hstage, Request.settle, heq]
    exact hjustified.report htracks hjs hholder (decide_eq_true hstage) hedits
  refine passedOn htracks hholder (settle_leads (fun _ _ => trivial) hstage fun _ _ => trivial)
    Holder.noConfusion (fun _ => Or.inl hjs) ?_
  cases stage with
  | initialRequest =>
    rw [settleRoute, (initialSettleRoute_fails _ _ _).1]
    cases hgoes : settlement.goesOn with
    | false => rfl
    | true => exact congrArg not (hok hholder hgoes)
  | cacheChecked => exact congrArg not (hjustified.cached hholder)
  | connectNetwork => exact connectSettleRoute_isFailed settlement
  | redirection m => exact redirectionSettleRoute_isFailed _ a settlement m
  | finalResponse => exact absurd rfl hstage

theorem step {e : Event}
    (hok : FlagOk policy s e) (h : s.Step policy e t) : t.Justified := by
  cases h with
  | call a hjs => exact hjustified.call htracks hjs a hok
  | storeSync r hjs hwait hdone =>
    refine dropped ?_ hjustified.notified rfl
    intro hread
    exact Or.inl (hjustified.notified (hdone (Option.some.inj hread)))
  | storeAsync r hjs hasync => exact hjustified.leaveWrapper hjs
  | asyncWork a hjs hwork =>
    obtain ⟨c, -, -, -, heq⟩ := htracks.runAsyncWork_eq hwork a
    rw [heq]
    exact dropped (by rintro ⟨⟩) hjustified.notified rfl
  | accept added hholder =>
    cases added <;>
      exact passedOn htracks hholder (incomingRequestCallback_leads _ _) nofun nofun rfl
  | message m hholder => exact checkMultiInfo htracks hholder m hok
  | deliver hholder => exact hjustified.passOn htracks hholder
  | connectNetwork invocation a hjs hholder =>
    exact passedOn htracks hholder (connectNetworkInterceptor_leads fun _ _ => trivial) nofun
      (fun _ => Or.inl hjs) (connectRoute_isFailed invocation)
  | redirection m invocation a hjs hholder =>
    exact passedOn htracks hholder
      (redirectionInterceptor_leads (fun _ _ => trivial) fun _ _ => trivial) nofun
      (fun _ => Or.inl hjs) (redirectionRoute_isFailed _ a invocation m)
  | settle stage settlement a hjs hholder =>
    exact hjustified.settle htracks hjs hholder settlement a hok
  | complete invocation hjs hholder =>
    obtain ⟨u, hedits, -, heq⟩ | heq := asyncWorkRequestCallback_spec invocation s.take
    · exact heq ▸ hjustified.report htracks hjs hholder rfl hedits
    · rw [heq]
      refine ⟨hjustified.reported, hjustified.notified, by rintro _ ⟨⟩, ?_, by rintro ⟨⟩⟩
      rintro hasync _ ⟨⟩ _
      exact hjustified.flagged hasync _ hholder rfl
  | destroy hjs =>
    exact ⟨hjustified.reported, hjustified.notified, hjustified.waited, hjustified.flagged,
      hjustified.cached⟩

end Justified

/-- In every run whose steps meet the condition, a success is reported only if the
transfer succeeded or the answer came from the cache or from an interceptor. -/
theorem reportsTruly_throughout (policy : Policy) (settings : RequestSettings) (url : Bytes)
    (events : List Event)
    (hmeets : Meets (step policy) (FlagOk policy) events (start settings url)) :
    Throughout (step policy) ReportsTruly events (start settings url) := by
  refine throughout_of_meets (J := fun s => s.Tracks policy ∧ s.Justified) ?_ ?_ events ?_ hmeets
  · rintro s e t ⟨htracks, hjustified⟩ hok h
    exact ⟨htracks.step (.of_step h), hjustified.step htracks hok (.of_step h)⟩
  · exact fun s hs => hs.2.reported
  · exact ⟨.of_start policy settings url, nofun, nofun, nofun, by rintro _ _ ⟨⟩ ⟨⟩, nofun⟩

instance (s : Request) : Decidable s.ReportsTruly :=
  inferInstanceAs (Decidable (s.outcome = some true → s.verdict = some true ∨ s.answered = true))

instance (policy : Policy) (s : Request) (e : Event) : Decidable (FlagOk policy s e) := by
  cases e <;> dsimp only [FlagOk] <;> infer_instance

/-- A request that is stored before its transfer times out, and one that succeeds before
its result is stored. -/
theorem reportsTruly_throughout_stored :
    Throughout (step openPolicy) ReportsTruly
        [.call {}, .store, .accept true, .message { result := 28 }, .deliver,
          .complete .notCalled]
        (start {} (ascii "https://a.example/")) ∧
      Throughout (step openPolicy) ReportsTruly
        [.call {}, .accept true, .message {}, .deliver, .store]
        (start { isSyncWait := true } (ascii "https://a.example/")) :=
  ⟨reportsTruly_throughout _ _ _ _ (by decide +kernel),
    reportsTruly_throughout _ _ _ _ (by decide +kernel)⟩

/-- `RequestSync` writes the result of `ExecRequest` over the one of a transfer that
failed. `ExecAsyncWork` does so if the transfer ends before its write. A request that
waited for the initial interceptor keeps that result if it cannot be sent. -/
theorem failed_transfer_reported :
    ¬ Throughout (step openPolicy) ReportsTruly
        [.call {}, .accept true, .message { result := 7 }, .deliver, .store]
        (start { isSyncWait := true } (ascii "https://a.example/")) ∧
      ¬ Throughout (step openPolicy) ReportsTruly
        [.call {}, .accept true, .message { result := 28 }, .store, .deliver,
          .complete .notCalled]
        (start {} (ascii "https://a.example/")) ∧
      ¬ Throughout (step openPolicy) ReportsTruly
        [.call { initialRequest := .pending }, .store,
          .settle (.continued none) { setOption := .failsBeforeUrl 2 }, .complete .notCalled]
        (start { interceptor := { isInitialRequestInterceptor := true } }
          (ascii "https://a.example/")) := by
  decide +kernel

end Request

end Netstack.HttpExec
