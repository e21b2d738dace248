import Netstack.Foundation.Execution
import Netstack.HttpExec.Runs

/-!
# Completion of a request

A context is to be completed once and on its own way: a waiting thread is notified, any
other request ends in the completion callback on the JS loop. Six places of the code
complete a context, and some others drop it.
-/

namespace Netstack.HttpExec

open Foundation Foundation.Execution Invocation

namespace Request

/-- A context that a thread waits for is never given to the callback that deletes it and
succeeds only when it was notified. Any other is given to the callback at most once and
never notified. Nobody has lost the context before it was completed, and one that the
async work of the wrapper has is with nobody else. -/
@[mk_iff]
structure CompletesOnce (s : Request) : Prop where
  sync : s.context.settings.isSyncWait = true → s.handedOver = 0
  async : s.context.settings.isSyncWait = false → s.syncComplete = false
  once : s.handedOver ≤ 1
  sole : s.asyncWork = true → s.holder = none
  kept : s.holder ≠ none ∨ s.asyncWork = true ∨ s.syncComplete = true ∨ s.outcome ≠ none
  notified : s.context.settings.isSyncWait = true → s.outcome = some true →
    s.syncComplete = true

end Request

/-- The native side lets go of the context when the objects for the call cannot be made
or `then` cannot be read. -/
def Invocation.isDropped : Invocation → Bool
  | .noRequestContext => true
  | .noResponseContext => true
  | .thenUnreadable => true
  | _ => false

variable (c : RequestSettings) (a : Answers)

/-- A cached answer is not for a waiting thread, unless an interceptor keeps it; a failed
request is not one that a thread waits for. -/
def PostProcessingOk : Prop :=
  if c.isUsingCache && a.readResponseFromCache then
    if c.interceptor.isCacheCheckedInterceptor then
      a.cacheChecked = .pending ∨ a.cacheChecked.isDropped = false ∧ c.isSyncWait = false
    else c.isSyncWait = false
  else a.reachesCurl = true ∨ c.isSyncWait = false

def SettledInitialOk : Settlement → Prop
  | .blocked _ => c.isSyncWait = false
  | _ => PostProcessingOk c a

def InitialOk : Invocation → Prop
  | .noRequestContext => False
  | .noResponseContext => False
  | .thenUnreadable => False
  | .notCalled => PostProcessingOk c a
  | .thenFailed => PostProcessingOk c a
  | .settled settlement => SettledInitialOk c a settlement
  | .pending => True

def ExecutionOk : Prop :=
  if c.interceptor.isInitialRequestInterceptor then InitialOk c a a.initialRequest
  else PostProcessingOk c a

/-- A redirect that goes on reaches the driver again. -/
def SettledRedirectionOk : Settlement → Prop
  | .continued _ => a.reachesCurl = true
  | _ => True

def RedirectionOk : Invocation → Prop
  | .noRequestContext => False
  | .noResponseContext => False
  | .settled settlement => SettledRedirectionOk a settlement
  | _ => True

def SettlementOk (settlement : Settlement) : Stage → Prop
  | .initialRequest => SettledInitialOk c a settlement
  | .redirection _ => SettledRedirectionOk a settlement
  | _ => True

/-- What a step has to meet for the context to be completed once. The wrapper makes its
async work exactly if it still has the context; it does so as well if a handler that
`ExecRequest` called has destroyed the event manager. -/
def CompletionOk (policy : Policy) (s : Request) : Event → Prop
  | .call a =>
    s.context.settings.isParseOK = true → s.Admits policy → ExecutionOk s.context.settings a
  | .store =>
    s.context.settings.isSyncWait = false →
      (s.holder = some .caller ↔ s.context.needsAsyncWork = true)
  | .accept added => added = true
  | .intercept invocation a =>
    match s.holder with
    | some .uvConnectNetwork => invocation.isMade = true
    | some (.uvRedirection _) => RedirectionOk a invocation
    | _ => True
  | .settle settlement a =>
    match s.holder with
    | some (.promise stage) => SettlementOk s.context.settings a settlement stage
    | _ => True
  | _ => True

section Placed

/-- The context is passed on to somebody, and not to the callback if a thread waits for it. -/
def Route.Placed (sync : Bool) (route : Route) : Prop :=
  route.holder ≠ none ∧ (sync = true → route.holder ≠ some .uvCompletion)

variable {sync : Bool} {m : CurlMessage}

@[simp]
theorem Route.not_placed_dropped : ¬ Route.dropped.Placed sync :=
  fun h => h.1 rfl

@[simp]
theorem Route.placed_given {h : Holder} {hstage : h.isStage = true} :
    (Route.given h hstage).Placed sync := by
  refine ⟨nofun, fun _ => ?_⟩
  rintro ⟨⟩
  cases hstage

@[simp]
theorem Route.placed_enqueued {answered : Bool} {url : Option Bytes} :
    (Route.enqueued answered url).Placed sync ↔ sync = false := by
  simp [Placed, holder]

@[simp]
theorem Route.placed_completed : (Route.completed m).Placed sync :=
  ⟨nofun, nofun⟩

@[simp]
theorem placed_queued : (queued c).Placed sync := by
  rw [queued]
  split_ifs <;> exact Route.placed_given

theorem placed_postRoute : (postRoute c a).Placed c.isSyncWait ↔ PostProcessingOk c a := by
  simp only [postRoute, requestRoute, PostProcessingOk]
  split_ifs with hcache hinterceptor hreaches
  · cases a.cacheChecked with
    | pending => exact iff_of_true Route.placed_given (Or.inl rfl)
    | _ => simp [cacheRoute, invokeRoute, isDropped]
  · simp
  · simp [hreaches]
  · simp [hreaches]

theorem placed_initialSettleRoute (settlement : Settlement) :
    (initialSettleRoute c a settlement).Placed c.isSyncWait ↔
      SettledInitialOk c a settlement := by
  cases settlement with
  | blocked code => exact Route.placed_enqueued
  | _ => exact placed_postRoute c a

theorem placed_executionRoute :
    (executionRoute c a).Placed c.isSyncWait ↔ ExecutionOk c a := by
  rw [executionRoute, ExecutionOk]
  split_ifs
  · cases a.initialRequest with
    | notCalled => exact placed_postRoute c a
    | thenFailed => exact placed_postRoute c a
    | settled settlement => exact placed_initialSettleRoute c a settlement
    | pending => exact iff_of_true Route.placed_given trivial
    | _ => exact iff_of_false Route.not_placed_dropped id
  · exact placed_postRoute c a

theorem placed_connectSettleRoute (settlement : Settlement) :
    (connectSettleRoute settlement).Placed false := by
  cases settlement with
  | blocked code => exact Route.placed_enqueued.mpr rfl
  | _ => exact Route.placed_given

theorem placed_connectRoute (invocation : Invocation) :
    (connectRoute invocation).Placed false ↔ invocation.isMade = true := by
  cases invocation with
  | noRequestContext => exact iff_of_false Route.not_placed_dropped nofun
  | noResponseContext => exact iff_of_false Route.not_placed_dropped nofun
  | settled settlement => exact iff_of_true (placed_connectSettleRoute settlement) rfl
  | _ => exact iff_of_true Route.placed_given rfl

theorem placed_redirectionSettleRoute (settlement : Settlement) :
    (redirectionSettleRoute c a m settlement).Placed sync ↔ SettledRedirectionOk a settlement := by
  cases settlement with
  | continued url =>
    simp only [redirectionSettleRoute, requestRoute, SettledRedirectionOk]
    split_ifs with hreaches <;> simp [hreaches]
  | _ => exact iff_of_true Route.placed_completed trivial

theorem placed_redirectionRoute (invocation : Invocation) :
    (redirectionRoute c a m invocation).Placed sync ↔ RedirectionOk a invocation := by
  cases invocation with
  | noRequestContext => exact iff_of_false Route.not_placed_dropped id
  | noResponseContext => exact iff_of_false Route.not_placed_dropped id
  | settled settlement => exact placed_redirectionSettleRoute c a settlement
  | pending => exact iff_of_true Route.placed_given trivial
  | _ => exact iff_of_true Route.placed_completed trivial

theorem placed_acceptRoute (added : Bool) : (acceptRoute added).Placed sync ↔ added = true := by
  cases added with
  | false => exact iff_of_false Route.not_placed_dropped Bool.noConfusion
  | true => exact iff_of_true Route.placed_given rfl

theorem placed_messageRoute (c : RequestContext) : (messageRoute m c).Placed sync := by
  rw [messageRoute]
  split_ifs
  · exact Route.placed_given
  · exact Route.placed_completed
  · exact Route.placed_completed
  · exact Route.placed_given

theorem placed_settleRoute (hasync : c.isSyncWait = false) {stage : Stage}
    (hstage : stage ≠ .finalResponse) (answered : Bool) (settlement : Settlement) :
    (settleRoute c a answered settlement stage).Placed c.isSyncWait ↔
      SettlementOk c a settlement stage := by
  cases stage with
  | initialRequest => exact placed_initialSettleRoute c a settlement
  | cacheChecked => exact iff_of_true (Route.placed_enqueued.mpr hasync) trivial
  | connectNetwork => exact iff_of_true (hasync ▸ placed_connectSettleRoute settlement) trivial
  | redirection m => exact placed_redirectionSettleRoute c a settlement
  | finalResponse => exact absurd rfl hstage

end Placed

namespace Request

variable {policy : Policy} {s t : Request} {h : Holder} {route : Route}

/-- A change of the context that keeps its settings. -/
theorem CompletesOnce.edited (hcompletes : s.CompletesOnce) {c : RequestContext}
    (hsettings : c.settings = s.context.settings) (j : JsThread) (b : Bool) :
    ({ s with context := c, jsThread := j, handlerCalled := b } : Request).CompletesOnce := by
  refine ⟨fun hwait => hcompletes.sync ?_, fun hasync => hcompletes.async ?_, hcompletes.once,
    hcompletes.sole, hcompletes.kept, fun hwait => hcompletes.notified ?_⟩
  · exact (congrArg _ hsettings).symm.trans hwait
  · exact (congrArg _ hsettings).symm.trans hasync
  · exact (congrArg _ hsettings).symm.trans hwait

/-- A context with somebody is not with the async work of the wrapper. -/
theorem CompletesOnce.asyncWork_eq_false (hcompletes : s.CompletesOnce)
    (hholder : s.holder = some h) : s.asyncWork = false :=
  eq_false_of_ne_true fun hwork => nomatch hholder.symm.trans (hcompletes.sole hwork)

theorem CompletesOnce.moved (hcompletes : s.CompletesOnce) (hholder : s.holder = some h)
    (h' : Holder) : (s.take.give h').CompletesOnce :=
  ⟨hcompletes.sync, hcompletes.async, hcompletes.once,
    fun hwork => absurd (hholder.symm.trans (hcompletes.sole hwork)) nofun, Or.inl nofun,
    hcompletes.notified⟩

/-- A context that nobody has and that was not completed is lost. -/
theorem not_completesOnce (hnone : s.holder = none) (hwork : s.asyncWork = false)
    (hunread : s.outcome = none) (hsync : s.syncComplete = false) : ¬ s.CompletesOnce := by
  intro hcompletes
  grind [@hcompletes.kept]

section

variable (htracks : s.Tracks policy) (hcompletes : s.CompletesOnce)
include htracks hcompletes

/-- A stage that took the context completes it properly exactly if it places it. -/
theorem Tracks.completesOnce_leads (hholder : s.holder = some h) (hbefore : h.isHandedOver = false)
    (hmanager : s.context.settings.hasSharedManager = true)
    (hleads : Leads (fun _ => True) s.take route t) (j : JsThread) (b : Bool) :
    ({ t with jsThread := j, handlerCalled := b } : Request).CompletesOnce ↔
      route.Placed s.context.settings.isSyncWait := by
  obtain ⟨houtcome, hsync⟩ := htracks.pending hholder
  obtain ⟨hforwards, hheld, -⟩ := hleads.forwards hmanager rfl
  have hwork := hcompletes.asyncWork_eq_false hholder
  have hfresh : s.take.handedOver = 0 := by
    rw [show s.take.handedOver = _ from htracks.fresh h hholder hbefore, hwork]
    rfl
  have hhanded := hforwards.handedOver
  rw [hfresh, Nat.zero_add] at hhanded
  have hwork' : t.asyncWork = false := hforwards.asyncWork.trans hwork
  have houtcome' : t.outcome = none := hforwards.outcome.trans houtcome
  have hsync' : t.syncComplete = false := hforwards.syncComplete.trans hsync
  rw [Route.Placed, ← hheld, ← show t.context.settings = s.context.settings from hforwards.settings]
  constructor
  · intro hcompletes
    constructor
    · exact fun hnone => not_completesOnce (s := { t with jsThread := j, handlerCalled := b })
        hnone hwork' houtcome' hsync' hcompletes
    grind [@hcompletes.sync]
  · rintro ⟨hsome, hown⟩
    refine ⟨fun hwait => ?_, fun _ => hsync', ?_,
      fun heq => absurd (hwork'.symm.trans heq) Bool.noConfusion, Or.inl hsome,
      fun _ heq => absurd (houtcome'.symm.trans heq) nofun⟩
    · change t.handedOver = 0
      rw [hhanded, if_neg (hown hwait)]
    · change t.handedOver ≤ 1
      rw [hhanded]
      split_ifs <;> omega

theorem Tracks.completesOnce_passedOn (hholder : s.holder = some h) (hcaller : h ≠ .caller)
    (hbefore : h.isHandedOver = false) (hleads : Leads (fun _ => True) s.take route t) :
    t.CompletesOnce ↔ route.Placed s.context.settings.isSyncWait :=
  htracks.completesOnce_leads hcompletes hholder hbefore (htracks.passed h hholder hcaller).1 hleads
    t.jsThread t.handlerCalled

/-- The wrapper is to complete a request that it still has, and no other. -/
theorem Tracks.completesOnce_leaveWrapper (hasync : s.context.settings.isSyncWait = false)
    (hunread : s.outcome = none) (hjs : s.jsThread ≠ .free) :
    s.leaveWrapper.CompletesOnce ↔
      (s.holder = some .caller ↔ s.context.needsAsyncWork = true) := by
  have hsync := hcompletes.async hasync
  have hwork := htracks.asyncWork_eq_false hjs
  have hsome : s.holder ≠ none :=
    fun hnone => not_completesOnce hnone hwork hunread hsync hcompletes
  have hnotWait {p : Prop} (hwait : s.context.settings.isSyncWait = true) : p :=
    absurd (hasync.symm.trans hwait) Bool.noConfusion
  simp only [Request.leaveWrapper]
  split_ifs with hcaller hneeds hneeds
  · refine iff_of_true ⟨hnotWait, fun _ => hsync, ?_, fun _ => rfl, Or.inr (Or.inl rfl), hnotWait⟩
      (iff_of_true hcaller hneeds)
    change s.handedOver + 1 ≤ 1
    rw [htracks.fresh .caller hcaller rfl, hwork]
    rfl
  · exact iff_of_false (not_completesOnce rfl hwork hunread hsync)
      fun hiff => hneeds (hiff.mp hcaller)
  · exact iff_of_false (fun hboth => hsome (hboth.sole rfl)) fun hiff => hcaller (hiff.mpr hneeds)
  · exact iff_of_true ⟨hnotWait, fun _ => hsync, hcompletes.once, hcompletes.sole, Or.inl hsome,
      hnotWait⟩ (iff_of_false hcaller hneeds)

theorem Tracks.completesOnce_call (hjs : s.jsThread = .calling) (a : Answers) :
    (s.call policy a).CompletesOnce ↔ CompletionOk policy s (.call a) := by
  have hholder := htracks.calling hjs
  have hunread := (htracks.pending hholder).1
  rw [Request.call, CompletionOk]
  split_ifs with hparse hwait
  · exact iff_of_true
      ⟨hcompletes.sync, hcompletes.async, hcompletes.once, fun _ => rfl,
        Or.inr (Or.inr (Or.inr (by simp))), by simp⟩
      fun hok => absurd (hparse.symm.trans hok) Bool.noConfusion
  · have hedited := htracks.edited (c := s.context.setErrorCode parseErrorCode) rfl rfl rfl id
    refine iff_of_true ?_ fun hok => absurd (hparse.symm.trans hok) Bool.noConfusion
    have hcompletes' :=
      hcompletes.edited (c := s.context.setErrorCode parseErrorCode) rfl s.jsThread s.handlerCalled
    refine (hedited.completesOnce_leaveWrapper hcompletes' (eq_false_of_ne_true hwait) hunread
      (hjs ▸ (by simp))).mpr (iff_of_true hholder ?_)
    change (!s.context.settings.isParseOK || _ || _) = true
    rw [hparse]
    rfl
  · by_cases hadmits : s.Admits policy
    · rw [htracks.completesOnce_leads hcompletes hholder rfl hadmits.manager
        (execRequest_leads a hadmits (fun _ _ _ => trivial) fun _ _ => trivial),
        placed_executionRoute]
      grind
    · rw [execRequest_refused a hadmits]
      exact iff_of_true (hcompletes.edited (s.context.execRequestCheck_keeps policy).1 _ _)
        fun _ h => absurd h hadmits

/-- The outcome of a request that no thread waits for is reported. -/
theorem Tracks.completesOnce_reported (hjs : s.jsThread = .free) (hedits : s.take.Edits t) :
    t.finalResponseProcessing.CompletesOnce := by
  have hasync : t.context.settings.isSyncWait = false :=
    (congrArg _ hedits.settings).trans (htracks.free hjs)
  have hnotWait {p : Prop} (hwait : t.context.settings.isSyncWait = true) : p :=
    absurd (hasync.symm.trans hwait) Bool.noConfusion
  refine ⟨hnotWait, fun _ => ?_, ?_, nofun, Or.inr (Or.inr (Or.inr nofun)), hnotWait⟩
  · exact hedits.syncComplete.trans (hcompletes.async (htracks.free hjs))
  · exact hedits.handedOver ▸ hcompletes.once

/-- The promise of an interceptor settles. -/
theorem Tracks.completesOnce_settle
    (hjs : s.jsThread = .free) {stage : Stage} (hholder : s.holder = some (.promise stage))
    (settlement : Settlement) (a : Answers) :
    (s.take.settle a stage settlement).CompletesOnce ↔
      SettlementOk s.context.settings a settlement stage := by
  by_cases hstage : stage = .finalResponse
  · obtain ⟨u, hedits, -, heq⟩ := settleFinalResponse_spec settlement s.take
    rw [hstage, Request.settle, heq]
    exact iff_of_true (htracks.completesOnce_reported hcompletes hjs hedits) trivial
  · rw [htracks.completesOnce_passedOn hcompletes hholder Holder.noConfusion
      (decide_eq_false hstage) (settle_leads (fun _ _ => trivial) hstage fun _ _ => trivial)]
    exact placed_settleRoute _ _ (htracks.free hjs) hstage _ settlement

/-- A step keeps the completion in order exactly if it meets the condition. -/
theorem completesOnce_step_iff {e : Event} (h : s.Step policy e t) :
    t.CompletesOnce ↔ CompletionOk policy s e := by
  cases h with
  | call a hjs => exact htracks.completesOnce_call hcompletes hjs a
  | storeSync r hjs hsync hdone =>
    refine iff_of_true ⟨hcompletes.sync, hcompletes.async, hcompletes.once, fun _ => rfl,
      Or.inr (Or.inr (Or.inr nofun)), fun _ hr => hdone (Option.some.inj hr)⟩ fun hasync => ?_
    cases hasync.symm.trans hsync
  | storeAsync r hjs hasync =>
    have hedited := htracks.edited (c := s.context.setExecOK r) rfl rfl rfl id
    have hunread := htracks.unread_of_returned hjs
    have hcompletes' :=
      hcompletes.edited (c := s.context.setExecOK r) rfl s.jsThread s.handlerCalled
    refine (hedited.completesOnce_leaveWrapper hcompletes' hasync hunread
      (hjs ▸ (by simp))).trans ?_
    exact ⟨fun hok _ => hok, fun hok => hok hasync⟩
  | asyncWork a hjs hwork =>
    obtain ⟨c, hsettings, -, -, heq⟩ := htracks.runAsyncWork_eq hwork a
    rw [heq]
    refine iff_of_true ⟨fun hwait => ?_, fun hasync => ?_, hcompletes.once, fun _ => rfl,
      Or.inr (Or.inr (Or.inr (by simp))), by simp⟩ trivial
    · exact hcompletes.sync ((congrArg _ hsettings).symm.trans hwait)
    · exact hcompletes.async ((congrArg _ hsettings).symm.trans hasync)
  | accept added hholder =>
    exact (htracks.completesOnce_passedOn hcompletes hholder nofun rfl
      (incomingRequestCallback_leads added _)).trans (placed_acceptRoute added)
  | message m hholder =>
    refine iff_of_true ?_ trivial
    exact (htracks.completesOnce_passedOn hcompletes hholder nofun rfl
      (checkMultiInfo_leads m _)).mpr (placed_messageRoute _)
  | deliver hholder =>
    refine iff_of_true ?_ trivial
    rw [passOn]
    split_ifs with hsync
    · exact ⟨hcompletes.sync, fun hasync => absurd (hasync.symm.trans hsync) Bool.noConfusion,
        hcompletes.once, fun _ => rfl, Or.inr (Or.inr (Or.inl rfl)), fun _ _ => rfl⟩
    · exact (htracks.completesOnce_passedOn hcompletes hholder Holder.noConfusion rfl
        (leads_follow (.enqueued false none) rfl)).mpr
        (Route.placed_enqueued.mpr (eq_false_of_ne_true hsync))
  | connectNetwork invocation a hjs hholder =>
    rw [htracks.completesOnce_passedOn hcompletes hholder Holder.noConfusion rfl
      (connectNetworkInterceptor_leads fun _ _ => trivial), htracks.free hjs, placed_connectRoute]
    simp only [CompletionOk, hholder]
  | redirection m invocation a hjs hholder =>
    rw [htracks.completesOnce_passedOn hcompletes hholder Holder.noConfusion rfl
      (redirectionInterceptor_leads (fun _ _ => trivial) fun _ _ => trivial),
      placed_redirectionRoute]
    simp only [CompletionOk, hholder]
  | settle stage settlement a hjs hholder =>
    grind [CompletionOk, @htracks.completesOnce_settle]
  | complete invocation hjs hholder =>
    refine iff_of_true ?_ trivial
    obtain ⟨u, hedits, -, heq⟩ | heq := asyncWorkRequestCallback_spec invocation s.take
    · exact heq ▸ htracks.completesOnce_reported hcompletes hjs hedits
    · exact heq ▸ hcompletes.moved hholder _
  | destroy hjs =>
    exact iff_of_true (hcompletes.edited (c := s.context.setEventDestroy) rfl _ _) trivial

end

/-- In every state of a run the context was given to the callback that deletes it at most
once, never if a thread waits for it, and is with somebody until it is completed,
exactly if every step of the run meets the condition. -/
theorem completesOnce_throughout_iff (policy : Policy) (settings : RequestSettings)
    (url : Bytes) (events : List Event) :
    Throughout (step policy) CompletesOnce events (start settings url) ↔
      Meets (step policy) (CompletionOk policy) events (start settings url) := by
  apply throughout_iff_meets (J := Tracks policy)
  · intro s e t htracks h
    exact htracks.step (.of_step h)
  · intro s e t htracks hcompletes h
    exact completesOnce_step_iff htracks hcompletes (.of_step h)
  · exact .of_start policy settings url
  · exact ⟨fun _ => rfl, fun _ => rfl, Nat.zero_le 1, nofun, Or.inl nofun, fun _ => nofun⟩

instance (s : Request) : Decidable s.CompletesOnce :=
  decidable_of_iff' _ (completesOnce_iff s)

/-- A sync request that the cache answers is given to the completion callback while its
thread waits. An interceptor whose `then` cannot be read loses the context, and so does a
redirect that an interceptor let pass and that curl has no handle for. If the handler of the
initial interceptor calls `destroy`, then the context is with its promise and with an async
work. -/
theorem context_completed_wrongly :
    ¬ Throughout (step openPolicy) CompletesOnce [.call { readResponseFromCache := true }]
        (start { isSyncWait := true } (ascii "https://a.example/")) ∧
      ¬ Throughout (step openPolicy) CompletesOnce [.call { initialRequest := .thenUnreadable }]
        (start { interceptor := { isInitialRequestInterceptor := true } }
          (ascii "https://a.example/")) ∧
      ¬ Throughout (step openPolicy) CompletesOnce
        [.call {}, .store, .accept true,
          .message { responseCode := 302, redirectUrl := some (ascii "https://b.example/") },
          .intercept (.settled (.continued none)) { curlEasyInit := false }]
        (start { interceptor := { isRedirectionInterceptor := true } }
          (ascii "https://a.example/")) ∧
      ¬ Throughout (step openPolicy) CompletesOnce [.call {}, .destroy, .store]
        (start { interceptor := { isInitialRequestInterceptor := true } }
          (ascii "https://a.example/")) := by
  decide +kernel

end Request

end Netstack.HttpExec
