import Netstack.HttpExec.Effects

/-!
# Runs of a request

The thread that makes a request calls `ExecRequest` and writes its result to the flag of
the context. The driver thread takes the request from its queue and reports the end of each
transfer. Interceptors and the completion callback run on the JS thread once it is free.

## Implementation notes

An event is one piece of work of a thread between two points at which another may come in.
The application may call `destroy` between its other calls, and in a handler that
`ExecRequest` calls. Nothing reads the flag between such a handler and the end of the
wrapper, so that this is an event of its own as well.
-/

namespace Netstack.HttpExec

open Foundation RequestContext Option

inductive Event where
  /-- The JS thread calls `ExecRequest`. -/
  | call (answers : Answers)
  /-- It writes the result to the flag and leaves the wrapper. -/
  | store
  /-- The async work of the wrapper. -/
  | asyncWork (answers : Answers)
  /-- The driver takes the request from its queue. -/
  | accept (added : Bool)
  /-- Curl has a message for the driver. -/
  | message (m : CurlMessage)
  /-- `HandleCurlData` passes the context on. -/
  | deliver
  /-- The JS loop calls an interceptor that was queued. -/
  | intercept (invocation : Invocation) (answers : Answers)
  /-- The promise of an interceptor settles. -/
  | settle (settlement : Settlement) (answers : Answers)
  /-- The JS loop calls the completion callback. -/
  | complete (invocation : Invocation)
  /-- The application calls `destroy`. -/
  | destroy

/-- A callback that deletes the context has it or will have it next. -/
def Holder.isHandedOver : Holder → Bool
  | .uvCompletion => true
  | .promise stage => decide (stage = .finalResponse)
  | _ => false

/-- A handler of the application is called inside `ExecRequest`. -/
def Answers.callsHandler (c : RequestSettings) (a : Answers) : Bool :=
  c.interceptor.isInitialRequestInterceptor && a.initialRequest.isMade ||
    c.isUsingCache && a.readResponseFromCache && c.interceptor.isCacheCheckedInterceptor &&
      a.cacheChecked.isMade

variable {h : Holder} {e : Event} (a : Answers)

namespace Request

/-- A request as it is when it is made. -/
def start (settings : RequestSettings) (url : Bytes) : Request :=
  { context := { settings := settings, url := url } }

/-- The end of `InterfaceWithOutAsyncWorkWithManagerWrapper`, which does not look at who
has the context. -/
def leaveWrapper (s : Request) : Request :=
  let s := if s.holder = some .caller then s.take else s
  if s.context.needsAsyncWork then
    { s with jsThread := .free, asyncWork := true, handedOver := s.handedOver + 1 }
  else { s with jsThread := .free }

variable (policy : Policy)

/-- A sync request with wrong parameters throws before it is executed. -/
def call (a : Answers) (s : Request) : Request :=
  if s.context.settings.isParseOK = false then
    if s.context.settings.isSyncWait then
      { s.take with outcome := some false, jsThread := .ended }
    else (s.onContext (·.setErrorCode parseErrorCode)).leaveWrapper
  else
    { (s.execRequest policy a).2 with
      jsThread := .returned (s.execRequest policy a).1
      handlerCalled := a.callsHandler s.context.settings }

/-- The end of `RequestSync`; its wrapper returns or throws and deletes the context. -/
def returnSync (execResult : Bool) (s : Request) : Request :=
  { (s.onContext (·.setExecOK execResult)).take with
    outcome := some execResult, jsThread := .ended }

/-- `ExecAsyncWork` on a worker thread and then `AsyncWorkCallback`, which deletes the
context. -/
def runAsyncWork (a : Answers) (s : Request) : Request :=
  let s := if s.context.settings.isParseOK = false then
      s.onContext (·.setErrorCode parseErrorCode)
    else (s.execRequest policy a).2.onContext (·.setExecOK (s.execRequest policy a).1)
  { s.take with
    asyncWork := false
    outcome := some (s.context.settings.isParseOK && s.context.execOK) }

def step (s : Request) : Event → Option Request
  | .call a => if s.jsThread = .calling then some (s.call policy a) else none
  | .store =>
    match s.jsThread with
    | .returned r =>
      if s.context.settings.isSyncWait then
        if r = true ∧ s.syncComplete = false then none else some (s.returnSync r)
      else some (s.onContext (·.setExecOK r)).leaveWrapper
    | _ => none
  | .asyncWork a =>
    if s.jsThread = .free ∧ s.asyncWork = true then some (s.runAsyncWork policy a) else none
  | .accept added =>
    if s.holder = some .incoming then some (s.take.incomingRequestCallback added) else none
  | .message m => if s.holder = some .curl then some (s.take.checkMultiInfo m) else none
  | .deliver => if s.holder = some .completing then some s.take.passOn else none
  | .intercept invocation a =>
    match s.jsThread, s.holder with
    | .free, some .uvConnectNetwork => some (s.take.connectNetworkInterceptor invocation)
    | .free, some (.uvRedirection m) => some (s.take.redirectionInterceptor m a invocation)
    | _, _ => none
  | .settle settlement a =>
    match s.jsThread, s.holder with
    | .free, some (.promise stage) => some (s.take.settle a stage settlement)
    | _, _ => none
  | .complete invocation =>
    if s.jsThread = .free ∧ s.holder = some .uvCompletion then
      some (s.take.asyncWorkRequestCallback invocation)
    else none
  | .destroy =>
    if s.jsThread = .calling ∨ s.jsThread = .free ∨ s.handlerCalled = true then
      some (s.onContext (·.setEventDestroy))
    else none

/-- The steps with their guards. -/
inductive Step (policy : Policy) (s : Request) : Event → Request → Prop where
  | call (a : Answers) (hjs : s.jsThread = .calling) : Step policy s (.call a) (s.call policy a)
  | storeSync (r : Bool) (hjs : s.jsThread = .returned r)
      (hsync : s.context.settings.isSyncWait = true) (hdone : r = true → s.syncComplete = true) :
      Step policy s .store (s.returnSync r)
  | storeAsync (r : Bool) (hjs : s.jsThread = .returned r)
      (hasync : s.context.settings.isSyncWait = false) :
      Step policy s .store (s.onContext (·.setExecOK r)).leaveWrapper
  | asyncWork (a : Answers) (hjs : s.jsThread = .free) (hwork : s.asyncWork = true) :
      Step policy s (.asyncWork a) (s.runAsyncWork policy a)
  | accept (added : Bool) (hholder : s.holder = some .incoming) :
      Step policy s (.accept added) (s.take.incomingRequestCallback added)
  | message (m : CurlMessage) (hholder : s.holder = some .curl) :
      Step policy s (.message m) (s.take.checkMultiInfo m)
  | deliver (hholder : s.holder = some .completing) : Step policy s .deliver s.take.passOn
  | connectNetwork (invocation : Invocation) (a : Answers) (hjs : s.jsThread = .free)
      (hholder : s.holder = some .uvConnectNetwork) :
      Step policy s (.intercept invocation a) (s.take.connectNetworkInterceptor invocation)
  | redirection (m : CurlMessage) (invocation : Invocation) (a : Answers)
      (hjs : s.jsThread = .free) (hholder : s.holder = some (.uvRedirection m)) :
      Step policy s (.intercept invocation a) (s.take.redirectionInterceptor m a invocation)
  | settle (stage : Stage) (settlement : Settlement) (a : Answers) (hjs : s.jsThread = .free)
      (hholder : s.holder = some (.promise stage)) :
      Step policy s (.settle settlement a) (s.take.settle a stage settlement)
  | complete (invocation : Invocation) (hjs : s.jsThread = .free)
      (hholder : s.holder = some .uvCompletion) :
      Step policy s (.complete invocation) (s.take.asyncWorkRequestCallback invocation)
  | destroy (hjs : s.jsThread = .calling ∨ s.jsThread = .free ∨ s.handlerCalled = true) :
      Step policy s .destroy (s.onContext (·.setEventDestroy))

variable {policy : Policy} {s t : Request} {ok : Bytes → Prop} {route : Route}

theorem Step.of_step (h : s.step policy e = some t) : s.Step policy e t := by
  cases e with
  | call a =>
    obtain ⟨hjs, ⟨⟩⟩ := ite_none_right_eq_some.mp h
    exact .call a hjs
  | store =>
    simp only [step] at h
    split at h
    · rename_i r hjs
      by_cases hsync : s.context.settings.isSyncWait = true
      · rw [if_pos hsync] at h
        obtain ⟨hdone, ⟨⟩⟩ := ite_none_left_eq_some.mp h
        exact .storeSync r hjs hsync fun hr => by simpa [hr] using hdone
      · rw [if_neg hsync] at h
        cases h
        exact .storeAsync r hjs (by simpa using hsync)
    · cases h
  | asyncWork a =>
    obtain ⟨⟨hjs, hwork⟩, ⟨⟩⟩ := ite_none_right_eq_some.mp h
    exact .asyncWork a hjs hwork
  | accept added =>
    obtain ⟨hholder, ⟨⟩⟩ := ite_none_right_eq_some.mp h
    exact .accept added hholder
  | message m =>
    obtain ⟨hholder, ⟨⟩⟩ := ite_none_right_eq_some.mp h
    exact .message m hholder
  | deliver =>
    obtain ⟨hholder, ⟨⟩⟩ := ite_none_right_eq_some.mp h
    exact .deliver hholder
  | intercept invocation a =>
    simp only [step] at h
    split at h
    · rename_i hjs hholder
      cases h
      exact .connectNetwork invocation a hjs hholder
    · rename_i m hjs hholder
      cases h
      exact .redirection m invocation a hjs hholder
    · cases h
  | settle settlement a =>
    simp only [step] at h
    split at h
    · rename_i stage hjs hholder
      cases h
      exact .settle stage settlement a hjs hholder
    · cases h
  | complete invocation =>
    obtain ⟨⟨hjs, hholder⟩, ⟨⟩⟩ := ite_none_right_eq_some.mp h
    exact .complete invocation hjs hholder
  | destroy =>
    obtain ⟨hjs, ⟨⟩⟩ := ite_none_right_eq_some.mp h
    exact .destroy hjs

/-- The request is executed. -/
@[mk_iff]
structure Admits (policy : Policy) (s : Request) : Prop where
  passed : (s.context.execRequestCheck policy).1 = true
  manager : s.context.settings.hasSharedManager = true
  alive : s.context.isEventDestroy = false

instance (policy : Policy) (s : Request) : Decidable (s.Admits policy) :=
  decidable_of_iff' _ (admits_iff policy s)

theorem execRequest_refused (h : ¬ s.Admits policy) :
    s.execRequest policy a =
      (false, { s with context := (s.context.execRequestCheck policy).2 }) := by
  simp only [execRequest]
  by_cases hpassed : (s.context.execRequestCheck policy).1 = true
  · have hclosed : s.context.settings.hasSharedManager = false ∨
        s.context.isEventDestroy = true := by
      by_contra hopen
      rw [not_or, Bool.not_eq_false, Bool.not_eq_true] at hopen
      exact h ⟨hpassed, hopen.1, hopen.2⟩
    rw [execRequestCheck_passed hpassed, if_neg Bool.noConfusion, if_pos hclosed]
  · rw [if_pos (by simpa using hpassed)]

theorem execRequest_admitted (h : s.Admits policy) :
    s.execRequest policy a =
      if s.context.settings.interceptor.isInitialRequestInterceptor then
        (true, s.take.initialRequestInterceptor a a.initialRequest)
      else s.take.handleInitialRequestPostProcessing a := by
  simp only [execRequest, execRequestCheck_passed h.passed]
  rw [if_neg Bool.noConfusion, if_neg]
  rw [h.manager, h.alive]
  simp

theorem execRequest_leads (h : s.Admits policy)
    (hinitial : s.context.settings.interceptor.isInitialRequestInterceptor = true →
      ∀ u ∈ a.initialRequest.newUrl, ok (cString u))
    (hglobal : ∀ u ∈ a.globalInterceptor.newUrl, ok (cString u)) :
    Leads ok s.take (executionRoute s.context.settings a) (s.execRequest policy a).2 := by
  rw [execRequest_admitted a h, executionRoute]
  split_ifs with hregistered
  · exact initialRequestInterceptor_leads hglobal (hinitial hregistered)
  · exact (handleInitialRequestPostProcessing_leads hglobal s.take).2

/-- What holds in every state of a run: a context with somebody is not completed, one on
its way passed the checks and was not handed over before but to the async work of the
wrapper, and the flags of the checks and the async work mean what they say. -/
structure Tracks (policy : Policy) (s : Request) : Prop where
  calling : s.jsThread = .calling → s.holder = some .caller
  free : s.jsThread = .free → s.context.settings.isSyncWait = false
  sync : s.syncComplete = true → s.context.settings.isSyncWait = true
  unread : s.outcome ≠ none → s.jsThread = .free ∨ s.jsThread = .ended
  held : s.holder ≠ none ∨ s.asyncWork = true → s.outcome = none ∧ s.syncComplete = false
  passed : ∀ h ∈ s.holder, h ≠ .caller →
    s.context.settings.hasSharedManager = true ∧ s.context.isRefused = false
  fresh : ∀ h ∈ s.holder, h.isHandedOver = false → s.handedOver = s.asyncWork.toNat
  refused : s.context.RefusalHolds policy
  asyncWork : s.asyncWork = true → s.context.needsAsyncWork = true ∧ s.jsThread = .free

namespace Tracks

theorem of_start (policy : Policy) (settings : RequestSettings) (url : Bytes) :
    (start settings url).Tracks policy where
  calling _ := rfl
  free := nofun
  sync := nofun
  unread houtcome := absurd rfl houtcome
  held _ := ⟨rfl, rfl⟩
  passed := by
    rintro _ ⟨⟩ hcaller
    exact absurd rfl hcaller
  fresh _ _ _ := rfl
  refused := nofun
  asyncWork := nofun

section

variable (htracks : s.Tracks policy)
include htracks

/-- A context that somebody has is not completed. -/
theorem pending (hholder : s.holder = some h) : s.outcome = none ∧ s.syncComplete = false :=
  htracks.held (Or.inl (hholder ▸ nofun))

/-- The async work comes after the wrapper. -/
theorem asyncWork_eq_false (hjs : s.jsThread ≠ .free) : s.asyncWork = false :=
  eq_false_of_ne_true fun hwork => hjs (htracks.asyncWork hwork).2

theorem unread_of_returned {r : Bool}
    (hjs : s.jsThread = .returned r) : s.outcome = none := by
  grind [@htracks.unread]

/-- A stage took the context from its holder and forwarded it. -/
theorem forwarded (hholder : s.holder = some h)
    (hbefore : h.isHandedOver = false) (hmanager : s.context.settings.hasSharedManager = true)
    (hrefused : s.context.isRefused = false) (hforwards : s.take.Forwards t)
    {j : JsThread} {b : Bool} (hcalling : j ≠ .calling)
    (hfree : j = .free → s.context.settings.isSyncWait = false)
    (hwork : s.asyncWork = true → j = .free) :
    ({ t with jsThread := j, handlerCalled := b } : Request).Tracks policy := by
  obtain ⟨houtcome, hsync⟩ := htracks.pending hholder
  have hsettings : t.context.settings = s.context.settings := hforwards.settings
  have hrefused' : t.context.isRefused = false := hforwards.isRefused.trans hrefused
  have hwork' : t.asyncWork = s.asyncWork := hforwards.asyncWork
  have hsync' : t.syncComplete = false := hforwards.syncComplete.trans hsync
  constructor
  · exact fun heq => absurd heq hcalling
  · intro heq
    rw [hsettings]
    exact hfree heq
  · grind
  · exact fun hread => absurd (hforwards.outcome.trans houtcome) hread
  · exact fun _ => ⟨hforwards.outcome.trans houtcome, hsync'⟩
  · grind
  · intro h' hh' hbefore'
    have hne : t.holder ≠ some .uvCompletion := by
      rintro heq
      obtain rfl := Option.some.inj (heq.symm.trans hh')
      cases hbefore'
    have hhanded := hforwards.handedOver
    rw [if_neg hne, Nat.add_zero] at hhanded
    change t.handedOver = t.asyncWork.toNat
    rw [hwork', hhanded]
    exact htracks.fresh h hholder hbefore
  · intro heq
    cases hrefused'.symm.trans heq
  · intro heq
    have hsome := hwork'.symm.trans heq
    exact ⟨hforwards.needsAsyncWork.trans (htracks.asyncWork hsome).1, hwork hsome⟩

end

/-- The context was completed. -/
theorem dropped (hnone : s.holder = none) (hwork : s.asyncWork = false)
    (hcalling : s.jsThread ≠ .calling)
    (hfree : s.jsThread = .free → s.context.settings.isSyncWait = false)
    (hsync : s.syncComplete = true → s.context.settings.isSyncWait = true)
    (hunread : s.outcome ≠ none → s.jsThread = .free ∨ s.jsThread = .ended)
    (hrefused : s.context.RefusalHolds policy) : s.Tracks policy where
  calling heq := absurd heq hcalling
  free := hfree
  sync := hsync
  unread := hunread
  held hsome := by simp [hnone, hwork] at hsome
  passed h hh := by rw [hnone] at hh; cases hh
  fresh h hh := by rw [hnone] at hh; cases hh
  refused := hrefused
  asyncWork heq := absurd (hwork.symm.trans heq) Bool.noConfusion

variable (htracks : s.Tracks policy)
include htracks

/-- The context goes from one holder on the way of the request to another. -/
theorem moved {h h' : Holder} (hholder : s.holder = some h)
    (hcaller : h ≠ .caller) (hbefore : h'.isHandedOver = false → h.isHandedOver = false) :
    (s.take.give h').Tracks policy where
  calling heq := absurd (hholder.symm.trans (htracks.calling heq)) (by simpa using hcaller)
  free := htracks.free
  sync := htracks.sync
  unread := htracks.unread
  held _ := htracks.pending hholder
  passed _ _ _ := htracks.passed h hholder hcaller
  fresh := by
    rintro _ ⟨⟩ hlate
    exact htracks.fresh h hholder (hbefore hlate)
  refused := htracks.refused
  asyncWork := htracks.asyncWork

/-- A change of the context that no check looks at. -/
theorem edited {c : RequestContext}
    (hsettings : c.settings = s.context.settings) (hurl : c.url = s.context.url)
    (hrefused : c.isRefused = s.context.isRefused)
    (hneeds : s.context.needsAsyncWork = true → c.needsAsyncWork = true) :
    ({ s with context := c } : Request).Tracks policy where
  calling := htracks.calling
  free heq := (congrArg _ hsettings).trans (htracks.free heq)
  sync heq := (congrArg _ hsettings).trans (htracks.sync heq)
  unread := htracks.unread
  held := htracks.held
  passed h hh hcaller := by
    change c.settings.hasSharedManager = true ∧ c.isRefused = false
    rw [hrefused, hsettings]
    exact htracks.passed h hh hcaller
  fresh := htracks.fresh
  refused := htracks.refused.congr hsettings hurl hrefused
  asyncWork heq := (htracks.asyncWork heq).imp_left hneeds

/-- The wrapper makes an async work for a context that is with somebody or with nobody. -/
theorem leaveWrapper (hasync : s.context.settings.isSyncWait = false) (hunread : s.outcome = none)
    (hjs : s.jsThread ≠ .free) : s.leaveWrapper.Tracks policy := by
  have hsync : s.syncComplete = false := by
    grind [@htracks.sync]
  have hwork := htracks.asyncWork_eq_false hjs
  simp only [Request.leaveWrapper]
  split_ifs with hcaller hneeds hneeds
  · exact ⟨nofun, fun _ => hasync, htracks.sync, fun _ => Or.inl rfl, fun _ => ⟨hunread, hsync⟩,
      nofun, nofun, htracks.refused, fun _ => ⟨hneeds, rfl⟩⟩
  · exact dropped rfl hwork nofun (fun _ => hasync) htracks.sync (fun _ => Or.inl rfl)
      htracks.refused
  · refine ⟨nofun, fun _ => hasync, htracks.sync, fun _ => Or.inl rfl, fun _ => ⟨hunread, hsync⟩,
      htracks.passed, fun h hh hbefore => ?_, htracks.refused, fun _ => ⟨hneeds, rfl⟩⟩
    change s.handedOver + 1 = 1
    rw [htracks.fresh h hh hbefore, hwork]
    rfl
  · exact ⟨nofun, fun _ => hasync, htracks.sync, fun _ => Or.inl rfl, htracks.held,
      htracks.passed, htracks.fresh, htracks.refused, fun heq => ⟨(htracks.asyncWork heq).1, rfl⟩⟩

/-- A request that needs the async work of the wrapper is refused again, or it had wrong
parameters. -/
theorem not_admits (hneeds : s.context.needsAsyncWork = true)
    (hparse : s.context.settings.isParseOK = true) : ¬ s.Admits policy := by
  intro hadmits
  simp only [needsAsyncWork, hparse, hadmits.alive, Bool.not_true, Bool.false_or,
    Bool.and_false, Bool.or_false] at hneeds
  cases hadmits.passed.symm.trans (htracks.refused hneeds)

/-- The async work reports a failure. -/
theorem runAsyncWork_eq (hwork : s.asyncWork = true)
    (a : Answers) : ∃ c : RequestContext, c.settings = s.context.settings ∧
      c.url = s.context.url ∧ c.RefusalHolds policy ∧ s.runAsyncWork policy a =
        { s with context := c, holder := none, asyncWork := false, outcome := some false } := by
  by_cases hparse : s.context.settings.isParseOK = false
  · refine ⟨s.context.setErrorCode parseErrorCode, rfl, rfl,
      htracks.refused.congr rfl rfl rfl, ?_⟩
    simp only [runAsyncWork, if_pos hparse]
    simp [onContext, setErrorCode, take, hparse]
  · obtain ⟨hsettings, hurl, -⟩ := s.context.execRequestCheck_keeps policy
    have heq := execRequest_refused a
      (htracks.not_admits (htracks.asyncWork hwork).1 (eq_true_of_ne_false hparse))
    refine ⟨(s.context.execRequestCheck policy).2.setExecOK false, hsettings, hurl,
      htracks.refused.check.congr rfl rfl rfl, ?_⟩
    simp only [runAsyncWork, if_neg hparse, heq]
    simp [onContext, setExecOK, take]

/-- `ExecRequest` and the rest of the call. -/
theorem call (hjs : s.jsThread = .calling) (a : Answers) : (s.call policy a).Tracks policy := by
  have hholder := htracks.calling hjs
  obtain ⟨hunread, hsync⟩ := htracks.pending hholder
  have hwork := htracks.asyncWork_eq_false (hjs ▸ nofun)
  rw [Request.call]
  split_ifs with hparse hwait
  · exact dropped rfl hwork (by simp) (by simp)
      (fun heq => absurd (hsync.symm.trans heq) Bool.noConfusion)
      (fun _ => Or.inr rfl) htracks.refused
  · exact (htracks.edited (c := s.context.setErrorCode parseErrorCode) rfl rfl rfl id).leaveWrapper
      (eq_false_of_ne_true hwait) hunread (hjs ▸ nofun)
  · by_cases hadmits : s.Admits policy
    · have hrefused : s.context.isRefused = false := by
        by_contra hnot
        have hfail := htracks.refused (by simpa using hnot)
        cases hadmits.passed.symm.trans hfail
      have hleads : Leads (fun _ => True) s.take _ _ :=
        execRequest_leads a hadmits (fun _ _ _ => trivial) fun _ _ => trivial
      exact htracks.forwarded hholder rfl hadmits.manager hrefused
        (hleads.forwards hadmits.manager rfl).1 (by simp) (by simp)
        fun hsome => absurd (hwork.symm.trans hsome) Bool.noConfusion
    · rw [execRequest_refused a hadmits]
      refine ⟨by simp, by simp, ?_, fun hread => absurd hunread hread, fun _ => ⟨hunread, hsync⟩,
        ?_, fun h hh hlate => htracks.fresh h hh hlate, htracks.refused.check, ?_⟩
      · intro heq
        cases hsync.symm.trans heq
      · intro h hh hcaller
        exact absurd (Option.some.inj (hh.symm.trans hholder)) hcaller
      · intro heq
        cases hwork.symm.trans heq

/-- The outcome is reported. The final interceptor may have changed the URL before, but
nobody looks at it again. -/
theorem reported (hjs : s.jsThread = .free)
    (hholder : s.holder = some h) (hcaller : h ≠ .caller)
    (hedits : s.take.Edits t) : t.finalResponseProcessing.Tracks policy := by
  have hpassed := (htracks.passed h hholder hcaller).2
  have hjs' : t.jsThread = .free := hedits.jsThread.trans hjs
  have hsettings : t.context.settings = s.context.settings := hedits.settings
  refine dropped hedits.holder rfl ?_ ?_ ?_ (fun _ => Or.inl hjs') ?_
  · intro hcalling
    cases hjs'.symm.trans hcalling
  · exact fun _ => (congrArg _ hsettings).trans (htracks.free hjs)
  · exact fun hsync => (congrArg _ hsettings).trans
      (htracks.sync (hedits.syncComplete.symm.trans hsync))
  · intro hset
    cases hpassed.symm.trans (hedits.isRefused.symm.trans hset)

/-- A stage that does not run on behalf of the caller took the context and passed it on. -/
theorem passedOn (hholder : s.holder = some h)
    (hcaller : h ≠ .caller) (hbefore : h.isHandedOver = false)
    (hleads : Leads (fun _ => True) s.take route t) : t.Tracks policy := by
  obtain ⟨hmanager, hrefused⟩ := htracks.passed h hholder hcaller
  have hforwards := (hleads.forwards hmanager rfl).1
  have hjs : t.jsThread = s.jsThread := hforwards.jsThread
  apply htracks.forwarded hholder hbefore hmanager hrefused hforwards (j := t.jsThread)
    (b := t.handlerCalled)
  · rw [hjs]
    intro hcalling
    exact hcaller (Option.some.inj (hholder.symm.trans (htracks.calling hcalling)))
  · rw [hjs]
    exact htracks.free
  · exact fun hsome => hjs.trans (htracks.asyncWork hsome).2

/-- The promise of an interceptor settles. -/
theorem settle (hjs : s.jsThread = .free) {stage : Stage}
    (hholder : s.holder = some (.promise stage)) (settlement : Settlement) (a : Answers) :
    (s.take.settle a stage settlement).Tracks policy := by
  by_cases hstage : stage = .finalResponse
  · obtain ⟨u, hedits, -, heq⟩ := settleFinalResponse_spec settlement s.take
    rw [hstage, Request.settle, heq]
    exact htracks.reported hjs hholder nofun hedits
  · exact htracks.passedOn hholder nofun (decide_eq_false hstage)
      (settle_leads (fun _ _ => trivial) hstage fun _ _ => trivial)

theorem step (h : s.Step policy e t) : t.Tracks policy := by
  cases h with
  | call a hjs => exact htracks.call hjs a
  | storeSync r hjs hsync hdone =>
    exact dropped rfl (htracks.asyncWork_eq_false (hjs ▸ nofun)) nofun nofun htracks.sync
      (fun _ => Or.inr rfl) (htracks.refused.congr rfl rfl rfl)
  | storeAsync r hjs hasync =>
    have hedited := htracks.edited (c := s.context.setExecOK r) rfl rfl rfl id
    exact hedited.leaveWrapper hasync (htracks.unread_of_returned hjs) (hjs ▸ nofun)
  | asyncWork a hjs hwork =>
    obtain ⟨c, hsettings, -, hrefused, heq⟩ := htracks.runAsyncWork_eq hwork a
    grind [dropped, @htracks.free, @htracks.sync]
  | accept added hholder =>
    exact htracks.passedOn hholder nofun rfl (incomingRequestCallback_leads added _)
  | message m hholder => exact htracks.passedOn hholder nofun rfl (checkMultiInfo_leads m _)
  | deliver hholder =>
    rw [passOn]
    split_ifs with hsync
    · have hfree : s.jsThread ≠ .free := fun hjs => by cases hsync.symm.trans (htracks.free hjs)
      exact dropped rfl (htracks.asyncWork_eq_false hfree)
        (fun hjs => absurd (hholder.symm.trans (htracks.calling hjs)) nofun)
        htracks.free (fun _ => hsync) htracks.unread htracks.refused
    · exact htracks.passedOn hholder nofun rfl (leads_follow (.enqueued false none) rfl)
  | connectNetwork invocation a hjs hholder =>
    exact htracks.passedOn hholder nofun rfl (connectNetworkInterceptor_leads fun _ _ => trivial)
  | redirection m invocation a hjs hholder =>
    exact htracks.passedOn hholder nofun rfl
      (redirectionInterceptor_leads (fun _ _ => trivial) fun _ _ => trivial)
  | settle stage settlement a hjs hholder => exact htracks.settle hjs hholder settlement a
  | complete invocation hjs hholder =>
    obtain ⟨u, hedits, -, heq⟩ | heq := asyncWorkRequestCallback_spec invocation s.take
    · exact heq ▸ htracks.reported hjs hholder nofun hedits
    · exact heq ▸ htracks.moved hholder nofun nofun
  | destroy hjs => exact htracks.edited rfl rfl rfl needsAsyncWork_setEventDestroy

end Tracks

end Request

end Netstack.HttpExec
