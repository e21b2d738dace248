import Netstack.HttpClient.Task

/-!
# The outcome of a canceled transfer

`Cancel` sets a flag that the callbacks of curl look at. The progress callback then makes curl end
with `CURLE_ABORTED_BY_CALLBACK`, the header and the data callback with `CURLE_WRITE_ERROR`.
`ProcessResponse` takes only the first for a cancellation.

## Implementation notes

`Cancel` may also be called while the header callback is running.
-/

namespace Netstack.HttpClient

open Foundation Foundation.Execution HttpClientTask Option

def curleWriteError : Nat := 23

def Report.isCanceled : Report → Bool
  | .canceled _ => true
  | _ => false

namespace HttpClientTask

def progressCallback (canceled : Bool) : Nat := if canceled then curleAbortedByCallback else 0

/-- The header callback, if `Cancel` is called after the flag was looked at for the first time. -/
def headerReceiveCallbackLate (t : HttpClientTask) (data : Bytes) : Nat × HttpClientTask :=
  if data.length > maxDataLimit then (0, t)
  else (data.length, t.onResponse fun r => { r with rawHeader := r.rawHeader ++ data })

/-- `ProcessResponse` of a request without cache, up to the last call of a listener. -/
def reportResult (m : TransferResult) (t : HttpClientTask) : HttpClientTask :=
  let canceled := t.handleCancelCallback m
  if canceled.1 then canceled.2
  else
    let failed := canceled.2.handleErrorCallback m
    if failed.1 then failed.2
    else
      let processed := failed.2.processResponseCoreLogic m
      processed.2.handleResultCallback processed.1

section Completion

variable {m : TransferResult} {t : HttpClientTask}

theorem handleCancelCallback_of_ne (h : m.code ≠ curleAbortedByCallback) :
    t.handleCancelCallback m = (false, t) :=
  if_pos h

theorem handleCancelCallback_of_eq (h : m.code = curleAbortedByCallback) :
    (t.handleCancelCallback m).1 = true := by
  rw [handleCancelCallback, if_neg (not_not.mpr h)]

theorem handleErrorCallback_of_ok (h : m.code = curleOk) : t.handleErrorCallback m = (false, t) :=
  if_pos h

theorem handleErrorCallback_of_ne (h : m.code ≠ curleOk) :
    t.handleErrorCallback m = (true, t.reportFailed) :=
  if_neg h

theorem reportResult_of_aborted (h : m.code = curleAbortedByCallback) :
    t.reportResult m = (t.handleCancelCallback m).2 := by
  simp only [reportResult, handleCancelCallback_of_eq h, if_true]

theorem reportResult_of_failed (habort : m.code ≠ curleAbortedByCallback) (hok : m.code ≠ curleOk) :
    t.reportResult m = t.reportFailed := by
  simp only [reportResult, handleCancelCallback_of_ne habort, handleErrorCallback_of_ne hok,
    Bool.false_eq_true, if_false, if_true]

theorem reportResult_of_ok (hok : m.code = curleOk) :
    t.reportResult m =
      (t.processResponseCoreLogic m).2.handleResultCallback (t.processResponseCoreLogic m).1 := by
  have habort : m.code ≠ curleAbortedByCallback := by
    rw [hok]
    decide
  simp only [reportResult, handleCancelCallback_of_ne habort, handleErrorCallback_of_ok hok,
    Bool.false_eq_true, if_false]

/-- Behind the last call of a listener there is nothing but the writing to the cache. -/
theorem processResponse_eq (rt : HttpCache.Runtime) (js : JsonLibrary) (time : HttpCache.HttpTime)
    (hcache : t.usingCache = false) (g : HttpCache.GlobalCache) :
    t.processResponse rt js time m g =
      if m.code = curleOk then
        ((t.logResponseInfo m).reportResult m).writeResopnseToCache rt time
          ((t.logResponseInfo m).reportResult m).response g
      else some ((t.logResponseInfo m).reportResult m, g) := by
  have hasked : t.processResponse rt js time m g =
      (t.logResponseInfo m).processTransfer rt time m g := by
    have hcache' : (t.logResponseInfo m).usingCache = false := hcache
    simp [processResponse, processUsingCache, hcache']
  rw [hasked]
  by_cases habort : m.code = curleAbortedByCallback
  · have hok : m.code ≠ curleOk := by
      rw [habort]
      decide
    rw [if_neg hok, reportResult_of_aborted habort]
    simp only [processTransfer, handleCancelCallback_of_eq habort, if_true]
  by_cases hok : m.code = curleOk
  · rw [if_pos hok, reportResult_of_ok hok]
    simp only [processTransfer, handleCancelCallback_of_ne habort, handleErrorCallback_of_ok hok,
      Bool.false_eq_true, if_false]
  · rw [if_neg hok, reportResult_of_failed habort hok]
    simp only [processTransfer, handleCancelCallback_of_ne habort, handleErrorCallback_of_ne hok,
      Bool.false_eq_true, if_false, if_true]

end Completion

/-- The listeners for the end of a transfer, and what they have been told. -/
structure Audience where
  hasOnSucceeded : Bool := true
  hasOnFailed : Bool := true
  hasOnCanceled : Bool := true
  reports : List Report := []

def audience (t : HttpClientTask) : Audience where
  hasOnSucceeded := t.hasOnSucceeded
  hasOnFailed := t.hasOnFailed
  hasOnCanceled := t.hasOnCanceled
  reports := t.reports

section Audience

variable (t : HttpClientTask)

theorem audience_dataReceiveCallback (call : ReceiveCall) :
    (t.dataReceiveCallback call).2.audience = t.audience := by
  rw [dataReceiveCallback]
  split_ifs <;> rfl

theorem audience_headerReceiveCallback (call : ReceiveCall) :
    (t.headerReceiveCallback call).2.audience = t.audience := by
  simp only [headerReceiveCallback]
  split_ifs <;> rfl

theorem audience_headerReceiveCallbackLate (data : Bytes) :
    (t.headerReceiveCallbackLate data).2.audience = t.audience := by
  rw [headerReceiveCallbackLate]
  split_ifs <;> rfl

theorem audience_processResponseCode (m : TransferResult) :
    (t.processResponseCode m).2.audience = t.audience := by
  rw [processResponseCode]
  split <;> rfl

theorem audience_processResponseCoreLogic (m : TransferResult) :
    (t.processResponseCoreLogic m).2.audience = t.audience := by
  have hcookie : (t.processCookie m).audience = t.audience := by
    rw [processCookie]
    split <;> rfl
  have htype (u : HttpClientTask) : u.processResponseExpectType.audience = u.audience := by
    rw [processResponseExpectType]
    split_ifs <;> rfl
  calc
    _ = (((t.processCookie m).onResponse
          HttpCache.HttpResponse.parseHeaders).processResponseExpectType).audience :=
      audience_processResponseCode _ m
    _ = (t.processCookie m).audience := htype _
    _ = t.audience := hcookie

end Audience

section Told

variable {t : HttpClientTask} (hall : t.audience = {})

include hall

theorem reports_reportFailed : t.reportFailed.reports = [.failed t.response] := by
  have hon : t.hasOnFailed = true := congrArg Audience.hasOnFailed hall
  have hnone : t.reports = [] := congrArg Audience.reports hall
  simp [reportFailed, report, hon, hnone]

theorem reports_reportSucceeded : t.reportSucceeded.reports = [.succeeded t.response] := by
  have hon : t.hasOnSucceeded = true := congrArg Audience.hasOnSucceeded hall
  have hnone : t.reports = [] := congrArg Audience.reports hall
  simp [reportSucceeded, report, hon, hnone]

theorem reports_handleCancelCallback {m : TransferResult} (h : m.code = curleAbortedByCallback) :
    (t.handleCancelCallback m).2.reports = [.canceled (t.processResponseCode m).2.response] := by
  have hall' : (t.processResponseCode m).2.audience = {} :=
    (audience_processResponseCode t m).trans hall
  have hon : (t.processResponseCode m).2.hasOnCanceled = true :=
    congrArg Audience.hasOnCanceled hall'
  have hnone : (t.processResponseCode m).2.reports = [] := congrArg Audience.reports hall'
  simp [handleCancelCallback, report, h, hon, hnone]

theorem reports_handleResultCallback (isResponseOk : Bool) :
    ∃ r, (t.handleResultCallback isResponseOk).reports = [r] ∧ r.isCanceled = false := by
  cases isResponseOk with
  | true => exact ⟨_, reports_reportSucceeded hall, rfl⟩
  | false => exact ⟨_, reports_reportFailed hall, rfl⟩

/-- With all listeners registered exactly one is told the end, and it is the one for cancellations
if and only if curl was aborted. -/
theorem reports_reportResult (m : TransferResult) :
    ∃ r, (t.reportResult m).reports = [r] ∧
      (r.isCanceled = true ↔ m.code = curleAbortedByCallback) := by
  by_cases habort : m.code = curleAbortedByCallback
  · rw [reportResult_of_aborted habort]
    exact ⟨_, reports_handleCancelCallback hall habort, by simp [Report.isCanceled, habort]⟩
  by_cases hok : m.code = curleOk
  · rw [reportResult_of_ok hok]
    obtain ⟨r, htold, hr⟩ := reports_handleResultCallback
      ((audience_processResponseCoreLogic t m).trans hall) (t.processResponseCoreLogic m).1
    exact ⟨r, htold, by simp [hr, habort]⟩
  · rw [reportResult_of_failed habort hok]
    exact ⟨_, reports_reportFailed hall, by simp [Report.isCanceled, habort]⟩

end Told

end HttpClientTask

/-- The callbacks that look at the flag. -/
inductive Callback where
  | header
  | data
  | progress
  deriving DecidableEq, Repr

/-- How curl ends a transfer that the callback stops. -/
def Callback.code : Callback → Nat
  | .progress => curleAbortedByCallback
  | _ => curleWriteError

/-- One started transfer. -/
structure Transfer where
  task : HttpClientTask
  canceled : Bool := false
  /-- The code with which curl has ended the transfer. -/
  ended : Option Nat := none
  /-- The callback that has seen the flag and stopped the transfer. -/
  stoppedBy : Option Callback := none
  completed : Bool := false

namespace Transfer

inductive Event where
  | cancel
  | header (data : Bytes) (late : Bool)
  | data (data : Bytes)
  | progress
  | finish (code : Nat)
  | complete (m : TransferResult)

variable (s : Transfer) {event : Event}

/-- A receive callback has returned: curl ends the transfer if it was not given all. -/
def received (callback : Callback) (given : Nat) (result : Nat × HttpClientTask) : Transfer :=
  if result.1 < given then
    { s with
      task := result.2
      ended := some curleWriteError
      stoppedBy := if s.canceled then some callback else none }
  else { s with task := result.2 }

/-- What curl does while the transfer goes on. -/
def progressed : Transfer :=
  if progressCallback s.canceled ≠ 0 then
    { s with ended := some curleAbortedByCallback, stoppedBy := some .progress }
  else s

def step : Event → Option Transfer
  | .cancel => some { s with canceled := true }
  | .header data late =>
    if s.ended = none then
      if late ∧ s.canceled = false then
        some { s.received .header data.length (s.task.headerReceiveCallbackLate data) with
          canceled := true }
      else
        some (s.received .header data.length
          (s.task.headerReceiveCallback { canceled := s.canceled, data := data }))
    else none
  | .data data =>
    if s.ended = none then
      some (s.received .data data.length
        (s.task.dataReceiveCallback { canceled := s.canceled, data := data }))
    else none
  | .progress => if s.ended = none then some s.progressed else none
  | .finish code => if s.ended = none then some { s with ended := some code } else none
  | .complete m =>
    if s.completed then none
    else
      s.ended.map fun code =>
        { s with
          task := (s.task.logResponseInfo { m with code := code }).reportResult
            { m with code := code }
          completed := true }

/-- The outcome of a transfer that is completed: one listener was told, and it was the one for
cancellations if a callback has stopped the transfer. -/
def Reported : Prop :=
  s.completed = true →
    ∃ r, s.task.reports = [r] ∧ (s.stoppedBy.isSome = true → r.isCanceled = true)

structure Consistent (s : Transfer) : Prop where
  untold : s.completed = false → s.task.audience = {}
  running : s.ended = none → s.completed = false ∧ s.stoppedBy = none
  stopped : ∀ callback, s.stoppedBy = some callback → s.ended = some callback.code

theorem consistent_start {t : HttpClientTask} (hall : t.audience = {}) :
    Consistent { task := t } where
  untold _ := hall
  running _ := ⟨rfl, rfl⟩
  stopped _ := nofun

theorem reported_of_incomplete {s : Transfer} (h : s.completed = false) : Reported s :=
  fun hdone => nomatch h.symm.trans hdone

section Step

variable {s}

variable (h : Consistent s)
include h

theorem Consistent.cancel : Consistent { s with canceled := true } where
  untold := h.untold
  running := h.running
  stopped := h.stopped

variable (hopen : s.ended = none)
include hopen

/-- A receive callback leaves a transfer that is not completed, in a consistent state. -/
theorem Consistent.received (callback : Callback)
    (hcode : callback.code = curleWriteError) (given : Nat) {result : Nat × HttpClientTask}
    (hkept : result.2.audience = s.task.audience) :
    Consistent (s.received callback given result) ∧
      (s.received callback given result).completed = false := by
  obtain ⟨hincomplete, hunstopped⟩ := h.running hopen
  have hall : result.2.audience = {} := hkept.trans (h.untold hincomplete)
  rw [Transfer.received]
  split
  · refine ⟨⟨fun _ => hall, nofun, ?_⟩, hincomplete⟩
    grind
  · refine ⟨⟨fun _ => hall, fun _ => ⟨hincomplete, hunstopped⟩, ?_⟩, hincomplete⟩
    grind

theorem Consistent.progressed : Consistent s.progressed ∧ s.progressed.completed = false := by
  obtain ⟨hincomplete, -⟩ := h.running hopen
  rw [Transfer.progressed]
  split
  · refine ⟨⟨h.untold, nofun, ?_⟩, hincomplete⟩
    rintro seen ⟨⟩
    rfl
  · exact ⟨h, hincomplete⟩

theorem Consistent.finish (code : Nat) : Consistent { s with ended := some code } where
  untold := h.untold
  running := nofun
  stopped _ hstopped := nomatch (h.running hopen).2.symm.trans hstopped

end Step

/-- What an event does to a transfer: it is completed, or it is canceled, or it is still open
afterwards. -/
inductive Happens (s : Transfer) : Event → Transfer → Prop
  | cancel : Happens s .cancel { s with canceled := true }
  | goesOn {event : Event} {t : Transfer} (hevent : ∀ m, event ≠ .complete m)
      (hconsistent : Consistent t) (hopen : t.completed = false) : Happens s event t
  | complete (m : TransferResult) {code : Nat} (hopen : s.completed = false)
      (hended : s.ended = some code) :
      Happens s (.complete m)
        { s with
          task := (s.task.logResponseInfo { m with code := code }).reportResult
            { m with code := code }
          completed := true }

theorem happens_of_step {s t : Transfer} (h : Consistent s)
    (hstep : s.step event = some t) : Happens s event t := by
  cases event with
  | cancel =>
    cases hstep
    exact .cancel
  | header data late =>
    obtain ⟨hopen, hheader⟩ := ite_none_right_eq_some.mp hstep
    split at hheader
    · cases hheader
      obtain ⟨hconsistent, hincomplete⟩ := h.received hopen .header rfl data.length
        (audience_headerReceiveCallbackLate s.task data)
      exact .goesOn nofun hconsistent.cancel hincomplete
    · cases hheader
      obtain ⟨hconsistent, hincomplete⟩ := h.received hopen .header rfl data.length
        (audience_headerReceiveCallback s.task _)
      exact .goesOn nofun hconsistent hincomplete
  | data data =>
    obtain ⟨hopen, hdata⟩ := ite_none_right_eq_some.mp hstep
    cases hdata
    obtain ⟨hconsistent, hincomplete⟩ := h.received hopen .data rfl data.length
      (audience_dataReceiveCallback s.task _)
    exact .goesOn nofun hconsistent hincomplete
  | progress =>
    obtain ⟨hopen, hprogress⟩ := ite_none_right_eq_some.mp hstep
    cases hprogress
    obtain ⟨hconsistent, hincomplete⟩ := h.progressed hopen
    exact .goesOn nofun hconsistent hincomplete
  | finish code =>
    obtain ⟨hopen, hfinish⟩ := ite_none_right_eq_some.mp hstep
    cases hfinish
    exact .goesOn nofun (h.finish hopen code) (h.running hopen).1
  | complete m =>
    obtain ⟨hincomplete, hcomplete⟩ := ite_none_left_eq_some.mp hstep
    obtain ⟨code, hended, rfl⟩ := map_eq_some_iff.mp hcomplete
    exact .complete m (Bool.eq_false_of_not_eq_true hincomplete) hended

theorem consistent_step {s t : Transfer} (h : Consistent s)
    (hstep : s.step event = some t) : Consistent t := by
  cases happens_of_step h hstep with
  | cancel => exact h.cancel
  | goesOn _ hconsistent _ => exact hconsistent
  | complete m hopen hended =>
    refine ⟨nofun, fun hnone => ?_, h.stopped⟩
    exact nomatch hended.symm.trans hnone

/-- The callback that has stopped the transfer, if one has, is the one for the progress. -/
def StoppedInProgress (s : Transfer) : Prop := ∀ callback ∈ s.stoppedBy, callback = .progress

instance (s : Transfer) : Decidable s.StoppedInProgress :=
  inferInstanceAs (Decidable (∀ callback ∈ s.stoppedBy, callback = .progress))

/-- When a transfer may be completed. -/
def Expected (s : Transfer) : Event → Prop
  | .complete _ => s.StoppedInProgress
  | _ => True

instance (s : Transfer) (event : Event) : Decidable (s.Expected event) := by
  cases event <;> dsimp only [Expected] <;> infer_instance

theorem expected_of_ne {s : Transfer} (h : ∀ m, event ≠ .complete m) : s.Expected event := by
  cases event with
  | complete m => exact absurd rfl (h m)
  | _ => trivial

/-- A transfer that was stopped ends as aborted if and only if the progress callback stopped it. -/
theorem stoppedInProgress_iff {s : Transfer} (h : Consistent s) {code : Nat}
    (hended : s.ended = some code) :
    s.StoppedInProgress ↔ (s.stoppedBy.isSome = true → code = curleAbortedByCallback) := by
  cases hstopped : s.stoppedBy with
  | none => simp [StoppedInProgress, hstopped]
  | some callback =>
    have hcode : code = callback.code :=
      some.inj (hended.symm.trans (h.stopped callback hstopped))
    cases callback <;>
      simp [StoppedInProgress, hstopped, hcode, Callback.code, curleAbortedByCallback,
        curleWriteError]

theorem reported_step_iff {s t : Transfer} (h : Consistent s) (hs : Reported s)
    (hstep : s.step event = some t) : Reported t ↔ s.Expected event := by
  cases happens_of_step h hstep with
  | cancel => exact iff_of_true hs trivial
  | goesOn hevent _ hopen =>
    exact iff_of_true (reported_of_incomplete hopen) (expected_of_ne hevent)
  | @complete m code hopen hended =>
    obtain ⟨r, htold, hr⟩ := reports_reportResult
      (t := s.task.logResponseInfo { m with code := code }) (h.untold hopen)
      { m with code := code }
    refine Iff.trans ?_ (stoppedInProgress_iff h hended).symm
    constructor
    · intro hreported hstopped
      obtain ⟨r', htold', hr'⟩ := hreported rfl
      grind
    · intro hcode _
      grind

/-- With all listeners registered, every completed transfer of a request without cache is reported
to exactly one, and as canceled if a callback has stopped it, if and only if none that the header
or the data callback has stopped is completed. -/
theorem reported_throughout_iff (t : HttpClientTask) (hall : t.audience = {})
    (events : List Event) :
    Throughout step Reported events { task := t } ↔ Meets step Expected events { task := t } :=
  throughout_iff_meets (fun _ _ _ h hstep => consistent_step h hstep)
    (fun _ _ _ h hs hstep => reported_step_iff h hs hstep) events (consistent_start hall)
    (reported_of_incomplete rfl)

theorem aborted_reported :
    Throughout step Reported [.cancel, .progress, .complete {}] { task := { request := {} } } :=
  (reported_throughout_iff _ rfl _).mpr (by decide)

/-- The data callback sees that the transfer is canceled, and the listener for failures is told. -/
theorem canceled_reported_failed :
    ∃ s,
      [Event.cancel, .data [1], .complete {}].foldlM step { task := { request := {} } } = some s ∧
      s.canceled = true ∧ s.stoppedBy = some .data ∧
      s.task.reports = [.failed s.task.response] ∧ ¬ Reported s := by
  refine ⟨_, rfl, rfl, rfl, rfl, ?_⟩
  intro h
  obtain ⟨r, htold, hr⟩ := h rfl
  obtain rfl := List.head_eq_of_cons_eq htold
  exact nomatch hr rfl

end Transfer

end Netstack.HttpClient
