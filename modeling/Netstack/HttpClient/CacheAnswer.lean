import Netstack.HttpClient.Task

/-!
# The cache after the transfer

A native task asks the cache when its transfer is done. If the stored response is fresh
the task reports it. If it is stale, `ReadResopnseFromCache` puts it in the place of the
response received and says that there is no answer, so that what is reported and written
back is the stale response with the status of the transfer.
-/

namespace Netstack.HttpClient

open Foundation Option HttpCache CacheProxy JsonText HttpClientTask

/-- The status, the headers and the body are the same. -/
def SameContent (r s : HttpResponse) : Prop :=
  r.responseCode = s.responseCode ∧ r.headers = s.headers ∧ r.setCookie = s.setCookie ∧
    r.result = s.result

def Report.answer : Report → Option HttpResponse
  | .succeeded response => some response
  | .failed response => some response
  | .canceled _ => none

namespace HttpClientTask

variable (rt : Runtime) (js : JsonLibrary) (time : HttpTime)

/-- The verdict on the stored response, if there is one. -/
def cacheVerdict (t : HttpClientTask) (g : GlobalCache) :
    Option (CacheStatus × HttpResponse) := do
  let (stored, _) ← t.proxy.readResponseFromCache rt js g
  let (status, _, response) ← t.proxy.strategy.runStrategy .httpClient time (← stored)
  some (status, response)

/-- What was given to `onSucceeded` and `onFailed` or written back. -/
def handedOut (t : HttpClientTask) : List HttpResponse :=
  t.reports.filterMap Report.answer ++ t.writtenBack

/-- Something is given to a listener or written back. -/
def HandsOut (m : TransferResult) (t : HttpClientTask) : Prop :=
  m.code = curleOk ∨ m.code ≠ curleAbortedByCallback ∧ t.hasOnFailed = true

end HttpClientTask

section Completion

variable (m : TransferResult) (type : HttpDataType)

variable (r : HttpResponse)

def withCookies : HttpResponse :=
  match m.cookieList with
  | none => r
  | some cookies =>
    { r with cookies := r.cookies ++
        HttpConstant.httpLineSeparator.intercalate (cookies.map cString) }

def withContentType : HttpResponse :=
  if type ≠ .noDataType then r
  else { r with headers := r.headers.insertIfNew httpContentType [] }

def withCode : HttpResponse :=
  match m.responseCode with
  | none => r
  | some code => { r with responseCode := code }

/-- What `ProcessResponseCoreLogic` makes of a response. -/
def completeResponse : HttpResponse :=
  withCode m (withContentType type (withCookies m r).parseHeaders)

end Completion

namespace HttpClientTask

/-- The response as the task hands it out if it does not ask the cache. -/
def completed (m : TransferResult) (t : HttpClientTask) : HttpResponse :=
  if m.code = curleOk then completeResponse m t.expectDataType t.response else t.response

section Spec

variable {rt js time} {m : TransferResult} {t t' : HttpClientTask} {g g' : GlobalCache}

variable (m)

section

variable (t)

theorem processCookie_eq : t.processCookie m = t.onResponse (withCookies m) := by
  unfold processCookie withCookies
  cases m.cookieList with
  | none => rfl
  | some cookies => rfl

theorem processResponseExpectType_eq :
    t.processResponseExpectType = t.onResponse (withContentType t.expectDataType) := by
  unfold processResponseExpectType withContentType
  split
  · rfl
  · rfl

theorem processResponseCode_eq : (t.processResponseCode m).2 = t.onResponse (withCode m) := by
  unfold processResponseCode withCode
  cases m.responseCode with
  | none => rfl
  | some code => rfl

/-- Completing a response changes nothing else of the task. -/
theorem processResponseCoreLogic_eq :
    (t.processResponseCoreLogic m).2 = t.onResponse (completeResponse m t.expectDataType) := by
  rw [processResponseCoreLogic, processResponseCode_eq, processResponseExpectType_eq,
    processCookie_eq]
  rfl

end

variable {m}

theorem handedOut_reportFailed (hreports : t.reports = []) (hwritten : t.writtenBack = [])
    (r : HttpResponse) : r ∈ t.reportFailed.handedOut ↔ t.hasOnFailed = true ∧ r = t.response := by
  grind [reportFailed, report, handedOut, Report.answer]

theorem handleResultCallback_spec (ret : Bool) (t : HttpClientTask) :
    (t.handleResultCallback ret).response = t.response ∧
      (t.handleResultCallback ret).writtenBack = t.writtenBack ∧
      ((t.handleResultCallback ret).reports = t.reports ∨
        ∃ report, report.answer = some t.response ∧
          (t.handleResultCallback ret).reports = t.reports ++ [report]) := by
  cases ret with
  | true =>
    simp only [handleResultCallback, if_true, reportSucceeded]
    split
    · exact ⟨rfl, rfl, Or.inr ⟨.succeeded t.response, rfl, rfl⟩⟩
    · exact ⟨rfl, rfl, Or.inl rfl⟩
  | false =>
    simp only [handleResultCallback, Bool.false_eq_true, if_false, reportFailed]
    split
    · exact ⟨rfl, rfl, Or.inr ⟨.failed t.response, rfl, rfl⟩⟩
    · exact ⟨rfl, rfl, Or.inl rfl⟩

/-- What is handed out without asking the cache is the completed response, and it is
handed out if there is anyone to take it. -/
theorem mem_handedOut_of_processTransfer (hreports : t.reports = [])
    (hwritten : t.writtenBack = []) (h : t.processTransfer rt time m g = some (t', g'))
    (r : HttpResponse) : r ∈ t'.handedOut ↔ t.HandsOut m ∧ r = t.completed m := by
  by_cases haborted : m.code = curleAbortedByCallback
  · have hnot : ¬ t.HandsOut m := by
      rintro (hok | ⟨hne, -⟩)
      · exact absurd (haborted.symm.trans hok) (by decide)
      · exact hne haborted
    rw [processTransfer, handleCancelCallback, if_neg (not_not.mpr haborted)] at h
    obtain ⟨rfl, -⟩ := Prod.mk.inj (Option.some.inj h)
    rw [processResponseCode_eq]
    refine iff_of_false ?_ fun h => hnot h.1
    split <;> simp [handedOut, report, onResponse, Report.answer, hreports, hwritten]
  · simp only [processTransfer, handleCancelCallback, handleErrorCallback, ne_eq, haborted,
      not_false_eq_true, if_true] at h
    by_cases hok : m.code = curleOk
    · simp only [if_pos hok, Bool.false_eq_true, if_false, writeResopnseToCache,
        bind_eq_bind, bind_eq_some_iff, Option.some.injEq, Prod.mk.injEq] at h
      obtain ⟨g₁, -, rfl, -⟩ := h
      obtain ⟨hresponse, hback, hreported⟩ := handleResultCallback_spec
        (t.processResponseCoreLogic m).1 (t.processResponseCoreLogic m).2
      rw [processResponseCoreLogic_eq] at hresponse hback hreported
      rw [completed, if_pos hok, and_iff_right (show t.HandsOut m from Or.inl hok), handedOut,
        processResponseCoreLogic_eq, hback, hresponse]
      grind [onResponse]
    · simp only [if_neg hok, Bool.false_eq_true, if_false, if_true] at h
      obtain ⟨rfl, -⟩ := Prod.mk.inj (Option.some.inj h)
      rw [handedOut_reportFailed hreports hwritten, completed, if_neg hok, HandsOut,
        or_iff_right hok, and_iff_right haborted]

/-- A task that the cache does not answer goes on with a stale response in the place of
the one received, or else with the one received. -/
theorem processUsingCache_of_not_fresh (husing : t.usingCache = true)
    (hfresh : ∀ cached, t.cacheVerdict rt js time g ≠ some (.fresh, cached))
    {answered : Bool} (h : t.processUsingCache rt js time g = some (answered, t', g')) :
    answered = false ∧ t'.reports = t.reports ∧ t'.writtenBack = t.writtenBack ∧
      t'.expectDataType = t.expectDataType ∧ t'.hasOnFailed = t.hasOnFailed ∧
      t'.response = match t.cacheVerdict rt js time g with
        | some (.stale, cached) => cached
        | _ => t.response := by
  simp only [processUsingCache, husing, Bool.true_eq_false, if_false, readResopnseFromCache,
    bind_eq_bind, bind_eq_some_iff, Prod.exists] at h
  simp only [cacheVerdict, bind_eq_bind] at hfresh ⊢
  obtain ⟨hit, t₁, g₁, ⟨stored, g₂, hread, hstored⟩, h⟩ := h
  simp only [hread, bind_some] at hfresh ⊢
  cases stored with
  | none =>
    grind
  | some stored =>
    simp only [bind_some, bind_eq_some_iff, Prod.exists] at hstored hfresh ⊢
    obtain ⟨status, strategy, response, hrun, hstatus⟩ := hstored
    simp only [hrun, bind_some] at hfresh ⊢
    cases status with
    | fresh => exact absurd rfl (hfresh response)
    | stale =>
      cases hstatus
      cases h
      exact ⟨rfl, rfl, rfl, rfl, rfl, rfl⟩
    | deny =>
      grind

end Spec

/-- Everything handed out has the content of the response received in the transfer. -/
def AnswersWithReceived (m : TransferResult) (t t' : HttpClientTask) : Prop :=
  ∀ r ∈ t'.handedOut, SameContent r ((t.logResponseInfo m).completed m)

end HttpClientTask

/-- If the stored response is not fresh, the response received in the transfer is handed
out exactly if the stored one is not stale, or nothing is handed out, or the stale one
happens to have the same content. -/
theorem answersWithReceived_iff (rt : Runtime) (js : JsonLibrary)
    (time : HttpTime) (m : TransferResult) (t t' : HttpClientTask)
    (g g' : GlobalCache) (husing : t.usingCache = true) (hreports : t.reports = [])
    (hwritten : t.writtenBack = [])
    (hfresh : ∀ cached, t.cacheVerdict rt js time g ≠ some (.fresh, cached))
    (h : t.processResponse rt js time m g = some (t', g')) :
    t.AnswersWithReceived m t' ↔
      ∀ cached, t.cacheVerdict rt js time g = some (.stale, cached) → t.HandsOut m →
        SameContent ((t.setResponse cached).completed m) ((t.logResponseInfo m).completed m) := by
  simp only [processResponse, bind_eq_bind, bind_eq_some_iff,
    Prod.exists] at h
  obtain ⟨answered, t₁, g₁, hcache, h⟩ := h
  obtain ⟨rfl, hreports₁, hwritten₁, htype, hlistens, hresponse⟩ :=
    processUsingCache_of_not_fresh (t := t.logResponseInfo m) husing hfresh hcache
  rw [if_neg Bool.false_ne_true] at h
  have hhands : t₁.HandsOut m ↔ t.HandsOut m := by
    rw [HttpClientTask.HandsOut, HttpClientTask.HandsOut, hlistens]
    rfl
  have hverdict : (t.logResponseInfo m).cacheVerdict rt js time g =
      t.cacheVerdict rt js time g := rfl
  rw [HttpClientTask.AnswersWithReceived]
  simp only [mem_handedOut_of_processTransfer (hreports₁.trans hreports)
    (hwritten₁.trans hwritten) h, hhands, and_imp]
  rw [hverdict] at hresponse
  by_cases hstale : ∃ cached, t.cacheVerdict rt js time g = some (.stale, cached)
  · obtain ⟨cached, hcached⟩ := hstale
    rw [hcached] at hresponse
    have hcompleted : t₁.completed m = (t.setResponse cached).completed m := by
      rw [completed, completed, hresponse, htype]
      rfl
    constructor
    · intro hall stale hsame hout
      obtain rfl : cached = stale := by
        rw [hcached] at hsame
        exact congrArg Prod.snd (Option.some.inj hsame)
      exact hcompleted ▸ hall _ hout rfl
    · rintro hsame r hout rfl
      rw [hcompleted]
      exact hsame cached hcached hout
  · have hkept : t₁.response = (t.logResponseInfo m).response := by
      grind
    have hcompleted : t₁.completed m = (t.logResponseInfo m).completed m := by
      rw [completed, completed, hkept, htype]
    constructor
    · intro _ stale hsame
      exact absurd ⟨stale, hsame⟩ hstale
    · rintro - r - rfl
      rw [hcompleted]
      exact ⟨rfl, rfl, rfl, rfl⟩

/-- A task that uses the cache and has received a new version of a page. -/
def cachingTask : HttpClientTask where
  request := { url := ascii "http://a/" }
  usingCache := true
  response := { rawHeader := ascii "etag:v2", result := ascii "new" }

/-- A cache with an old version of what the task asks for, no longer fresh. -/
def staleStore (task : HttpClientTask) : GlobalCache :=
  let response : HttpResponse :=
    { responseCode := .ok, rawHeader := ascii "etag:v1", result := ascii "old" }
  { startedCache with
    diskLruCache := (startedCache.diskLruCache.put .ordered .httpClient
      task.proxy.key (encodeResponse response)).getD startedCache.diskLruCache }

/-- The task asks for a response that does not come from the cache. -/
def denyingTask : HttpClientTask :=
  { cachingTask with
    request := cachingTask.request.setHeader (ascii "cache-control") (ascii "no-cache") }

/-- The old version is denied. -/
theorem answersWithReceived_of_denied :
    ∃ t' g', denyingTask.processResponse .ordered cJson .undated {} (staleStore denyingTask) =
        some (t', g') ∧
      t'.handedOut ≠ [] ∧ denyingTask.AnswersWithReceived {} t' := by
  have hrun : (denyingTask.processResponse .ordered cJson .undated {} (staleStore denyingTask)).map
      (fun r => r.1.handedOut.length) = some 2 := by
    decide +kernel
  have hverdict : (denyingTask.cacheVerdict .ordered cJson .undated
      (staleStore denyingTask)).map Prod.fst = some .deny := by
    decide +kernel
  obtain ⟨⟨t', g'⟩, hprocess, hlength⟩ := map_eq_some_iff.mp hrun
  refine ⟨t', g', hprocess, List.length_pos_iff.mp (hlength ▸ Nat.two_pos), ?_⟩
  apply (answersWithReceived_iff _ _ _ _ _ _ _ _ rfl rfl rfl _ hprocess).mpr
  · intro cached hstale
    rw [hstale] at hverdict
    cases hverdict
  · intro cached hfresh
    rw [hfresh] at hverdict
    cases hverdict

/-- The old version is reported and written back. -/
theorem stale_response_handed_out :
    ∃ t' g', cachingTask.processResponse .ordered cJson .undated {} (staleStore cachingTask) =
        some (t', g') ∧
      t'.handedOut.map (·.result) = [ascii "old", ascii "old"] ∧
      ¬ cachingTask.AnswersWithReceived {} t' := by
  have hrun : (cachingTask.processResponse .ordered cJson .undated {} (staleStore cachingTask)).map
      (fun r => r.1.handedOut.map (·.result)) = some [ascii "old", ascii "old"] := by
    decide +kernel
  have hreceived : ((cachingTask.logResponseInfo {}).completed {}).result = ascii "new" := by
    decide +kernel
  obtain ⟨⟨t', g'⟩, hprocess, hresults⟩ := map_eq_some_iff.mp hrun
  refine ⟨t', g', hprocess, hresults, fun hanswers => ?_⟩
  obtain ⟨r, hmem, hold⟩ := List.mem_map.mp (hresults ▸ List.mem_cons_self :
    ascii "old" ∈ t'.handedOut.map (·.result))
  have hsame := (hanswers r hmem).2.2.2
  rw [hold, hreceived] at hsame
  exact absurd hsame (by decide)

end Netstack.HttpClient
