import Netstack.HttpClient.Task

/-!
# The limit on the body

`DataReceiveCallback` adds a chunk to the result while the result is below the limit of
the request, and tells curl that it took the chunk in any case. So the last chunk that
is added may go over the limit, and those after it are left out without a word.
-/

namespace Netstack.HttpClient

open Foundation Foundation.Execution List ReceiveCall

variable (calls : List ReceiveCall)

/-- The bytes that the calls bring. -/
def bodyOf : Bytes := calls.flatMap data

/-- The call is answered by the size of its chunk. -/
def ReceiveCall.taken (call : ReceiveCall) : Bool := !call.canceled || call.data == []

section Storing

variable (limit : Nat)

/-- A result after one more chunk. -/
def store (result chunk : Bytes) : Bytes :=
  if result.length < limit then result ++ chunk else result

/-- As long as the size is below the limit, the next chunk does not take it above. -/
def FitsChunkwise : Nat → List ReceiveCall → Prop
  | _, [] => True
  | size, call :: calls =>
    size < limit → size + call.size ≤ limit ∧ FitsChunkwise (size + call.size) calls

instance decidableFitsChunkwise :
    (size : Nat) → (calls : List ReceiveCall) → Decidable (FitsChunkwise limit size calls)
  | _, [] => isTrue trivial
  | size, call :: calls =>
    have := decidableFitsChunkwise (size + call.size) calls
    inferInstanceAs (Decidable (size < limit →
      size + call.size ≤ limit ∧ FitsChunkwise limit (size + call.size) calls))

def storeAll (result : Bytes) (calls : List ReceiveCall) : Bytes :=
  calls.foldl (fun result call => store limit result call.data) result

variable {limit} {result : Bytes}

theorem storeAll_of_full (hfull : limit ≤ result.length)
    (calls : List ReceiveCall) : storeAll limit result calls = result := by
  induction calls with
  | nil => rfl
  | cons call calls ih =>
    rw [storeAll, foldl_cons, store, if_neg (Nat.not_lt.mpr hfull)]
    exact ih

theorem storeAll_of_fits {calls : List ReceiveCall}
    (hfits : (result ++ bodyOf calls).length ≤ limit) :
    storeAll limit result calls = result ++ bodyOf calls := by
  induction calls generalizing result with
  | nil => exact (append_nil result).symm
  | cons call calls ih =>
    have hbody : result ++ bodyOf (call :: calls) = result ++ call.data ++ bodyOf calls := by
      rw [bodyOf, flatMap_cons, append_assoc]
      rfl
    have hnext : store limit result call.data = result ++ call.data := by
      rw [store]
      split
      · rfl
      · have hempty : call.data = [] := by
          rw [hbody, length_append, length_append] at hfits
          exact length_eq_zero_iff.mp (by omega)
        rw [hempty, append_nil]
    grind [storeAll]

theorem length_storeAll_le_iff {calls : List ReceiveCall} (hle : result.length ≤ limit) :
    (storeAll limit result calls).length ≤ limit ↔ FitsChunkwise limit result.length calls := by
  induction calls generalizing result with
  | nil => exact iff_of_true hle trivial
  | cons call calls ih =>
    have hstep : storeAll limit result (call :: calls) =
        storeAll limit (store limit result call.data) calls := rfl
    rw [hstep, FitsChunkwise]
    by_cases hbelow : result.length < limit
    · have hlength : (result ++ call.data).length = result.length + call.size :=
        length_append
      rw [store, if_pos hbelow, forall_prop_of_true hbelow]
      by_cases hnext : result.length + call.size ≤ limit
      · rw [ih (hlength ▸ hnext), hlength, and_iff_right hnext]
      · rw [storeAll_of_full (by omega), hlength]
        exact iff_of_false hnext fun h => hnext h.1
    · rw [store, if_neg hbelow, storeAll_of_full (Nat.not_lt.mp hbelow)]
      exact iff_of_true hle fun h => absurd h hbelow

end Storing

namespace HttpClientTask

/-- The transfer of a body in pieces. -/
def receiveBody (t : HttpClientTask) : Bool × HttpClientTask :=
  deliver ReceiveCall.size dataReceiveCallback calls t

section Spec

variable {t : HttpClientTask} {call : ReceiveCall}

theorem dataReceiveCallback_taken (hstream : t.isRequestInStream = false)
    (htaken : call.taken = true) :
    dataReceiveCallback t call =
      (call.size, t.onResponse fun r => { r with result := store t.maxLimit r.result call.data })
      := by
  simp only [dataReceiveCallback, store]
  cases hcanceled : call.canceled with
  | true =>
    have hdata : call.data = [] := by
      simpa [taken, hcanceled] using htaken
    simp [hdata, ReceiveCall.size, onResponse]
  | false =>
    rw [hstream]
    by_cases hbelow : t.response.result.length < t.maxLimit
    · simp [hbelow, onResponse]
    · simp [hbelow, onResponse]

theorem dataReceiveCallback_refused (hrefused : call.taken = false) :
    dataReceiveCallback t call = (0, t) ∧ call.size ≠ 0 := by
  simp only [taken, Bool.or_eq_false_iff, Bool.not_eq_false', beq_eq_false_iff_ne]
    at hrefused
  rw [dataReceiveCallback, if_pos hrefused.1]
  exact ⟨rfl, fun hsize => hrefused.2 (length_eq_zero_iff.mp hsize)⟩

/-- What a transfer leaves: it is complete if every call is taken, and the result has
stored what the calls brought up to the first that is not. -/
theorem receiveBody_spec (hstream : t.isRequestInStream = false) :
    (receiveBody calls t).1 = calls.all taken ∧
      (receiveBody calls t).2.response.result =
        storeAll t.maxLimit t.response.result (calls.takeWhile taken) := by
  induction calls generalizing t with
  | nil => exact ⟨rfl, rfl⟩
  | cons call calls ih =>
    rw [receiveBody, deliver]
    cases htaken : call.taken with
    | true =>
      rw [dataReceiveCallback_taken hstream htaken, if_pos rfl, all_cons,
        takeWhile_cons_of_pos htaken, htaken, Bool.true_and]
      exact ih hstream
    | false =>
      obtain ⟨hcall, hsize⟩ := dataReceiveCallback_refused (t := t) htaken
      rw [hcall, if_neg hsize.symm, all_cons,
        takeWhile_cons_of_neg (Bool.eq_false_iff.mp htaken), htaken, Bool.false_and]
      exact ⟨rfl, rfl⟩

end Spec

/-- The transfer failed or its result is the whole body, and the result is within the
limit. -/
def NotTruncated (t : HttpClientTask) : Prop :=
  ((receiveBody calls t).1 = false ∨ (receiveBody calls t).2.response.result = bodyOf calls) ∧
    (receiveBody calls t).2.response.result.length ≤ t.maxLimit

end HttpClientTask

/-- A body that is received to its end must be within the limit. If the request is
canceled before, no chunk received until then may have gone over it. -/
def WithinLimit (limit : Nat) (calls : List ReceiveCall) : Prop :=
  if calls.all taken then (bodyOf calls).length ≤ limit
  else FitsChunkwise limit 0 (calls.takeWhile taken)

instance (limit : Nat) (calls : List ReceiveCall) : Decidable (WithinLimit limit calls) := by
  unfold WithinLimit
  infer_instance

/-- Nothing is left out of a body in silence and the limit is kept, exactly if the body
is within the limit. -/
theorem notTruncated_iff (t : HttpClientTask) (calls : List ReceiveCall)
    (hstream : t.isRequestInStream = false) (hstart : t.response.result = []) :
    t.NotTruncated calls ↔ WithinLimit t.maxLimit calls := by
  obtain ⟨hcomplete, hresult⟩ := HttpClientTask.receiveBody_spec calls hstream
  rw [HttpClientTask.NotTruncated, hcomplete, hresult, hstart, WithinLimit]
  cases hall : calls.all taken with
  | true =>
    have htake : calls.takeWhile taken = calls :=
      takeWhile_eq_self_iff.mpr (all_eq_true.mp hall)
    rw [htake, if_pos rfl, or_iff_right (by decide)]
    grind [storeAll_of_fits]
  | false =>
    rw [if_neg (by decide), and_iff_right (Or.inl rfl)]
    exact length_storeAll_le_iff (Nat.zero_le _)

/-- A task with this limit. -/
def limitedTask (maxLimit : Nat) : HttpClientTask :=
  ({ request := {} } : HttpClientTask).setMaxLimit maxLimit

/-- Two chunks that fill the limit. -/
theorem notTruncated_at_limit :
    (limitedTask 8).NotTruncated [⟨false, ascii "head"⟩, ⟨false, ascii "tail"⟩] :=
  (notTruncated_iff (limitedTask 8) _ rfl rfl).mpr (by decide)

/-- The third chunk is left out, and the transfer succeeds. -/
theorem truncated_above_limit :
    ¬ (limitedTask 8).NotTruncated
      [⟨false, ascii "head"⟩, ⟨false, ascii "tail"⟩, ⟨false, ascii "more"⟩] := by
  rw [HttpClientTask.NotTruncated]
  decide

end Netstack.HttpClient
