import Netstack.Foundation.Execution
import Netstack.HttpCache.Messages

/-!
# What a JS request receives

During a transfer curl gives the header lines and the pieces of the body to two
callbacks, which put them into the response of the request. When the transfer is done
the status and the cookies are read from the handle.

## Implementation notes

The request is not one in stream and has no interceptors. A callback that finds the
event manager destroyed answers 0 and curl gives the transfer up.
-/

namespace Netstack.HttpExec

open Foundation Foundation.Execution List

def httpResponseHeaderSeparator : Bytes := [13, 10, 13, 10]

/-- What the transfer of a request comes to. The cookies are those of
`CURLINFO_COOKIELIST`, the time is the one at which the transfer is done. -/
structure ServerAnswer where
  responseCode : HttpCache.ResponseCode
  headerLines : List Bytes
  chunks : List Bytes := []
  cookieList : List Bytes := []
  nowTimeGMT : Bytes := []

def onWritingMemoryHeader (isEventDestroy : Bool) (response : HttpCache.HttpResponse)
    (data : Bytes) : Nat × HttpCache.HttpResponse :=
  if isEventDestroy then (0, response)
  else
    let response := { response with rawHeader := response.rawHeader ++ data }
    if httpResponseHeaderSeparator <:+ response.rawHeader then
      (data.length, response.parseHeaders)
    else (data.length, response)

def onWritingMemoryBody (isEventDestroy : Bool) (maxLimit : Nat)
    (response : HttpCache.HttpResponse) (data : Bytes) : Nat × HttpCache.HttpResponse :=
  if isEventDestroy then (0, response)
  else if response.result.length > maxLimit ∨ data.length > maxLimit then (0, response)
  else (data.length, { response with result := response.result ++ data })

/-- The part of `GetCurlDataFromHandle` that follows a transfer without an error. -/
def readCurlData (answer : ServerAnswer) (response : HttpCache.HttpResponse) :
    HttpCache.HttpResponse :=
  { response with
    responseTime := answer.nowTimeGMT
    responseCode := answer.responseCode
    cookies := response.cookies ++
      HttpCache.HttpConstant.httpLineSeparator.intercalate (answer.cookieList.map cString) }

/-- A whole transfer; nothing if curl gives it up. -/
def receive (maxLimit : Nat) (answer : ServerAnswer) (response : HttpCache.HttpResponse) :
    Option HttpCache.HttpResponse :=
  let (allHeaders, response) :=
    deliver length (onWritingMemoryHeader false) answer.headerLines response
  if allHeaders = false then none
  else
    let (allChunks, response) :=
      deliver length (onWritingMemoryBody false maxLimit) answer.chunks response
    if allChunks = false then none else some (readCurlData answer response)

theorem responseCode_of_receive {maxLimit : Nat} {answer : ServerAnswer}
    {response server : HttpCache.HttpResponse}
    (h : receive maxLimit answer response = some server) :
    server.responseCode = answer.responseCode := by
  simp only [receive] at h
  split at h
  · cases h
  · split at h
    · cases h
    · cases h
      rfl

section BodyLimit

variable {maxLimit : Nat} {response : HttpCache.HttpResponse}

/-- No chunk that the limit admits by itself takes the total over the limit. -/
def NeverOvershoots (maxLimit : Nat) : Nat → List Bytes → Prop
  | _, [] => True
  | total, chunk :: chunks => chunk.length ≤ maxLimit →
      total + chunk.length ≤ maxLimit ∧
        NeverOvershoots maxLimit (total + chunk.length) chunks

variable (hwithin : response.result.length ≤ maxLimit)
include hwithin

/-- While the total is within the limit, a chunk is taken exactly if it is itself. -/
theorem deliver_body_cons (chunk : Bytes) (chunks : List Bytes) :
    deliver length (onWritingMemoryBody false maxLimit) (chunk :: chunks) response =
      if chunk.length ≤ maxLimit then
        deliver length (onWritingMemoryBody false maxLimit) chunks
          { response with result := response.result ++ chunk }
      else (false, response) := by
  rw [deliver, onWritingMemoryBody]
  grind

theorem take_withinLimit_iff (chunks : List Bytes) :
    (∀ n, (deliver length (onWritingMemoryBody false maxLimit) (chunks.take n)
        response).2.result.length ≤ maxLimit) ↔
      NeverOvershoots maxLimit response.result.length chunks := by
  induction chunks generalizing response with
  | nil => simp [deliver, NeverOvershoots, hwithin]
  | cons chunk chunks ih =>
      rw [NeverOvershoots, ← length_append]
      constructor
      · intro hall hchunk
        have hfirst := hall 1
        rw [take_succ_cons, deliver_body_cons hwithin, if_pos hchunk] at hfirst
        refine ⟨hfirst, (ih hfirst).mp fun n => ?_⟩
        have hlater := hall (n + 1)
        rwa [take_succ_cons, deliver_body_cons hwithin, if_pos hchunk] at hlater
      · rintro hnever (_ | n)
        · exact hwithin
        · rw [take_succ_cons, deliver_body_cons hwithin]
          split
          · next hchunk =>
              obtain ⟨hsum, hrest⟩ := hnever hchunk
              exact (ih hsum).mpr hrest n
          · exact hwithin

theorem deliver_body_complete_iff
    {chunks : List Bytes} (hnever : NeverOvershoots maxLimit response.result.length chunks) :
    (deliver length (onWritingMemoryBody false maxLimit) chunks response).1 = true ↔
      response.result.length + chunks.flatten.length ≤ maxLimit := by
  induction chunks generalizing response with
  | nil => simp [deliver, hwithin]
  | cons chunk chunks ih =>
      rw [deliver_body_cons hwithin, flatten_cons, length_append]
      rw [NeverOvershoots, ← length_append] at hnever
      split
      · next hchunk =>
          obtain ⟨hsum, hrest⟩ := hnever hchunk
          rw [ih hsum hrest, length_append, Nat.add_assoc]
      · next hchunk => simp; omega

end BodyLimit

/-- The body stays within the limit, and its chunks are all taken exactly if they would be in one
piece, if and only if no chunk takes the total over the limit. -/
theorem onWritingMemoryBody_limit_iff (maxLimit : Nat) (response : HttpCache.HttpResponse)
    (chunks : List Bytes) :
    let body chunks := deliver length (onWritingMemoryBody false maxLimit) chunks
      { response with result := [] }
    ((∀ n, (body (chunks.take n)).2.result.length ≤ maxLimit) ∧
        (body chunks).1 = (body [chunks.flatten]).1) ↔
      NeverOvershoots maxLimit 0 chunks := by
  intro body
  have hwithin : ({ response with result := [] } : HttpCache.HttpResponse).result.length ≤
      maxLimit := Nat.zero_le maxLimit
  refine ⟨fun h => (take_withinLimit_iff hwithin chunks).mp h.1, fun hnever =>
    ⟨(take_withinLimit_iff hwithin chunks).mpr hnever, ?_⟩⟩
  rw [Bool.eq_iff_iff, deliver_body_complete_iff hwithin hnever]
  simp only [body, deliver_body_cons hwithin, deliver]
  split
  · next hwhole => simpa using hwhole
  · next hwhole => simpa using hwhole

theorem body_over_limit_in_two_chunks :
    let body chunks := deliver length (onWritingMemoryBody false 3) chunks {}
    (body [[1, 2], [3, 4]]).2.result.length = 4 ∧ (body [[1, 2], [3, 4]]).1 = true ∧
      (body [[1, 2, 3, 4]]).1 = false := by
  decide

end Netstack.HttpExec
