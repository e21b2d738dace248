import Netstack.Foundation.ByteStrings
import Netstack.Foundation.Ledgers

/-!
# The driver of the curl transfers

One thread takes requests from a queue, gives their handles to curl and is told when a
transfer is done. During a handover between networks it keeps requests back, and starts them
or starts them again when the handover has ended.

## Implementation notes

The ledger says where a request is; nothing leaves the calls of `doneCallback` and the requests
that `HandleRedirect` made anew. What curl and the library for handovers answer is in the event.
-/

namespace Netstack.HttpOverCurl

open Foundation

def curleOk : Nat := 0

def curleCouldntResolveHost : Nat := 6

def curleCouldntConnect : Nat := 7

def curleSslConnectError : Nat := 35

def curleSendError : Nat := 55

def curleRecvError : Nat := 56

def curleQuicConnectError : Nat := 96

def httpStatusRedirectStart : Nat := 300

def httpStatusClientErrorStart : Nat := 400

inductive Status where
  | init
  | start
  | cont
  | ended
  | fatal
  | timeout
  deriving DecidableEq, Repr

/-- Where a request can be, or what has become of it. -/
inductive Place where
  | ongoingRequests
  | handoverQueue
  | redirectInterceptor
  | doneCallback
  | reissued
  deriving DecidableEq, Repr

instance : Fintype Place where
  elems := {.ongoingRequests, .handoverQueue, .redirectInterceptor, .doneCallback, .reissued}
  complete := by
    intro k
    cases k <;> decide

/-- What curl and the context say about a transfer. -/
structure TransferInfo where
  times : Option (Nat × Nat) := some (0, 0)
  method : Bytes := ascii "GET"
  isInStream : Bool := false

structure Incoming (ι : Type) where
  request : ι
  status : Status := .init
  added : Bool := true

structure DoneMessage where
  result : Nat := curleOk
  info : TransferInfo := {}
  status : Status := .init
  added : Bool := true
  responseCode : Nat := 200
  hasLocation : Bool := false
  isRedirectionInterceptor : Bool := false
  isReachRedirectLimit : Bool := false

structure Driver (ι : Type) where
  place : Ledger Place ι := fun _ => []
  /-- The requests that ever came out of the incoming queue. -/
  flushed : List ι := []
  requestEndtime : ι → Option Nat := fun _ => none
  endTime : Nat := 0

section Retransmission

variable (info : TransferInfo) (result : Nat)

def isIoError : Bool := result == curleSendError || result == curleRecvError

def isConnectError : Bool :=
  result == curleCouldntResolveHost || result == curleCouldntConnect ||
    result == curleSslConnectError || result == curleQuicConnectError

def isNetworkErrorTypeCorrect : Bool := isIoError result || isConnectError result

def isSafe (method : Bytes) : Bool :=
  method == ascii "GET" || method == ascii "HEAD" || method == ascii "OPTIONS" ||
    method == ascii "TRACE"

def checkRequestCanRetrans : Bool :=
  match info.times with
  | none => false
  | some (recvtime, sendtime) =>
    let isRead := !(recvtime == 0 || sendtime == recvtime)
    isConnectError result || sendtime == 0 ||
      (isSafe info.method && (!info.isInStream || !isRead))

end Retransmission

section Steps

variable {ι : Type} [DecidableEq ι]

namespace Driver

variable (s : Driver ι)

def insert (k : Place) (r : ι) : Driver ι := { s with place := s.place.insert k r }

def erase (k : Place) (r : ι) : Driver ι := { s with place := s.place.take k r }

/-- An entry in a place that is a record. -/
def record (k : Place) (r : ι) : Driver ι := { s with place := s.place.put k r }

end Driver

def tryFlowControl (status : Status) (r : ι) (s : Driver ι) : Bool × Driver ι :=
  match status with
  | .start => (true, s.insert .handoverQueue r)
  | _ => (false, s)

/-- `added` is the answer of `curl_multi_add_handle`. -/
def retransRequest (added : Bool) (r : ι) (s : Driver ι) : Bool × Driver ι :=
  if added then (true, s.insert .ongoingRequests r) else (false, s)

section Incoming

variable (handover : Bool)

def incomingRequest (s : Driver ι) (item : Incoming ι) : Driver ι :=
  let s := { s with flushed := s.flushed ++ [item.request] }
  match if handover then tryFlowControl item.status item.request s else (false, s) with
  | (true, s) => s
  | (false, s) =>
    let s := s.insert .ongoingRequests item.request
    if item.added then s else s.erase .ongoingRequests item.request

def incomingRequestCallback (batch : List (Incoming ι)) (s : Driver ι) : Driver ι :=
  batch.foldl (incomingRequest handover) s

end Incoming

section Done

def processRequestNetError (r : ι) (m : DoneMessage) (s : Driver ι) : Bool × Driver ι :=
  match s.requestEndtime r with
  | none => (false, s)
  | some endTime =>
    let s := { s with requestEndtime := Function.update s.requestEndtime r none }
    if isNetworkErrorTypeCorrect m.result = false then (false, s)
    else if checkRequestCanRetrans m.info m.result = false then (false, s)
    else
      match tryFlowControl m.status r s with
      | (true, s) => (true, s)
      | (false, s) =>
        if endTime + 1 = s.endTime then retransRequest m.added r s else (false, s)

def handleCompletion (r : ι) (s : Driver ι) : Driver ι := s.record .doneCallback r

def handleCurlDoneMessage (handover : Bool) (r : ι) (m : DoneMessage) (s : Driver ι) : Driver ι :=
  let s := s.erase .ongoingRequests r
  match if handover then processRequestNetError r m s else (false, s) with
  | (true, s) => s
  | (false, s) =>
    if httpStatusRedirectStart ≤ m.responseCode ∧ m.responseCode < httpStatusClientErrorStart ∧
        m.hasLocation = true ∧ m.isRedirectionInterceptor = true then
      if m.isReachRedirectLimit = false then s.record .redirectInterceptor r
      else handleCompletion r s
    else handleCompletion r s

end Done

section Handover

variable (info : ι → TransferInfo) (added : ι → Bool)

variable (s : Driver ι)

/-- The body of the loop over the ongoing requests. -/
def undoneRequest (r : ι) : Driver ι :=
  if checkRequestCanRetrans (info r) curleOk then
    match retransRequest (added r) r s with
    | (true, s) => s
    | (false, s) => (s.record .doneCallback r).erase .ongoingRequests r
  else s

def undoneRequestHandle : Driver ι :=
  (s.place .ongoingRequests).foldl (undoneRequest info added) s

/-- The requests that were kept back are started, and the queue is empty afterwards. -/
def retransQueue : Driver ι :=
  let s := (s.place .handoverQueue).foldl (fun s r => (retransRequest (added r) r s).2) s
  { s with place := s.place.clear .handoverQueue }

def handoverRequestCallback (status : Status) (s : Driver ι) : Driver ι :=
  match status with
  | .start =>
    { s with
      requestEndtime := fun r =>
        if r ∈ s.place .ongoingRequests ∧ s.requestEndtime r = none then some s.endTime
        else s.requestEndtime r }
  | .ended =>
    retransQueue added (undoneRequestHandle info added { s with endTime := s.endTime + 1 })
  | .timeout => retransQueue added (undoneRequestHandle info added s)
  | .init | .cont | .fatal => s

end Handover

inductive Event (ι : Type) where
  | incoming (batch : List (Incoming ι))
  | done (r : ι) (m : DoneMessage)
  | handover (status : Status) (info : ι → TransferInfo) (added : ι → Bool)
  | handoverTimeout
  /-- The redirect interceptor lets the request go on. -/
  | redirect (r : ι)
  /-- The redirect interceptor ends the request. -/
  | complete (r : ι)

def step (handover : Bool) (s : Driver ι) : Event ι → Option (Driver ι)
  | .incoming batch =>
    if (batch.map Incoming.request).Nodup ∧ ∀ item ∈ batch, item.request ∉ s.flushed then
      some (incomingRequestCallback handover batch s)
    else none
  | .done r m =>
    if r ∈ s.place .ongoingRequests then some (handleCurlDoneMessage handover r m s) else none
  | .handover status info added =>
    if handover then some (handoverRequestCallback info added status s) else none
  | .handoverTimeout => if handover then some s else none
  | .redirect r =>
    if r ∈ s.place .redirectInterceptor then
      some ((s.erase .redirectInterceptor r).record .reissued r)
    else none
  | .complete r =>
    if r ∈ s.place .redirectInterceptor then
      some (handleCompletion r (s.erase .redirectInterceptor r))
    else none

end Steps

end Netstack.HttpOverCurl
