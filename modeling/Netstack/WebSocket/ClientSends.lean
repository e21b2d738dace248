import Netstack.Foundation.Execution
import Netstack.Foundation.Mailboxes
import Netstack.WebSocket.ClientExec

/-!
# Messages sent by the client

The queue of the session is a mailbox: a send requests a writable callback, and that callback takes
one message and requests another call for the rest. A request is lost while the session has no
connection, and the callback for an established connection makes its own before that.

## Implementation notes

`ExecSend` and `ExecClose` are cut at every access to shared objects, the callbacks after their
request or write. A writable callback is made only if it is pending. `none` is the service thread.
-/

namespace Netstack.WebSocket.ClientExec

open Function Foundation Foundation.Execution Manager Option UserData KeepsSession

/-- What a thread in `ExecSend` or `ExecClose` has done so far. -/
inductive Caller where
  | idle
  | sending (data : SendData)
  | sendFound (data : SendData)
  | sendChecked (data : SendData)
  | sendPushed
  | closing (code : UInt32) (reason : Bytes)
  | closeFound (code : UInt32) (reason : Bytes)
  | closeChecked (code : UInt32) (reason : Bytes)
  | closeMarked
  deriving DecidableEq, Repr

/-- The thread is in `ExecSend`. -/
def Caller.isSend : Caller → Bool
  | .sending _ | .sendFound _ | .sendChecked _ | .sendPushed => true
  | _ => false

/-- The callback that the service thread is in, if it is cut. -/
inductive Service (κ : Type) where
  | idle
  | triggered (wsi : κ)
  | wrote
  deriving DecidableEq, Repr

inductive Callback (κ : Type) where
  | filterPreEstablish (statusLine : Bytes) (protocol : Option Bytes)
      (responseHeader : Std.ExtTreeMap Bytes Bytes)
  | established (wsi : κ)
  | receive (data : Bytes) (isBinary isFinal : Bool)
  | writable (wsi : κ)
  | wsPeerInitiatedClose (payload : Bytes)
  | connectionError
  | closed
  | wsiDestroy
  | protocolDestroy

structure System (κ ι : Type) where
  manager : Manager κ := {}
  established : Option κ := none
  service : Service κ := .idle
  caller : ι → Caller := fun _ => .idle
  /-- The messages pushed into the session. -/
  posted : List SendData := []

inductive Event (κ ι : Type) where
  | send (i : ι) (data : SendData)
  | close (i : ι) (code : UInt32) (reason : Bytes)
  | proceed (i : ι)
  | callback (cb : Callback κ) (response : UInt32) (ret : Int)
  | resume (response : UInt32) (ret : Int)
  | finalize
  | endService

namespace System

variable {κ ι : Type} [DecidableEq κ] [DecidableEq ι]

variable (s : System κ ι)

def setCaller (i : ι) (caller : Caller) : System κ ι :=
  { s with caller := update s.caller i caller }

def push (i : ι) (data : SendData) : System κ ι :=
  { s with
    manager := { s.manager with userData := s.manager.userData.push data }
    caller := update s.caller i .sendPushed
    posted := s.posted ++ [data] }

def mark (i : ι) (code : UInt32) (reason : Bytes) : System κ ι :=
  { s with
    manager := { s.manager with userData := s.manager.userData.close code reason }
    caller := update s.caller i .closeMarked }

def trigger (i : ι) : System κ ι :=
  { s with
    manager := s.manager.triggerWritable
    caller := update s.caller i .idle }

/-- The next access of a thread that sends or closes. -/
def proceed (i : ι) : Option (System κ ι) :=
  match s.caller i with
  | .idle => none
  | .sending data =>
    some (s.setCaller i (if s.manager.attached then .sendFound data else .idle))
  | .sendFound data =>
    if s.manager.userData.closed ∨ s.manager.userData.threadStop then some (s.setCaller i .idle)
    else some (s.setCaller i (.sendChecked data))
  | .sendChecked data => some (s.push i data)
  | .sendPushed => some (s.trigger i)
  | .closing code reason =>
    some (s.setCaller i (if s.manager.attached then .closeFound code reason else .idle))
  | .closeFound code reason =>
    if s.manager.userData.closed then some (s.setCaller i .idle)
    else some (s.setCaller i (.closeChecked code reason))
  | .closeChecked code reason => some (s.mark i code reason)
  | .closeMarked => some (s.trigger i)

/-- The connection is no longer there. -/
def drop (m : Manager κ) : System κ ι :=
  { s with manager := m, established := none }

def writable (wsi : κ) (response : UInt32) (ret : Int) : System κ ι :=
  let called := s.manager.takeWritable wsi
  if s.manager.attached ∧ s.manager.userData.closed = false then
    match called.writeFirst with
    | none => { s with manager := (called.lwsCallbackClientWritable response ret).2 }
    | some m => { s with manager := m, service := .wrote }
  else s.drop (called.lwsCallbackClientWritable response ret).2

/-- A callback that libwebsockets makes. -/
def callback (cb : Callback κ) (response : UInt32) (ret : Int) : Option (System κ ι) :=
  match cb with
  | .filterPreEstablish statusLine protocol responseHeader =>
    some { s with
      manager := (s.manager.lwsCallbackClientFilterPreEstablish response statusLine protocol
        responseHeader ret).2 }
  | .established wsi =>
    if s.established.isSome then none
    else if s.manager.attached then
      some { s with manager := s.manager.triggerWritable, service := .triggered wsi }
    else some { s with manager := (s.manager.raiseError response).2 }
  | .receive data isBinary isFinal =>
    some { s with
      manager := (s.manager.lwsCallbackClientReceive response data isBinary isFinal ret).2 }
  | .writable wsi =>
    if s.established = some wsi ∧ s.manager.writables wsi then some (s.writable wsi response ret)
    else none
  | .wsPeerInitiatedClose payload =>
    some { s with
      manager := (s.manager.lwsCallbackWsPeerInitiatedClose response payload ret).2 }
  | .connectionError =>
    some { s with manager := (s.manager.lwsCallbackClientConnectionError response ret).2 }
  | .closed => some (s.drop (s.manager.lwsCallbackClientClosed response ret).2)
  | .wsiDestroy => some (s.drop (s.manager.lwsCallbackWsiDestroy response ret).2)
  | .protocolDestroy =>
    some { s with manager := (s.manager.lwsCallbackProtocolDestroy response ret).2 }

/-- The service thread goes on with a callback that was cut. -/
def resume (response : UInt32) (ret : Int) : Option (System κ ι) :=
  match s.service with
  | .idle => none
  | .triggered wsi =>
    some { s with
      manager := (s.manager.addressSession wsi response ret).2
      established := some wsi
      service := .idle }
  | .wrote =>
    some { s with manager := (s.manager.triggerRest.httpDummy response ret).2, service := .idle }

def step : Event κ ι → Option (System κ ι)
  | .send i data => if s.caller i = .idle then some (s.setCaller i (.sending data)) else none
  | .close i code reason =>
    if s.caller i = .idle then some (s.setCaller i (.closing code reason)) else none
  | .proceed i => s.proceed i
  | .callback cb response ret =>
    if s.service = .idle then s.callback cb response ret else none
  | .resume response ret => s.resume response ret
  | .finalize =>
    if s.manager.attached then
      some { s with
        manager := { s.manager with userData := s.manager.userData.setThreadStop true } }
    else some s
  | .endService =>
    if s.service = .idle then some { s with manager := { s.manager with attached := false } }
    else none

variable {s}

variable {m : Manager κ}

variable {t : System κ ι} {m' : Manager κ}

section Mailbox

omit [DecidableEq κ] [DecidableEq ι]

def owing (s : System κ ι) : Set (Option ι) :=
  { p | match p with
    | some i => s.caller i = .sendPushed
    | none => s.service = .wrote }

def mailbox (s : System κ ι) (wsi : κ) : Mailbox SendData (Option ι) where
  posted := s.posted
  taken := s.manager.written
  queue := s.manager.userData.dataQueue
  pending := s.manager.writables wsi = true
  owing := s.owing

structure Invariant (s : System κ ι) : Prop where
  address : ∀ wsi, s.established = some wsi → s.manager.userData.wsi = some wsi
  inOrder : s.manager.written ++ s.manager.userData.dataQueue = s.posted
  noticed : ∀ wsi, s.established = some wsi → s.manager.userData.closed = false →
    (s.mailbox wsi).Noticed

/-- The messages are where they were, and whoever had to request a call still has to or has done
so. -/
structure Spares (s t : System κ ι) : Prop where
  established : ∀ wsi, t.established = some wsi →
    s.established = some wsi ∧ t.manager.userData.wsi = s.manager.userData.wsi
  posted : t.posted = s.posted
  written : t.manager.written = s.manager.written
  dataQueue : t.manager.userData.dataQueue = s.manager.userData.dataQueue
  closed : t.manager.userData.closed = false → s.manager.userData.closed = false
  writables : ∀ wsi, s.manager.writables wsi = true → t.manager.writables wsi = true
  owing : s.owing ⊆ t.owing

variable (h : s.Invariant)
include h

theorem Invariant.of_spares (hst : Spares s t) : t.Invariant where
  address wsi hwsi := by
    obtain ⟨hs, haddress⟩ := hst.established wsi hwsi
    rw [haddress]
    exact h.address wsi hs
  inOrder := by
    rw [hst.written, hst.dataQueue, hst.posted]
    exact h.inOrder
  noticed wsi hwsi hclosed := by
    have hs := (hst.established wsi hwsi).1
    apply (h.noticed wsi hs (hst.closed hclosed)).of_grants
    exact ⟨hst.dataQueue, hst.writables wsi, hst.owing⟩

/-- A callback that leaves the session as it is. -/
theorem Invariant.of_keepsSession
    (hm : s.manager.KeepsSession m) : Invariant { s with manager := m } := by
  apply h.of_spares
  refine ⟨fun wsi hwsi => ⟨hwsi, congrArg _ hm.userData⟩, rfl, hm.written, congrArg _ hm.userData,
    fun hclosed => ?_, fun wsi => (congrFun hm.writables wsi).trans, subset_rfl⟩
  grind [@hm.userData]

/-- A callback that changes the session, but neither its messages nor its address. -/
theorem Invariant.of_session {u : UserData κ} (hm : KeepsSession { s.manager with userData := u } m)
    (haddress : u.wsi = s.manager.userData.wsi)
    (hqueue : u.dataQueue = s.manager.userData.dataQueue)
    (hclosed : u.closed = false → s.manager.userData.closed = false) :
    Invariant { s with manager := m } := by
  have hsession : Invariant { s with manager := { s.manager with userData := u } } :=
    h.of_spares ⟨fun wsi hwsi => ⟨hwsi, haddress⟩, rfl, rfl, hqueue, hclosed, fun _ hp => hp,
      subset_rfl⟩
  exact hsession.of_keepsSession hm

/-- A callback after which the connection is gone. -/
theorem Invariant.drop (hm : KeepsSession m' m) (hwritten : m'.written = s.manager.written)
    (hqueue : m'.userData.dataQueue = s.manager.userData.dataQueue) : (s.drop m).Invariant where
  address _ hwsi := absurd hwsi.symm (some_ne_none _)
  inOrder := by
    have horder := h.inOrder
    rwa [← hwritten, ← hqueue, ← hm.written, ← hm.userData] at horder
  noticed _ hwsi := absurd hwsi.symm (some_ne_none _)

end Mailbox

variable {i : ι}

section Calling

omit [DecidableEq κ] in
theorem owing_update_subset (t : System κ ι) {next : Caller}
    (hcaller : t.caller = update s.caller i next) (hservice : t.service = s.service)
    (hbefore : s.caller i ≠ .sendPushed) : s.owing ⊆ t.owing := by
  intro p hp
  cases p with
  | none => exact hservice.trans hp
  | some j =>
    have hj : j ≠ i := fun hji => hbefore (hji ▸ hp)
    exact (congrFun hcaller j).trans ((update_of_ne hj _ _).trans hp)

variable (h : s.Invariant)
include h

omit [DecidableEq κ] in
theorem Invariant.setCaller
    (hbefore : s.caller i ≠ .sendPushed) (next : Caller) : (s.setCaller i next).Invariant := by
  apply h.of_spares
  exact ⟨fun wsi hwsi => ⟨hwsi, rfl⟩, rfl, rfl, rfl, id, fun _ hp => hp,
    owing_update_subset (s.setCaller i next) rfl rfl hbefore⟩

omit [DecidableEq κ] in
theorem Invariant.push {data : SendData}
    (hi : s.caller i = .sendChecked data) : (s.push i data).Invariant where
  address := h.address
  inOrder :=
    Mailbox.InOrder.post
      (m := ⟨s.posted, s.manager.written, s.manager.userData.dataQueue, False, s.owing⟩)
      h.inOrder (some i) data
  noticed wsi _ _ := by
    apply (Mailbox.noticed_post (s.mailbox wsi) (some i) data).of_grants
    refine ⟨rfl, fun hp => hp, ?_⟩
    rintro p (rfl | hp)
    · exact update_self i _ _
    · exact owing_update_subset (s.push i data) rfl rfl (by simp [hi]) hp

theorem Invariant.trigger (i : ι) : (s.trigger i).Invariant where
  address := h.address
  inOrder := h.inOrder
  noticed wsi hwsi _ := by
    apply (Mailbox.noticed_request (s.mailbox wsi) (some i)).of_grants
    refine ⟨rfl, ?_, ?_⟩
    · exact fun _ => triggerWritable_self (h.address wsi hwsi) s.manager.writables
    · rintro p ⟨hp, hne⟩
      cases p with
      | none => exact hp
      | some j =>
        have hj : j ≠ i := fun hji => hne (congrArg some hji)
        exact (update_of_ne hj _ _).trans hp

omit [DecidableEq κ] in
theorem Invariant.mark (i : ι) (code : UInt32)
    (reason : Bytes) : (s.mark i code reason).Invariant where
  address := h.address
  inOrder := h.inOrder
  noticed _ _ hclosed := Bool.noConfusion hclosed

theorem Invariant.proceed (hstep : s.proceed i = some t) : t.Invariant := by
  unfold System.proceed at hstep
  cases hi : s.caller i with
  | idle => simp [hi] at hstep
  | sending data =>
    grind [@h.setCaller]
  | sendFound data =>
    grind [@h.setCaller]
  | sendChecked data =>
    grind [@h.push]
  | sendPushed =>
    grind [@h.trigger]
  | closing code reason =>
    grind [@h.setCaller]
  | closeFound code reason =>
    grind [@h.setCaller]
  | closeChecked code reason =>
    grind [@h.mark]
  | closeMarked =>
    grind [@h.trigger]

end Calling

section Serving

omit [DecidableEq κ] [DecidableEq ι]

variable (response : UInt32) (ret : Int)

/-- The session gets its connection. Requests made before are lost, so there must be no message or
somebody who will make a request. -/
theorem Invariant.addressed (h : s.Invariant) (wsi : κ)
    (hflushed : s.manager.userData.closed = true ∨ s.manager.userData.dataQueue = [] ∨
      ∃ i, s.caller i = .sendPushed) :
    Invariant { s with
      manager := (s.manager.addressSession wsi response ret).2
      established := some wsi
      service := .idle } := by
  have hkeeps : KeepsSession { s.manager with userData := s.manager.userData.setLws wsi }
      (s.manager.addressSession wsi response ret).2 := by
    apply trans _ (keeps_httpDummy _ response ret).toKeepsSession
    exact (keepsSession_emitByUv _ _).trans (keepsSession_emitByUv _ _)
  refine ⟨?_, ?_, ?_⟩
  · intro wsi' hwsi
    cases hwsi
    exact congrArg UserData.wsi hkeeps.userData
  · have horder := h.inOrder
    rw [hkeeps.written, hkeeps.userData]
    exact horder
  · intro wsi' _ hclosed hqueue
    replace hclosed := (congrArg closed hkeeps.userData).symm.trans hclosed
    have hsame := congrArg UserData.dataQueue hkeeps.userData
    rcases hflushed with hshut | hempty | ⟨i, hi⟩
    · exact Bool.noConfusion (hshut.symm.trans hclosed)
    · exact absurd (hsame.trans hempty) hqueue
    · exact Or.inr ⟨some i, hi⟩

theorem writeFirst_spec (h : m.writeFirst = some m') :
    m'.userData.wsi = m.userData.wsi ∧
      m'.written = m.written ++ m.userData.dataQueue.head?.toList ∧
      m'.userData.dataQueue = m.userData.dataQueue.tail := by
  unfold writeFirst at h
  split at h
  · cases h
  · rename_i sendData u hpop
    cases h
    obtain ⟨hhead, rfl⟩ := Prod.mk.inj hpop
    grind

theorem dataQueue_of_writeFirst (h : m.writeFirst = none) : m.userData.dataQueue = [] := by
  unfold writeFirst at h
  split at h
  · rename_i u hpop
    exact List.head?_eq_none_iff.mp (Prod.mk.inj hpop).1
  · cases h

variable (h : s.Invariant)
include h

theorem Invariant.wsPeerInitiatedClose (payload : Bytes) :
    Invariant { s with
      manager := (s.manager.lwsCallbackWsPeerInitiatedClose response payload ret).2 } := by
  unfold lwsCallbackWsPeerInitiatedClose
  split
  · split
    · exact h.of_session (keeps_httpDummy _ response ret).toKeepsSession rfl rfl
        fun hclosed => Bool.noConfusion hclosed
    · exact h.of_session (keeps_httpDummy _ response ret).toKeepsSession rfl rfl
        fun hclosed => Bool.noConfusion hclosed
  · exact h.of_keepsSession (s.manager.keeps_onError _ response).toKeepsSession

theorem Invariant.connectionError : Invariant
      { s with manager := (s.manager.lwsCallbackClientConnectionError response ret).2 } := by
  unfold lwsCallbackClientConnectionError onConnectError
  split
  · apply h.of_session (u := s.manager.userData.setThreadStop true) _ rfl rfl id
    exact ((keeps_onError _ _ response).trans
      (keeps_httpDummy _ response ret)).toKeepsSession
  · apply h.of_keepsSession
    exact ((keeps_onError _ _ response).trans
      (keeps_httpDummy _ response ret)).toKeepsSession

theorem Invariant.closed :
    (s.drop (s.manager.lwsCallbackClientClosed response ret).2).Invariant := by
  let u := (s.manager.userData.setThreadStop true).closeIfReasonEmpty linkDown
  have hqueue : u.dataQueue = s.manager.userData.dataQueue := by
    unfold u closeIfReasonEmpty
    split <;> rfl
  unfold lwsCallbackClientClosed
  split
  · have hkeeps : KeepsSession { s.manager with userData := u }
        (httpDummy (onClose
          (if u.closeStatus = lwsCloseStatusNoStatus then
            onError { s.manager with userData := u } commonErrorCode response
          else { s.manager with userData := u }) u.closeStatus u.closeReason) response ret).2 := by
      apply trans _ (keeps_httpDummy _ response ret).toKeepsSession
      apply trans _ (keepsSession_emitByUv _ _)
      split
      · exact keepsSession_emitByUv _ _
      · exact .refl _
    exact h.drop hkeeps rfl hqueue
  · exact h.drop (s.manager.keeps_onError _ response).toKeepsSession rfl rfl

theorem Invariant.wsiDestroy :
    (s.drop (s.manager.lwsCallbackWsiDestroy response ret).2).Invariant := by
  unfold lwsCallbackWsiDestroy
  split
  · exact h.drop (keeps_httpDummy _ response ret).toKeepsSession rfl rfl
  · exact h.drop (s.manager.keeps_onError _ response).toKeepsSession rfl rfl

variable [DecidableEq κ]

theorem Invariant.triggered (hservice : s.service = .idle) (wsi : κ) :
    Invariant { s with manager := s.manager.triggerWritable, service := .triggered wsi } := by
  apply h.of_spares
  refine ⟨fun _ hwsi => ⟨hwsi, rfl⟩, rfl, rfl, rfl, id,
    fun wsi => s.manager.userData.triggerWritable_of_pending, ?_⟩
  intro p hp
  cases p with
  | some i => exact hp
  | none => exact absurd (hservice.symm.trans hp) (by simp)

omit h in
/-- A writable callback that writes nothing leaves the session as it is. -/
theorem keepsSession_lwsCallbackClientWritable
    (h : m.attached = true → m.userData.closed = false → m.writeFirst = none) :
    m.KeepsSession (m.lwsCallbackClientWritable response ret).2 := by
  unfold lwsCallbackClientWritable
  split
  · split
    · exact ⟨rfl, rfl, rfl, rfl⟩
    · rename_i hattached hclosed
      rw [h hattached (Bool.eq_false_iff.mpr hclosed)]
      exact (m.keeps_httpDummy response ret).toKeepsSession
  · exact (m.keeps_onError _ response).toKeepsSession

theorem Invariant.writable (wsi : κ) : (s.writable wsi response ret).Invariant := by
  unfold System.writable
  by_cases hopen : s.manager.attached = true ∧ s.manager.userData.closed = false
  · rw [if_pos hopen]
    cases hwrite : (s.manager.takeWritable wsi).writeFirst with
    | none =>
      have hkeeps := keepsSession_lwsCallbackClientWritable response ret fun _ _ => hwrite
      have hqueue := (congrArg UserData.dataQueue hkeeps.userData).trans
        (dataQueue_of_writeFirst hwrite)
      refine ⟨?_, ?_, fun _ _ _ hne => absurd hqueue hne⟩
      · intro wsi' hwsi
        exact (congrArg UserData.wsi hkeeps.userData).trans (h.address wsi' hwsi)
      · have horder := h.inOrder
        rw [hkeeps.written, hkeeps.userData]
        exact horder
    | some m =>
      obtain ⟨haddress, hwritten, hqueue⟩ := writeFirst_spec hwrite
      refine ⟨?_, ?_, ?_⟩
      · exact fun wsi' hwsi => haddress.trans (h.address wsi' hwsi)
      · rw [hwritten, hqueue]
        exact Mailbox.InOrder.take (m := s.mailbox wsi) h.inOrder none
      · intro wsi' _ _
        apply (Mailbox.noticed_take (s.mailbox wsi') none).of_grants
        refine ⟨hqueue, False.elim, ?_⟩
        rintro p (rfl | hp)
        · rfl
        · cases p with
          | none => rfl
          | some i => exact hp
  · rw [if_neg hopen]
    have hkeeps := keepsSession_lwsCallbackClientWritable (m := s.manager.takeWritable wsi)
      response ret fun hattached hclosed => absurd ⟨hattached, hclosed⟩ hopen
    exact h.drop hkeeps rfl rfl

/-- The writable callback requests another call for what it has left. -/
theorem Invariant.rest : Invariant { s with
      manager := (s.manager.triggerRest.httpDummy response ret).2
      service := .idle } := by
  have hkeeps := (s.manager.triggerRest.keeps_httpDummy response ret).toKeepsSession
  have hrest : s.manager.triggerRest.userData = s.manager.userData ∧
      s.manager.triggerRest.written = s.manager.written := by
    unfold triggerRest
    split <;> exact ⟨rfl, rfl⟩
  have hdata := hkeeps.userData.trans hrest.1
  refine ⟨?_, ?_, ?_⟩
  · exact fun wsi hwsi => (congrArg UserData.wsi hdata).trans (h.address wsi hwsi)
  · have horder := h.inOrder
    rw [hkeeps.written, hrest.2, hdata]
    exact horder
  · intro wsi hwsi _ hqueue
    replace hqueue : s.manager.userData.dataQueue ≠ [] :=
      fun hempty => hqueue ((congrArg UserData.dataQueue hdata).trans hempty)
    have hpending : s.manager.triggerRest.writables wsi = true := by
      rw [triggerRest, if_neg hqueue]
      exact triggerWritable_self (h.address wsi hwsi) s.manager.writables
    exact Or.inl ((congrFun hkeeps.writables wsi).trans hpending)

theorem Invariant.callback (hservice : s.service = .idle) {cb : Callback κ}
    (hstep : s.callback cb response ret = some t) : t.Invariant := by
  cases cb with
  | filterPreEstablish statusLine protocol responseHeader =>
    cases hstep
    exact h.of_keepsSession (s.manager.keeps_lwsCallbackClientFilterPreEstablish response
      statusLine protocol responseHeader ret).toKeepsSession
  | established wsi =>
    obtain ⟨-, hbegin⟩ := ite_none_left_eq_some.mp hstep
    split at hbegin <;> obtain rfl := Option.some.inj hbegin
    · exact h.triggered hservice wsi
    · exact h.of_keepsSession (s.manager.keeps_onError _ response).toKeepsSession
  | receive data isBinary isFinal =>
    cases hstep
    exact h.of_keepsSession (s.manager.keepsSession_lwsCallbackClientReceive response data
      isBinary isFinal ret)
  | writable wsi =>
    obtain ⟨-, hwrite⟩ := ite_none_right_eq_some.mp hstep
    grind [@h.writable]
  | wsPeerInitiatedClose payload =>
    cases hstep
    exact h.wsPeerInitiatedClose response ret payload
  | connectionError =>
    cases hstep
    exact h.connectionError response ret
  | closed =>
    cases hstep
    exact h.closed response ret
  | wsiDestroy =>
    cases hstep
    exact h.wsiDestroy response ret
  | protocolDestroy =>
    cases hstep
    exact h.of_keepsSession (s.manager.keeps_httpDummy response ret).toKeepsSession

end Serving

/-- When an open session gets its connection, it has no message or a send has still to request a
writable callback. -/
def Flushed (s : System κ ι) : Event κ ι → Prop
  | .resume _ _ =>
    match s.service with
    | .triggered _ =>
      s.manager.userData.closed = true ∨ s.manager.userData.dataQueue = [] ∨
        ∃ i, s.caller i = .sendPushed
    | _ => True
  | _ => True

instance [Fintype ι] (s : System κ ι) (e : Event κ ι) : Decidable (s.Flushed e) := by
  unfold Flushed
  split
  · split <;> infer_instance
  · infer_instance

theorem Invariant.step (h : s.Invariant) {e : Event κ ι}
    (hflushed : s.Flushed e) (hstep : s.step e = some t) : t.Invariant := by
  cases e with
  | send i data =>
    obtain ⟨hidle, hsend⟩ := ite_none_right_eq_some.mp hstep
    grind [@h.setCaller]
  | close i code reason =>
    obtain ⟨hidle, hclose⟩ := ite_none_right_eq_some.mp hstep
    grind [@h.setCaller]
  | proceed i => exact h.proceed hstep
  | callback cb response ret =>
    obtain ⟨hservice, hcall⟩ := ite_none_right_eq_some.mp hstep
    exact h.callback response ret hservice hcall
  | resume response ret =>
    unfold System.step System.resume at hstep
    grind [Flushed, @h.addressed, @h.rest]
  | finalize =>
    unfold System.step at hstep
    dsimp only at hstep
    split at hstep <;> obtain rfl := Option.some.inj hstep
    · exact h.of_session (.refl _) rfl rfl id
    · exact h
  | endService =>
    obtain ⟨-, hend⟩ := ite_none_right_eq_some.mp hstep
    cases hend
    exact h.of_spares ⟨fun _ hwsi => ⟨hwsi, rfl⟩, rfl, rfl, rfl, id, fun _ hp => hp, subset_rfl⟩

section Delivery

/-- While no send and no callback is in progress, a writable callback of the connection is pending
for the messages of an established and open session, which are written in the order they were
sent. -/
structure Delivers (s : System κ ι) : Prop where
  inOrder : s.manager.written ++ s.manager.userData.dataQueue = s.posted
  pending : (∀ i, (s.caller i).isSend = false) → s.service = .idle →
    ∀ wsi, s.established = some wsi → s.manager.userData.closed = false →
      s.manager.userData.dataQueue ≠ [] →
      s.manager.userData.wsi = some wsi ∧ s.manager.writables wsi = true

omit [DecidableEq κ] [DecidableEq ι] in
theorem Invariant.delivers (h : s.Invariant) : s.Delivers := by
  refine ⟨h.inOrder, ?_⟩
  intro hcaller hservice wsi hwsi hclosed hqueue
  refine ⟨h.address wsi hwsi, ?_⟩
  rcases h.noticed wsi hwsi hclosed hqueue with hpending | ⟨p, hp⟩
  · exact hpending
  · cases p with
    | some i =>
      have hi : s.caller i = .sendPushed := hp
      have hsend := hcaller i
      rw [hi] at hsend
      cases hsend
    | none => exact absurd (hservice.symm.trans hp) (by simp)

/-- In any interleaving of sends, closes and callbacks in which the session gets its connection
before its first message, or while a send is about to request a writable callback, no message is
stuck. -/
theorem messages_not_stuck (events : List (Event κ ι)) (hmeets : Meets step Flushed events {}) :
    Throughout step Delivers events ({} : System κ ι) := by
  apply throughout_of_meets (J := Invariant)
  · exact fun s e t hs hflushed hstep => hs.step hflushed hstep
  · exact fun s hs => hs.delivers
  · exact ⟨fun _ hwsi => absurd hwsi.symm (some_ne_none _), rfl,
      fun _ hwsi => absurd hwsi.symm (some_ne_none _)⟩
  · exact hmeets

/-- A thread sends a text, from the call to its return. -/
def sampleSend (i : Bool) (text : String) : List (Event Nat Bool) :=
  [.send i ⟨ascii text, .text⟩, .proceed i, .proceed i, .proceed i, .proceed i]

def sampleEstablished : List (Event Nat Bool) :=
  [.callback (.established 7) 101 0, .resume 101 0]

/-- Two messages are sent after the connection is established, and both are written. -/
def punctualSends : List (Event Nat Bool) :=
  sampleEstablished ++ sampleSend true "one" ++ sampleSend false "two" ++
    [.callback (.writable 7) 101 0, .resume 101 0, .callback (.writable 7) 101 0, .resume 101 0]

theorem punctualSends_not_stuck :
    Meets step Flushed punctualSends {} ∧ Throughout step Delivers punctualSends {} :=
  have hmeets : Meets step Flushed punctualSends {} := by
    decide +kernel
  ⟨hmeets, messages_not_stuck punctualSends hmeets⟩

/-- A message is sent before the connection is established. -/
def earlySend : List (Event Nat Bool) :=
  sampleSend true "one" ++ sampleEstablished

/-- The connection is established and open, and nothing will write the message. -/
theorem earlySend_stuck :
    ¬ Throughout step Delivers earlySend {} ∧
      ∃ s, earlySend.foldlM step ({} : System Nat Bool) = some s ∧
        (s.service = .idle ∧ ∀ i, s.caller i = .idle) ∧ s.established = some 7 ∧
        s.manager.userData.closed = false ∧
        s.manager.userData.dataQueue = [⟨ascii "one", .text⟩] ∧
        s.manager.writables 7 = false := by
  refine (and_iff_right_of_imp ?_).mpr (by decide +kernel)
  rintro ⟨s, hs, ⟨hservice, hidle⟩, hestablished, hclosed, hqueue, hwritables⟩ hdelivers
  have hpending := ((hdelivers.finish hs).pending (fun i => by rw [hidle i]; rfl) hservice 7
    hestablished hclosed (by simp [hqueue])).2
  exact Bool.noConfusion (hwritables.symm.trans hpending)

end Delivery

end System

end Netstack.WebSocket.ClientExec
