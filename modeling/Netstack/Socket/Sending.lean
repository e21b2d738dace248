import Netstack.Foundation.ByteStrings
import Netstack.Foundation.Execution
import Netstack.Socket.ExecCommon

/-!
# Sending data over a socket

`ExecCommonUtils::PollSendData` waits until the socket is writable and hands the rest of the data
to the kernel, until nothing is left. A socket that is not a stream is given at most as many bytes
as its send buffer has.

## Implementation notes

A round holds what `poll` and `send` or `sendto` answer. `errno` is part of the state: a `poll`
that times out does not set it, and the loop reads it then.
-/

namespace Netstack.Socket

open Foundation Foundation.Execution List

inductive SocketType where
  | stream
  | dgram
  | other
  deriving DecidableEq, Repr

/-- The options of the kernel that give a timeout. -/
inductive TimeoutType where
  | rcvTimeo
  | sndTimeo
  deriving DecidableEq, Repr

/-- What `getsockopt` answers for a socket; a failed query is `none` or its `errno`. -/
structure Options where
  sndBuf : Option Int := none
  type : Option SocketType
  /-- Seconds and microseconds. -/
  sndTimeo : Except Nat (Nat × Nat) := .ok (0, 0)
  fastOpenConnect : Option Int := none
  deriving Repr

namespace ExecCommonUtils

def defaultTimeoutMs : Int := 20000

variable (socket : Options)

/-- The buffer size of `GetSendBufferSize`; its result is whether the type could be read. -/
def getSendBufferSize : Int :=
  match socket.sndBuf with
  | some opt => if 0 < opt then opt else defaultBufferSize
  | none => defaultBufferSize

/-- The milliseconds are counted in a `long` and returned as an `int`. -/
def confirmSocketTimeoutMs (answer : Except Nat (Nat × Nat)) (type : TimeoutType)
    (defaultValue : Int) : Int :=
  match answer with
  | .error errno => if errno = enotsock ∧ type = .rcvTimeo then -1 else defaultValue
  | .ok (sec, usec) =>
    let socketTimeoutMs := sec * 1000 + usec / 1000
    if socketTimeoutMs = 0 then defaultValue else Int.bmod socketTimeoutMs (2 ^ 32)

def sendTimeoutMs : Int :=
  confirmSocketTimeoutMs socket.sndTimeo .sndTimeo defaultTimeoutMs

def isTfoEnabled : Bool := socket.fastOpenConnect.any (· ≠ 0)

inductive PollResult where
  | ready
  | timedOut
  | failed (errno : Nat)
  deriving DecidableEq, Repr

inductive SendResult where
  | accepted (sendLen : Nat)
  | failed (errno : Nat)
  deriving DecidableEq, Repr

structure Round where
  poll : PollResult := .ready
  send : SendResult
  deriving DecidableEq, Repr

/-- A call that the kernel has accepted: `sendto` with the address, or `send`. -/
structure Call where
  bytes : Bytes
  sendto : Bool
  deriving DecidableEq, Repr

/-- Where `PollSendData` stands: in the loop, behind it after `break`, or returned `false`. -/
inductive Control where
  | looping
  | broken
  | gaveUp
  deriving DecidableEq, Repr

structure State where
  curPos : Nat := 0
  leftSize : Nat
  errno : Nat
  calls : List Call := []
  control : Control := .looping
  deriving DecidableEq, Repr

/-- The loop is entered: the type of the socket is known and the timeout is not negative. -/
def Enters : Prop := socket.type.isSome ∧ 0 ≤ sendTimeoutMs socket

instance (socket : Options) : Decidable (Enters socket) := inferInstanceAs (Decidable (_ ∧ _))

def start (data : Bytes) (errno : Nat) : State :=
  { leftSize := data.length, errno := errno
    control := if Enters socket then .looping else .gaveUp }

variable (s : State)

def State.returned : Option Bool :=
  match s.control with
  | .gaveUp => some false
  | .broken => some (decide (s.leftSize = 0))
  | .looping => if s.leftSize = 0 then some true else none

/-- Whether the socket can be written to, and `errno` after the call. -/
def pollFd (poll : PollResult) (errno : Nat) : Bool × Nat :=
  match poll with
  | .failed code => (false, code)
  | .timedOut => (false, errno)
  | .ready => (true, errno)

def sendSize (leftSize : Nat) : Nat :=
  if socket.type = some .stream then leftSize
  else min leftSize (getSendBufferSize socket).toNat

/-- The kernel may accept so many of the bytes it is given. -/
def Possible (given sendLen : Nat) : Prop :=
  if socket.type = some .stream then sendLen ≤ given else sendLen = given

instance (socket : Options) (given sendLen : Nat) : Decidable (Possible socket given sendLen) := by
  unfold Possible
  infer_instance

def State.sends (socket : Options) (data : Bytes) (sendLen : Nat) : State :=
  { s with
    curPos := s.curPos + sendLen
    leftSize := s.leftSize - sendLen
    calls := s.calls ++
      [{ bytes := (data.drop s.curPos).take sendLen, sendto := !isTfoEnabled socket }] }

/-- One turn of the loop. -/
def State.turn (socket : Options) (data : Bytes) (r : Round) : Option State :=
  let polled := pollFd r.poll s.errno
  if polled.1 = false ∧ polled.2 ≠ eintr then
    some { s with errno := polled.2, control := .gaveUp }
  else
    match r.send with
    | .failed code =>
      if code = eagain ∨ code = eintr then some { s with errno := code }
      else some { s with errno := code, control := .gaveUp }
    | .accepted sendLen =>
      if ¬ Possible socket (sendSize socket s.leftSize) sendLen then none
      else if sendLen = 0 then some { s with errno := polled.2, control := .broken }
      else some (State.sends { s with errno := polled.2 } socket data sendLen)

def step (data : Bytes) (s : State) (r : Round) : Option State :=
  if s.returned = none then s.turn socket data r else none

/-- The state after so many rounds. -/
def pollSendData (data : Bytes) (errno : Nat) (rounds : List Round) : Option State :=
  rounds.foldlM (step socket data) (start socket data errno)

/-- What the kernel has been handed. -/
def State.sent : Bytes := s.calls.flatMap (·.bytes)

/-! ### What a turn does -/

/-- A turn waits, stops short of the end, or has the kernel accept the next bytes. -/
inductive Turns (socket : Options) (data : Bytes) (s : State) : State → Prop
  | waits (errno : Nat) : Turns socket data s { s with errno := errno }
  | stops (errno : Nat) (control : Control) (hcontrol : control ≠ .looping) :
      Turns socket data s { s with errno := errno, control := control }
  | sends (errno sendLen : Nat) (hpos : 0 < sendLen)
      (hpossible : Possible socket (sendSize socket s.leftSize) sendLen) :
      Turns socket data s (State.sends { s with errno := errno } socket data sendLen)

variable {socket : Options} {data : Bytes} {s t : State} {r : Round} {rounds : List Round}
variable {sendLen errno : Nat}

theorem turns_of_turn (h : s.turn socket data r = some t) : Turns socket data s t := by
  rw [State.turn] at h
  split at h
  · cases h
    exact .stops _ _ nofun
  cases hsend : r.send with
  | failed code =>
    simp only [hsend] at h
    split at h
    · cases h
      exact .waits code
    · cases h
      exact .stops _ _ nofun
  | accepted sendLen =>
    simp only [hsend] at h
    obtain ⟨hpossible, h⟩ := Option.ite_none_left_eq_some.mp h
    split at h
    · cases h
      exact .stops _ _ nofun
    · rename_i hzero
      cases h
      exact .sends _ sendLen (Nat.pos_of_ne_zero hzero) (not_not.mp hpossible)

theorem State.returned_eq_none_iff : s.returned = none ↔ s.control = .looping ∧ 0 < s.leftSize := by
  rw [State.returned]
  grind

theorem turns_of_step (h : step socket data s r = some t) :
    s.control = .looping ∧ 0 < s.leftSize ∧ Turns socket data s t := by
  obtain ⟨hreturned, hturn⟩ := Option.ite_none_right_eq_some.mp h
  obtain ⟨hcontrol, hleft⟩ := State.returned_eq_none_iff.mp hreturned
  exact ⟨hcontrol, hleft, turns_of_turn hturn⟩

theorem Possible.le {given sendLen : Nat} (h : Possible socket given sendLen) :
    sendLen ≤ given := by
  rw [Possible] at h
  split at h
  · exact h
  · exact h.le

theorem sendSize_le (leftSize : Nat) : sendSize socket leftSize ≤ leftSize := by
  rw [sendSize]
  split
  · exact le_rfl
  · exact Nat.min_le_left _ _

/-! ### The bytes that the kernel has accepted -/

/-- The cursor and the rest make up the data, all before the cursor was accepted, and the loop is
left early only with something to send. -/
structure Sound (socket : Options) (data : Bytes) (s : State) : Prop where
  position : s.curPos + s.leftSize = data.length
  sent : s.sent = data.take s.curPos
  short : Enters socket → s.control ≠ .looping → 0 < s.leftSize
  refused : ¬ Enters socket → s.control = .gaveUp ∧ s.curPos = 0

theorem Sound.start (socket : Options) (data : Bytes) (errno : Nat) :
    Sound socket data (start socket data errno) where
  position := Nat.zero_add _
  sent := rfl
  short henters hcontrol := absurd (if_pos henters) hcontrol
  refused hrefused := ⟨if_neg hrefused, rfl⟩

theorem Sound.sends (h : Sound socket data s) (hcontrol : s.control = .looping)
    (hle : sendLen ≤ s.leftSize) : Sound socket data (s.sends socket data sendLen) := by
  have hposition := h.position
  refine ⟨?_, ?_, fun _ hleft => absurd hcontrol hleft, fun hrefused => ?_⟩
  · simp only [State.sends]
    omega
  · calc (s.sends socket data sendLen).sent
        = s.sent ++ (data.drop s.curPos).take sendLen := by
          simp only [State.sent, State.sends, flatMap_append, flatMap_singleton]
      _ = data.take s.curPos ++ (data.drop s.curPos).take sendLen := by rw [h.sent]
      _ = data.take (s.curPos + sendLen) := take_add.symm
  · cases hcontrol.symm.trans (h.refused hrefused).1

theorem Sound.step (h : Sound socket data s) (hstep : step socket data s r = some t) :
    Sound socket data t := by
  obtain ⟨hcontrol, hleft, hturns⟩ := turns_of_step hstep
  have henters : Enters socket := by
    grind [@h.refused]
  cases hturns with
  | waits errno => exact ⟨h.position, h.sent, h.short, h.refused⟩
  | stops errno control _ =>
    exact ⟨h.position, h.sent, fun _ _ => hleft, fun hrefused => absurd henters hrefused⟩
  | sends errno sendLen _ hpossible =>
    have hsame : Sound socket data { s with errno := errno } :=
      ⟨h.position, h.sent, h.short, h.refused⟩
    exact hsame.sends hcontrol (hpossible.le.trans (sendSize_le _))

theorem Sound.of_pollSendData
    (hrun : pollSendData socket data errno rounds = some t) : Sound socket data t :=
  foldlM_invariant (fun _ _ _ hs hstep => hs.step hstep) rounds (Sound.start socket data errno) hrun

theorem Sound.sent_eq_iff (h : Sound socket data s) : s.sent = data ↔ s.leftSize = 0 := by
  have hposition := h.position
  rw [h.sent, take_eq_self_iff]
  omega

theorem Sound.returned_true_iff (h : Sound socket data s) :
    s.returned = some true ↔ s.leftSize = 0 ∧ Enters socket := by
  by_cases henters : Enters socket
  · rw [and_iff_left henters]
    have hshort := h.short henters
    grind [State.returned]
  · simp [State.returned, (h.refused henters).1, henters]

/-- On a stream socket the kernel is handed a beginning of the data, and `true` is returned if and
only if that is all of it and the timeout of the socket is not negative as an `int`. So `true`
stands for all of the data if and only if there are data or the timeout is not negative. -/
theorem pollSendData_integrity (socket : Options) (hstream : socket.type = some .stream)
    (data : Bytes) (errno : Nat) (rounds : List Round) (t : State)
    (hrun : pollSendData socket data errno rounds = some t) :
    t.sent <+: data ∧
      (t.returned = some true ↔ t.sent = data ∧ 0 ≤ sendTimeoutMs socket) ∧
      ((t.returned = some true ↔ t.sent = data) ↔ data ≠ [] ∨ 0 ≤ sendTimeoutMs socket) := by
  have hsound := Sound.of_pollSendData hrun
  have henters : Enters socket ↔ 0 ≤ sendTimeoutMs socket := by simp [Enters, hstream]
  have hreturned : t.returned = some true ↔ t.sent = data ∧ 0 ≤ sendTimeoutMs socket := by
    rw [hsound.returned_true_iff, hsound.sent_eq_iff, henters]
  refine ⟨hsound.sent ▸ take_prefix _ _, hreturned, ?_⟩
  by_cases htimeout : 0 ≤ sendTimeoutMs socket
  · exact iff_of_true (hreturned.trans (and_iff_left htimeout)) (.inr htimeout)
  · have hposition := hsound.position
    have hcursor := (hsound.refused (henters.not.mpr htimeout)).2
    have hsent := hsound.sent_eq_iff
    have hempty : data = [] ↔ data.length = 0 := List.length_eq_zero_iff.symm
    grind

section Instances

def plainStream : Options := { type := some .stream }

/-- A stream socket whose timeout is `2147484` seconds. -/
def patientStream : Options := { type := some .stream, sndTimeo := .ok (2147484, 0) }

def accepts (sendLen : Nat) : Round := { send := .accepted sendLen }

/-- `poll` is interrupted and the socket is not ready. -/
def interrupted : Round := { poll := .failed eintr, send := .failed eagain }

end Instances

theorem threeBytes_sent :
    ∃ t, pollSendData plainStream [1, 2, 3] 0 [accepts 2, interrupted, accepts 1] = some t ∧
      t.returned = some true ∧ t.sent = [1, 2, 3] := by
  refine ⟨{ curPos := 3, leftSize := 0, errno := eagain
            calls := [⟨[1, 2], true⟩, ⟨[3], true⟩] }, by decide, rfl, ?_⟩
  exact ((pollSendData_integrity plainStream rfl [1, 2, 3] 0 [accepts 2, interrupted, accepts 1] _
    (by decide)).2.1.mp rfl).1

/-- The timeout is negative as an `int`, and `false` is returned for no data at all. -/
theorem nothing_refused :
    ∃ t, pollSendData patientStream [] 0 [] = some t ∧
      ¬ (t.returned = some true ↔ t.sent = []) := by
  refine ⟨start patientStream [] 0, rfl, fun h => ?_⟩
  exact absurd (h.mpr rfl) (by decide)

end ExecCommonUtils

namespace UDPSocket

open ExecCommonUtils

/-- What the kernel answers for a UDP socket: it knows no options of TCP for it. -/
def options (sndBuf : Option Int) (sndTimeo : Except Nat (Nat × Nat)) : Options :=
  { sndBuf := sndBuf, type := some .dgram, sndTimeo := sndTimeo, fastOpenConnect := none }

/-- What `DoSend` returns, if it does: `made` is the result of `MakeSockAddr`. -/
def doSend (made : Bool) (s : State) : Option Int :=
  if made = false then some systemInternalError
  else
    s.returned.map fun ok => if ok then socketErrorOk else convertSocketClientErrno s.errno

theorem returned_of_doSend {made : Bool} {s : State} (h : doSend made s = some socketErrorOk) :
    s.returned = some true := by
  rw [doSend] at h
  split at h
  · exact absurd (Option.some.inj h) (by decide)
  cases hreturned : s.returned with
  | none =>
    rw [hreturned] at h
    cases h
  | some ok =>
    grind [convertSocketClientErrno_ne_ok]

variable {sndBuf : Option Int} {sndTimeo : Except Nat (Nat × Nat)} {payload : Bytes}
variable {s t : State} {r : Round} {rounds : List Round} {sendLen errno : Nat}

/-- Every datagram fits into the send buffer, and one that all of the payload fits into is
the only one. -/
structure Datagrams (socket : Options) (payload : Bytes) (s : State) : Prop where
  bounded : ∀ call ∈ s.calls, call.bytes.length ≤ (getSendBufferSize socket).toNat
  addressed : ∀ call ∈ s.calls, call.sendto = true
  single : payload.length ≤ (getSendBufferSize socket).toNat →
    s.calls = [] ∨ s.leftSize = 0 ∧ s.calls.length = 1

theorem Datagrams.sends (h : Datagrams (options sndBuf sndTimeo) payload s)
    (hsound : Sound (options sndBuf sndTimeo) payload s) (hleft : 0 < s.leftSize)
    (hpossible : Possible (options sndBuf sndTimeo)
      (sendSize (options sndBuf sndTimeo) s.leftSize) sendLen) :
    Datagrams (options sndBuf sndTimeo) payload
      (s.sends (options sndBuf sndTimeo) payload sendLen) := by
  have hlen : sendLen = min s.leftSize (getSendBufferSize (options sndBuf sndTimeo)).toNat :=
    hpossible
  have hposition := hsound.position
  refine ⟨?_, ?_, fun hfits => Or.inr ?_⟩
  · intro call hcall
    rcases mem_append.mp hcall with hold | hnew
    · exact h.bounded call hold
    grind
  · intro call hcall
    rcases mem_append.mp hcall with hold | hnew
    · exact h.addressed call hold
    · obtain rfl := mem_singleton.mp hnew
      rfl
  grind [State.sends, @h.single]

theorem Datagrams.step (h : Datagrams (options sndBuf sndTimeo) payload s)
    (hsound : Sound (options sndBuf sndTimeo) payload s)
    (hstep : step (options sndBuf sndTimeo) payload s r = some t) :
    Datagrams (options sndBuf sndTimeo) payload t := by
  obtain ⟨-, hleft, hturns⟩ := turns_of_step hstep
  cases hturns with
  | waits errno => exact ⟨h.bounded, h.addressed, h.single⟩
  | stops errno control _ => exact ⟨h.bounded, h.addressed, h.single⟩
  | sends errno sendLen _ hpossible =>
    have hsame : Datagrams (options sndBuf sndTimeo) payload { s with errno := errno } :=
      ⟨h.bounded, h.addressed, h.single⟩
    exact hsame.sends ⟨hsound.position, hsound.sent, hsound.short, hsound.refused⟩ hleft hpossible

theorem Datagrams.of_pollSendData
    (hrun : pollSendData (options sndBuf sndTimeo) payload errno rounds = some t) :
    Datagrams (options sndBuf sndTimeo) payload t := by
  have hstart : Datagrams (options sndBuf sndTimeo) payload
      (start (options sndBuf sndTimeo) payload errno) := ⟨nofun, nofun, fun _ => Or.inl rfl⟩
  exact (foldlM_invariant (J := fun s => Datagrams (options sndBuf sndTimeo) payload s ∧
    Sound (options sndBuf sndTimeo) payload s)
    (fun _ _ _ hs hstep => ⟨hs.1.step hs.2 hstep, hs.2.step hstep⟩) rounds
    ⟨hstart, Sound.start _ payload errno⟩ hrun).1

/-- A send that reports success has made one successful `sendto`, with the whole payload, if and
only if the payload fits into the send buffer. -/
theorem doSend_whole_iff (sndBuf : Option Int) (sndTimeo : Except Nat (Nat × Nat))
    (payload : Bytes) (hpayload : payload ≠ []) (errno : Nat) (rounds : List Round) (t : State)
    (hrun : pollSendData (options sndBuf sndTimeo) payload errno rounds = some t) (made : Bool)
    (hok : doSend made t = some socketErrorOk) :
    t.calls = [{ bytes := payload, sendto := true }] ↔
      payload.length ≤ (getSendBufferSize (options sndBuf sndTimeo)).toNat := by
  have hdatagrams := Datagrams.of_pollSendData hrun
  have hsound := Sound.of_pollSendData hrun
  have hall : t.sent = payload :=
    hsound.sent_eq_iff.mpr (hsound.returned_true_iff.mp (returned_of_doSend hok)).1
  constructor
  · intro hcalls
    exact hdatagrams.bounded ⟨payload, true⟩ (by simp [hcalls])
  · intro hfits
    rcases hdatagrams.single hfits with hnone | ⟨-, hone⟩
    · rw [State.sent, hnone] at hall
      exact absurd hall.symm hpayload
    · obtain ⟨call, hcall⟩ := length_eq_one_iff.mp hone
      have hsendto : call.sendto = true := hdatagrams.addressed call (by simp [hcall])
      rw [State.sent, hcall, flatMap_singleton] at hall
      rw [hcall, ← hall, ← hsendto]

section Instances

/-- A socket with the send buffer that the kernel makes of a very small one. -/
def smallOptions : Options := options (some 4608) (.ok (0, 0))

def longPayload : Bytes := List.replicate 5000 0

/-- The state after two datagrams. -/
def twoDatagrams : State where
  curPos := 5000
  leftSize := 0
  errno := 0
  calls := [{ bytes := longPayload.take 4608, sendto := true },
    { bytes := (longPayload.drop 4608).take 392, sendto := true }]

end Instances

theorem query_whole :
    ∃ t, pollSendData smallOptions (ascii "query") 0 [interrupted, accepts 5] = some t ∧
      doSend true t = some socketErrorOk ∧
      t.calls = [{ bytes := ascii "query", sendto := true }] := by
  refine ⟨{ curPos := 5, leftSize := 0, errno := eagain, calls := [⟨ascii "query", true⟩] },
    by decide, rfl, ?_⟩
  exact (doSend_whole_iff (some 4608) (.ok (0, 0)) (ascii "query") (by decide) 0
    [interrupted, accepts 5] _ (by decide) true rfl).mpr (by decide)

/-- A payload of 5000 bytes leaves in a datagram of 4608 and one of 392 bytes, and the send
reports success. -/
theorem longPayload_split :
    ∃ t, pollSendData smallOptions longPayload 0 [accepts 4608, accepts 392] = some t ∧
      doSend true t = some socketErrorOk ∧ t.calls.length = 2 ∧
      t.calls ≠ [{ bytes := longPayload, sendto := true }] := by
  have hstart : start smallOptions longPayload 0 = { leftSize := 5000, errno := 0 } := by
    rw [start, longPayload, length_replicate]
    rfl
  refine ⟨twoDatagrams, ?_, rfl, rfl, fun h => ?_⟩
  · rw [pollSendData, hstart]
    rfl
  · exact absurd (congrArg List.length h) (by decide)

end UDPSocket

end Netstack.Socket
