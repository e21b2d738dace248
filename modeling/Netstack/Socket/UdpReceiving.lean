import Netstack.Foundation.Execution
import Netstack.Socket.ExecCommon
import Netstack.Socks5.UdpDatagram

/-!
# Receiving datagrams through a SOCKS5 proxy

`UDPSocket::SocketRecvHandle` removes the header that the proxy has put before the payload. If that
fails this is only logged, and the application gets the datagram as it came.

## Implementation notes

A datagram that is longer than the buffer is cut off, and the `errno` of an earlier call is read
when the datagram is empty. Each delivery is kept with its datagram.
-/

namespace Netstack.Socket.UDPSocket

open Foundation Foundation.Execution ExecCommonUtils List
open Socks5 Socks5.Socks5UdpInstance

/-- What the system answers in `SocketRecvHandle`. -/
structure Reception where
  rcvBuf : Option Int := none
  alloc : Bool := true
  result : Except Nat Bytes
  /-- `errno` if `recvfrom` does not fail. -/
  errno : Nat := 0
  /-- `IsTCPSocket` of the socket. -/
  tcp : Bool := false

def Reception.datagram (r : Reception) : Bytes :=
  match r.result with
  | .ok data => data
  | .error _ => []

/-- The size of the buffer, unless a new one is needed and cannot be allocated. -/
def updateRecvBuffer (bufferSize : Int) (r : Reception) : Option Int :=
  let currentRecvBufferSize := confirmBufferSize r.rcvBuf
  if currentRecvBufferSize ≠ bufferSize then
    if r.alloc then some currentRecvBufferSize else none
  else some bufferSize

def exitOrAbnormal (tcp : Bool) (recvLen : Int) (errno : Nat) : Int :=
  if tcp = false ∧ errno ≠ errnoBadFd then if errno = enotsock then -1 else 0
  else if recvLen = 0 then -1
  else if errno = eagain ∨ errno = eintr then 0
  else -1

section Receiving

variable (inet : Inet) (memmoveS : Nat → Nat → Bool) (socks5Inst : Bool) (af : AddressFamily)

/-- The buffer after `memset_s` and `recvfrom`. -/
def filled (bufferSize : Nat) (data : Bytes) : Bytes :=
  data.take bufferSize ++ List.replicate (bufferSize - data.length) 0

/-- What is left for the application, if anything. -/
def message (r : Removal) : Option Bytes :=
  if r.len = 0 then none else some (r.data.take r.len)

/-- The buffer and the length after `RemoveHeader`; without an instance nothing is removed. -/
def removed (buffer : Bytes) (recvLen : Nat) : Removal :=
  if socks5Inst then removeHeader inet memmoveS buffer recvLen af
  else { ok := true, data := buffer, len := recvLen }

/-- Whether the loop goes on, and what the application is called with. -/
def socketRecvHandle (bufferSize : Nat) (r : Reception) : Bool × Option Bytes :=
  match r.result with
  | .error errno => (decide (0 ≤ exitOrAbnormal r.tcp (-1) errno), none)
  | .ok data =>
    if data = [] then (decide (0 ≤ exitOrAbnormal r.tcp 0 r.errno), none)
    else
      (true, message (removed inet memmoveS socks5Inst af (filled bufferSize data)
        (data.take bufferSize).length))

/-- Nothing that the proxy sends over its own connection is delivered. -/
def proxyUdpSocketRecvHandle (received : Bool) (errno : Nat) : Bool :=
  received || decide (errno = eagain ∨ errno = eintr)

/-- The loop of `PollRecvData`, with the datagrams and what the application was called with. -/
structure Receiver where
  bufferSize : Int
  running : Bool := true
  deliveries : List (Bytes × Bytes) := []
  deriving DecidableEq

inductive Event where
  | socket (r : Reception)
  | proxy (received : Bool) (errno : Nat)

def receive (s : Receiver) : Event → Receiver
  | .socket r =>
    match updateRecvBuffer s.bufferSize r with
    | none => { s with running := false }
    | some bufferSize =>
      let handled := socketRecvHandle inet memmoveS socks5Inst af bufferSize.toNat r
      { bufferSize := bufferSize
        running := handled.1
        deliveries := s.deliveries ++ (handled.2.map fun m => (r.datagram, m)).toList }
  | .proxy received errno => { s with running := proxyUdpSocketRecvHandle received errno }

def receiveStep (s : Receiver) (e : Event) : Option Receiver :=
  if s.running then some (receive inet memmoveS socks5Inst af s e) else none

end Receiving

/-! ### One datagram -/

variable {inet : Inet} {memmoveS : Nat → Nat → Bool} {af : AddressFamily}

/-- `memmove_s` moves every payload that fits into a receive buffer. -/
def MovesPayloads (memmoveS : Nat → Nat → Bool) : Prop :=
  ∀ n : Nat, 0 < n → (n : Int) ≤ maxSocketBufferSize → memmoveS n n = true

/-- The payload is that of a well-formed datagram. -/
def Relays (data payload : Bytes) : Prop := ∃ d : UdpDatagram, d.bytes = data ∧ d.payload = payload

/-- Of a well-formed datagram the payload is delivered, if there is any. -/
theorem message_bytes (hmoves : MovesPayloads memmoveS) (d : UdpDatagram)
    (hfits : (d.payload.length : Int) ≤ maxSocketBufferSize) (slack : Bytes) :
    message (removed inet memmoveS true af (d.bytes ++ slack) d.bytes.length) =
      if d.payload = [] then none else some d.payload := by
  have hlen := d.length_bytes
  have hrest : d.bytes.length - d.headerLen = d.payload.length := by omega
  have hlong : ¬ d.bytes.length < d.headerLen := by omega
  rw [removed, if_pos rfl, removeHeader_bytes, dropFront, if_neg hlong, hrest]
  by_cases hempty : d.payload = []
  · rw [if_pos hempty]
    split <;> simp [message, hempty]
  · have hpos : 0 < d.payload.length := length_pos_iff.mpr hempty
    rw [if_neg hempty, if_pos (hmoves _ hpos hfits), message, if_neg hpos.ne', d.drop_bytes,
      take_left, take_left]

variable {data : Bytes}

/-- Anything else is delivered as it is. -/
theorem message_of_malformed (hdata : data ≠ [])
    (hmalformed : ∀ d : UdpDatagram, d.bytes ≠ data) (slack : Bytes) :
    message (removed inet memmoveS true af (data ++ slack) data.length) = some data := by
  have hnone : (Socks5UdpHeader.mk 0 0 (.other 0) [] 0).deserialize inet data = none := by
    by_contra hsome
    obtain ⟨header, hheader⟩ := Option.ne_none_iff_exists'.mp hsome
    grind [exists_datagram_of_deserialize]
  have hlength : data.length ≠ 0 := mt length_eq_zero_iff.mp hdata
  simp only [removed, if_true, removeHeader, take_left, hnone, message, if_neg hlength]

/-- The buffer holds the whole datagram or its header only; or it is shorter than the header, and
what it holds of it happens to be the payload. -/
def Fits (bufferSize : Nat) (d : UdpDatagram) : Prop :=
  d.bytes.length ≤ bufferSize ∨ bufferSize = d.headerLen ∨
    bufferSize < d.headerLen ∧ d.payload = d.bytes.take bufferSize

/-- The datagram is empty, or it is well-formed and fits into the buffer. -/
def Passes (bufferSize : Nat) (data : Bytes) : Prop :=
  data = [] ∨ ∃ d : UdpDatagram, d.bytes = data ∧ Fits bufferSize d

/-- A datagram that is cut off and still well-formed is a beginning of one with the same header. -/
theorem exists_of_take_eq_bytes {n : Nat} {d : UdpDatagram} (h : d.bytes = data.take n) :
    (d.withPayload (d.payload ++ data.drop n)).bytes = data := by
  rw [d.bytes_withPayload_append, h, take_append_drop]

variable {bufferSize : Nat}

/-- What the buffer holds is well-formed: its payload is that of the datagram if and only if
nothing was cut off, or nothing is delivered. -/
theorem relays_iff_of_formed (hmoves : MovesPayloads memmoveS)
    (hle : (bufferSize : Int) ≤ maxSocketBufferSize) {d : UdpDatagram}
    (hd : d.bytes = data.take bufferSize) (slack : Bytes) :
    (∀ m ∈ message (removed inet memmoveS true af (d.bytes ++ slack) d.bytes.length),
        Relays data m) ↔ ∃ e : UdpDatagram, e.bytes = data ∧ Fits bufferSize e := by
  have hwhole := exists_of_take_eq_bytes hd
  have hheader (e : UdpDatagram) (he : e.bytes = data) : e.headerLen = d.headerLen := by
    rw [UdpDatagram.headerLen_eq_of_bytes (he.trans hwhole.symm), d.headerLen_withPayload]
  have hlen := d.length_bytes
  have hshort : d.bytes.length ≤ bufferSize := by
    rw [hd]
    exact length_take_le _ _
  have hcut : data.length ≤ bufferSize ∨ d.bytes.length = bufferSize := by
    rw [hd, length_take]
    omega
  rw [message_bytes hmoves d (by omega)]
  by_cases hempty : d.payload = []
  · rw [if_pos hempty]
    refine iff_of_true (fun m hm => nomatch hm) ⟨_, hwhole, ?_⟩
    rcases hcut with hall | hfull
    · exact Or.inl (by rw [hwhole]; exact hall)
    · refine Or.inr (Or.inl ?_)
      rw [← hfull, hlen, hempty]
      rfl
  · have hpos : 0 < d.payload.length := length_pos_iff.mpr hempty
    rw [if_neg hempty]
    constructor
    · intro h
      obtain ⟨e, he, hpayload⟩ := h d.payload rfl
      have hsame := e.length_bytes
      rw [hpayload, hheader e he] at hsame
      exact ⟨e, he, Or.inl (by omega)⟩
    · rintro ⟨e, he, hfits⟩ m hm
      cases hm
      have hsame := hheader e he
      rcases hfits with hall | honly | ⟨hless, -⟩
      · refine ⟨d, ?_, rfl⟩
        rw [hd]
        exact take_of_length_le (he ▸ hall)
      · omega
      · omega

/-- What the buffer holds is not well-formed: it is delivered, and is the payload of the datagram
only by coincidence. -/
theorem relays_iff_of_malformed (hpos : 0 < bufferSize)
    (hdata : data ≠ []) (hmalformed : ∀ d : UdpDatagram, d.bytes ≠ data.take bufferSize)
    (slack : Bytes) :
    (∀ m ∈ message (removed inet memmoveS true af (data.take bufferSize ++ slack)
        (data.take bufferSize).length), Relays data m) ↔
      ∃ e : UdpDatagram, e.bytes = data ∧ Fits bufferSize e := by
  have hheld : data.take bufferSize ≠ [] := by
    rw [ne_eq, take_eq_nil_iff, not_or]
    exact ⟨hpos.ne', hdata⟩
  have hless (e : UdpDatagram) (he : e.bytes = data) : bufferSize < e.headerLen := by
    grind [@e.take_bytes]
  rw [message_of_malformed hheld hmalformed]
  constructor
  · intro h
    obtain ⟨e, he, hpayload⟩ := h _ rfl
    exact ⟨e, he, Or.inr (Or.inr ⟨hless e he, by rw [hpayload, he]⟩)⟩
  · rintro ⟨e, he, hfits⟩ m hm
    cases hm
    have hlen := e.length_bytes
    have hheader := hless e he
    rcases hfits with hall | honly | ⟨-, hpayload⟩
    · omega
    · omega
    · exact ⟨e, he, by rw [hpayload, he]⟩

theorem relays_message_iff (hmoves : MovesPayloads memmoveS)
    (hpos : 0 < bufferSize) (hle : (bufferSize : Int) ≤ maxSocketBufferSize) (hdata : data ≠ []) :
    (∀ m ∈ message (removed inet memmoveS true af (filled bufferSize data)
        (data.take bufferSize).length), Relays data m) ↔ Passes bufferSize data := by
  rw [filled, Passes, or_iff_right hdata]
  by_cases hformed : ∃ d : UdpDatagram, d.bytes = data.take bufferSize
  · obtain ⟨d, hd⟩ := hformed
    rw [← hd]
    exact relays_iff_of_formed hmoves hle hd _
  · exact relays_iff_of_malformed hpos hdata (not_exists.mp hformed) _

/-! ### All datagrams -/

/-- Whatever the application is called with is the payload of a well-formed datagram, the one that
it is called for. -/
def Proxied (s : Receiver) : Prop := ∀ p ∈ s.deliveries, Relays p.1 p.2

/-- A datagram for which there is a buffer is empty, or well-formed and not cut off. -/
def Clean (s : Receiver) : Event → Prop
  | .socket r =>
    (updateRecvBuffer s.bufferSize r).isSome →
      Passes (confirmBufferSize r.rcvBuf).toNat r.datagram
  | .proxy _ _ => True

theorem updateRecvBuffer_eq {bufferSize n : Int} {r : Reception}
    (h : updateRecvBuffer bufferSize r = some n) : n = confirmBufferSize r.rcvBuf := by
  simp only [updateRecvBuffer] at h
  grind

/-- What one call of `SocketRecvHandle` delivers. -/
theorem relays_handled_iff (inet : Inet) (hmoves : MovesPayloads memmoveS) (af : AddressFamily)
    (r : Reception) :
    (∀ m ∈ (socketRecvHandle inet memmoveS true af (confirmBufferSize r.rcvBuf).toNat r).2,
        Relays r.datagram m) ↔ Passes (confirmBufferSize r.rcvBuf).toNat r.datagram := by
  obtain ⟨hpos, hle⟩ := confirmBufferSize_bounds r.rcvBuf
  rw [socketRecvHandle, Reception.datagram]
  cases r.result with
  | error errno => exact iff_of_true (fun m hm => nomatch hm) (Or.inl rfl)
  | ok data =>
    by_cases hdata : data = []
    · simp only [if_pos hdata]
      exact iff_of_true (fun m hm => nomatch hm) (Or.inl hdata)
    · simp only [if_neg hdata]
      exact relays_message_iff hmoves (by omega) (by omega) hdata

theorem proxied_step_iff (hmoves : MovesPayloads memmoveS) {s t : Receiver} {e : Event}
    (h : Proxied s) (hstep : receiveStep inet memmoveS true af s e = some t) :
    Proxied t ↔ Clean s e := by
  obtain ⟨-, hstep⟩ := Option.ite_none_right_eq_some.mp hstep
  cases hstep
  cases e with
  | proxy received errno => exact iff_of_true h trivial
  | socket r =>
    cases hbuffer : updateRecvBuffer s.bufferSize r with
    | none =>
      simp only [receive, Clean, hbuffer]
      exact iff_of_true h nofun
    | some n =>
      obtain rfl := updateRecvBuffer_eq hbuffer
      have hhandled := relays_handled_iff inet hmoves af r
      simp only [receive, Clean, hbuffer, Proxied, forall_mem_append, Option.isSome_some,
        forall_const, ← hhandled]
      refine (and_iff_right h).trans ?_
      simp

/-- What the application is called with comes from well-formed datagrams only, if and only if every
datagram that is not empty is well-formed and fits into the buffer. -/
theorem proxied_throughout_iff (inet : Inet) (memmoveS : Nat → Nat → Bool)
    (hmoves : MovesPayloads memmoveS) (af : AddressFamily) (rcvBuf : Option Int)
    (events : List Event) :
    Throughout (receiveStep inet memmoveS true af) Proxied events
        { bufferSize := confirmBufferSize rcvBuf } ↔
      Meets (receiveStep inet memmoveS true af) Clean events
        { bufferSize := confirmBufferSize rcvBuf } :=
  throughout_iff_meets (J := fun _ => True) (fun _ _ _ _ _ => trivial)
    (fun _ _ _ _ hs hstep => proxied_step_iff hmoves hs hstep) events trivial nofun

section Instances

/-- `memmove_s` refuses only an empty destination. -/
def refusesEmpty (destMax _count : Nat) : Bool := decide (destMax ≠ 0)

theorem movesPayloads_refusesEmpty : MovesPayloads refusesEmpty := by
  intro n hpos _
  exact decide_eq_true hpos.ne'

def arrives (data : Bytes) : Event := .socket { result := .ok data }

end Instances

theorem answer_proxied :
    Throughout (receiveStep .unabbreviated refusesEmpty true .inet) Proxied
      [.proxy true 0, arrives namedDatagram.bytes] { bufferSize := confirmBufferSize none } := by
  refine (proxied_throughout_iff .unabbreviated refusesEmpty movesPayloads_refusesEmpty .inet none
    [.proxy true 0, arrives namedDatagram.bytes]).mpr ?_
  intro s hs
  refine ⟨trivial, fun t _ => ⟨fun _ => Or.inr ⟨namedDatagram, rfl, Or.inl ?_⟩, trivial⟩⟩
  decide

/-- A datagram without a header is delivered. -/
theorem unproxied_delivered :
    ∃ t, [arrives (ascii "unproxied")].foldlM (receiveStep .unabbreviated refusesEmpty true .inet)
        { bufferSize := confirmBufferSize none } = some t ∧
      t.deliveries = [(ascii "unproxied", ascii "unproxied")] ∧ ¬ Proxied t := by
  refine ⟨_, rfl, by decide +kernel, fun hproxied => ?_⟩
  obtain ⟨d, hd, -⟩ := hproxied (ascii "unproxied", ascii "unproxied") (by decide +kernel)
  have hhead : some (0 : UInt8) = (ascii "unproxied").head? := congrArg List.head? hd
  exact absurd hhead (by decide)

end Netstack.Socket.UDPSocket
