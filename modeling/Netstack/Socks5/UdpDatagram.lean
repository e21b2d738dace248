import Netstack.Socks5.Package

/-!
# Datagrams relayed by a SOCKS5 proxy

A relayed datagram is a header (two reserved bytes, the fragment number, the address and the port)
followed by the payload. `Socks5UdpHeader::Deserialize` reads the port from the end of whatever it
is given.

## Implementation notes

The receive buffer may be longer than the datagram. Whether `memmove_s` moves is a parameter.
-/

namespace Netstack.Socks5

open Foundation List Socks5AddrType Socks5UdpHeader Option

namespace Socks5UdpHeader

variable {inet : Inet} {type : Socks5AddrType} {field : Bytes}

/-- Reading a header with an address field of its type succeeds, and everything but
the port comes from the header. -/
theorem deserialize_frame (self : Socks5UdpHeader) (hframe : type.Frames field)
    {tail : Bytes} (htail : 2 ≤ tail.length) :
    self.deserialize inet ([0, 0, 0, type.toByte] ++ field ++ tail) = some
      { self with
        addrType := type
        destAddr := type.text inet field
        dstPort := trailing16 tail } := by
  have hlen := getAddrLen_frame hframe [0, 0, 0, type.toByte] tail rfl hframe.length_pos
  have htext : getAddrStr inet ([0, 0, 0, type.toByte] ++ field ++ tail) 4 5 self.destAddr type =
      type.text inet field := getAddrStr_frame hframe _ tail self.destAddr rfl
  have hport := trailing16_append ([0, 0, 0, type.toByte] ++ field) htail
  have htotal : ([0, 0, 0, type.toByte] ++ field ++ tail).length =
      4 + field.length + tail.length := by
    simp only [length_append, length_cons, length_nil]
  rw [take_length] at hlen
  generalize hdata : [0, 0, 0, type.toByte] ++ field ++ tail = data at *
  have htype : data.getD 3 0 = type.toByte := by rw [← hdata]; rfl
  have hzero : data.getD 2 0 ||| data.getD 1 0 ||| (if data.getD 0 0 ≠ 0 then 1 else 0) = 0 := by
    rw [← hdata]
    simp
  have hpos := hframe.length_pos
  have hfirst : ¬ (data.length < 4 + 2 ∨
      data.getD 2 0 ||| data.getD 1 0 ||| (if data.getD 0 0 ≠ 0 then 1 else 0) ≠ 0) := by
    rintro (hshort | hbits)
    · omega
    · exact hbits hzero
  have hsecond : ¬ (field.length = 0 ∨ data.length < 4 + field.length + 2) := by omega
  simp only [deserialize, if_neg hfirst, htype, hframe.ofByte_toByte, hlen, if_neg hsecond, htext,
    hport]

/-- The address of the header can be written: an IP address that parses, or a
domain name of at most 255 bytes. -/
def Valid (inet : Inet) (h : Socks5UdpHeader) : Prop :=
  (copyAddrToStr inet h.destAddr h.addrType).isSome

instance (inet : Inet) (h : Socks5UdpHeader) : Decidable (h.Valid inet) :=
  inferInstanceAs (Decidable ((copyAddrToStr inet h.destAddr h.addrType).isSome = true))

/-- The text of the address as the reader of the header prints it: for an IP
address what `inet_ntop` makes of the parsed address, for a domain name itself. -/
def canonicalAddr (inet : Inet) (h : Socks5UdpHeader) : Bytes :=
  match h.addrType with
  | .ipv4 => ((inet.pton4 (cString h.destAddr)).map inet.ntop4).getD []
  | .ipv6 => ((inet.pton6 (cString h.destAddr)).map inet.ntop6).getD []
  | _ => h.destAddr

theorem text_eq_canonicalAddr {h : Socks5UdpHeader}
    (hcopy : copyAddrToStr inet h.destAddr h.addrType = some field) :
    h.addrType.text inet field = h.canonicalAddr inet := by
  cases htype : h.addrType with
  | ipv4 =>
    grind [copyAddrToStr, canonicalAddr, text]
  | domainName =>
    rw [htype] at hcopy
    simp only [copyAddrToStr, ite_eq_iff, reduceCtorEq, and_false, false_or] at hcopy
    rw [← some.inj hcopy.2]
    simp [canonicalAddr, htype, text]
  | ipv6 =>
    grind [copyAddrToStr, canonicalAddr, text]
  | other value =>
    rw [htype] at hcopy
    cases hcopy

/-- A serialized header followed by a payload is read back with its address type,
its address and its port exactly if the datagram ends with the two bytes of the
port. -/
theorem deserialize_serialize_iff (inet : Inet) (self h : Socks5UdpHeader)
    (hreserved : h.reserved = 0) (hfrag : h.frag = 0) (hvalid : h.Valid inet) (payload : Bytes) :
    (∃ g, self.deserialize inet (h.serialize inet ++ payload) = some g ∧
      g.addrType = h.addrType ∧ g.destAddr = h.canonicalAddr inet ∧ g.dstPort = h.dstPort) ↔
      be16 h.dstPort <:+ be16 h.dstPort ++ payload := by
  obtain ⟨field, hcopy⟩ := isSome_iff_exists.mp hvalid
  have hframe := copyAddrToStr_frames hcopy
  have hbytes : h.serialize inet ++ payload =
      [0, 0, 0, h.addrType.toByte] ++ field ++ (be16 h.dstPort ++ payload) := by
    simp only [serialize, hcopy, hreserved, hfrag, append_assoc]
    rfl
  have htail : 2 ≤ (be16 h.dstPort ++ payload).length := by simp
  rw [hbytes, deserialize_frame self hframe htail, text_eq_canonicalAddr hcopy,
    ← trailing16_eq_iff htail]
  constructor
  · rintro ⟨g, hg, -, -, hport⟩
    rw [← some.inj hg] at hport
    exact hport
  · intro hport
    exact ⟨_, rfl, rfl, rfl, hport⟩

/-- A header for 192.168.1.10, port 53. -/
def dnsHeader : Socks5UdpHeader where
  addrType := .ipv4
  destAddr := ascii "192.168.1.10"
  dstPort := 53

theorem deserialize_serialize_dnsHeader :
    (∃ g, dnsHeader.deserialize .unabbreviated (dnsHeader.serialize .unabbreviated ++ []) = some g ∧
      g.addrType = dnsHeader.addrType ∧ g.destAddr = dnsHeader.canonicalAddr .unabbreviated ∧
      g.dstPort = dnsHeader.dstPort) ↔ be16 dnsHeader.dstPort <:+ be16 dnsHeader.dstPort ++ [] :=
  deserialize_serialize_iff .unabbreviated dnsHeader dnsHeader rfl rfl (by decide) []

/-- The two last bytes of the payload are read as the port. -/
theorem port_read_from_payload :
    ¬ ∃ g, dnsHeader.deserialize .unabbreviated
        (dnsHeader.serialize .unabbreviated ++ ascii "query") = some g ∧
      g.addrType = dnsHeader.addrType ∧ g.destAddr = dnsHeader.canonicalAddr .unabbreviated ∧
      g.dstPort = dnsHeader.dstPort := by
  rintro ⟨g, hg, -, -, hport⟩
  have hread : dnsHeader.deserialize .unabbreviated
      (dnsHeader.serialize .unabbreviated ++ ascii "query") =
        some { dnsHeader with dstPort := 0x7279 } := by decide
  rw [hread] at hg
  rw [← some.inj hg] at hport
  exact absurd hport (by decide)

end Socks5UdpHeader

namespace Socks5UdpInstance

/-- The result of `RemoveHeader`, the receive buffer and the length it leaves. -/
structure Removal where
  ok : Bool
  data : Bytes
  len : Nat
  deriving DecidableEq, Repr

section RemoveHeader

variable (inet : Inet) (memmoveS : Nat → Nat → Bool)

variable (data : Bytes)

/-- Both copies move the rest of the datagram to the front of the buffer. -/
def dropFront (len headerLen : Nat) : Removal :=
  if len < headerLen then { ok := false, data := data, len := len }
  else if memmoveS (len - headerLen) (len - headerLen) then
    { ok := true
      data := (data.drop headerLen).take (len - headerLen) ++ data.drop (len - headerLen)
      len := len - headerLen }
  else { ok := false, data := data, len := len - headerLen }

/-- The native copy: the header is as long as its own address says. -/
def removeHeader (len : Nat) (_af : AddressFamily) : Removal :=
  let fresh : Socks5UdpHeader := { addrType := .other 0, destAddr := [], dstPort := 0 }
  match fresh.deserialize inet (data.take len) with
  | none => { ok := false, data := data, len := len }
  | some header =>
    match header.addrType with
    | .ipv4 => dropFront memmoveS data len (4 + ipv4Len + 2)
    | .ipv6 => dropFront memmoveS data len (4 + ipv6Len + 2)
    | .domainName => dropFront memmoveS data len (4 + 1 + header.destAddr.length + 2)
    | .other _ => { ok := false, data := data, len := len }

def inetSocks5UdpHeaderLen : Nat := 10

def inet6Socks5UdpHeaderLen : Nat := 22

def headerLenOfFamily (af : AddressFamily) : Nat :=
  if af = .inet then inetSocks5UdpHeaderLen else inet6Socks5UdpHeaderLen

/-- The JS copy: the header is as long as the family of the socket says. -/
def removeHeaderJs (len : Nat) (af : AddressFamily) : Removal :=
  let fresh : Socks5UdpHeader := { addrType := .other 0, destAddr := [], dstPort := 0 }
  match fresh.deserialize inet (data.take len) with
  | none => { ok := false, data := data, len := len }
  | some _ => dropFront memmoveS data len (headerLenOfFamily af)

end RemoveHeader

end Socks5UdpInstance

/-- A datagram with a well-formed header. -/
structure UdpDatagram where
  type : Socks5AddrType
  field : Bytes
  framed : type.Frames field
  port : UInt16
  payload : Bytes

variable (d : UdpDatagram)

namespace UdpDatagram

def bytes : Bytes :=
  [0, 0, 0, d.type.toByte] ++ d.field ++ (be16 d.port ++ d.payload)

def headerLen : Nat := 4 + d.field.length + 2

theorem length_bytes : d.bytes.length = d.headerLen + d.payload.length := by
  simp only [bytes, headerLen, length_append, length_cons, length_nil, length_be16]
  omega

theorem drop_bytes (slack : Bytes) : (d.bytes ++ slack).drop d.headerLen = d.payload ++ slack := by
  have hsplit : d.bytes ++ slack =
      ([0, 0, 0, d.type.toByte] ++ d.field ++ be16 d.port) ++ (d.payload ++ slack) := by
    simp only [bytes, append_assoc]
  have hlen : ([0, 0, 0, d.type.toByte] ++ d.field ++ be16 d.port).length = d.headerLen := by
    simp only [headerLen, length_append, length_cons, length_nil, length_be16]
  rw [hsplit, ← hlen, drop_left]

/-- The result is the payload alone: its bytes in front of the buffer, and its length. -/
def Stripped (r : Socks5UdpInstance.Removal) : Prop :=
  r.ok = true ∧ r.len = d.payload.length ∧ r.data.take r.len = d.payload

end UdpDatagram

namespace Socks5UdpInstance

variable {inet : Inet} {memmoveS : Nat → Nat → Bool}

variable (slack : Bytes)

/-- What both copies read of a well-formed datagram. -/
theorem deserialize_bytes :
    (mk 0 0 (.other 0) [] 0).deserialize inet
        ((d.bytes ++ slack).take d.bytes.length) =
      some ⟨0, 0, d.type, d.type.text inet d.field, trailing16 (be16 d.port ++ d.payload)⟩ := by
  rw [take_left]
  exact deserialize_frame _ d.framed (by simp)

/-- The native copy removes what the header of the datagram takes. -/
theorem removeHeader_bytes (af : AddressFamily) :
    removeHeader inet memmoveS (d.bytes ++ slack) d.bytes.length af =
      dropFront memmoveS (d.bytes ++ slack) d.bytes.length d.headerLen := by
  have hframed := d.framed
  simp only [removeHeader, deserialize_bytes]
  cases htype : d.type with
  | ipv4 =>
    rw [htype] at hframed
    have hfield : d.field.length = ipv4Len := hframed
    simp only [UdpDatagram.headerLen, hfield]
  | domainName =>
    rw [htype] at hframed
    obtain ⟨name, -, hfield⟩ := hframed
    have hlen : 4 + 1 + (Socks5AddrType.domainName.text inet d.field).length + 2 =
        d.headerLen := by
      simp only [text, UdpDatagram.headerLen, hfield, tail_cons,
        length_cons]
      omega
    simp only [hlen]
  | ipv6 =>
    rw [htype] at hframed
    have hfield : d.field.length = ipv6Len := hframed
    simp only [UdpDatagram.headerLen, hfield]
  | other value =>
    rw [htype] at hframed
    exact hframed.elim

/-- The JS copy removes what the family of the socket says. -/
theorem removeHeaderJs_bytes (af : AddressFamily) :
    removeHeaderJs inet memmoveS (d.bytes ++ slack) d.bytes.length af =
      dropFront memmoveS (d.bytes ++ slack) d.bytes.length (headerLenOfFamily af) := by
  simp only [removeHeaderJs, deserialize_bytes]

/-- Removing a number of bytes leaves the payload exactly if it is the length of the
header and the move is made. -/
theorem stripped_dropFront_iff (headerLen : Nat) :
    d.Stripped (dropFront memmoveS (d.bytes ++ slack) d.bytes.length headerLen) ↔
      headerLen = d.headerLen ∧ memmoveS d.payload.length d.payload.length = true := by
  have hlen := d.length_bytes
  constructor
  · rintro ⟨hok, hrest, -⟩
    grind [dropFront]
  · rintro ⟨rfl, hmove⟩
    have hrest : d.bytes.length - d.headerLen = d.payload.length := by omega
    have hlong : ¬ d.bytes.length < d.headerLen := by omega
    rw [dropFront, if_neg hlong, hrest, if_pos hmove, d.drop_bytes, take_left]
    exact ⟨rfl, rfl, take_left⟩

/-- The JS copy leaves exactly the payload of a well-formed datagram, as the native
copy does, exactly if the header has the length that goes with the family of the
socket and the move of the payload is made. -/
theorem removeHeaderJs_stripped_iff (inet : Inet) (memmoveS : Nat → Nat → Bool) (d : UdpDatagram)
    (slack : Bytes) (af : AddressFamily) :
    (d.Stripped (removeHeaderJs inet memmoveS (d.bytes ++ slack) d.bytes.length af) ∧
      removeHeaderJs inet memmoveS (d.bytes ++ slack) d.bytes.length af =
        removeHeader inet memmoveS (d.bytes ++ slack) d.bytes.length af) ↔
      d.headerLen = headerLenOfFamily af ∧
        memmoveS d.payload.length d.payload.length = true := by
  rw [removeHeaderJs_bytes, removeHeader_bytes, stripped_dropFront_iff]
  grind

/-- A datagram from `example.com`, port 53. -/
def namedDatagram : UdpDatagram where
  type := .domainName
  field := 11 :: ascii "example.com"
  framed := ⟨ascii "example.com", by decide, by decide⟩
  port := 53
  payload := ascii "answer"

/-- The address in the header is a domain name, the socket is an IPv4 one: eight
bytes of the header stay in front of the payload. -/
theorem header_left_before_payload :
    ¬ namedDatagram.Stripped (removeHeaderJs .unabbreviated (fun destMax _ => destMax ≠ 0)
      (namedDatagram.bytes ++ []) namedDatagram.bytes.length .inet) := by
  rw [removeHeaderJs_bytes, stripped_dropFront_iff]
  decide

end Socks5UdpInstance

/-! ### What is accepted -/

variable {data : Bytes}

/-- The bytes before the address of an accepted header. -/
theorem leading_of_or_eq_zero (hlong : 4 ≤ data.length)
    (h : data.getD 2 0 ||| data.getD 1 0 ||| (if data.getD 0 0 ≠ 0 then 1 else 0) = 0) :
    data = [0, 0, 0, data.getD 3 0] ++ data.drop 4 := by
  match data, hlong with
  | a :: b :: c :: e :: rest, _ =>
    grind

/-- A valid address type has a field of the length that is read for it. -/
theorem frames_take {type : Socks5AddrType} (hpos : getAddrLen data 4 type ≠ 0)
    (hlong : 4 + getAddrLen data 4 type ≤ data.length) :
    type.Frames ((data.drop 4).take (getAddrLen data 4 type)) := by
  have hlength : ((data.drop 4).take (getAddrLen data 4 type)).length = getAddrLen data 4 type := by
    rw [length_take, length_drop]
    omega
  cases type with
  | ipv4 => exact hlength
  | ipv6 => exact hlength
  | other value => exact absurd rfl hpos
  | domainName =>
    have hbyte : data.drop 4 = data.getD 4 0 :: data.drop 5 := by
      rw [getD_eq_getElem _ _ (by omega)]
      exact drop_eq_getElem_cons (by omega)
    have hname : ((data.drop 5).take (data.getD 4 0).toNat).length = (data.getD 4 0).toNat := by
      simp only [getAddrLen] at hlong
      rw [length_take, length_drop]
      omega
    refine ⟨(data.drop 5).take (data.getD 4 0).toNat, ?_, ?_⟩
    · rw [hname]
      exact Nat.le_of_lt_succ (data.getD 4 0).toNat_lt
    · rw [hname, UInt8.ofNat_toNat, hbyte, getAddrLen, take_succ_cons]

/-- What is accepted as a header with a payload is one. -/
theorem exists_datagram_of_deserialize {inet : Inet} {self header : Socks5UdpHeader}
    (h : self.deserialize inet data = some header) : ∃ d : UdpDatagram, d.bytes = data := by
  simp only [deserialize] at h
  obtain ⟨hstart, h⟩ := ite_none_left_eq_some.mp h
  obtain ⟨hrest, -⟩ := ite_none_left_eq_some.mp h
  obtain ⟨hshort, hzero⟩ := not_or.mp hstart
  obtain ⟨hpos, hlong⟩ := not_or.mp hrest
  have hleading := leading_of_or_eq_zero (by omega) (not_not.mp hzero)
  set type := ofByte (data.getD 3 0) with htype
  set n := getAddrLen data 4 type
  have hframes : type.Frames ((data.drop 4).take n) := frames_take hpos (by omega)
  have htail : 2 ≤ (data.drop (4 + n)).length := by
    rw [length_drop]
    omega
  obtain ⟨hi, lo, payload, hport⟩ : ∃ hi lo payload, data.drop (4 + n) = hi :: lo :: payload := by
    match data.drop (4 + n), htail with
    | hi :: lo :: payload, _ => exact ⟨hi, lo, payload, rfl⟩
  have hbyte : type.toByte = data.getD 3 0 := by
    rw [htype]
    exact toByte_ofByte _
  refine ⟨⟨type, (data.drop 4).take n, hframes, join16 hi lo, payload⟩, ?_⟩
  calc UdpDatagram.bytes ⟨type, (data.drop 4).take n, hframes, join16 hi lo, payload⟩
      = [0, 0, 0, data.getD 3 0] ++ ((data.drop 4).take n ++ (data.drop 4).drop n) := by
        simp only [UdpDatagram.bytes, hbyte, be16_join16, drop_drop, hport,
          cons_append, nil_append]
    _ = data := by rw [take_append_drop, ← hleading]

namespace UdpDatagram

/-- The same header before another payload. -/
def withPayload (payload : Bytes) : UdpDatagram := { d with payload := payload }

theorem headerLen_withPayload (payload : Bytes) : (d.withPayload payload).headerLen = d.headerLen :=
  rfl

theorem bytes_withPayload_append (rest : Bytes) :
    (d.withPayload (d.payload ++ rest)).bytes = d.bytes ++ rest := by
  simp only [bytes, withPayload, append_assoc]

/-- What is cut off behind the header is a datagram with less payload. -/
theorem take_bytes {n : Nat} (hn : d.headerLen ≤ n) :
    d.bytes.take n = (d.withPayload (d.payload.take (n - d.headerLen))).bytes := by
  have hsplit : d.bytes = [0, 0, 0, d.type.toByte] ++ d.field ++ be16 d.port ++ d.payload := by
    simp only [bytes, append_assoc]
  have hlen : ([0, 0, 0, d.type.toByte] ++ d.field ++ be16 d.port).length = d.headerLen := by
    simp only [headerLen, length_append, length_cons, length_nil, length_be16]
  rw [hsplit, take_append, hlen, take_of_length_le (hlen.trans_le hn)]
  simp only [bytes, withPayload, append_assoc]

/-- The bytes determine where the header ends. -/
theorem headerLen_eq_of_bytes {d e : UdpDatagram} (h : d.bytes = e.bytes) :
    d.headerLen = e.headerLen := by
  have hbyte (d : UdpDatagram) : ofByte (d.bytes.getD 3 0) = d.type :=
    d.framed.ofByte_toByte
  have htype : d.type = e.type := by rw [← hbyte d, h, hbyte e]
  have hfield (d : UdpDatagram) : getAddrLen d.bytes 4 d.type = d.field.length := by
    have hframe := getAddrLen_frame d.framed [0, 0, 0, d.type.toByte] (be16 d.port ++ d.payload) rfl
      d.framed.length_pos
    rwa [take_length] at hframe
  grind [headerLen]

end UdpDatagram

namespace Socks5UdpInstance

/-- Either the payload of what was received is left and its length, or nothing has changed. -/
def AllOrNothing (received slack : Bytes) (r : Removal) : Prop :=
  (∃ d : UdpDatagram, d.bytes = received ∧ d.Stripped r) ∨
    r = { ok := false, data := received ++ slack, len := received.length }

/-- The native copy is all or nothing exactly if the payload of what it takes for a datagram can
be moved. An empty payload cannot: the length is set to zero and the answer is a failure. -/
theorem removeHeader_allOrNothing_iff (inet : Inet) (memmoveS : Nat → Nat → Bool)
    (received slack : Bytes) (af : AddressFamily) :
    AllOrNothing received slack
        (removeHeader inet memmoveS (received ++ slack) received.length af) ↔
      ∀ d : UdpDatagram, d.bytes = received →
        memmoveS d.payload.length d.payload.length = true := by
  constructor
  · rintro (⟨e, he, hstripped⟩ | hsame) d rfl
    · rw [← he, removeHeader_bytes, stripped_dropFront_iff] at hstripped
      have hheader := UdpDatagram.headerLen_eq_of_bytes he
      have hpayload : e.payload.length = d.payload.length := by
        have hlength := congrArg List.length he
        rw [e.length_bytes, d.length_bytes] at hlength
        omega
      rw [← hpayload]
      exact hstripped.2
    · have hlen := d.length_bytes
      have hlong : ¬ d.bytes.length < d.headerLen := by omega
      have hrest : d.bytes.length - d.headerLen = d.payload.length := by omega
      rw [removeHeader_bytes, dropFront, if_neg hlong, hrest] at hsame
      by_contra hmove
      rw [if_neg hmove] at hsame
      have hcut : d.payload.length = d.bytes.length := congrArg Removal.len hsame
      have hpos : 0 < d.headerLen := by
        rw [UdpDatagram.headerLen]
        omega
      omega
  · intro hmove
    cases hread : (mk 0 0 (.other 0) [] 0).deserialize inet received with
    | none =>
        right
        simp only [removeHeader, take_left, hread]
    | some header =>
        obtain ⟨d, rfl⟩ := exists_datagram_of_deserialize hread
        left
        refine ⟨d, rfl, ?_⟩
        rw [removeHeader_bytes, stripped_dropFront_iff]
        exact ⟨rfl, hmove d rfl⟩

/-- A datagram without payload: nothing is moved, and still the length is not what it was. -/
theorem emptyPayload_half_done :
    ¬ AllOrNothing (namedDatagram.withPayload []).bytes []
      (removeHeader .unabbreviated (fun destMax _ => destMax ≠ 0)
        ((namedDatagram.withPayload []).bytes ++ []) (namedDatagram.withPayload []).bytes.length
        .inet) := by
  rintro (⟨-, -, hok, -⟩ | hsame)
  · exact absurd hok (by decide)
  · exact absurd (congrArg Removal.len hsame) (by decide)

end Socks5UdpInstance

end Netstack.Socks5
