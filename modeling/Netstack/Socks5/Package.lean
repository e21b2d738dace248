import Netstack.Foundation.JsonText
import Netstack.Foundation.NetworkOrder
import Netstack.Foundation.Numerals

/-!
# SOCKS5 messages

The requests the proxy client serializes and the responses it reads back. An
address on the wire is four bytes, sixteen bytes or a counted domain name,
selected by the octet before it; the port follows the address.

## Implementation notes

`inet_pton` and `inet_ntop` are parameters (`Inet`). An octet cast to an enumeration
may be none of its members (`other`).
-/

namespace Netstack.Socks5

open Foundation List Option UInt8

/-- The address conversions of the C library. -/
structure Inet where
  pton4 : Bytes → Option Bytes
  ntop4 : Bytes → Bytes
  pton6 : Bytes → Option Bytes
  ntop6 : Bytes → Bytes
  length_pton4 : ∀ {text addr}, pton4 text = some addr → addr.length = 4
  length_pton6 : ∀ {text addr}, pton6 text = some addr → addr.length = 16

namespace Inet

/-- A decimal number of one to three digits below 256. -/
def octet (t : Bytes) : Option UInt8 :=
  if t ≠ [] ∧ t.length ≤ 3 ∧ t.all isDigit ∧ digitsValue t < 256 then
    some (ofNat (digitsValue t))
  else none

/-- A hexadecimal number of one to four digits. -/
def hexGroup (t : Bytes) : Option UInt16 :=
  if t ≠ [] ∧ t.length ≤ 4 then
    (t.mapM JsonText.hexValue).map fun ds => UInt16.ofNat (ds.foldl (fun n d => 16 * n + d) 0)
  else none

/-- Four hexadecimal digits for each two bytes. -/
def hexGroups : Bytes → List Bytes
  | hi :: lo :: rest =>
    [hi.toNat / 16, hi.toNat % 16, lo.toNat / 16, lo.toNat % 16].map JsonText.hexDigit ::
      hexGroups rest
  | _ => []

/-- Dotted quads, and eight hexadecimal groups without abbreviation. -/
def unabbreviated : Inet where
  pton4 t := ((t.splitOn 46).mapM octet).filter fun addr => addr.length = 4
  ntop4 addr := intercalate [46] (addr.map fun b => decimal b.toNat)
  pton6 t := (((t.splitOn 58).mapM hexGroup).map fun groups => groups.flatMap be16).filter
    fun addr => addr.length = 16
  ntop6 addr := intercalate [58] (hexGroups addr)
  length_pton4 h := by simpa using (filter_eq_some_iff.mp h).2
  length_pton6 h := by simpa using (filter_eq_some_iff.mp h).2

end Inet

/-- The address family of a socket, `AF_INET` or `AF_INET6`. -/
inductive AddressFamily where
  | inet
  | inet6
  deriving DecidableEq, Repr

inductive Socks5AddrType where
  | ipv4
  | domainName
  | ipv6
  | other (value : UInt8)
  deriving DecidableEq, Repr

namespace Socks5AddrType

def ofByte (b : UInt8) : Socks5AddrType :=
  if b = 0x01 then .ipv4 else if b = 0x03 then .domainName else if b = 0x04 then .ipv6
  else .other b

def toByte : Socks5AddrType → UInt8
  | ipv4 => 0x01
  | domainName => 0x03
  | ipv6 => 0x04
  | other value => value

theorem toByte_ofByte (b : UInt8) : (ofByte b).toByte = b := by
  rw [ofByte]
  split
  · rename_i h
    exact h.symm
  split
  · rename_i h
    exact h.symm
  split
  · rename_i h
    exact h.symm
  · rfl

end Socks5AddrType

inductive Socks5Command where
  | tcpConnection
  | tcpBind
  | udpAssociate
  deriving DecidableEq, Repr

def Socks5Command.toByte : Socks5Command → UInt8
  | tcpConnection => 0x01
  | tcpBind => 0x02
  | udpAssociate => 0x03

inductive Socks5MethodType where
  | noAuth
  | gssapi
  | password
  | noMethods
  | other (value : UInt8)
  deriving DecidableEq, Repr

namespace Socks5MethodType

def ofByte (b : UInt8) : Socks5MethodType :=
  if b = 0x00 then .noAuth else if b = 0x01 then .gssapi else if b = 0x02 then .password
  else if b = 0xFF then .noMethods else .other b

def toByte : Socks5MethodType → UInt8
  | noAuth => 0x00
  | gssapi => 0x01
  | password => 0x02
  | noMethods => 0xFF
  | other value => value

end Socks5MethodType

def socks5Version : UInt8 := 5

def socks5Subversion : UInt8 := 1

def ipv4Len : Nat := 4

def ipv6Len : Nat := 16

def socks5MaxUsernameLen : Nat := 255

def socks5MaxPasswordLen : Nat := 255

def socks5MaxDomainLen : Nat := 255

structure Socks5MethodRequest where
  version : UInt8
  methods : List Socks5MethodType

def Socks5MethodRequest.serialize (r : Socks5MethodRequest) : Bytes :=
  r.version :: ofNat r.methods.length :: r.methods.map Socks5MethodType.toByte

structure Socks5MethodResponse where
  version : UInt8
  method : UInt8

def Socks5MethodResponse.deserialize (data : Bytes) : Option Socks5MethodResponse :=
  if data.length < 2 then none
  else if data.getD 0 0 ≠ socks5Version then none
  else some { version := data.getD 0 0, method := data.getD 1 0 }

structure Socks5AuthRequest where
  version : UInt8
  username : Bytes
  password : Bytes

/-- The empty string is the failure of the serialization. `memcpy_s` copies unless the room behind
the length of an empty password is nothing, and `RequestAuth` refuses an empty password before. -/
def Socks5AuthRequest.serialize (r : Socks5AuthRequest) : Bytes :=
  if socks5MaxUsernameLen < r.username.length ∨ socks5MaxPasswordLen < r.password.length then []
  else r.version :: ofNat r.username.length :: r.username ++
    ofNat r.password.length :: r.password

variable (memcpyS : Nat → Nat → Bool)

/-- The JS copy does not look at the lengths before it writes them in one byte each. `memcpyS` says
for a destination size and a count whether `memcpy_s` copies. -/
def Socks5AuthRequest.serializeJs (r : Socks5AuthRequest) : Bytes :=
  if memcpyS (r.username.length + 1 + r.password.length) r.username.length = false then []
  else if memcpyS r.password.length r.password.length = false then []
  else r.version :: ofNat r.username.length :: r.username ++
    ofNat r.password.length :: r.password

/-- The message of RFC 1929 that a username and a password are read from. -/
def rfc1929Decode : Bytes → Option (Bytes × Bytes)
  | ver :: ulen :: rest =>
    match rest.drop ulen.toNat with
    | plen :: passwd =>
      if ver = 1 ∧ passwd.length = plen.toNat then some (rest.take ulen.toNat, passwd) else none
    | [] => none
  | _ => none

variable (username password : Bytes)

/-- What `RequestAuth` of the JS copy sends. -/
def authMessageJs : Bytes :=
  Socks5AuthRequest.serializeJs memcpyS
    { version := socks5Subversion, username := username, password := password }

theorem authMessageJs_eq :
    authMessageJs memcpyS username password =
      if memcpyS (username.length + 1 + password.length) username.length = true ∧
          memcpyS password.length password.length = true then
        1 :: ofNat username.length :: (username ++ ofNat password.length :: password)
      else [] := by
  rw [authMessageJs, Socks5AuthRequest.serializeJs]
  split_ifs <;> grind [socks5Subversion]

theorem rfc1929Decode_eq_iff :
    rfc1929Decode (1 :: ofNat username.length ::
        (username ++ ofNat password.length :: password)) = some (username, password) ↔
      username.length ≤ 255 ∧ password.length ≤ 255 := by
  have hbyte (n : Nat) : (ofNat n).toNat = n % 256 := toNat_ofNat'
  have hle : username.length % 256 ≤ username.length := Nat.mod_le _ _
  rw [rfc1929Decode, hbyte, drop_append_of_le_length hle, take_append_of_le_length hle]
  constructor
  · intro h
    have huser : username.take (username.length % 256) = username := by
      split at h
      · exact (Prod.mk.inj (some.inj (ite_none_right_eq_some.mp h).2)).1
      · cases h
    have hlength : username.length % 256 = username.length := by
      have hcut := congrArg length huser
      rw [length_take] at hcut
      omega
    rw [hlength, drop_length, nil_append] at h
    have hpass := (ite_none_right_eq_some.mp h).1.2
    rw [hbyte] at hpass
    omega
  · rintro ⟨huser, hpass⟩
    rw [Nat.mod_eq_of_lt (by omega), drop_length, take_length]
    exact if_pos ⟨rfl, by rw [hbyte]; omega⟩

/-- The JS copy sends nothing or what is read back as the two texts if and only if, in case
`memcpy_s` makes both copies, both lengths fit in a byte. -/
theorem authMessageJs_decodes_iff :
    (authMessageJs memcpyS username password = [] ∨
      rfc1929Decode (authMessageJs memcpyS username password) = some (username, password)) ↔
      (memcpyS (username.length + 1 + password.length) username.length = true ∧
          memcpyS password.length password.length = true →
        username.length ≤ 255 ∧ password.length ≤ 255) := by
  rw [authMessageJs_eq]
  split_ifs with hcopies
  · rw [rfc1929Decode_eq_iff]
    simp [hcopies]
  · simp [hcopies]

/-- The length of a username of 256 bytes is written as zero. -/
theorem longUsername_not_decoded :
    ¬ (authMessageJs (fun destMax count => count ≤ destMax) (replicate 256 65) [66] = [] ∨
      rfc1929Decode (authMessageJs (fun destMax count => count ≤ destMax)
        (replicate 256 65) [66]) = some (replicate 256 65, [66])) := by
  decide +kernel

structure Socks5AuthResponse where
  version : UInt8
  status : UInt8

def Socks5AuthResponse.deserialize (data : Bytes) : Option Socks5AuthResponse :=
  if data.length < 2 then none
  else if data.getD 0 0 ≠ socks5Subversion then none
  else some { version := data.getD 0 0, status := data.getD 1 0 }

section Addresses

variable (inet : Inet)

/-- The bytes copied to the address field; the buffer was sized for exactly them. -/
def copyAddrToStr (destAddr : Bytes) : Socks5AddrType → Option Bytes
  | .ipv4 => inet.pton4 (cString destAddr)
  | .domainName =>
    if socks5MaxDomainLen < destAddr.length then none
    else some (ofNat destAddr.length :: destAddr)
  | .ipv6 => inet.pton6 (cString destAddr)
  | .other _ => none

def getAddrLen (buffer : Bytes) (domainLenIdx : Nat) : Socks5AddrType → Nat
  | .ipv4 => ipv4Len
  | .domainName => (buffer.getD domainLenIdx 0).toNat + 1
  | .ipv6 => ipv6Len
  | .other _ => 0

def getAddrStr (buffer : Bytes) (hdrLen domainIdx : Nat) (destAddr : Bytes) :
    Socks5AddrType → Bytes
  | .ipv4 => inet.ntop4 ((buffer.drop hdrLen).take ipv4Len)
  | .domainName => (buffer.drop domainIdx).take (buffer.getD hdrLen 0).toNat
  | .ipv6 => inet.ntop6 ((buffer.drop hdrLen).take ipv6Len)
  | .other _ => destAddr

structure Socks5ProxyRequest where
  version : UInt8
  cmd : Socks5Command
  reserved : UInt8
  addrType : Socks5AddrType
  destAddr : Bytes
  destPort : UInt16

/-- The empty string is the failure of the serialization. -/
def Socks5ProxyRequest.serialize (r : Socks5ProxyRequest) : Bytes :=
  match copyAddrToStr inet r.destAddr r.addrType with
  | none => []
  | some addr =>
    [r.version, r.cmd.toByte, r.reserved, r.addrType.toByte] ++ addr ++ be16 r.destPort

structure Socks5ProxyResponse where
  version : UInt8
  status : UInt8
  reserved : UInt8
  addrType : Socks5AddrType
  destAddr : Bytes
  destPort : UInt16
  deriving DecidableEq, Repr

/-- The port is taken from the end of the data, wherever the address ends. -/
def Socks5ProxyResponse.deserialize (data : Bytes) : Option Socks5ProxyResponse :=
  let hdrLen := 4
  if data.length < hdrLen + 2 then none
  else
    let addrType := Socks5AddrType.ofByte (data.getD 3 0)
    if data.getD 0 0 ≠ socks5Version then none
    else
      let addrLen := getAddrLen data 4 addrType
      if addrLen = 0 ∨ data.length < hdrLen + addrLen + 2 then none
      else some
        { version := data.getD 0 0
          status := data.getD 1 0
          reserved := data.getD 2 0
          addrType := addrType
          destAddr := getAddrStr inet data hdrLen 5 [] addrType
          destPort := trailing16 data }

structure Socks5UdpHeader where
  reserved : UInt16 := 0
  frag : UInt8 := 0
  addrType : Socks5AddrType
  destAddr : Bytes
  dstPort : UInt16
  deriving DecidableEq, Repr

/-- The reserved field is copied as it lies in the memory of a little-endian
machine, the port in network byte order. -/
def Socks5UdpHeader.serialize (h : Socks5UdpHeader) : Bytes :=
  match copyAddrToStr inet h.destAddr h.addrType with
  | none => []
  | some addr => (be16 h.reserved).reverse ++ [h.frag, h.addrType.toByte] ++ addr ++ be16 h.dstPort

/-- The port is taken from the end of the data, wherever the address ends. The
reserved and the fragment field of the object are not written. -/
def Socks5UdpHeader.deserialize (self : Socks5UdpHeader) (data : Bytes) : Option Socks5UdpHeader :=
  let hdrLen := 4
  if data.length < hdrLen + 2 ∨
      data.getD 2 0 ||| data.getD 1 0 ||| (if data.getD 0 0 ≠ 0 then 1 else 0) ≠ 0 then none
  else
    let addrType := Socks5AddrType.ofByte (data.getD 3 0)
    let addrLen := getAddrLen data 4 addrType
    if addrLen = 0 ∨ data.length < hdrLen + addrLen + 2 then none
    else some
      { self with
        addrType := addrType
        destAddr := getAddrStr inet data hdrLen 5 self.destAddr addrType
        dstPort := trailing16 data }

end Addresses

namespace Socks5AddrType

/-- The bytes are an address field of the type. -/
def Frames : Socks5AddrType → Bytes → Prop
  | ipv4, field => field.length = ipv4Len
  | domainName, field => ∃ name : Bytes,
      name.length ≤ socks5MaxDomainLen ∧ field = ofNat name.length :: name
  | ipv6, field => field.length = ipv6Len
  | other _, _ => False

/-- The address text that an address field denotes. -/
def text (inet : Inet) : Socks5AddrType → Bytes → Bytes
  | ipv4, field => inet.ntop4 field
  | domainName, field => field.tail
  | ipv6, field => inet.ntop6 field
  | other _, _ => []

variable {type : Socks5AddrType} {field : Bytes}

theorem Frames.ofByte_toByte (h : type.Frames field) : ofByte type.toByte = type := by
  cases type with
  | ipv4 => rfl
  | domainName => rfl
  | ipv6 => rfl
  | other value => exact h.elim

theorem Frames.length_pos (h : type.Frames field) : 0 < field.length := by
  cases type with
  | ipv4 =>
    rw [show field.length = 4 from h]
    exact Nat.succ_pos 3
  | domainName =>
    obtain ⟨name, -, rfl⟩ := h
    exact Nat.succ_pos _
  | ipv6 =>
    rw [show field.length = 16 from h]
    exact Nat.succ_pos 15
  | other value => exact h.elim

end Socks5AddrType

open Socks5AddrType

variable {inet : Inet} {type : Socks5AddrType} {field : Bytes}

theorem toNat_ofNat_length {name : Bytes} (h : name.length ≤ socks5MaxDomainLen) :
    (ofNat name.length).toNat = name.length := by
  rw [toNat_ofNat']
  exact Nat.mod_eq_of_lt (Nat.lt_succ_of_le h)

/-- What is written as an address is an address field of its type. -/
theorem copyAddrToStr_frames {destAddr : Bytes}
    (h : copyAddrToStr inet destAddr type = some field) : type.Frames field := by
  cases type with
  | ipv4 => exact inet.length_pton4 h
  | domainName =>
    simp only [copyAddrToStr, ite_eq_iff, reduceCtorEq, and_false, false_or, not_lt] at h
    obtain ⟨hle, heq⟩ := h
    exact ⟨destAddr, hle, (some.inj heq).symm⟩
  | ipv6 => exact inet.length_pton6 h
  | other value => cases h

/-- The length of the address field is found from at least one of its bytes. -/
theorem getAddrLen_frame (hframe : type.Frames field) (header tail : Bytes)
    (hheader : header.length = 4) {n : Nat} (hn : 0 < n) :
    getAddrLen (header ++ field.take n ++ tail) 4 type = field.length := by
  cases type with
  | ipv4 => exact hframe.symm
  | domainName =>
    obtain ⟨name, hle, rfl⟩ := hframe
    obtain ⟨k, rfl⟩ := Nat.exists_eq_succ_of_ne_zero hn.ne'
    have hbyte : (header ++ (ofNat name.length :: name).take (k + 1) ++ tail).getD 4 0
        = ofNat name.length := by
      rw [append_assoc, getD_append_right _ _ _ _ hheader.le, hheader]
      rfl
    simp only [getAddrLen, hbyte, toNat_ofNat_length hle, length_cons]
  | ipv6 => exact hframe.symm
  | other value => exact hframe.elim

theorem getAddrStr_frame (hframe : type.Frames field) (header tail destAddr : Bytes)
    (hheader : header.length = 4) :
    getAddrStr inet (header ++ field ++ tail) 4 5 destAddr type = type.text inet field := by
  have hdrop : (header ++ field ++ tail).drop 4 = field ++ tail := by
    rw [append_assoc, ← hheader, drop_left]
  cases type with
  | ipv4 =>
    have hfield : field.length = ipv4Len := hframe
    simp only [getAddrStr, hdrop, text, ← hfield, take_left]
  | domainName =>
    obtain ⟨name, hle, rfl⟩ := hframe
    have hbyte : (header ++ (ofNat name.length :: name) ++ tail).getD 4 0
        = ofNat name.length := by
      rw [append_assoc, getD_append_right _ _ _ _ hheader.le, hheader]
      rfl
    have hname : (header ++ (ofNat name.length :: name) ++ tail).drop 5 = name ++ tail := by
      rw [← drop_drop (i := 1) (j := 4), hdrop]
      rfl
    simp only [getAddrStr, hbyte, hname, toNat_ofNat_length hle, text, tail_cons,
      take_left]
  | ipv6 =>
    have hfield : field.length = ipv6Len := hframe
    simp only [getAddrStr, hdrop, text, ← hfield, take_left]
  | other value => exact hframe.elim

end Netstack.Socks5
