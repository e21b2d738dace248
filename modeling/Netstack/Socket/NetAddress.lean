import Netstack.Foundation.Numerals

/-!
# Numeric addresses

`SetIpAddress` takes the text of a number for an IPv4 address and stores the number in an `in_addr`
without `htonl`.

## Implementation notes

`long` has 64 bits. The laws of the C library are fields of `Resolver`.
-/

namespace Netstack.Socket

open Foundation

/-- The bytes of an IPv4 address, as they are in memory. -/
@[ext] structure InAddr where
  first : UInt8
  second : UInt8
  third : UInt8
  fourth : UInt8
  deriving DecidableEq, Repr

namespace InAddr

/-- The most significant byte first. -/
def network (n : UInt32) : InAddr :=
  ⟨(n >>> 24).toUInt8, (n >>> 16).toUInt8, (n >>> 8).toUInt8, n.toUInt8⟩

def reverse (a : InAddr) : InAddr := ⟨a.fourth, a.third, a.second, a.first⟩

/-- An assignment to `s_addr`. -/
def ofSAddr (bigEndian : Bool) (n : UInt32) : InAddr :=
  if bigEndian then network n else (network n).reverse

def inetNtoa (a : InAddr) : Bytes :=
  decimal a.first.toNat ++ 46 :: (decimal a.second.toNat ++ 46 ::
    (decimal a.third.toNat ++ 46 :: decimal a.fourth.toNat))

theorem inetNtoa_injective : Function.Injective inetNtoa := by
  intro a b h
  have hdot (n : Nat) : (46 : UInt8) ∉ decimal n := notMem_decimal rfl n
  have hbyte {x y : UInt8} (hxy : decimal x.toNat = decimal y.toNat) : x = y :=
    UInt8.toNat_inj.mp (decimal_injective hxy)
  obtain ⟨hfirst, h⟩ := append_cons_inj_of_notMem (hdot _) (hdot _) h
  obtain ⟨hsecond, h⟩ := append_cons_inj_of_notMem (hdot _) (hdot _) h
  obtain ⟨hthird, hfourth⟩ := append_cons_inj_of_notMem (hdot _) (hdot _) h
  exact InAddr.ext (hbyte hfirst) (hbyte hsecond) (hbyte hthird) (hbyte hfourth)

end InAddr

inductive Family where
  | ipv4
  | ipv6
  | domainName
  deriving DecidableEq, Repr

/-- The C library. An IPv4 address has a dot and an IPv6 address a colon, and `getaddrinfo` reads a
number as `inet_aton` does. -/
structure Resolver where
  /-- The address of `localhost`. -/
  convertAddressToIp : Family → Bytes := fun _ => []
  inetPton4 : Bytes → Bool := fun _ => false
  inetPton6 : Bytes → Bool := fun _ => false
  /-- An IPv4 address, or the text of an IPv6 address. -/
  getaddrinfo : Family → Bytes → Option (InAddr ⊕ Bytes)
  dot : ∀ s, inetPton4 s = true → 46 ∈ s := by simp
  colon : ∀ s, inetPton6 s = true → 58 ∈ s := by simp
  aton : ∀ n : UInt32, getaddrinfo .ipv4 (decimal n.toNat) = some (.inl (.network n))

/-- A library that knows no names, and of the addresses the numbers below `2 ^ 32` only. -/
def inetAton : Resolver where
  getaddrinfo family s :=
    if family = .ipv4 ∧ s = decimal (digitsValue s) ∧ digitsValue s < 2 ^ 32 then
      some (.inl (.network (UInt32.ofNat (digitsValue s))))
    else none
  aton n := by
    rw [digitsValue_decimal, if_pos ⟨rfl, rfl, n.toNat_lt⟩, UInt32.ofNat_toNat]

namespace NetAddress

variable (lib : Resolver) (bigEndian : Bool) (family : Family) (old address : Bytes)

/-- `strtol` stops at the end of the text. Without a digit it stops where it began. -/
def readsAll (s : Bytes) : Bool :=
  let t := s.dropWhile isSpace
  let digits := if t.head? = some 43 ∨ t.head? = some 45 then t.tail else t
  s = [] || digits ≠ [] && digits.all isDigit

def setIpAddressInner : Bytes :=
  match family with
  | .ipv4 =>
    let inet := strtol (cString address)
    if readsAll (cString address) ∧ 0 ≤ inet ∧ inet ≤ 2 ^ 32 - 1 then
      (InAddr.ofSAddr bigEndian (UInt32.ofNat inet.toNat)).inetNtoa
    else old
  | .ipv6 =>
    let subAddr := address.takeWhile (· ≠ 37)
    if 37 ∈ address ∧ lib.inetPton6 (cString subAddr) then subAddr else old
  | .domainName => old

/-- The address after the call, where `old` was there before. -/
def setIpAddress : Bytes :=
  if address = [] then old
  else if address = ascii "localhost" then
    if family = .domainName then old else lib.convertAddressToIp family
  else if family = .ipv4 then
    if lib.inetPton6 (cString address) then old
    else if 37 ∈ address ∧ lib.inetPton6 (cString (address.takeWhile (· ≠ 37))) then old
    else if lib.inetPton4 (cString address) then address
    else setIpAddressInner lib bigEndian family old address
  else if lib.inetPton6 (cString address) then address
  else setIpAddressInner lib bigEndian family old address

def setAddress : Bytes :=
  if if family = .ipv4 then lib.inetPton4 (cString address) else lib.inetPton6 (cString address)
  then address
  else
    match lib.getaddrinfo family (cString address) with
    | none => old
    | some (.inl ipv4) => ipv4.inetNtoa
    | some (.inr ipStr) => ipStr

theorem readsAll_decimal (n : Nat) : readsAll (decimal n) = true := by
  cases hd : decimal n with
  | nil => exact absurd hd (decimal_ne_nil n)
  | cons d t =>
    have hdigits (b : UInt8) (hb : b ∈ d :: t) : isDigit b = true :=
      isDigit_of_mem_decimal (hd ▸ hb)
    have hfirst := hdigits d List.mem_cons_self
    have hdrop : (d :: t).dropWhile isSpace = d :: t := by simp [isSpace_of_isDigit hfirst]
    have hsign : ¬ (d = 43 ∨ d = 45) := by rintro (rfl | rfl) <;> cases hfirst
    simpa [readsAll, hdrop, hsign] using hdigits

theorem setIpAddress_decimal (n : UInt32) :
    setIpAddress lib bigEndian .ipv4 old (decimal n.toNat) =
      (InAddr.ofSAddr bigEndian n).inetNtoa := by
  have hmem {b : UInt8} (hb : isDigit b = false) : b ∉ decimal n.toNat := notMem_decimal hb _
  have hlocal : decimal n.toNat ≠ ascii "localhost" := fun heq =>
    hmem (b := 108) rfl (heq ▸ by decide)
  have hdot : ¬ lib.inetPton4 (decimal n.toNat) = true := fun h => hmem rfl (lib.dot _ h)
  have hcolon : ¬ lib.inetPton6 (decimal n.toNat) = true := fun h => hmem rfl (lib.colon _ h)
  have hlt := n.toNat_lt
  have hvalue : strtol (decimal n.toNat) = n.toNat := strtol_decimal (by unfold longMax; omega)
  unfold setIpAddress setIpAddressInner
  rw [cString_of_notMem (hmem rfl), if_neg (decimal_ne_nil _), if_neg hlocal, if_pos rfl,
    if_neg hcolon, if_neg fun h => hmem rfl h.1, if_neg hdot]
  simp only [hvalue]
  rw [if_pos ⟨readsAll_decimal _, by omega, by omega⟩]
  simp

theorem setAddress_decimal (n : UInt32) :
    setAddress lib .ipv4 old (decimal n.toNat) = (InAddr.network n).inetNtoa := by
  have hmem {b : UInt8} (hb : isDigit b = false) : b ∉ decimal n.toNat := notMem_decimal hb _
  have hdot : ¬ lib.inetPton4 (decimal n.toNat) = true := fun h => hmem rfl (lib.dot _ h)
  unfold setAddress
  rw [cString_of_notMem (hmem rfl), if_pos rfl, if_neg hdot, lib.aton]

/-- The text of a number gives its bytes in network order both ways exactly if the host has this
order, or they read the same backwards. -/
theorem numeric_address_iff (n : UInt32) :
    (setIpAddress lib bigEndian .ipv4 old (decimal n.toNat) = (InAddr.network n).inetNtoa ∧
        setAddress lib .ipv4 old (decimal n.toNat) =
          setIpAddress lib bigEndian .ipv4 old (decimal n.toNat)) ↔
      bigEndian = true ∨ (InAddr.network n).reverse = InAddr.network n := by
  rw [setIpAddress_decimal, setAddress_decimal, eq_comm (a := InAddr.inetNtoa (.network n)),
    and_self, InAddr.inetNtoa_injective.eq_iff, InAddr.ofSAddr]
  cases bigEndian <;> simp

/-- On a little-endian host. -/
theorem numeric_address_reversed :
    setIpAddress inetAton false .ipv4 [] (ascii "1") = ascii "1.0.0.0" ∧
      setAddress inetAton .ipv4 [] (ascii "1") = ascii "0.0.0.1" := by
  have htext : ascii "1" = decimal (1 : UInt32).toNat := by decide +kernel
  rw [htext, setIpAddress_decimal, setAddress_decimal]
  decide +kernel

end NetAddress

end Netstack.Socket
