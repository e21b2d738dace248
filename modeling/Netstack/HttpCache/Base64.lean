import Netstack.Foundation.ByteStrings
import Mathlib.Tactic

/-!
# Base64

`Encode` and `Decode` work on groups of three and four bytes. `Decode` stops at
the first byte outside the alphabet, the padding included; the places of a last
short group that received no byte are looked up as NUL, which is not in the
alphabet, and the result of that lookup is cut to a byte.
-/

namespace Netstack.HttpCache.Base64

open Foundation List UInt8

def base64Chars : Bytes :=
  ascii "ABCDEFGHIJKLMNOPQRSTUVWXYZabcdefghijklmnopqrstuvwxyz0123456789+/"

/-- `BASE64_CHARS[i]`; the element past the last one is NUL. -/
def base64Char (i : UInt8) : UInt8 := base64Chars.getD i.toNat 0

/-- `BASE64_CHARS.find(b)` as a byte: `npos` becomes `0xff`. -/
def base64Find (b : UInt8) : UInt8 :=
  match base64Chars.idxOf? b with
  | some i => ofNat i
  | none => 0xff

def isBase64Char (b : UInt8) : Bool :=
  (48 ≤ b && b ≤ 57) || (65 ≤ b && b ≤ 90) || (97 ≤ b && b ≤ 122) || b == 43 || b == 47

def makeCharFour (a b c : UInt8) : UInt8 × UInt8 × UInt8 × UInt8 :=
  ((a &&& 0xfc) >>> 2,
    ((a &&& 0x03) <<< 4) + ((b &&& 0xf0) >>> 4),
    ((b &&& 0x0f) <<< 2) + ((c &&& 0xc0) >>> 6),
    c &&& 0x3f)

def makeCharTree (a b c d : UInt8) : UInt8 × UInt8 × UInt8 :=
  ((a <<< 2) + ((b &&& 0x30) >>> 4),
    ((b &&& 0x0f) <<< 4) + ((c &&& 0x3c) >>> 2),
    ((c &&& 0x03) <<< 6) + d)

def encode : Bytes → Bytes
  | a :: b :: c :: rest =>
    let four := makeCharFour a b c
    base64Char four.1 :: base64Char four.2.1 :: base64Char four.2.2.1 ::
      base64Char four.2.2.2 :: encode rest
  | [a, b] =>
    let four := makeCharFour a b 0
    [base64Char four.1, base64Char four.2.1, base64Char four.2.2.1, 61]
  | [a] =>
    let four := makeCharFour a 0 0
    [base64Char four.1, base64Char four.2.1, 61, 61]
  | [] => []

/-- The groups of the bytes before the first one outside the alphabet. -/
def decodeGroups : Bytes → Bytes
  | a :: b :: c :: d :: rest =>
    let three := makeCharTree (base64Find a) (base64Find b) (base64Find c) (base64Find d)
    three.1 :: three.2.1 :: three.2.2 :: decodeGroups rest
  | [a, b, c] =>
    let three := makeCharTree (base64Find a) (base64Find b) (base64Find c) (base64Find 0)
    [three.1, three.2.1]
  | [a, b] =>
    let three := makeCharTree (base64Find a) (base64Find b) (base64Find 0) (base64Find 0)
    [three.1]
  | [_] => []
  | [] => []

def decode (encoded : Bytes) : Bytes := decodeGroups (encoded.takeWhile isBase64Char)

section Digits

/-- The six-bit digits are the alphabet's positions. -/
theorem base64Char_spec : ∀ n < 64, isBase64Char (base64Char (ofNat n)) = true ∧
    base64Find (base64Char (ofNat n)) = ofNat n := by
  decide +kernel

theorem base64Char_spec_of_lt {i : UInt8} (h : i.toNat < 64) :
    isBase64Char (base64Char i) = true ∧ base64Find (base64Char i) = i := by
  have hi := base64Char_spec i.toNat h
  rwa [UInt8.ofNat_toNat] at hi

/-- The masks and shifts of one byte, as arithmetic on its value. -/
theorem byte_parts (b : UInt8) :
    ((b &&& 0xfc) >>> 2).toNat = b.toNat / 4 ∧ ((b &&& 0x03) <<< 4).toNat = b.toNat % 4 * 16 ∧
    ((b &&& 0xf0) >>> 4).toNat = b.toNat / 16 ∧ ((b &&& 0x0f) <<< 2).toNat = b.toNat % 16 * 4 ∧
    ((b &&& 0xc0) >>> 6).toNat = b.toNat / 64 ∧ (b &&& 0x3f).toNat = b.toNat % 64 ∧
    (b <<< 2).toNat = b.toNat % 64 * 4 ∧ ((b &&& 0x30) >>> 4).toNat = b.toNat / 16 % 4 ∧
    ((b &&& 0x0f) <<< 4).toNat = b.toNat % 16 * 16 ∧
    ((b &&& 0x3c) >>> 2).toNat = b.toNat / 4 % 16 ∧
    ((b &&& 0x03) <<< 6).toNat = b.toNat % 4 * 64 := by
  revert b
  apply forall_byte
  decide +kernel

/-- The four digits of three bytes. -/
theorem makeCharFour_toNat (a b c : UInt8) :
    (makeCharFour a b c).1.toNat = a.toNat / 4 ∧
    (makeCharFour a b c).2.1.toNat = a.toNat % 4 * 16 + b.toNat / 16 ∧
    (makeCharFour a b c).2.2.1.toNat = b.toNat % 16 * 4 + c.toNat / 64 ∧
    (makeCharFour a b c).2.2.2.toNat = c.toNat % 64 := by
  have ha := byte_parts a
  have hb := byte_parts b
  have hc := byte_parts c
  have hbLt := b.toNat_lt
  have hcLt := c.toNat_lt
  simp only [makeCharFour, UInt8.toNat_add, ha, hb, hc, true_and, and_true]
  omega

theorem makeCharTree_toNat (a b c d : UInt8) :
    (makeCharTree a b c d).1.toNat = (a.toNat % 64 * 4 + b.toNat / 16 % 4) % 256 ∧
    (makeCharTree a b c d).2.1.toNat = (b.toNat % 16 * 16 + c.toNat / 4 % 16) % 256 ∧
    (makeCharTree a b c d).2.2.toNat = (c.toNat % 4 * 64 + d.toNat) % 256 := by
  have ha := byte_parts a
  have hb := byte_parts b
  have hc := byte_parts c
  simp only [makeCharTree, UInt8.toNat_add, ha, hb, hc, true_and]

/-- Regrouping the digits gives the first byte back whatever fills the last two
places, the second whatever fills the last, and the third from all four. -/
theorem makeCharTree_makeCharFour (a b c x y : UInt8) :
    (makeCharTree (makeCharFour a b c).1 (makeCharFour a b c).2.1 x y).1 = a ∧
    (makeCharTree (makeCharFour a b c).1 (makeCharFour a b c).2.1 (makeCharFour a b c).2.2.1 y).2.1
      = b ∧
    (makeCharTree (makeCharFour a b c).1 (makeCharFour a b c).2.1 (makeCharFour a b c).2.2.1
      (makeCharFour a b c).2.2.2).2.2 = c := by
  obtain ⟨h₁, h₂, h₃, h₄⟩ := makeCharFour_toNat a b c
  have haLt := a.toNat_lt
  have hbLt := b.toNat_lt
  have hcLt := c.toNat_lt
  refine ⟨?_, ?_, ?_⟩
  · apply UInt8.toNat_inj.mp
    rw [(makeCharTree_toNat _ _ _ _).1, h₁, h₂]
    omega
  · apply UInt8.toNat_inj.mp
    rw [(makeCharTree_toNat _ _ _ _).2.1, h₂, h₃]
    omega
  · apply UInt8.toNat_inj.mp
    rw [(makeCharTree_toNat _ _ _ _).2.2, h₃, h₄]
    omega

theorem makeCharFour_lt (a b c : UInt8) :
    (makeCharFour a b c).1.toNat < 64 ∧ (makeCharFour a b c).2.1.toNat < 64 ∧
    (makeCharFour a b c).2.2.1.toNat < 64 ∧ (makeCharFour a b c).2.2.2.toNat < 64 := by
  obtain ⟨h₁, h₂, h₃, h₄⟩ := makeCharFour_toNat a b c
  have haLt := a.toNat_lt
  have hbLt := b.toNat_lt
  have hcLt := c.toNat_lt
  omega

end Digits

section RoundTrip

/-- Decoding gives back every encoded byte string. -/
theorem decode_encode (s : Bytes) : decode (encode s) = s := by
  have hpad : isBase64Char 61 = false := by decide
  induction s using encode.induct with
  | case1 a b c rest ih =>
    obtain ⟨h₁, h₂, h₃, h₄⟩ := makeCharFour_lt a b c
    have hback := makeCharTree_makeCharFour a b c (makeCharFour a b c).2.2.1
      (makeCharFour a b c).2.2.2
    rw [decode] at ih
    simp only [decode, encode, takeWhile_cons, base64Char_spec_of_lt h₁,
      base64Char_spec_of_lt h₂, base64Char_spec_of_lt h₃, base64Char_spec_of_lt h₄, if_true,
      decodeGroups, hback, ih]
  | case2 a b =>
    obtain ⟨h₁, h₂, h₃, -⟩ := makeCharFour_lt a b 0
    have hback := makeCharTree_makeCharFour a b 0 (makeCharFour a b 0).2.2.1 (base64Find 0)
    simp [decode, encode, base64Char_spec_of_lt h₁,
      base64Char_spec_of_lt h₂, base64Char_spec_of_lt h₃, hpad, decodeGroups, hback]
  | case3 a =>
    obtain ⟨h₁, h₂, -, -⟩ := makeCharFour_lt a 0 0
    have hback := makeCharTree_makeCharFour a 0 0 (base64Find 0) (base64Find 0)
    simp [decode, encode, base64Char_spec_of_lt h₁,
      base64Char_spec_of_lt h₂, hpad, decodeGroups, hback]
  | case4 => rfl

theorem encode_injective : Function.Injective encode :=
  Function.LeftInverse.injective decode_encode

end RoundTrip

section Standard

/-- The character for the `i`th of the four six-bit groups of a 24-bit group. -/
def groupChar (group i : Nat) : UInt8 := base64Chars.getD (group / 64 ^ (3 - i) % 64) 0

/-- The encoding of RFC 4648: three bytes are one group of 24 bits, a last shorter group is filled
with zero bits, and characters that no bit of the source is in are replaced by the padding. -/
def rfc4648 : Bytes → Bytes
  | a :: b :: c :: rest =>
    let group := a.toNat * 2 ^ 16 + b.toNat * 2 ^ 8 + c.toNat
    groupChar group 0 :: groupChar group 1 :: groupChar group 2 :: groupChar group 3 ::
      rfc4648 rest
  | [a, b] =>
    let group := a.toNat * 2 ^ 16 + b.toNat * 2 ^ 8
    [groupChar group 0, groupChar group 1, groupChar group 2, 61]
  | [a] =>
    let group := a.toNat * 2 ^ 16
    [groupChar group 0, groupChar group 1, 61, 61]
  | [] => []

/-- A padded encoding whose last character has no bit set that encodes nothing. -/
def Canonical (t : Bytes) : Prop :=
  ∃ digits padding, t = digits ++ List.replicate padding 61 ∧ padding ≤ 2 ∧ 4 ∣ t.length ∧
    (∀ b ∈ digits, isBase64Char b = true) ∧
    ∀ b ∈ digits.getLast?, (base64Find b).toNat % 4 ^ padding = 0

theorem groupChar_of {group i : Nat} {d : UInt8} (h : group / 64 ^ (3 - i) % 64 = d.toNat) :
    groupChar group i = base64Char d := by
  rw [groupChar, base64Char, h]

/-- The encoder follows the standard. -/
theorem encode_eq_rfc4648 (s : Bytes) : encode s = rfc4648 s := by
  have hzero : (0 : UInt8).toNat = 0 := rfl
  induction s using encode.induct with
  | case1 a b c rest ih =>
      obtain ⟨h₁, h₂, h₃, h₄⟩ := makeCharFour_toNat a b c
      have haLt := a.toNat_lt
      have hbLt := b.toNat_lt
      have hcLt := c.toNat_lt
      rw [encode, rfc4648, ih, groupChar_of (i := 0) (d := (makeCharFour a b c).1) (by omega),
        groupChar_of (i := 1) (d := (makeCharFour a b c).2.1) (by omega),
        groupChar_of (i := 2) (d := (makeCharFour a b c).2.2.1) (by omega),
        groupChar_of (i := 3) (d := (makeCharFour a b c).2.2.2) (by omega)]
  | case2 a b =>
      obtain ⟨h₁, h₂, h₃, -⟩ := makeCharFour_toNat a b 0
      have haLt := a.toNat_lt
      have hbLt := b.toNat_lt
      rw [encode, rfc4648, groupChar_of (i := 0) (d := (makeCharFour a b 0).1) (by omega),
        groupChar_of (i := 1) (d := (makeCharFour a b 0).2.1) (by omega),
        groupChar_of (i := 2) (d := (makeCharFour a b 0).2.2.1) (by omega)]
  | case3 a =>
      obtain ⟨h₁, h₂, -, -⟩ := makeCharFour_toNat a 0 0
      have haLt := a.toNat_lt
      rw [encode, rfc4648, groupChar_of (i := 0) (d := (makeCharFour a 0 0).1) (by omega),
        groupChar_of (i := 1) (d := (makeCharFour a 0 0).2.1) (by omega)]
  | case4 => rfl

theorem base64Find_spec : ∀ b : UInt8, isBase64Char b = true →
    base64Char (base64Find b) = b ∧ (base64Find b).toNat < 64 := by
  apply forall_byte
  decide +kernel

theorem base64Char_of {b d : UInt8} (hb : isBase64Char b = true)
    (h : d.toNat = (base64Find b).toNat) : base64Char d = b := by
  rw [UInt8.toNat_inj.mp h, (base64Find_spec b hb).1]

/-- Encoding gives the characters back that a canonical text was decoded from. -/
theorem encode_decodeGroups {padding : Nat} (hpadding : padding ≤ 2) (digits : Bytes)
    (hlength : 4 ∣ digits.length + padding) (hdigits : ∀ b ∈ digits, isBase64Char b = true)
    (hlast : ∀ b ∈ digits.getLast?, (base64Find b).toNat % 4 ^ padding = 0) :
    encode (decodeGroups digits) = digits ++ List.replicate padding 61 := by
  have hzero : (0 : UInt8).toNat = 0 := rfl
  induction digits using decodeGroups.induct with
  | case1 a b c d rest ih =>
      simp only [forall_mem_cons] at hdigits
      obtain ⟨ha, hb, hc, hd, hrest⟩ := hdigits
      rw [decodeGroups, encode]
      obtain ⟨h₁, h₂, h₃⟩ := makeCharTree_toNat (base64Find a) (base64Find b) (base64Find c)
        (base64Find d)
      generalize makeCharTree (base64Find a) _ _ _ = three at h₁ h₂ h₃ ⊢
      obtain ⟨h₄, h₅, h₆, h₇⟩ := makeCharFour_toNat three.1 three.2.1 three.2.2
      have haLt := (base64Find_spec a ha).2
      have hbLt := (base64Find_spec b hb).2
      have hcLt := (base64Find_spec c hc).2
      have hdLt := (base64Find_spec d hd).2
      have hback := ih (by simp only [length_cons] at hlength; omega) hrest fun e he =>
        hlast e (by simp [List.getLast?_cons, Option.mem_def.mp he])
      rw [hback, base64Char_of ha (by omega), base64Char_of hb (by omega),
        base64Char_of hc (by omega), base64Char_of hd (by omega)]
      rfl
  | case2 a b c =>
      obtain rfl : padding = 1 := by simp at hlength; omega
      simp only [forall_mem_cons] at hdigits
      obtain ⟨ha, hb, hc, -⟩ := hdigits
      rw [decodeGroups, encode]
      obtain ⟨h₁, h₂, -⟩ := makeCharTree_toNat (base64Find a) (base64Find b) (base64Find c)
        (base64Find 0)
      generalize makeCharTree (base64Find a) _ _ _ = three at h₁ h₂ ⊢
      obtain ⟨h₄, h₅, h₆, -⟩ := makeCharFour_toNat three.1 three.2.1 0
      have haLt := (base64Find_spec a ha).2
      have hbLt := (base64Find_spec b hb).2
      have hcLt := (base64Find_spec c hc).2
      have hrest : (base64Find c).toNat % 4 ^ 1 = 0 := hlast c rfl
      rw [base64Char_of ha (by omega), base64Char_of hb (by omega),
        base64Char_of hc (by omega)]
      rfl
  | case3 a b =>
      obtain rfl : padding = 2 := by simp at hlength; omega
      simp only [forall_mem_cons] at hdigits
      obtain ⟨ha, hb, -⟩ := hdigits
      rw [decodeGroups, encode]
      obtain ⟨h₁, -, -⟩ := makeCharTree_toNat (base64Find a) (base64Find b) (base64Find 0)
        (base64Find 0)
      generalize makeCharTree (base64Find a) _ _ _ = three at h₁ ⊢
      obtain ⟨h₄, h₅, -, -⟩ := makeCharFour_toNat three.1 0 0
      have haLt := (base64Find_spec a ha).2
      have hbLt := (base64Find_spec b hb).2
      have hrest : (base64Find b).toNat % 4 ^ 2 = 0 := hlast b rfl
      rw [base64Char_of ha (by omega), base64Char_of hb (by omega)]
      rfl
  | case4 a => simp at hlength; omega
  | case5 =>
      obtain rfl : padding = 0 := by simp at hlength; omega
      rfl

/-- The codec is that of the standard and reversible in both directions. -/
theorem base64_standard (s : Bytes) : decode (encode s) = s ∧ encode s = rfc4648 s ∧
    ∀ t, Canonical t → encode (decode t) = t := by
  refine ⟨decode_encode s, encode_eq_rfc4648 s, ?_⟩
  rintro t ⟨digits, padding, rfl, hpadding, hlength, hdigits, hlast⟩
  have hpad : isBase64Char 61 = false := by decide
  have htake : (digits ++ List.replicate padding 61).takeWhile isBase64Char = digits := by
    rw [takeWhile_append_of_pos hdigits]
    cases padding with
    | zero => exact append_nil digits
    | succ n =>
        rw [replicate_succ, takeWhile_cons_of_neg (by simp [hpad]), append_nil]
  rw [length_append, length_replicate] at hlength
  rw [decode, htake, encode_decodeGroups hpadding digits hlength hdigits hlast]

theorem base64_standard_padded : Canonical (ascii "YQ==") ∧
    encode (decode (ascii "YQ==")) = ascii "YQ==" := by
  have hcanonical : Canonical (ascii "YQ==") :=
    ⟨ascii "YQ", 2, by decide, le_rfl, by decide, by decide +kernel, by decide +kernel⟩
  exact ⟨hcanonical, (base64_standard []).2.2 _ hcanonical⟩

end Standard

end Netstack.HttpCache.Base64
