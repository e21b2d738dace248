import Mathlib.Data.List.GetD
import Netstack.Foundation.ByteStrings

/-!
# Sixteen-bit fields in network byte order

A sixteen-bit number is two bytes, the more significant one first. A reader that
takes the last two bytes of a buffer reads the number that the buffer ends with,
which is the number written in the middle of it only if the two happen to agree.
-/

namespace Netstack.Foundation

open List UInt8

/-- The two bytes of a number in network byte order. -/
def be16 (n : UInt16) : Bytes := [ofNat (n.toNat >>> 8), ofNat n.toNat]

variable (hi lo : UInt8)

/-- The number with the given more and less significant byte. -/
def join16 : UInt16 := UInt16.ofNat (hi.toNat <<< 8 ||| lo.toNat)

@[simp]
theorem length_be16 (n : UInt16) : (be16 n).length = 2 := rfl

theorem join16_toNat : (join16 hi lo).toNat = 256 * hi.toNat + lo.toNat := by
  have hhi := hi.toNat_lt
  have hlo := lo.toNat_lt
  have hor : hi.toNat <<< 8 ||| lo.toNat = hi.toNat <<< 8 + lo.toNat :=
    (Nat.shiftLeft_add_eq_or_of_lt (by simpa using hlo) _).symm
  rw [join16, hor, UInt16.toNat_ofNat', Nat.shiftLeft_eq]
  omega

theorem join16_be16 (n : UInt16) : join16 (ofNat (n.toNat >>> 8)) (ofNat n.toNat) = n := by
  apply UInt16.toNat_inj.mp
  have hn := n.toNat_lt
  simp only [join16_toNat, UInt8.toNat_ofNat', Nat.shiftRight_eq_div_pow]
  omega

theorem be16_join16 : be16 (join16 hi lo) = [hi, lo] := by
  have hhi := hi.toNat_lt
  have hlo := lo.toNat_lt
  have hfirst : ofNat ((join16 hi lo).toNat >>> 8) = hi := by
    apply UInt8.toNat_inj.mp
    simp only [join16_toNat, UInt8.toNat_ofNat', Nat.shiftRight_eq_div_pow]
    omega
  have hsecond : ofNat (join16 hi lo).toNat = lo := by
    apply UInt8.toNat_inj.mp
    simp only [join16_toNat, UInt8.toNat_ofNat']
    omega
  rw [be16, hfirst, hsecond]

theorem join16_eq_iff {hi lo : UInt8} {n : UInt16} : join16 hi lo = n ↔ [hi, lo] = be16 n := by
  grind [be16_join16, be16, join16_be16]

/-- The number in the last two bytes of a buffer. -/
def trailing16 (data : Bytes) : UInt16 :=
  join16 (data.getD (data.length - 2) 0) (data.getD (data.length - 1) 0)

theorem trailing16_append (front : Bytes) {data : Bytes} (h : 2 ≤ data.length) :
    trailing16 (front ++ data) = trailing16 data := by
  have hlast (k : Nat) (hk : k ≤ 2) (hpos : 0 < k) :
      (front ++ data).getD ((front ++ data).length - k) 0 = data.getD (data.length - k) 0 := by
    have hindex : (front ++ data).length - k = front.length + (data.length - k) := by
      simp only [length_append]
      omega
    rw [hindex, getD_append_right _ _ _ _ (by omega), Nat.add_sub_cancel_left]
  rw [trailing16, hlast 2 le_rfl (by omega), hlast 1 (by omega) Nat.one_pos, trailing16]

/-- The last two bytes of a buffer are a number exactly if the buffer ends with it. -/
theorem trailing16_eq_iff {data : Bytes} (h : 2 ≤ data.length) (n : UInt16) :
    trailing16 data = n ↔ be16 n <:+ data := by
  obtain ⟨front, hi, lo, rfl⟩ : ∃ front hi lo, data = front ++ [hi, lo] := by
    have hdrop : (data.drop (data.length - 2)).length = 2 := by
      rw [length_drop]
      omega
    obtain ⟨hi, lo, hpair⟩ := length_eq_two.mp hdrop
    exact ⟨data.take (data.length - 2), hi, lo, by rw [← hpair, take_append_drop]⟩
  rw [trailing16_append front (by simp)]
  change join16 hi lo = n ↔ _
  rw [join16_eq_iff]
  constructor
  · intro hpair
    exact ⟨front, by rw [hpair]⟩
  · rintro ⟨front', heq⟩
    exact ((append_inj' heq rfl).2).symm

end Netstack.Foundation
