import Netstack.Foundation.ByteStrings
import Mathlib.Tactic

/-!
# Decimal numerals in byte strings

`decimal` is the text of a natural number. `strtol` is the base-ten reading of
the C library: leading white space and one sign are skipped, the longest run
of digits is read, and a value outside the `long` range saturates. `fromChars`
is the strict reading: the whole text must be a number of the range. `int64`
checks one signed operation, whose overflow is undefined.
-/

namespace Netstack.Foundation

open List

def isDigit (b : UInt8) : Bool := 48 ≤ b && b ≤ 57

/-- White space of the C locale: space and the bytes from tab to carriage return. -/
def isSpace (b : UInt8) : Bool := b == 32 || (9 ≤ b && b ≤ 13)

/-- The number a run of digits denotes. -/
def digitsValue (ds : Bytes) : Nat := ds.foldl (fun n d => 10 * n + (d.toNat - 48)) 0

def longMax : Int := 2 ^ 63 - 1

def longMin : Int := -2 ^ 63

/-- Base-ten `strtol`, saturating at the ends of the `long` range. -/
def strtol (s : Bytes) : Int :=
  match s.dropWhile isSpace with
  | 45 :: t => max longMin (-(digitsValue (t.takeWhile isDigit) : Int))
  | 43 :: t => min longMax (digitsValue (t.takeWhile isDigit) : Int)
  | t => min longMax (digitsValue (t.takeWhile isDigit) : Int)

/-- The result of a signed 64-bit operation; an overflow has none. -/
def int64 (x : Int) : Option Int := if longMin ≤ x ∧ x ≤ longMax then some x else none

/-- Base-ten `std::from_chars` over a whole text. -/
def fromChars (s : Bytes) : Option Int :=
  match s with
  | 45 :: t => if t ≠ [] ∧ t.all isDigit then int64 (-(digitsValue t : Int)) else none
  | t => if t ≠ [] ∧ t.all isDigit then int64 (digitsValue t : Int) else none

theorem int64_eq_some_iff {x y : Int} : int64 x = some y ↔ y = x ∧ longMin ≤ x ∧ x ≤ longMax := by
  unfold int64
  grind

variable (n : Nat)

/-- The decimal text of a natural number, without leading zeros. -/
def decimal : Bytes :=
  if n = 0 then [48] else (Nat.digits 10 n).reverse.map fun d => UInt8.ofNat (48 + d)

theorem digit_toNat {d : Nat} (h : d < 10) : (UInt8.ofNat (48 + d)).toNat = 48 + d := by
  rw [UInt8.toNat_ofNat']
  omega

theorem isDigit_digit {d : Nat} (h : d < 10) : isDigit (UInt8.ofNat (48 + d)) = true := by
  have hn := digit_toNat h
  simp only [isDigit, Bool.and_eq_true, decide_eq_true_eq, UInt8.le_iff_toNat_le, hn]
  exact ⟨by simp, by change 48 + d ≤ 57; omega⟩

theorem isDigit_of_mem_decimal {n : Nat} {b : UInt8} (h : b ∈ decimal n) : isDigit b = true := by
  unfold decimal at h
  split at h
  · have hb : b = 48 := by simpa using h
    subst hb
    rfl
  · obtain ⟨d, hd, rfl⟩ := mem_map.mp h
    exact isDigit_digit (Nat.digits_lt_base (by omega) (mem_reverse.mp hd))

theorem decimal_ne_nil : decimal n ≠ [] := by
  unfold decimal
  split
  · simp
  · rename_i hn
    simpa [Nat.digits_eq_nil_iff_eq_zero] using hn

theorem digitsValue_concat (ds : Bytes) (d : UInt8) :
    digitsValue (ds ++ [d]) = 10 * digitsValue ds + (d.toNat - 48) := by
  simp [digitsValue]

theorem digitsValue_digits (ds : List Nat) (h : ∀ d ∈ ds, d < 10) :
    digitsValue (ds.reverse.map fun d => UInt8.ofNat (48 + d)) = Nat.ofDigits 10 ds := by
  induction ds with
  | nil => rfl
  | cons d ds ih =>
    have hd : d < 10 := h d (by simp)
    rw [reverse_cons, map_append, map_singleton, digitsValue_concat,
      ih fun e he => h e (by simp [he]), digit_toNat hd, Nat.ofDigits_cons]
    omega

/-- Reading the digits of a decimal text gives the number back. -/
theorem digitsValue_decimal : digitsValue (decimal n) = n := by
  unfold decimal
  split
  · rename_i hn
    rw [hn]
    rfl
  · rw [digitsValue_digits _ fun d hd => Nat.digits_lt_base (by omega) hd, Nat.ofDigits_digits]

theorem decimal_injective : Function.Injective decimal := by
  intro m n h
  rw [← digitsValue_decimal m, h, digitsValue_decimal]

theorem takeWhile_isDigit_decimal : (decimal n).takeWhile isDigit = decimal n :=
  takeWhile_eq_self_iff.mpr fun _ hb => isDigit_of_mem_decimal hb

theorem notMem_decimal {b : UInt8} (hb : isDigit b = false) (n : Nat) : b ∉ decimal n := by
  intro h
  rw [isDigit_of_mem_decimal h] at hb
  cases hb

theorem isSpace_of_isDigit {d : UInt8} (hd : isDigit d = true) : isSpace d = false := by
  have hrange : 48 ≤ d ∧ d ≤ 57 := by simpa [isDigit] using hd
  simp only [isSpace, Bool.or_eq_false_iff, beq_eq_false_iff_ne, Bool.and_eq_false_iff,
    decide_eq_false_iff_not]
  grind

theorem strtol_of_isDigit {d : UInt8} {t : Bytes} (hd : isDigit d = true) :
    strtol (d :: t) = min longMax (digitsValue ((d :: t).takeWhile isDigit) : Int) := by
  have hrange : 48 ≤ d ∧ d ≤ 57 := by simpa [isDigit] using hd
  have hdrop : (d :: t).dropWhile isSpace = d :: t := by simp [isSpace_of_isDigit hd]
  unfold strtol
  grind

/-- A decimal text within the `long` range is read back exactly. -/
theorem strtol_decimal {n : Nat} (h : (n : Int) ≤ longMax) : strtol (decimal n) = n := by
  cases hd : decimal n with
  | nil => exact absurd hd (decimal_ne_nil n)
  | cons d t =>
    have hdig : isDigit d = true := isDigit_of_mem_decimal (n := n) (by simp [hd])
    rw [strtol_of_isDigit hdig, ← hd, takeWhile_isDigit_decimal, digitsValue_decimal]
    exact min_eq_right h

end Netstack.Foundation
