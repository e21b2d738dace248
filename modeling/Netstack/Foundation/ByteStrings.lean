import Mathlib.Data.List.DropRight
import Mathlib.Data.Nat.Digits.Lemmas

/-!
# Byte strings

A byte string carries arbitrary bytes, including NUL. Reading it through a
C string pointer stops at the first NUL, so every such crossing is the explicit
truncation `cString`. Letter case is ASCII case only.
-/

namespace Netstack.Foundation

open List

abbrev Bytes := List UInt8

instance : LawfulBEq Bytes := inferInstance

/-- The bytes of an ASCII literal. -/
def ascii (s : String) : Bytes := s.toList.map fun c => UInt8.ofNat c.toNat

/-- ASCII lower-casing of one byte; bytes outside `A`..`Z` are kept. -/
def lowerByte (b : UInt8) : UInt8 := if 65 ≤ b ∧ b ≤ 90 then b + 32 else b

variable (s : Bytes)

def lower : Bytes := s.map lowerByte

/-- What a reader of the C string sees: the text before the first NUL. -/
def cString : Bytes := s.takeWhile (· ≠ 0)

/-- A fact about bytes can be checked for each of the 256 values. -/
theorem forall_byte {p : UInt8 → Prop} (h : ∀ n < 256, p (UInt8.ofNat n)) (b : UInt8) : p b := by
  have hb := h b.toNat b.toNat_lt
  rwa [UInt8.ofNat_toNat] at hb

/-- Lower-casing produces no byte outside the lower-case letters. -/
theorem lowerByte_eq_or (b : UInt8) : lowerByte b = b ∨ 97 ≤ lowerByte b ∧ lowerByte b ≤ 122 := by
  revert b
  apply forall_byte
  decide +kernel

theorem notMem_lower {b : UInt8} (hb : b < 97) {s : Bytes} (h : b ∉ s) : b ∉ lower s := by
  intro hmem
  obtain ⟨a, ha, rfl⟩ := mem_map.mp hmem
  grind [lowerByte_eq_or]

theorem lowerByte_eq_iff {c : UInt8} (hc : c < 65) (b : UInt8) : lowerByte b = c ↔ b = c := by
  constructor
  · grind [lowerByte_eq_or]
  · rintro rfl
    exact if_neg fun h => absurd hc (UInt8.not_lt.mpr h.1)

theorem lower_lower : lower (lower s) = lower s := by
  have hbyte : ∀ b, lowerByte (lowerByte b) = lowerByte b := forall_byte (by decide +kernel)
  rw [lower, lower, map_map]
  exact map_congr_left fun b _ => hbyte b

/-- Two bytes below the letters stand beside each other after lower-casing only if they did
before. -/
theorem notInfix_lower {x y : UInt8} (hx : x < 65) (hy : y < 65) {s : Bytes}
    (h : ¬ [x, y] <:+: s) : ¬ [x, y] <:+: lower s := by
  rintro ⟨front, back, heq⟩
  obtain ⟨s', back', rfl, hfront, -⟩ := map_eq_append_iff.1 heq.symm
  obtain ⟨front', pair, rfl, -, hpair⟩ := map_eq_append_iff.1 hfront
  obtain ⟨a, b, rfl⟩ : ∃ a b, pair = [a, b] :=
    length_eq_two.1 (by simpa using congrArg List.length hpair)
  grind [lowerByte_eq_iff]

/-- Two bytes that stand beside each other on one side of a third one. -/
theorem notInfix_append_cons {x y c : UInt8} (hx : x ≠ c) (hy : y ≠ c) {a b : Bytes}
    (ha : ¬ [x, y] <:+: a) (hb : ¬ [x, y] <:+: b) : ¬ [x, y] <:+: a ++ c :: b := by
  induction a with
  | nil =>
    rw [nil_append, infix_cons_iff]
    rintro (hpre | hin)
    · exact hx (cons_prefix_cons.1 hpre).1
    · exact hb hin
  | cons z a ih =>
    rw [infix_cons_iff, not_or] at ha
    rw [cons_append, infix_cons_iff]
    rintro (hpre | hin)
    · obtain ⟨hxz, hrest⟩ := cons_prefix_cons.1 hpre
      cases a with
      | nil => exact hy (cons_prefix_cons.1 hrest).1
      | cons w a =>
        grind
    · exact ih ha.2 hin

theorem zero_notMem_cString : (0 : UInt8) ∉ cString s := by
  intro h
  have hp := mem_takeWhile_imp h
  simp at hp

theorem cString_eq_self_iff {s : Bytes} : cString s = s ↔ (0 : UInt8) ∉ s := by
  constructor
  · intro h
    rw [← h]
    exact zero_notMem_cString s
  · intro h
    apply takeWhile_eq_self_iff.mpr
    intro b hb
    have hne : b ≠ 0 := fun hz => h (hz ▸ hb)
    simpa using hne

theorem cString_of_notMem {s : Bytes} (h : (0 : UInt8) ∉ s) : cString s = s :=
  cString_eq_self_iff.mpr h

/-- A field that lacks the terminating byte is determined by the bytes up to
the first terminator, whatever follows. -/
theorem append_cons_inj_of_notMem {x : UInt8} {a a' r r' : Bytes}
    (ha : x ∉ a) (ha' : x ∉ a') (h : a ++ x :: r = a' ++ x :: r') : a = a' ∧ r = r' := by
  induction a generalizing a' with
  | nil =>
    cases a' with
    | nil => simpa using h
    | cons y t =>
      grind
  | cons y t ih =>
    cases a' with
    | nil =>
      grind
    | cons z u =>
      grind

/-- Lines each closed by the two bytes `x y`, then an unterminated tail. -/
def terminated (x y : UInt8) (lines : List Bytes) (tail : Bytes) : Bytes :=
  lines.flatMap (fun l => l ++ [x, y]) ++ tail

@[simp] theorem terminated_nil (x y : UInt8) (tail : Bytes) :
    terminated x y [] tail = tail := rfl

theorem terminated_cons (x y : UInt8) (l : Bytes) (ls : List Bytes) (tail : Bytes) :
    terminated x y (l :: ls) tail = l ++ x :: y :: terminated x y ls tail := by
  simp [terminated]

/-- Terminated lines parse back uniquely: neither the number of lines nor the
split between the last line and the tail is ambiguous. -/
theorem terminated_injective {x y : UInt8} {ls ls' : List Bytes} {t t' : Bytes}
    (hls : ∀ l ∈ ls, x ∉ l) (hls' : ∀ l ∈ ls', x ∉ l) (ht : x ∉ t) (ht' : x ∉ t')
    (h : terminated x y ls t = terminated x y ls' t') : ls = ls' ∧ t = t' := by
  induction ls generalizing ls' with
  | nil =>
    cases ls' with
    | nil => exact ⟨rfl, h⟩
    | cons l us =>
      rw [terminated_nil, terminated_cons] at h
      exact absurd (h ▸ by simp) ht
  | cons l ls ih =>
    cases ls' with
    | nil =>
      rw [terminated_nil, terminated_cons] at h
      exact absurd (h ▸ by simp) ht'
    | cons u us =>
      rw [terminated_cons, terminated_cons] at h
      obtain ⟨hl, hrest⟩ := append_cons_inj_of_notMem (hls l (by simp)) (hls' u (by simp)) h
      grind

end Netstack.Foundation
