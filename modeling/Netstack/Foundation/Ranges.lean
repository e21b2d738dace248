import Mathlib.Tactic

/-!
# Consecutive ranges

A range is a position and a length. Ranges tile an interval if each starts where the one before it
ends. What is read from a memory along such ranges is what stands in the interval.
-/

namespace Netstack.Foundation

open List

/-- The ranges follow each other from `a` to `b`. -/
def Tiles : List (Int × Nat) → Int → Int → Prop
  | [], a, b => a = b
  | r :: rs, a, b => r.1 = a ∧ Tiles rs (a + r.2) b

instance decidableTiles : (rs : List (Int × Nat)) → (a b : Int) → Decidable (Tiles rs a b)
  | [], a, b => inferInstanceAs (Decidable (a = b))
  | r :: rs, a, b =>
    have := decidableTiles rs (a + r.2) b
    inferInstanceAs (Decidable (r.1 = a ∧ Tiles rs (a + r.2) b))

/-- The sum of the lengths. -/
def covered (rs : List (Int × Nat)) : Nat := (rs.map (·.2)).sum

variable {rs : List (Int × Nat)} {a b : Int}

theorem tiles_concat_iff {r : Int × Nat} :
    Tiles (rs ++ [r]) a b ↔ Tiles rs a r.1 ∧ b = r.1 + r.2 := by
  induction rs generalizing a with
  | nil =>
    constructor
    · rintro ⟨rfl, rfl⟩
      exact ⟨rfl, rfl⟩
    · rintro ⟨rfl, rfl⟩
      exact ⟨rfl, rfl⟩
  | cons q rs ih =>
    simp only [cons_append, Tiles, ih, and_assoc]

theorem Tiles.end_eq (h : Tiles rs a b) : b = a + covered rs := by
  induction rs generalizing a with
  | nil =>
    cases h
    simp [covered]
  | cons r rs ih =>
    have hrest := ih h.2
    simp only [covered, map_cons, sum_cons, Nat.cast_add] at hrest ⊢
    omega

/-- The end is determined by the lengths. -/
theorem Tiles.iff_covered (h : Tiles rs a b) (c : Int) : Tiles rs a c ↔ c = a + covered rs := by
  constructor
  · intro hc
    exact hc.end_eq
  · rintro rfl
    rw [← h.end_eq]
    exact h

variable {α : Type*}

/-- The cells from a position on. -/
def cells (memory : Int → α) (a : Int) (n : Nat) : List α :=
  (range n).map fun k : Nat => memory (a + k)

theorem cells_add (memory : Int → α) (a : Int) (m n : Nat) :
    cells memory a (m + n) = cells memory a m ++ cells memory (a + m) n := by
  simp only [cells, range_add, map_append, map_map]
  simp [Function.comp_def, add_assoc]

/-- Ranges that tile an interval are read as the interval. -/
theorem Tiles.flatMap_cells (h : Tiles rs a b) (memory : Int → α) :
    (rs.flatMap fun r => cells memory r.1 r.2) = cells memory a (covered rs) := by
  induction rs generalizing a with
  | nil => rfl
  | cons r rs ih =>
    obtain ⟨rfl, hrest⟩ := h
    rw [flatMap_cons, ih hrest, ← cells_add]
    rfl

end Netstack.Foundation
