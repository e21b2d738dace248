import Mathlib.Order.Defs.LinearOrder

/-!
# Intersections by merging

`std::set_intersection` walks along two ranges and drops the smaller of the two heads. It is meant
for sorted ranges. On any two lists it finds something if and only if a common element is greater
than everything before it in both.
-/

namespace Netstack.Foundation

variable {α : Type*} [LT α]

/-- An element greater than all elements before it. -/
def Record (x : α) : List α → Prop
  | [] => False
  | a :: l => x = a ∨ a < x ∧ Record x l

/-- Two lists share an element that is a record of both. -/
def ShareRecord (as bs : List α) : Prop := ∃ x, Record x as ∧ Record x bs

theorem ShareRecord.symm {as bs : List α} (h : ShareRecord as bs) : ShareRecord bs as := by
  obtain ⟨x, ha, hb⟩ := h
  exact ⟨x, hb, ha⟩

def setIntersection [DecidableLT α] : List α → List α → List α
  | a :: as, b :: bs =>
    if a < b then setIntersection as (b :: bs)
    else if b < a then setIntersection (a :: as) bs
    else a :: setIntersection as bs
  | _, _ => []
termination_by as bs => as.length + bs.length

section Orders

variable [Trans (α := α) (· < ·) (· < ·) (· < ·)] [Std.Irrefl (α := α) (· < ·)]

/-- A head that is smaller than the other head can be dropped. -/
theorem shareRecord_cons_iff_of_lt {a b : α} {as bs : List α} (hab : a < b) :
    ShareRecord (a :: as) (b :: bs) ↔ ShareRecord as (b :: bs) := by
  constructor
  · rintro ⟨x, rfl | ⟨_, ha⟩, hb⟩
    · rcases hb with rfl | ⟨hba, _⟩
      · exact (Std.Irrefl.irrefl x hab).elim
      · exact (Std.Irrefl.irrefl x (Trans.trans hab hba)).elim
    · exact ⟨x, ha, hb⟩
  · rintro ⟨x, ha, hb⟩
    refine ⟨x, Or.inr ⟨?_, ha⟩, hb⟩
    rcases hb with rfl | ⟨hbx, _⟩
    · exact hab
    · exact Trans.trans hab hbx

theorem setIntersection_ne_nil_iff [DecidableLT α] [Std.Trichotomous (α := α) (· < ·)]
    (as bs : List α) : setIntersection as bs ≠ [] ↔ ShareRecord as bs := by
  induction as, bs using setIntersection.induct with
  | case1 a as b bs hab ih =>
    rw [setIntersection, if_pos hab, ih, shareRecord_cons_iff_of_lt hab]
  | case2 a as b bs hab hba ih =>
    rw [setIntersection, if_neg hab, if_pos hba, ih]
    constructor
    · intro h
      exact ((shareRecord_cons_iff_of_lt hba).mpr h.symm).symm
    · intro h
      exact ((shareRecord_cons_iff_of_lt hba).mp h.symm).symm
  | case3 a as b bs hab hba _ =>
    obtain rfl : a = b := Std.Trichotomous.trichotomous a b hab hba
    rw [setIntersection, if_neg hab, if_neg hba]
    exact iff_of_true (List.cons_ne_nil _ _) ⟨a, Or.inl rfl, Or.inl rfl⟩
  | case4 as bs hne =>
    rw [setIntersection]
    · refine iff_of_false (fun h => h rfl) ?_
      rintro ⟨x, ha, hb⟩
      cases as with
      | nil => exact ha
      | cons a as =>
        cases bs with
        | nil => exact hb
        | cons b bs => exact hne a as b bs rfl rfl
    · exact hne

end Orders

end Netstack.Foundation
