import Mathlib.Tactic

/-!
# Descriptors under reused numbers

A descriptor is opened under a number that is free then, and closing a number closes the descriptor
that had it last. Holders own the descriptors if each one is either open and remembered by exactly
one holder, or was closed exactly once and is remembered by none.

## Implementation notes

Descriptors are counted in the order in which they are opened.
-/

namespace Netstack.Foundation

open Function

structure DescriptorTable where
  /-- The descriptor that had a number last. -/
  last : Nat → Option Nat := fun _ => none
  closes : Nat → Nat := fun _ => 0
  count : Nat := 0

namespace DescriptorTable

variable (t : DescriptorTable)

def IsOpen (n : Nat) : Prop := ∃ d ∈ t.last n, t.closes d = 0

instance (t : DescriptorTable) (n : Nat) : Decidable (t.IsOpen n) :=
  inferInstanceAs (Decidable (∃ d ∈ t.last n, t.closes d = 0))

/-- The next descriptor gets the number. -/
def assign (n : Nat) : DescriptorTable :=
  { t with last := update t.last n (some t.count), count := t.count + 1 }

def close (n : Nat) : DescriptorTable :=
  match t.last n with
  | some d => { t with closes := update t.closes d (t.closes d + 1) }
  | none => t

structure WellFormed (t : DescriptorTable) : Prop where
  bounded : ∀ {n d}, t.last n = some d → d < t.count
  injective : ∀ {n m d}, t.last n = some d → t.last m = some d → n = m
  fresh : ∀ {d}, t.count ≤ d → t.closes d = 0

theorem wellFormed_empty : WellFormed {} where
  bounded := nofun
  injective := nofun
  fresh _ := rfl

section WellFormed

variable {t : DescriptorTable} {n : Nat}

@[grind =]
theorem last_assign {m : Nat} : (t.assign n).last m = if m = n then some t.count else t.last m :=
  update_apply ..

theorem last_assign_self : (t.assign n).last n = some t.count := update_self _ _ _

@[grind =]
theorem count_assign : (t.assign n).count = t.count + 1 := rfl

@[grind =]
theorem closes_assign : (t.assign n).closes = t.closes := rfl

theorem IsOpen.assign {m : Nat} (h : t.IsOpen m) (hne : m ≠ n) : (t.assign n).IsOpen m := by
  grind [IsOpen]

theorem WellFormed.assign (hw : t.WellFormed) (n : Nat) : (t.assign n).WellFormed := by
  have hbounded := @hw.bounded
  have hinjective := @hw.injective
  refine ⟨?_, ?_, fun hd => hw.fresh ((Nat.le_succ _).trans hd)⟩
  · grind
  · grind

@[simp, grind =]
theorem last_close (t : DescriptorTable) (n m : Nat) : (t.close n).last m = t.last m := by
  rw [close]
  split <;> rfl

@[simp, grind =]
theorem count_close (t : DescriptorTable) (n : Nat) : (t.close n).count = t.count := by
  rw [close]
  split <;> rfl

theorem closes_close {d : Nat} (h : t.last n = some d) (e : Nat) :
    (t.close n).closes e = if e = d then t.closes d + 1 else t.closes e := by
  rw [close, h]
  exact update_apply ..

/-- A number is not opened by closing another. -/
theorem IsOpen.of_close {m : Nat} (h : (t.close n).IsOpen m) : t.IsOpen m := by
  obtain ⟨d, hd, hopen⟩ := h
  rw [last_close] at hd
  refine ⟨d, hd, ?_⟩
  cases hlast : t.last n with
  | none => rwa [DescriptorTable.close, hlast] at hopen
  | some e =>
    rw [closes_close hlast] at hopen
    grind

theorem assign_close_of_ne {m : Nat} (hne : m ≠ n) :
    (t.assign n).close m = (t.close m).assign n := by
  have hlast : (t.assign n).last m = t.last m := update_of_ne hne _ _
  rw [DescriptorTable.close, DescriptorTable.close, hlast]
  cases t.last m <;> rfl

theorem WellFormed.close (hw : t.WellFormed) (n : Nat) : (t.close n).WellFormed := by
  have hbounded := @hw.bounded
  have hinjective := @hw.injective
  refine ⟨?_, ?_, ?_⟩
  · grind
  · grind
  grind [DescriptorTable.close, closes_close, @hw.fresh]

end WellFormed

section Owned

variable {ι : Type*}

/-- A holder remembers the number of the descriptor. -/
def Holds (t : DescriptorTable) (held : ι → Option Nat) (i : ι) (d : Nat) : Prop :=
  ∃ n, held i = some n ∧ t.last n = some d

structure Owned (t : DescriptorTable) (held : ι → Option Nat) : Prop where
  accounted : ∀ d < t.count, (t.closes d = 0 ∧ ∃! i, t.Holds held i d) ∨
    (t.closes d = 1 ∧ ∀ i, ¬ t.Holds held i d)
  isOpen : ∀ i n, held i = some n → t.IsOpen n

theorem owned_empty (held : ι → Option Nat) (h : ∀ i, held i = none) : Owned {} held where
  accounted := nofun
  isOpen i _ hi := nomatch (h i).symm.trans hi

variable {t : DescriptorTable} {held : ι → Option Nat} {n : Nat}

theorem not_holds_count (hw : t.WellFormed) (i : ι) : ¬ t.Holds held i t.count := by
  rintro ⟨m, -, hm⟩
  exact (hw.bounded hm).ne rfl

namespace Owned

variable (ho : t.Owned held)
include ho

/-- What is remembered is never a free number. -/
theorem ne_of_held (hfree : ¬ t.IsOpen n) {i : ι} {m : Nat}
    (hi : held i = some m) : m ≠ n := by
  rintro rfl
  exact hfree (ho.isOpen i m hi)

/-- A new descriptor that no holder remembers changes nothing for the others. -/
theorem holds_assign (hfree : ¬ t.IsOpen n) {i : ι} {d : Nat} :
    (t.assign n).Holds held i d ↔ t.Holds held i d := by
  refine exists_congr fun m => and_congr_right fun hi => ?_
  rw [last_assign, if_neg (ho.ne_of_held hfree hi)]

/-- Opening a descriptor that nobody remembers ends the ownership. -/
theorem not_owned_assign (hw : t.WellFormed) (hfree : ¬ t.IsOpen n) :
    ¬ (t.assign n).Owned held := by
  intro hnew
  have hcloses : (t.assign n).closes t.count = 0 := hw.fresh le_rfl
  rcases hnew.accounted t.count (Nat.lt_succ_self _) with ⟨-, i, hi, -⟩ | ⟨hone, -⟩
  · exact not_holds_count hw i ((ho.holds_assign hfree).mp hi)
  · exact nomatch hcloses.symm.trans hone

/-- Closing a number that nobody remembers, but that was opened, ends the ownership. -/
theorem not_owned_close (hw : t.WellFormed) (hlast : t.last n ≠ none)
    (hheld : ∀ i, held i ≠ some n) : ¬ (t.close n).Owned held := by
  intro hnew
  obtain ⟨d, hd⟩ := Option.ne_none_iff_exists'.mp hlast
  have hbound := hw.bounded hd
  have hcloses := closes_close hd d
  have hunheld (i : ι) : ¬ t.Holds held i d := by
    rintro ⟨m, hm, hmd⟩
    exact hheld i (hw.injective hmd hd ▸ hm)
  have hone : t.closes d = 1 := by
    rcases ho.accounted d hbound with ⟨-, i, hi, -⟩ | ⟨hone, -⟩
    · exact absurd hi (hunheld i)
    · exact hone
  rcases hnew.accounted d (by rwa [count_close]) with ⟨hzero, -⟩ | ⟨hone', -⟩
  · grind
  · grind

/-- A descriptor that is closed at once concerns no holder. -/
theorem assign_close (hw : t.WellFormed) (hfree : ¬ t.IsOpen n) :
    ((t.assign n).close n).Owned held := by
  have hcloses := closes_close (t := t.assign n) (n := n) last_assign_self
  have hnew (i : ι) : ¬ t.Holds held i t.count := not_holds_count hw i
  have hzero : t.closes t.count = 0 := hw.fresh le_rfl
  have hholds (i : ι) (d : Nat) : ((t.assign n).close n).Holds held i d ↔ t.Holds held i d := by
    simp only [Holds, last_close]
    exact ho.holds_assign hfree
  constructor
  · intro d hd
    have hold := ho.accounted d
    simp only [hholds]
    grind
  · intro i m hi
    obtain ⟨d, hd, hopen⟩ := ho.isOpen i m hi
    have hlast : (t.assign n).last m = some d := by
      rw [last_assign, if_neg (ho.ne_of_held hfree hi)]
      exact hd
    refine ⟨d, by rw [last_close]; exact hlast, ?_⟩
    rw [hcloses, if_neg (hw.bounded hd).ne]
    exact hopen

end Owned

variable [DecidableEq ι]

/-- The holder takes the new descriptor. -/
theorem Owned.assign (ho : t.Owned held) (hw : t.WellFormed) (hfree : ¬ t.IsOpen n) {i : ι}
    (hi : held i = none) : (t.assign n).Owned (update held i (some n)) := by
  have hnew (i : ι) : ¬ t.Holds held i t.count := not_holds_count hw i
  have hholds (j : ι) (d : Nat) : (t.assign n).Holds (update held i (some n)) j d ↔
      if j = i then d = t.count else t.Holds held j d := by
    by_cases hj : j = i
    · subst hj
      simp [Holds, last_assign_self, eq_comm]
    · rw [if_neg hj, ← ho.holds_assign hfree]
      simp only [Holds, update_of_ne hj]
  have hnone (d : Nat) : ¬ t.Holds held i d := by
    rintro ⟨m, hm, -⟩
    exact nomatch hi.symm.trans hm
  constructor
  · intro d hd
    have hold := ho.accounted d
    have hzero := @hw.fresh d
    simp only [hholds]
    by_cases hd' : d = t.count
    · refine .inl ⟨hzero hd'.ge, i, by grind, by grind⟩
    grind
  · intro j m hj
    have hopen := ho.isOpen j m
    by_cases hji : j = i
    · subst hji
      rw [update_self] at hj
      cases hj
      exact ⟨t.count, last_assign_self, hw.fresh le_rfl⟩
    · rw [update_of_ne hji] at hj
      exact (ho.isOpen j m hj).assign (ho.ne_of_held hfree hj)

/-- The holder closes the number that it remembers, and forgets it. -/
theorem Owned.close (ho : t.Owned held) (hw : t.WellFormed) {i : ι} (hi : held i = some n) :
    (t.close n).Owned (update held i none) := by
  obtain ⟨d, hd, hopen⟩ := ho.isOpen i n hi
  have hunique (j : ι) (hj : t.Holds held j d) : j = i := by
    rcases ho.accounted d (hw.bounded hd) with ⟨-, k, -, honly⟩ | ⟨hone, -⟩
    · exact (honly j hj).trans (honly i ⟨n, hi, hd⟩).symm
    · exact nomatch hopen.symm.trans hone
  have hself (e : Nat) (he : t.Holds held i e) : e = d := by
    grind [Holds]
  have hholds (j : ι) (e : Nat) : (t.close n).Holds (update held i none) j e ↔
      j ≠ i ∧ t.Holds held j e := by
    simp only [Holds, last_close]
    grind
  constructor
  · intro e he
    rw [count_close] at he
    have hold := ho.accounted e he
    simp only [hholds, closes_close hd]
    grind
  · intro j m hj
    obtain ⟨hji, hj⟩ : j ≠ i ∧ held j = some m := by grind
    obtain ⟨e, he, heopen⟩ := ho.isOpen j m hj
    have hne : e ≠ d := by
      rintro rfl
      exact hji (hunique j ⟨m, hj, he⟩)
    exact ⟨e, by rw [last_close]; exact he, by rw [closes_close hd, if_neg hne, heopen]⟩

end Owned

end DescriptorTable

end Netstack.Foundation
