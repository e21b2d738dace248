import Mathlib.Tactic

/-!
# Descriptors and their holder

A component opens descriptors and remembers one of them. It accounts for its descriptors if all
that it has opened and not closed is the one that it remembers. Remembering another one, or none,
keeps this exactly if nothing is open.
-/

namespace Netstack.Foundation

open Finset

/-- The open descriptors of a component and the one it remembers; a negative number is none. -/
structure Holder where
  current : Int
  opened : Finset Nat
  deriving DecidableEq

namespace Holder

def fresh : Holder where
  current := -1
  opened := ∅

variable (h : Holder)

/-- A descriptor is opened and remembered. -/
def create (d : Nat) : Holder where
  current := d
  opened := insert d h.opened

/-- No descriptor is remembered. -/
def forget : Holder := { h with current := -1 }

/-- The remembered descriptor is closed, but not forgotten. -/
def strip : Holder :=
  { h with opened := if 0 ≤ h.current then h.opened.erase h.current.toNat else h.opened }

/-- The remembered descriptor is closed and forgotten. -/
def close : Holder := h.strip.forget

@[simp] theorem current_create (d : Nat) : (h.create d).current = d := rfl

@[simp] theorem opened_create (d : Nat) : (h.create d).opened = insert d h.opened :=
  rfl

@[simp] theorem current_forget : h.forget.current = -1 := rfl

@[simp] theorem current_close : h.close.current = -1 := rfl

/-- A descriptor that was just opened is closed again. -/
theorem close_create {h : Holder} {d : Nat} (hd : d ∉ h.opened) :
    (h.create d).close = h.forget := by
  simp [close, strip, forget, hd]

/-- The remembered descriptor is open. -/
def Live : Prop := 0 ≤ h.current → h.current.toNat ∈ h.opened

theorem live_create (d : Nat) : (h.create d).Live :=
  fun _ => mem_insert_self d h.opened

/-- Nothing is wrong with a descriptor that is not remembered. -/
theorem live_of_current_neg {h : Holder} (hcurrent : h.current < 0) : h.Live :=
  fun hnonneg => absurd hnonneg (not_le.mpr hcurrent)

/-- Every open descriptor is the one that is remembered. -/
def Accounted : Prop := ∀ d ∈ h.opened, (d : Int) = h.current

instance (h : Holder) : Decidable h.Accounted :=
  inferInstanceAs (Decidable (∀ d ∈ h.opened, (d : Int) = h.current))

variable {h}

theorem accounted_of_opened_empty (hempty : h.opened = ∅) : h.Accounted := by
  intro d hd
  rw [hempty] at hd
  exact absurd hd (notMem_empty d)

theorem accounted_forget_iff : h.forget.Accounted ↔ h.opened = ∅ := by
  constructor
  · intro ha
    refine eq_empty_of_forall_notMem fun d hd => ?_
    have heq : (d : Int) = -1 := ha d hd
    omega
  · intro hempty
    exact accounted_of_opened_empty hempty

theorem accounted_create_iff {d : Nat} (hd : d ∉ h.opened) :
    (h.create d).Accounted ↔ h.opened = ∅ := by
  constructor
  · intro ha
    refine eq_empty_of_forall_notMem fun e he => ?_
    have heq : (e : Int) = d := ha e (mem_insert_of_mem he)
    exact hd (Int.natCast_inj.mp heq ▸ he)
  · intro hempty e he
    rw [opened_create, hempty] at he
    rw [current_create, mem_singleton.mp he]

namespace Accounted

variable (ha : h.Accounted)
include ha

theorem opened_empty (hcurrent : h.current < 0) : h.opened = ∅ := by
  refine eq_empty_of_forall_notMem fun d hd => ?_
  have heq := ha d hd
  omega

theorem opened_empty_iff (hlive : h.Live) : h.opened = ∅ ↔ h.current < 0 := by
  constructor
  · intro hempty
    by_contra hcurrent
    have hmem := hlive (not_lt.mp hcurrent)
    rw [hempty] at hmem
    exact notMem_empty _ hmem
  · exact ha.opened_empty

/-- Closing the only open descriptor leaves none open. -/
theorem opened_strip : h.strip.opened = ∅ := by
  by_cases hcurrent : 0 ≤ h.current
  · simp only [strip, if_pos hcurrent]
    refine eq_empty_of_forall_notMem fun d hd => ?_
    obtain ⟨hne, hmem⟩ := mem_erase.mp hd
    have heq := ha d hmem
    omega
  · simp only [strip, if_neg hcurrent]
    exact ha.opened_empty (not_le.mp hcurrent)

theorem card_le_one : h.opened.card ≤ 1 := by
  refine Finset.card_le_one.mpr fun d hd e he => ?_
  exact Int.natCast_inj.mp ((ha d hd).trans (ha e he).symm)

end Accounted

end Holder

end Netstack.Foundation
