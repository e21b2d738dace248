import Mathlib.Tactic

/-!
# Times in a sliding window

A list of times is sparse if no period of a given length has more than a given number of them.
Times that come in order have to be looked at only when they come: the new time must find few
enough of the others in the period that ends with it.
-/

namespace Netstack.Foundation

open List

/-- At most `n` of the times are in any period of length `d`. -/
def Sparse (n d : Nat) (times : List Nat) : Prop :=
  ∀ start, times.countP (fun u => start ≤ u ∧ u < start + d) ≤ n

/-- The times in the period of length `d` that ends with `t`. -/
def recent (d : Nat) (times : List Nat) (t : Nat) : Nat := times.countP fun u => t < u + d

variable {n d : Nat} {times : List Nat} {t start : Nat}

theorem sparse_nil : Sparse n d [] := fun _ => Nat.zero_le n

theorem countP_period_le_recent (times : List Nat) (hstart : t < start + d) :
    times.countP (fun u => start ≤ u ∧ u < start + d) ≤ recent d times t := by
  apply countP_mono_left
  intro u _ hu
  have hbegin := (of_decide_eq_true hu).1
  exact decide_eq_true (by omega)

/-- The period that ends with the last time. -/
theorem recent_eq_countP_period (hlast : ∀ u ∈ times, u ≤ t) :
    recent d times t = times.countP fun u => t + 1 - d ≤ u ∧ u < t + 1 - d + d := by
  apply countP_congr
  intro u hu
  have hle := hlast u hu
  simp only [decide_eq_true_eq]
  omega

theorem sparse_append_iff (hd : 0 < d) (hlast : ∀ u ∈ times, u ≤ t) :
    Sparse n d (times ++ [t]) ↔ Sparse n d times ∧ recent d times t < n := by
  constructor
  · intro h
    refine ⟨fun start => ?_, ?_⟩
    · have hall := h start
      rw [countP_append] at hall
      omega
    · have hall := h (t + 1 - d)
      rw [countP_append, ← recent_eq_countP_period hlast, countP_singleton,
        if_pos (decide_eq_true (by omega))] at hall
      exact hall
  · rintro ⟨hsparse, hrecent⟩ start
    rw [countP_append, countP_singleton]
    split
    · rename_i hin
      have hperiod := countP_period_le_recent times (of_decide_eq_true hin).2
      omega
    · exact hsparse start

/-- Every time is in the period or before a later beginning of it. -/
theorem recent_eq_add (times : List Nat) (hstart : t < start + d) :
    recent d times t =
      times.countP (fun u => start ≤ u) + times.countP (fun u => u < start ∧ t < u + d) := by
  induction times with
  | nil => rfl
  | cons u times ih =>
    unfold recent at ih ⊢
    grind

/-- When the period has gone by, its beginning is no longer recent. -/
theorem recent_lt_countP (hstart : start ∈ times) :
    recent d times (start + d) < times.countP fun u => start ≤ u := by
  obtain ⟨before, after, rfl⟩ := append_of_mem hstart
  have hmono (l : List Nat) : recent d l (start + d) ≤ l.countP fun u => start ≤ u := by
    apply countP_mono_left
    intro u _ hu
    have hlt := of_decide_eq_true hu
    exact decide_eq_true (by omega)
  have hbefore := hmono before
  have hafter := hmono after
  unfold recent at hbefore hafter ⊢
  grind

end Netstack.Foundation
