import Mathlib.Logic.Function.Basic

/-!
# Rosters

Members have an address each, and a list has an entry for each of them under a name that the member
determines. The list is exact if every member has its entry and no entry is left of a member that is
gone.

## Implementation notes

An address may be used again, so a member may enter only if nothing is left behind under it.
-/

namespace Netstack.Foundation

open Function Option

@[ext]
structure Roster (ν κ γ : Type*) where
  entries : ν → Option (κ × γ)
  members : κ → Option γ

namespace Roster

variable {ν κ γ : Type*} {name : γ → ν} {r : Roster ν κ γ}

/-- Every member has its entry, and an entry with the address of a member is that of the member. -/
structure Lists (r : Roster ν κ γ) (name : γ → ν) : Prop where
  listed : ∀ k g, r.members k = some g → r.entries (name g) = some (k, g)
  named : ∀ n k g g', r.entries n = some (k, g') → r.members k = some g → g' = g ∧ n = name g

/-- No entry is left of a member that is gone. -/
def Fresh (r : Roster ν κ γ) : Prop :=
  ∀ n k g, r.entries n = some (k, g) → (r.members k).isSome = true

theorem Lists.exact (h : r.Lists name) (hfresh : r.Fresh) (n : ν) (k : κ) (g : γ) :
    r.entries n = some (k, g) ↔ r.members k = some g ∧ n = name g := by
  constructor
  · intro hentry
    obtain ⟨g', hg'⟩ := isSome_iff_exists.mp (hfresh n k g hentry)
    obtain ⟨rfl, hn⟩ := h.named n k g' g hentry hg'
    exact ⟨hg', hn⟩
  · rintro ⟨hmember, rfl⟩
    exact h.listed k g hmember

variable [DecidableEq ν] [DecidableEq κ]

def enter (r : Roster ν κ γ) (n : ν) (k : κ) (g : γ) : Roster ν κ γ where
  entries := update r.entries n (some (k, g))
  members := update r.members k (some g)

/-- A member is gone, and an entry is removed. -/
def leave (r : Roster ν κ γ) (n : ν) (k : κ) : Roster ν κ γ where
  entries := update r.entries n none
  members := update r.members k none

/-- A member is gone, and the list stays as it is. -/
def forget (r : Roster ν κ γ) (k : κ) : Roster ν κ γ where
  entries := r.entries
  members := update r.members k none

omit [DecidableEq ν] in
theorem member_of_update {members : κ → Option γ} {k k' : κ} {g : γ}
    (h : update members k none k' = some g) : k' ≠ k ∧ members k' = some g := by
  grind

theorem Lists.enter (h : r.Lists name) (hfresh : r.Fresh) {k : κ} {g : γ}
    (habsent : r.members k = none) (hfree : r.entries (name g) = none) :
    (r.enter (name g) k g).Lists name := by
  refine ⟨?_, ?_⟩
  · intro k' g' hmember
    by_cases hk : k' = k
    · rw [hk] at hmember ⊢
      obtain rfl : g = g' := some.inj ((update_self k _ _).symm.trans hmember)
      exact update_self (name g) _ _
    · have hold : r.members k' = some g' := (update_of_ne hk _ _).symm.trans hmember
      have hentry := h.listed k' g' hold
      have hne : name g' ≠ name g := by
        intro heq
        rw [heq, hfree] at hentry
        cases hentry
      exact (update_of_ne hne _ _).trans hentry
  · intro n k' g' g'' hentry hmember
    by_cases hn : n = name g
    · rw [hn] at hentry ⊢
      have hpair := some.inj ((update_self (name g) _ _).symm.trans hentry)
      obtain ⟨rfl, rfl⟩ := Prod.mk.inj hpair
      obtain rfl : g = g' := some.inj ((update_self k _ _).symm.trans hmember)
      exact ⟨rfl, rfl⟩
    · have hold : r.entries n = some (k', g'') := (update_of_ne hn _ _).symm.trans hentry
      have hk : k' ≠ k := by
        rintro rfl
        have hthere := hfresh n k' g'' hold
        rw [habsent] at hthere
        cases hthere
      exact h.named n k' g' g'' hold ((update_of_ne hk _ _).symm.trans hmember)

theorem Fresh.enter (h : r.Fresh) (n : ν) (k : κ) (g : γ) : (r.enter n k g).Fresh := by
  intro n' k' g' hentry
  by_cases hk : k' = k
  · simp [Roster.enter, hk]
  · have hold : r.entries n' = some (k', g') := by
      by_cases hn : n' = n
      · rw [hn] at hentry
        have hpair := some.inj ((update_self n _ _).symm.trans hentry)
        exact absurd (Prod.mk.inj hpair).1.symm hk
      · exact (update_of_ne hn _ _).symm.trans hentry
    simpa [Roster.enter, hk] using h n' k' g' hold

/-- The entry that is removed must not be that of another member. -/
theorem Lists.leave (h : r.Lists name) {n : ν} {k : κ}
    (hn : ∀ k' g, r.members k' = some g → n = name g → k' = k) : (r.leave n k).Lists name := by
  refine ⟨?_, ?_⟩
  · intro k' g hmember
    obtain ⟨hk, hold⟩ := member_of_update hmember
    have hne : name g ≠ n := fun heq => hk (hn k' g hold heq.symm)
    exact (update_of_ne hne _ _).trans (h.listed k' g hold)
  · intro n' k' g g' hentry hmember
    exact h.named n' k' g g' (member_of_update hentry).2 (member_of_update hmember).2

/-- The entry that is removed must be the only one with the address of the member. -/
theorem Fresh.leave (h : r.Fresh) {n : ν} {k : κ}
    (hn : ∀ n' g, r.entries n' = some (k, g) → n' = n) : (r.leave n k).Fresh := by
  intro n' k' g hentry
  obtain ⟨hne, hold⟩ := member_of_update hentry
  have hk : k' ≠ k := by
    rintro rfl
    exact hne (hn n' g hold)
  simpa [Roster.leave, hk] using h n' k' g hold

omit [DecidableEq ν] in
theorem Lists.forget (h : r.Lists name) (k : κ) : (r.forget k).Lists name := by
  refine ⟨?_, ?_⟩
  · exact fun k' g hmember => h.listed k' g (member_of_update hmember).2
  · exact fun n k' g g' hentry hmember => h.named n k' g g' hentry (member_of_update hmember).2

end Roster

end Netstack.Foundation
