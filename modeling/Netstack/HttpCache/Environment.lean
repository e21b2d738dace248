import Netstack.Foundation.ByteStrings
import Mathlib.Tactic

/-!
# What the C++ library leaves open

The response cache exists twice in the sources, under `Http` for the JS API and under `HttpClient`
for the native API. The two copies differ in a few functions only.

The order in which a `for` loop visits an unordered map is not specified, and neither is the order
`std::sort` gives to equivalent elements. Both choices are parameters here.
-/

namespace Netstack.HttpCache

open Foundation

/-- Which of the two source copies a function is taken from. -/
inductive Copy where
  | http
  | httpClient
  deriving DecidableEq, Repr

abbrev ValueMap := Std.ExtTreeMap Bytes Bytes

/-- The unspecified choices of the C++ library, with the promises about them. -/
structure Runtime where
  iterate : ValueMap → List (Bytes × Bytes)
  iterate_perm : ∀ m, (iterate m).Perm m.toList
  sort : {α : Type} → (α → α → Bool) → List α → List α
  sort_perm : ∀ {α : Type} (lt : α → α → Bool) (l : List α), (sort lt l).Perm l
  sort_sorted : ∀ {α : Type} (lt : α → α → Bool) (l : List α),
    IsStrictWeakOrder α (fun a b => lt a b = true) →
      (sort lt l).Pairwise fun a b => lt b a = false

theorem not_lt_trans_of_weakOrder {α : Type} {lt : α → α → Bool}
    (h : IsStrictWeakOrder α (fun a b => lt a b = true)) {a b c : α}
    (hab : lt b a = false) (hbc : lt c b = false) : lt c a = false := by
  by_contra hca
  grind [@h.trans, @h.incomp_trans]

/-- One admissible choice: maps are visited in key order, sorting is insertion sort. -/
def Runtime.ordered : Runtime where
  iterate := fun m => m.toList
  iterate_perm := fun _ => List.Perm.rfl
  sort := fun lt l => l.insertionSort fun a b => lt b a = false
  sort_perm := fun lt l => List.perm_insertionSort _ l
  sort_sorted := by
    intro α lt l h
    have : Std.Total (fun a b : α => lt b a = false) := ⟨by
      intro a b
      by_contra hboth
      rw [not_or] at hboth
      have hba : lt b a = true := by simpa using hboth.1
      have hab : lt a b = true := by simpa using hboth.2
      exact h.irrefl a (h.trans a b a hab hba)⟩
    have : IsTrans α (fun a b : α => lt b a = false) :=
      ⟨fun _ _ _ hab hbc => not_lt_trans_of_weakOrder h hab hbc⟩
    exact List.pairwise_insertionSort _ l

end Netstack.HttpCache
