import Mathlib.Tactic

/-!
# Finite maps

Lookups after an update, with the comparison of keys read as equality, and the
map collected from a list of pairs.
-/

namespace Netstack.Foundation.FiniteMaps

open List Std.ExtTreeMap

variable {K V : Type} [Ord K] [Std.TransOrd K]

variable (l : List (K × V))

/-- Assign the pairs of a list in order. -/
def collect : Std.ExtTreeMap K V :=
  l.foldl (fun m p => m.insert p.1 p.2) ∅

theorem collect_concat (p : K × V) : collect (l ++ [p]) = (collect l).insert p.1 p.2 := by
  simp [collect]

variable [Std.LawfulEqOrd K] [DecidableEq K] (m : Std.ExtTreeMap K V)

theorem getElem?_insert (k a : K) (v : V) :
    (m.insert k v)[a]? = if a = k then some v else m[a]? := by
  grind

theorem getElem?_erase (k a : K) :
    (m.erase k)[a]? = if a = k then none else m[a]? := by
  grind

/-- Erasing a key that was just inserted into a map without it. -/
theorem erase_insert_of_none {m : Std.ExtTreeMap K V} {k : K} (v : V) (h : m[k]? = none) :
    (m.insert k v).erase k = m := by
  apply Std.ExtTreeMap.ext_getElem?
  intro a
  rw [getElem?_erase, getElem?_insert]
  by_cases ha : a = k
  · rw [if_pos ha, ha, h]
  · rw [if_neg ha, if_neg ha]

/-- Pairs that are assigned to a map hide what was there. -/
theorem getElem?_foldl_insert (k : K) :
    (l.foldl (fun m p => m.insert p.1 p.2) m)[k]? = (collect l)[k]?.or m[k]? := by
  induction l using reverseRecOn with
  | nil => simp [collect]
  | append_singleton l p ih =>
    rw [collect_concat, foldl_append, foldl_cons, foldl_nil, getElem?_insert,
      getElem?_insert, ih]
    grind

variable {l}

theorem mem_of_getElem?_collect {k : K} {v : V}
    (h : (collect l)[k]? = some v) : (k, v) ∈ l := by
  induction l using reverseRecOn with
  | nil => simp [collect] at h
  | append_singleton l p ih =>
    rw [collect_concat, getElem?_insert] at h
    grind

theorem exists_getElem?_collect {p : K × V} (h : p ∈ l) : ∃ v, (collect l)[p.1]? = some v := by
  induction l using reverseRecOn with
  | nil => cases h
  | append_singleton l q ih =>
    rw [collect_concat, getElem?_insert]
    by_cases hq : p.1 = q.1
    · exact ⟨q.2, if_pos hq⟩
    grind

/-- Collecting the pairs of a map in any order gives the map back. -/
theorem collect_of_perm {m : Std.ExtTreeMap K V} (h : l.Perm m.toList) : collect l = m := by
  have hdistinct : l.Pairwise fun a b => ¬ compare a.1 b.1 = .eq :=
    (h.pairwise_iff fun {a b} hab hba => hab (Std.OrientedCmp.eq_symm hba)).mpr
      distinct_keys_toList
  have hcollect : collect l = ofList l compare :=
    ofList_eq_foldl.symm
  apply Std.ExtTreeMap.ext_getElem?
  intro k
  rw [hcollect]
  cases hk : m[k]? with
  | some v =>
    have hmem : (k, v) ∈ l :=
      h.mem_iff.mpr (mem_toList_iff_getElem?_eq_some.mpr hk)
    exact getElem?_ofList_of_mem Std.ReflCmp.compare_self hdistinct hmem
  | none =>
    grind

end Netstack.Foundation.FiniteMaps
