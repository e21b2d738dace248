import Mathlib.Data.Fintype.BigOperators

/-!
# Ledgers

A ledger says what is in each of finitely many places. Items are put into a place, taken out
of it and moved from one to another; how often an item is there in all the places together
says whether one was lost or doubled on the way.
-/

namespace Netstack.Foundation

open Function List

/-- The items of each place. -/
abbrev Ledger (κ ι : Type*) := κ → List ι

namespace Ledger

variable {κ ι : Type*} [DecidableEq κ] [DecidableEq ι]

variable (l : Ledger κ ι)

def put (k : κ) (i : ι) : Ledger κ ι := update l k (l k ++ [i])

/-- Put an item into a place where nothing is there twice. -/
def insert (k : κ) (i : ι) : Ledger κ ι := if i ∈ l k then l else l.put k i

def take (k : κ) (i : ι) : Ledger κ ι := update l k ((l k).erase i)

def clear (k : κ) : Ledger κ ι := update l k []

/-- How often an item is there. -/
def total [Fintype κ] (l : Ledger κ ι) (i : ι) : Nat := ∑ k, (l k).count i

variable {l : Ledger κ ι} {k : κ} {i : ι}

theorem insert_of_notMem (h : i ∉ l k) : l.insert k i = l.put k i :=
  if_neg h

theorem insert_of_mem (h : i ∈ l k) : l.insert k i = l :=
  if_pos h

omit [DecidableEq ι] in
@[simp] theorem put_self (l : Ledger κ ι) (k : κ) (i : ι) : l.put k i k = l k ++ [i] :=
  update_self k _ l

variable {k' : κ}

omit [DecidableEq ι] in
theorem put_of_ne (l : Ledger κ ι) (h : k' ≠ k) (i : ι) : l.put k i k' = l k' :=
  update_of_ne h _ l

omit [DecidableEq ι] in
theorem mem_put {j : ι} : j ∈ l.put k i k' ↔ j ∈ l k' ∨ k' = k ∧ j = i := by
  by_cases h : k' = k
  · subst h
    simp
  · simp [put_of_ne l h, h]

theorem mem_insert {j : ι} : j ∈ l.insert k i k' ↔ j ∈ l k' ∨ k' = k ∧ j = i := by
  by_cases h : i ∈ l k
  · rw [insert_of_mem h]
    grind
  · rw [insert_of_notMem h, mem_put]

@[simp] theorem take_self (l : Ledger κ ι) (k : κ) (i : ι) : l.take k i k = (l k).erase i :=
  update_self k _ l

theorem take_of_ne (l : Ledger κ ι) (h : k' ≠ k) (i : ι) : l.take k i k' = l k' :=
  update_of_ne h _ l

omit [DecidableEq ι] in
@[simp] theorem clear_self (l : Ledger κ ι) (k : κ) : l.clear k k = [] :=
  update_self k _ l

omit [DecidableEq ι] in
theorem clear_of_ne (l : Ledger κ ι) (h : k' ≠ k) : l.clear k k' = l k' :=
  update_of_ne h _ l

theorem take_put (l : Ledger κ ι) (h : i ∉ l k) : (l.put k i).take k i = l := by
  rw [take, put_self, put, update_idem, erase_append_right _ h]
  simp

/-- New items that are put into a place one after another are there in this order. -/
theorem foldl_insert {items : List ι} (hnodup : items.Nodup) (hnew : ∀ i ∈ items, i ∉ l k) :
    items.foldl (fun l i => l.insert k i) l = update l k (l k ++ items) := by
  induction items generalizing l with
  | nil => rw [foldl_nil, append_nil, update_eq_self]
  | cons i rest ih =>
    obtain ⟨hfirst, hrest⟩ := nodup_cons.1 hnodup
    have hnew' : ∀ j ∈ rest, j ∉ l.put k i k := by
      intro j hj hmem
      rw [put_self, mem_append, mem_singleton] at hmem
      obtain hold | rfl := hmem
      · exact hnew j (mem_cons_of_mem _ hj) hold
      · exact hfirst hj
    rw [foldl_cons, insert_of_notMem (hnew i mem_cons_self), ih hrest hnew', put_self,
      append_assoc, put, update_idem]
    rfl

variable [Fintype κ]

/-- Other items in one place change the total by as much. -/
theorem total_update (l : Ledger κ ι) (k : κ) (items : List ι) (i : ι) :
    total (update l k items) i + (l k).count i = l.total i + items.count i := by
  have hnew := Finset.add_sum_erase Finset.univ
    (fun k' => (update l k items k').count i) (Finset.mem_univ k)
  have hold := Finset.add_sum_erase Finset.univ (fun k' => (l k').count i) (Finset.mem_univ k)
  have hrest : ∑ k' ∈ Finset.univ.erase k, (update l k items k').count i =
      ∑ k' ∈ Finset.univ.erase k, (l k').count i := by
    apply Finset.sum_congr rfl
    intro k' hk'
    rw [update_of_ne (Finset.ne_of_mem_erase hk')]
  simp only [update_self] at hnew
  unfold total
  omega

theorem total_put (l : Ledger κ ι) (k : κ) (i j : ι) :
    (l.put k i).total j = l.total j + [i].count j := by
  have h := total_update l k (l k ++ [i]) j
  rw [count_append] at h
  unfold put
  omega

theorem total_take (hi : i ∈ l k) (j : ι) : (l.take k i).total j + [i].count j = l.total j := by
  have h := total_update l k ((l k).erase i) j
  have hcount : (l k).count j = ((l k).erase i).count j + [i].count j := by
    rw [(perm_cons_erase hi).count_eq j, count_cons, count_singleton]
  unfold take
  omega

theorem total_clear (l : Ledger κ ι) (k : κ) (j : ι) :
    (l.clear k).total j + (l k).count j = l.total j := by
  have h := total_update l k [] j
  rw [count_nil] at h
  unfold clear
  omega

theorem count_le_total (l : Ledger κ ι) (k : κ) (i : ι) : (l k).count i ≤ l.total i := by
  have h := Finset.add_sum_erase Finset.univ (fun k' => (l k').count i) (Finset.mem_univ k)
  unfold total
  omega

/-- An item that is nowhere twice and in one place is in no other. -/
theorem notMem_of_mem (hl : l.total i ≤ 1) (hk : i ∈ l k) (hne : k' ≠ k) : i ∉ l k' := by
  intro hk'
  have htake := total_take hk i
  have hle := count_le_total (l.take k i) k' i
  rw [take_of_ne l hne] at hle
  have hpos := count_pos_iff.2 hk'
  rw [count_singleton_self] at htake
  omega

theorem notMem_of_total_eq_zero (h : l.total i = 0) (k : κ) : i ∉ l k := by
  intro hk
  have hle := count_le_total l k i
  have hpos := count_pos_iff.2 hk
  omega

theorem nodup_of_total_le (h : ∀ i, l.total i ≤ 1) (k : κ) : (l k).Nodup :=
  nodup_iff_count_le_one.2 fun i => (count_le_total l k i).trans (h i)

end Ledger

end Netstack.Foundation
