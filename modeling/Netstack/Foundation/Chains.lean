import Mathlib.Data.List.GetD
import Netstack.Foundation.RecencyList

/-!
# Hash tables with chains

A table is a list of chains, a chain a list of entries. The hash function says in
which chain a key belongs; it may fail to return. In a table in which every entry
is in the chain of its key and no key occurs twice, looking up a key in its chain
finds exactly what the table has.
-/

namespace Netstack.Foundation.Chains

open Recency List Option

variable {K V : Type*}

/-- Link an entry behind the first one of a chain. -/
def link (e : K × V) : List (K × V) → List (K × V)
  | [] => [e]
  | head :: rest => head :: e :: rest

theorem link_perm (e : K × V) (c : List (K × V)) : (link e c).Perm (e :: c) := by
  cases c with
  | nil => exact List.Perm.refl _
  | cons head rest => exact List.Perm.swap e head rest

section Tables

variable {h : K → Option Nat} {t : List (List (K × V))} {i : Nat} {c : List (K × V)}

def chainAt (t : List (List (K × V))) (i : Nat) : List (K × V) := t.getD i []

/-- The number of chains that are not empty. -/
def occupied (t : List (List (K × V))) : Nat := t.countP fun c => !c.isEmpty

/-- Every entry is in the chain of its key, and no key has two entries. -/
structure Placed (h : K → Option Nat) (t : List (List (K × V))) : Prop where
  home : ∀ i, ∀ e ∈ chainAt t i, h e.1 = some i
  nodup : KeysNodup t.flatten

theorem chainAt_replicate (n i : Nat) : chainAt (List.replicate n ([] : List (K × V))) i = [] := by
  rw [chainAt, getD_eq_getElem?_getD, List.getElem?_replicate]
  split_ifs <;> rfl

theorem chainAt_sublist (t : List (List (K × V))) (i : Nat) : (chainAt t i).Sublist t.flatten := by
  by_cases hi : i < t.length
  · rw [chainAt, getD_eq_getElem _ _ hi]
    exact sublist_flatten_of_mem (getElem_mem hi)
  · rw [chainAt, getD_eq_default _ _ (Nat.le_of_not_lt hi)]
    exact nil_sublist _

theorem Placed.keysNodup_chainAt (hplaced : Placed h t) (i : Nat) : KeysNodup (chainAt t i) :=
  hplaced.nodup.sublist (chainAt_sublist t i)

variable (hi : i < t.length)
include hi

theorem set_chainAt : t.set i (chainAt t i) = t := by
  rw [chainAt, getD_eq_getElem _ _ hi, set_getElem_self]

theorem chainAt_set (j : Nat) : chainAt (t.set i c) j = if j = i then c else chainAt t j := by
  rw [chainAt, chainAt, getD_eq_getElem?_getD, getD_eq_getElem?_getD, List.getElem?_set]
  grind

theorem flatten_set_perm : (t.set i c).flatten.Perm (c ++ (t.eraseIdx i).flatten) := by
  rw [set_eq_take_append_cons_drop, if_pos hi, eraseIdx_eq_take_drop_succ,
    flatten_append, flatten_append, flatten_cons, ← append_assoc,
    ← append_assoc]
  exact perm_append_comm.append_right _

theorem flatten_perm_chainAt : t.flatten.Perm (chainAt t i ++ (t.eraseIdx i).flatten) := by
  have hperm := flatten_set_perm (c := chainAt t i) hi
  rwa [set_chainAt hi] at hperm

/-- A chain is replaced by one with entries of the same place. -/
theorem Placed.set (hplaced : Placed h t) (hhome : ∀ e ∈ c, h e.1 = some i)
    (hnodup : KeysNodup (c ++ (t.eraseIdx i).flatten)) : Placed h (t.set i c) := by
  constructor
  · intro j e he
    grind [chainAt_set, @hplaced.home]
  · exact ((flatten_set_perm hi).map _).nodup_iff.mpr hnodup

theorem occupied_set :
    occupied (t.set i c) + (if (chainAt t i).isEmpty then 0 else 1) =
      occupied t + if c.isEmpty then 0 else 1 := by
  have hset : ∀ c', occupied (t.set i c') =
      occupied (t.eraseIdx i) + if c'.isEmpty then 0 else 1 := by
    intro c'
    rw [occupied, occupied, set_eq_take_append_cons_drop, if_pos hi,
      eraseIdx_eq_take_drop_succ, countP_append, countP_append, countP_cons]
    cases c'.isEmpty with
    | true => rfl
    | false => rw [Nat.add_assoc]; rfl
  have hold := hset (chainAt t i)
  rw [set_chainAt hi] at hold
  rw [hset c, hold]
  omega

theorem occupied_set_eq (hsame : c.isEmpty = (chainAt t i).isEmpty) :
    occupied (t.set i c) = occupied t := by
  have hset := occupied_set (c := c) hi
  rw [hsame] at hset
  exact Nat.add_right_cancel hset

theorem occupied_set_link (e : K × V) :
    occupied (t.set i (link e (chainAt t i))) =
      if (chainAt t i).isEmpty then occupied t + 1 else occupied t := by
  have hset := occupied_set (c := link e (chainAt t i)) hi
  have hlinked : (link e (chainAt t i)).isEmpty = false := by
    cases chainAt t i <;> rfl
  grind

end Tables

variable [DecidableEq K]

/-- Replace the value of the first entry of a key, if there is one. -/
def assign (k : K) (v : V) : List (K × V) → Option (List (K × V))
  | [] => none
  | e :: es => if e.1 = k then some ((e.1, v) :: es) else (assign k v es).map (e :: ·)

/-- Remove the first entry of a key. -/
def unlink (k : K) : List (K × V) → List (K × V)
  | [] => []
  | e :: es => if e.1 = k then es else e :: unlink k es

variable {e : K × V} {c : List (K × V)}

theorem find_link (hnew : find e.1 c = none) (j : K) :
    find j (link e c) = if j = e.1 then some e.2 else find j c := by
  cases c with
  | nil => rw [link, find_cons]
  | cons head rest =>
    have hne : head.1 ≠ e.1 := find_eq_none_iff.mp hnew head mem_cons_self
    rw [link, find_cons, find_cons, find_cons]
    grind

variable {k : K} {v : V}

theorem assign_eq_none_iff : assign k v c = none ↔ find k c = none := by
  induction c with
  | nil => exact ⟨fun _ => rfl, fun _ => rfl⟩
  | cons e es ih =>
    rw [assign, find_cons]
    by_cases he : e.1 = k
    · simp [he]
    · rw [if_neg he, if_neg (Ne.symm he), map_eq_none_iff, ih]

variable {c' : List (K × V)}

section

variable (h : assign k v c = some c')
include h

theorem keys_assign : c'.map Prod.fst = c.map Prod.fst := by
  induction c generalizing c' with
  | nil => cases h
  | cons e es ih =>
    rw [assign] at h
    split_ifs at h with he
    · rw [← some.inj h]
      rfl
    · obtain ⟨es', hes, rfl⟩ := map_eq_some_iff.mp h
      rw [map_cons, map_cons, ih hes]

theorem isEmpty_assign : c'.isEmpty = c.isEmpty := by
  rw [← isEmpty_map (f := Prod.fst), keys_assign h, isEmpty_map]

theorem find_assign (j : K) : find j c' = if j = k then some v else find j c := by
  induction c generalizing c' with
  | nil => cases h
  | cons e es ih =>
    rw [assign] at h
    split_ifs at h with he
    · rw [← some.inj h, find_cons, find_cons, he]
      split_ifs <;> rfl
    · obtain ⟨es', hes, rfl⟩ := map_eq_some_iff.mp h
      rw [find_cons, find_cons, ih hes]
      grind

end

theorem unlink_eq_dropKey (h : KeysNodup c) (k : K) : unlink k c = dropKey k c := by
  induction c with
  | nil => rfl
  | cons e es ih =>
    obtain ⟨hhead, htail⟩ := nodup_cons.mp h
    rw [unlink]
    by_cases he : e.1 = k
    · rw [if_pos he, dropKey, filter_cons_of_neg (by simpa using he)]
      symm
      apply dropKey_eq_self
      grind
    · rw [if_neg he, ih htail, dropKey, dropKey, filter_cons_of_pos (by simpa using he)]

theorem find_unlink (h : KeysNodup c) (k j : K) :
    find j (unlink k c) = if j = k then none else find j c := by
  rw [unlink_eq_dropKey h, find_dropKey]

theorem unlink_sublist (k : K) (c : List (K × V)) : (unlink k c).Sublist c := by
  induction c with
  | nil => exact List.Sublist.refl _
  | cons e es ih =>
    rw [unlink]
    split_ifs
    · exact sublist_cons_self e es
    · exact ih.cons_cons e

section Lookup

variable {h : K → Option Nat} {t : List (List (K × V))} {i : Nat}

/-- What the table has under a key. -/
def content (h : K → Option Nat) (t : List (List (K × V))) (k : K) : Option V :=
  (h k).bind fun i => find k (chainAt t i)

/-- A key is found in its chain exactly with the value the table has for it. -/
theorem Placed.find_eq_some_iff (hplaced : Placed h t) (hk : h k = some i) :
    find k (chainAt t i) = some v ↔ (k, v) ∈ t.flatten := by
  constructor
  · intro hfind
    exact (chainAt_sublist t i).mem (mem_of_find hfind)
  · intro hmem
    obtain ⟨chain, hchain, hin⟩ := mem_flatten.mp hmem
    obtain ⟨j, hj, rfl⟩ := getElem_of_mem hchain
    have hat : (k, v) ∈ chainAt t j := by
      rw [chainAt, getD_eq_getElem _ _ hj]
      exact hin
    have hij : j = i := some.inj ((hplaced.home j _ hat).symm.trans hk)
    rw [hij] at hat
    exact (hplaced.keysNodup_chainAt i).find_of_mem hat

theorem ite_find_content (k : K) :
    (if h k = some i then find k (chainAt t i) else content h t k) = content h t k := by
  split_ifs with hk
  · rw [content, hk]
    rfl
  · rfl

/-- Two tables that place the same entries, each by its own hash function, have the
same content where both functions return. -/
theorem content_eq_of_perm {h' : K → Option Nat} {t' : List (List (K × V))}
    (hplaced : Placed h t) (hplaced' : Placed h' t') (hperm : t'.flatten.Perm t.flatten)
    (hsame : (h k).isSome = (h' k).isSome) : content h' t' k = content h t k := by
  cases hk : h k with
  | none =>
    rw [hk] at hsame
    have hk' : h' k = none :=
      isNone_iff_eq_none.mp (isSome_eq_false_iff.mp hsame.symm)
    rw [content, content, hk, hk']
    rfl
  | some i =>
    rw [hk] at hsame
    obtain ⟨i', hk'⟩ := isSome_iff_exists.mp hsame.symm
    rw [content, content, hk, hk', bind_some, bind_some]
    apply ext
    intro v
    rw [hplaced.find_eq_some_iff hk, hplaced'.find_eq_some_iff hk', hperm.mem_iff]

theorem Placed.notMem_keys (hplaced : Placed h t) (hk : h k = some i)
    (hnew : find k (chainAt t i) = none) : k ∉ t.flatten.map Prod.fst := by
  intro hmem
  obtain ⟨⟨k', v⟩, hin, rfl⟩ := mem_map.mp hmem
  rw [(hplaced.find_eq_some_iff hk).mpr hin] at hnew
  cases hnew

variable (hi : i < t.length)
include hi

theorem content_set (k : K) :
    content h (t.set i c) k = if h k = some i then find k c else content h t k := by
  rw [content, content]
  cases h k with
  | none => rfl
  | some j =>
    rw [bind_some, bind_some, chainAt_set hi]
    grind

theorem content_set_link (hk : h e.1 = some i) (hnew : find e.1 (chainAt t i) = none) (j : K) :
    content h (t.set i (link e (chainAt t i))) j =
      if j = e.1 then some e.2 else content h t j := by
  rw [content_set hi, find_link hnew]
  by_cases hj : j = e.1
  · rw [if_pos hj, if_pos hj, hj, if_pos hk]
  · rw [if_neg hj, if_neg hj, ite_find_content]

theorem content_set_assign (hk : h k = some i)
    (hassign : assign k v (chainAt t i) = some c) (j : K) :
    content h (t.set i c) j = if j = k then some v else content h t j := by
  rw [content_set hi, find_assign hassign]
  by_cases hj : j = k
  · rw [if_pos hj, if_pos hj, hj, if_pos hk]
  · rw [if_neg hj, if_neg hj, ite_find_content]

variable (hplaced : Placed h t)
include hplaced

/-- Linking an entry of a new key. -/
theorem Placed.set_link (hk : h e.1 = some i) (hnew : find e.1 (chainAt t i) = none) :
    Placed h (t.set i (link e (chainAt t i))) ∧
      (t.set i (link e (chainAt t i))).flatten.Perm (e :: t.flatten) := by
  have hchain : (link e (chainAt t i) ++ (t.eraseIdx i).flatten).Perm
      (e :: chainAt t i ++ (t.eraseIdx i).flatten) := (link_perm e _).append_right _
  have hperm : (link e (chainAt t i) ++ (t.eraseIdx i).flatten).Perm (e :: t.flatten) :=
    hchain.trans ((flatten_perm_chainAt hi).symm.cons e)
  constructor
  · apply hplaced.set hi
    · intro d hd
      grind [link_perm, @hplaced.home]
    · apply (hperm.map Prod.fst).nodup_iff.mpr
      exact nodup_cons.mpr ⟨hplaced.notMem_keys hk hnew, hplaced.nodup⟩
  · exact (flatten_set_perm hi).trans hperm

theorem Placed.set_assign (hassign : assign k v (chainAt t i) = some c) : Placed h (t.set i c) := by
  have hkeys := keys_assign hassign
  apply hplaced.set hi
  · intro e he
    have hmem : e.1 ∈ (chainAt t i).map Prod.fst := hkeys ▸ mem_map_of_mem he
    obtain ⟨d, hd, heq⟩ := mem_map.mp hmem
    rw [← heq]
    exact hplaced.home i d hd
  · rw [KeysNodup, map_append, hkeys, ← map_append]
    exact ((flatten_perm_chainAt hi).map _).nodup_iff.mp hplaced.nodup

theorem Placed.set_unlink (k : K) : Placed h (t.set i (unlink k (chainAt t i))) := by
  have hsub := unlink_sublist k (chainAt t i)
  apply hplaced.set hi
  · intro e he
    exact hplaced.home i e (hsub.mem he)
  · have hnodup : KeysNodup (chainAt t i ++ (t.eraseIdx i).flatten) :=
      ((flatten_perm_chainAt hi).map _).nodup_iff.mp hplaced.nodup
    exact hnodup.sublist (hsub.append_right _)

theorem content_set_unlink (hk : h k = some i) (j : K) :
    content h (t.set i (unlink k (chainAt t i))) j = if j = k then none else content h t j := by
  rw [content_set hi, find_unlink (hplaced.keysNodup_chainAt i)]
  by_cases hj : j = k
  · rw [if_pos hj, if_pos hj, hj, if_pos hk]
  · rw [if_neg hj, if_neg hj, ite_find_content]

end Lookup

section Rehash

variable (h : K → Option Nat)

omit [DecidableEq K] in
theorem placed_replicate (n : Nat) : Placed h (List.replicate n ([] : List (K × V))) := by
  constructor
  · intro i e he
    rw [chainAt_replicate] at he
    cases he
  · rw [flatten_replicate_nil]
    exact keysNodup_nil

omit [DecidableEq K] in
theorem occupied_replicate (n : Nat) : occupied (List.replicate n ([] : List (K × V))) = 0 := by
  rw [occupied, countP_eq_zero]
  intro c hc
  rw [eq_of_mem_replicate hc]
  exact Bool.false_ne_true

/-- Put an entry into its chain, counting the chains that were empty before. -/
def place (s : List (List (K × V)) × Nat) (e : K × V) : Option (List (List (K × V)) × Nat) :=
  (h e.1).map fun i =>
    (s.1.set i (link e (chainAt s.1 i)), if (chainAt s.1 i).isEmpty then s.2 + 1 else s.2)

omit [DecidableEq K] in
/-- The count goes on from where it starts. -/
theorem foldlM_place_count (es : List (K × V)) (t : List (List (K × V))) (n : Nat) :
    es.foldlM (place h) (t, n) = (es.foldlM (place h) (t, 0)).map fun r => (r.1, n + r.2) := by
  induction es generalizing t n with
  | nil => rfl
  | cons e es ih =>
    rw [foldlM_cons, foldlM_cons, place, place]
    cases h e.1 with
    | none => rfl
    | some i =>
      simp only [map_some, bind_eq_bind, bind_some, Nat.zero_add]
      cases (chainAt t i).isEmpty with
      | true =>
        rw [if_pos rfl, if_pos rfl, ih _ (n + 1), ih _ 1, Option.map_map]
        congr 1
        funext r
        simp only [Function.comp_apply, Nat.add_assoc]
      | false => exact ih _ n

/-- Entries of different keys, all of them new, are all placed. -/
theorem foldlM_place {n : Nat} (es : List (K × V)) (hrange : ∀ e ∈ es, ∃ i < n, h e.1 = some i)
    {t : List (List (K × V))} (hlength : t.length = n) (hplaced : Placed h t)
    (hnodup : KeysNodup (es ++ t.flatten)) :
    ∃ t', es.foldlM (place h) (t, occupied t) = some (t', occupied t') ∧ t'.length = n ∧
      Placed h t' ∧ t'.flatten.Perm (es ++ t.flatten) := by
  induction es generalizing t with
  | nil => exact ⟨t, rfl, hlength, hplaced, List.Perm.refl _⟩
  | cons e es ih =>
    obtain ⟨i, hi, hk⟩ := hrange e mem_cons_self
    rw [← hlength] at hi
    obtain ⟨hhead, htail⟩ := nodup_cons.mp hnodup
    have hnew : find e.1 (chainAt t i) = none := by
      apply find_eq_none_iff.mpr
      intro d hd heq
      apply hhead
      rw [← heq]
      exact mem_map_of_mem (mem_append_right es ((chainAt_sublist t i).mem hd))
    obtain ⟨hplaced', hperm⟩ := hplaced.set_link hi hk hnew
    have hmiddle : (es ++ (t.set i (link e (chainAt t i))).flatten).Perm
        (e :: es ++ t.flatten) := (hperm.append_left es).trans perm_middle
    have hnodup' : KeysNodup (es ++ (t.set i (link e (chainAt t i))).flatten) :=
      (hmiddle.map Prod.fst).nodup_iff.mpr hnodup
    obtain ⟨t', hrun, hlength', hplaced'', hperm'⟩ := ih
      (fun d hd => hrange d (mem_cons_of_mem e hd)) (by rw [length_set, hlength])
      hplaced' hnodup'
    refine ⟨t', ?_, hlength', hplaced'', hperm'.trans hmiddle⟩
    rw [foldlM_cons, place, hk, map_some, ← occupied_set_link hi e]
    exact hrun

end Rehash

end Netstack.Foundation.Chains
