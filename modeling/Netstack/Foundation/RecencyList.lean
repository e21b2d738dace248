import Mathlib.Tactic

/-!
# Recency lists with a weight budget

A recency list keeps one entry per key, the most recently used key first. An
insertion moves its key to the front and keeps the longest prefix whose total
weight is within the budget, so what it drops is the shortest sufficient tail.
Nothing here depends on how such a list is stored.
-/

namespace Netstack.Foundation.Recency

open List

variable {K V : Type*}

/-- One entry per key. -/
def KeysNodup (l : List (K × V)) : Prop := (l.map Prod.fst).Nodup

theorem keysNodup_nil : KeysNodup ([] : List (K × V)) := nodup_nil

variable {l : List (K × V)} {r : List (K × V)}

theorem KeysNodup.sublist (h : KeysNodup r) (hs : l.Sublist r) : KeysNodup l :=
  List.Nodup.sublist (hs.map _) h

variable {p : List (K × V)} {e : K × V}

section Weight

variable (w : V → Nat)

/-- The sum of the entries' weights. -/
def total (l : List (K × V)) : Nat := (l.map fun e => w e.2).sum

@[simp] theorem total_nil : total w ([] : List (K × V)) = 0 := rfl

@[simp] theorem total_cons (e : K × V) (l : List (K × V)) :
    total w (e :: l) = w e.2 + total w l := by
  simp [total]

@[simp] theorem total_append (l r : List (K × V)) : total w (l ++ r) = total w l + total w r := by
  simp [total]

theorem total_reverse (l : List (K × V)) : total w l.reverse = total w l := by
  simp [total, sum_reverse]

theorem total_le_of_sublist (h : l.Sublist r) : total w l ≤ total w r :=
  List.Sublist.sum_le_sum (h.map _) (by simp)

variable (b : Nat)

/-- The longest prefix whose total weight is within the budget. -/
def fit (l : List (K × V)) : List (K × V) :=
  l.take (Nat.findGreatest (fun n => total w (l.take n) ≤ b) l.length)

theorem fit_isPrefix (l : List (K × V)) : fit w b l <+: l :=
  take_prefix _ _

theorem total_fit_le (l : List (K × V)) : total w (fit w b l) ≤ b := by
  have h := Nat.findGreatest_spec (P := fun n => total w (l.take n) ≤ b)
    (Nat.zero_le l.length) (by simp)
  exact h

/-- No longer prefix fits: every prefix within the budget is kept. -/
theorem prefix_fit (hp : p <+: l) (hb : total w p ≤ b) : p <+: fit w b l := by
  apply prefix_take_iff.mpr
  refine ⟨hp, Nat.le_findGreatest hp.length_le ?_⟩
  rw [← prefix_iff_eq_take.mp hp]
  exact hb

variable {b}

theorem fit_eq_self (h : total w l ≤ b) : fit w b l = l :=
  (fit_isPrefix w b l).eq_of_length_le (prefix_fit w b prefix_rfl h).length_le

/-- Dropping the last entry of an overweight list loses nothing that fits. -/
theorem fit_concat_of_lt (h : b < total w (l ++ [e])) : fit w b (l ++ [e]) = fit w b l := by
  have hshort : fit w b (l ++ [e]) <+: l := by
    rcases prefix_concat_iff.mp (fit_isPrefix w b (l ++ [e])) with heq | hp
    · have hle := total_fit_le w b (l ++ [e])
      rw [heq] at hle
      omega
    · exact hp
  have hle : fit w b (l ++ [e]) <+: fit w b l :=
    prefix_fit w b hshort (total_fit_le w b _)
  have hge : fit w b l <+: fit w b (l ++ [e]) :=
    prefix_fit w b ((fit_isPrefix w b l).trans (prefix_append _ _)) (total_fit_le w b l)
  exact hle.eq_of_length_le hge.length_le

theorem fit_cons_of_lt (h : b < w e.2) : fit w b (e :: l) = [] := by
  cases hf : fit w b (e :: l) with
  | nil => rfl
  | cons a t =>
    have hle := total_fit_le w b (e :: l)
    have hhead := (hf ▸ fit_isPrefix w b (e :: l) : a :: t <+: e :: l)
    rw [cons_prefix_cons] at hhead
    rw [hf, total_cons, hhead.1] at hle
    omega

end Weight

variable {k : K} {v : V}

section Keys

variable [DecidableEq K]

/-- The value stored under a key. -/
def find (k : K) (l : List (K × V)) : Option V := l.lookup k

/-- Remove every entry of a key. -/
def dropKey (k : K) (l : List (K × V)) : List (K × V) := l.filter fun e => e.1 ≠ k

@[simp] theorem find_nil (k : K) : find k ([] : List (K × V)) = none := rfl

theorem find_cons (k : K) (e : K × V) (l : List (K × V)) :
    find k (e :: l) = if k = e.1 then some e.2 else find k l := by
  unfold find
  grind

theorem find_append (k : K) (l r : List (K × V)) : find k (l ++ r) = (find k l).or (find k r) := by
  simp only [find, lookup_append]

@[simp] theorem dropKey_nil (k : K) : dropKey k ([] : List (K × V)) = [] := rfl

theorem dropKey_sublist (k : K) (l : List (K × V)) : (dropKey k l).Sublist l :=
  filter_sublist

theorem mem_dropKey : e ∈ dropKey k l ↔ e ∈ l ∧ e.1 ≠ k := by
  simp [dropKey]

theorem dropKey_eq_self (h : ∀ e ∈ l, e.1 ≠ k) : dropKey k l = l := by
  apply filter_eq_self.mpr
  intro e he
  simpa using h e he

theorem KeysNodup.cons_dropKey (h : KeysNodup l) (k : K) (v : V) :
    KeysNodup ((k, v) :: dropKey k l) := by
  refine nodup_cons.mpr ⟨?_, h.sublist (dropKey_sublist k l)⟩
  intro hk
  obtain ⟨e, he, hek⟩ := mem_map.mp hk
  exact (mem_dropKey.mp he).2 hek

theorem KeysNodup.find_of_mem (h : KeysNodup l) (hm : (k, v) ∈ l) : find k l = some v := by
  induction l with
  | nil => cases hm
  | cons e t ih =>
    obtain ⟨hnot, ht⟩ := nodup_cons.mp h
    rcases mem_cons.mp hm with heq | hmem
    · rw [find_cons, ← heq, if_pos rfl]
    · have hne : k ≠ e.1 := by
        intro heq
        exact hnot (heq ▸ mem_map_of_mem (f := Prod.fst) hmem)
      rw [find_cons, if_neg hne]
      exact ih ht hmem

theorem mem_of_find (h : find k l = some v) : (k, v) ∈ l := by
  obtain ⟨l₁, l₂, hl, -⟩ := lookup_eq_some_iff.mp h
  rw [hl]
  simp

theorem find_eq_none_iff : find k l = none ↔ ∀ e ∈ l, e.1 ≠ k := by
  unfold find
  grind

theorem find_of_isPrefix (hp : p <+: l) (h : find k p = some v) : find k l = some v := by
  obtain ⟨t, rfl⟩ := hp
  rw [find_append, h, Option.some_or]

theorem find_dropKey (j k : K) (l : List (K × V)) :
    find j (dropKey k l) = if j = k then none else find j l := by
  induction l with
  | nil => simp
  | cons e t ih =>
    by_cases hek : e.1 = k
    · have hd : dropKey k (e :: t) = dropKey k t := by simp [dropKey, hek]
      rw [hd, ih]
      by_cases hjk : j = k
      · simp [hjk]
      · have hje : j ≠ e.1 := by rw [hek]; exact hjk
        rw [find_cons, if_neg hje]
    · have hd : dropKey k (e :: t) = e :: dropKey k t := by simp [dropKey, hek]
      rw [hd, find_cons, find_cons, ih]
      grind

/-- The weight of a stored key splits off from the rest of the list. -/
theorem KeysNodup.total_eq_of_find (w : V → Nat) (h : KeysNodup l) (hl : find k l = some v) :
    total w l = w v + total w (dropKey k l) := by
  induction l with
  | nil => simp at hl
  | cons e t ih =>
    obtain ⟨hnot, ht⟩ := nodup_cons.mp h
    by_cases hke : k = e.1
    · rw [find_cons, if_pos hke] at hl
      have hv : e.2 = v := by simpa using hl
      have hrest : dropKey k t = t := by
        apply dropKey_eq_self
        grind
      have hd : dropKey k (e :: t) = dropKey k t := by simp [dropKey, hke]
      rw [hd, hrest, total_cons, hv]
    · rw [find_cons, if_neg hke] at hl
      have hd : dropKey k (e :: t) = e :: dropKey k t := by
        simp [dropKey, Ne.symm hke]
      rw [hd, total_cons, total_cons, ih ht hl]
      omega

end Keys

variable {a : K × V} {es : List (K × V)}

section Runs

variable [DecidableEq K] (w : V → Nat) (b : Nat)

/-- Insert or overwrite a key: it becomes the most recent entry. -/
def put (l : List (K × V)) (e : K × V) : List (K × V) := fit w b (e :: dropKey e.1 l)

/-- Use a key: a stored entry becomes the most recent one. -/
def touch (k : K) (l : List (K × V)) : List (K × V) :=
  match find k l with
  | some v => (k, v) :: dropKey k l
  | none => l

/-- A sequence of insertions, oldest first. -/
def putAll (l : List (K × V)) (es : List (K × V)) : List (K × V) := es.foldl (put w b) l

/-- The value most recently written under a key. -/
def lastValue (es : List (K × V)) (k : K) : Option V := find k es.reverse

/-- The recency list of a sequence of insertions before any budget is applied. -/
def recents (es : List (K × V)) : List (K × V) :=
  es.foldl (fun l e => e :: dropKey e.1 l) []

@[simp] theorem putAll_nil (l : List (K × V)) : putAll w b l [] = l := rfl

theorem putAll_concat (l es : List (K × V)) (e : K × V) :
    putAll w b l (es ++ [e]) = put w b (putAll w b l es) e := by
  simp [putAll]

@[simp] theorem recents_nil : recents ([] : List (K × V)) = [] := rfl

theorem recents_concat (es : List (K × V)) (e : K × V) :
    recents (es ++ [e]) = e :: dropKey e.1 (recents es) := by
  simp [recents]

theorem lastValue_concat (es : List (K × V)) (e : K × V) (k : K) :
    lastValue (es ++ [e]) k = if k = e.1 then some e.2 else lastValue es k := by
  rw [lastValue, reverse_append, reverse_singleton, singleton_append,
    find_cons, lastValue]

theorem lastValue_append (es fs : List (K × V)) (k : K) :
    lastValue (es ++ fs) k = (lastValue fs k).or (lastValue es k) := by
  rw [lastValue, reverse_append, find_append, lastValue, lastValue]

theorem put_keysNodup (h : KeysNodup l) (e : K × V) : KeysNodup (put w b l e) :=
  (h.cons_dropKey e.1 e.2).sublist (fit_isPrefix w b _).sublist

theorem putAll_keysNodup (h : KeysNodup l) (es : List (K × V)) : KeysNodup (putAll w b l es) := by
  induction es using reverseRecOn with
  | nil => exact h
  | append_singleton es e ih =>
    rw [putAll_concat]
    exact put_keysNodup w b ih e

theorem find_touch (j k : K) (l : List (K × V)) : find j (touch k l) = find j l := by
  unfold touch
  grind [find_cons, find_dropKey]

theorem mem_touch (h : a ∈ touch k l) : a ∈ l := by
  unfold touch at h
  cases hk : find k l with
  | none => simpa [hk] using h
  | some v =>
    rw [hk] at h
    rcases mem_cons.mp h with rfl | hl
    · exact mem_of_find hk
    · exact (mem_dropKey.mp hl).1

theorem lastValue_reverse (l : List (K × V)) (k : K) : lastValue l.reverse k = find k l := by
  rw [lastValue, reverse_reverse]

theorem mem_put (h : a ∈ put w b l e) : a = e ∨ a ∈ l := by
  rcases mem_cons.mp ((fit_isPrefix w b _).subset h) with rfl | hl
  · exact Or.inl rfl
  · exact Or.inr (mem_dropKey.mp hl).1

/-- Nothing is stored that was not stored before or put. -/
theorem mem_putAll (h : a ∈ putAll w b l es) : a ∈ l ∨ a ∈ es := by
  induction es using reverseRecOn with
  | nil => exact Or.inl h
  | append_singleton es e ih =>
    grind [putAll_concat, mem_put]

theorem find_recents (es : List (K × V)) (k : K) : find k (recents es) = lastValue es k := by
  induction es using reverseRecOn with
  | nil => rfl
  | append_singleton es e ih =>
    rw [recents_concat, lastValue_concat, find_cons, find_dropKey, ih]
    grind

/-- One insertion leaves every surviving value as it was, apart from its own key. -/
theorem find_put (h : find k (put w b l e) = some v) :
    if k = e.1 then v = e.2 else find k l = some v := by
  have hl := find_of_isPrefix (fit_isPrefix w b _) h
  by_cases hk : k = e.1
  · rw [if_pos hk]
    rw [find_cons, if_pos hk] at hl
    exact (Option.some.inj hl).symm
  · rw [if_neg hk]
    rw [find_cons, if_neg hk, find_dropKey, if_neg hk] at hl
    exact hl

/-- After a sequence of insertions a surviving value is the last one written
under its key, or was there before and not written again. -/
theorem find_putAll (h : find k (putAll w b l es) = some v) :
    lastValue es k = some v ∨ (lastValue es k = none ∧ find k l = some v) := by
  induction es using reverseRecOn with
  | nil => exact Or.inr ⟨rfl, h⟩
  | append_singleton es e ih =>
    rw [putAll_concat] at h
    have hp := find_put w b h
    rw [lastValue_concat]
    grind

/-- An insertion is found again exactly when it fits alone. -/
theorem find_put_self (l : List (K × V)) (k : K) (v : V) :
    find k (put w b l (k, v)) = if w v ≤ b then some v else none := by
  by_cases hfits : w v ≤ b
  · have hhead : [(k, v)] <+: put w b l (k, v) :=
      prefix_fit w b (prefix_append [(k, v)] _) (by simpa [total] using hfits)
    rw [if_pos hfits]
    exact find_of_isPrefix hhead (by simp [find_cons])
  · rw [if_neg hfits, put, fit_cons_of_lt w (not_le.mp hfits), find_nil]

/-- An insertion that uses up the budget leaves no other key. -/
theorem find_put_of_full {j : K} (hfull : b ≤ w v)
    (hpos : ∀ e ∈ l, 0 < w e.2) (hjk : j ≠ k) : find j (put w b l (k, v)) = none := by
  have hpre := fit_isPrefix w b ((k, v) :: dropKey k l)
  have htotal := total_fit_le w b ((k, v) :: dropKey k l)
  unfold put
  cases hkept : fit w b ((k, v) :: dropKey k l) with
  | nil => rfl
  | cons a t =>
    rw [hkept, cons_prefix_cons] at hpre
    rw [hkept, total_cons, hpre.1] at htotal
    rw [hpre.1, find_cons, if_neg hjk]
    cases hfind : find j t with
    | none => rfl
    | some u =>
      have hmem := mem_of_find hfind
      have hle := total_le_of_sublist w (singleton_sublist.mpr hmem)
      grind [dropKey_sublist, total_cons, total_nil]

/-- One more write keeps the values written so far in front, if they fit together. -/
theorem recents_prefix_put (h : recents es <+: l)
    (hb : total w (recents (es ++ [e])) ≤ b) : recents (es ++ [e]) <+: put w b l e := by
  apply prefix_fit _ _ _ hb
  rw [recents_concat]
  exact cons_prefix_cons.mpr ⟨rfl, h.filter _⟩

/-- While the values written so far fit together, none of them is evicted. -/
theorem recents_prefix_putAll (l es : List (K × V))
    (h : ∀ p, p <+: es → total w (recents p) ≤ b) : recents es <+: putAll w b l es := by
  induction es using reverseRecOn with
  | nil => exact nil_prefix
  | append_singleton es e ih =>
    have hrec := ih fun p hp => h p (hp.trans (prefix_append _ _))
    rw [putAll_concat]
    exact recents_prefix_put w b hrec (h _ prefix_rfl)

/-- Into an empty list, values that fit together are stored exactly. -/
theorem putAll_nil_eq_recents (es : List (K × V))
    (h : ∀ p, p <+: es → total w (recents p) ≤ b) : putAll w b [] es = recents es := by
  induction es using reverseRecOn with
  | nil => rfl
  | append_singleton es e ih =>
    have hrec := ih fun p hp => h p (hp.trans (prefix_append _ _))
    have hall := h _ prefix_rfl
    rw [recents_concat] at hall
    rw [putAll_concat, recents_concat, hrec]
    exact fit_eq_self w hall

theorem recents_reverse (h : KeysNodup l) : recents l.reverse = l := by
  induction l with
  | nil => rfl
  | cons e t ih =>
    obtain ⟨hnot, ht⟩ := nodup_cons.mp h
    rw [reverse_cons, recents_concat, ih ht]
    congr 1
    apply dropKey_eq_self
    intro a ha hae
    exact hnot (hae ▸ mem_map_of_mem (f := Prod.fst) ha)

theorem total_recents_le (es : List (K × V)) : total w (recents es) ≤ total w es := by
  induction es using reverseRecOn with
  | nil => simp
  | append_singleton es e ih =>
    rw [recents_concat, total_cons, total_append, total_cons, total_nil]
    have hd := total_le_of_sublist w (dropKey_sublist e.1 (recents es))
    omega

/-- Values whose weights sum to at most the budget fit at every moment. -/
theorem total_recents_prefix_le (h : total w es ≤ b) (hp : p <+: es) : total w (recents p) ≤ b :=
  calc
    total w (recents p) ≤ total w p := total_recents_le w p
    _ ≤ total w es := total_le_of_sublist w hp.sublist
    _ ≤ b := h

/-- Putting back the entries of a list that fits, last one first, stores it in front. -/
theorem prefix_putAll_reverse (m : List (K × V)) (hkeys : KeysNodup l)
    (hb : total w l ≤ b) : l <+: putAll w b m l.reverse := by
  have hprefix := recents_prefix_putAll w b m l.reverse fun p hp =>
    total_recents_prefix_le w b ((total_reverse w l).trans_le hb) hp
  rwa [recents_reverse hkeys] at hprefix

theorem putAll_reverse (hkeys : KeysNodup l) (hb : total w l ≤ b) :
    putAll w b [] l.reverse = l := by
  have hall := putAll_nil_eq_recents w b l.reverse fun p hp =>
    total_recents_prefix_le w b ((total_reverse w l).trans_le hb) hp
  rwa [recents_reverse hkeys] at hall

/-- A list within the budget stays within it. -/
theorem total_putAll_le (hb : total w l ≤ b) (es : List (K × V)) :
    total w (putAll w b l es) ≤ b := by
  induction es using reverseRecOn with
  | nil => exact hb
  | append_singleton es e ih =>
    rw [putAll_concat]
    exact total_fit_le w b _

theorem recents_cons (h : lastValue es e.1 = none) : recents (e :: es) = recents es ++ [e] := by
  induction es using reverseRecOn with
  | nil => rfl
  | append_singleton es a ih =>
    rw [lastValue_concat] at h
    have hne : e.1 ≠ a.1 := by grind
    rw [if_neg hne] at h
    rw [← cons_append, recents_concat, ih h, recents_concat, cons_append]
    simp [dropKey, filter_append, hne]

/-- A value that fits with what is put after it is behind all of that. -/
theorem recents_prefix_putAll_cons (l : List (K × V)) (h : lastValue es e.1 = none)
    (hfits : ∀ p, p <+: es → w e.2 + total w (recents p) ≤ b) :
    recents es ++ [e] <+: putAll w b l (e :: es) := by
  rw [← recents_cons h]
  refine recents_prefix_putAll w b l (e :: es) fun p hp => ?_
  rcases prefix_cons_iff.mp hp with rfl | ⟨q, rfl, rest, rfl⟩
  · exact Nat.zero_le b
  · rw [lastValue_append, Option.or_eq_none_iff] at h
    have hle := hfits q (prefix_append q rest)
    rw [recents_cons h.2, total_append, total_cons, total_nil]
    omega

/-- A value is kept exactly if it fits with what is put after it, at every moment. -/
theorem find_putAll_cons_iff (l : List (K × V)) (h : lastValue es e.1 = none) :
    find e.1 (putAll w b l (e :: es)) = some e.2 ↔
      ∀ p, p <+: es → w e.2 + total w (recents p) ≤ b := by
  refine ⟨fun hfind => ?_, fun hfits => ?_⟩
  · induction es using reverseRecOn with
    | nil =>
      intro p hp
      have hself := (find_put_self w b l e.1 e.2).symm.trans hfind
      rw [prefix_nil.mp hp]
      grind [recents_nil, total_nil]
    | append_singleton es a ih =>
      have hback := h
      rw [lastValue_concat] at hback
      have hne : e.1 ≠ a.1 := by grind
      rw [if_neg hne] at hback
      rw [← cons_append, putAll_concat] at hfind
      have hput := find_put w b hfind
      rw [if_neg hne] at hput
      have hfits := ih hback hput
      have hfront : recents (es ++ [a]) ++ [e] <+: a :: dropKey a.1 (putAll w b l (e :: es)) := by
        rw [← recents_cons h, ← cons_append, recents_concat, recents_cons hback]
        exact cons_prefix_cons.mpr
          ⟨rfl, (recents_prefix_putAll_cons w b l hback hfits).filter _⟩
      have hkept : recents (es ++ [a]) ++ [e] <+: put w b (putAll w b l (e :: es)) a := by
        rcases prefix_or_prefix_of_prefix hfront (fit_isPrefix w b _) with hle | hlt
        · exact hle
        · rcases prefix_concat_iff.mp hlt with heq | hshort
          · exact heq ▸ prefix_rfl
          · have hfound := find_of_isPrefix hshort hfind
            rw [find_recents, h] at hfound
            cases hfound
      intro p hp
      rcases prefix_concat_iff.mp hp with rfl | hp
      · have hle := (total_le_of_sublist w hkept.sublist).trans (total_fit_le w b _)
        rw [total_append, total_cons, total_nil] at hle
        omega
      · exact hfits p hp
  · refine find_of_isPrefix (recents_prefix_putAll_cons w b l h hfits) ?_
    rw [find_append, find_recents, h, find_cons, if_pos rfl]
    rfl

/-- Every value fits in the budget with what is put after its last put, at every moment. -/
def KeepsLast : List (K × V) → Prop
  | [] => True
  | e :: es => (lastValue es e.1 = none → ∀ p, p <+: es → w e.2 + total w (recents p) ≤ b) ∧
      KeepsLast es

/-- The last value of every key is kept exactly if all of them fit so. -/
theorem keepsLast_iff (l es : List (K × V)) :
    (∀ k v, lastValue es k = some v → find k (putAll w b l es) = some v) ↔ KeepsLast w b es := by
  induction es generalizing l with
  | nil => simp [KeepsLast, lastValue]
  | cons e es ih =>
    have hlast : ∀ k, lastValue (e :: es) k =
        (lastValue es k).or (if k = e.1 then some e.2 else none) := by
      intro k
      rw [← singleton_append, lastValue_append]
      exact congrArg _ (find_cons k e [])
    rw [KeepsLast, ← ih (put w b l e)]
    constructor
    · intro hall
      refine ⟨fun hnone => (find_putAll_cons_iff w b l hnone).mp (hall e.1 e.2 ?_),
        fun k v hv => ?_⟩
      · rw [hlast, hnone, if_pos rfl]
        rfl
      · exact hall k v (by rw [hlast, hv]; rfl)
    · rintro ⟨hfirst, hrest⟩ k v hv
      rw [hlast] at hv
      rcases Option.or_eq_some_iff.mp hv with hv | ⟨hnone, hv⟩
      · exact hrest k v hv
      · obtain ⟨rfl, rfl⟩ : k = e.1 ∧ e.2 = v := by grind
        exact (find_putAll_cons_iff w b l hnone).mpr (hfirst hnone)

end Runs

end Netstack.Foundation.Recency
