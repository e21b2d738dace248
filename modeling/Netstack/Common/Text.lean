import Netstack.Foundation.ByteStrings
import Mathlib.Tactic

/-!
# Text utilities

The string functions of `CommonUtils`. `Split` cuts at each occurrence of the
separator from the left and drops an empty last piece; `Strip` removes one
character from both ends.
-/

namespace Netstack.CommonUtils

open Foundation List Option

/-- The text before and after the first occurrence of the separator. -/
def cut (sep : Bytes) : Bytes → Option (Bytes × Bytes)
  | [] => if sep = [] then some ([], []) else none
  | b :: s =>
    if sep <+: b :: s then some ([], (b :: s).drop sep.length)
    else (cut sep s).map fun p => (b :: p.1, p.2)

/-- The loop of `Split`; each round removes at least the separator. -/
def splitLoop (sep : Bytes) : Nat → Bytes → List Bytes
  | 0, _ => []
  | n + 1, s =>
    if s = [] then []
    else
      match cut sep s with
      | none => [s]
      | some (piece, rest) => piece :: splitLoop sep n rest

def split (str sep : Bytes) : List Bytes :=
  if sep = [] then [str] else splitLoop sep str.length str

def strip (str : Bytes) (ch : UInt8) : Bytes :=
  (str.dropWhile (· == ch)).rdropWhile (· == ch)

variable {sep : Bytes} {s : Bytes}

theorem cut_append {p : Bytes × Bytes} (h : cut sep s = some p) : s = p.1 ++ sep ++ p.2 := by
  induction s generalizing p with
  | nil =>
    grind [cut]
  | cons b s ih =>
    simp only [cut] at h
    split at h
    · rename_i hpre
      cases h
      exact (prefix_iff_eq_append.mp hpre).symm
    · obtain ⟨q, hq, rfl⟩ := map_eq_some_iff.mp h
      simp [ih hq]

/-- Rounds beyond the length of the text are not used. -/
theorem splitLoop_eq (hsep : sep ≠ []) {n : Nat} (h : s.length ≤ n) :
    splitLoop sep n s = split s sep := by
  have hpos : 0 < sep.length := length_pos_iff.mpr hsep
  have hmono : ∀ m n s, s.length ≤ m → s.length ≤ n → splitLoop sep m s = splitLoop sep n s := by
    intro m
    induction m with
    | zero =>
      intro n s hm _
      obtain rfl : s = [] := length_eq_zero_iff.mp (Nat.le_zero.mp hm)
      cases n <;> rfl
    | succ m ih =>
      intro n s hm hn
      cases n with
      | zero =>
        grind
      | succ n =>
        simp only [splitLoop]
        split
        · rfl
        · split
          · rfl
          · rename_i piece rest hcut
            have hlen := congrArg length (cut_append hcut)
            grind
  rw [split, if_neg hsep]
  exact hmono n s.length s h le_rfl

theorem split_eq (hsep : sep ≠ []) (s : Bytes) : split s sep = if s = [] then [] else
      match cut sep s with
      | none => [s]
      | some (piece, rest) => piece :: split rest sep := by
  rw [← splitLoop_eq hsep (Nat.le_succ s.length), splitLoop]
  split
  · rfl
  · split
    · rfl
    · rename_i piece rest hcut
      have hlen := congrArg length (cut_append hcut)
      simp only [length_append] at hlen
      rw [splitLoop_eq hsep (by omega)]

variable {front p piece q r rest : Bytes} {x y : UInt8} {t : Bytes}

section Pieces

/-- A separator whose first byte does not occur before is cut where it stands. -/
theorem cut_of_notMem {c : UInt8} (hc : c ∉ front) :
    cut (c :: sep) (front ++ (c :: sep) ++ rest) = some (front, rest) := by
  induction front with
  | nil =>
    have hpre : c :: sep <+: c :: (sep ++ rest) := prefix_append (c :: sep) rest
    have hrest : (c :: (sep ++ rest)).drop (c :: sep).length = rest := drop_left
    simp only [nil_append, cons_append, cut, if_pos hpre, hrest]
  | cons b front ih =>
    have hne : c ≠ b := fun heq => hc (heq ▸ mem_cons_self)
    have hpre : ¬ c :: sep <+: b :: (front ++ (c :: sep) ++ rest) := by
      grind
    simp only [cons_append, cut, if_neg hpre]
    grind

/-- A separator whose first byte is not in its rest is cut where it stands, if it does
not occur before. -/
theorem cut_of_head_notMem (hx : x ∉ sep) (hfront : ¬ x :: sep <:+: front) (rest : Bytes) :
    cut (x :: sep) (front ++ (x :: sep ++ rest)) = some (front, rest) := by
  induction front with
  | nil => simp [cut]
  | cons b front ih =>
    have hnone : ¬ x :: sep <+: b :: (front ++ (x :: sep ++ rest)) := by
      intro hpre
      obtain ⟨rfl, hsep⟩ := cons_prefix_cons.mp hpre
      rcases prefix_or_prefix_of_prefix hsep (prefix_append _ _) with hin | ⟨after, rfl⟩
      · exact hfront ((prefix_cons_inj x).mpr hin).isInfix
      · rw [prefix_append_right_inj] at hsep
        cases after with
        | nil => exact hfront (by simp)
        | cons c after =>
          obtain ⟨rfl, -⟩ := cons_prefix_cons.mp hsep
          exact hx (by simp)
    rw [cons_append, cut, if_neg hnone, ih fun hin => hfront (infix_cons hin)]
    rfl

/-- A separator of two bytes whose second byte does not occur before is cut where it
stands. -/
theorem cut_of_second_notMem (hxy : x ≠ y) (hy : y ∉ front)
    (rest : Bytes) : cut [x, y] (front ++ x :: y :: rest) = some (front, rest) := by
  have hfront : ¬ [x, y] <:+: front := fun hin => hy (hin.subset (by simp))
  exact cut_of_head_notMem (by simpa using hxy) hfront rest

variable {s : Bytes}

theorem cut_eq_none_iff (hsep : sep ≠ []) : cut sep s = none ↔ ¬ sep <:+: s := by
  induction s with
  | nil => simp [cut, hsep]
  | cons b s ih =>
    simp only [cut, infix_cons_iff, not_or]
    split
    · rename_i hpre
      simp [hpre]
    · rename_i hpre
      simp [hpre, ih]

/-- The cut is made at the first occurrence. -/
theorem cut_first (h : cut sep s = some (p, rest))
    (hs : s = q ++ sep ++ r) : p.length ≤ q.length := by
  induction s generalizing p q with
  | nil =>
    simp only [cut] at h
    split at h
    · obtain ⟨rfl, -⟩ := Prod.mk.inj (some.inj h)
      exact Nat.zero_le _
    · cases h
  | cons b s ih =>
    simp only [cut] at h
    split at h
    · obtain ⟨rfl, -⟩ := Prod.mk.inj (some.inj h)
      exact Nat.zero_le _
    · rename_i hpre
      obtain ⟨⟨p', rest'⟩, hcut, hp⟩ := map_eq_some_iff.mp h
      obtain ⟨rfl, rfl⟩ := Prod.mk.inj hp
      cases q with
      | nil => exact absurd ⟨r, by simpa using hs.symm⟩ hpre
      | cons a q =>
        simp only [cons_append, cons.injEq] at hs
        exact Nat.succ_le_succ (ih hcut (by simpa using hs.2))

/-- Two occurrences of a separator of two different bytes do not overlap. -/
theorem occurrence_split (hxy : x ≠ y)
    (h : p ++ x :: y :: r = q ++ x :: y :: t) (hlen : p.length ≤ q.length) :
    (q = p ∧ t = r) ∨ ∃ m, q = p ++ x :: y :: m ∧ r = m ++ x :: y :: t := by
  rcases append_eq_append_iff.mp h with ⟨m, rfl, hm⟩ | ⟨m, rfl, hm⟩
  · match m with
    | [] =>
      grind
    | [a] =>
      grind
    | a :: b :: m =>
      grind
  · have hnil : m = [] := by
      rw [length_append] at hlen
      exact length_eq_zero_iff.mp (by omega)
    grind

/-- A text before its first separator is determined by the whole. -/
theorem append_separator_inj (hxy : x ≠ y)
    (hp : ¬ [x, y] <:+: p) (hq : ¬ [x, y] <:+: q) (h : p ++ x :: y :: r = q ++ x :: y :: t) :
    p = q ∧ r = t := by
  rcases Nat.le_total p.length q.length with hlen | hlen
  · rcases occurrence_split hxy h hlen with ⟨rfl, rfl⟩ | ⟨m, rfl, -⟩
    · exact ⟨rfl, rfl⟩
    · exact absurd ⟨p, m, by simp⟩ hq
  · rcases occurrence_split hxy h.symm hlen with ⟨rfl, rfl⟩ | ⟨m, rfl, -⟩
    · exact ⟨rfl, rfl⟩
    · exact absurd ⟨q, m, by simp⟩ hp

/-- The piece stands in the text, bounded on each side by the separator or an end. -/
def Delimited (sep piece s : Bytes) : Prop :=
  ∃ pre post, s = pre ++ piece ++ post ∧ (pre = [] ∨ sep <:+ pre) ∧ (post = [] ∨ sep <+: post)

theorem delimited_of_rest (h : Delimited sep piece r) : Delimited sep piece (p ++ sep ++ r) := by
  obtain ⟨pre, post, rfl, hpre, hpost⟩ := h
  refine ⟨p ++ sep ++ pre, post, by simp, Or.inr ?_, hpost⟩
  grind

/-- Behind the first cut a delimited piece is the first piece or lies in the rest. -/
theorem Delimited.of_cut (hxy : x ≠ y) (hpiece : ¬ [x, y] <:+: piece) (h : Delimited [x, y] piece s)
    (hcut : cut [x, y] s = some (p, r)) : piece = p ∨ Delimited [x, y] piece r := by
  obtain ⟨pre, post, hs, hpre, hpost⟩ := h
  have happ : s = p ++ x :: y :: r := by simpa using cut_append hcut
  rcases hpre with rfl | ⟨q, rfl⟩
  · rcases hpost with rfl | ⟨post, rfl⟩
    · have hin : [x, y] <:+: piece := ⟨p, r, by simpa [happ] using hs⟩
      exact absurd hin hpiece
    · have hocc : p ++ x :: y :: r = piece ++ x :: y :: post := by simpa [happ] using hs
      have hfirst := cut_first hcut (q := piece) (r := post) (by simpa using hs)
      rcases occurrence_split hxy hocc hfirst with ⟨hp, -⟩ | ⟨m, hm, -⟩
      · exact Or.inl hp
      · exact absurd ⟨p, m, by simpa using hm.symm⟩ hpiece
  · have hocc : p ++ x :: y :: r = q ++ x :: y :: (piece ++ post) := by simpa [happ] using hs
    have hfirst := cut_first hcut (q := q) (r := piece ++ post) (by simpa using hs)
    rcases occurrence_split hxy hocc hfirst with ⟨-, rfl⟩ | ⟨m, -, rfl⟩
    · exact Or.inr ⟨[], post, by simp, Or.inl rfl, hpost⟩
    · exact Or.inr ⟨m ++ [x, y], post, by simp, Or.inr (suffix_append _ _), hpost⟩

/-- A text without the separator is its only delimited piece. -/
theorem delimited_iff_of_notInfix (h : ¬ sep <:+: s) : Delimited sep piece s ↔ piece = s := by
  constructor
  · rintro ⟨pre, post, rfl, hpre, hpost⟩
    grind
  · rintro rfl
    exact ⟨[], [], by simp, Or.inl rfl, Or.inl rfl⟩

/-- Splitting at a separator of two different bytes yields exactly the delimited pieces. -/
theorem mem_split_iff (hxy : x ≠ y) (hne : piece ≠ []) (hpiece : ¬ [x, y] <:+: piece) (s : Bytes) :
    piece ∈ split s [x, y] ↔ Delimited [x, y] piece s := by
  have hsep : [x, y] ≠ [] := by simp
  induction hn : s.length using Nat.strong_induction_on generalizing s with
  | _ n ih =>
    subst hn
    rw [split_eq hsep]
    split
    · rename_i hs
      subst hs
      simp only [not_mem_nil, false_iff]
      rintro ⟨pre, post, hs, -⟩
      simp at hs
      exact hne hs.2.1
    · cases hcut : cut [x, y] s with
      | none =>
        rw [delimited_iff_of_notInfix ((cut_eq_none_iff hsep).mp hcut), mem_singleton]
      | some p =>
        obtain ⟨p, r⟩ := p
        have happ := cut_append hcut
        have hlen := congrArg length happ
        simp only [length_append, length_cons] at hlen
        simp only [mem_cons, ih r.length (by omega) r rfl]
        constructor
        · rintro (rfl | hr)
          · exact ⟨[], [x, y] ++ r, by simpa using happ, Or.inl rfl,
              Or.inr (prefix_append _ _)⟩
          · rw [happ]
            exact delimited_of_rest hr
        · intro hs
          exact hs.of_cut hxy hpiece hcut

/-- What is cut off in front has no separator. -/
theorem notInfix_of_cut (hsep : sep ≠ []) (h : cut sep s = some (p, rest)) : ¬ sep <:+: p := by
  rintro ⟨q, r, rfl⟩
  have hs : s = q ++ sep ++ (r ++ sep ++ rest) := by
    rw [cut_append h]
    simp only [append_assoc]
  have hlen := cut_first h hs
  have hpos : 0 < sep.length := length_pos_iff.mpr hsep
  simp only [length_append] at hlen
  omega

/-- A piece is a part of the text, and no separator is left in it. -/
theorem infix_of_mem_split (hsep : sep ≠ [])
    (h : piece ∈ split s sep) : piece <:+: s ∧ ¬ sep <:+: piece := by
  have hpos : 0 < sep.length := length_pos_iff.mpr hsep
  induction hn : s.length using Nat.strong_induction_on generalizing s with
  | _ n ih =>
    subst hn
    rw [split_eq hsep] at h
    split at h
    · cases h
    · cases hcut : cut sep s with
      | none =>
        rw [hcut] at h
        obtain rfl := mem_singleton.1 h
        exact ⟨infix_rfl, (cut_eq_none_iff hsep).1 hcut⟩
      | some p =>
        obtain ⟨front, rest⟩ := p
        have happ : s = front ++ sep ++ rest := cut_append hcut
        have hlen := congrArg length happ
        simp only [length_append] at hlen
        rw [hcut] at h
        rcases mem_cons.1 h with rfl | hrest
        · refine ⟨?_, notInfix_of_cut hsep hcut⟩
          rw [happ, append_assoc]
          exact (prefix_append piece (sep ++ rest)).isInfix
        · obtain ⟨hin, hno⟩ := ih rest.length (by omega) hrest rfl
          refine ⟨hin.trans ?_, hno⟩
          rw [happ]
          exact (suffix_append (front ++ sep) rest).isInfix

end Pieces

section Strip

variable {s : Bytes} {c : UInt8}

theorem strip_isInfix (s : Bytes) (c : UInt8) : strip s c <:+: s :=
  ( rdropWhile_prefix _ _).isInfix.trans (dropWhile_suffix _).isInfix

theorem strip_head (s : Bytes) (c : UInt8) : (strip s c).head? ≠ some c := by
  intro hc
  obtain ⟨rest, hstrip⟩ : ∃ rest, strip s c = c :: rest := head?_eq_some_iff.1 hc
  obtain ⟨tail, htail⟩ : strip s c <+: s.dropWhile (· == c) := rdropWhile_prefix _ _
  grind [head?_dropWhile_not]

theorem strip_getLast (s : Bytes) (c : UInt8) : (strip s c).getLast? ≠ some c := by
  intro hc
  obtain ⟨hne, hlast⟩ := mem_getLast?_eq_getLast (mem_def.2 hc)
  exact rdropWhile_last_not (· == c) (s.dropWhile (· == c)) hne (beq_iff_eq.2 hlast.symm)

/-- Only text with the character at one of its ends is changed. -/
theorem strip_eq_self_iff : strip s c = s ↔ s.head? ≠ some c ∧ s.getLast? ≠ some c := by
  constructor
  · intro h
    rw [← h]
    exact ⟨strip_head s c, strip_getLast s c⟩
  · rintro ⟨hhead, hlast⟩
    have hdrop : s.dropWhile (· == c) = s := by
      cases s with
      | nil => rfl
      | cons b t =>
        grind [dropWhile_cons_of_neg]
    rw [strip, hdrop, rdropWhile_eq_self_iff]
    grind

theorem strip_strip (s : Bytes) (c : UInt8) : strip (strip s c) c = strip s c :=
  strip_eq_self_iff.2 ⟨strip_head s c, strip_getLast s c⟩

theorem strip_of_notMem (h : c ∉ s) : strip s c = s := by
  grind [strip_eq_self_iff, mem_of_head?]

theorem strip_ne_nil {b : UInt8} (hb : b ∈ s) (hbc : b ≠ c) : strip s c ≠ [] := by
  intro h
  have hall : ∀ x ∈ s.dropWhile (· == c), (x == c) = true := rdropWhile_eq_nil_iff.1 h
  have hnot := head?_dropWhile_not (· == c) s
  cases hdrop : s.dropWhile (· == c) with
  | nil => exact hbc (beq_iff_eq.1 (dropWhile_eq_nil_iff.1 hdrop b hb))
  | cons x t =>
    grind [mem_cons_self]

theorem strip_lower (s : Bytes) (hc : ∀ b, lowerByte b = c ↔ b = c) :
    strip (lower s) c = lower (strip s c) := by
  have hp : (fun b => b == c) ∘ lowerByte = fun b => b == c := by
    funext b
    simpa using hc b
  simp only [strip, lower, rdropWhile, dropWhile_map, ← map_reverse, hp]

end Strip

end Netstack.CommonUtils
