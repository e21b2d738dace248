import Netstack.Foundation.ByteStrings

/-!
# Searching in texts

Searches that return a position, as the string class of C++ has them, and the
texts before and from that position on. No position (`npos`) is `none`; it is
larger than every position.
-/

namespace Netstack.Foundation.Search

open List

section Positions

variable {α : Type*}

/-- The smaller one of two positions. -/
def minPos : Option Nat → Option Nat → Option Nat
  | none, j => j
  | i, none => i
  | some i, some j => some (min i j)

theorem minPos_map_add (i j : Option Nat) (n : Nat) :
    minPos (i.map (· + n)) (j.map (· + n)) = (minPos i j).map (· + n) := by
  cases i with
  | none => rfl
  | some i =>
    cases j with
    | none => rfl
    | some j => exact congrArg some (Nat.add_min_add_right i j n)

/-- The first place of one of two kinds is the smaller one of their first places. -/
theorem findIdx?_or (p q : α → Bool) (l : List α) :
    l.findIdx? (fun a => p a || q a) = minPos (l.findIdx? p) (l.findIdx? q) := by
  induction l with
  | nil => rfl
  | cons a l ih =>
    rw [findIdx?_cons, findIdx?_cons, findIdx?_cons, ih]
    cases hp : p a with
    | true =>
      cases hq : q a with
      | true => rfl
      | false =>
        cases l.findIdx? q with
        | none => rfl
        | some j => rfl
    | false =>
      cases hq : q a with
      | true =>
        cases l.findIdx? p with
        | none => rfl
        | some i => rfl
      | false => exact (minPos_map_add _ _ 1).symm

theorem takeWhile_of_findIdx? {p : α → Bool} {l : List α} {i : Nat} (h : l.findIdx? p = some i) :
    l.takeWhile (fun a => !p a) = l.take i := by
  induction l generalizing i with
  | nil => cases h
  | cons a l ih =>
    rw [findIdx?_cons] at h
    cases hp : p a with
    | true =>
      rw [hp] at h
      rw [← Option.some.inj h, takeWhile_cons, hp]
      rfl
    | false =>
      rw [hp] at h
      obtain ⟨j, hj, rfl⟩ := Option.map_eq_some_iff.mp h
      rw [takeWhile_cons, hp, take_succ_cons, ← ih hj]
      rfl

theorem dropWhile_of_findIdx? {p : α → Bool} {l : List α} {i : Nat} (h : l.findIdx? p = some i) :
    l.dropWhile (fun a => !p a) = l.drop i := by
  have hsplit : l.take i ++ l.dropWhile (fun a => !p a) = l.take i ++ l.drop i :=
    calc l.take i ++ l.dropWhile (fun a => !p a)
        = l.takeWhile (fun a => !p a) ++ l.dropWhile (fun a => !p a) := by
          rw [takeWhile_of_findIdx? h]
      _ = l := takeWhile_append_dropWhile
      _ = l.take i ++ l.drop i := (take_append_drop i l).symm
  exact append_cancel_left hsplit

theorem all_of_findIdx?_eq_none {p : α → Bool} {l : List α} (h : l.findIdx? p = none) :
    ∀ a ∈ l, (!p a) = true := by
  intro a ha
  rw [findIdx?_eq_none_iff.mp h a ha]
  rfl

end Positions

section Texts

/-- `find` of a character from a position on. -/
def findChar (s : Bytes) (c : UInt8) (pos : Nat) : Option Nat :=
  ((s.drop pos).findIdx? (· == c)).map (· + pos)

/-- `find_first_not_of` with one character. -/
def findFirstNotOf (s : Bytes) (c : UInt8) (pos : Nat) : Option Nat :=
  ((s.drop pos).findIdx? (· != c)).map (· + pos)

/-- The first place of one of three characters. -/
theorem minPos_findChar (s : Bytes) (a b c : UInt8) (pos : Nat) :
    minPos (minPos (findChar s a pos) (findChar s b pos)) (findChar s c pos) =
      ((s.drop pos).findIdx? fun x => x == a || x == b || x == c).map (· + pos) := by
  rw [findIdx?_or, findIdx?_or, findChar, findChar, findChar, minPos_map_add, minPos_map_add]

end Texts

end Netstack.Foundation.Search
