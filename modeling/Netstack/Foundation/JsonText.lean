import Netstack.Foundation.Json
import Mathlib.Tactic

/-!
# JSON text

A parser and a printer in the manner of cJSON: the printer indents by tabs, one
member a line; the parser skips bytes up to the blank, bounds the nesting depth,
and ignores what follows the first value.

## Implementation notes

`parseItems` reads the comma-separated items of an array or an object with a
given item parser, so the nesting depth is the only recursion of `parseValue`.
-/

namespace Netstack.Foundation.JsonText

open List Option UInt8

def hexDigit (n : Nat) : UInt8 :=
  if n < 10 then ofNat (48 + n) else ofNat (87 + n)

variable (b : UInt8)

def hexValue : Option Nat :=
  if 48 ≤ b ∧ b ≤ 57 then some (b.toNat - 48)
  else if 97 ≤ b ∧ b ≤ 102 then some (b.toNat - 87)
  else if 65 ≤ b ∧ b ≤ 70 then some (b.toNat - 55)
  else none

/-- The letter after the backslash, for the bytes that have a short escape. -/
def letter : Option UInt8 :=
  if b = 34 then some 34
  else if b = 92 then some 92
  else if b = 8 then some 98
  else if b = 12 then some 102
  else if b = 10 then some 110
  else if b = 13 then some 114
  else if b = 9 then some 116
  else none

/-- The bytes that stand for one byte inside a quoted string. -/
def escape : Bytes :=
  match letter b with
  | some e => [92, e]
  | none =>
    if b < 32 then [92, 117, 48, 48, hexDigit (b.toNat / 16), hexDigit (b.toNat % 16)]
    else [b]

/-- The byte that a letter after a backslash stands for. -/
def unescape : Option UInt8 :=
  if b = 34 ∨ b = 92 ∨ b = 47 then some b
  else if b = 98 then some 8
  else if b = 102 then some 12
  else if b = 110 then some 10
  else if b = 114 then some 13
  else if b = 116 then some 9
  else none

/-- UTF-8 of a code point below `0x10000`; surrogates are refused. -/
def utf8 (code : Nat) : Option Bytes :=
  if code < 0x80 then some [ofNat code]
  else if code < 0x800 then
    some [ofNat (0xC0 + code / 0x40), ofNat (0x80 + code % 0x40)]
  else if 0xD800 ≤ code ∧ code < 0xE000 then none
  else
    some [ofNat (0xE0 + code / 0x1000), ofNat (0x80 + code / 0x40 % 0x40),
      ofNat (0x80 + code % 0x40)]

/-- The text after an opening quote, up to its closing quote. -/
def parseString : Bytes → Option (Bytes × Bytes)
  | [] => none
  | 34 :: rest => some ([], rest)
  | 92 :: 117 :: a :: b :: c :: d :: rest => do
      let a ← hexValue a
      let b ← hexValue b
      let c ← hexValue c
      let d ← hexValue d
      let bytes ← utf8 (((a * 16 + b) * 16 + c) * 16 + d)
      let p ← parseString rest
      return (bytes ++ p.1, p.2)
  | 92 :: e :: rest => do
      let b ← unescape e
      let p ← parseString rest
      return (b :: p.1, p.2)
  | b :: rest => do
      let p ← parseString rest
      return (b :: p.1, p.2)

def printString (s : Bytes) : Bytes := 34 :: (s.flatMap escape ++ [34])

def skipSpace (t : Bytes) : Bytes := t.dropWhile (· ≤ 32)

/-- Items separated by commas and closed by the given byte. -/
def parseItems {α : Type} (item : Bytes → Option (α × Bytes)) (close : UInt8) :
    Nat → Bytes → Option (List α × Bytes)
  | 0, _ => none
  | n + 1, t => do
      let p ← item t
      match skipSpace p.2 with
      | [] => none
      | b :: rest =>
        if b = 44 then do
          let q ← parseItems item close n (skipSpace rest)
          return (p.1 :: q.1, q.2)
        else if b = close then some ([p.1], rest)
        else none

/-- A bracketed list: empty, or items read by `parseItems`. -/
def parseList {α : Type} (item : Bytes → Option (α × Bytes)) (close : UInt8) (t : Bytes) :
    Option (List α × Bytes) :=
  match skipSpace t with
  | [] => none
  | b :: rest =>
    if b = close then some ([], rest)
    else parseItems item close t.length (b :: rest)

def parseMember (value : Bytes → Option (Json × Bytes)) (t : Bytes) :
    Option ((Bytes × Json) × Bytes) :=
  match t with
  | 34 :: rest => do
      let name ← parseString rest
      match skipSpace name.2 with
      | 58 :: rest => do
          let v ← value (skipSpace rest)
          return ((name.1, v.1), v.2)
      | _ => none
  | _ => none

/-- The bytes a number may consist of. -/
def isNumberByte : Bool :=
  (48 ≤ b && b ≤ 57) || b == 43 || b == 45 || b == 46 || b == 69 || b == 101

def parseScalar (t : Bytes) : Option (Json × Bytes) :=
  if ascii "null" <+: t then some (.null, t.drop 4)
  else if ascii "true" <+: t then some (.bool true, t.drop 4)
  else if ascii "false" <+: t then some (.bool false, t.drop 5)
  else
    match t.takeWhile isNumberByte with
    | [] => none
    | b :: digits =>
      if b = 45 ∨ (48 ≤ b ∧ b ≤ 57) then
        some (.number (b :: digits), t.dropWhile isNumberByte)
      else none

/-- A value nested at most the given number of levels. -/
def parseValue : Nat → Bytes → Option (Json × Bytes)
  | 0, _ => none
  | n + 1, t =>
    match t with
    | 34 :: rest => (parseString rest).map fun p => (.str p.1, p.2)
    | 91 :: rest => (parseList (parseValue n) 93 rest).map fun p => (.arr p.1, p.2)
    | 123 :: rest =>
      (parseList (parseMember (parseValue n)) 125 rest).map fun p => (.obj p.1, p.2)
    | t => parseScalar t

def nestingLimit : Nat := 1000

def parse (t : Bytes) : Option Json :=
  (parseValue nestingLimit (skipSpace t)).map Prod.fst

def tabs (n : Nat) : Bytes := List.replicate n 9

mutual

/-- The formatted text of a value at an indentation depth. -/
def printValue (depth : Nat) : Json → Bytes
  | .null => ascii "null"
  | .bool b => if b then ascii "true" else ascii "false"
  | .number text => text
  | .str s => printString s
  | .arr items => 91 :: (printItems depth items ++ [93])
  | .obj members => 123 :: 10 :: (printMembers (depth + 1) members ++ tabs depth ++ [125])

def printItems (depth : Nat) : List Json → Bytes
  | [] => []
  | [j] => printValue depth j
  | j :: rest => printValue depth j ++ 44 :: 32 :: printItems depth rest

def printMembers (depth : Nat) : List (Bytes × Json) → Bytes
  | [] => []
  | [p] => tabs depth ++ printMember depth p ++ [10]
  | p :: rest => tabs depth ++ printMember depth p ++ 44 :: 10 :: printMembers depth rest

def printMember (depth : Nat) : Bytes × Json → Bytes
  | (name, value) => printString name ++ 58 :: 9 :: printValue depth value

end

def print (j : Json) : Bytes := printValue 0 j

section Strings

theorem hexValue_hexDigit : ∀ n < 16, hexValue (hexDigit n) = some n := by
  decide

theorem zero_ne_hexDigit : ∀ n < 16, (0 : UInt8) ≠ hexDigit n := by
  decide

variable {b : UInt8} {e : UInt8}

theorem letter_spec (h : letter b = some e) : unescape e = some b ∧ e ≠ 117 ∧ e ≠ 0 := by
  unfold letter at h
  split_ifs at h with h₁ h₂ h₃ h₄ h₅ h₆ h₇ <;> cases h <;> subst b <;> decide

theorem parseString_plain (hquote : b ≠ 34) (hslash : b ≠ 92) (rest : Bytes) :
    parseString (b :: rest) = (parseString rest).map fun p => (b :: p.1, p.2) := by
  rw [parseString.eq_def]
  split
  · contradiction
  · simp_all
  · simp_all
  · simp_all
  · rename_i h
    obtain ⟨rfl, rfl⟩ := List.cons.inj h
    cases parseString rest <;> rfl

theorem parseString_letter (h : letter b = some e) (rest : Bytes) :
    parseString (92 :: e :: rest) = (parseString rest).map fun p => (b :: p.1, p.2) := by
  obtain ⟨hunescape, hu, -⟩ := letter_spec h
  rw [parseString.eq_def]
  split
  · contradiction
  · simp_all
  · simp_all
  · rename_i hl
    simp only [List.cons.injEq, true_and] at hl
    obtain ⟨rfl, rfl⟩ := hl
    rw [hunescape]
    cases parseString rest <;> rfl
  grind

/-- An escaped byte is read back as the byte. -/
theorem parseString_escape (b : UInt8) (rest : Bytes) :
    parseString (escape b ++ rest) = (parseString rest).map fun p => (b :: p.1, p.2) := by
  unfold escape
  cases hletter : letter b with
  | some e => exact parseString_letter hletter rest
  | none =>
    simp only []
    split
    · rename_i hsmall
      have hlt : b.toNat < 32 := hsmall
      have hcode : b.toNat / 16 * 16 + b.toNat % 16 = b.toNat := by omega
      have hhigh := hexValue_hexDigit (b.toNat / 16) (by omega)
      have hlow := hexValue_hexDigit (b.toNat % 16) (by omega)
      have hzero : hexValue 48 = some 0 := by decide
      have hutf : utf8 b.toNat = some [b] := by
        rw [utf8, if_pos (by omega), UInt8.ofNat_toNat]
      simp only [cons_append, nil_append, parseString, hzero, hhigh, hlow,
        bind_eq_bind, bind_some, Nat.zero_mul, Nat.zero_add, hcode, hutf]
      cases parseString rest <;> rfl
    grind [parseString_plain, letter]

theorem parseString_printString (s rest : Bytes) :
    parseString (s.flatMap escape ++ 34 :: rest) = some (s, rest) := by
  induction s with
  | nil => rfl
  | cons b s ih => rw [flatMap_cons, append_assoc, parseString_escape, ih]; rfl

theorem zero_notMem_escape (b : UInt8) : (0 : UInt8) ∉ escape b := by
  unfold escape
  cases hletter : letter b with
  | some e =>
    obtain ⟨-, -, he⟩ := letter_spec hletter
    simp [he.symm]
  | none =>
    simp only []
    split
    · have hhigh := zero_ne_hexDigit (b.toNat / 16)
      have hlow := zero_ne_hexDigit (b.toNat % 16) (by omega)
      rename_i hsmall
      have hlt : b.toNat < 32 := hsmall
      simp [hlow, hhigh (by omega)]
    grind

theorem zero_notMem_printString (s : Bytes) : (0 : UInt8) ∉ printString s := by
  simp [printString, zero_notMem_escape]

end Strings

section Values

theorem skipSpace_cons {b : UInt8} (h : ¬ b ≤ 32) (t : Bytes) : skipSpace (b :: t) = b :: t := by
  simp [skipSpace, h]

theorem skipSpace_space {b : UInt8} (h : b ≤ 32) (t : Bytes) :
    skipSpace (b :: t) = skipSpace t := by
  simp [skipSpace, h]

theorem skipSpace_tabs (n : Nat) (t : Bytes) : skipSpace (tabs n ++ t) = skipSpace t := by
  induction n with
  | zero => rfl
  | succ n ih =>
    rw [tabs, replicate_succ, cons_append, skipSpace_space (by decide)]
    exact ih

/-- The text of the value is read back as the value, whatever follows it. -/
def ReadsBack (n depth : Nat) (j : Json) : Prop :=
  ∀ rest, skipSpace (printValue depth j ++ rest) = printValue depth j ++ rest ∧
    parseValue n (printValue depth j ++ rest) = some (j, rest)

theorem readsBack_str (n depth : Nat) (s : Bytes) : ReadsBack (n + 1) depth (.str s) := by
  intro rest
  have htext : printValue depth (.str s) ++ rest = 34 :: (s.flatMap escape ++ 34 :: rest) := by
    simp [printValue, printString]
  rw [htext]
  refine ⟨skipSpace_cons (by decide) _, ?_⟩
  simp only [parseValue, parseString_printString, map_some]

variable {depth n : Nat}

theorem parseMember_printMember {p : Bytes × Json} (h : ReadsBack n depth p.2)
    (rest : Bytes) : parseMember (parseValue n) (printMember depth p ++ rest) = some (p, rest) := by
  obtain ⟨name, value⟩ := p
  obtain ⟨hskip, hparse⟩ := h rest
  have htext : printMember depth (name, value) ++ rest =
      34 :: (name.flatMap escape ++ 34 :: 58 :: 9 :: (printValue depth value ++ rest)) := by
    simp [printMember, printString]
  rw [htext]
  simp only [parseMember, parseString_printString, bind_eq_bind, bind_some]
  rw [skipSpace_cons (by decide)]
  simp only [skipSpace_space (show (9 : UInt8) ≤ 32 by decide), hskip, hparse]
  rfl

theorem skipSpace_printMember (k depth : Nat) (p : Bytes × Json) (rest : Bytes) :
    skipSpace (tabs k ++ (printMember depth p ++ rest)) = printMember depth p ++ rest := by
  obtain ⟨name, value⟩ := p
  rw [skipSpace_tabs]
  exact skipSpace_cons (by decide) _

variable {members : List (Bytes × Json)}

/-- The lines of an object, from the first member to the closing brace. -/
theorem parseItems_printMembers (k : Nat)
    (hne : members ≠ []) (h : ∀ p ∈ members, ReadsBack n depth p.2) (rest : Bytes) {m : Nat}
    (hm : members.length ≤ m) :
    parseItems (parseMember (parseValue n)) 125 m
        (skipSpace (printMembers depth members ++ (tabs k ++ 125 :: rest))) =
      some (members, rest) := by
  induction members generalizing m with
  | nil => exact absurd rfl hne
  | cons p members ih =>
    obtain ⟨m, rfl⟩ : ∃ i, m = i + 1 := ⟨m - 1, by simp at hm; omega⟩
    have hp := parseMember_printMember (h p (by simp))
    cases members with
    | nil =>
      have htext : printMembers depth [p] ++ (tabs k ++ 125 :: rest) =
          tabs depth ++ (printMember depth p ++ (10 :: (tabs k ++ 125 :: rest))) := by
        simp [printMembers]
      rw [htext, skipSpace_printMember]
      simp only [parseItems, hp, bind_eq_bind, bind_some]
      rw [skipSpace_space (by decide), skipSpace_tabs, skipSpace_cons (by decide)]
      simp
    | cons q members =>
      have htext : printMembers depth (p :: q :: members) ++ (tabs k ++ 125 :: rest) =
          tabs depth ++ (printMember depth p ++ (44 :: 10 ::
            (printMembers depth (q :: members) ++ (tabs k ++ 125 :: rest)))) := by
        simp [printMembers]
      have hrest := ih (by simp) (fun r hr => h r (by simp [hr])) (m := m) (by simpa using hm)
      rw [htext, skipSpace_printMember]
      simp only [parseItems, hp, bind_eq_bind, bind_some]
      rw [skipSpace_cons (by decide)]
      simp only [if_true, skipSpace_space (show (10 : UInt8) ≤ 32 by decide), hrest]
      rfl

theorem skipSpace_printMembers (depth : Nat) (p : Bytes × Json) (members : List (Bytes × Json))
    (rest : Bytes) : ∃ t, skipSpace (printMembers depth (p :: members) ++ rest) = 34 :: t := by
  obtain ⟨t, ht⟩ : ∃ t, printMembers depth (p :: members) =
      tabs depth ++ (printMember depth p ++ t) := by
    cases members with
    | nil => exact ⟨[10], by simp [printMembers]⟩
    | cons q members =>
      exact ⟨44 :: 10 :: printMembers depth (q :: members), by simp [printMembers]⟩
  rw [ht, append_assoc, append_assoc, skipSpace_printMember]
  obtain ⟨name, value⟩ := p
  simp only [printMember, printString, cons_append]
  exact ⟨_, rfl⟩

theorem length_le_printMembers (depth : Nat) (members : List (Bytes × Json)) :
    members.length ≤ (printMembers depth members).length := by
  induction members with
  | nil => exact Nat.zero_le _
  | cons p members ih =>
    cases members with
    | nil =>
      simp only [printMembers, length_append, length_cons, length_nil]
      omega
    | cons q members =>
      simp only [printMembers, length_append, length_cons] at ih ⊢
      omega

theorem readsBack_obj
    (h : ∀ p ∈ members, ReadsBack n (depth + 1) p.2) : ReadsBack (n + 1) depth (.obj members) := by
  intro rest
  have htext : printValue depth (.obj members) ++ rest =
      123 :: 10 :: (printMembers (depth + 1) members ++ (tabs depth ++ 125 :: rest)) := by
    simp [printValue]
  have hlist : parseList (parseMember (parseValue n)) 125
      (10 :: (printMembers (depth + 1) members ++ (tabs depth ++ 125 :: rest))) =
        some (members, rest) := by
    unfold parseList
    rw [skipSpace_space (by decide)]
    cases members with
    | nil =>
      have hskip : skipSpace (printMembers (depth + 1) [] ++ (tabs depth ++ 125 :: rest)) =
          125 :: rest := (skipSpace_tabs depth _).trans (skipSpace_cons (by decide) _)
      rw [hskip]
      rfl
    | cons p members =>
      have hlen := length_le_printMembers (depth + 1) (p :: members)
      have hfuel : (p :: members).length ≤ (10 :: (printMembers (depth + 1) (p :: members) ++
          (tabs depth ++ 125 :: rest))).length := by
        simp only [length_cons, length_append] at hlen ⊢
        omega
      have hitems := parseItems_printMembers depth (by simp) h rest hfuel
      obtain ⟨t, ht⟩ := skipSpace_printMembers (depth + 1) p members (tabs depth ++ 125 :: rest)
      rw [ht] at hitems ⊢
      exact hitems
  rw [htext]
  refine ⟨skipSpace_cons (by decide) _, ?_⟩
  simp only [parseValue, hlist, map_some]

/-- Pages are read back from their text. -/
theorem parse_print {j : Json} (h : j.IsPage) : parse (print j) = some j := by
  cases j with
  | obj members =>
    have hback : ReadsBack nestingLimit 0 (.obj members) := by
      apply readsBack_obj
      intro p hp
      obtain ⟨-, fields, hfields, hstr⟩ := h p hp
      grind [readsBack_obj, readsBack_str]
    obtain ⟨hskip, hparse⟩ := hback []
    rw [append_nil] at hskip hparse
    rw [parse, print, hskip, hparse, map_some]
  | null => cases h
  | bool b => cases h
  | number t => cases h
  | str s => cases h
  | arr l => cases h

theorem zero_notMem_tabs (n : Nat) : (0 : UInt8) ∉ tabs n := by
  simp [tabs]

theorem zero_notMem_printMembers (h : ∀ p ∈ members, (0 : UInt8) ∉ printValue depth p.2) :
    (0 : UInt8) ∉ printMembers depth members := by
  have hmember : ∀ p ∈ members, (0 : UInt8) ∉ printMember depth p := by
    rintro ⟨name, value⟩ hp
    simp [printMember, zero_notMem_printString, h _ hp]
  clear h
  induction members with
  | nil => simp [printMembers]
  | cons p members ih =>
    have hp := hmember p (by simp)
    have hrest := ih fun q hq => hmember q (by simp [hq])
    cases members with
    | nil => simp [printMembers, zero_notMem_tabs, hp]
    | cons q members => simp [printMembers, zero_notMem_tabs, hp, hrest]

theorem zero_notMem_printObj (h : ∀ p ∈ members, (0 : UInt8) ∉ printValue (depth + 1) p.2) :
    (0 : UInt8) ∉ printValue depth (.obj members) := by
  simp [printValue, zero_notMem_tabs, zero_notMem_printMembers h]

/-- The text of a page has no NUL byte, whatever its strings. -/
theorem zero_notMem_print {j : Json} (h : j.IsPage) : (0 : UInt8) ∉ print j := by
  cases j with
  | obj members =>
    apply zero_notMem_printObj
    intro p hp
    obtain ⟨-, fields, hfields, hstr⟩ := h p hp
    grind [zero_notMem_printObj, printValue, zero_notMem_printString]
  | null => cases h
  | bool b => cases h
  | number t => cases h
  | str s => cases h
  | arr l => cases h

end Values

/-- The parser and printer of this module as a JSON library. -/
def cJson : JsonLibrary where
  parse := parse
  print := print
  parse_nil := rfl
  parse_print := fun _ h => parse_print h
  zero_notMem_print := fun _ h => zero_notMem_print h

end Netstack.Foundation.JsonText
