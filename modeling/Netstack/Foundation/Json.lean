import Netstack.Foundation.ByteStrings

/-!
# JSON values

Object members keep their order and may repeat a name; a number keeps its
source text. The library that turns text into values and back is a parameter.
-/

namespace Netstack.Foundation

inductive Json where
  | null
  | bool (b : Bool)
  | number (text : Bytes)
  | str (s : Bytes)
  | arr (items : List Json)
  | obj (members : List (Bytes × Json))

/-- An object of objects of strings, with no NUL byte in any name or string. -/
def Json.IsPage : Json → Prop
  | .obj members => ∀ p ∈ members, (0 : UInt8) ∉ p.1 ∧ ∃ fields, p.2 = .obj fields ∧
      ∀ q ∈ fields, (0 : UInt8) ∉ q.1 ∧ ∃ s, q.2 = .str s ∧ (0 : UInt8) ∉ s
  | _ => False

/-- What a user of a JSON library relies on: the empty text is no value, and a
page is printed as a C string from which it is read back. -/
structure JsonLibrary where
  parse : Bytes → Option Json
  print : Json → Bytes
  parse_nil : parse [] = none
  parse_print : ∀ j, j.IsPage → parse (print j) = some j
  zero_notMem_print : ∀ j, j.IsPage → (0 : UInt8) ∉ print j

end Netstack.Foundation
