import Netstack.Foundation.ByteStrings
import Netstack.Foundation.Chains
import Netstack.Foundation.Execution

/-!
# The hash map of the C interface

`Netstack_HashMap` is a table of chains. It counts the chains that are not empty,
doubles the table when that count reaches the capacity and links a new entry
behind the first one of its chain.

## Implementation notes

The loop of `Netstack_Hash` is executed for as many rounds as the key has bytes; a
result that is missing then never comes. A value is a pointer.
-/

namespace Netstack.CApi

open Foundation Foundation.Execution Foundation.Recency
  Netstack.Foundation.Chains

structure CString where
  bytes : Bytes
  noNul : (0 : UInt8) ∉ bytes
  deriving DecidableEq

inductive CharSign where
  | signed
  | unsigned
  deriving DecidableEq

/-- A character as an operand of 32-bit unsigned arithmetic. -/
def CharSign.value : CharSign → UInt8 → UInt32
  | signed, b => if b < 128 then b.toUInt32 else b.toUInt32 - 256
  | unsigned, b => b.toUInt32

def netstackHashFactor : UInt32 := 31

structure HashLoop where
  i : UInt32
  hash : UInt32

namespace HashLoop

variable (sign : CharSign) (key : CString)

def cond (s : HashLoop) : Bool := s.i.toNat < key.bytes.length

def body (s : HashLoop) : HashLoop where
  i := s.i + 1
  hash := netstackHashFactor * s.hash + sign.value (key.bytes.getD s.i.toNat 0)

end HashLoop

def netstackHash (sign : CharSign) (key : CString) (capacity : Nat) : Option Nat :=
  (whileLoop (HashLoop.cond key) (HashLoop.body sign key) key.bytes.length ⟨0, 0⟩).map fun s =>
    s.hash.toNat % capacity

def defaultMapCapacity : Nat := 16

def maxMapCapacity : Nat := 16384

inductive ResultCode where
  | ok
  | parameterError
  | outOfMemory
  deriving DecidableEq, Repr

abbrev Entry (V : Type) := CString × Option V

structure HashMap (V : Type) where
  entries : List (List (Entry V))
  size : Nat
  capacity : Nat

/-- Which of the allocations of a call succeed. -/
structure Heap where
  calloc : Bool
  malloc : Bool
  strdup : Bool

def Heap.ample : Heap := ⟨true, true, true⟩

section Operations

variable {V : Type} (sign : CharSign) (heap : Heap)

def createMap : Option (HashMap V) :=
  if heap.malloc = false ∨ heap.calloc = false then none
  else some
    { capacity := defaultMapCapacity
      size := 0
      entries := List.replicate defaultMapCapacity [] }

/-- One round of the loop over a chain; the count is that of the new heads. -/
def rehashRound (newCapacity : Nat) (s : List (List (Entry V)) × Nat) (current : Entry V) :
    Option (List (List (Entry V)) × Nat) := do
  let newHash ← netstackHash sign current.1 newCapacity
  match chainAt s.1 newHash with
  | [] => pure (s.1.set newHash [current], s.2 + 1)
  | head :: rest => pure (s.1.set newHash (head :: current :: rest), s.2)

def rehashEntry (chain : List (Entry V)) (newCapacity : Nat) (newEntries : List (List (Entry V))) :
    Option (List (List (Entry V)) × Nat) :=
  chain.foldlM (rehashRound sign newCapacity) (newEntries, 0)

variable (map : HashMap V)

def netstackInvalidMap : Bool :=
  map.capacity < defaultMapCapacity || maxMapCapacity < map.capacity

def netstackResizeMap : Option (ResultCode × HashMap V) :=
  if maxMapCapacity ≤ map.capacity then some (.parameterError, map)
  else if heap.calloc = false then some (.outOfMemory, map)
  else do
    let newCapacity := map.capacity * 2
    let moved ← map.entries.foldlM
      (fun s chain =>
        if chain = [] then pure s
        else do
          let r ← rehashEntry sign chain newCapacity s.1
          pure (r.1, s.2 + r.2))
      (List.replicate newCapacity [], 0)
    pure (.ok, { entries := moved.1, size := moved.2, capacity := newCapacity })

/-- `Netstack_PutMapEntry` from the point where the chain is known. -/
def putIntoChain (idx : Nat) (key : CString) (value : Option V) : ResultCode × HashMap V :=
  match chainAt map.entries idx with
  | [] =>
    if heap.malloc = false ∨ heap.strdup = false then (.outOfMemory, map)
    else (.ok,
      { map with entries := map.entries.set idx [(key, value)], size := map.size + 1 })
  | head :: rest =>
    match assign key value (head :: rest) with
    | some chain => (.ok, { map with entries := map.entries.set idx chain })
    | none =>
      if heap.malloc = false ∨ heap.strdup = false then (.outOfMemory, map)
      else (.ok, { map with entries := map.entries.set idx (head :: (key, value) :: rest) })

variable (key : Option CString)

def putMapEntry (value : Option V) : Option (ResultCode × HashMap V) :=
  match netstackInvalidMap map, key with
  | true, _ => some (.parameterError, map)
  | _, none => some (.parameterError, map)
  | false, some key => do
      let map ← (if map.capacity ≤ map.size then (netstackResizeMap sign heap map).map Prod.snd
        else some map)
      let idx ← netstackHash sign key map.capacity
      pure (putIntoChain heap map idx key value)

def getMapEntry : Option (Option V) :=
  match netstackInvalidMap map, key with
  | true, _ => some none
  | _, none => some none
  | false, some key => do
      let idx ← netstackHash sign key map.capacity
      pure ((find key (chainAt map.entries idx)).getD none)

/-- `Netstack_DeleteMapEntry` from the point where the chain is known. -/
def deleteFromChain (idx : Nat) (key : CString) : ResultCode × HashMap V :=
  match chainAt map.entries idx with
  | [] => (.ok, map)
  | head :: rest =>
    if head.1 = key then (.ok,
      { map with
        entries := map.entries.set idx rest
        size := if rest.isEmpty then map.size - 1 else map.size })
    else (.ok, { map with entries := map.entries.set idx (head :: unlink key rest) })

def deleteMapEntry : Option (ResultCode × HashMap V) :=
  match netstackInvalidMap map, key with
  | true, _ => some (.parameterError, map)
  | _, none => some (.parameterError, map)
  | false, some key => do
      let idx ← netstackHash sign key map.capacity
      pure (deleteFromChain map idx key)

end Operations

end Netstack.CApi
