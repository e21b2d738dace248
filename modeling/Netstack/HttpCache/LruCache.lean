import Netstack.Foundation.Execution
import Netstack.Foundation.Json
import Netstack.Foundation.Numerals
import Netstack.HttpCache.Environment

/-!
# The in-memory LRU cache

`nodeList_` is a doubly linked list and `cache_` maps a key to an iterator into it. Reading through
an iterator that outlives its cell, and a loop that never ends, are the two ways in which an
operation has no result (`none`).

## Implementation notes

`size_t` is reduced modulo `2 ^ 64`. The eviction loop runs for at most one round per cell.
-/

namespace Netstack.HttpCache

open Foundation Foundation.Execution

def maxSize : Nat := 1024 * 1024

/-- `SIZE_MAX`, returned for a value that may not be stored. -/
def invalidSize : Nat := 2 ^ 64 - 1

def lruIndex : Bytes := ascii "LRUIndex"

/-- The accumulating loop of `GetMapValueSize` with its early returns. -/
def getMapValueSizeLoop (size : Nat) : List (Bytes × Bytes) → Nat
  | [] => if size > maxSize ∨ size = 0 then invalidSize else size
  | p :: rest =>
    if p.2.length > maxSize then invalidSize
    else if size + p.2.length > maxSize then invalidSize
    else getMapValueSizeLoop (size + p.2.length) rest

variable (rt : Runtime)

def getMapValueSize (m : ValueMap) : Nat :=
  getMapValueSizeLoop 0 (rt.iterate m)

structure Node where
  key : Bytes
  value : ValueMap
  deriving DecidableEq

/-- A cell of `nodeList_` at its address. -/
structure Cell where
  addr : Nat
  node : Node
  deriving DecidableEq

structure LruCache where
  cache : Std.ExtTreeMap Bytes Nat
  nodeList : List Cell
  capacity : Nat
  size : Nat
  nextAddr : Nat
  deriving DecidableEq

variable (s : LruCache)

namespace LruCache

def sizeAdd (a b : Nat) : Nat := (a + b) % 2 ^ 64

variable (c : Copy)

/-- Subtracting from `size_`: `HttpClient` wraps around, `Http` stops at zero. -/
def sizeSub (a b : Nat) : Nat :=
  match c with
  | .httpClient => (a + 2 ^ 64 - b) % 2 ^ 64
  | .http => if b ≤ a then a - b else 0

/-- The constructor with a capacity, which is cut to `MAX_SIZE`. -/
def ofCapacity (capacity : Nat) : LruCache :=
  { cache := ∅, nodeList := [], capacity := min maxSize capacity, size := 0, nextAddr := 0 }

/-- The default constructor. -/
def empty : LruCache :=
  { cache := ∅, nodeList := [], capacity := maxSize, size := 0, nextAddr := 0 }

variable (it : Nat)

/-- `*it`, undefined when no cell has that address. -/
def deref : Option Node :=
  (s.nodeList.find? fun cell => cell.addr = it).map Cell.node

/-- `nodeList_.emplace_front` followed by `cache_[key] = nodeList_.begin()`. -/
def emplaceFront (node : Node) : LruCache :=
  { s with
    nodeList := ⟨s.nextAddr, node⟩ :: s.nodeList
    cache := s.cache.insert node.key s.nextAddr
    nextAddr := s.nextAddr + 1 }

def addNode (s : LruCache) (node : Node) : LruCache :=
  let s := s.emplaceFront node
  { s with size := sizeAdd s.size (getMapValueSize rt node.value) }

def eraseCell : LruCache :=
  { s with nodeList := s.nodeList.filter fun cell => cell.addr ≠ it }

def moveNodeToHead : Option LruCache := do
  let node ← s.deref it
  return (s.eraseCell it).emplaceFront ⟨node.key, node.value⟩

/-- `EraseTailNode`. The `Http` copy keeps a tail whose value has no valid size. -/
def eraseTailNode (s : LruCache) : LruCache :=
  match s.nodeList.getLast? with
  | none => s
  | some cell =>
    if c = .http ∧ getMapValueSize rt cell.node.value = invalidSize then s
    else
      { s with
        nodeList := s.nodeList.dropLast
        cache := s.cache.erase cell.node.key
        size := sizeSub c s.size (getMapValueSize rt cell.node.value) }

def overCapacity : Bool := decide (s.size > s.capacity)

/-- `while (size_ > capacity_) EraseTailNode()`. -/
def evict (s : LruCache) : Option LruCache :=
  whileLoop overCapacity (eraseTailNode rt c) s.nodeList.length s

def get (key : Bytes) : Option (ValueMap × LruCache) :=
  match s.cache[key]? with
  | none => some (∅, s)
  | some it => do
      let node ← s.deref it
      let s' ← s.moveNodeToHead it
      return (node.value, s')

/-- Assign `it->value`. -/
def setValue (value : ValueMap) : LruCache :=
  { s with
    nodeList := s.nodeList.map fun cell =>
      if cell.addr = it then { cell with node := { cell.node with value := value } } else cell }

/-- Replace the value at an iterator, taking the old size off `size_` and adding the new. -/
def overwrite (s : LruCache) (it : Nat) (old value : ValueMap) : LruCache :=
  let s := { s with size := sizeSub c s.size (getMapValueSize rt old) }
  let s := s.setValue it value
  { s with size := sizeAdd s.size (getMapValueSize rt value) }

def put (s : LruCache) (key : Bytes) (value : ValueMap) : Option LruCache :=
  if getMapValueSize rt value = invalidSize then some s
  else
    match s.cache[key]? with
    | none => evict rt c (s.addNode rt ⟨key, value⟩)
    | some it => do
        let node ← s.deref it
        let s ← (s.overwrite rt c it node.value value).moveNodeToHead it
        evict rt c s

/-- `Put` of each listed node, in order. -/
def putNodes (s : LruCache) (nodes : List Node) : Option LruCache :=
  nodes.foldlM (fun s node => put rt c s node.key node.value) s

/-- `MergeOtherCache` with another cache: its list is copied, reversed and put back. -/
def mergeOtherCache (s other : LruCache) : Option LruCache :=
  if other.nodeList.isEmpty then some s
  else putNodes rt c s (other.nodeList.map Cell.node).reverse

/-- `MergeOtherCache` with itself: only the `Http` copy tests for it. -/
def mergeSelf (s : LruCache) : Option LruCache :=
  match c with
  | .http => some s
  | .httpClient => mergeOtherCache rt c s s

/-- The item `WriteCacheToJsonValue` adds for the node at a list position. -/
def nodeToJson (index : Nat) (node : Node) : Bytes × Json :=
  (cString node.key, .obj ((rt.iterate node.value).map (fun p => (cString p.1, .str (cString p.2)))
    ++ [(lruIndex, .str (decimal index))]))

def writeCacheToJsonValue (s : LruCache) : Json :=
  .obj ((s.nodeList.map Cell.node).zipIdx.map fun p => nodeToJson rt p.2 p.1)

/-- One `m[valueKey] = strValue` of the inner reading loop; other items are skipped. -/
def readValueItem (m : ValueMap) (item : Bytes × Json) : ValueMap :=
  match item.2 with
  | .str s => m.insert (cString item.1) (cString s)
  | _ => m

/-- The node read from one named item of the root, if it is an object with an index. -/
def readKeyItem (item : Bytes × Json) : Option Node :=
  match item.2 with
  | .obj members =>
    let m := members.foldl readValueItem ∅
    if lruIndex ∈ m then some ⟨cString item.1, m⟩ else none
  | _ => none

/-- The node vector before sorting; items of an array have no name and are skipped. -/
def nodeVec (root : Json) : List Node :=
  match root with
  | .obj members => members.filterMap readKeyItem
  | _ => []

/-- The comparison of the sort: larger index first. -/
def indexGreater (a b : Node) : Bool :=
  decide (strtol (a.value.getD lruIndex []) > strtol (b.value.getD lruIndex []))

/-- What `ReadCacheFromJsonValue` passes to `Put`, in this order. -/
def nodesOfJson (root : Json) : List Node :=
  ((rt.sort indexGreater (nodeVec root)).map fun node =>
    { node with value := node.value.erase lruIndex }).filter fun node => !node.value.isEmpty

def readCacheFromJsonValue (s : LruCache) (root : Json) : Option LruCache :=
  putNodes rt c s (nodesOfJson rt root)

/-- `Clear`. Only the `Http` copy resets `size_`. -/
def clear (s : LruCache) : LruCache :=
  match c with
  | .http => { s with cache := ∅, nodeList := [], size := 0 }
  | .httpClient => { s with cache := ∅, nodeList := [] }

/-- The mutating operations of the class. -/
inductive Op where
  | put (key : Bytes) (value : ValueMap)
  | get (key : Bytes)
  | mergeOtherCache (other : LruCache)
  | mergeSelf
  | readCacheFromJsonValue (root : Json)
  | clear

def step (s : LruCache) : Op → Option LruCache
  | .put key value => s.put rt c key value
  | .get key => (s.get key).map Prod.snd
  | .mergeOtherCache other => s.mergeOtherCache rt c other
  | .mergeSelf => s.mergeSelf rt c
  | .readCacheFromJsonValue root => s.readCacheFromJsonValue rt c root
  | .clear => some (s.clear c)

def run (ops : List Op) (s : LruCache) : Option LruCache :=
  ops.foldlM (step rt c) s

end LruCache

end Netstack.HttpCache
