import Netstack.HttpCache.LruJson

/-!
# The two-level store

`LRUCacheDiskHandler` keeps an in-memory cache in front of a JSON file. A flush
reads the file into a fresh cache, merges the memory into it, writes the result
and clears the memory.

## Implementation notes

The file is its content, absent before the first write. `opened` is the answer of
`is_open` when the file is to be written; a stream that is open takes the whole
text. `std::string s = jsonStr` and `cJSON_Parse(s.c_str())` both stop at a NUL byte.
-/

namespace Netstack.HttpCache

open Foundation

def maxDiskCacheSize : Nat := 1024 * 1024 * 10

def minDiskCacheSize : Nat := 1024 * 1024

structure DiskHandler where
  fileName : Bytes
  content : Option Bytes
  deriving DecidableEq

namespace DiskHandler

/-- `Write`, which leaves a file as it is that cannot be opened. -/
def write (d : DiskHandler) (opened : Bool) (str : Bytes) : DiskHandler :=
  if opened then { d with content := some str } else d

/-- `Read`. The `Http` copy refuses a file name with two dots in it. -/
def read (c : Copy) (d : DiskHandler) : Bytes :=
  match c with
  | .http => if ascii ".." <:+: d.fileName then [] else d.content.getD []
  | .httpClient => d.content.getD []

def delete (d : DiskHandler) : DiskHandler := { d with content := none }

end DiskHandler

structure LruCacheDiskHandler where
  cache : LruCache
  diskHandler : DiskHandler
  capacity : Nat
  deriving DecidableEq

namespace LruCacheDiskHandler

/-- The bounds the constructor and `SetCapacity` put on `capacity_`. -/
def boundedCapacity (capacity : Nat) : Nat :=
  max (min maxDiskCacheSize capacity) minDiskCacheSize

/-- The constructor, over whatever file is there. -/
def create (diskHandler : DiskHandler) (capacity : Nat) : LruCacheDiskHandler :=
  { cache := .empty, diskHandler := diskHandler, capacity := boundedCapacity capacity }

section Operations

variable (rt : Runtime) (c : Copy) (js : JsonLibrary)

variable (h : LruCacheDiskHandler)

def delete : LruCacheDiskHandler :=
  { h with cache := h.cache.clear c, diskHandler := h.diskHandler.delete }

def readJsonValueFromFile : Option Json :=
  js.parse (cString (h.diskHandler.read c))

def writeJsonValueToFile (opened : Bool) (root : Json) : LruCacheDiskHandler :=
  { h with diskHandler := h.diskHandler.write opened (cString (js.print root)) }

/-- A local `LRUCache(capacity_)` filled from the parsed file. -/
def cacheOfJson (root : Json) : Option LruCache :=
  (LruCache.ofCapacity h.capacity).readCacheFromJsonValue rt c root

def writeCacheToJsonFile (opened : Bool) : Option LruCacheDiskHandler :=
  match h.readJsonValueFromFile c js with
  | none => some h
  | some readRoot => do
      let oldCache ← h.cacheOfJson rt c readRoot
      let oldCache ← oldCache.mergeOtherCache rt c h.cache
      let h := h.writeJsonValueToFile js opened (oldCache.writeCacheToJsonValue rt)
      return { h with cache := h.cache.clear c }

def setCapacity (opened : Bool) (capacity : Nat) : Option LruCacheDiskHandler :=
  writeCacheToJsonFile rt c js { h with capacity := boundedCapacity capacity } opened

def readCacheFromJsonFile : Option LruCacheDiskHandler :=
  match h.readJsonValueFromFile c js with
  | none => some h
  | some root => do
      let cache ← h.cache.readCacheFromJsonValue rt c root
      return { h with cache := cache }

def get (key : Bytes) : Option (ValueMap × LruCacheDiskHandler) := do
  let (valueFromMemory, cache) ← h.cache.get key
  let h := { h with cache := cache }
  if !valueFromMemory.isEmpty then
    return (valueFromMemory, h)
  else
    match h.readJsonValueFromFile c js with
    | none => return (valueFromMemory, h)
    | some root => do
        let diskCache ← h.cacheOfJson rt c root
        let (valueFromDisk, _) ← diskCache.get key
        let cache ← h.cache.put rt c key valueFromDisk
        return (valueFromDisk, { h with cache := cache })

def put (key : Bytes) (value : ValueMap) :
    Option LruCacheDiskHandler := do
  let cache ← h.cache.put rt c key value
  return { h with cache := cache }

end Operations

end LruCacheDiskHandler

end Netstack.HttpCache
