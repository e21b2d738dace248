import Netstack.HttpCache.DiskHandler

/-!
# What one store operation does

The file is described by the entries a cache puts when it reads it
(`fileEntries`) and by what a fresh cache then holds (`fileView`). Every
operation of the store is described by its effect on the memory list and on
these two lists.
-/

namespace Netstack.HttpCache.LruCacheDiskHandler

open Foundation Foundation.Recency LruCache

variable (rt : Runtime) (c : Copy) (js : JsonLibrary)

/-- The accepted entries of the file, in the order in which a reader puts them. -/
def fileEntries (h : LruCacheDiskHandler) : List (Bytes × ValueMap) :=
  acceptedEntries (((h.readJsonValueFromFile c js).map (nodesOfJson rt)).getD [])

/-- What a fresh cache holds after reading the file. -/
def fileView (h : LruCacheDiskHandler) : List (Bytes × ValueMap) :=
  putAll mapBytes maxSize [] (h.fileEntries rt c js)

/-- The memory cache is sound, and neither capacity is below one mebibyte. -/
structure Inv (slack : Nat) (h : LruCacheDiskHandler) : Prop where
  memory : LruCache.Inv slack h.cache
  memory_capacity : h.cache.capacity = maxSize
  capacity_ge : maxSize ≤ h.capacity

variable {rt c js} {slack : Nat} {h : LruCacheDiskHandler}

theorem le_boundedCapacity (capacity : Nat) : maxSize ≤ boundedCapacity capacity :=
  Nat.le_max_right _ _

theorem inv_create (disk : DiskHandler) (capacity : Nat) : Inv 0 (create disk capacity) where
  memory := by
    change LruCache.Inv 0 empty
    rw [empty_eq_ofCapacity]
    exact inv_ofCapacity maxSize
  memory_capacity := rfl
  capacity_ge := le_boundedCapacity capacity

theorem fileEntries_of_none (hread : h.readJsonValueFromFile c js = none) :
    h.fileEntries rt c js = [] := by
  simp [fileEntries, hread, acceptedEntries]

variable {root : Json}

theorem fileEntries_of_some (hread : h.readJsonValueFromFile c js = some root) :
    h.fileEntries rt c js = acceptedEntries (nodesOfJson rt root) := by
  simp [fileEntries, hread]

variable {h' : LruCacheDiskHandler}

section

variable (hdisk : h'.diskHandler = h.diskHandler)
include hdisk

/-- What is read depends on the file only. -/
theorem readJsonValueFromFile_congr :
    h'.readJsonValueFromFile c js = h.readJsonValueFromFile c js := by
  simp only [readJsonValueFromFile, hdisk]

theorem fileEntries_congr : h'.fileEntries rt c js = h.fileEntries rt c js := by
  simp only [fileEntries, readJsonValueFromFile_congr hdisk]

theorem fileView_congr : h'.fileView rt c js = h.fileView rt c js :=
  congrArg (putAll mapBytes maxSize []) (fileEntries_congr hdisk)

end

theorem fileEntries_portable : ∀ e ∈ h.fileEntries rt c js, LruCache.Portable e := by
  intro e he
  cases hread : h.readJsonValueFromFile c js with
  | none =>
    rw [fileEntries_of_none hread] at he
    cases he
  | some root =>
    rw [fileEntries_of_some hread] at he
    exact nodesOfJson_portable rt root e (List.mem_filter.mp he).1

theorem fileEntries_accepted : ∀ e ∈ h.fileEntries rt c js, Accepted e.2 := by
  intro e he
  simpa using (List.mem_filter.mp he).2

theorem fileView_portable : ∀ e ∈ h.fileView rt c js, LruCache.Portable e := by
  intro e he
  rcases mem_putAll mapBytes maxSize he with hnil | hfile
  · cases hnil
  · exact fileEntries_portable e hfile

variable {k : Bytes} {v : ValueMap}

/-- A value in the view is the last one the file has for its key. -/
theorem lastValue_of_fileView (hv : find k (h.fileView rt c js) = some v) :
    lastValue (h.fileEntries rt c js) k = some v := by
  rcases find_putAll mapBytes maxSize hv with hlast | ⟨-, hnil⟩
  · exact hlast
  · cases hnil

theorem ne_empty_of_accepted (hv : Accepted v) : v ≠ ∅ := by
  rintro rfl
  exact absurd hv (by decide)

theorem accepted_of_fileView (hv : find k (h.fileView rt c js) = some v) : Accepted v :=
  fileEntries_accepted (k, v) (List.mem_reverse.mp (mem_of_find (lastValue_of_fileView hv)))

variable (rt c js)

/-- The value a read-through lookup finds: the memory's, else the file's. -/
def lookup (h : LruCacheDiskHandler) (k : Bytes) : Option ValueMap :=
  (find k h.cache.entries).or (find k (h.fileView rt c js))

/-- The memory list after a lookup: the key is touched, or its file value is put. -/
def entriesAfterGet (budget : Nat) (h : LruCacheDiskHandler) (k : Bytes) :
    List (Bytes × ValueMap) :=
  match find k h.cache.entries, find k (h.fileView rt c js) with
  | some _, _ => touch k h.cache.entries
  | none, some v => Recency.put mapBytes budget h.cache.entries (k, v)
  | none, none => h.cache.entries

theorem Inv.accepted_of_lookup {rt : Runtime} {c : Copy} {js : JsonLibrary} (hinv : Inv slack h)
    (hv : h.lookup rt c js k = some v) : Accepted v := by
  rcases Option.or_eq_some_iff.mp hv with hmem | ⟨-, hfile⟩
  · exact hinv.memory.accepted (k, v) (mem_of_find hmem)
  · exact accepted_of_fileView hfile

/-- A file that could be read is read back after a page was written to it. -/
theorem readJsonValueFromFile_write {page : Json}
    (hread : h.readJsonValueFromFile c js = some root) (hpage : page.IsPage) :
    (h.writeJsonValueToFile js true page).readJsonValueFromFile c js = some page := by
  have htext : cString (js.print page) = js.print page :=
    cString_of_notMem (js.zero_notMem_print page hpage)
  have hcontent : (h.writeJsonValueToFile js true page).diskHandler.read c = js.print page := by
    cases c with
    | httpClient => simp [writeJsonValueToFile, DiskHandler.read, DiskHandler.write, htext]
    | http =>
      by_cases hdots : ascii ".." <:+: h.diskHandler.fileName
      · have hnone := js.parse_nil
        simp only [readJsonValueFromFile, DiskHandler.read, if_pos hdots] at hread
        exact absurd (hnone.symm.trans hread) (by simp)
      · simp [writeJsonValueToFile, DiskHandler.read, DiskHandler.write, hdots, htext]
  rw [readJsonValueFromFile, hcontent, htext, js.parse_print page hpage]

section

variable (hinv : Inv slack h)
include hinv

theorem Inv.cacheOfJson_spec (root : Json) :
    ∃ d, h.cacheOfJson rt c root = some d ∧ LruCache.Inv 0 d ∧ d.capacity = maxSize ∧
      d.entries = putAll mapBytes maxSize []
        (acceptedEntries (nodesOfJson rt root)) := by
  have hcap : (ofCapacity h.capacity).capacity = maxSize :=
    Nat.min_eq_left hinv.capacity_ge
  obtain ⟨d, hd, hinvd, hcapd, hent⟩ :=
    (inv_ofCapacity h.capacity).putNodes_spec rt c (nodesOfJson rt root)
  refine ⟨d, hd, hinvd, hcapd.trans hcap, ?_⟩
  rw [hent, hcap]
  rfl

theorem Inv.put_spec (k : Bytes) (v : ValueMap) :
    ∃ h', h.put rt c k v = some h' ∧ Inv slack h' ∧ h'.diskHandler = h.diskHandler ∧
      h'.cache.entries = if Accepted v
        then Recency.put mapBytes (maxSize - slack) h.cache.entries (k, v)
        else h.cache.entries := by
  obtain ⟨s, hs, hinvs, hcap, hent⟩ := hinv.memory.put_total rt c k v
  refine ⟨{ h with cache := s }, by simp [put, hs], ⟨hinvs, hcap.trans hinv.memory_capacity,
    hinv.capacity_ge⟩, rfl, ?_⟩
  rw [hent, hinv.memory_capacity]

theorem Inv.get_spec (k : Bytes) :
    ∃ h', h.get rt c js k = some ((h.lookup rt c js k).getD ∅, h') ∧ Inv slack h' ∧
      h'.diskHandler = h.diskHandler ∧
      h'.cache.entries = h.entriesAfterGet rt c js (maxSize - slack) k := by
  obtain ⟨s, hs, hinvs, hcap, hent⟩ := hinv.memory.get_spec k
  have hinv₁ : Inv slack { h with cache := s } :=
    ⟨hinvs, hcap.trans hinv.memory_capacity, hinv.capacity_ge⟩
  cases hmem : find k h.cache.entries with
  | some v =>
    have hne := ne_empty_of_accepted (hinv.memory.accepted (k, v) (mem_of_find hmem))
    refine ⟨{ h with cache := s }, ?_, hinv₁, rfl, ?_⟩
    · simp [get, hs, hmem, hne, lookup]
    · simp only [entriesAfterGet, hmem]
      exact hent
  | none =>
    have hent' : s.entries = h.cache.entries := by
      rw [hent, touch, hmem]
    cases hread : h.readJsonValueFromFile c js with
    | none =>
      have hview : h.fileView rt c js = [] := by
        simp [fileView, fileEntries_of_none hread]
      have hread' : ({ h with cache := s } : LruCacheDiskHandler).readJsonValueFromFile c js =
        none := hread
      refine ⟨{ h with cache := s }, ?_, hinv₁, rfl, ?_⟩
      · simp [get, hs, hmem, hread', lookup, hview]
      grind [entriesAfterGet, find_nil]
    | some root =>
      obtain ⟨d, hd, hinvd, -, hentd⟩ := hinv₁.cacheOfJson_spec rt c root
      have hview : h.fileView rt c js = d.entries := by
        rw [fileView, fileEntries_of_some hread, hentd]
      obtain ⟨d', hd', -⟩ := hinvd.get_spec k
      obtain ⟨t, ht, hinvt, hcapt, hentt⟩ :=
        hinvs.put_total rt c k ((find k d.entries).getD ∅)
      refine ⟨{ h with cache := t }, ?_, ⟨hinvt, ?_, hinv.capacity_ge⟩, rfl, ?_⟩
      · have hd'' : ({ h with cache := s } : LruCacheDiskHandler).cacheOfJson rt c root =
          some d := hd
        have hread' : ({ h with cache := s } : LruCacheDiskHandler).readJsonValueFromFile c js =
          some root := hread
        simp [get, hs, hmem, hread', hd'', hd', ht, lookup, hview]
      · exact hcapt.trans (hcap.trans hinv.memory_capacity)
      · simp only [entriesAfterGet, hmem, hview]
        cases hdisk : find k d.entries with
        | none =>
          rw [hdisk, Option.getD_none, if_neg (by decide)] at hentt
          exact hentt.trans hent'
        | some v =>
          have hv : Accepted v := hinvd.accepted (k, v) (mem_of_find hdisk)
          grind [@hinv.memory_capacity]

theorem Inv.readCacheFromJsonFile_spec :
    ∃ h', h.readCacheFromJsonFile rt c js = some h' ∧ Inv slack h' ∧
      h'.diskHandler = h.diskHandler ∧ h'.cache.entries =
        putAll mapBytes (maxSize - slack) h.cache.entries (h.fileEntries rt c js) := by
  cases hread : h.readJsonValueFromFile c js with
  | none =>
    grind [readCacheFromJsonFile, fileEntries_of_none, putAll_nil]
  | some root =>
    obtain ⟨s, hs, hinvs, hcap, hent⟩ :=
      hinv.memory.putNodes_spec rt c (nodesOfJson rt root)
    refine ⟨{ h with cache := s }, ?_, ⟨hinvs, hcap.trans hinv.memory_capacity,
      hinv.capacity_ge⟩, rfl, ?_⟩
    · simp [readCacheFromJsonFile, hread, readCacheFromJsonValue, hs]
    · rw [hent, hinv.memory_capacity, fileEntries_of_some hread]

/-- A flush of a readable file clears the memory. If the file can be opened for writing, it then has
the memory's entries put on top of the old file's, provided the memory can be written as it is. -/
theorem Inv.writeCacheToJsonFile_spec (opened : Bool)
    (hread : h.readJsonValueFromFile c js = some root) :
    ∃ h', h.writeCacheToJsonFile rt c js opened = some h' ∧
      Inv (slackAfter c h.cache slack .clear) h' ∧ h'.cache.entries = [] ∧
      (opened = false → h'.diskHandler = h.diskHandler) ∧
      (h'.readJsonValueFromFile c js).isSome ∧
      (opened = true → (∀ e ∈ h.cache.entries, LruCache.Portable e) →
        h'.fileEntries rt c js =
          (putAll mapBytes maxSize (h.fileView rt c js) h.cache.entries.reverse).reverse) := by
  obtain ⟨d, hd, hinvd, hcapd, hentd⟩ := hinv.cacheOfJson_spec rt c root
  obtain ⟨m, hm, hinvm, hcapm, hentm⟩ := hinvd.mergeOtherCache_spec rt c h.cache
  rw [hinv.memory.acceptedEntries_reverse, hcapd, hentd, ← fileEntries_of_some hread] at hentm
  have hpage := writeCacheToJsonValue_isPage rt m
  have hback := readJsonValueFromFile_write c js hread hpage
  refine ⟨{ h.writeJsonValueToFile js opened (m.writeCacheToJsonValue rt) with
    cache := h.cache.clear c }, ?_, ⟨hinv.memory.clear_spec c, ?_, hinv.capacity_ge⟩, ?_, ?_, ?_,
    ?_⟩
  · simp [writeCacheToJsonFile, hread, hd, hm]
    rfl
  · cases c <;> exact hinv.memory_capacity
  · cases c <;> rfl
  · rintro rfl
    rfl
  · cases opened with
    | false => exact Option.isSome_iff_exists.mpr ⟨root, hread⟩
    | true => exact Option.isSome_iff_exists.mpr ⟨_, hback⟩
  · rintro rfl hportable
    have hportablem : ∀ e ∈ m.entries, LruCache.Portable e := by
      intro e he
      rw [hentm] at he
      rcases mem_putAll mapBytes maxSize he with hview | hmemory
      · exact fileView_portable e hview
      · exact hportable e (List.mem_reverse.mp hmemory)
    have hwritten := hinvm.acceptedEntries_written rt hportablem
    rw [fileEntries_of_some (h := { h.writeJsonValueToFile js true (m.writeCacheToJsonValue rt) with
      cache := h.cache.clear c }) hback, hwritten, hentm]
    rfl

end

section Samples

/-- A value with one field. -/
def field (text : Bytes) : ValueMap := (∅ : ValueMap).insert (ascii "n") text

theorem mapBytes_field (text : Bytes) : mapBytes (field text) = text.length := by
  have hlist : (field text).toList = [(ascii "n", text)] := rfl
  simp [mapBytes, hlist]

/-- A cache file that holds an empty object. -/
def emptyObjectFile : DiskHandler := ⟨ascii "cache", some (ascii "\x7b\x7d")⟩

end Samples

end Netstack.HttpCache.LruCacheDiskHandler
