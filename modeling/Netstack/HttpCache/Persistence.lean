import Netstack.Foundation.JsonText
import Netstack.HttpCache.DiskStore

/-!
# What survives a restart

Values are put into a fresh store, flushed, and looked up in another store that
has read the same file. The flush writes nothing when the file could not be
parsed, so a file that is absent, empty or damaged is never replaced.
-/

namespace Netstack.HttpCache.LruCacheDiskHandler

open Foundation Foundation.Recency JsonText List LruCache Option

section Restart

variable (rt : Runtime) (c : Copy) (js : JsonLibrary)

variable (h : LruCacheDiskHandler)

/-- `Put` of each entry, in order. -/
def putEntries (es : List (Bytes × ValueMap)) : Option LruCacheDiskHandler :=
  es.foldlM (fun h e => h.put rt c e.1 e.2) h

/-- Put the entries, flush, and reopen the file: every last value is found again. -/
def Persisted (disk : DiskHandler) (capacity reopened : Nat) (es : List (Bytes × ValueMap)) :
    Prop :=
  ∃ h₁ h₂ h₃, (create disk capacity).putEntries rt c es = some h₁ ∧
    h₁.writeCacheToJsonFile rt c js true = some h₂ ∧
    (create h₂.diskHandler reopened).readCacheFromJsonFile rt c js = some h₃ ∧
    ∀ k v, lastValue es k = some v → ∃ h₄, h₃.get rt c js k = some (v, h₄)

/-- The entries that the flush is to write: the memory's on top of the file's, each
list cut to one mebibyte. -/
def flushedEntries (disk : DiskHandler) (capacity : Nat) (es : List (Bytes × ValueMap)) :
    List (Bytes × ValueMap) :=
  putAll mapBytes maxSize ((create disk capacity).fileView rt c js)
    (putAll mapBytes maxSize [] es).reverse

variable {rt c js} {disk : DiskHandler} {capacity : Nat} {es : List (Bytes × ValueMap)}

theorem putEntries_spec (rt : Runtime) (c : Copy) (disk : DiskHandler) (capacity : Nat)
    (hes : ∀ e ∈ es, Accepted e.2) :
    ∃ h, (create disk capacity).putEntries rt c es = some h ∧ Inv 0 h ∧ h.diskHandler = disk ∧
      h.cache.entries = putAll mapBytes maxSize [] es := by
  induction es using List.reverseRecOn with
  | nil => exact ⟨_, rfl, inv_create disk capacity, rfl, rfl⟩
  | append_singleton es e ih =>
    obtain ⟨h, hrun, hinv, hdisk, hent⟩ := ih fun a ha => hes a (mem_append_left _ ha)
    obtain ⟨h', hput, hinv', hdisk', hent'⟩ := hinv.put_spec rt c e.1 e.2
    refine ⟨h', ?_, hinv', hdisk'.trans hdisk, ?_⟩
    · rw [putEntries, Execution.foldlM_concat, ← putEntries, hrun]
      exact hput
    · rw [if_pos (hes e (by simp)), hent] at hent'
      rw [hent', putAll_concat, Nat.sub_zero]

/-- A reopened store finds exactly what a fresh cache holds after reading the file. -/
theorem reopened_get (rt : Runtime) (c : Copy) (js : JsonLibrary) (disk : DiskHandler)
    (reopened : Nat) :
    ∃ h, (create disk reopened).readCacheFromJsonFile rt c js = some h ∧
      ∀ k, ∃ h', h.get rt c js k =
        some ((find k ((create disk reopened).fileView rt c js)).getD ∅, h') := by
  obtain ⟨h, hread, hinv, hdisk, hent⟩ :=
    (inv_create disk reopened).readCacheFromJsonFile_spec rt c js
  have hview : h.fileView rt c js = (create disk reopened).fileView rt c js :=
    fileView_congr hdisk
  have hmemory : h.cache.entries = (create disk reopened).fileView rt c js := hent
  refine ⟨h, hread, ?_⟩
  intro k
  obtain ⟨h', hget, -⟩ := hinv.get_spec rt c js k
  refine ⟨h', ?_⟩
  rw [hget, lookup, hmemory, hview, Option.or_self]

section

variable (hes : ∀ e ∈ es, Accepted e.2)
include hes

theorem accepted_of_lastValue {k : Bytes} {v : ValueMap}
    (hv : lastValue es k = some v) : Accepted v :=
  hes (k, v) (mem_reverse.mp (mem_of_find hv))

/-- Being persisted is a property of the flushed file. -/
theorem persisted_iff_fileView (reopened : Nat)
    {h₁ h₂ : LruCacheDiskHandler} (hput : (create disk capacity).putEntries rt c es = some h₁)
    (hwrite : h₁.writeCacheToJsonFile rt c js true = some h₂) :
    Persisted rt c js disk capacity reopened es ↔
      ∀ k v, lastValue es k = some v → find k (h₂.fileView rt c js) = some v := by
  obtain ⟨h₃, hread, hget⟩ := reopened_get rt c js h₂.diskHandler reopened
  have hview : (create h₂.diskHandler reopened).fileView rt c js = h₂.fileView rt c js :=
    fileView_congr rfl
  rw [hview] at hget
  constructor
  · rintro ⟨g₁, g₂, g₃, hg₁, hg₂, hg₃, hall⟩ k v hv
    obtain rfl : h₁ = g₁ := Option.some.inj (hput.symm.trans hg₁)
    obtain rfl : h₂ = g₂ := Option.some.inj (hwrite.symm.trans hg₂)
    obtain rfl : h₃ = g₃ := Option.some.inj (hread.symm.trans hg₃)
    obtain ⟨h₄, hv₄⟩ := hall k v hv
    obtain ⟨h₄', hv₄'⟩ := hget k
    have hvalue : (find k (h₂.fileView rt c js)).getD ∅ = v :=
      congrArg Prod.fst (Option.some.inj (hv₄'.symm.trans hv₄))
    cases hfind : find k (h₂.fileView rt c js) with
    | none =>
      rw [hfind] at hvalue
      exact absurd hvalue.symm (ne_empty_of_accepted (accepted_of_lastValue hes hv))
    | some u =>
      rw [hfind] at hvalue
      exact congrArg some hvalue
  · intro hall
    refine ⟨h₁, h₂, h₃, hput, hwrite, hread, ?_⟩
    intro k v hv
    obtain ⟨h₄, hv₄⟩ := hget k
    grind

/-- Over a file that does not parse the flush writes nothing. -/
theorem persisted_iff_of_unreadable (reopened : Nat)
    (hread : (create disk capacity).readJsonValueFromFile c js = none) :
    Persisted rt c js disk capacity reopened es ↔ ∀ k, lastValue es k = none := by
  obtain ⟨h₁, hput, -, hdisk, -⟩ := putEntries_spec rt c disk capacity hes
  have hread₁ : h₁.readJsonValueFromFile c js = none := by
    rw [readJsonValueFromFile, hdisk]
    exact hread
  have hwrite : h₁.writeCacheToJsonFile rt c js true = some h₁ := by
    simp [writeCacheToJsonFile, hread₁]
  rw [persisted_iff_fileView hes reopened hput hwrite, fileView, fileEntries_of_none hread₁]
  simp [eq_none_iff_forall_ne_some]

end

theorem keysNodup_fileView : KeysNodup (h.fileView rt c js) :=
  putAll_keysNodup mapBytes maxSize keysNodup_nil _

theorem total_fileView_le : total mapBytes (h.fileView rt c js) ≤ maxSize :=
  total_putAll_le mapBytes maxSize (Nat.zero_le _) _

/-- If every last value can be written as it is, the flush writes what it is to write. -/
theorem flush_fileView {h₁ : LruCacheDiskHandler} (hinv : Inv 0 h₁) (hdisk : h₁.diskHandler = disk)
    (hent : h₁.cache.entries = putAll mapBytes maxSize [] es) {root : Json}
    (hread : (create disk capacity).readJsonValueFromFile c js = some root) :
    ∃ h₂, h₁.writeCacheToJsonFile rt c js true = some h₂ ∧
      ((∀ k v, lastValue es k = some v → Portable (k, v)) →
        h₂.fileView rt c js = flushedEntries rt c js disk capacity es) := by
  have hread₁ : h₁.readJsonValueFromFile c js = some root := by
    rw [readJsonValueFromFile, hdisk]
    exact hread
  have hview : h₁.fileView rt c js = (create disk capacity).fileView rt c js := fileView_congr hdisk
  obtain ⟨h₂, hwrite, -, -, -, -, hfile⟩ := hinv.writeCacheToJsonFile_spec rt c js true hread₁
  refine ⟨h₂, hwrite, ?_⟩
  intro hportable
  have hmemory : ∀ e ∈ h₁.cache.entries, Portable e := by
    rintro ⟨k, v⟩ he
    have hfind := hinv.memory.keys.find_of_mem he
    rw [hent] at hfind
    rcases find_putAll mapBytes maxSize hfind with hlast | ⟨-, hnil⟩
    · exact hportable k v hlast
    · cases hnil
  rw [fileView, hfile rfl hmemory, hview, hent]
  exact putAll_reverse mapBytes maxSize
    (putAll_keysNodup mapBytes maxSize (keysNodup_fileView _) _)
    (total_putAll_le mapBytes maxSize (total_fileView_le _) _)

/-- Values that fit together in one mebibyte are all among those to be written. -/
theorem find_flushedEntries_of_fit (hfit : ∀ p, p <+: es → total mapBytes (recents p) ≤ maxSize)
    {k : Bytes} {v : ValueMap} (hv : lastValue es k = some v) :
    find k (flushedEntries rt c js disk capacity es) = some v := by
  have hmemory : putAll mapBytes maxSize [] es = recents es :=
    putAll_nil_eq_recents mapBytes maxSize es hfit
  have hfront : recents es <+: flushedEntries rt c js disk capacity es := by
    rw [flushedEntries, hmemory]
    apply prefix_putAll_reverse
    · rw [← hmemory]
      exact putAll_keysNodup mapBytes maxSize keysNodup_nil es
    · exact hfit es prefix_rfl
  exact find_of_isPrefix hfront ((find_recents es k).trans hv)

end Restart

/-- Every last value of a list of accepted puts is found again after a flush and a
restart if and only if the file could be parsed before the flush, JSON can hold the
value unchanged, and the value is among the mebibyte that the flush keeps. The last
condition is met by all values that fit together in one mebibyte. -/
theorem persisted_iff (rt : Runtime) (c : Copy) (js : JsonLibrary) (disk : DiskHandler)
    (capacity reopened : Nat) (es : List (Bytes × ValueMap)) (hes : ∀ e ∈ es, Accepted e.2) :
    (Persisted rt c js disk capacity reopened es ↔
      ∀ k v, lastValue es k = some v →
        ((create disk capacity).readJsonValueFromFile c js).isSome ∧
          Portable (k, v) ∧
          find k (flushedEntries rt c js disk capacity es) = some v) ∧
    ((∀ p, p <+: es → total mapBytes (recents p) ≤ maxSize) →
      ∀ k v, lastValue es k = some v →
        find k (flushedEntries rt c js disk capacity es) = some v) := by
  obtain ⟨h₁, hput, hinv, hdisk, hent⟩ :=
    putEntries_spec rt c disk capacity hes
  refine ⟨?_, fun hfit k v hv => find_flushedEntries_of_fit hfit hv⟩
  cases hread : (create disk capacity).readJsonValueFromFile c js with
  | none =>
    rw [persisted_iff_of_unreadable hes reopened hread]
    constructor
    · intro hall k v hv
      cases (hall k).symm.trans hv
    · intro hall k
      cases hv : lastValue es k with
      | none => rfl
      | some v => cases (hall k v hv).1
  | some root =>
    obtain ⟨h₂, hwrite, hflushed⟩ := flush_fileView hinv hdisk hent hread
    rw [persisted_iff_fileView hes reopened hput hwrite]
    grind [fileView_portable, mem_of_find]

theorem persisted_over_empty_object :
    Persisted .ordered .httpClient cJson emptyObjectFile 0 0
      [(ascii "k", field (ascii "1"))] := by
  apply (persisted_iff .ordered .httpClient cJson emptyObjectFile 0 0
    [(ascii "k", field (ascii "1"))] (by decide)).1.mpr
  intro k v hv
  have hentry : (k, v) = (ascii "k", field (ascii "1")) :=
    mem_singleton.mp (mem_reverse.mp (mem_of_find hv))
  obtain ⟨rfl, rfl⟩ := Prod.mk.inj hentry
  exact ⟨by decide, by decide, by decide⟩

/-- With no file there, nothing is ever persisted. -/
theorem absent_file_not_persisted :
    Accepted (field (ascii "1")) ∧
      ¬ Persisted .ordered .httpClient cJson ⟨ascii "cache", none⟩ 0 0
        [(ascii "k", field (ascii "1"))] := by
  refine ⟨by decide, ?_⟩
  rw [persisted_iff_of_unreadable (by decide) 0 (by decide)]
  intro hall
  exact absurd (hall (ascii "k")) (by decide)

/-! ### What a flush keeps -/

section Flush

variable (rt : Runtime) (c : Copy) (js : JsonLibrary) {slack : Nat} {h : LruCacheDiskHandler}

/-- The value that a flush is to keep for a key: the memory's, or else the file's. -/
def winner (h : LruCacheDiskHandler) (k : Bytes) : Option ValueMap :=
  (find k h.cache.entries).or (lastValue (h.fileEntries rt c js) k)

/-- The file has all winners after a flush. -/
def KeepsWinners (opened : Bool) (h : LruCacheDiskHandler) : Prop :=
  ∃ h', h.writeCacheToJsonFile rt c js opened = some h' ∧
    ∀ k v, h.winner rt c js k = some v → lastValue (h'.fileEntries rt c js) k = some v

section

variable (hinv : Inv slack h)
include hinv

/-- A flush that leaves the file as it is keeps the winners if the file has them. -/
theorem keepsWinners_iff_of_unwritten {opened : Bool} {h' : LruCacheDiskHandler}
    (hwrite : h.writeCacheToJsonFile rt c js opened = some h')
    (hdisk : h'.diskHandler = h.diskHandler) :
    KeepsWinners rt c js opened h ↔
      ∀ e ∈ h.cache.entries, lastValue (h.fileEntries rt c js) e.1 = some e.2 := by
  rw [← fileEntries_congr hdisk]
  constructor
  · rintro ⟨g, hg, hkept⟩ ⟨k, v⟩ he
    obtain rfl : h' = g := Option.some.inj (hwrite.symm.trans hg)
    refine hkept k v ?_
    rw [winner, hinv.memory.keys.find_of_mem he]
    rfl
  · intro hall
    refine ⟨h', hwrite, fun k v hv => ?_⟩
    rcases or_eq_some_iff.mp hv with hmem | ⟨-, hfile⟩
    · exact hall (k, v) (mem_of_find hmem)
    · rw [fileEntries_congr hdisk]
      exact hfile

/-- A flush that writes the file keeps the winners if JSON can hold them and none is evicted. -/
theorem keepsWinners_iff_of_written {root : Json}
    (hread : h.readJsonValueFromFile c js = some root) :
    KeepsWinners rt c js true h ↔ (∀ e ∈ h.cache.entries, Portable e) ∧
      KeepsLast mapBytes maxSize (h.fileEntries rt c js ++ h.cache.entries.reverse) := by
  obtain ⟨h', hwrite, -, -, -, -, hfile⟩ := hinv.writeCacheToJsonFile_spec rt c js true hread
  have hmerged : putAll mapBytes maxSize (h.fileView rt c js) h.cache.entries.reverse =
      putAll mapBytes maxSize [] (h.fileEntries rt c js ++ h.cache.entries.reverse) :=
    foldl_append.symm
  have hwinner : ∀ k, h.winner rt c js k =
      lastValue (h.fileEntries rt c js ++ h.cache.entries.reverse) k := by
    intro k
    rw [winner, lastValue_append, lastValue_reverse]
  rw [← keepsLast_iff mapBytes maxSize []]
  constructor
  · rintro ⟨g, hg, hkept⟩
    obtain rfl : h' = g := Option.some.inj (hwrite.symm.trans hg)
    have hportable : ∀ e ∈ h.cache.entries, Portable e := by
      rintro ⟨k, v⟩ he
      have hv : h.winner rt c js k = some v := by
        rw [winner, hinv.memory.keys.find_of_mem he]
        rfl
      exact fileEntries_portable (k, v) (mem_reverse.mp (mem_of_find (hkept k v hv)))
    refine ⟨hportable, fun k v hv => ?_⟩
    rw [← hmerged, ← lastValue_reverse, ← hfile rfl hportable]
    exact hkept k v ((hwinner k).trans hv)
  · rintro ⟨hportable, hall⟩
    refine ⟨h', hwrite, fun k v hv => ?_⟩
    rw [hfile rfl hportable, lastValue_reverse, hmerged]
    exact hall k v ((hwinner k).symm.trans hv)

/-- Whatever the capacity is, a flush keeps all winners if and only if JSON can hold the memory's
values unchanged and every winner fits in one mebibyte with what is merged after its last put, at
every moment of the merging. A flush that cannot parse the file or cannot open it for writing keeps
them if and only if the file has the memory's values already. -/
theorem flush_keeps_winners_iff (opened : Bool) :
    KeepsWinners rt c js opened h ↔
      if (h.readJsonValueFromFile c js).isSome = true ∧ opened = true then
        (∀ e ∈ h.cache.entries, Portable e) ∧
          KeepsLast mapBytes maxSize (h.fileEntries rt c js ++ h.cache.entries.reverse)
      else ∀ e ∈ h.cache.entries, lastValue (h.fileEntries rt c js) e.1 = some e.2 := by
  cases hread : h.readJsonValueFromFile c js with
  | none =>
    rw [if_neg (by simp)]
    exact keepsWinners_iff_of_unwritten rt c js hinv (by simp [writeCacheToJsonFile, hread]) rfl
  | some root =>
    cases opened with
    | false =>
      obtain ⟨h', hwrite, -, -, hdisk, -⟩ := hinv.writeCacheToJsonFile_spec rt c js false hread
      rw [if_neg (by simp)]
      exact keepsWinners_iff_of_unwritten rt c js hinv hwrite (hdisk rfl)
    | true =>
      rw [if_pos (by simp)]
      exact keepsWinners_iff_of_written rt c js hinv hread

end

/-- Entries that fit in one mebibyte can be the file and the memory of a store. -/
theorem exists_store (file memory : List (Bytes × ValueMap))
    (hfile : KeysNodup file ∧ total mapBytes file ≤ maxSize ∧
      ∀ e ∈ file, Accepted e.2 ∧ Portable e)
    (hmemory : KeysNodup memory ∧ total mapBytes memory ≤ maxSize ∧ ∀ e ∈ memory, Accepted e.2) :
    ∃ h, Inv 0 h ∧ h.capacity = maxDiskCacheSize ∧
      (h.readJsonValueFromFile .httpClient cJson).isSome = true ∧
      h.fileEntries .ordered .httpClient cJson = file.reverse ∧ h.cache.entries = memory := by
  have hstored : ∀ (disk : DiskHandler) {l : List (Bytes × ValueMap)},
      KeysNodup l → total mapBytes l ≤ maxSize → (∀ e ∈ l, Accepted e.2) →
      ∃ h, Inv 0 h ∧ h.diskHandler = disk ∧ h.cache.entries = l := by
    intro disk l hkeys hfit haccepted
    obtain ⟨h, -, hinv, hdisk, hent⟩ := putEntries_spec .ordered .httpClient disk 0
      fun e he => haccepted e (mem_reverse.mp he)
    exact ⟨h, hinv, hdisk, hent.trans (putAll_reverse mapBytes maxSize hkeys hfit)⟩
  obtain ⟨h₁, hinv₁, hdisk₁, hent₁⟩ := hstored emptyObjectFile hfile.1 hfile.2.1
    fun e he => (hfile.2.2 e he).1
  obtain ⟨root, hroot⟩ : ∃ root, h₁.readJsonValueFromFile .httpClient cJson = some root := by
    rw [readJsonValueFromFile_congr (h := create emptyObjectFile 0) hdisk₁]
    exact isSome_iff_exists.mp (by decide)
  have hview : h₁.fileView .ordered .httpClient cJson = [] := by
    rw [fileView_congr (h := create emptyObjectFile 0) hdisk₁]
    decide
  obtain ⟨h₂, -, -, -, -, hread, hwritten⟩ :=
    hinv₁.writeCacheToJsonFile_spec .ordered .httpClient cJson true hroot
  rw [hent₁, hview, putAll_reverse mapBytes maxSize hfile.1 hfile.2.1] at hwritten
  obtain ⟨h₃, hinv₃, hdisk₃, hent₃⟩ := hstored h₂.diskHandler hmemory.1 hmemory.2.1 hmemory.2.2
  have hcap : maxSize ≤ maxDiskCacheSize := by decide
  refine ⟨{ h₃ with capacity := maxDiskCacheSize }, ⟨hinv₃.memory, hinv₃.memory_capacity, hcap⟩,
    rfl, ?_, ?_, hent₃⟩
  · exact (congrArg isSome (readJsonValueFromFile_congr hdisk₃)).trans hread
  · exact (fileEntries_congr hdisk₃).trans (hwritten rfl fun e he => (hfile.2.2 e he).2)

/-- A value of 700000 bytes. -/
def large : ValueMap := field (List.replicate 700000 97)

theorem mapBytes_large : mapBytes large = 700000 := by
  rw [large, mapBytes_field, length_replicate]

theorem accepted_large : Accepted large := by
  rw [Accepted, mapBytes_large]
  decide

theorem portable_large {k : Bytes} (hk : (0 : UInt8) ∉ k) : Portable (k, large) := by
  have hlist : large.toList = [(ascii "n", List.replicate 700000 97)] := rfl
  refine ⟨hk, ?_⟩
  rw [hlist, forall_mem_singleton]
  exact ⟨by decide, fun hmem => absurd (eq_of_mem_replicate hmem) (by decide), by decide⟩

/-- A value that is evicted by another one is put again. -/
theorem keepsLast_of_replaced {v : ValueMap} (hv : mapBytes v = 700000) :
    KeepsLast mapBytes maxSize [(ascii "a", v), (ascii "b", field (ascii "1")), (ascii "c", v),
      (ascii "a", field (ascii "2"))] := by
  have hfits : ∀ {e : Bytes × ValueMap} {es : List (Bytes × ValueMap)},
      mapBytes e.2 + total mapBytes es ≤ maxSize →
      ∀ p, p <+: es → mapBytes e.2 + total mapBytes (recents p) ≤ maxSize := by
    intro e es hle p hp
    have hprefix := total_recents_prefix_le mapBytes _ le_rfl hp
    omega
  refine ⟨nofun, fun _ => hfits ?_, fun _ => hfits ?_, fun _ => hfits ?_, trivial⟩
  all_goals simp [mapBytes_field, ascii, hv, maxSize]

theorem flush_keeps_winners_of_replaced :
    ∃ h, h.fileEntries .ordered .httpClient cJson =
        [(ascii "a", large), (ascii "b", field (ascii "1"))] ∧
      h.cache.entries = [(ascii "a", field (ascii "2")), (ascii "c", large)] ∧
      KeepsWinners .ordered .httpClient cJson true h := by
  have hfit : ∀ {v : ValueMap} {j k text : Bytes}, mapBytes v = 700000 → text.length = 1 →
      total mapBytes [(j, field text), (k, v)] ≤ maxSize := by
    intro v j k text hv htext
    simp [mapBytes_field, htext, hv, maxSize]
  obtain ⟨h, hinv, -, hread, hfile, hent⟩ := exists_store
    [(ascii "b", field (ascii "1")), (ascii "a", large)]
    [(ascii "a", field (ascii "2")), (ascii "c", large)]
    ⟨by unfold KeysNodup; decide, hfit mapBytes_large rfl, by
      simp only [forall_mem_cons]
      exact ⟨by decide, ⟨accepted_large, portable_large (by decide)⟩, forall_mem_nil _⟩⟩
    ⟨by unfold KeysNodup; decide, hfit mapBytes_large rfl, by
      simp only [forall_mem_cons]
      exact ⟨by decide, accepted_large, forall_mem_nil _⟩⟩
  refine ⟨h, hfile, hent, (flush_keeps_winners_iff .ordered .httpClient cJson hinv true).mpr ?_⟩
  rw [if_pos ⟨hread, rfl⟩, hent, hfile]
  refine ⟨?_, keepsLast_of_replaced mapBytes_large⟩
  simp only [forall_mem_cons]
  exact ⟨by decide, portable_large (by decide), forall_mem_nil _⟩

/-- Two large values are less than the capacity of ten mebibytes, but a flush keeps only one. -/
theorem capacity_not_used :
    ∃ h, Inv 0 h ∧ h.capacity = maxDiskCacheSize ∧
      h.fileEntries .ordered .httpClient cJson = [(ascii "a", large)] ∧
      h.cache.entries = [(ascii "b", large)] ∧ mapBytes large + mapBytes large ≤ h.capacity ∧
      ¬ KeepsWinners .ordered .httpClient cJson true h := by
  have hone : ∀ k : Bytes, KeysNodup [(k, large)] ∧ total mapBytes [(k, large)] ≤ maxSize := by
    intro k
    exact ⟨nodup_singleton k, by simp [mapBytes_large, maxSize]⟩
  obtain ⟨h, hinv, hcap, hread, hfile, hent⟩ := exists_store [(ascii "a", large)]
    [(ascii "b", large)]
    ⟨(hone _).1, (hone _).2, forall_mem_singleton.mpr ⟨accepted_large, portable_large (by decide)⟩⟩
    ⟨(hone _).1, (hone _).2, forall_mem_singleton.mpr accepted_large⟩
  obtain ⟨root, hroot⟩ := isSome_iff_exists.mp hread
  refine ⟨h, hinv, hcap, hfile, hent, by rw [hcap, mapBytes_large]; decide, ?_⟩
  rw [keepsWinners_iff_of_written .ordered .httpClient cJson hinv hroot, hfile, hent]
  rintro ⟨-, hkept, -⟩
  have hle := hkept (by decide) _ prefix_rfl
  simp [recents, mapBytes_large, maxSize] at hle

end Flush

end Netstack.HttpCache.LruCacheDiskHandler
