import Netstack.HttpClient.CurlOptions

/-!
# Headers of a request as text

The headers of a request are written as lines, `name:value` or, without a value, `name;`.
`ParseHeaders` reads them back, but it knows only the first form: a line without a colon is
a name as a whole.

## Implementation notes

A line is a C string, so it ends at the first NUL. The lines are joined before they are
read, so a line break inside one makes two of it.
-/

namespace Netstack.HttpClient

open Foundation Foundation.FiniteMaps CommonUtils List
open HttpCache hiding HttpResponse
open HttpCache.HttpConstant

/-- What one round of `ParseHeaders` adds. -/
def headerEntry (header : Bytes) : Option (Bytes × Bytes) :=
  if strip header 32 = [] then none
  else
    match cut httpHeaderSeparator header with
    | none => some (strip header 32, [])
    | some (name, value) => some (lower (strip name 32), strip value 32)

/-- `ParseHeaders` on a request without headers. -/
def parseHeaders (rawHeader : Bytes) : Headers :=
  collect ((split rawHeader httpLineSeparator).filterMap headerEntry)

/-- The header text that is made of a list of lines. -/
def rawHeaderOf (lines : List Bytes) : Bytes := terminated 13 10 (lines.map cString) []

/-- A text that can be a part of one line. -/
def OneLine (s : Bytes) : Prop := (0 : UInt8) ∉ s ∧ ¬ httpLineSeparator <:+: s

namespace OneLine

variable {s t : Bytes}

theorem cString_eq (h : OneLine s) : cString s = s := cString_of_notMem h.1

theorem of_isInfix (h : OneLine s) (hts : t <:+: s) : OneLine t :=
  ⟨fun h0 => h.1 (hts.subset h0), fun hsep => h.2 (hsep.trans hts)⟩

theorem lower (h : OneLine s) : OneLine (lower s) :=
  ⟨notMem_lower (by decide) h.1, notInfix_lower (by decide) (by decide) h.2⟩

theorem append_cons (hs : OneLine s) (ht : OneLine t) {c : UInt8} (hc : 13 < c) :
    OneLine (s ++ c :: t) := by
  have hlow : ∀ b : UInt8, b ≤ 13 → b ≠ c := by
    rintro b hb rfl
    exact absurd hc (UInt8.not_lt.2 hb)
  refine ⟨?_, notInfix_append_cons (hlow 13 (by decide)) (hlow 10 (by decide)) hs.2 ht.2⟩
  simp only [mem_append, mem_cons, not_or]
  exact ⟨hs.1, hlow 0 (by decide), ht.1⟩

end OneLine

theorem oneLine_nil : OneLine [] := ⟨not_mem_nil, by decide⟩

/-- Lines that are single lines are found again. -/
theorem split_rawHeaderOf {lines : List Bytes} (h : ∀ line ∈ lines, OneLine line) :
    split (rawHeaderOf lines) httpLineSeparator = lines := by
  induction lines with
  | nil => rfl
  | cons line lines ih =>
    obtain ⟨hline, hlines⟩ := forall_mem_cons.1 h
    have hne : rawHeaderOf (line :: lines) ≠ [] := by
      rw [rawHeaderOf, map_cons, terminated_cons]
      simp
    have hcut : cut httpLineSeparator (rawHeaderOf (line :: lines)) =
        some (line, rawHeaderOf lines) := by
      rw [rawHeaderOf, map_cons, terminated_cons, hline.cString_eq]
      exact cut_of_head_notMem (by decide) hline.2 _
    rw [split_eq (by decide), if_neg hne, hcut]
    exact congrArg (line :: ·) (ih hlines)

/-- Every piece of a header text is a single line. -/
theorem oneLine_of_mem_split {lines : List Bytes} {piece : Bytes}
    (h : piece ∈ split (rawHeaderOf lines) httpLineSeparator) : OneLine piece := by
  obtain ⟨hin, hno⟩ := infix_of_mem_split (by decide) h
  refine ⟨fun h0 => ?_, hno⟩
  have hmem : (0 : UInt8) ∈ rawHeaderOf lines := hin.subset h0
  simp only [rawHeaderOf, terminated, append_nil, mem_flatMap, mem_map] at hmem
  obtain ⟨_, ⟨line, -, rfl⟩, hmem⟩ := hmem
  rcases mem_append.1 hmem with hmem | hmem
  · exact zero_notMem_cString line hmem
  · exact absurd hmem (by decide)

variable {header : Bytes × Bytes} {name : Bytes} {value : Bytes}

section Entries

/-- A header as `ParseHeaders` leaves it. -/
structure Normal (header : Bytes × Bytes) : Prop where
  name_oneLine : OneLine header.1
  value_oneLine : OneLine header.2
  name_noColon : (58 : UInt8) ∉ header.1
  name_stripped : strip header.1 32 = header.1
  value_stripped : strip header.2 32 = header.2
  name_lower : header.2 ≠ [] → lower header.1 = header.1

theorem normal_of_headerEntry {line : Bytes} (hline : OneLine line)
    (h : headerEntry line = some header) : Normal header := by
  unfold headerEntry at h
  split at h
  · cases h
  · cases hcut : cut httpHeaderSeparator line with
    | none =>
      rw [hcut] at h
      cases h
      have hcolon : (58 : UInt8) ∉ line := by
        intro hmem
        obtain ⟨front, back, rfl⟩ := append_of_mem hmem
        exact (cut_eq_none_iff (by decide)).1 hcut
          ⟨front, back, by simp [httpHeaderSeparator]; rfl⟩
      exact
        { name_oneLine := hline.of_isInfix (strip_isInfix line 32)
          value_oneLine := oneLine_nil
          name_noColon := fun hmem => hcolon ((strip_isInfix line 32).subset hmem)
          name_stripped := strip_strip line 32
          value_stripped := rfl
          name_lower := fun hne => absurd rfl hne }
    | some p =>
      obtain ⟨name, value⟩ := p
      rw [hcut] at h
      cases h
      have hsplit : line = name ++ httpHeaderSeparator ++ value := cut_append hcut
      have hname : name <:+: line := by
        rw [hsplit, append_assoc]
        exact (prefix_append name _).isInfix
      have hvalue : value <:+: line := by
        rw [hsplit]
        exact (suffix_append _ value).isInfix
      have hcolon : (58 : UInt8) ∉ name := by
        intro hmem
        obtain ⟨front, back, rfl⟩ := append_of_mem hmem
        exact notInfix_of_cut (by decide) hcut ⟨front, back, by simp [httpHeaderSeparator]; rfl⟩
      have hstripName : strip name 32 <:+: name := strip_isInfix name 32
      exact
        { name_oneLine := ((hline.of_isInfix hname).of_isInfix hstripName).lower
          value_oneLine := (hline.of_isInfix hvalue).of_isInfix (strip_isInfix value 32)
          name_noColon := notMem_lower (by decide) fun hmem => hcolon (hstripName.subset hmem)
          name_stripped := by
            rw [strip_lower _ (lowerByte_eq_iff (by decide)), strip_strip]
          value_stripped := strip_strip value 32
          name_lower := fun _ => lower_lower _ }

theorem headerLine_of_value (h : value ≠ []) :
    headerLine (name, value) = name ++ httpHeaderSeparator ++ value :=
  if_pos h

theorem headerLine_of_blank (name : Bytes) :
    headerLine (name, []) = name ++ httpHeaderBlankSeparator :=
  if_neg fun h => h rfl

theorem oneLine_headerLine (hname : OneLine name) (hvalue : OneLine value) :
    OneLine (headerLine (name, value)) := by
  by_cases hv : value = []
  · rw [hv, headerLine_of_blank]
    exact hname.append_cons oneLine_nil (by decide)
  · rw [headerLine_of_value hv, append_assoc]
    exact hname.append_cons hvalue (by decide)

/-- A line with a colon is read as a name and a value. -/
theorem headerEntry_of_colon (hname : (58 : UInt8) ∉ name) (value : Bytes) :
    headerEntry (name ++ httpHeaderSeparator ++ value) =
      some (lower (strip name 32), strip value 32) := by
  have hne : strip (name ++ httpHeaderSeparator ++ value) 32 ≠ [] :=
    strip_ne_nil (b := 58)
      (mem_append_left value (mem_append_right name (by decide))) (by decide)
  have hcut : cut httpHeaderSeparator (name ++ httpHeaderSeparator ++ value) =
      some (name, value) := cut_of_notMem hname
  rw [headerEntry, if_neg hne, hcut]

/-- A line for a header without a value is read as a longer name. -/
theorem headerEntry_of_blank (hname : (58 : UInt8) ∉ name) (hhead : name.head? ≠ some 32) :
    headerEntry (name ++ httpHeaderBlankSeparator) =
      some (name ++ httpHeaderBlankSeparator, []) := by
  have hstrip : strip (name ++ httpHeaderBlankSeparator) 32 = name ++ httpHeaderBlankSeparator := by
    apply strip_eq_self_iff.2
    constructor
    · cases name with
      | nil => decide
      | cons b t => exact hhead
    · have hlast : httpHeaderBlankSeparator.getLast? = some 59 := by decide
      rw [List.getLast?_append, hlast]
      simp
  have hcut : cut httpHeaderSeparator (name ++ httpHeaderBlankSeparator) = none := by
    apply (cut_eq_none_iff (by decide)).2
    intro hin
    have hmem : (58 : UInt8) ∈ name ++ httpHeaderBlankSeparator :=
      hin.subset (by decide : (58 : UInt8) ∈ httpHeaderSeparator)
    rcases mem_append.1 hmem with hmem | hmem
    · exact hname hmem
    · exact absurd hmem (by decide)
  have hne : strip (name ++ httpHeaderBlankSeparator) 32 ≠ [] := by
    rw [hstrip]
    simp [httpHeaderBlankSeparator, ascii]
  rw [headerEntry, if_neg hne, hcut, hstrip]

theorem Normal.headerEntry_of_value (h : Normal header)
    (hv : header.2 ≠ []) : headerEntry (headerLine header) = some header := by
  obtain ⟨name, value⟩ := header
  rw [headerLine_of_value hv, headerEntry_of_colon h.name_noColon, h.value_stripped,
    h.name_stripped, h.name_lower hv]

end Entries

section RoundTrip

variable {headers : Headers}

/-- The headers after they were written and read again. -/
def reread (headers : Headers) : Headers := parseHeaders (rawHeaderOf (headerLines headers))

theorem rawHeaderOf_headerLines (headers : Headers) :
    rawHeaderOf (headerLines headers) = rawHeaderOf (headers.toList.map headerLine) := by
  have hidem : ∀ header, cString (cString (headerLine header)) = cString (headerLine header) :=
    fun header => cString_of_notMem (zero_notMem_cString (headerLine header))
  simp only [rawHeaderOf, headerLines, map_map, Function.comp_def, hidem]

/-- If reading finds the headers again, they are as `ParseHeaders` leaves headers. -/
theorem normal_of_reread (h : reread headers = headers)
    (hmem : header ∈ headers.toList) : Normal header := by
  have hget : (reread headers)[header.1]? = some header.2 := by
    grind
  have hentry := mem_of_getElem?_collect hget
  obtain ⟨piece, hpiece, hp⟩ := mem_filterMap.1 hentry
  exact normal_of_headerEntry (oneLine_of_mem_split hpiece) hp

theorem reread_of_normal (h : ∀ header ∈ headers.toList, Normal header) :
    reread headers = collect (headers.toList.filterMap fun p => headerEntry (headerLine p)) := by
  have hlines : ∀ line ∈ headers.toList.map headerLine, OneLine line := by
    intro line hline
    obtain ⟨header, hheader, rfl⟩ := mem_map.1 hline
    exact oneLine_headerLine (h header hheader).name_oneLine (h header hheader).value_oneLine
  rw [reread, parseHeaders, rawHeaderOf_headerLines, split_rawHeaderOf hlines, filterMap_map]
  rfl

/-- A header without a value would have to come from one with a shorter name. -/
theorem no_blank_of_reread (h : reread headers = headers) (n : Nat) :
    ∀ name : Bytes, name.length = n → (name, []) ∉ headers.toList := by
  have hnormal : ∀ header ∈ headers.toList, Normal header := fun _ hm => normal_of_reread h hm
  induction n using Nat.strong_induction_on with
  | _ n ih =>
    intro name hlen hmem
    have hget : (reread headers)[name]? = some [] := by
      grind
    rw [reread_of_normal hnormal] at hget
    obtain ⟨⟨source, value⟩, hsource, hentry⟩ :=
      mem_filterMap.1 (mem_of_getElem?_collect hget)
    have hn := hnormal _ hsource
    by_cases hv : value = []
    · subst hv
      have hhead : source.head? ≠ some 32 := (strip_eq_self_iff.1 hn.name_stripped).1
      rw [headerLine_of_blank, headerEntry_of_blank hn.name_noColon hhead] at hentry
      have hname : name = source ++ httpHeaderBlankSeparator :=
        (congrArg Prod.fst (Option.some.inj hentry)).symm
      refine ih source.length ?_ source rfl hsource
      rw [← hlen, hname, length_append]
      exact Nat.lt_add_of_pos_right (by decide)
    grind [@hn.headerEntry_of_value]

/-- A header that is found again when it was written and is read. -/
def Rereadable (header : Bytes × Bytes) : Prop := header.2 ≠ [] ∧ Normal header

/-- Headers survive being written and read again exactly if each of them does. -/
theorem reread_eq_iff :
    reread headers = headers ↔ ∀ header ∈ headers.toList, Rereadable header := by
  constructor
  · rintro h ⟨name, value⟩ hmem
    refine ⟨?_, normal_of_reread h hmem⟩
    rintro rfl
    exact no_blank_of_reread h name.length name rfl hmem
  · intro h
    have hsame : headers.toList.filterMap (fun p => headerEntry (headerLine p)) =
        headers.toList := by
      rw [filterMap_congr fun p hp => (h p hp).2.headerEntry_of_value (h p hp).1]
      exact filterMap_some
    rw [reread_of_normal fun header hm => (h header hm).2, hsame]
    exact collect_of_perm (List.Perm.refl _)

end RoundTrip

/-- A header as it may stand in a list of lines: the name is a token, and neither part has a
line break. -/
structure HeaderField where
  name : Bytes
  value : Bytes
  name_token : ∀ b ∈ name, b ∉ ([0, 10, 13, 32, 58, 59] : Bytes)
  value_text : ∀ b ∈ value, b ∉ ([0, 10, 13] : Bytes)

namespace HeaderField

def line (f : HeaderField) : Bytes := headerLine (f.name, f.value)

/-- What `ParseHeaders` makes of the line. -/
def entry (f : HeaderField) : Bytes × Bytes :=
  if f.value ≠ [] then (lower f.name, strip f.value 32)
  else (f.name ++ httpHeaderBlankSeparator, [])

variable (f : HeaderField)

theorem notMem_name {b : UInt8} (hb : b ∈ ([0, 10, 13, 32, 58, 59] : Bytes)) : b ∉ f.name :=
  fun hmem => f.name_token b hmem hb

theorem oneLine_name : OneLine f.name := by
  refine ⟨f.notMem_name (by decide), fun hin => ?_⟩
  exact f.notMem_name (b := 13) (by decide) (hin.subset (by decide))

theorem oneLine_value : OneLine f.value := by
  refine ⟨fun hmem => f.value_text 0 hmem (by decide), fun hin => ?_⟩
  exact f.value_text 13 (hin.subset (by decide)) (by decide)

theorem oneLine_line : OneLine f.line := oneLine_headerLine f.oneLine_name f.oneLine_value

theorem headerEntry_line : headerEntry f.line = some f.entry := by
  rw [line, entry]
  by_cases hv : f.value = []
  · have hhead : f.name.head? ≠ some 32 := fun h =>
      f.notMem_name (by decide) (mem_of_head? h)
    rw [hv, headerLine_of_blank, headerEntry_of_blank (f.notMem_name (by decide)) hhead,
      if_neg fun h => h rfl]
  · rw [headerLine_of_value hv, headerEntry_of_colon (f.notMem_name (by decide)),
      strip_of_notMem (f.notMem_name (by decide)), if_pos hv]

end HeaderField

/-- The headers that a list of lines stands for; of a name that occurs twice the last value
counts. -/
def headerMap (fields : List HeaderField) : Headers :=
  collect (fields.map fun f => (lower f.name, strip f.value 32))

section Fields

variable (fields : List HeaderField)

theorem parseHeaders_fields :
    parseHeaders (rawHeaderOf (fields.map HeaderField.line)) =
      collect (fields.map HeaderField.entry) := by
  have hlines : ∀ line ∈ fields.map HeaderField.line, OneLine line := by
    intro line hline
    obtain ⟨f, -, rfl⟩ := mem_map.1 hline
    exact f.oneLine_line
  have hentries : headerEntry ∘ HeaderField.line = some ∘ HeaderField.entry :=
    funext HeaderField.headerEntry_line
  rw [parseHeaders, split_rawHeaderOf hlines, filterMap_map, hentries,
    ← filterMap_map, filterMap_some]

/-- No line of real headers is that of a name followed by two semicolons. -/
theorem notMem_headerLines_headerMap (hcolon : (58 : UInt8) ∉ name) :
    name ++ httpHeaderBlankSeparator ++ httpHeaderBlankSeparator ∉
      headerLines (headerMap fields) := by
  intro hmem
  obtain ⟨⟨key, value⟩, hheader, hline⟩ := mem_map.1 hmem
  obtain ⟨f, -, hf⟩ := mem_map.1
    (mem_of_getElem?_collect (Std.ExtTreeMap.mem_toList_iff_getElem?_eq_some.1 hheader))
  obtain ⟨rfl, rfl⟩ := Prod.mk.inj hf
  have hvalue : OneLine (strip f.value 32) := f.oneLine_value.of_isInfix (strip_isInfix _ _)
  replace hline := (oneLine_headerLine f.oneLine_name.lower hvalue).cString_eq.symm.trans hline
  by_cases hv : strip f.value 32 = []
  · rw [hv, headerLine_of_blank] at hline
    have hkey : lower f.name = name ++ httpHeaderBlankSeparator := append_cancel_right hline
    apply notMem_lower (by decide) (f.notMem_name (b := 59) (by decide))
    rw [hkey]
    exact mem_append_right name (by decide)
  · rw [headerLine_of_value hv] at hline
    have hmem58 : (58 : UInt8) ∈ name ++ httpHeaderBlankSeparator ++ httpHeaderBlankSeparator := by
      rw [← hline]
      exact mem_append_left _ (mem_append_right _ (by decide))
    rcases mem_append.1 hmem58 with hmem58 | hmem58
    · rcases mem_append.1 hmem58 with hmem58 | hmem58
      · exact hcolon hmem58
      · exact absurd hmem58 (by decide)
    · exact absurd hmem58 (by decide)

/-- A header without a value leaves a line with two semicolons. -/
theorem mem_headerLines_of_blank {f : HeaderField} (hf : f ∈ fields) (hv : f.value = []) :
    f.name ++ httpHeaderBlankSeparator ++ httpHeaderBlankSeparator ∈
      headerLines (collect (fields.map HeaderField.entry)) := by
  have hentry : f.entry = (f.name ++ httpHeaderBlankSeparator, []) := if_neg fun h => h hv
  obtain ⟨v, hget⟩ := exists_getElem?_collect (mem_map_of_mem (f := HeaderField.entry) hf)
  rw [hentry] at hget
  obtain ⟨g, -, hg⟩ := mem_map.1 (mem_of_getElem?_collect hget)
  have hblank : v = [] := by
    by_contra hne
    have hgv : g.value ≠ [] := by
      intro hgv
      rw [HeaderField.entry, if_neg fun h => h hgv] at hg
      exact hne (congrArg Prod.snd hg).symm
    rw [HeaderField.entry, if_pos hgv] at hg
    have hkey : lower g.name = f.name ++ httpHeaderBlankSeparator := congrArg Prod.fst hg
    apply notMem_lower (by decide) (g.notMem_name (b := 59) (by decide))
    rw [hkey]
    exact mem_append_right f.name (by decide)
  rw [hblank] at hget
  apply mem_map.2
  refine ⟨_, Std.ExtTreeMap.mem_toList_iff_getElem?_eq_some.2 hget, ?_⟩
  have hone : OneLine (f.name ++ httpHeaderBlankSeparator) :=
    f.oneLine_name.append_cons oneLine_nil (by decide)
  exact (oneLine_headerLine hone oneLine_nil).cString_eq.trans (headerLine_of_blank _)

theorem headerLines_parseHeaders_iff :
    headerLines (parseHeaders (rawHeaderOf (fields.map HeaderField.line))) =
        headerLines (headerMap fields) ↔
      ∀ f ∈ fields, f.value ≠ [] := by
  rw [parseHeaders_fields]
  constructor
  · intro h f hf hv
    apply notMem_headerLines_headerMap fields (f.notMem_name (by decide))
    rw [← h]
    exact mem_headerLines_of_blank fields hf hv
  · intro h
    have hsame : fields.map HeaderField.entry =
        fields.map fun f => (lower f.name, strip f.value 32) :=
      map_congr_left fun f hf => if_pos (h f hf)
    rw [hsame]
    rfl

end Fields

end Netstack.HttpClient
