import Netstack.Common.Url
import Netstack.Foundation.Numerals

/-!
# The host of a URL and the host the policies see

URLs of the generic form of RFC 3986 are given by their parts, so that the host is known.
`GetHostnameFromURL` ends the host at a colon, a slash or a question mark; it knows neither
user information nor fragments nor the brackets of an IPv6 address.

## Implementation notes

That a percent sign starts a triple is not required.
-/

namespace Netstack.CommonUtils

open Foundation Foundation.Search List

variable {kind : UInt8 → Bool} {b : UInt8}

namespace Rfc3986

variable (b)

def isAlpha : Bool := (65 ≤ b && b ≤ 90) || (97 ≤ b && b ≤ 122)

def isHexDigit : Bool :=
  isDigit b || (65 ≤ b && b ≤ 70) || (97 ≤ b && b ≤ 102)

def isSchemeChar : Bool := isAlpha b || isDigit b || (ascii "+-.").contains b

def isUnreserved : Bool := isAlpha b || isDigit b || (ascii "-._~").contains b

def isSubDelim : Bool := (ascii "!$&'()*+,;=").contains b

def isNameChar : Bool := isUnreserved b || isSubDelim b || b == 37

def isUserinfoChar : Bool := isNameChar b || b == colon

def isPathChar : Bool := isUserinfoChar b || b == 64 || b == slash

def isQueryChar : Bool := isPathChar b || b == questionMark

def isIpv6Char : Bool := isHexDigit b || b == colon || b == 46

variable {b}

/-- Every character of the text is of the kind. -/
def Over (kind : UInt8 → Bool) (text : Bytes) : Prop := ∀ b ∈ text, kind b = true

instance (kind : UInt8 → Bool) (text : Bytes) : Decidable (Over kind text) :=
  inferInstanceAs (Decidable (∀ b ∈ text, kind b = true))

theorem Over.notMem {text : Bytes} (h : Over kind text) (hb : kind b = false) : b ∉ text := by
  intro hmem
  rw [h b hmem] at hb
  cases hb

theorem Over.ne {text : Bytes} (h : Over kind text) {c : UInt8}
    (hb : b ∈ text) (hc : kind c = false) : b ≠ c := by
  intro heq
  rw [heq] at hb
  exact h.notMem hc hb

end Rfc3986

open Rfc3986

/-- A registered name or IPv4 address, or an IPv6 address, which is written in
brackets. -/
inductive UrlHost where
  | name (text : Bytes) (nonempty : text ≠ []) (chars : Over isNameChar text)
  | ipv6 (address : Bytes) (colons : colon ∈ address) (chars : Over isIpv6Char address)

def UrlHost.text : UrlHost → Bytes
  | name text _ _ => text
  | ipv6 address _ _ => [91] ++ address ++ [93]

/-- The text denotes the host; an IPv6 address may be without its brackets. -/
def UrlHost.Is : UrlHost → Bytes → Prop
  | name text _ _, result => result = text
  | ipv6 address _ _, result => result = [91] ++ address ++ [93] ∨ result = address

structure Url where
  scheme : Bytes
  scheme_chars : Over isSchemeChar scheme
  userinfo : Option Bytes := none
  userinfo_chars : ∀ v ∈ userinfo, Over isUserinfoChar v := by simp
  host : UrlHost
  port : Option Bytes := none
  port_chars : ∀ v ∈ port, Over isDigit v := by simp
  path : Bytes := []
  path_chars : Over isPathChar path := by decide
  path_abempty : path = [] ∨ path.head? = some slash := by decide
  query : Option Bytes := none
  query_chars : ∀ v ∈ query, Over isQueryChar v := by simp
  fragment : Option Bytes := none
  fragment_chars : ∀ v ∈ fragment, Over isQueryChar v := by simp

namespace Url

/-- A part with its delimiter in front. -/
def withDelimiter (delimiter : UInt8) : Option Bytes → Bytes
  | none => []
  | some v => delimiter :: v

variable (u : Url)

/-- What follows the host. -/
def tail : Bytes :=
  withDelimiter colon u.port ++ (u.path ++ (withDelimiter questionMark u.query ++
    withDelimiter 35 u.fragment))

def userinfoPart : Bytes :=
  match u.userinfo with
  | none => []
  | some v => v ++ [64]

def authorityOn : Bytes := u.userinfoPart ++ (u.host.text ++ u.tail)

def text : Bytes := u.scheme ++ schemeDelimiter ++ u.authorityOn

end Url

theorem notMem_withDelimiter {part : Option Bytes}
    (hpart : ∀ v ∈ part, Over kind v) {delimiter : UInt8} (hb : kind b = false)
    (hne : b ≠ delimiter) : b ∉ Url.withDelimiter delimiter part := by
  cases part with
  | none => exact not_mem_nil
  | some v =>
    intro hmem
    obtain heq | hmem := mem_cons.mp hmem
    · exact hne heq
    · exact (hpart v rfl).notMem hb hmem

namespace Url

variable (u : Url)

theorem backslash_notMem_tail : backslash ∉ u.tail := by
  rw [tail, mem_append, mem_append, mem_append, not_or, not_or, not_or]
  refine ⟨?_, ?_, ?_, ?_⟩
  · exact notMem_withDelimiter u.port_chars (by decide) (by decide)
  · exact u.path_chars.notMem (by decide)
  · exact notMem_withDelimiter u.query_chars (by decide) (by decide)
  · exact notMem_withDelimiter u.fragment_chars (by decide) (by decide)

theorem backslash_notMem_host : backslash ∉ u.host.text := by
  cases u.host with
  | name text nonempty chars => exact chars.notMem (by decide)
  | ipv6 address colons chars =>
    rw [UrlHost.text, mem_append, mem_append, not_or, not_or]
    exact ⟨⟨by decide, chars.notMem (by decide)⟩, by decide⟩

theorem backslash_notMem_userinfoPart : backslash ∉ u.userinfoPart := by
  rw [userinfoPart]
  cases huser : u.userinfo with
  | none => exact not_mem_nil
  | some v =>
    rw [mem_append, not_or]
    exact ⟨(u.userinfo_chars v huser).notMem (by decide), by decide⟩

theorem forwardSlashes_text : forwardSlashes u.text = u.text := by
  have hnot : backslash ∉ u.text := by
    rw [text, authorityOn, mem_append, mem_append, mem_append, mem_append,
      not_or, not_or, not_or, not_or]
    exact ⟨⟨u.scheme_chars.notMem (by decide), by decide⟩, u.backslash_notMem_userinfoPart,
      u.backslash_notMem_host, u.backslash_notMem_tail⟩
  have hmap : ∀ b ∈ u.text, (if b = backslash then slash else b) = b := by
    grind
  rw [forwardSlashes, map_congr_left hmap, map_id']

theorem afterScheme_text : afterScheme u.text = u.authorityOn := by
  have hcut : cut schemeDelimiter u.text = some (u.scheme, u.authorityOn) :=
    cut_of_notMem (u.scheme_chars.notMem (by decide))
  rw [afterScheme, hcut]

/-- The part behind the scheme does not start with a slash. -/
theorem dropWhile_authorityOn : u.authorityOn.dropWhile (· == slash) = u.authorityOn := by
  have hhead : ∀ {b : UInt8} {rest : Bytes}, u.authorityOn = b :: rest → b ≠ slash →
      u.authorityOn.dropWhile (· == slash) = u.authorityOn := by
    intro b rest heq hne
    rw [heq, dropWhile_cons_of_neg]
    simpa using hne
  have hstart : ∃ b rest, u.authorityOn = b :: rest ∧ b ≠ slash := by
    rw [authorityOn, userinfoPart]
    cases huser : u.userinfo with
    | some v =>
      cases v with
      | nil => exact ⟨64, _, rfl, by decide⟩
      | cons b v =>
        refine ⟨b, _, rfl, ?_⟩
        exact (u.userinfo_chars _ huser).ne mem_cons_self (by decide)
    | none =>
      cases u.host with
      | ipv6 address colons chars => exact ⟨91, _, rfl, by decide⟩
      | name text nonempty chars =>
        cases text with
        | nil => exact absurd rfl nonempty
        | cons b text =>
          exact ⟨b, _, rfl, chars.ne mem_cons_self (by decide)⟩
  grind

/-- What is taken for the host is the part behind the scheme up to the first colon,
slash or question mark. -/
theorem getHostnameFromURL_text :
    getHostnameFromURL u.text = u.authorityOn.takeWhile (!endsHost ·) := by
  rw [getHostnameFromURL_eq, forwardSlashes_text, afterScheme_text, dropWhile_authorityOn]

/-- The text ends at once or goes on with a character that ends a host. -/
theorem takeWhile_tail_eq_nil_iff :
    u.tail.takeWhile (!endsHost ·) = [] ↔
      (u.fragment = none ∨ u.port.isSome ∨ u.path ≠ [] ∨ u.query.isSome) := by
  rw [tail]
  cases hport : u.port with
  | some v => simp [withDelimiter, endsHost]
  | none =>
    obtain hpath | hpath := u.path_abempty
    · rw [hpath]
      cases hquery : u.query with
      | some v => simp [withDelimiter, endsHost]
      | none =>
        cases hfragment : u.fragment with
        | none => simp [withDelimiter]
        | some v => simp [withDelimiter, endsHost, colon, slash, questionMark]
    · obtain ⟨path, hpath⟩ := List.head?_eq_some_iff.mp hpath
      rw [hpath]
      simp [withDelimiter, endsHost]

theorem endsHost_eq_false {text : Bytes} (h : Over kind text)
    (hcolon : kind colon = false) (hslash : kind slash = false)
    (hquestion : kind questionMark = false) : ∀ b ∈ text, (!endsHost b) = true := by
  intro b hb
  grind [endsHost, @h.ne]

theorem takeWhile_append_name {name rest : Bytes} (chars : Over isNameChar name) :
    (name ++ rest).takeWhile (!endsHost ·) = name ++ rest.takeWhile (!endsHost ·) :=
  takeWhile_append_of_pos
    (endsHost_eq_false chars (by decide) (by decide) (by decide))

/-- Behind user information the name is taken only if the user information starts with
the name and a colon. -/
theorem takeWhile_userinfo_eq_iff {name v rest : Bytes} (chars : Over isNameChar name)
    (hv : Over isUserinfoChar v) :
    (v ++ 64 :: rest).takeWhile (!endsHost ·) = name ↔ name ++ [colon] <+: v := by
  constructor
  · intro htake
    by_cases hcolon : colon ∈ v
    · obtain ⟨front, back, rfl, hfront⟩ := eq_append_cons_of_mem hcolon
      have hends : ∀ b ∈ front, (!endsHost b) = true := by
        intro b hb
        have hb' : b ∈ front ++ colon :: back := mem_append_left _ hb
        have hne : b ≠ colon := by
          grind
        rw [endsHost, beq_eq_false_iff_ne.mpr hne,
          beq_eq_false_iff_ne.mpr (hv.ne hb' (by decide)),
          beq_eq_false_iff_ne.mpr (hv.ne hb' (by decide))]
        rfl
      have hstop : (colon :: (back ++ 64 :: rest)).takeWhile (!endsHost ·) = [] := rfl
      rw [append_assoc, cons_append, takeWhile_append_of_pos hends, hstop,
        append_nil] at htake
      rw [← htake, prefix_append_right_inj]
      exact ⟨back, rfl⟩
    · have hends : ∀ b ∈ v, (!endsHost b) = true := by
        intro b hb
        have hne : b ≠ colon := by
          grind
        rw [endsHost, beq_eq_false_iff_ne.mpr hne,
          beq_eq_false_iff_ne.mpr (hv.ne hb (by decide)),
          beq_eq_false_iff_ne.mpr (hv.ne hb (by decide))]
        rfl
      have hat : (64 :: rest).takeWhile (!endsHost ·) =
          64 :: rest.takeWhile (!endsHost ·) := rfl
      rw [takeWhile_append_of_pos hends, hat] at htake
      have hmem : (64 : UInt8) ∈ name := by
        grind
      exact absurd hmem (chars.notMem (by decide))
  · rintro ⟨back, rfl⟩
    have hstop : ([colon] ++ (back ++ 64 :: rest)).takeWhile (!endsHost ·) = [] := rfl
    rw [append_assoc, append_assoc, takeWhile_append_name chars, hstop, append_nil]

/-- The host is a name; without user information something other than a fragment
follows it, and user information starts with the same name and a colon. -/
def HostVisible : Prop :=
  match u.host, u.userinfo with
  | .ipv6 _ _ _, _ => False
  | .name _ _ _, none =>
    u.fragment = none ∨ u.port.isSome ∨ u.path ≠ [] ∨ u.query.isSome
  | .name name _ _, some v => name ++ [colon] <+: v

/-- The host that the policies decide about is the host of the URL exactly if the host
is visible to a search for colons, slashes and question marks. -/
theorem getHostnameFromURL_is_host_iff : u.host.Is (getHostnameFromURL u.text) ↔ u.HostVisible := by
  rw [getHostnameFromURL_text, HostVisible, authorityOn, userinfoPart]
  cases u.host with
  | ipv6 address colons chars =>
    refine ⟨fun his => ?_, fun h => h.elim⟩
    have hmem : ∀ result : Bytes, UrlHost.Is (.ipv6 address colons chars) result →
        colon ∈ result := by
      rintro result (rfl | rfl)
      · exact mem_append_left _ (mem_append_right _ colons)
      · exact colons
    have htaken := mem_takeWhile_imp (hmem _ his)
    exact absurd htaken (by decide)
  | name name nonempty chars =>
    cases huser : u.userinfo with
    | none =>
      rw [nil_append, UrlHost.text, takeWhile_append_name chars, UrlHost.Is,
        append_right_eq_self]
      exact u.takeWhile_tail_eq_nil_iff
    | some v =>
      rw [append_assoc, singleton_append, UrlHost.Is]
      exact takeWhile_userinfo_eq_iff chars (u.userinfo_chars v huser)

/-- `http://allowed.com:80@evil.com/`. -/
def disguised : Url where
  scheme := ascii "http"
  scheme_chars := by decide +kernel
  userinfo := some (ascii "allowed.com:80")
  userinfo_chars := by decide +kernel
  host := .name (ascii "evil.com") (by decide +kernel) (by decide +kernel)
  path := ascii "/"
  path_chars := by decide +kernel
  path_abempty := by decide +kernel

/-- The user information of a URL is taken for its host. -/
theorem userinfo_taken_for_host : ¬ disguised.host.Is (getHostnameFromURL disguised.text) := by
  change ¬ getHostnameFromURL disguised.text = ascii "evil.com"
  decide +kernel

end Url

section Parts

variable {p h rest : Bytes} {port : Option Bytes}

theorem minPos_findChar_two (s : Bytes) (a b : UInt8) (pos : Nat) :
    minPos (findChar s a pos) (findChar s b pos) =
      ((s.drop pos).findIdx? fun x => x == a || x == b).map (· + pos) := by
  rw [findIdx?_or, findChar, findChar, minPos_map_add]

/-- The text that the parts of a URL make. -/
def urlOf (p h : Bytes) (port : Option Bytes) (rest : Bytes) : Bytes :=
  p ++ (schemeDelimiter ++ (h ++ (Url.withDelimiter colon port ++ rest)))

theorem getProtocolFromURL_urlOf (hp : ¬ schemeDelimiter <:+: p) :
    getProtocolFromURL (urlOf p h port rest) = p := by
  have hcut : cut schemeDelimiter (urlOf p h port rest) = some _ :=
    cut_of_head_notMem (by decide) hp _
  rw [getProtocolFromURL, hcut]

/-- The rest starts with a character that ends the port. -/
def IsRest (rest : Bytes) : Prop := ∀ b ∈ rest.head?, b = slash ∨ b = questionMark

theorem takeWhile_forwardSlashes_tail (hrest : IsRest rest) :
    (forwardSlashes (Url.withDelimiter colon port ++ rest)).takeWhile (!endsHost ·) = [] := by
  cases port with
  | some n => rfl
  | none =>
      cases rest with
      | nil => rfl
      | cons b rest =>
          obtain rfl | rfl := hrest b rfl
          · rfl
          · rfl

theorem getHostnameFromURL_urlOf (hp : ¬ schemeDelimiter <:+: forwardSlashes p) (hh : h ≠ [])
    (hchars : ∀ c ∈ ascii ":/?#@\\", c ∉ h) (hrest : IsRest rest) :
    getHostnameFromURL (urlOf p h port rest) = h := by
  have hname : forwardSlashes h = h :=
    (map_congr_left fun b hb =>
      if_neg (ne_of_mem_of_not_mem hb (hchars backslash (by decide)))).trans (map_id h)
  have hslashes : forwardSlashes (urlOf p h port rest) = forwardSlashes p ++
      (schemeDelimiter ++ (h ++ forwardSlashes (Url.withDelimiter colon port ++ rest))) := by
    nth_rewrite 2 [← hname]
    simp only [forwardSlashes, urlOf, map_append]
    rfl
  have hcut : cut schemeDelimiter (forwardSlashes (urlOf p h port rest)) = some _ :=
    hslashes ▸ cut_of_head_notMem (by decide) hp _
  have hends : ∀ b ∈ h, (!endsHost b) = true := by
    intro b hb
    have hcolon := ne_of_mem_of_not_mem hb (hchars colon (by decide))
    have hslash := ne_of_mem_of_not_mem hb (hchars slash (by decide))
    have hquestion := ne_of_mem_of_not_mem hb (hchars questionMark (by decide))
    simp [endsHost, hcolon, hslash, hquestion]
  rw [getHostnameFromURL_eq, afterScheme, hcut]
  cases h with
  | nil => exact absurd rfl hh
  | cons b h =>
      have hb : b ≠ slash := ne_of_mem_of_not_mem mem_cons_self (hchars slash (by decide))
      rw [cons_append, dropWhile_cons_of_neg (by simpa using hb), ← cons_append,
        takeWhile_append_of_pos hends, takeWhile_forwardSlashes_tail hrest, append_nil]

theorem getPortFromURL_urlOf (hp : p ≠ []) (hscheme : ¬ schemeDelimiter <:+: p)
    (hhost : getHostnameFromURL (urlOf p h port rest) = h)
    (hport : ∀ n ∈ port, Over isDigit n) (hrest : IsRest rest) :
    getPortFromURL (urlOf p h port rest) = port.getD [] := by
  have hdrop : (urlOf p h port rest).drop (p.length + schemeDelimiter.length + h.length) =
      Url.withDelimiter colon port ++ rest := by
    rw [← drop_drop, ← drop_drop, urlOf, drop_left, drop_left, drop_left]
  have hstop : rest.takeWhile (fun b => !(b == slash || b == questionMark)) = [] := by
    cases rest with
    | nil => rfl
    | cons b rest =>
        obtain rfl | rfl := hrest b rfl
        · rfl
        · rfl
  simp only [getPortFromURL, getProtocolFromURL_urlOf hscheme, hhost, if_neg hp,
    minPos_findChar_two]
  rw [findChar, hdrop]
  generalize p.length + schemeDelimiter.length + h.length = start at hdrop ⊢
  cases port with
  | none =>
      cases rest with
      | nil => rfl
      | cons b rest =>
          have hfirst :
              (b :: rest).findIdx? (fun b => b == slash || b == questionMark) = some 0 := by
            rw [findIdx?_cons, if_pos (by simpa using hrest b rfl)]
          simp only [Url.withDelimiter, nil_append, hfirst, Option.map_some]
          split
          · rfl
          · next posStart hfind =>
              obtain ⟨i, -, rfl⟩ := Option.map_eq_some_iff.mp hfind
              rw [show 0 + start - (i + start) - 1 = 0 by omega, take_zero, ite_self]
              rfl
  | some n =>
      have hwhile : (n ++ rest).takeWhile (fun b => !(b == slash || b == questionMark)) = n := by
        rw [takeWhile_append_of_pos, hstop, append_nil]
        intro b hb
        have hslash := (hport n rfl).ne hb (show isDigit slash = false by decide)
        have hquestion := (hport n rfl).ne hb (show isDigit questionMark = false by decide)
        simp [hslash, hquestion]
      have hnext : (urlOf p h (some n) rest).drop (0 + start + 1) = n ++ rest := by
        rw [Nat.zero_add, ← drop_drop, hdrop]
        rfl
      have hcolon : (colon == slash || colon == questionMark) = false := rfl
      simp only [Url.withDelimiter, cons_append, findIdx?_cons, hcolon, beq_self_eq_true, if_true,
        Bool.false_eq_true, if_false, Option.map_some, hnext]
      cases hfind : (n ++ rest).findIdx? fun b => b == slash || b == questionMark with
      | none =>
          have hall := takeWhile_eq_self_iff.mpr (all_of_findIdx?_eq_none hfind)
          exact hall.symm.trans hwhile
      | some i =>
          have htake := takeWhile_of_findIdx? hfind
          simp only [Option.map_some]
          rw [if_neg (by omega), show i + 1 + start - (0 + start) - 1 = i by omega]
          exact htake.symm.trans hwhile

/-- The protocol, the port and the host with both are read back from the URL they were put into,
but for the port of a `wss` URL. -/
theorem url_parts (hp : p ≠ []) (hscheme : ¬ schemeDelimiter <:+: forwardSlashes p) (hh : h ≠ [])
    (hchars : ∀ c ∈ ascii ":/?#@\\", c ∉ h) (hport : ∀ n ∈ port, n ≠ [] ∧ Over isDigit n)
    (hrest : IsRest rest) :
    getProtocolFromURL (urlOf p h port rest) = p ∧
    getPortFromURL (urlOf p h port rest) = port.getD [] ∧
    getHostnameWithProtocolAndPortFromURL (urlOf p h port rest) =
      p ++ schemeDelimiter ++ h ++
        if p = protocolWss then [] else Url.withDelimiter colon port := by
  have hplain : ¬ schemeDelimiter <:+: p := fun hin =>
    hscheme (hin.map fun b => if b = backslash then slash else b)
  have hprotocol : getProtocolFromURL (urlOf p h port rest) = p :=
    getProtocolFromURL_urlOf hplain
  have hhost : getHostnameFromURL (urlOf p h port rest) = h :=
    getHostnameFromURL_urlOf hscheme hh hchars hrest
  have hfound := getPortFromURL_urlOf hp hplain hhost (fun n hn => (hport n hn).2) hrest
  refine ⟨hprotocol, hfound, ?_⟩
  simp only [getHostnameWithProtocolAndPortFromURL, hprotocol, hhost, hfound, if_neg hp, if_neg hh]
  split
  · rw [append_nil]
  · cases port with
    | none => simp [Url.withDelimiter]
    | some n => simp [Url.withDelimiter, (hport n rfl).1]

theorem url_parts_with_port :
    let url := urlOf (ascii "http") (ascii "a.b") (some (ascii "80")) (ascii "/c:1?d")
    getProtocolFromURL url = ascii "http" ∧ getPortFromURL url = ascii "80" ∧
      getHostnameWithProtocolAndPortFromURL url = ascii "http://a.b:80" :=
  url_parts (by decide) (by decide +kernel) (by decide) (by decide +kernel) (by decide +kernel)
    (fun _ h => .inl (Option.some.inj h).symm)

/-- For `wss` the port is left out, and backslashes can stand for the slashes behind an
earlier colon. -/
theorem url_prefix_not_returned :
    getHostnameWithProtocolAndPortFromURL (ascii "wss://h:1") = ascii "wss://h" ∧
    getHostnameWithProtocolAndPortFromURL (ascii "a:\\\\b://h") = ascii "a:\\\\b://b" := by
  decide +kernel

end Parts

end Netstack.CommonUtils
