import Netstack.HttpCache.Base64

/-!
# Certificate pins

The pins of a request are one text, `sha256//` and a digest for each pin with
semicolons between them. `IsCertPubKeyInPinned` scans that text for the digest of a
public key.

## Implementation notes

The scanner is executed on the text from `begin` on; a round leaves at least one
byte less of it, so the length of the text bounds the rounds.
-/

namespace Netstack.CommonUtils

open Foundation List

def pinnedPrefixLen : Nat := 8

def sha256Base64Len : Nat := 44

def sha256Tag : Bytes := ascii "sha256//"

def semicolon : UInt8 := 59

/-- The loop of the scanner, on the text from `begin` on. -/
def pinLoop (certPubKeyDigest : Bytes) : Nat → Bytes → Bool
  | 0, _ => false
  | n + 1, text =>
    if text = [] then false
    else
      let segmentLen := text.findIdx (· == semicolon)
      let next := text.drop (segmentLen + 1)
      if ¬ sha256Tag <+: text then pinLoop certPubKeyDigest n next
      else if segmentLen ≠ pinnedPrefixLen + sha256Base64Len then
        pinLoop certPubKeyDigest n next
      else if (text.drop pinnedPrefixLen).take sha256Base64Len = certPubKeyDigest then true
      else pinLoop certPubKeyDigest n next

def isCertPubKeyInPinned (certPubKeyDigest pinnedPubkey : Bytes) : Bool :=
  if ¬ sha256Tag <+: pinnedPubkey then false
  else pinLoop certPubKeyDigest pinnedPubkey.length pinnedPubkey

inductive HashAlgorithm where
  | sha256
  | invalid
  deriving DecidableEq, Repr

structure CertificatePinning where
  hashAlgorithm : HashAlgorithm
  publicKeyHash : Bytes
  deriving DecidableEq, Repr

def napiValue2CertPinning (algorithm publicKeyHash : Bytes) : CertificatePinning where
  hashAlgorithm := if algorithm = ascii "SHA-256" then .sha256 else .invalid
  publicKeyHash := publicKeyHash

/-- What the builder adds for one pin. -/
def certPinText (pin : CertificatePinning) : Bytes :=
  if pin.hashAlgorithm = .sha256 then sha256Tag ++ pin.publicKeyHash ++ [semicolon] else []

/-- The option of a request; a single pin is a list of one. If nothing was built the
option keeps its empty text. -/
def parseCertificatePinning (pins : List CertificatePinning) : Bytes :=
  (pins.flatMap certPinText).dropLast

section Segments

variable {digest segment text rest : Bytes}

/-- The text has the segment in front; the rest is what follows its semicolon, or
nothing. -/
def StartsWith (segment rest text : Bytes) : Prop :=
  semicolon ∉ segment ∧ (text = segment ∧ rest = [] ∨ text = segment ++ semicolon :: rest)

theorem exists_startsWith (text : Bytes) : ∃ segment rest, StartsWith segment rest text := by
  by_cases hmem : semicolon ∈ text
  · obtain ⟨segment, rest, htext, hnot⟩ := eq_append_cons_of_mem hmem
    exact ⟨segment, rest, hnot, Or.inr htext⟩
  · exact ⟨text, [], hmem, Or.inl ⟨rfl, rfl⟩⟩

section

variable (h : StartsWith segment rest text)
include h

theorem StartsWith.isPrefix : segment <+: text := by
  obtain ⟨rfl, -⟩ | rfl := h.2
  · exact prefix_refl _
  · exact prefix_append _ _

theorem StartsWith.findIdx : text.findIdx (· == semicolon) = segment.length := by
  have hnone : segment.findIdx (· == semicolon) = segment.length := by
    apply findIdx_eq_length_of_false
    intro b hb
    exact beq_eq_false_iff_ne.mpr fun heq => h.1 (heq ▸ hb)
  obtain ⟨rfl, -⟩ | rfl := h.2
  · exact hnone
  grind

theorem StartsWith.drop : text.drop (segment.length + 1) = rest := by
  obtain ⟨rfl, rfl⟩ | rfl := h.2
  · exact drop_eq_nil_of_le (Nat.le_succ _)
  · rw [← drop_drop, drop_left]
    rfl

theorem StartsWith.length_lt (hne : text ≠ []) : rest.length < text.length := by
  have hpos := length_pos_iff.mpr hne
  rw [← h.drop, length_drop]
  omega

end

theorem sha256Tag_append_ne_nil (digest : Bytes) : sha256Tag ++ digest ≠ [] :=
  cons_ne_nil _ _

/-- A pin is a segment of the text exactly if it is the first one or one of the rest. -/
theorem StartsWith.mem_splitOn_iff (h : StartsWith segment rest text) :
    sha256Tag ++ digest ∈ text.splitOn semicolon ↔
      sha256Tag ++ digest = segment ∨ sha256Tag ++ digest ∈ rest.splitOn semicolon := by
  obtain ⟨rfl, rfl⟩ | rfl := h.2
  · rw [splitOn_eq_singleton h.1, mem_singleton, splitOn_nil, mem_singleton]
    exact (or_iff_left (sha256Tag_append_ne_nil digest)).symm
  · have hnot : ∀ b ∈ segment, (b == semicolon) = false := fun b hb =>
      beq_eq_false_iff_ne.mpr fun heq => h.1 (heq ▸ hb)
    have hsplit : (segment ++ semicolon :: rest).splitOn semicolon =
        segment :: rest.splitOn semicolon :=
      splitOnP_append_cons_of_forall_mem hnot semicolon (beq_self_eq_true _) rest
    rw [hsplit, mem_cons]

/-- The three checks of a round accept exactly a segment that is the pin of the
digest. -/
theorem StartsWith.checks_iff (h : StartsWith segment rest text) :
    (sha256Tag <+: text ∧ segment.length = pinnedPrefixLen + sha256Base64Len ∧
      (text.drop pinnedPrefixLen).take sha256Base64Len = digest) ↔
      digest.length = sha256Base64Len ∧ sha256Tag ++ digest = segment := by
  have htag : sha256Tag.length = pinnedPrefixLen := rfl
  obtain ⟨tail, rfl⟩ := h.isPrefix
  constructor
  · rintro ⟨htagged, hlength, hdigest⟩
    have hle : sha256Tag.length ≤ segment.length := by
      rw [hlength, htag]
      exact Nat.le_add_right _ _
    obtain ⟨hash, rfl⟩ :=
      prefix_of_prefix_length_le htagged (prefix_append segment tail) hle
    grind
  grind

theorem pinLoop_iff (n : Nat) (hn : text.length ≤ n) :
    pinLoop digest n text = true ↔
      digest.length = sha256Base64Len ∧ sha256Tag ++ digest ∈ text.splitOn semicolon := by
  induction n generalizing text with
  | zero =>
    obtain rfl : text = [] := eq_nil_of_length_eq_zero (Nat.le_zero.mp hn)
    rw [splitOn_nil, mem_singleton]
    exact ⟨fun h => Bool.noConfusion h, fun h => absurd h.2 (sha256Tag_append_ne_nil digest)⟩
  | succ n ih =>
    by_cases hnil : text = []
    · rw [hnil, splitOn_nil, mem_singleton]
      exact ⟨fun h => Bool.noConfusion h, fun h => absurd h.2 (sha256Tag_append_ne_nil digest)⟩
    · obtain ⟨segment, rest, hstarts⟩ := exists_startsWith text
      have hless : rest.length ≤ n :=
        Nat.le_of_lt_succ (lt_of_lt_of_le (hstarts.length_lt hnil) hn)
      have hrest := ih hless
      have hround : pinLoop digest (n + 1) text =
          if sha256Tag <+: text ∧ segment.length = pinnedPrefixLen + sha256Base64Len ∧
            (text.drop pinnedPrefixLen).take sha256Base64Len = digest then true
          else pinLoop digest n rest := by
        simp only [pinLoop, if_neg hnil, hstarts.findIdx, hstarts.drop]
        by_cases htag : sha256Tag <+: text
        · by_cases hlength : segment.length = pinnedPrefixLen + sha256Base64Len
          · rw [if_neg (not_not_intro htag), if_neg (not_not_intro hlength)]
            simp only [htag, hlength, true_and]
          · rw [if_neg (not_not_intro htag), if_pos hlength, if_neg fun h => hlength h.2.1]
        · rw [if_pos htag, if_neg fun h => htag h.1]
      rw [hround, hstarts.mem_splitOn_iff]
      by_cases hchecks : sha256Tag <+: text ∧
          segment.length = pinnedPrefixLen + sha256Base64Len ∧
          (text.drop pinnedPrefixLen).take sha256Base64Len = digest
      · obtain ⟨hlength, hpin⟩ := hstarts.checks_iff.mp hchecks
        rw [if_pos hchecks]
        exact ⟨fun _ => ⟨hlength, Or.inl hpin⟩, fun _ => rfl⟩
      · rw [if_neg hchecks, hrest]
        constructor
        · rintro ⟨hlength, hmem⟩
          exact ⟨hlength, Or.inr hmem⟩
        · rintro ⟨hlength, hpin | hmem⟩
          · exact absurd (hstarts.checks_iff.mpr ⟨hlength, hpin⟩) hchecks
          · exact ⟨hlength, hmem⟩

end Segments

theorem isCertPubKeyInPinned_iff (digest pinned : Bytes) :
    isCertPubKeyInPinned digest pinned = true ↔
      digest.length = sha256Base64Len ∧ sha256Tag <+: pinned ∧
        sha256Tag ++ digest ∈ pinned.splitOn semicolon := by
  rw [isCertPubKeyInPinned]
  by_cases htagged : sha256Tag <+: pinned
  · rw [if_neg (not_not.mpr htagged), pinLoop_iff _ le_rfl]
    grind
  grind

section Builder

theorem dropLast_flatMap_concat (x : UInt8) (pieces : List Bytes) :
    (pieces.flatMap (· ++ [x])).dropLast = [x].intercalate pieces := by
  induction pieces with
  | nil => rfl
  | cons piece pieces ih =>
    cases pieces with
    | nil =>
      rw [flatMap_cons, flatMap_nil, append_nil, dropLast_concat,
        intercalate_singleton]
    | cons next pieces =>
      have hne : (next :: pieces).flatMap (· ++ [x]) ≠ [] := by
        rw [flatMap_cons, append_assoc]
        exact append_ne_nil_of_right_ne_nil _ (cons_ne_nil _ _)
      rw [flatMap_cons, dropLast_append_of_ne_nil hne, ih, intercalate_cons_cons]

/-- The digests that the builder takes from the pins. -/
def pinnedDigests (pins : List CertificatePinning) : List Bytes :=
  (pins.filter fun pin => pin.hashAlgorithm = .sha256).map CertificatePinning.publicKeyHash

/-- The builder joins the pins of the digests. -/
theorem parseCertificatePinning_eq (pins : List CertificatePinning) :
    parseCertificatePinning pins =
      [semicolon].intercalate ((pinnedDigests pins).map (sha256Tag ++ ·)) := by
  have htexts : pins.flatMap certPinText =
      ((pinnedDigests pins).map (sha256Tag ++ ·)).flatMap (· ++ [semicolon]) := by
    induction pins with
    | nil => rfl
    | cons pin pins ih =>
      rw [flatMap_cons, ih, certPinText, pinnedDigests, pinnedDigests, filter_cons]
      by_cases hpin : pin.hashAlgorithm = .sha256
      · simp [hpin]
      · simp [hpin]
  rw [parseCertificatePinning, htexts, dropLast_flatMap_concat]

/-- A digest in base64: 44 characters of the alphabet or the padding. -/
def IsDigest (digest : Bytes) : Prop :=
  digest.length = sha256Base64Len ∧ ∀ b ∈ digest, HttpCache.Base64.isBase64Char b = true ∨ b = 61

instance (digest : Bytes) : Decidable (IsDigest digest) :=
  inferInstanceAs (Decidable (digest.length = sha256Base64Len ∧
    ∀ b ∈ digest, HttpCache.Base64.isBase64Char b = true ∨ b = 61))

theorem IsDigest.semicolon_notMem {digest : Bytes} (h : IsDigest digest) :
    semicolon ∉ sha256Tag ++ digest := by
  intro hmem
  obtain htag | hdigest := mem_append.mp hmem
  · exact absurd htag (by decide)
  · obtain hchar | hpad := h.2 semicolon hdigest
    · exact absurd hchar (by decide)
    · exact absurd hpad (by decide)

theorem isPrefix_intercalate (x : UInt8) (piece : Bytes) (pieces : List Bytes) :
    piece <+: [x].intercalate (piece :: pieces) := by
  cases pieces with
  | nil =>
    rw [intercalate_singleton]
  | cons next pieces =>
    rw [intercalate_cons_cons, append_assoc]
    exact prefix_append _ _

/-- Against pins that the builder joined, exactly the digests of the pins match. -/
theorem isCertPubKeyInPinned_parse_iff {pins : List CertificatePinning}
    (hpins : ∀ hash ∈ pinnedDigests pins, IsDigest hash) (digest : Bytes) :
    isCertPubKeyInPinned digest (parseCertificatePinning pins) = true ↔
      digest ∈ pinnedDigests pins := by
  rw [isCertPubKeyInPinned_iff, parseCertificatePinning_eq]
  cases hdigests : pinnedDigests pins with
  | nil =>
    refine ⟨fun h => absurd h.2.1 (by decide), fun h => ?_⟩
    cases h
  | cons hash hashes =>
    have hsplit : ([semicolon].intercalate ((hash :: hashes).map (sha256Tag ++ ·))).splitOn
        semicolon = (hash :: hashes).map (sha256Tag ++ ·) := by
      apply splitOn_intercalate
      · intro pin hpin
        obtain ⟨h, hh, rfl⟩ := mem_map.mp hpin
        exact (hpins h (hdigests ▸ hh)).semicolon_notMem
      · exact cons_ne_nil _ _
    have htagged : sha256Tag <+:
        [semicolon].intercalate ((hash :: hashes).map (sha256Tag ++ ·)) :=
      (prefix_append sha256Tag hash).trans (isPrefix_intercalate semicolon _ _)
    rw [hsplit]
    constructor
    · rintro ⟨-, -, hmem⟩
      obtain ⟨h, hh, heq⟩ := mem_map.mp hmem
      rw [← append_cancel_left heq]
      exact hh
    · intro hmem
      exact ⟨(hpins digest (hdigests ▸ hmem)).1, htagged, mem_map_of_mem hmem⟩

end Builder

/-- A digest matches a pin text exactly if it has the length of a digest, the text
starts as a pin does and the pin of the digest is one of its segments. Against pins
joined by the builder exactly their digests match, and no part or extension of one. -/
theorem pin_matching :
    (∀ digest pinned, isCertPubKeyInPinned digest pinned = true ↔
      digest.length = sha256Base64Len ∧ sha256Tag <+: pinned ∧
        sha256Tag ++ digest ∈ pinned.splitOn semicolon) ∧
    ∀ pins, (∀ hash ∈ pinnedDigests pins, IsDigest hash) →
      (∀ digest, isCertPubKeyInPinned digest (parseCertificatePinning pins) = true ↔
        digest ∈ pinnedDigests pins) ∧
      ∀ hash ∈ pinnedDigests pins, ∀ digest ≠ hash, digest <:+: hash ∨ hash <:+: digest →
        isCertPubKeyInPinned digest (parseCertificatePinning pins) = false := by
  refine ⟨isCertPubKeyInPinned_iff, fun pins hpins => ⟨?_, ?_⟩⟩
  · exact isCertPubKeyInPinned_parse_iff hpins
  · intro hash hhash digest hne hpart
    rw [← Bool.not_eq_true, isCertPubKeyInPinned_parse_iff hpins]
    intro hmem
    have hlength : digest.length = hash.length :=
      (hpins digest hmem).1.trans (hpins hash hhash).1.symm
    obtain hpart' | hpart' := hpart
    · exact hne (hpart'.eq_of_length hlength)
    · exact hne (hpart'.eq_of_length hlength.symm).symm

/-- Two pins, and one of an algorithm that the builder skips. -/
def samplePins : List CertificatePinning :=
  [napiValue2CertPinning (ascii "SHA-256") (ascii "47DEQpj8HBSa+/TImW+5JCeuQeRkm5NMpJWZG3hSuFU="),
    napiValue2CertPinning (ascii "SHA-1") (ascii "2jmj7l5rSw0yVb/vlWAYkK/YBwk="),
    napiValue2CertPinning (ascii "SHA-256") (ascii "ungWv48Bz+pBQUDeXa4iI7ADYaOWF3qctBD/YfIAFa0=")]

theorem pin_matching_samplePins :
    isCertPubKeyInPinned (ascii "ungWv48Bz+pBQUDeXa4iI7ADYaOWF3qctBD/YfIAFa0=")
      (parseCertificatePinning samplePins) = true ∧
    isCertPubKeyInPinned (ascii "ungWv48Bz+pBQUDeXa4iI7ADYaOWF3qctBD/YfIAFa0")
      (parseCertificatePinning samplePins) = false := by
  have hpins := pin_matching.2 samplePins (by decide +kernel)
  refine ⟨(hpins.1 _).mpr (by decide +kernel), ?_⟩
  exact hpins.2 (ascii "ungWv48Bz+pBQUDeXa4iI7ADYaOWF3qctBD/YfIAFa0=") (by decide +kernel) _
    (by decide +kernel) (by decide +kernel)

/-- A pin text with a shorter digest matches nothing. -/
theorem short_digest_not_matched :
    ¬ (isCertPubKeyInPinned (ascii "abc") (ascii "sha256//abc") = true ↔
      sha256Tag <+: ascii "sha256//abc" ∧
        sha256Tag ++ ascii "abc" ∈ (ascii "sha256//abc").splitOn semicolon) := by
  decide +kernel

end Netstack.CommonUtils
