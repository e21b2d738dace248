import Netstack.Common.Text
import Netstack.Foundation.Merging
import Netstack.Foundation.Numerals

/-!
# The identity of a TLS server

`CheckIpAndDnsName` compares the labels of the host, one by one, with the names in the certificate,
where the host as a whole should be compared with them.

## Implementation notes

`std::set_intersection` is given ranges that are not sorted; it is modelled as the merge that the
libraries perform. The extension with the alternative names is read as a C string.
-/

namespace Netstack.TlsSocket

open Foundation CommonUtils

def dot : UInt8 := 46

def quote : UInt8 := 34

def backslash : UInt8 := 92

def commonNameBufSize : Nat := 256

def unknownReason : Bytes := ascii "Unknown reason"

def hostNameText : Bytes := ascii "hostname: "

variable (hostName : Bytes)

section Names

/-- The alternatives of `PATTERN` for one number of an address. -/
def isOctet : Bytes → Bool
  | [a] => isDigit a
  | [a, b] => isDigit a && isDigit b
  | [a, b, c] =>
    (a == 50 && b == 53 && 48 ≤ c && c ≤ 53) ||
      (a == 50 && 48 ≤ b && b ≤ 52 && isDigit c) ||
      ((a == 48 || a == 49) && isDigit b && isDigit c)
  | _ => false

def isIP (ip : Bytes) : Bool :=
  match ip.splitOn dot with
  | [a, b, c, d] => isOctet a && isOctet b && isOctet c && isOctet d
  | _ => false

/-- The labels of the host, and the host in lower case. -/
def splitHostName : List Bytes × Bytes :=
  (split (lower hostName) [dot], lower hostName)

def seekIntersection (vecA vecB : List Bytes) : Bool := setIntersection vecA vecB ≠ []

end Names

section Certificates

/-- The extension with the alternative names, as the functions of OpenSSL find it. -/
inductive AltNames where
  | missing
  | unreadable
  | noData
  | data (bytes : Bytes)
  deriving DecidableEq, Repr

structure Certificate where
  /-- The subject, with its common name. -/
  subject : Option (Option Bytes)
  altNames : AltNames
  deriving DecidableEq, Repr

/-- The common name as `X509_NAME_get_text_by_NID` copies it; it must not be empty. -/
def Certificate.commonName (cert : Certificate) : Option Bytes :=
  match cert.subject with
  | some (some name) => if name = [] then none else some (name.take (commonNameBufSize - 1))
  | _ => none

def checkIpAndDnsName (dnsNames ips : List Bytes) (cert : Certificate) : Bool × Bytes :=
  if isIP hostName then
    if hostName ∈ ips then (true, unknownReason)
    else (false, ascii "IP: " ++ hostName ++ ascii " is not in the cert's list")
  else
    let (hostParts, tempHostName) := splitHostName hostName
    if dnsNames ≠ [] then
      if seekIntersection hostParts dnsNames then (true, unknownReason)
      else (false, hostNameText ++ tempHostName ++ ascii ". is not in the cert's altnames")
    else
      match cert.commonName with
      | none => (false, ascii "Cert does not contain a DNS name")
      | some commonName =>
        if seekIntersection hostParts [cString commonName] then (true, unknownReason)
        else (false, hostNameText ++ tempHostName ++ ascii ". is not cert's CN")

end Certificates

section AltNamesText

def isHexDigit (b : UInt8) : Bool :=
  isDigit b || (65 ≤ b && b ≤ 70) || (97 ≤ b && b ≤ 102)

/-- The text after the first quote of a string that matches `JSON_STRING_PATTERN`. -/
def jsonStringRest : Bytes → Bool
  | [] => false
  | [b] => b == quote
  | b :: e :: s =>
    if b == backslash then
      if (ascii "\"\\/bfnrt").contains e then jsonStringRest s
      else
        match e, s with
        | 117, p :: q :: r :: t :: s =>
          isHexDigit p && isHexDigit q && isHexDigit r && isHexDigit t && jsonStringRest s
        | _, _ => false
    else b != quote && 32 ≤ b && jsonStringRest (e :: s)

def isJsonString : Bytes → Bool
  | b :: s => b == quote && jsonStringRest s
  | [] => false

def pushToken (result : List Bytes) (token : Bytes) : List Bytes :=
  if token = [] then result else result ++ [token]

/-- The loop of `SplitEscapedAltNames`, byte by byte. A quoted part must reach to the end. -/
def splitEscapedLoop (result : List Bytes) (token : Bytes) : Bytes → List Bytes
  | [] => pushToken result token
  | b :: s =>
    if b == quote then
      if isJsonString (b :: s) then pushToken result (token ++ b :: s) else [[]]
    else if (ascii ", ").contains b then splitEscapedLoop (pushToken result token) [] s
    else splitEscapedLoop result (token ++ [b]) s

def splitEscapedAltNames (altNames : Bytes) : List Bytes := splitEscapedLoop [] [] altNames

def splitAltNames (altNames : Bytes) : List Bytes :=
  if altNames.contains quote then splitEscapedAltNames altNames
  else split altNames (ascii ",")

/-- The rests of the pieces that start with a text. -/
def piecesAfter (start : Bytes) (pieces : List Bytes) : List Bytes :=
  (pieces.filter fun piece => start.isPrefixOf piece).map (·.drop start.length)

/-- The text that is returned for a certificate that is the host's. -/
def acceptedText : Bytes :=
  hostNameText ++ ascii " " ++ hostName ++ ascii ". is cert's CN"

/-- `bio` says whether a `BIO` can be had. -/
def checkServerIdentityLegal (bio : Bool) (hostName : Bytes) (cert : Certificate) : Bytes :=
  match cert.subject with
  | none => ascii "subject name is null"
  | some _ =>
    match cert.altNames with
    | .missing => ascii "X509 get ext nid error"
    | .unreadable => ascii "X509 get ext error"
    | .noData => []
    | .data bytes =>
      if bio then
        let pieces := splitAltNames (cString bytes)
        let dnsNames := piecesAfter (ascii "DNS:") pieces
        let ips := piecesAfter (ascii "IP Address:") pieces
        let result := checkIpAndDnsName hostName dnsNames ips cert
        if result.1 then acceptedText hostName
        else ascii "Hostname/IP does not match certificate's altnames: " ++ result.2
      else ascii "bio is null"

end AltNamesText

/-! ### Names of a host -/

section Matching

/-- One group of an IPv6 address. -/
def isIPv6Group (group : Bytes) : Bool := group ≠ [] && group.length ≤ 4 && group.all isHexDigit

/-- The number of groups in a part of an IPv6 address. An IPv4 address at its end stands for two. -/
def ipv6Groups (part : Bytes) : Option Nat :=
  if part = [] then some 0
  else
    let groups := part.splitOn 58
    let last := groups.getLastD []
    if groups.dropLast.all isIPv6Group then
      if isIPv6Group last then some groups.length
      else if isIP last then some (groups.length + 1)
      else none
    else none

def isIPv6 (ip : Bytes) : Bool :=
  match cut (ascii "::") ip with
  | none => ipv6Groups ip == some 8
  | some (front, rest) =>
    match ipv6Groups front, ipv6Groups rest with
    | some m, some n => !front.contains dot && m + n ≤ 7
    | _, _ => false

/-- A name is the host, or its first label is `*` and stands for one label of the host. -/
def NameMatches (name : Bytes) : Prop :=
  lower name = lower hostName ∨
    ∃ label rest, label ≠ [] ∧ dot ∉ label ∧
      lower name = ascii "*" ++ dot :: rest ∧ lower hostName = label ++ dot :: rest

/-- What the names of a certificate should say of a host for it to be accepted. -/
def Identifies (dnsNames ips : List Bytes) : Prop :=
  (isIP hostName ∨ isIPv6 hostName) ∧ hostName ∈ ips ∨ ∃ name ∈ dnsNames, NameMatches hostName name

/-- The names that the labels of a host are compared with. -/
def comparedNames (dnsNames : List Bytes) (cert : Certificate) : List Bytes :=
  if dnsNames = [] then cert.commonName.toList.map cString else dnsNames

/-- For an address the names must play no part. For any other host, a label that is greater than all
labels before it must be a name greater than all names before it exactly when the certificate
identifies the host. -/
def LabelsDecide (dnsNames ips : List Bytes) (cert : Certificate) : Prop :=
  if isIP hostName then hostName ∈ ips ∨ ∀ name ∈ dnsNames, ¬ NameMatches hostName name
  else
    ShareRecord (splitHostName hostName).1 (comparedNames dnsNames cert) ↔
      Identifies hostName dnsNames ips

theorem seekIntersection_iff (vecA vecB : List Bytes) :
    seekIntersection vecA vecB = true ↔ ShareRecord vecA vecB := by
  rw [seekIntersection, decide_eq_true_iff]
  exact setIntersection_ne_nil_iff vecA vecB

theorem dot_notMem_label {hostName label : Bytes} (h : label ∈ (splitHostName hostName).1) :
    dot ∉ label := by
  intro hdot
  apply (infix_of_mem_split (List.cons_ne_nil _ _) h).2
  obtain ⟨front, rest, rfl⟩ := List.append_of_mem hdot
  exact ⟨front, rest, by simp⟩

/-- A label of a host that has several is not a name of the host. -/
theorem label_notMatches {hostName label : Bytes} (h : label ∈ (splitHostName hostName).1)
    (hdot : dot ∈ hostName) : ¬ NameMatches hostName label := by
  have hno : dot ∉ lower label := notMem_lower (by decide) (dot_notMem_label h)
  rintro (heq | ⟨front, rest, -, -, hname, -⟩)
  · rw [heq] at hno
    exact hno (List.mem_map.mpr ⟨dot, hdot, by decide⟩)
  grind

theorem checkIpAndDnsName_of_isIP {hostName : Bytes} (h : isIP hostName = true)
    (dnsNames ips : List Bytes) (cert : Certificate) :
    (checkIpAndDnsName hostName dnsNames ips cert).1 = true ↔ hostName ∈ ips := by
  rw [checkIpAndDnsName, if_pos h]
  grind

theorem checkIpAndDnsName_of_not_isIP {hostName : Bytes} (h : ¬ isIP hostName = true)
    (dnsNames ips : List Bytes) (cert : Certificate) :
    (checkIpAndDnsName hostName dnsNames ips cert).1 = true ↔
      ShareRecord (splitHostName hostName).1 (comparedNames dnsNames cert) := by
  rw [← seekIntersection_iff, checkIpAndDnsName, if_neg h, comparedNames]
  by_cases hnames : dnsNames = []
  · rw [if_pos hnames]
    simp only [hnames, ne_eq, not_true_eq_false, if_false]
    cases cert.commonName with
    | none =>
      refine iff_of_false Bool.false_ne_true ?_
      rw [seekIntersection_iff]
      rintro ⟨x, -, hx⟩
      exact hx
    | some name =>
      grind
  grind

/-- The check accepts the hosts that the names of the certificate identify if and only if the labels
decide rightly. -/
theorem identity_checked_iff (hostName : Bytes) (dnsNames ips : List Bytes) (cert : Certificate) :
    ((checkIpAndDnsName hostName dnsNames ips cert).1 = true ↔ Identifies hostName dnsNames ips) ↔
      LabelsDecide hostName dnsNames ips cert := by
  rw [LabelsDecide]
  by_cases hip : isIP hostName = true
  · rw [if_pos hip, checkIpAndDnsName_of_isIP hip]
    constructor
    · intro h
      by_cases hin : hostName ∈ ips
      · exact Or.inl hin
      · right
        intro name hname hmatch
        exact hin (h.mpr (Or.inr ⟨name, hname, hmatch⟩))
    · rintro (hin | hno)
      · exact iff_of_true hin (Or.inl ⟨Or.inl hip, hin⟩)
      · constructor
        · intro hin
          exact Or.inl ⟨Or.inl hip, hin⟩
        · rintro (⟨-, hin⟩ | ⟨name, hname, hmatch⟩)
          · exact hin
          · exact (hno name hname hmatch).elim
  · rw [if_neg hip, checkIpAndDnsName_of_not_isIP hip]

/-- The name of the top-level domain alone is accepted for a host in it. -/
theorem topLevelDomain_accepted :
    (checkIpAndDnsName (ascii "bank.com") [ascii "com"] [] ⟨none, .missing⟩).1 = true ∧
      ¬ Identifies (ascii "bank.com") [ascii "com"] [] := by
  have hip : ¬ isIP (ascii "bank.com") = true := by decide +kernel
  constructor
  · rw [checkIpAndDnsName_of_not_isIP hip]
    have hparts : (splitHostName (ascii "bank.com")).1 = [ascii "bank", ascii "com"] := by
      decide +kernel
    rw [hparts]
    exact ⟨ascii "com", Or.inr ⟨by decide +kernel, Or.inl rfl⟩, Or.inl rfl⟩
  · rintro (⟨-, hin⟩ | ⟨name, hname, hmatch⟩)
    · cases hin
    · obtain rfl := List.mem_singleton.mp hname
      refine label_notMatches ?_ (by decide +kernel) hmatch
      decide +kernel

end Matching

end Netstack.TlsSocket
