import Netstack.Common.Text
import Netstack.Foundation.Search

/-!
# The parts of a URL that the policies look at

`CommonUtils` takes the host, the protocol and the port of a URL by searching for
delimiters, without a grammar. The answers decide which hosts an atomic service may
reach and where cleartext is permitted.

## Implementation notes

The policy services of the system (`ApiPolicyUtils`, `NetworkSecurityConfig`) are
parameters.
-/

namespace Netstack.CommonUtils

open Foundation Foundation.Search Option

def colon : UInt8 := 58

def slash : UInt8 := 47

def questionMark : UInt8 := 63

def backslash : UInt8 := 92

def schemeDelimiter : Bytes := ascii "://"

variable (url : Bytes)

def getProtocolFromURL : Bytes :=
  match cut schemeDelimiter url with
  | some (protocol, _) => protocol
  | none => []

/-- `std::replace` of backslashes by slashes. -/
def forwardSlashes : Bytes := url.map fun b => if b = backslash then slash else b

def getHostnameFromURL : Bytes :=
  if url = [] then []
  else
    let tempUrl := forwardSlashes url
    let posStart :=
      match cut schemeDelimiter tempUrl with
      | some (front, _) => front.length + schemeDelimiter.length
      | none => 0
    let posStart := (findFirstNotOf tempUrl slash posStart).getD posStart
    let posEnd := minPos (minPos (findChar tempUrl colon posStart)
      (findChar tempUrl slash posStart)) (findChar tempUrl questionMark posStart)
    match posEnd with
    | some posEnd => (tempUrl.drop posStart).take (posEnd - posStart)
    | none => tempUrl.drop posStart

def getPortFromURL : Bytes :=
  let protocol := getProtocolFromURL url
  let hostname := getHostnameFromURL url
  let start := if protocol = [] then hostname.length
    else protocol.length + schemeDelimiter.length + hostname.length
  match findChar url colon start with
  | none => []
  | some posStart =>
    match minPos (findChar url slash start) (findChar url questionMark start) with
    | none => url.drop (posStart + 1)
    | some posEnd =>
      if posEnd < posStart then []
      else (url.drop (posStart + 1)).take (posEnd - posStart - 1)

def protocolWss : Bytes := ascii "wss"

def getHostnameWithProtocolAndPortFromURL : Bytes :=
  let hostname := getHostnameFromURL url
  if hostname = [] then []
  else
    let protocol := getProtocolFromURL url
    let named := if protocol = [] then hostname else protocol ++ schemeDelimiter ++ hostname
    if protocol = protocolWss then named
    else
      let port := getPortFromURL url
      if port = [] then named else named ++ [colon] ++ port

/-- The policy services of the system. -/
structure PolicyServices where
  isAllowedHostname : Bytes → Bytes → Bytes → Bool
  /-- The answer for the component, or no answer if the call fails. -/
  isCleartextCfgByComponent : Bytes → Option Bool
  /-- The answer for the host; without one the permission stays as it was. -/
  isCleartextPermitted : Bytes → Option Bool

variable (services : PolicyServices)

def isAllowedHostname (bundleName domainType url : Bytes) : Bool :=
  if bundleName = [] then true
  else
    let hostname := getHostnameWithProtocolAndPortFromURL url
    if hostname = [] then true
    else services.isAllowedHostname bundleName domainType hostname

def isCleartextPermitted (url protocol : Bytes) : Bool :=
  match services.isCleartextCfgByComponent (ascii "Network Kit") with
  | none => true
  | some false => true
  | some true =>
    if (cut protocol (lower url)).isSome then
      (services.isCleartextPermitted (getHostnameFromURL url)).getD true
    else true

/-- The text behind the first scheme delimiter, or the whole text. -/
def afterScheme : Bytes :=
  match cut schemeDelimiter url with
  | some (_, rest) => rest
  | none => url

/-- One of the characters at which the host is taken to end. -/
def endsHost (b : UInt8) : Bool := b == colon || b == slash || b == questionMark

/-- From a position on, the text up to the first character that ends a host. -/
theorem take_minPos (s : Bytes) (pos : Nat) :
    (match minPos (minPos (findChar s colon pos) (findChar s slash pos))
        (findChar s questionMark pos) with
      | some posEnd => (s.drop pos).take (posEnd - pos)
      | none => s.drop pos) = (s.drop pos).takeWhile (!endsHost ·) := by
  rw [minPos_findChar]
  cases hfind : (s.drop pos).findIdx? fun x => x == colon || x == slash || x == questionMark with
  | none =>
    symm
    exact List.takeWhile_eq_self_iff.mpr (all_of_findIdx?_eq_none hfind)
  | some i =>
    simp only [map_some, Nat.add_sub_cancel]
    exact (takeWhile_of_findIdx? hfind).symm

/-- Skipping the slashes from a position on. If there is nothing else, the host is
empty from either position. -/
theorem takeWhile_skip (s : Bytes) (pos : Nat) :
    (s.drop ((findFirstNotOf s slash pos).getD pos)).takeWhile (!endsHost ·) =
      ((s.drop pos).dropWhile (· == slash)).takeWhile (!endsHost ·) := by
  rw [findFirstNotOf]
  cases hfind : (s.drop pos).findIdx? (· != slash) with
  | some i =>
    have hdrop := dropWhile_of_findIdx? hfind
    simp only [bne, Bool.not_not] at hdrop
    rw [map_some, getD_some, hdrop, List.drop_drop, Nat.add_comm]
  | none =>
    have hslashes : ∀ b ∈ s.drop pos, (b == slash) = true := by
      grind
    rw [map_none, getD_none, List.dropWhile_eq_nil_iff.mpr hslashes]
    cases hrest : s.drop pos with
    | nil => rfl
    | cons b rest =>
      have hb : b = slash := beq_iff_eq.mp (hslashes b (hrest ▸ List.mem_cons_self))
      rw [hb]
      rfl

/-- The host is what stands before the first colon, slash or question mark, after the
scheme and all slashes that follow it. -/
theorem getHostnameFromURL_eq : getHostnameFromURL url =
      ((afterScheme (forwardSlashes url)).dropWhile (· == slash)).takeWhile (!endsHost ·) := by
  by_cases hnil : url = []
  · rw [hnil]
    rfl
  · simp only [getHostnameFromURL, if_neg hnil, take_minPos, takeWhile_skip, afterScheme]
    cases hcut : cut schemeDelimiter (forwardSlashes url) with
    | none => rfl
    | some p =>
      have hsplit := cut_append hcut
      grind

end Netstack.CommonUtils
