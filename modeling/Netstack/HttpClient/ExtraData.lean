import Netstack.HttpClient.Task

/-!
# Extra data of a native request

`SetCurlMethod` moves the extra data of a request into its URL or its body. A string goes
to the parameters as it is; the text of an object or of an array is parsed, and every
member that has a name and a value becomes one parameter.

## Implementation notes

cJSON and the formatting of a number by a stream are parameters. A member whose value is
an object or an array has no value of its own.
-/

namespace Netstack.HttpClient

open Foundation CommonUtils HttpCache List

def httpUrlParamStart : Bytes := ascii "?"

def httpUrlParamSeparator : Bytes := ascii "&"

def httpUrlNameValueSeparator : Bytes := ascii "="

def httpContentTypeUrlEncode : Bytes := ascii "application/x-www-form-urlencoded"

structure EscapedData where
  dataType : HttpDataType := .noDataType
  data : Bytes := []

structure JsonServices where
  parse : Bytes → Option Json := fun _ => none
  formatNumber : Bytes → Bytes := id

def isUnReserved (b : UInt8) : Bool :=
  (48 ≤ b && b ≤ 57) || (97 ≤ b && b ≤ 122) || (65 ≤ b && b ≤ 90) ||
    b == 45 || b == 46 || b == 95 || b == 126

def hexDigit (n : UInt8) : UInt8 := if n < 10 then 48 + n else 55 + n

def encodeUrlParam (s : Bytes) : Bytes :=
  (cString s).flatMap fun b =>
    if isUnReserved b then [b] else [37, hexDigit (b / 16), hexDigit (b % 16)]

def makeUrl (url param extraParam : Bytes) : Bytes :=
  let param := if param = [] then extraParam else param ++ httpUrlParamSeparator ++ extraParam
  if param = [] then url else url ++ httpUrlParamStart ++ param

section Json

variable (json : JsonServices)

def getJsonFieldValue : Json → Bytes
  | .str s => cString s
  | .number text => json.formatNumber text
  | .bool b => if b then ascii "true" else ascii "false"
  | .null => ascii "null"
  | .arr _ | .obj _ => []

mutual

/-- The names and values that `TraverseJson` meets, in its order. -/
def traverseJson : Json → List (Bytes × Bytes)
  | .obj members => traverseMembers members
  | .arr items => traverseItems items
  | _ => []

def traverseMembers : List (Bytes × Json) → List (Bytes × Bytes)
  | [] => []
  | m :: rest => traverseMember m ++ traverseMembers rest

def traverseMember : Bytes × Json → List (Bytes × Bytes)
  | (key, child) =>
    traverseJson child ++
      if key = [] ∨ getJsonFieldValue json child = [] then []
      else [(key, getJsonFieldValue json child)]

def traverseItems : List Json → List (Bytes × Bytes)
  | [] => []
  | j :: rest => traverseJson j ++ traverseItems rest

end

def parseJsonValueToExtraParam (jsonStr : Bytes) : List (Bytes × Bytes) :=
  match json.parse (cString jsonStr) with
  | none => []
  | some root => traverseJson json root

end Json

variable (params : List (Bytes × Bytes))

/-- The text of the parameters, with a separator after each. -/
def paramText : Bytes :=
  params.flatMap fun p =>
    encodeUrlParam p.1 ++ httpUrlNameValueSeparator ++ encodeUrlParam p.2 ++
      httpUrlParamSeparator

/-- One parameter at least was not plain. -/
def hasEncoded : Bool :=
  params.any fun p => encodeUrlParam p.1 ≠ p.1 || encodeUrlParam p.2 ≠ p.2

variable (json : JsonServices)

/-- What the extra data adds to the parameters of a URL. -/
def extraParam (extraData : EscapedData) : Bytes :=
  match extraData.dataType with
  | .arrayBuffer | .object => (paramText (parseJsonValueToExtraParam json extraData.data)).dropLast
  | .string | .noDataType => extraData.data

def addExtraParam (extraParam url : Bytes) : Bytes :=
  match cut httpUrlParamStart url with
  | none => makeUrl url [] extraParam
  | some (url, param) => makeUrl url param extraParam

/-- The header `TraverseJson` sets on its way. -/
def markEncoded (r : HttpClientRequest) : HttpClientRequest :=
  if hasEncoded params then r.setHeader httpContentType httpContentTypeUrlEncode else r

def handleMethodForGet (extraData : EscapedData)
    (r : HttpClientRequest) : HttpClientRequest :=
  match extraData.dataType with
  | .string => r.setURL (addExtraParam extraData.data r.url)
  | .arrayBuffer | .object =>
    let params := parseJsonValueToExtraParam json extraData.data
    (markEncoded params r).setURL (addExtraParam (paramText params).dropLast r.url)
  | .noDataType => r

def getRequestBody (extraData : EscapedData) (r : HttpClientRequest) : HttpClientRequest :=
  if extraData.data = [] then r else r.setBody extraData.data

def EscapedData.present (extraData : EscapedData) : Bool :=
  extraData.dataType ≠ .noDataType && !extraData.data.isEmpty

/-- The part of `SetCurlMethod` that is about the extra data. -/
def applyExtraData (extraData : EscapedData)
    (r : HttpClientRequest) : HttpClientRequest :=
  if extraData.present then
    if methodForGet r.method then handleMethodForGet json extraData r
    else if methodForPost r.method then getRequestBody extraData r
    else r
  else r

variable (extraData : EscapedData) (r : HttpClientRequest)

@[simp] theorem markEncoded_method : (markEncoded params r).method = r.method := by
  unfold markEncoded
  split <;> rfl

theorem handleMethodForGet_method : (handleMethodForGet json extraData r).method = r.method := by
  unfold handleMethodForGet
  cases extraData.dataType with
  | string => rfl
  | object => exact markEncoded_method _ r
  | arrayBuffer => exact markEncoded_method _ r
  | noDataType => rfl

theorem getRequestBody_method : (getRequestBody extraData r).method = r.method := by
  unfold getRequestBody
  split <;> rfl

theorem getRequestBody_url : (getRequestBody extraData r).url = r.url := by
  unfold getRequestBody
  split <;> rfl

@[simp] theorem applyExtraData_method : (applyExtraData json extraData r).method = r.method := by
  unfold applyExtraData
  grind [handleMethodForGet_method, getRequestBody_method]

theorem handleMethodForGet_body : (handleMethodForGet json extraData r).body = r.body := by
  have hmark : ∀ params, (markEncoded params r).body = r.body := by
    intro params
    unfold markEncoded
    split <;> rfl
  unfold handleMethodForGet
  cases extraData.dataType with
  | string => rfl
  | object => exact hmark _
  | arrayBuffer => exact hmark _
  | noDataType => rfl

theorem handleMethodForGet_url {extraData : EscapedData} (h : extraData.dataType ≠ .noDataType)
    (r : HttpClientRequest) :
    (handleMethodForGet json extraData r).url =
      addExtraParam (extraParam json extraData) r.url := by
  unfold handleMethodForGet extraParam
  cases htype : extraData.dataType with
  | string => rfl
  | object => rfl
  | arrayBuffer => rfl
  | noDataType => exact absurd htype h

/-- No parameters at all, so no header either. -/
theorem markEncoded_of_dropLast {params : List (Bytes × Bytes)}
    (h : (paramText params).dropLast = []) (r : HttpClientRequest) : markEncoded params r = r := by
  cases params with
  | nil => rfl
  | cons p rest =>
    have hlen := congrArg List.length h
    have hequals : httpUrlNameValueSeparator.length = 1 := by decide
    have hseparator : httpUrlParamSeparator.length = 1 := by decide
    simp only [paramText, flatMap_cons, length_dropLast, length_append,
      length_nil] at hlen
    omega

theorem methodForGet_of_post {method : Bytes} (h : methodForPost method = true) :
    methodForGet method = false := by
  simp only [methodForPost, Bool.or_eq_true, beq_iff_eq] at h
  rcases h with (rfl | rfl) | rfl
  all_goals decide

open EscapedData

theorem EscapedData.present_iff {extraData : EscapedData} :
    extraData.present = true ↔ extraData.dataType ≠ .noDataType ∧ extraData.data ≠ [] := by
  simp [present]

theorem applyExtraData_of_absent (h : extraData.present = false) :
    applyExtraData json extraData r = r := by
  rw [applyExtraData, h]
  rfl

theorem applyExtraData_url :
    (applyExtraData json extraData r).url =
      if extraData.present = true ∧ methodForGet r.method = true then
        addExtraParam (extraParam json extraData) r.url
      else r.url := by
  unfold applyExtraData
  by_cases hp : extraData.present = true
  · have htype := (present_iff.1 hp).1
    by_cases hg : methodForGet r.method = true
    · rw [if_pos hp, if_pos hg, if_pos ⟨hp, hg⟩, handleMethodForGet_url json htype]
    · have hnot : ¬(extraData.present = true ∧ methodForGet r.method = true) := fun h => hg h.2
      rw [if_pos hp, if_neg hg, if_neg hnot]
      split
      · exact getRequestBody_url extraData r
      · rfl
  · rw [if_neg hp, if_neg fun h => hp h.1]

theorem applyExtraData_body :
    (applyExtraData json extraData r).body =
      if extraData.present = true ∧ methodForPost r.method = true then r.body ++ extraData.data
      else r.body := by
  unfold applyExtraData
  by_cases hp : extraData.present = true
  · have hdata := (present_iff.1 hp).2
    by_cases hg : methodForGet r.method = true
    · have hpost : ¬methodForPost r.method = true := fun h => by
        rw [methodForGet_of_post h] at hg
        cases hg
      rw [if_pos hp, if_pos hg, if_neg fun h => hpost h.2, handleMethodForGet_body]
    · by_cases hpost : methodForPost r.method = true
      · rw [if_pos hp, if_neg hg, if_pos hpost, if_pos ⟨hp, hpost⟩, getRequestBody, if_neg hdata]
        rfl
      grind
  · rw [if_neg hp, if_neg fun h => hp h.1]

/-- Adding parameters changes every URL, unless there are none to add and the URL has no
place for them. -/
theorem addExtraParam_eq_iff {extraParam url : Bytes} :
    addExtraParam extraParam url = url ↔ extraParam = [] ∧ ¬ httpUrlParamStart <:+: url := by
  have hstart : httpUrlParamStart.length = 1 := by decide
  have hseparator : httpUrlParamSeparator.length = 1 := by decide
  unfold addExtraParam
  cases hcut : cut httpUrlParamStart url with
  | none =>
    grind [cut_eq_none_iff, makeUrl]
  | some p =>
    obtain ⟨front, param⟩ := p
    have hurl : url = front ++ httpUrlParamStart ++ param := cut_append hcut
    have hin : httpUrlParamStart <:+: url := by
      grind
    simp only [hin, not_true_eq_false, and_false, iff_false]
    intro heq
    have hlen := congrArg List.length (heq.trans hurl)
    by_cases hp : param = []
    · by_cases he : extraParam = []
      · simp only [makeUrl, hp, he, if_true, length_append, length_nil] at hlen
        omega
      · simp [makeUrl, hp, he] at hlen
    · have hmore : param ++ httpUrlParamSeparator ++ extraParam ≠ [] := by simp [hp]
      simp only [makeUrl, if_neg hp, if_neg hmore, length_append] at hlen
      omega

theorem addExtraParam_eq_nil_iff {extraParam url : Bytes} :
    addExtraParam extraParam url = [] ↔
      extraParam = [] ∧ (url = [] ∨ url = httpUrlParamStart) := by
  have hstart : httpUrlParamStart ≠ [] := by decide
  unfold addExtraParam
  cases hcut : cut httpUrlParamStart url with
  | none =>
    have hno : url ≠ httpUrlParamStart := by
      rintro rfl
      exact (cut_eq_none_iff hstart).1 hcut infix_rfl
    by_cases he : extraParam = []
    · simp [makeUrl, he, hno]
    · simp [makeUrl, he]
  | some p =>
    obtain ⟨front, param⟩ := p
    have hurl : url = front ++ httpUrlParamStart ++ param := cut_append hcut
    by_cases hp : param = []
    · by_cases he : extraParam = []
      · simp [makeUrl, hp, he, hurl, hstart]
      · simp [makeUrl, hp, he]
    · have hne : url ≠ httpUrlParamStart := by
        intro heq
        have hlen := congrArg List.length (hurl.symm.trans heq)
        have hpos := length_pos_iff.2 hp
        simp only [length_append] at hlen
        omega
      have hnil : url ≠ [] := by
        rw [hurl]
        simp [hp]
      simp [makeUrl, hp, hne, hnil]

/-- The extra data has nothing to add to a request. -/
def AddsNothing : Prop :=
  extraData.present = true →
    (methodForGet r.method = true →
      extraParam json extraData = [] ∧ ¬ httpUrlParamStart <:+: r.url) ∧
    methodForPost r.method = false

variable {json extraData r}

theorem handleMethodForGet_eq_self (h : extraData.data ≠ [])
    (hparam : extraParam json extraData = []) (hurl : ¬ httpUrlParamStart <:+: r.url) :
    handleMethodForGet json extraData r = r := by
  have hadd : addExtraParam (extraParam json extraData) r.url = r.url :=
    addExtraParam_eq_iff.2 ⟨hparam, hurl⟩
  unfold extraParam at hparam hadd
  unfold handleMethodForGet
  cases htype : extraData.dataType with
  | string =>
    rw [htype] at hparam
    exact absurd hparam h
  | object =>
    rw [htype] at hparam hadd
    simp only [markEncoded_of_dropLast hparam, hadd]
    rfl
  | arrayBuffer =>
    rw [htype] at hparam hadd
    simp only [markEncoded_of_dropLast hparam, hadd]
    rfl
  | noDataType => rfl

theorem applyExtraData_eq_self (h : AddsNothing json extraData r) :
    applyExtraData json extraData r = r := by
  unfold applyExtraData
  split
  · rename_i hp
    obtain ⟨hget, hpost⟩ := h hp
    grind [handleMethodForGet_eq_self, present_iff]
  · rfl

/-- A request whose URL and body are left alone has nothing added to it. -/
theorem addsNothing_of_eq (hurl : (applyExtraData json extraData r).url = r.url)
    (hbody : (applyExtraData json extraData r).body = r.body) : AddsNothing json extraData r := by
  intro hp
  constructor
  · intro hg
    rw [applyExtraData_url, if_pos ⟨hp, hg⟩] at hurl
    exact addExtraParam_eq_iff.1 hurl
  · by_contra hpost
    rw [Bool.not_eq_false] at hpost
    rw [applyExtraData_body, if_pos ⟨hp, hpost⟩] at hbody
    exact (present_iff.1 hp).2 (append_right_eq_self.1 hbody)

end Netstack.HttpClient
