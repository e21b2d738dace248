import Netstack.Common.Url
import Netstack.Curl.Settings
import Netstack.HttpClient.ExtraData

/-!
# How a native task configures its handle

The constructor of `HttpClientTask` runs `SetCurlOptions` on a new handle and ignores the answer.
The function ends at the first option curl refuses, except for a few groups of options.

## Implementation notes

`HTTP_MULTIPATH_CERT_ENABLE` and `HAS_NETMANAGER_BASE` are set, `HTTP_CURL_PRINT_VERBOSE` and
`WINDOWS_PLATFORM` are not. The fields that no step changes are in `TaskConfig`.
-/

namespace Netstack.HttpClient

open Foundation CommonUtils Curl Attempt
open HttpCache hiding HttpResponse
open HttpCache.HttpConstant

def httpHeaderBlankSeparator : Bytes := ascii ";"

def httpDefaultUserAgent : Bytes := ascii "libcurl-agent/1.0"

def httpContentTypeMultipart : Bytes := ascii "multipart/form-data"

def httpAfOnlyV4 : Bytes := ascii "ONLY_V4"

def httpAfOnlyV6 : Bytes := ascii "ONLY_V6"

def tls12SecurityCipherSuite : Bytes := ascii "DEFAULT:!eNULL:!EXPORT"

inductive TaskType where
  | default
  | upload
  deriving DecidableEq, Repr

inductive HttpProxyType where
  | notUse
  | useSpecified
  | proxyTypeMax
  deriving DecidableEq, Repr

structure HttpProxy where
  host : Bytes := []
  port : Int := 0
  exclusions : Bytes := []

structure HttpClientCert where
  certPath : Bytes := []
  certType : Bytes := []
  keyPath : Bytes := []
  keyPassword : Bytes := []

inductive SslType where
  | tls
  | tlcp
  deriving DecidableEq, Repr

structure HttpMultiFormData where
  name : Bytes := []
  contentType : Bytes := []
  remoteFileName : Bytes := []
  data : Bytes := []
  filePath : Bytes := []

inductive HttpAuthenticationType where
  | auto
  | basic
  | ntlm
  | digest
  deriving DecidableEq, Repr

structure HttpServerAuthentication where
  username : Bytes := []
  password : Bytes := []
  authenticationType : HttpAuthenticationType := .auto

inductive TlsVersion where
  | default
  | tlsv10
  | tlsv11
  | tlsv12
  | tlsv13
  deriving DecidableEq, Repr

/-- The numbers of the versions, which are those of curl. -/
def TlsVersion.code : TlsVersion → Nat
  | .default => 0
  | .tlsv10 => 4
  | .tlsv11 => 5
  | .tlsv12 => 6
  | .tlsv13 => 7

structure TlsOption where
  ciperSuiteString : Bytes := []
  tlsV13CiperSuiteString : Bytes := []
  tlsVersionMin : TlsVersion := .default
  tlsVersionMax : TlsVersion := .default

section Shared

/-! What both kinds of requests configure in the same way. -/

variable {α : Type} (curl : CurlLibrary)

def getTlsVersion (tlsVersionMin tlsVersionMax : TlsVersion) : Nat :=
  if tlsVersionMin = .default ∨ tlsVersionMax = .default then 0
  else if tlsVersionMin.code > tlsVersionMax.code then 0
  else tlsVersionMin.code ||| tlsVersionMax.code <<< 16

def rangeString (resumeFrom resumeTo : Nat) : Bytes :=
  if resumeTo = 0 ∧ resumeFrom = 0 then []
  else if resumeTo = 0 then decimal resumeFrom ++ ascii "-"
  else if resumeFrom = 0 then ascii "-" ++ decimal resumeTo
  else if resumeTo ≤ resumeFrom then []
  else decimal resumeFrom ++ ascii "-" ++ decimal resumeTo

def contains (part s : Bytes) : Bool := (cut part s).isSome

/-- The parts that are added to a form. -/
def formParts (forms : List HttpMultiFormData) : List HttpMultiFormData :=
  forms.filter fun form => !form.name.isEmpty && (!form.data.isEmpty || !form.filePath.isEmpty)

def authType : HttpAuthenticationType → Int
  | .auto => -17
  | .basic => 1
  | .ntlm => 8
  | .digest => 2

/-- An option that is only set to a text that is there. -/
def setText (o : CurlOption) (text : Bytes) : Attempt (Handle α) Unit :=
  when (text ≠ []) (setOption curl o (.text text))

/-- The range of a request, or else a name for the user agent. -/
def setRangeOrAgent (range method : Bytes) : Attempt (Handle α) Unit :=
  if range = [] then setOption curl .userAgent (.text httpDefaultUserAgent)
  else if method = httpMethodPut then giveUp
  else setOption curl .range (.text range)

def setCallbacksTo (write header : Curl.Callback) : Attempt (Handle α) Unit := do
  setOption curl .xferInfoFunction (.callback .progressCallback)
  setOption curl .xferInfoData .owner
  setOption curl .noProgress (.long 0)
  setOption curl .writeFunction (.callback write)
  setOption curl .writeData .owner
  setOption curl .headerFunction (.callback header)
  setOption curl .headerData .owner

def setClientCert (cert : HttpClientCert) : Attempt (Handle α) Unit := do
  when (cert.certPath = []) giveUp
  setOption curl .sslCert (.text cert.certPath)
  setText curl .sslKey cert.keyPath
  setText curl .sslCertType cert.certType
  setText curl .keyPasswd cert.keyPassword

/-- The version of IP a network is restricted to. -/
def restrictIp (isIpv6Enable isIpv4Enable : Bool) : Attempt (Handle α) Unit :=
  if isIpv6Enable = false then setOption curl .ipResolve (.long 1)
  else when (isIpv4Enable = false) (setOption curl .ipResolve (.long 2))

def setAddressFamily (addressFamily : Bytes) : Attempt (Handle α) Unit := do
  when (addressFamily = httpAfOnlyV4) (setOption curl .ipResolve (.long 1))
  when (addressFamily = httpAfOnlyV6) (setOption curl .ipResolve (.long 2))

def setHttpProxy (host : Bytes) (port : Int) (url : Bytes) : Attempt (Handle α) Unit := do
  let https := ascii "https://"
  setOption curl .proxy (.text host)
  setOption curl .proxyPort (.long port)
  setOption curl .httpProxyTunnel (.long (if contains https url then 1 else 0))
  setOption curl .proxyType (.long (if contains https host then 2 else 0))

def setDefaultTls : Attempt (Handle α) Unit := do
  setOption curl .sslVersion (.long 6)
  setOption curl .sslCipherList (.text tls12SecurityCipherSuite)

def setTls (tls : TlsOption) : Attempt (Handle α) Unit := do
  let tlsVersion := getTlsVersion tls.tlsVersionMin tls.tlsVersionMax
  let normalString := tls.ciperSuiteString
  let tlsV13String := tls.tlsV13CiperSuiteString
  setOption curl .sslVersion (.long tlsVersion)
  if tlsVersion = 0 then setDefaultTls curl
  else if normalString = [] ∧ tlsV13String = [] then pure ()
  else if normalString ≠ [] then do
    setOption curl .sslCipherList (.text normalString)
    when (tlsV13String ≠ [] ∧ curl.builtWithOpenSSL = true)
      (setOption curl .tls13Ciphers (.text tlsV13String))
  else if tlsV13String ≠ [] ∧ curl.builtWithOpenSSL = true then
    setOption curl .tls13Ciphers (.text tlsV13String)
  else setDefaultTls curl

def setAuthentication (authentication : HttpServerAuthentication) : Attempt (Handle α) Unit := do
  when (authentication.username ≠ []) do
    setOption curl .httpAuth (.long (authType authentication.authenticationType))
    setOption curl .userName (.text authentication.username)
  setText curl .password authentication.password

theorem setsOthers_setText {o : CurlOption} (ho : describesRequest o = false) (text : Bytes) :
    SetsOthers (setText curl o text : Attempt (Handle α) Unit) := by
  delta setText
  apply_rules [SetsOthers.when, setsOthers_setOption]

theorem setsOthers_setRangeOrAgent (range method : Bytes) :
    SetsOthers (setRangeOrAgent curl range method : Attempt (Handle α) Unit) := by
  delta setRangeOrAgent
  apply_rules [SetsOthers.ite, setsOthers_giveUp, setsOthers_setOption, rfl]

theorem setsOthers_setClientCert (cert : HttpClientCert) :
    SetsOthers (setClientCert curl cert : Attempt (Handle α) Unit) := by
  delta setClientCert
  apply_rules [SetsOthers.bind, SetsOthers.when, setsOthers_giveUp, setsOthers_setOption,
    setsOthers_setText, rfl]

theorem setsOthers_restrictIp (isIpv6Enable isIpv4Enable : Bool) :
    SetsOthers (restrictIp curl isIpv6Enable isIpv4Enable : Attempt (Handle α) Unit) := by
  delta restrictIp
  apply_rules [SetsOthers.ite, SetsOthers.when, setsOthers_setOption, rfl]

theorem setsOthers_setAddressFamily (addressFamily : Bytes) :
    SetsOthers (setAddressFamily curl addressFamily : Attempt (Handle α) Unit) := by
  delta setAddressFamily
  apply_rules [SetsOthers.bind, SetsOthers.when, setsOthers_setOption, rfl]

theorem setsOthers_setHttpProxy (host : Bytes) (port : Int) (url : Bytes) :
    SetsOthers (setHttpProxy curl host port url : Attempt (Handle α) Unit) := by
  delta setHttpProxy
  apply_rules [SetsOthers.bind, setsOthers_setOption, rfl]

theorem setsOthers_setTls (tls : TlsOption) :
    SetsOthers (setTls curl tls : Attempt (Handle α) Unit) := by
  delta setTls setDefaultTls
  apply_rules [SetsOthers.bind, SetsOthers.ite, SetsOthers.when, setsOthers_pure,
    setsOthers_setOption, rfl]

theorem setsOthers_setAuthentication (authentication : HttpServerAuthentication) :
    SetsOthers (setAuthentication curl authentication : Attempt (Handle α) Unit) := by
  delta setAuthentication
  apply_rules [SetsOthers.bind, SetsOthers.when, setsOthers_setOption, setsOthers_setText, rfl]

end Shared

/-- What is fixed about a task and its request. -/
structure TaskConfig where
  type : TaskType := .default
  filePath : Bytes := []
  usingCache : Bool := false
  timeout : Nat := 60000
  connectTimeout : Nat := 60000
  proxy : HttpProxy := {}
  proxyType : HttpProxyType := .notUse
  caPath : Bytes := []
  resumeFrom : Nat := 0
  resumeTo : Nat := 0
  clientCert : HttpClientCert := {}
  addressFamily : Bytes := []
  sslType : SslType := .tls
  clientEncCert : HttpClientCert := {}
  dnsOverHttps : Bytes := []
  canSkipCertVerify : Bool := false
  tlsOptions : TlsOption := {}
  extraData : EscapedData := {}
  dnsServers : List Bytes := []
  multiFormDataList : List HttpMultiFormData := []
  serverAuthentication : HttpServerAuthentication := {}
  certificatePinning : Bytes := []

/-- What the task asks the system and the network manager. -/
structure TaskServices where
  json : JsonServices := {}
  realpath : Bytes → Option Bytes := fun _ => none
  /-- The size of a file that can be opened. -/
  fileSize : Bytes → Option Int := fun _ => none
  fileData : Bytes → Option Bytes := fun _ => none
  defaultHttpProxy : HttpProxy := {}
  isHostNameExcluded : Bytes → Bytes → Bool := fun _ _ => false
  isPinOpenMode : Bytes → Bool := fun _ => true
  pinSetForHostName : Bytes → Option Bytes := fun _ => none
  isIpv4Enable : Bool := true
  isIpv6Enable : Bool := true

abbrev Configure := Attempt (Handle HttpClientRequest) Unit

def getRangeString (c : TaskConfig) : Bytes := rangeString c.resumeFrom c.resumeTo

/-- A header as a line of the list for curl. -/
def headerLine (header : Bytes × Bytes) : Bytes :=
  if header.2 ≠ [] then header.1 ++ httpHeaderSeparator ++ header.2
  else header.1 ++ httpHeaderBlankSeparator

def headerLines (headers : Headers) : List Bytes :=
  headers.toList.map fun header => cString (headerLine header)

/-- The calls with which `SetFormDataOption` fills a part; it stops at the first that fails. -/
def formDataCalls (net : TaskServices) (form : HttpMultiFormData) : List MimeCall :=
  [.name (cString form.name)] ++
    (if form.contentType ≠ [] then [.type (cString form.contentType)] else []) ++
    (if form.remoteFileName ≠ [] then [.filename (cString form.remoteFileName)] else []) ++
    if form.data ≠ [] then [.data form.data]
    else if form.remoteFileName ≠ [] then
      match net.fileData (cString form.filePath) with
      | some fileData => [.data fileData]
      | none => [.filedata (cString form.filePath)]
    else [.filedata (cString form.filePath)]

def getHttpProxyInfo (net : TaskServices) (c : TaskConfig) : HttpProxy :=
  if c.proxyType = .useSpecified then c.proxy else net.defaultHttpProxy

section Configure

variable (curl : CurlLibrary) (net : TaskServices) (c : TaskConfig)

def setHttpHeaders : Configure := do
  let h ← state
  setOption curl .httpHeader (.slist (headerLines h.owner.headers))

def setTraceOptions : Configure := do
  setOption curl .resolverStartData .owner
  setOption curl .resolverStartFunction (.callback .traceDns)
  setOption curl .sockOptData .owner
  setOption curl .sockOptFunction (.callback .traceTcp)
  setOption curl .sslCtxData .owner
  setOption curl .sslCtxFunction (.callback .traceTls)
  setOption curl .preReqData .owner
  setOption curl .preReqFunction (.callback .traceSending)

def setUploadOptions : Configure :=
  if c.filePath = [] then giveUp
  else
    match (net.realpath (cString c.filePath)).bind fun p => (net.fileSize p).map (p, ·) with
    | none => giveUp
    | some (realPath, size) => do
        setOption curl .readData (.file realPath)
        setOption curl .inFileSize (.long size)
        setOption curl .upload (.long 1)

/-- The methods for which the body is given to curl. -/
def carriesBody (method : Bytes) : Bool := methodForPost method || method.isEmpty

variable (r : HttpClientRequest)

def setMethodAndBody : Configure := do
  when (r.method ≠ []) (setOption curl .customRequest (.text r.method))
  when (carriesBody r.method = true ∧ r.body ≠ []) (setPost curl r.body)

def setCurlMethod : Configure := do
  let h ← state
  when (admitsMethod h.owner.method = false) giveUp
  when (h.owner.method = httpMethodHead) (setOption curl .noBody (.long 1))
  update fun h => { h with owner := applyExtraData net.json c.extraData h.owner }
  ignoring (setTraceOptions curl)
  let h ← state
  setOption curl .url (.text h.owner.url)
  if c.type = .upload then setUploadOptions curl net c
  else setMethodAndBody curl h.owner

def setCallbackFunctions : Configure :=
  setCallbacksTo curl .dataReceiveCallback .headerReceiveCallback

def setCertPinnerOption : Configure := setText curl .pinnedPublicKey c.certificatePinning

def setDnsOption : Configure :=
  if c.dnsServers = [] then giveUp
  else setOption curl .dnsServers (.text ((ascii ",").intercalate c.dnsServers))

def setServerSSLCertOption : Configure :=
  let hostname := getHostnameFromURL r.url
  when (net.isPinOpenMode hostname = false) <|
    match net.pinSetForHostName hostname with
    | none => pure ()
    | some pins => setText curl .pinnedPublicKey pins

def setSSLCertOption : Configure := do
  setOption curl .sslCtxFunction (.callback .sslCtxFunction)
  setOption curl .sslCtxData .owner
  setOption curl .caInfo .null
  setOption curl .sslVerifyPeer (.long (if c.canSkipCertVerify then 0 else 1))
  setOption curl .sslVerifyHost (.long (if c.canSkipCertVerify then 0 else 2))
  ignoring (setServerSSLCertOption curl net r)
  setClientCert curl c.clientCert

def setFormDataOption (form : HttpMultiFormData) : Bool :=
  (formDataCalls net form).all curl.takesMime

def setMultiPartOption : Configure :=
  if lower (r.headers.getD httpContentType []) ≠ httpContentTypeMultipart then pure ()
  else if c.multiFormDataList = [] then pure ()
  else if curl.mimeInit = false then giveUp
  else
    let parts := formParts c.multiFormDataList
    when (parts.any (setFormDataOption curl net) = true)
      (setOption curl .mimePost
        (.mime (parts.map fun form => (formDataCalls net form).takeWhile curl.takesMime)))

def setDnsCacheOption : Configure := setOption curl .dnsCacheTimeout (.long 0)

def setIpResolve : Configure :=
  if c.addressFamily = [] then restrictIp curl net.isIpv6Enable net.isIpv4Enable
  else setAddressFamily curl c.addressFamily

def setRange : Configure := setRangeOrAgent curl (getRangeString c) r.method

def setRequestOption : Configure := do
  setOption curl .timeoutMs (.long c.timeout)
  setOption curl .connectTimeoutMs (.long c.connectTimeout)
  setRange curl c r
  setText curl .dohUrl c.dnsOverHttps
  ignoring (setCertPinnerOption curl c)
  ignoring (setDnsOption curl c)
  ignoring (setSSLCertOption curl net c r)
  ignoring (setMultiPartOption curl net c r)
  ignoring (setDnsCacheOption curl)
  ignoring (setIpResolve curl net c)

def setProxyOption : Configure :=
  let proxy := getHttpProxyInfo net c
  when (proxy.host ≠ [] ∧ net.isHostNameExcluded r.url proxy.exclusions = false)
    (setHttpProxy curl proxy.host proxy.port r.url)

def setTlsOption : Configure := setTls curl c.tlsOptions

def setSslTypeAndClientEncCert : Configure :=
  let cert := c.clientEncCert
  when (c.sslType = .tlcp) do
    setOption curl .sslVersion (.long curl.sslVersionTLCPv11)
    setText curl .caInfo c.caPath
    setText curl .sslEncCert cert.certPath
    setText curl .sslEncKey cert.keyPath
    setText curl .sslCertType cert.certType
    setText curl .keyPasswd cert.keyPassword

def setOtherCurlOption : Configure := do
  setProxyOption curl net c r
  ignoring (setTlsOption curl c)
  setRange curl c r
  ignoring (setSSLCertOption curl net c r)
  ignoring (setDnsCacheOption curl)
  ignoring (setIpResolve curl net c)
  setOption curl .acceptEncoding (.text [])
  setSslTypeAndClientEncCert curl c

def setAuthOptions : Configure := setAuthentication curl c.serverAuthentication

/-- The part of `SetCurlOptions` before it looks at the cache. -/
def describeRequest : Configure := do
  setHttpHeaders curl
  setCurlMethod curl net c

/-- What follows the callbacks in `SetCurlOptions`. -/
def setTransferOptions : Configure := do
  setOption curl .followLocation (.long 1)
  setOption curl .cookieFile (.text [])
  setOption curl .noSignal (.long 1)
  let h ← state
  setOption curl .httpVersion (.long h.owner.getHttpVersion)
  setRequestOption curl net c h.owner
  setOtherCurlOption curl net c h.owner
  setAuthOptions curl c

def setCurlOptions : Configure := do
  setHttpHeaders curl
  setCurlMethod curl net c
  when (c.usingCache = true) giveUp
  setCallbackFunctions curl
  setTransferOptions curl net c

theorem setCurlOptions_eq : setCurlOptions curl net c = (do
      describeRequest curl net c
      when (c.usingCache = true) giveUp
      setCallbackFunctions curl
      setTransferOptions curl net c) := by
  rw [describeRequest, bind_bind]
  rfl

end Configure

section OtherOptions

variable (curl : CurlLibrary) (net : TaskServices) (c : TaskConfig) (r : HttpClientRequest)

theorem setTraceOptions_setsOthers : SetsOthers (setTraceOptions curl) := by
  delta setTraceOptions
  apply_rules [SetsOthers.bind, setsOthers_setOption, rfl]

theorem setCallbackFunctions_setsOthers : SetsOthers (setCallbackFunctions curl) := by
  delta setCallbackFunctions setCallbacksTo
  apply_rules [SetsOthers.bind, setsOthers_setOption, rfl]

theorem setDnsOption_setsOthers : SetsOthers (setDnsOption curl c) := by
  delta setDnsOption
  apply_rules [SetsOthers.ite, setsOthers_giveUp, setsOthers_setOption, rfl]

theorem setServerSSLCertOption_setsOthers : SetsOthers (setServerSSLCertOption curl net r) := by
  delta setServerSSLCertOption
  apply SetsOthers.when
  cases net.pinSetForHostName (getHostnameFromURL r.url) with
  | none => exact setsOthers_pure
  | some pins => exact setsOthers_setText curl rfl pins

theorem setSSLCertOption_setsOthers : SetsOthers (setSSLCertOption curl net c r) := by
  delta setSSLCertOption
  apply_rules [setServerSSLCertOption_setsOthers, setsOthers_setClientCert, SetsOthers.bind,
    SetsOthers.ignoring, setsOthers_setOption, rfl]

theorem setMultiPartOption_setsOthers : SetsOthers (setMultiPartOption curl net c r) := by
  delta setMultiPartOption
  apply_rules [SetsOthers.ite, SetsOthers.when, setsOthers_pure, setsOthers_giveUp,
    setsOthers_setOption, rfl]

theorem setIpResolve_setsOthers : SetsOthers (setIpResolve curl net c) := by
  delta setIpResolve
  exact (setsOthers_restrictIp curl _ _).ite (setsOthers_setAddressFamily curl _)

theorem setRequestOption_setsOthers : SetsOthers (setRequestOption curl net c r) := by
  delta setRequestOption setDnsCacheOption setCertPinnerOption setRange
  apply_rules [setDnsOption_setsOthers, setSSLCertOption_setsOthers,
    setMultiPartOption_setsOthers, setIpResolve_setsOthers, setsOthers_setRangeOrAgent,
    setsOthers_setText, SetsOthers.bind, SetsOthers.ignoring, setsOthers_setOption, rfl]

theorem setSslTypeAndClientEncCert_setsOthers : SetsOthers (setSslTypeAndClientEncCert curl c) := by
  delta setSslTypeAndClientEncCert
  apply_rules [SetsOthers.when, SetsOthers.bind, setsOthers_setText, setsOthers_setOption, rfl]

theorem setOtherCurlOption_setsOthers : SetsOthers (setOtherCurlOption curl net c r) := by
  delta setOtherCurlOption setDnsCacheOption setProxyOption setTlsOption setRange
  apply_rules [setSSLCertOption_setsOthers, setIpResolve_setsOthers,
    setSslTypeAndClientEncCert_setsOthers, setsOthers_setHttpProxy, setsOthers_setTls,
    setsOthers_setRangeOrAgent, SetsOthers.bind, SetsOthers.when, SetsOthers.ignoring,
    setsOthers_setOption, rfl]

theorem setTransferOptions_setsOthers : SetsOthers (setTransferOptions curl net c) := by
  delta setTransferOptions
  apply_rules [SetsOthers.bind, setsOthers_setOption, rfl]
  apply SetsOthers.reading
  intro h
  apply_rules [setRequestOption_setsOthers, setOtherCurlOption_setsOthers,
    setsOthers_setAuthentication, SetsOthers.bind, setsOthers_setOption, rfl]

theorem setUploadOptions_setsOthers : SetsOthers (setUploadOptions curl net c) := by
  delta setUploadOptions
  apply SetsOthers.ite setsOthers_giveUp
  split
  · exact setsOthers_giveUp
  · apply_rules [SetsOthers.bind, setsOthers_setOption, rfl]

theorem setTraceOptions_owner (h : Handle HttpClientRequest) :
    (setTraceOptions curl h).2.owner = h.owner :=
  (setTraceOptions_setsOthers curl h).1

end OtherOptions

end Netstack.HttpClient
