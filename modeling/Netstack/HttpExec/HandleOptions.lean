import Netstack.HttpClient.CurlOptions

/-!
# How a JS request configures its handle

`RequestWithoutCache` makes a new handle and runs `SetOption` on it, which ends at the first
option curl refuses.

## Implementation notes

The modelled build has `HAS_NETMANAGER_BASE`, and none of the features for dead flows,
handovers, proxy passwords and verbose output. What the interceptors may rewrite stands in
`RequestFields`, the rest in `HandleConfig`.
-/

namespace Netstack.HttpExec

open Foundation Attempt Curl List
open HttpCache hiding HttpResponse
open HttpCache.HttpConstant
open HttpClient (HttpClientCert HttpMultiFormData TlsOption HttpServerAuthentication
  contains httpContentType httpContentTypeMultipart formParts rangeString restrictIp
  setAddressFamily setAuthentication setCallbacksTo setClientCert setHttpProxy setRangeOrAgent
  setText setTls setsOthers_restrictIp setsOthers_setAddressFamily setsOthers_setAuthentication
  setsOthers_setClientCert setsOthers_setHttpProxy setsOthers_setRangeOrAgent
  setsOthers_setText setsOthers_setTls)

def minNonSystemNetid : Nat := 100

inductive PathPreference where
  | autoPath
  | primaryCellular
  | secondaryCellular
  deriving DecidableEq, Repr

inductive UsingHttpProxyType where
  | notUse
  | useDefault
  | useSpecified
  deriving DecidableEq, Repr

structure ProxyInfo where
  host : Bytes := []
  port : Int := 0
  exclusions : Bytes := []
  username : Bytes := []
  password : Bytes := []

inductive Socks5DnsStrategy where
  | systemMode
  | proxyMode
  | unspecified
  deriving DecidableEq, Repr

/-- The part of a request that the interceptors may rewrite, with the header list of the
context. -/
structure RequestFields where
  url : Bytes
  method : Bytes := httpMethodGet
  body : Bytes := []
  curlHeaderList : List Bytes := []

/-- What is fixed about a request. -/
structure HandleConfig where
  bodyOrQueryConfigured : Bool := false
  header : Headers := {}
  maxRedirects : Nat := 30
  enableAutoCookie : Bool := false
  hasShareHandle : Bool := false
  readTimeout : Nat := 60000
  connectTimeout : Nat := 60000
  sniHostName : Bytes := []
  reuseConnectionsFlag : Bool := true
  inactivityMs : Int := 0
  pathPreference : PathPreference := .autoPath
  httpVersion : Nat := 0
  resumeFromNumber : Nat := 0
  resumeToNumber : Nat := 0
  dohUrl : Bytes := []
  certificatePinning : Bytes := []
  dnsServers : List Bytes := []
  clientCert : HttpClientCert := {}
  multiPartDataList : List HttpMultiFormData := []
  addressFamily : Bytes := []
  usingHttpProxyType : UsingHttpProxyType := .useDefault
  specifiedHttpProxy : ProxyInfo := {}
  socks5Proxy : ProxyInfo := {}
  socks5ProxyDnsStrategy : Socks5DnsStrategy := .unspecified
  tlsOption : TlsOption := {}
  serverAuthentication : HttpServerAuthentication := {}

/-- What the request asks the system, the network manager and curl. -/
structure HandleServices where
  netSysIsIpv6Enable : Nat → Bool := fun _ => true
  netSysIsIpv4Enable : Nat → Bool := fun _ => true
  getInterfaceName : PathPreference → Option (Bytes × Nat) := fun _ => none
  parseHostAndPortFromUrl : Bytes → Option (Bytes × Nat) := fun _ => none
  getaddrinfoCustom : Bytes → Option (List Bytes) := fun _ => none
  getaddrinfoHook : Bytes → Option (List Bytes) := fun _ => none
  defaultHttpProxy : ProxyInfo := {}
  isHostNameExcluded : Bytes → Bytes → Bool := fun _ _ => false

abbrev HandleStep := Attempt (Handle RequestFields) Unit

def getRangeString (c : HandleConfig) : Bytes := rangeString c.resumeFromNumber c.resumeToNumber

section Steps

variable (curl : CurlLibrary) (net : HandleServices) (c : HandleConfig) (r : RequestFields)

def setIpFamily (netId : Nat) : HandleStep :=
  restrictIp curl (net.netSysIsIpv6Enable netId) (net.netSysIsIpv4Enable netId)

def setMethodAndUrl : HandleStep := do
  when (r.method = httpMethodHead) (setOption curl .noBody (.long 1))
  setOption curl .url (.text r.url)
  setIpFamily curl net 0
  when (r.method ≠ []) (setOption curl .customRequest (.text r.method))

/-- The body is given to curl. -/
def SendsBody : Prop :=
  (methodForGet r.method = false ∨ c.bodyOrQueryConfigured = true) ∧ r.body ≠ []

instance : Decidable (SendsBody c r) := inferInstanceAs (Decidable (_ ∧ _))

def setBody : HandleStep := when (SendsBody c r) (setPost curl r.body)

def setCallbacks : HandleStep := setCallbacksTo curl .onWritingMemoryBody .onWritingMemoryHeader

def setInterface : HandleStep :=
  match net.getInterfaceName c.pathPreference with
  | none => giveUp
  | some (interfaceName, netId) =>
    if interfaceName ≠ [] ∧ minNonSystemNetid ≤ netId then do
      setIpFamily curl net netId
      setOption curl .interface (.text interfaceName)
      setOption curl .dnsInterface (.text interfaceName)
    else giveUp

/-- The part of `SetOption` between the headers and `SetRequestOption`. -/
def setConnection : HandleStep := do
  setOption curl .followLocation (.long 1)
  setOption curl .maxRedirs (.long c.maxRedirects)
  setOption curl .cookieFile (.text [])
  when (c.enableAutoCookie = true ∧ c.hasShareHandle = true)
    (setOption curl .share .shareHandle)
  setOption curl .noSignal (.long 1)
  setOption curl .timeoutMs (.long c.readTimeout)
  setOption curl .connectTimeoutMs (.long c.connectTimeout)
  setText curl .sniHostName c.sniHostName
  when (c.reuseConnectionsFlag = false) do
    setOption curl .forbidReuse (.long 1)
    setOption curl .freshConnect (.long 1)
  when (0 < c.inactivityMs)
    (setOption curl .maxAgeConn (.long (c.inactivityMs.tdiv 1000)))
  when (c.pathPreference ≠ .autoPath) (ignoring (setInterface curl net c))

end Steps

section RequestOption

variable (curl : CurlLibrary) (net : HandleServices) (c : HandleConfig) (r : RequestFields)

def setRange : HandleStep := setRangeOrAgent curl (getRangeString c) r.method

def setCertPinnerOption : HandleStep := setText curl .pinnedPublicKey c.certificatePinning

def setDnsOption : HandleStep :=
  when (c.dnsServers ≠ [])
    (setOption curl .dnsServers (.text ((ascii ",").intercalate c.dnsServers)))

def setSSLCertOption : HandleStep := setClientCert curl c.clientCert

/-- What `SetFormDataOption` puts into a part after its name. -/
def formDataContent (form : HttpMultiFormData) : List MimeCall :=
  (if form.contentType ≠ [] then [.type (cString form.contentType)] else []) ++
    (if form.data ≠ [] then [.data form.data] else [.filedata (cString form.filePath)]) ++
    if form.remoteFileName ≠ [] then [.filename (cString form.remoteFileName)] else []

/-- A part without its name stays empty; after the name a call that fails is only logged. -/
def formDataCalls (form : HttpMultiFormData) : List MimeCall :=
  if curl.takesMime (.name (cString form.name)) = false then []
  else .name (cString form.name) :: (formDataContent form).filter curl.takesMime

def setMultiPartOption : HandleStep :=
  let parts := formParts c.multiPartDataList
  if lower (c.header.getD httpContentType []) ≠ httpContentTypeMultipart then pure ()
  else if c.multiPartDataList = [] then pure ()
  else if curl.mimeInit = false then giveUp
  else when (parts ≠ [])
    (setOption curl .mimePost (.mime (parts.map (formDataCalls curl))))

/-- The addresses curl is told to use for a host, if there are any. -/
def setResolved (host : Bytes) (port : Nat) (addresses : List Bytes) : HandleStep :=
  when (addresses ≠ [])
    (setOption curl .resolve
      (.slist (addresses.map fun ip => host ++ ascii ":" ++ decimal port ++ ascii ":" ++ ip)))

def setDnsResolvOption : HandleStep :=
  match net.parseHostAndPortFromUrl r.url with
  | none => pure ()
  | some (host, port) =>
    match net.getaddrinfoCustom host with
    | some addresses => do
        setOption curl .useDnsInterceptor (.long 1)
        setResolved curl host port addresses
    | none => setResolved curl host port ((net.getaddrinfoHook host).getD [])

def setDnsCacheOption : HandleStep := setOption curl .dnsCacheTimeout (.long 0)

def setIpResolve : HandleStep := setAddressFamily curl c.addressFamily

def setTCPOption : HandleStep := do
  setOption curl .sockOptData .owner
  setOption curl .sockOptFunction (.callback .setOptionToSocket)

def setRequestOption : HandleStep := do
  setOption curl .httpVersion (.long c.httpVersion)
  setRange curl c r
  setText curl .dohUrl c.dohUrl
  ignoring (setCertPinnerOption curl c)
  ignoring (setDnsOption curl c)
  ignoring (setSSLCertOption curl c)
  ignoring (setMultiPartOption curl c)
  ignoring (setDnsResolvOption curl net r)
  ignoring (setDnsCacheOption curl)
  ignoring (setIpResolve curl c)
  ignoring (setTCPOption curl)

end RequestOption

section OtherOption

variable (curl : CurlLibrary) (net : HandleServices) (c : HandleConfig) (r : RequestFields)

def getHttpProxyInfo : ProxyInfo :=
  match c.usingHttpProxyType with
  | .useDefault => net.defaultHttpProxy
  | .useSpecified => c.specifiedHttpProxy
  | .notUse => {}

def setProxyCredentials (proxy : ProxyInfo) : HandleStep :=
  when (proxy.username ≠ [] ∧ proxy.password ≠ []) do
    setOption curl .proxyUserName (.text proxy.username)
    setOption curl .proxyPassword (.text proxy.password)

def setHttpProxyOption : HandleStep :=
  let proxy := getHttpProxyInfo net c
  when (proxy.host ≠ [] ∧ net.isHostNameExcluded r.url proxy.exclusions = false) do
    setHttpProxy curl proxy.host proxy.port r.url
    setProxyCredentials curl proxy

/-- The type of a SOCKS5 proxy in curl, by who resolves the name of the host. -/
def socks5ProxyType : Int :=
  match c.socks5ProxyDnsStrategy with
  | .proxyMode => 7
  | .systemMode => 5
  | .unspecified => if contains (ascii "socks5h://") c.socks5Proxy.host then 7 else 5

def setSocks5ProxyOption : HandleStep :=
  let proxy := c.socks5Proxy
  when (net.isHostNameExcluded r.url proxy.exclusions = false) do
    setOption curl .proxy (.text proxy.host)
    setOption curl .proxyPort (.long proxy.port)
    setOption curl .proxyType (.long (socks5ProxyType c))
    setProxyCredentials curl proxy

def setProxyOption : HandleStep :=
  if c.socks5Proxy.host ≠ [] ∧ 0 < c.socks5Proxy.port then setSocks5ProxyOption curl net c r
  else setHttpProxyOption curl net c r

def setTlsOption : HandleStep := setTls curl c.tlsOption

def setOtherOption : HandleStep := do
  setProxyOption curl net c r
  setTlsOption curl c
  setOption curl .acceptEncoding (.text [])

def setAuthOptions : HandleStep := setAuthentication curl c.serverAuthentication

/-- What follows the headers in `SetOption`. -/
def setTransfer : HandleStep := do
  setConnection curl net c
  setRequestOption curl net c r
  setOtherOption curl net c r
  setAuthOptions curl c

/-- The part of `SetOption` up to the headers. -/
def describeRequest : HandleStep := do
  setMethodAndUrl curl net r
  setBody curl c r
  setCallbacks curl
  setOption curl .httpHeader (.slist r.curlHeaderList)

def setOption : HandleStep := do
  let h ← state
  describeRequest curl net c h.owner
  setTransfer curl net c h.owner

end OtherOption

section Others

variable (curl : CurlLibrary) (net : HandleServices) (c : HandleConfig) (r : RequestFields)

theorem setInterface_setsOthers : SetsOthers (setInterface curl net c) := by
  delta setInterface
  cases net.getInterfaceName c.pathPreference with
  | none => exact setsOthers_giveUp
  | some found =>
    apply_rules [setsOthers_restrictIp, SetsOthers.ite, SetsOthers.bind, setsOthers_giveUp,
      setsOthers_setOption, rfl]

theorem setConnection_setsOthers : SetsOthers (setConnection curl net c) := by
  delta setConnection
  apply_rules [setInterface_setsOthers, setsOthers_setText, SetsOthers.bind, SetsOthers.when,
    SetsOthers.ignoring, setsOthers_setOption, rfl]

theorem setMultiPartOption_setsOthers : SetsOthers (setMultiPartOption curl c) := by
  delta setMultiPartOption
  apply_rules [SetsOthers.ite, SetsOthers.when, setsOthers_pure, setsOthers_giveUp,
    setsOthers_setOption, rfl]

theorem setDnsResolvOption_setsOthers : SetsOthers (setDnsResolvOption curl net r) := by
  have hresolved : ∀ host port addresses,
      SetsOthers (setResolved curl host port addresses) := by
    intro host port addresses
    delta setResolved
    apply_rules [SetsOthers.when, setsOthers_setOption, rfl]
  delta setDnsResolvOption
  cases net.parseHostAndPortFromUrl r.url with
  | none => exact setsOthers_pure
  | some found =>
    cases hcustom : net.getaddrinfoCustom found.1 with
    | none =>
      simp only [hcustom]
      apply hresolved
    | some addresses =>
      simp only [hcustom]
      apply SetsOthers.bind (setsOthers_setOption curl _ rfl)
      apply hresolved

theorem setRequestOption_setsOthers : SetsOthers (setRequestOption curl net c r) := by
  delta setRequestOption setDnsCacheOption setCertPinnerOption setDnsOption setIpResolve
    setTCPOption setRange setSSLCertOption
  apply_rules [setMultiPartOption_setsOthers, setDnsResolvOption_setsOthers,
    setsOthers_setRangeOrAgent, setsOthers_setClientCert, setsOthers_setAddressFamily,
    setsOthers_setText, SetsOthers.bind, SetsOthers.when, SetsOthers.ignoring,
    setsOthers_setOption, rfl]

theorem setProxyOption_setsOthers : SetsOthers (setProxyOption curl net c r) := by
  delta setProxyOption setSocks5ProxyOption setHttpProxyOption setProxyCredentials
  apply_rules [setsOthers_setHttpProxy, SetsOthers.ite, SetsOthers.when, SetsOthers.bind,
    setsOthers_setOption, rfl]

theorem setOtherOption_setsOthers : SetsOthers (setOtherOption curl net c r) := by
  delta setOtherOption setTlsOption
  apply_rules [setProxyOption_setsOthers, setsOthers_setTls, SetsOthers.bind,
    setsOthers_setOption, rfl]

theorem setTransfer_setsOthers : SetsOthers (setTransfer curl net c r) := by
  delta setTransfer
  apply_rules [setConnection_setsOthers, setRequestOption_setsOthers, setOtherOption_setsOthers,
    setsOthers_setAuthentication, SetsOthers.bind]

end Others

section Described

variable (curl : CurlLibrary) (net : HandleServices) (c : HandleConfig) (r : RequestFields)

/-- The values `SetOption` gives the options that describe a request. -/
def describedBy : CurlOption → Option CurlValue
  | .noBody => if r.method = httpMethodHead then some (.long 1) else none
  | .url => some (.text r.url)
  | .customRequest => if r.method ≠ [] then some (.text r.method) else none
  | .post => if SendsBody c r then some (.long 1) else none
  | .postFields => if SendsBody c r then some (.bytes r.body) else none
  | .postFieldSize => if SendsBody c r then some (.long r.body.length) else none
  | .httpHeader => some (.slist r.curlHeaderList)
  | _ => none

/-- The settings of `SetOption` that describe a request. -/
def description : List Setting :=
  (settingIf (r.method = httpMethodHead) .noBody (.long 1) ++
      (.url, .text r.url) :: settingIf (r.method ≠ []) .customRequest (.text r.method)) ++
    ((if SendsBody c r then postSettings r.body else []) ++
      [(.httpHeader, .slist r.curlHeaderList)])

theorem latest_description {o : CurlOption} (ho : describesRequest o = true) :
    latest o (description c r) = describedBy c r o := by
  rcases describesRequest_cases ho with rfl | rfl | rfl | rfl | rfl | rfl | rfl
  all_goals simp [description, describedBy, settingIf, postSettings]

variable {curl r} {h : Handle RequestFields} (hcurl : curl.TakesAll) (hr : h.owner = r)
include hcurl hr

theorem setIpFamily_makes (netId : Nat) : Makes (setIpFamily curl net netId) h r [] := by
  have hother (n : Int) : Makes (Curl.setOption curl .ipResolve (.long n)) h r [] :=
    makes_setOption hcurl _ _ hr
  unfold setIpFamily restrictIp
  split
  · exact hother 1
  · have hwhen := (hother 2).when (p := net.netSysIsIpv4Enable netId = false) hr
    rwa [ite_self] at hwhen

theorem setMethodAndUrl_makes : Makes (setMethodAndUrl curl net r) h r
    (settingIf (r.method = httpMethodHead) .noBody (.long 1) ++
      (.url, .text r.url) :: settingIf (r.method ≠ []) .customRequest (.text r.method)) := by
  refine ((makes_setOption hcurl _ _ hr).when hr).bind fun k hk => ?_
  refine (makes_setOption hcurl _ _ hk).bind fun k hk => ?_
  refine (setIpFamily_makes net hcurl hk 0).bind fun k hk => ?_
  exact (makes_setOption hcurl _ _ hk).when hk

theorem setCallbacks_makes : Makes (setCallbacks curl) h r [] := by
  refine (makes_setOption hcurl _ _ hr).bind fun k hk => ?_
  refine (makes_setOption hcurl _ _ hk).bind fun k hk => ?_
  refine (makes_setOption hcurl _ _ hk).bind fun k hk => ?_
  refine (makes_setOption hcurl _ _ hk).bind fun k hk => ?_
  refine (makes_setOption hcurl _ _ hk).bind fun k hk => ?_
  refine (makes_setOption hcurl _ _ hk).bind fun k hk => ?_
  exact makes_setOption hcurl _ _ hk

theorem describeRequest_makes : Makes (describeRequest curl net c r) h r (description c r) := by
  refine (setMethodAndUrl_makes net hcurl hr).bind fun k hk => ?_
  refine ((makes_setPost hcurl _ hk).when hk).bind fun k hk => ?_
  refine (setCallbacks_makes hcurl hk).bind fun k hk => ?_
  exact makes_setOption hcurl _ _ hk

omit hr in
/-- What `SetOption` does, on whatever handle it runs. -/
theorem setOption_leaves (h : Handle RequestFields) :
    Leaves (setOption curl net c) h h.owner (description c h.owner) := by
  have htransfer := setTransfer_setsOthers curl net c h.owner
  rw [← append_nil (description c h.owner)]
  exact (describeRequest_makes net c hcurl rfl).leaves_bind fun _ hk => htransfer.leaves hk

end Described

end Netstack.HttpExec
