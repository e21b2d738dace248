import Netstack.Socks5.Handshake

/-!
# The handshake does not survive the segmentation of the stream

The reply to the connection request has no fixed length. Less of it than the whole
is refused by the reader, and with bytes of the application behind it the reader
takes those for the port.

## Implementation notes

The outcome is compared with the one of the delivery in which each reply arrives in
a chunk of its own (`Proxy.whole`).
-/

namespace Netstack.Socks5

open Foundation List Proxy Socks5ProxyResponse

section LastReply

variable (inet : Inet) (p : Proxy)

/-- Less than the whole reply is refused. -/
theorem deserialize_short {n : Nat} (hshort : n < (p.reply .proxy).length) :
    deserialize inet ((p.reply .proxy).take n) = none := by
  have hlength : ((p.reply .proxy).take n).length = n := length_take_of_le hshort.le
  have htotal : (p.reply .proxy).length = 4 + p.field.length + 2 := by
    simp only [reply, length_append, length_cons, length_nil, length_be16]
  by_cases hsix : n < 6
  · have hlt : ((p.reply .proxy).take n).length < 4 + 2 := by omega
    simp only [deserialize, if_pos hlt]
  · obtain ⟨k, rfl⟩ : ∃ k, n = 4 + (k + 1) := ⟨n - 5, by omega⟩
    have hsplit : (p.reply .proxy).take (4 + (k + 1)) =
        [p.version, p.status, p.reserved, p.type.toByte] ++ p.field.take (k + 1) ++
          (be16 p.port).take (k + 1 - p.field.length) := by
      rw [reply, append_assoc, append_assoc, ← take_append]
      rw [show 4 + (k + 1) = k + 1 + 1 + 1 + 1 + 1 by omega]
      rfl
    have haddr := getAddrLen_frame p.framed [p.version, p.status, p.reserved, p.type.toByte]
      ((be16 p.port).take (k + 1 - p.field.length)) rfl (Nat.succ_pos k)
    rw [← hsplit] at haddr
    have htype : ((p.reply .proxy).take (4 + (k + 1))).getD 3 0 = p.type.toByte := by
      rw [hsplit]
      rfl
    have hlong : ¬ ((p.reply .proxy).take (4 + (k + 1))).length < 4 + 2 := by omega
    have hmissing : p.field.length = 0 ∨
        ((p.reply .proxy).take (4 + (k + 1))).length < 4 + p.field.length + 2 := by omega
    simp only [deserialize, if_neg hlong, htype, p.framed.ofByte_toByte, haddr,
      if_pos hmissing, ite_self]

/-- The whole reply is read whatever follows it, but the port is then taken from the
end of what follows. -/
theorem deserialize_reply (tail : Bytes) :
    deserialize inet (p.reply .proxy ++ tail) =
      if p.version = socks5Version then
        some ⟨p.version, p.status, p.reserved, p.type, p.type.text inet p.field,
          trailing16 (be16 p.port ++ tail)⟩
      else none := by
  have hsplit : p.reply .proxy ++ tail =
      [p.version, p.status, p.reserved, p.type.toByte] ++ p.field ++ (be16 p.port ++ tail) := by
    simp only [reply, append_assoc]
  have haddr := getAddrLen_frame p.framed [p.version, p.status, p.reserved, p.type.toByte]
    (be16 p.port ++ tail) rfl p.framed.length_pos
  have htext : getAddrStr inet
      ([p.version, p.status, p.reserved, p.type.toByte] ++ p.field ++ (be16 p.port ++ tail)) 4 5 []
        p.type = p.type.text inet p.field :=
    getAddrStr_frame p.framed _ _ [] rfl
  have htail : 2 ≤ (be16 p.port ++ tail).length := by simp
  have hport := trailing16_append
    ([p.version, p.status, p.reserved, p.type.toByte] ++ p.field) htail
  have htotal : (p.reply .proxy ++ tail).length = 4 + p.field.length + (2 + tail.length) := by
    simp only [hsplit, length_append, length_cons, length_nil, length_be16]
  rw [take_length] at haddr
  rw [← hsplit] at haddr htext hport
  have hpos := p.framed.length_pos
  have hlong : ¬ (p.reply .proxy ++ tail).length < 4 + 2 := by omega
  have hcomplete : ¬ (p.field.length = 0 ∨
      (p.reply .proxy ++ tail).length < 4 + p.field.length + 2) := by omega
  have hversion : (p.reply .proxy ++ tail).getD 0 0 = p.version := rfl
  have hstatus : (p.reply .proxy ++ tail).getD 1 0 = p.status := rfl
  have hreserved : (p.reply .proxy ++ tail).getD 2 0 = p.reserved := rfl
  have htype : (p.reply .proxy ++ tail).getD 3 0 = p.type.toByte := rfl
  simp only [deserialize, if_neg hlong, hversion, hstatus, hreserved, htype,
    p.framed.ofByte_toByte, haddr, if_neg hcomplete, htext, hport, ne_eq, ite_not]

end LastReply

section Segmentation

variable (lib : Resolver) (p : Proxy) (send : RequestKind → Bool) (d : RequestKind → Delivery)
  (command : Socks5Command) (i : Socks5Instance)

/-- The proxy grants the connection. -/
def Proxy.Grants : Prop := p.version = socks5Version ∧ p.status = 0

/-- The first chunk after the last request is a proper part of the reply, or the
reply with some bytes of the application behind it. -/
theorem Proxy.chunk_proxy_cases :
    (∃ n < (p.reply .proxy).length, p.chunk d .proxy = (p.reply .proxy).take n) ∨
      ∃ tail, tail <+: p.application ∧ p.chunk d .proxy = p.reply .proxy ++ tail := by
  by_cases hshort : (d .proxy).more + 1 < (p.reply .proxy).length
  · left
    refine ⟨(d .proxy).more + 1, hshort, ?_⟩
    exact take_append_of_le_length hshort.le
  · right
    refine ⟨p.application.take ((d .proxy).more + 1 - (p.reply .proxy).length),
      take_prefix _ _, ?_⟩
    rw [chunk, answer, take_append,
      take_of_length_le (Nat.le_of_not_lt hshort)]

/-- The handshake succeeds and binds as it does if each reply arrives in a chunk of its
own, and takes nothing that follows the replies. -/
def Proxy.Independent : Prop :=
  ∃ y reference, doConnect lib (p.channel send d) command i = some y ∧
    doConnect lib (p.channel send p.whole) command i = some reference ∧
    y.result = reference.result ∧ y.inst.proxyBindAddr = reference.inst.proxyBindAddr ∧
    y.read <+: p.handshake

theorem Proxy.earlyWhole_whole : p.EarlyWhole p.whole :=
  ⟨p.chunk_whole .method, fun _ => p.chunk_whole .auth⟩

theorem concluded_of_grants {tail : Bytes} (hgrants : p.Grants)
    (hchunk : p.chunk d .proxy = p.reply .proxy ++ tail) :
    (p.concluded lib d i).result = some () ∧
      (p.concluded lib d i).read = p.early ++ (p.reply .proxy ++ tail) ∧
      (p.concluded lib d i).inst.proxyBindAddr = bindAddress lib i.proxyBindAddr
        ⟨p.version, p.status, p.reserved, p.type, p.type.text lib.toInet p.field,
          trailing16 (be16 p.port ++ tail)⟩ := by
  have hread := deserialize_reply lib.toInet p tail
  rw [if_pos hgrants.1] at hread
  simp only [concluded, hchunk, hread, hgrants.2, ne_eq, not_true_eq_false, if_false,
    and_self]

theorem concluded_of_short {n : Nat} (hshort : n < (p.reply .proxy).length)
    (hchunk : p.chunk d .proxy = (p.reply .proxy).take n) : p.Stops i (p.concluded lib d i) := by
  have hread := deserialize_short lib.toInet p hshort
  have hprefix : p.early ++ (p.reply .proxy).take n <+: p.handshake := by
    rw [handshake, prefix_append_right_inj]
    exact take_prefix _ _
  have hconcluded : p.concluded lib d i = ⟨(p.opened i).updateErrorInfo .deserializeError,
      (p.answer .proxy).drop ((d .proxy).more + 1), p.early ++ (p.reply .proxy).take n, none⟩ := by
    simp only [concluded, hchunk, hread]
  rw [hconcluded]
  exact ⟨rfl, rfl, hprefix⟩

theorem concluded_of_refused {tail : Bytes} (hrefused : ¬ p.Grants)
    (hchunk : p.chunk d .proxy = p.reply .proxy ++ tail) :
    (p.concluded lib d i).result = none ∧
      (p.concluded lib d i).read = p.early ++ (p.reply .proxy ++ tail) ∧
      (p.concluded lib d i).inst.proxyBindAddr = i.proxyBindAddr := by
  have hread := deserialize_reply lib.toInet p tail
  by_cases hversion : p.version = socks5Version
  · have hstatus : p.status ≠ 0 := fun hzero => hrefused ⟨hversion, hzero⟩
    have hconcluded : p.concluded lib d i = ⟨(p.opened i).updateErrorInfo .failToConnectRemote,
        (p.answer .proxy).drop ((d .proxy).more + 1), p.early ++ (p.reply .proxy ++ tail),
        none⟩ := by
      simp only [concluded, hchunk, hread, if_pos hversion, if_pos hstatus]
    rw [hconcluded]
    exact ⟨rfl, rfl, rfl⟩
  · have hconcluded : p.concluded lib d i = ⟨(p.opened i).updateErrorInfo .deserializeError,
        (p.answer .proxy).drop ((d .proxy).more + 1), p.early ++ (p.reply .proxy ++ tail),
        none⟩ := by
      simp only [concluded, hchunk, hread, if_neg hversion]
    rw [hconcluded]
    exact ⟨rfl, rfl, rfl⟩

/-- What was read is within the replies exactly if the last chunk is within its reply. -/
theorem isPrefix_handshake_iff (tail : Bytes) :
    p.early ++ (p.reply .proxy ++ tail) <+: p.handshake ↔ tail = [] := by
  rw [handshake, prefix_append_right_inj]
  constructor
  · intro h
    have hlen := h.length_le
    rw [length_append] at hlen
    exact eq_nil_of_length_eq_zero (by omega)
  · rintro rfl
    rw [append_nil]

/-- Without a connection to grant a run ends without success, and its last chunk decides
whether it read more than the replies. -/
theorem doConnect_refused (h : ¬ (p.Admits lib send command i ∧ p.Grants))
    (hlast : p.Admits lib send command i → p.EarlyWhole d →
      p.chunk d .proxy <+: p.reply .proxy) :
    ∃ y, doConnect lib (p.channel send d) command i = some y ∧ p.Stops i y := by
  by_cases hboth : p.Admits lib send command i ∧ p.EarlyWhole d
  · obtain ⟨hadmits, hearly⟩ := hboth
    have hrefused : ¬ p.Grants := fun hgrants => h ⟨hadmits, hgrants⟩
    refine ⟨_, doConnect_concluded lib p send d command i hadmits hearly, ?_⟩
    obtain ⟨n, hshort, hchunk⟩ | ⟨tail, -, hchunk⟩ := p.chunk_proxy_cases d
    · exact concluded_of_short lib p d i hshort hchunk
    · obtain ⟨hresult, hread, hbound⟩ := concluded_of_refused lib p d i hrefused hchunk
      refine ⟨hresult, hbound, ?_⟩
      grind [handshake, prefix_append_right_inj]
  · exact doConnect_stops lib p send d command i hboth

/-- A run that succeeds and reads nothing but the replies got each reply as a chunk of its
own. -/
theorem whole_of_granted (hadmits : p.Admits lib send command i) (hgrants : p.Grants)
    {y : Exchange Unit} (hy : doConnect lib (p.channel send d) command i = some y)
    (hresult : y.result = some ()) (hread : y.read <+: p.handshake) :
    p.EarlyWhole d ∧ p.chunk d .proxy = p.reply .proxy := by
  have hearly : p.EarlyWhole d := by
    by_contra hcut
    obtain ⟨y', hy', hstops⟩ := doConnect_stops lib p send d command i fun hboth => hcut hboth.2
    rw [hy] at hy'
    rw [Option.some.inj hy', hstops.1] at hresult
    cases hresult
  refine ⟨hearly, ?_⟩
  rw [doConnect_concluded lib p send d command i hadmits hearly] at hy
  rw [← Option.some.inj hy] at hresult hread
  obtain ⟨n, hshort, hchunk⟩ | ⟨tail, -, hchunk⟩ := p.chunk_proxy_cases d
  · rw [(concluded_of_short lib p d i hshort hchunk).1] at hresult
    cases hresult
  · rw [(concluded_of_grants lib p d i hgrants hchunk).2.1, isPrefix_handshake_iff] at hread
    rw [hchunk, hread, append_nil]

/-- The handshake does not depend on the way its replies are delivered exactly if,
whenever it comes to the connection request, a connection that is granted is
granted in replies that are chunks of their own, and the last chunk of one that is
refused has no byte of the application. -/
theorem doConnect_independent_iff :
    p.Independent lib send d command i ↔
      (p.Admits lib send command i →
        (p.Grants → p.EarlyWhole d ∧ p.chunk d .proxy = p.reply .proxy) ∧
        (¬ p.Grants → p.EarlyWhole d → p.chunk d .proxy <+: p.reply .proxy)) := by
  have hwhole : p.chunk p.whole .proxy = p.reply .proxy ++ [] := by
    rw [p.chunk_whole, append_nil]
  constructor
  · rintro ⟨y, reference, hy, hreference, hresult, hbound, hread⟩ hadmits
    constructor
    · intro hgrants
      rw [doConnect_concluded lib p send p.whole command i hadmits p.earlyWhole_whole] at hreference
      grind [concluded_of_grants, whole_of_granted]
    · intro hrefused hearly
      rw [doConnect_concluded lib p send d command i hadmits hearly] at hy
      rw [← Option.some.inj hy] at hread
      obtain ⟨n, -, hchunk⟩ | ⟨tail, -, hchunk⟩ := p.chunk_proxy_cases d
      · rw [hchunk]
        exact take_prefix _ _
      · rw [(concluded_of_refused lib p d i hrefused hchunk).2.1, isPrefix_handshake_iff] at hread
        rw [hchunk, hread, append_nil]
  · intro hcondition
    by_cases hgranted : p.Admits lib send command i ∧ p.Grants
    · obtain ⟨hadmits, hgrants⟩ := hgranted
      obtain ⟨hearly, hchunk⟩ := (hcondition hadmits).1 hgrants
      have hchunk' : p.chunk d .proxy = p.reply .proxy ++ [] := by rw [hchunk, append_nil]
      obtain ⟨hresult, hread, hbound⟩ := concluded_of_grants lib p d i hgrants hchunk'
      obtain ⟨hresult', -, hbound'⟩ := concluded_of_grants lib p p.whole i hgrants hwhole
      refine ⟨_, _, doConnect_concluded lib p send d command i hadmits hearly,
        doConnect_concluded lib p send p.whole command i hadmits p.earlyWhole_whole,
        hresult.trans hresult'.symm, hbound.trans hbound'.symm, ?_⟩
      rw [hread, isPrefix_handshake_iff]
    · obtain ⟨reference, hreference, hstops'⟩ :=
        doConnect_refused lib p send p.whole command i hgranted
          fun _ _ => (p.chunk_whole .proxy).symm ▸ prefix_refl _
      obtain ⟨y, hy, hstops⟩ := doConnect_refused lib p send d command i hgranted
        fun hadmits hearly =>
          (hcondition hadmits).2 (fun hgrants => hgranted ⟨hadmits, hgrants⟩) hearly
      exact ⟨y, reference, hy, hreference, hstops.1.trans hstops'.1.symm,
        hstops.2.1.trans hstops'.2.1.symm, hstops.2.2⟩

end Segmentation

/-- A proxy without authentication that binds 10.0.0.1, port 1080, and sends a
greeting behind its last reply. -/
def greetingProxy : Proxy where
  methodVersion := 5
  method := 0
  version := 5
  status := 0
  type := .ipv4
  field := [10, 0, 0, 1]
  framed := rfl
  port := 1080
  application := ascii "hello"

/-- The client of an IPv4 destination. -/
def plainClient : Socks5Instance where
  socketId := 3
  dest := { address := ascii "192.168.1.10", family := .ipv4, port := 80 }

/-- Only the first four bytes of the last reply have arrived when it is read: the
handshake fails, while it succeeds if the reply arrives at once. -/
theorem handshake_fails_on_cut_reply :
    ¬ greetingProxy.Independent .numeric (fun _ => true) (fun _ => { more := 3 })
      .tcpConnection plainClient := by
  rintro ⟨y, reference, hy, hreference, hresult, -, -⟩
  have hcut : (doConnect Resolver.numeric (greetingProxy.channel (fun _ => true)
      fun _ => { more := 3 }) .tcpConnection plainClient).map Exchange.result = some none := by
    decide +kernel
  have hsuccess : (doConnect Resolver.numeric (greetingProxy.channel (fun _ => true)
      greetingProxy.whole) .tcpConnection plainClient).map Exchange.result = some (some ()) := by
    decide +kernel
  grind

end Netstack.Socks5
