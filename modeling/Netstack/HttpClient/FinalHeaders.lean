import Netstack.HttpCache.HeaderBlocks
import Netstack.HttpClient.BodyLimit
import Netstack.HttpExec.Receiving

/-!
# The headers of the final response

Both interfaces keep the text of every head that a transfer brings and parse all of it
whenever they parse. The JS interface parses at the end of each head. The native one
parses at the end of the transfer, and with a listener for headers also at the end of
each head. The fields and cookies of the heads before the last one stay, and what is
parsed again brings its cookies again.
-/

namespace Netstack.HttpClient

open Foundation Foundation.Execution HttpCache HttpExec List HttpCache.HttpResponse HeaderBlock
open Std.ExtTreeMap
open Option

/-- The response has the fields of the block and its cookies in order. -/
def DescribesBlock (b : HeaderBlock) (r : HttpCache.HttpResponse) : Prop :=
  r.headers = fieldsOf b.lines ∧ r.setCookie = cookiesOf b.lines

/-- The blocks before the last one have no field that this does not have, and no cookie. -/
def Covered (earlier : List HeaderBlock) (last : HeaderBlock) : Prop :=
  (∀ name : Bytes, name ∈ fieldsOf (linesOf earlier) → name ∈ fieldsOf last.lines) ∧
    cookiesOf (linesOf earlier) = []

variable {seen : List HeaderBlock} {r : HttpCache.HttpResponse}

section Parsing

variable {blocks earlier : List HeaderBlock} {last : HeaderBlock}

theorem textOf_concat (b : HeaderBlock) : textOf (blocks ++ [b]) = textOf blocks ++ b.text := by
  rw [textOf, flatMap_append, flatMap_singleton]
  rfl

theorem linesOf_concat (b : HeaderBlock) : linesOf (blocks ++ [b]) = linesOf blocks ++ b.lines := by
  rw [linesOf, flatMap_append, flatMap_singleton]
  rfl

/-- What a response that has the text of some blocks has read of it so far: no field that
they do not have, and no cookie exactly if the blocks in `seen` have none. -/
structure HasRead (seen blocks : List HeaderBlock) (r : HttpCache.HttpResponse) : Prop where
  seen_first : seen <+: blocks
  raw : r.rawHeader = textOf blocks
  fields : ∀ name : Bytes, name ∈ r.headers → name ∈ fieldsOf (linesOf blocks)
  cookies : r.setCookie = [] ↔ cookiesOf (linesOf seen) = []

/-- Parsing leaves the fields of all blocks, and adds the cookies of all of them. -/
theorem HasRead.parse (h : HasRead seen blocks r) :
    r.parseHeaders.headers = fieldsOf (linesOf blocks) ∧
      r.parseHeaders.setCookie = r.setCookie ++ cookiesOf (linesOf blocks) := by
  rw [parseHeaders_of_textOf h.raw]
  grind [parseLines_effect, @h.fields]

/-- After that, the response describes the last block exactly if the blocks before add
nothing and nothing was read before. -/
theorem HasRead.describes_iff (h : HasRead seen (earlier ++ [last]) r) :
    DescribesBlock last r.parseHeaders ↔
      Covered earlier last ∧ cookiesOf (linesOf seen) = [] := by
  obtain ⟨hfields, hcookies⟩ := h.parse
  rw [DescribesBlock, hfields, hcookies, linesOf_concat, cookiesOf_append,
    fieldsOf_append_eq_iff, Covered, ← h.cookies, and_assoc]
  apply and_congr_right
  intro _
  rw [← append_assoc, append_left_eq_self, append_eq_nil_iff]
  exact and_comm

theorem HasRead.start : HasRead [] [] {} where
  seen_first := nil_prefix
  raw := rfl
  fields := fun _ hmem => hmem
  cookies := Iff.rfl

/-- One more block is received. -/
theorem HasRead.grow (h : HasRead seen blocks r) (b : HeaderBlock) :
    HasRead seen (blocks ++ [b]) { r with rawHeader := r.rawHeader ++ b.text } where
  seen_first := h.seen_first.trans (prefix_append _ _)
  raw := by rw [h.raw, textOf_concat]
  fields := by
    intro name hmem
    have hblocks := mem_iff_isSome_getElem?.mp (h.fields name hmem)
    rw [linesOf_concat, mem_iff_isSome_getElem?, fieldsOf_append,
      isSome_or, hblocks, Bool.or_true]
  cookies := h.cookies

theorem cookiesOf_nil_of_first (hseen : seen <+: blocks)
    (hnil : cookiesOf (linesOf blocks) = []) : cookiesOf (linesOf seen) = [] := by
  obtain ⟨rest, rfl⟩ := hseen
  rw [linesOf, flatMap_append, cookiesOf_append, append_eq_nil_iff] at hnil
  exact hnil.1

/-- Whatever was read before, after parsing everything has been. -/
theorem HasRead.parsed (h : HasRead seen blocks r) : HasRead blocks blocks r.parseHeaders where
  seen_first := prefix_refl _
  raw := by
    obtain ⟨headers, setCookie, hframe⟩ := foldl_parseHeaderLine_frame
      (CommonUtils.split r.rawHeader HttpConstant.httpLineSeparator) r
    rw [HttpCache.HttpResponse.parseHeaders, hframe, ← h.raw]
  fields := fun name hmem => h.parse.1 ▸ hmem
  cookies := by
    rw [h.parse.2, append_eq_nil_iff, h.cookies]
    exact and_iff_right_of_imp (cookiesOf_nil_of_first h.seen_first)

end Parsing

section JsInterface

/-- The end of a block in the JS interface. -/
def jsBlock (r : HttpCache.HttpResponse) (b : HeaderBlock) : HttpCache.HttpResponse :=
  ({ r with rawHeader := r.rawHeader ++ b.text } : HttpCache.HttpResponse).parseHeaders

variable (blocks : List HeaderBlock)

theorem hasRead_jsBlocks :
    HasRead blocks blocks (blocks.foldl jsBlock {}) := by
  induction blocks using List.reverseRecOn with
  | nil => exact HasRead.start
  | append_singleton blocks b ih =>
    rw [foldl_concat]
    exact (ih.grow b).parsed

/-- The lines of a transfer in the JS interface. -/
theorem deliver_jsHeaders (r : HttpCache.HttpResponse) :
    deliver List.length (onWritingMemoryHeader false)
      (blocks.flatMap chunks) r = (true, blocks.foldl jsBlock r) := by
  have htakes : ∀ chunk ∈ blocks.flatMap chunks, ∀ s,
      (onWritingMemoryHeader false s chunk).1 = chunk.length := by
    intro chunk _ s
    simp only [onWritingMemoryHeader, Bool.false_eq_true, if_false]
    split <;> rfl
  have hchunk : (fun s chunk => (onWritingMemoryHeader false s chunk).2) =
      onChunk rawHeader
        (fun r data => { r with rawHeader := r.rawHeader ++ data })
        HttpCache.HttpResponse.parseHeaders := by
    funext s chunk
    simp only [onWritingMemoryHeader, onChunk, Bool.false_eq_true, if_false]
    by_cases hend : headEnd <:+ s.rawHeader ++ chunk
    · rw [if_pos hend, if_pos (by exact hend)]
    · rw [if_neg hend, if_neg (by exact hend)]
  rw [deliver_of_takes _ _ htakes, hchunk, foldl_onChunk_blocks]
  · rfl
  · intro s data
    rfl
  · intro s front back
    simp only [append_assoc]

/-- The body of a response and the readings at the end leave its headers. -/
theorem headers_of_receive {maxLimit : Nat} {answer : ServerAnswer}
    {blocks : List HeaderBlock} {server : HttpCache.HttpResponse}
    (hlines : answer.headerLines = blocks.flatMap chunks)
    (h : receive maxLimit answer r = some server) :
    server.headers = (blocks.foldl jsBlock r).headers ∧
      server.setCookie = (blocks.foldl jsBlock r).setCookie := by
  have hbody : ∀ s : HttpCache.HttpResponse,
      (deliver List.length (onWritingMemoryBody false maxLimit) answer.chunks s).2.headers
          = s.headers ∧
        (deliver List.length (onWritingMemoryBody false maxLimit) answer.chunks
          s).2.setCookie = s.setCookie := by
    intro s
    apply deliver_invariant (P := fun r : HttpCache.HttpResponse =>
      r.headers = s.headers ∧ r.setCookie = s.setCookie)
    · intro r chunk hr
      simp only [onWritingMemoryBody, Bool.false_eq_true, if_false]
      split <;> exact hr
    · exact ⟨rfl, rfl⟩
  simp only [receive, hlines, deliver_jsHeaders] at h
  split at h
  · cases h
  · split at h
    · cases h
    · cases h
      exact hbody _

end JsInterface

variable {t t₀ : HttpClientTask} (m : TransferResult)

namespace HttpClientTask

/-- The end of a block in the native interface. -/
def atBlockEnd (t : HttpClientTask) : HttpClientTask :=
  if t.hasOnHeadersReceive then
    let t := t.onResponse HttpCache.HttpResponse.parseHeaders
    if t.isHeadersOnce then t.offHeadersReceive else t
  else t

def nativeBlock (t : HttpClientTask) (b : HeaderBlock) : HttpClientTask :=
  (t.onResponse fun r => { r with rawHeader := r.rawHeader ++ b.text }).atBlockEnd

variable (blocks : List HeaderBlock)

def headerCalls : List ReceiveCall :=
  (blocks.flatMap chunks).map fun data => { data := data }

variable (t)

theorem headerReceiveCallback_answer (call : ReceiveCall) :
    (headerReceiveCallback t call).1 =
      if call.canceled ∨ call.size > maxDataLimit then 0 else call.size := by
  rw [headerReceiveCallback]
  grind

theorem headerReceiveCallback_chunk {data : Bytes} (hsize : ¬ data.length > maxDataLimit) :
    (headerReceiveCallback t { data := data }).2 =
      onChunk (fun t : HttpClientTask => t.response.rawHeader)
        (fun t data => t.onResponse fun r => { r with rawHeader := r.rawHeader ++ data })
        atBlockEnd t data := by
  simp only [headerReceiveCallback, onChunk, atBlockEnd, Bool.false_eq_true, if_false,
    ReceiveCall.size, hsize, httpResponseHeaderSeparator, headEnd, apply_ite Prod.snd,
    ite_and]
  grind

/-- The blocks that the listener had parsed before the end of the transfer. -/
def parsedBlocks (t : HttpClientTask) (blocks : List HeaderBlock) : List HeaderBlock :=
  if t.hasOnHeadersReceive then if t.isHeadersOnce then blocks.take 1 else blocks else []

/-- The listener is still there when these blocks have been received. -/
def stillListens (t : HttpClientTask) (blocks : List HeaderBlock) : Bool :=
  t.hasOnHeadersReceive && (!t.isHeadersOnce || blocks.isEmpty)

theorem parsedBlocks_concat (b : HeaderBlock) :
    t.parsedBlocks (blocks ++ [b]) =
      if t.stillListens blocks then blocks ++ [b] else t.parsedBlocks blocks := by
  rw [parsedBlocks, parsedBlocks, stillListens]
  cases t.hasOnHeadersReceive with
  | false => rfl
  | true =>
    cases t.isHeadersOnce with
    | false => rfl
    | true =>
      cases blocks with
      | nil => rfl
      | cons first blocks => rfl

theorem stillListens_concat (b : HeaderBlock) :
    t.stillListens (blocks ++ [b]) = (t.stillListens blocks && !t.isHeadersOnce) := by
  rw [stillListens, stillListens]
  cases t.hasOnHeadersReceive with
  | false => rfl
  | true =>
    cases t.isHeadersOnce with
    | false => rfl
    | true => simp

variable {t}

/-- How far a task is that started as `t₀` and has received some blocks. -/
structure HasReceived (t₀ : HttpClientTask) (blocks : List HeaderBlock) (t : HttpClientTask) :
    Prop where
  hasRead : HasRead (t₀.parsedBlocks blocks) blocks t.response
  listens : t.hasOnHeadersReceive = t₀.stillListens blocks
  once : t.hasOnHeadersReceive = true → t.isHeadersOnce = t₀.isHeadersOnce
  expectDataType : t.expectDataType = t₀.expectDataType

variable {blocks}

/-- One more block, with or without a listener that is still there. -/
theorem HasReceived.block (h : HasReceived t₀ blocks t) (b : HeaderBlock) :
    HasReceived t₀ (blocks ++ [b]) (t.nativeBlock b) := by
  have hgrown := h.hasRead.grow b
  have hparsed := parsedBlocks_concat t₀ blocks b
  have hlistens := stillListens_concat t₀ blocks b
  rw [← h.listens] at hparsed hlistens
  cases hthere : t.hasOnHeadersReceive with
  | false =>
    rw [hthere] at hparsed hlistens
    have hblock : t.nativeBlock b =
        t.onResponse fun r => { r with rawHeader := r.rawHeader ++ b.text } := by
      simp [nativeBlock, atBlockEnd, onResponse, hthere]
    rw [hblock]
    refine ⟨?_, ?_, h.once, h.expectDataType⟩
    · rw [hparsed]
      exact hgrown
    · rw [hlistens]
      exact hthere
  | true =>
    rw [hthere] at hparsed hlistens
    have honce := h.once hthere
    cases hflag : t₀.isHeadersOnce with
    | false =>
      have hblock : t.nativeBlock b = (t.onResponse fun r =>
          ({ r with rawHeader := r.rawHeader ++ b.text } :
            HttpCache.HttpResponse).parseHeaders) := by
        simp [nativeBlock, atBlockEnd, onResponse, hthere, honce, hflag]
      rw [hblock]
      refine ⟨?_, ?_, h.once, h.expectDataType⟩
      · rw [hparsed]
        exact hgrown.parsed
      · rw [hlistens, hflag]
        exact hthere
    | true =>
      have hblock : t.nativeBlock b = (t.onResponse fun r =>
          ({ r with rawHeader := r.rawHeader ++ b.text } :
            HttpCache.HttpResponse).parseHeaders).offHeadersReceive := by
        simp [nativeBlock, atBlockEnd, onResponse, hthere, honce, hflag]
      rw [hblock]
      refine ⟨?_, ?_, fun hoff => Bool.noConfusion hoff, h.expectDataType⟩
      · rw [hparsed]
        exact hgrown.parsed
      · rw [hlistens, hflag]
        rfl

theorem hasReceived_nativeBlocks (hstart : t₀.response = {})
    (blocks : List HeaderBlock) : HasReceived t₀ blocks (blocks.foldl nativeBlock t₀) := by
  induction blocks using List.reverseRecOn with
  | nil =>
    have hseen : t₀.parsedBlocks [] = [] := by
      simp [parsedBlocks]
    refine ⟨?_, ?_, fun _ => rfl, rfl⟩
    · rw [hseen, foldl_nil, hstart]
      exact HasRead.start
    · simp [stillListens]
  | append_singleton blocks b ih =>
    rw [foldl_concat]
    exact ih.block b

def receiveHeaders (blocks : List HeaderBlock) (t : HttpClientTask) : Bool × HttpClientTask :=
  deliver ReceiveCall.size headerReceiveCallback (headerCalls blocks) t

/-- The head or heads and the body of a transfer; nothing if curl gives it up. -/
def transfer (blocks : List HeaderBlock) (calls : List ReceiveCall) (t : HttpClientTask) :
    Option HttpClientTask :=
  let (allHeaders, t) := t.receiveHeaders blocks
  if allHeaders = false then none
  else
    let (allChunks, t) := receiveBody calls t
    if allChunks = false then none else some t

theorem receiveHeaders_of_complete (h : (t.receiveHeaders blocks).1 = true) :
    (t.receiveHeaders blocks).2 = blocks.foldl nativeBlock t := by
  have htaken := takes_of_deliver _ _ headerReceiveCallback_answer h
  have hsizes : ∀ data ∈ blocks.flatMap chunks, ¬ data.length > maxDataLimit := by
    intro data hmem hlarge
    have hanswer : (if false = true ∨ data.length > maxDataLimit then 0 else data.length) =
        data.length := htaken { data := data } (mem_map_of_mem hmem)
    grind
  have htakes : ∀ call ∈ headerCalls blocks, ∀ s : HttpClientTask,
      (headerReceiveCallback s call).1 = call.size := fun call hmem s =>
    (headerReceiveCallback_answer s call).trans (htaken call hmem)
  rw [receiveHeaders, deliver_of_takes _ _ htakes, headerCalls, foldl_map]
  refine (foldl_ext _ _ t fun s data hmem =>
    headerReceiveCallback_chunk s (hsizes data hmem)).trans ?_
  apply foldl_onChunk_blocks
  · intro s data
    rfl
  · intro s front back
    simp only [onResponse, append_assoc]

/-- A piece of the body changes nothing that was received before. -/
theorem HasReceived.data (h : HasReceived t₀ blocks t) (call : ReceiveCall) :
    HasReceived t₀ blocks (dataReceiveCallback t call).2 := by
  rw [dataReceiveCallback]
  split_ifs
  · exact h
  · exact h
  · obtain ⟨⟨hfirst, hraw, hfields, hcookies⟩, hlistens, honce, htype⟩ := h
    exact ⟨⟨hfirst, hraw, hfields, hcookies⟩, hlistens, honce, htype⟩
  · exact h

theorem hasReceived_of_transfer {t' : HttpClientTask}
    {calls : List ReceiveCall} (hstart : t.response = {})
    (h : t.transfer blocks calls = some t') : HasReceived t blocks t' := by
  simp only [transfer] at h
  split at h
  · cases h
  · split at h
    · cases h
    · cases h
      apply deliver_invariant
      · intro s call hs
        exact hs.data call
      grind [receiveHeaders_of_complete, hasReceived_nativeBlocks]

/-- The cookies that curl knows are no part of the headers. -/
theorem processCookie_hasRead (h : HasRead seen blocks t.response) :
    HasRead seen blocks (t.processCookie m).response ∧
      (t.processCookie m).response.setCookie = t.response.setCookie ∧
      (t.processCookie m).expectDataType = t.expectDataType := by
  obtain ⟨hfirst, hraw, hfields, hcookies⟩ := h
  rw [processCookie]
  cases m.cookieList with
  | none => exact ⟨⟨hfirst, hraw, hfields, hcookies⟩, rfl, rfl⟩
  | some cookies => exact ⟨⟨hfirst, hraw, hfields, hcookies⟩, rfl, rfl⟩

theorem processResponseCode_headers (t : HttpClientTask) :
    (t.processResponseCode m).2.response.headers = t.response.headers ∧
      (t.processResponseCode m).2.response.setCookie = t.response.setCookie := by
  rw [processResponseCode]
  cases m.responseCode with
  | none => exact ⟨rfl, rfl⟩
  | some code => exact ⟨rfl, rfl⟩

theorem processResponseExpectType_headers (t : HttpClientTask) :
    t.processResponseExpectType.response.headers =
      (if t.expectDataType ≠ .noDataType then t.response.headers
        else t.response.headers.insertIfNew httpContentType []) ∧
      t.processResponseExpectType.response.setCookie = t.response.setCookie := by
  rw [processResponseExpectType]
  split
  · exact ⟨rfl, rfl⟩
  · exact ⟨rfl, rfl⟩

/-- What a completed task has as headers. -/
theorem HasReceived.completed (h : HasReceived t₀ blocks t) (m : TransferResult) :
    (t.processResponseCoreLogic m).2.response.headers =
      (if t₀.expectDataType ≠ .noDataType then fieldsOf (linesOf blocks)
        else (fieldsOf (linesOf blocks)).insertIfNew httpContentType []) ∧
    (t.processResponseCoreLogic m).2.response.setCookie =
      t.response.setCookie ++ cookiesOf (linesOf blocks) := by
  obtain ⟨hread, hcookie, htype⟩ := processCookie_hasRead m h.hasRead
  obtain ⟨hfields, hcookies⟩ := hread.parse
  obtain ⟨hcodeHeaders, hcodeCookie⟩ := processResponseCode_headers m
    ((t.processCookie m).onResponse HttpCache.HttpResponse.parseHeaders).processResponseExpectType
  obtain ⟨htypeHeaders, htypeCookie⟩ := processResponseExpectType_headers
    ((t.processCookie m).onResponse HttpCache.HttpResponse.parseHeaders)
  grind [processResponseCoreLogic, onResponse, @h.expectDataType]

/-- A completed task describes the last block exactly if the blocks before add nothing,
no listener had cookies parsed, and asking for the content type adds nothing. -/
theorem HasReceived.describes_iff {earlier : List HeaderBlock}
    {last : HeaderBlock} (h : HasReceived t₀ (earlier ++ [last]) t) (m : TransferResult) :
    DescribesBlock last (t.processResponseCoreLogic m).2.response ↔
      Covered earlier last ∧ cookiesOf (linesOf (t₀.parsedBlocks (earlier ++ [last]))) = [] ∧
        (t₀.expectDataType ≠ .noDataType ∨ httpContentType ∈ fieldsOf last.lines) := by
  obtain ⟨hheaders, hcookies⟩ := h.completed m
  obtain ⟨hfields, hparsed⟩ := h.hasRead.parse
  have hparse := h.hasRead.describes_iff
  rw [DescribesBlock, hfields, hparsed] at hparse
  rw [DescribesBlock, hheaders, hcookies, ← and_assoc, ← hparse]
  by_cases htype : t₀.expectDataType ≠ .noDataType
  · rw [if_pos htype, and_iff_left (Or.inl htype)]
  · have hsub : httpContentType ∈ fieldsOf last.lines →
        httpContentType ∈ fieldsOf (linesOf (earlier ++ [last])) := by
      intro hmem
      rw [linesOf_concat, mem_iff_isSome_getElem?, fieldsOf_append,
        isSome_or, mem_iff_isSome_getElem?.mp hmem, Bool.true_or]
    grind

end HttpClientTask

/-- After a transfer that brings some heads before the last one, the native response
describes the last head exactly if the heads before it have no cookies and no fields of
their own, no listener had cookies parsed before, and the content type is given or not
asked for. The JS response describes it exactly if the first of these holds. -/
theorem final_headers_iff (t t' : HttpClientTask) (earlier : List HeaderBlock)
    (last : HeaderBlock) (calls : List ReceiveCall) (m : TransferResult) (maxLimit : Nat)
    (answer : ServerAnswer) (server : HttpCache.HttpResponse)
    (hstart : t.response = {}) (htransfer : t.transfer (earlier ++ [last]) calls = some t')
    (hlines : answer.headerLines = (earlier ++ [last]).flatMap chunks)
    (hserver : receive maxLimit answer {} = some server) :
    (DescribesBlock last (t'.processResponseCoreLogic m).2.response ↔
      Covered earlier last ∧ cookiesOf (linesOf (t.parsedBlocks (earlier ++ [last]))) = [] ∧
        (t.expectDataType ≠ .noDataType ∨ httpContentType ∈ fieldsOf last.lines)) ∧
    (DescribesBlock last server ↔ Covered earlier last) := by
  constructor
  · exact (HttpClientTask.hasReceived_of_transfer hstart htransfer).describes_iff m
  · obtain ⟨hheaders, hcookies⟩ := headers_of_receive hlines hserver
    have hread := ((hasRead_jsBlocks earlier).grow last).describes_iff
    rw [foldl_concat] at hheaders hcookies
    rw [DescribesBlock, hheaders, hcookies]
    exact hread.trans (and_iff_left_of_imp fun hcovered => hcovered.2)

def redirectBlock : HeaderBlock where
  statusLine := ascii "HTTP/1.1 302 Found"
  fieldLines := [ascii "Location: /login", ascii "Set-Cookie: old=1"]
  lines_wellFormed := by decide

def pageBlock : HeaderBlock where
  statusLine := ascii "HTTP/1.1 200 OK"
  fieldLines := [ascii "Content-Type: text/html", ascii "Set-Cookie: new=2"]
  lines_wellFormed := by decide

def plainTask : HttpClientTask := { request := {} }

def answerOf (blocks : List HeaderBlock) : ServerAnswer where
  responseCode := .ok
  headerLines := blocks.flatMap chunks

/-- A head before the one of the page, with the same status line. -/
def earlyBlock : HeaderBlock where
  statusLine := ascii "HTTP/1.1 200 OK"
  fieldLines := [ascii "Content-Type: text/plain"]
  lines_wellFormed := by decide

/-- A head that has only fields the last one has as well. -/
theorem final_headers_of_covered :
    ∃ t' server, plainTask.transfer [earlyBlock, pageBlock] [] = some t' ∧
      receive 1024 (answerOf [earlyBlock, pageBlock]) {} = some server ∧
      DescribesBlock pageBlock (t'.processResponseCoreLogic {}).2.response ∧
      DescribesBlock pageBlock server := by
  obtain ⟨t', ht'⟩ := isSome_iff_exists.mp
    (show (plainTask.transfer [earlyBlock, pageBlock] []).isSome = true by decide +kernel)
  obtain ⟨server, hserver⟩ := isSome_iff_exists.mp
    (show (receive 1024 (answerOf [earlyBlock, pageBlock]) {}).isSome = true by decide +kernel)
  obtain ⟨hnative, hjs⟩ :=
    final_headers_iff plainTask t' [earlyBlock] pageBlock [] {} 1024 _ server rfl ht' rfl hserver
  have hfields : ∀ name ∈ (fieldsOf (linesOf [earlyBlock])).keys,
      name ∈ fieldsOf pageBlock.lines := by
    decide +kernel
  have hcovered : Covered [earlyBlock] pageBlock :=
    ⟨fun name hmem => hfields name (mem_keys.mpr hmem), by decide +kernel⟩
  refine ⟨t', server, ht', hserver, hnative.mpr ⟨hcovered, rfl, Or.inr ?_⟩, hjs.mpr hcovered⟩
  decide +kernel

/-- After a redirect its cookie is still there, in the JS response twice. -/
theorem redirect_cookie_kept :
    ∃ t' server, plainTask.transfer [redirectBlock, pageBlock] [] = some t' ∧
      receive 1024 (answerOf [redirectBlock, pageBlock]) {} = some server ∧
      (t'.processResponseCoreLogic {}).2.response.setCookie = [ascii "old=1", ascii "new=2"] ∧
      server.setCookie = [ascii "old=1", ascii "old=1", ascii "new=2"] ∧
      ¬ DescribesBlock pageBlock (t'.processResponseCoreLogic {}).2.response ∧
      ¬ DescribesBlock pageBlock server := by
  have hnative : (plainTask.transfer [redirectBlock, pageBlock] []).map
      (fun t' => (t'.processResponseCoreLogic {}).2.response.setCookie) =
        some [ascii "old=1", ascii "new=2"] := by decide +kernel
  have hjs : (receive 1024 (answerOf [redirectBlock, pageBlock]) {}).map
      (·.setCookie) = some [ascii "old=1", ascii "old=1", ascii "new=2"] := by decide +kernel
  obtain ⟨t', ht', hcookies⟩ := map_eq_some_iff.mp hnative
  obtain ⟨server, hserver, hserverCookies⟩ := map_eq_some_iff.mp hjs
  have hpage : cookiesOf pageBlock.lines = [ascii "new=2"] := by decide +kernel
  refine ⟨t', server, ht', hserver, hcookies, hserverCookies, ?_, ?_⟩
  · rintro ⟨-, hsame⟩
    grind
  · rintro ⟨-, hsame⟩
    grind

end Netstack.HttpClient
