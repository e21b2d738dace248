import Netstack.HttpCache.Messages

/-!
# Header blocks

A transfer may bring several heads one after another, of interim responses and of redirects,
before the last one. `ParseHeaders` reads off their text the fields of all of them with the last
value of each, and the cookies of all of them in order.

## Implementation notes

A line without a colon, such as the status line, is kept as a field without a value.
-/

namespace Netstack.HttpCache

open Foundation CommonUtils List HttpResponse Std.ExtTreeMap
open HttpConstant (httpLineSeparator)

variable (r : HttpResponse)

/-- The head of a response: its lines without their terminators. -/
structure HeaderBlock where
  statusLine : Bytes
  fieldLines : List Bytes
  lines_wellFormed : ∀ line ∈ statusLine :: fieldLines, line ≠ [] ∧ (10 : UInt8) ∉ line

namespace HeaderBlock

variable (b : HeaderBlock)

def lines : List Bytes := b.statusLine :: b.fieldLines

/-- What curl gives to the callback for the block, the empty line at its end included. -/
def chunks : List Bytes :=
  b.lines.map (· ++ httpLineSeparator) ++ [httpLineSeparator]

def text : Bytes := b.chunks.flatten

end HeaderBlock

namespace HttpResponse

/-- The rounds of `ParseHeaders` over some lines. -/
def parseLines (r : HttpResponse) (lines : List Bytes) : HttpResponse :=
  lines.foldl parseHeaderLine r

end HttpResponse

/-- The fields that lines have by themselves. -/
def fieldsOf (lines : List Bytes) : Headers := (parseLines {} lines).headers

/-- The cookies that lines have by themselves. -/
def cookiesOf (lines : List Bytes) : List Bytes := (parseLines {} lines).setCookie

section Lines

theorem split_line {line : Bytes} (hline : (10 : UInt8) ∉ line) (rest : Bytes) :
    split (line ++ httpLineSeparator ++ rest) httpLineSeparator =
      line :: split rest httpLineSeparator := by
  have hcut : cut httpLineSeparator (line ++ httpLineSeparator ++ rest) = some (line, rest) := by
    rw [append_assoc]
    exact cut_of_second_notMem (by decide) hline rest
  have hne : line ++ httpLineSeparator ++ rest ≠ [] := by simp [httpLineSeparator]
  rw [split_eq (by decide), if_neg hne, hcut]

theorem split_lines {lines : List Bytes} (hlines : ∀ line ∈ lines, (10 : UInt8) ∉ line)
    (rest : Bytes) :
    split ((lines.map (· ++ httpLineSeparator)).flatten ++ rest) httpLineSeparator =
      lines ++ split rest httpLineSeparator := by
  induction lines with
  | nil => rfl
  | cons line lines ih =>
    obtain ⟨hline, hrest⟩ := forall_mem_cons.mp hlines
    rw [map_cons, flatten_cons, append_assoc, split_line hline, ih hrest,
      cons_append]

/-- The text of a block is split into its lines and the empty one. -/
theorem split_block (b : HeaderBlock) (rest : Bytes) :
    split (b.text ++ rest) httpLineSeparator =
      b.lines ++ [] :: split rest httpLineSeparator := by
  have hblank : split (httpLineSeparator ++ rest) httpLineSeparator =
      [] :: split rest httpLineSeparator := split_line not_mem_nil rest
  have hlines : ∀ line ∈ b.lines, (10 : UInt8) ∉ line := fun line h =>
    (b.lines_wellFormed line h).2
  rw [HeaderBlock.text, HeaderBlock.chunks, flatten_append, append_assoc,
    flatten_singleton, split_lines hlines, hblank]

theorem parseHeaderLine_nil : r.parseHeaderLine [] = r := rfl

/-- A line adds a field or a cookie, whatever the response has already. -/
theorem parseHeaderLine_effect (line : Bytes) :
    (∀ name : Bytes, (r.parseHeaderLine line).headers[name]? =
      ((({} : HttpResponse).parseHeaderLine line).headers[name]?).or r.headers[name]?) ∧
    (r.parseHeaderLine line).setCookie =
      r.setCookie ++ (({} : HttpResponse).parseHeaderLine line).setCookie := by
  unfold parseHeaderLine
  split
  · exact ⟨fun name => by simp, by simp⟩
  · split
    · refine ⟨fun name => ?_, by simp⟩
      simp only [Std.ExtTreeMap.getElem?_insert, Std.ExtTreeMap.getElem?_empty]
      split <;> rfl
    · split
      · exact ⟨fun name => by simp, by simp⟩
      · refine ⟨fun name => ?_, by simp⟩
        simp only [Std.ExtTreeMap.getElem?_insert, Std.ExtTreeMap.getElem?_empty]
        split <;> rfl

theorem parseLines_effect (lines : List Bytes) (r : HttpResponse) :
    (∀ name : Bytes, (r.parseLines lines).headers[name]? =
      ((fieldsOf lines)[name]?).or r.headers[name]?) ∧
    (r.parseLines lines).setCookie = r.setCookie ++ cookiesOf lines := by
  induction lines generalizing r with
  | nil => exact ⟨fun name => by simp [fieldsOf, parseLines],
      (append_nil _).symm⟩
  | cons line lines ih =>
    obtain ⟨hfields, hcookies⟩ := parseHeaderLine_effect r line
    obtain ⟨hrestFields, hrestCookies⟩ := ih (r.parseHeaderLine line)
    obtain ⟨hemptyFields, hemptyCookies⟩ := ih (({} : HttpResponse).parseHeaderLine line)
    constructor
    · intro name
      calc (r.parseLines (line :: lines)).headers[name]?
          = ((fieldsOf lines)[name]?).or (r.parseHeaderLine line).headers[name]? :=
            hrestFields name
        _ = (((fieldsOf lines)[name]?).or
              (({} : HttpResponse).parseHeaderLine line).headers[name]?).or
              r.headers[name]? := by rw [hfields, Option.or_assoc]
        _ = ((fieldsOf (line :: lines))[name]?).or r.headers[name]? := by
            rw [← hemptyFields]
            rfl
    · calc (r.parseLines (line :: lines)).setCookie
          = r.setCookie ++ (({} : HttpResponse).parseHeaderLine line).setCookie ++
              cookiesOf lines := by rw [← hcookies]; exact hrestCookies
        _ = r.setCookie ++ cookiesOf (line :: lines) := by
            rw [append_assoc, ← hemptyCookies]
            rfl

variable (front back : List Bytes)

theorem fieldsOf_append (name : Bytes) :
    (fieldsOf (front ++ back))[name]? = ((fieldsOf back)[name]?).or (fieldsOf front)[name]? := by
  rw [fieldsOf, parseLines, foldl_append]
  exact (parseLines_effect back (parseLines {} front)).1 name

theorem cookiesOf_append : cookiesOf (front ++ back) = cookiesOf front ++ cookiesOf back := by
  rw [cookiesOf, parseLines, foldl_append]
  exact (parseLines_effect back (parseLines {} front)).2

/-- The fields of lines are those of the last ones exactly if the others only have
fields that these have too. -/
theorem fieldsOf_append_eq_iff :
    fieldsOf (front ++ back) = fieldsOf back ↔
      ∀ name : Bytes, name ∈ fieldsOf front → name ∈ fieldsOf back := by
  constructor
  · intro heq name hmem
    rw [← heq, mem_iff_isSome_getElem?, fieldsOf_append, Option.isSome_or,
      mem_iff_isSome_getElem?.mp hmem, Bool.or_true]
  · intro hsub
    apply Std.ExtTreeMap.ext_getElem?
    intro name
    rw [fieldsOf_append]
    grind

end Lines

section Blocks

variable (blocks : List HeaderBlock)

def linesOf : List Bytes := blocks.flatMap HeaderBlock.lines

def textOf : Bytes := blocks.flatMap HeaderBlock.text

theorem foldl_parseHeaderLine_textOf :
    (split (textOf blocks) httpLineSeparator).foldl parseHeaderLine r =
      r.parseLines (linesOf blocks) := by
  induction blocks generalizing r with
  | nil => rfl
  | cons b blocks ih =>
    have htext : textOf (b :: blocks) = b.text ++ textOf blocks := flatMap_cons
    have hlines : linesOf (b :: blocks) = b.lines ++ linesOf blocks := flatMap_cons
    rw [htext, split_block, foldl_append, foldl_cons, parseHeaderLine_nil, ih, hlines,
      parseLines, parseLines, foldl_append]

/-- `ParseHeaders` on the text of several blocks. -/
theorem parseHeaders_of_textOf {blocks : List HeaderBlock} {r : HttpResponse}
    (hraw : r.rawHeader = textOf blocks) : r.parseHeaders = r.parseLines (linesOf blocks) := by
  rw [parseHeaders, hraw, foldl_parseHeaderLine_textOf]

/-- The end of a head, as the callbacks look for it. -/
def headEnd : Bytes := [13, 10, 13, 10]

theorem not_headEnd_of_line {line : Bytes} (hne : line ≠ []) (hline : (10 : UInt8) ∉ line)
    (raw : Bytes) : ¬ headEnd <:+ raw ++ (line ++ httpLineSeparator) := by
  rintro ⟨front, hfront⟩
  have hfront' : (front ++ [13]) ++ [10] ++ httpLineSeparator =
      (raw ++ line) ++ httpLineSeparator := by
    rw [append_assoc raw, ← hfront]
    simp [headEnd, httpLineSeparator]
  have hlast := congrArg List.getLast? (append_cancel_right hfront')
  rw [List.getLast?_append_of_ne_nil _ hne, List.getLast?_concat] at hlast
  exact hline (mem_of_getLast? hlast.symm)

theorem headEnd_of_blank (raw : Bytes) :
    headEnd <:+ raw ++ httpLineSeparator ++ httpLineSeparator :=
  ⟨raw, by simp [headEnd, httpLineSeparator]⟩

section Readers

variable {σ : Type*} (raw : σ → Bytes) (grow : σ → Bytes → σ) (atEnd : σ → σ)

/-- A callback that keeps the text and does something whenever a head is at its end. -/
def onChunk (s : σ) (data : Bytes) : σ :=
  if headEnd <:+ raw (grow s data) then atEnd (grow s data) else grow s data

variable {raw grow} (hraw : ∀ s data, raw (grow s data) = raw s ++ data)
  (hgrow : ∀ s front back, grow (grow s front) back = grow s (front ++ back))
include hraw hgrow

theorem foldl_onChunk_lines {lines : List Bytes}
    (hlines : ∀ line ∈ lines, line ≠ [] ∧ (10 : UInt8) ∉ line) (s : σ) (front : Bytes) :
    (lines.map (· ++ httpLineSeparator)).foldl (onChunk raw grow atEnd) (grow s front) =
      grow s (front ++ (lines.map (· ++ httpLineSeparator)).flatten) := by
  induction lines generalizing front with
  | nil =>
    grind
  | cons line lines ih =>
    obtain ⟨hline, hrest⟩ := forall_mem_cons.mp hlines
    have hstep : onChunk raw grow atEnd (grow s front) (line ++ httpLineSeparator) =
        grow s (front ++ (line ++ httpLineSeparator)) := by
      rw [onChunk, hraw, if_neg (not_headEnd_of_line hline.1 hline.2 _), hgrow]
    grind

/-- Such a callback does its work once in a block, when it has the whole text. -/
theorem foldl_onChunk_block (b : HeaderBlock) (s : σ) :
    b.chunks.foldl (onChunk raw grow atEnd) s = atEnd (grow s b.text) := by
  have hfirst : onChunk raw grow atEnd s (b.statusLine ++ httpLineSeparator) =
      grow s (b.statusLine ++ httpLineSeparator) := by
    obtain ⟨hne, hline⟩ := b.lines_wellFormed b.statusLine mem_cons_self
    rw [onChunk, hraw, if_neg (not_headEnd_of_line hne hline _)]
  have hlines : (b.lines.map (· ++ httpLineSeparator)).foldl (onChunk raw grow atEnd) s =
      grow s (b.lines.map (· ++ httpLineSeparator)).flatten := by
    rw [HeaderBlock.lines, map_cons, foldl_cons, hfirst,
      foldl_onChunk_lines atEnd hraw hgrow
        fun line hmem => b.lines_wellFormed line (mem_cons_of_mem _ hmem),
      flatten_cons]
  obtain ⟨front, hfront⟩ : ∃ front, (b.lines.map (· ++ httpLineSeparator)).flatten =
      front ++ httpLineSeparator := by
    obtain ⟨init, last, hlast⟩ := (eq_nil_or_concat b.lines).resolve_left
      (cons_ne_nil _ _)
    refine ⟨(init.map (· ++ httpLineSeparator)).flatten ++ last, ?_⟩
    rw [hlast, map_concat, concat_eq_append, flatten_concat, append_assoc]
  have hend : headEnd <:+ raw (grow (grow s (front ++ httpLineSeparator)) httpLineSeparator) := by
    rw [hraw, hraw, ← append_assoc]
    exact headEnd_of_blank _
  rw [HeaderBlock.chunks, foldl_append, hlines, foldl_cons, foldl_nil, onChunk,
    hfront, if_pos hend, hgrow, HeaderBlock.text, HeaderBlock.chunks, flatten_append, hfront,
    flatten_singleton]

/-- Over several blocks it does its work once in each. -/
theorem foldl_onChunk_blocks (blocks : List HeaderBlock) (s : σ) :
    (blocks.flatMap HeaderBlock.chunks).foldl (onChunk raw grow atEnd) s =
      blocks.foldl (fun s b => atEnd (grow s b.text)) s := by
  induction blocks generalizing s with
  | nil => rfl
  | cons b blocks ih =>
    rw [flatMap_cons, foldl_append, foldl_onChunk_block atEnd hraw hgrow, ih,
      foldl_cons]

end Readers

end Blocks

end Netstack.HttpCache
