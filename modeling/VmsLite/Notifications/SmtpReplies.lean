import VmsLite.Data.Buffer
import VmsLite.Data.Lines
import VmsLite.Media.RtspUrl

/-!
# Replies of the mail server

`readResponse` collects what a socket delivers until one of the complete lines is a final one: three
digits with nothing behind them, or with a blank. However a well-formed reply is cut into chunks, it
resolves with the chunk that completes the reply and with no earlier one (`readResponse_reply`).
`decode` stands for `toString('utf8')` of a chunk.
-/

set_option autoImplicit false

namespace VmsLite.Notifications.Smtp

open Data

abbrev ReplyText := List Char

/-! ### Reading -/

/-- What `.` of a regular expression matches. -/
def isDot (char : Char) : Bool :=
  char ≠ '\n' && char ≠ '\r' && char ≠ '\u2028' && char ≠ '\u2029'

def digitValue (char : Char) : ℕ := char.toNat - '0'.toNat

/-- The number that a final line begins with: a match of `/^(\d{3})(?: (.*))?$/`. -/
def finalCode? : ReplyText → Option ℕ
  | a :: b :: c :: rest =>
    let code := 100 * digitValue a + 10 * digitValue b + digitValue c
    if a.isDigit && b.isDigit && c.isDigit then
      match rest with
      | [] => some code
      | ' ' :: text => if text.all isDot then some code else none
      | _ => none
    else none
  | _ => none

inductive SocketEvent
  | data (chunk : Bytes)
  | error (message : String)
  | close
  | timeout

structure SmtpResponse where
  code : ℕ
  message : ReplyText
  deriving DecidableEq, Repr

inductive Outcome
  | resolved (response : SmtpResponse)
  | rejected (message : String)
  deriving DecidableEq, Repr

/-- The code of the first final line among the complete lines of a buffer. -/
def finalLine? (buffer : ReplyText) : Option ℕ :=
  (splitLines '\r' '\n' buffer).dropLast.findSome? finalCode?

/-- How the promise is settled by what the socket does, when it is. -/
def readResponse (decode : Bytes → ReplyText) (timeoutMs : ℕ) :
    ReplyText → List SocketEvent → Option Outcome
  | _, [] => none
  | buffer, .data chunk :: events =>
    let buffer := buffer ++ decode chunk
    match finalLine? buffer with
    | some code => some (.resolved { code := code, message := Media.trim buffer })
    | none => readResponse decode timeoutMs buffer events
  | _, .error message :: _ => some (.rejected message)
  | _, .close :: _ => some (.rejected "SMTP socket closed prematurely by remote host")
  | _, .timeout :: _ => some (.rejected s!"SMTP connection timed out after {timeoutMs}ms")

/-! ### Well-formed replies -/

structure Code where
  hundreds : Fin 10
  tens : Fin 10
  units : Fin 10

namespace Code

variable (code : Code)

def value : ℕ := 100 * code.hundreds.val + 10 * code.tens.val + code.units.val

def text : ReplyText := [code.hundreds.val, code.tens.val, code.units.val].map Nat.digitChar

end Code

/-- A text of ASCII characters within a line. -/
def IsReplyText (text : ReplyText) : Prop :=
  ∀ char ∈ text, isAscii char = true ∧ char ≠ '\r' ∧ char ≠ '\n'

structure ContinuationLine where
  code : Code
  text : ReplyText
  isReplyText : IsReplyText text

def ContinuationLine.line (continuation : ContinuationLine) : ReplyText :=
  continuation.code.text ++ '-' :: continuation.text

structure Reply where
  continuations : List ContinuationLine
  code : Code
  /-- The text of the final line, where there is a blank behind its code. -/
  text : Option ReplyText
  isReplyText : ∀ final ∈ text, IsReplyText final

namespace Reply

variable (reply : Reply)

def finalLine : ReplyText :=
  match reply.text with
  | none => reply.code.text
  | some text => reply.code.text ++ ' ' :: text

def lines : List ReplyText := reply.continuations.map ContinuationLine.line ++ [reply.finalLine]

def content : ReplyText := joinLines '\r' '\n' reply.lines

end Reply

/-! ### Lines of a reply -/

theorem digitChar_spec {digit : ℕ} (hdigit : digit < 10) :
    (Nat.digitChar digit).isDigit = true ∧ digitValue (Nat.digitChar digit) = digit ∧
      isAscii (Nat.digitChar digit) = true ∧ Nat.digitChar digit ≠ '\r' ∧
        Nat.digitChar digit ≠ '\n' := by
  revert digit
  decide

theorem isReplyText_code (code : Code) : IsReplyText code.text := by
  intro char hchar
  obtain ⟨digit, hdigit, rfl⟩ := List.mem_map.mp hchar
  have hlt : digit < 10 := by
    simp only [List.mem_cons, List.not_mem_nil, or_false] at hdigit
    omega
  exact (digitChar_spec hlt).2.2

theorem IsReplyText.append {before after : ReplyText} (hbefore : IsReplyText before)
    (hafter : IsReplyText after) : IsReplyText (before ++ after) :=
  List.forall_mem_append.mpr ⟨hbefore, hafter⟩

theorem isReplyText_finalLine (reply : Reply) : IsReplyText reply.finalLine := by
  unfold Reply.finalLine
  split
  · exact isReplyText_code _
  · rename_i text htext
    have hblank : IsReplyText [' '] := List.forall_mem_singleton.mpr (by decide)
    exact (isReplyText_code _).append (hblank.append (reply.isReplyText text htext))

theorem isReplyText_lines (reply : Reply) : ∀ line ∈ reply.lines, IsReplyText line := by
  have hdash : IsReplyText ['-'] := List.forall_mem_singleton.mpr (by decide)
  refine List.forall_mem_append.mpr ⟨List.forall_mem_map.mpr fun continuation _ ↦ ?_,
    List.forall_mem_singleton.mpr (isReplyText_finalLine reply)⟩
  exact (isReplyText_code _).append (hdash.append continuation.isReplyText)

/-- The number of a final line. -/
theorem finalCode?_code (code : Code) (rest : ReplyText) :
    finalCode? (code.text ++ rest) =
      match rest with
      | [] => some code.value
      | ' ' :: text => if text.all isDot then some code.value else none
      | _ => none := by
  have hhundreds := digitChar_spec code.hundreds.isLt
  have htens := digitChar_spec code.tens.isLt
  have hunits := digitChar_spec code.units.isLt
  unfold Code.text Code.value
  simp only [List.map_cons, List.map_nil, List.cons_append, List.nil_append, finalCode?,
    hhundreds.1, htens.1, hunits.1, hhundreds.2.1, htens.2.1, hunits.2.1, Bool.and_self, if_true]
  rfl

theorem finalCode?_finalLine (reply : Reply) :
    finalCode? reply.finalLine = some reply.code.value := by
  unfold Reply.finalLine
  split
  · rw [← List.append_nil reply.code.text, finalCode?_code]
  · rename_i text htext
    have hall : text.all isDot = true := by
      refine List.all_eq_true.mpr fun char hchar ↦ ?_
      obtain ⟨hascii, hreturn, hfeed⟩ := reply.isReplyText text htext char hchar
      have hsmall : char.toNat < 128 := of_decide_eq_true hascii
      have hline : char ≠ '\u2028' := by
        rintro rfl
        exact absurd hsmall (by decide)
      have hparagraph : char ≠ '\u2029' := by
        rintro rfl
        exact absurd hsmall (by decide)
      simp [isDot, hreturn, hfeed, hline, hparagraph]
    rw [finalCode?_code]
    exact if_pos hall

theorem finalCode?_continuation (continuation : ContinuationLine) :
    finalCode? continuation.line = none := by
  unfold ContinuationLine.line
  rw [finalCode?_code]
  rfl

/-! ### Parts of a reply -/

/-- No complete line of a part of a reply is final. -/
theorem finalLine?_part (reply : Reply) {part : ReplyText} (hpart : part <+: reply.content)
    (hne : part ≠ reply.content) : finalLine? part = none := by
  have hlines : ∀ line ∈ reply.lines, '\r' ∉ line :=
    fun line hline hmem ↦ (isReplyText_lines reply line hline _ hmem).2.1 rfl
  have hcontents := dropLast_splitLines_of_prefix (by decide) hlines hpart hne
  have hcontinuations : reply.lines.dropLast = reply.continuations.map ContinuationLine.line :=
    List.dropLast_concat
  rw [hcontinuations] at hcontents
  refine List.findSome?_eq_none_iff.mpr fun line hline ↦ ?_
  obtain ⟨continuation, -, rfl⟩ := List.mem_map.mp (hcontents.subset hline)
  exact finalCode?_continuation continuation

theorem finalLine?_content (reply : Reply) :
    finalLine? reply.content = some reply.code.value := by
  have hlines : ∀ line ∈ reply.lines, '\r' ∉ line :=
    fun line hline hmem ↦ (isReplyText_lines reply line hline _ hmem).2.1 rfl
  have hsplit : splitLines '\r' '\n' reply.content = reply.lines ++ [[]] := by
    have hjoin := splitLines_joinLines (by decide : '\r' ≠ '\n') hlines []
    rwa [List.append_nil] at hjoin
  unfold finalLine?
  rw [hsplit, List.dropLast_concat, Reply.lines, List.findSome?_append,
    List.findSome?_eq_none_iff.mpr]
  · simp [finalCode?_finalLine]
  · exact List.forall_mem_map.mpr fun continuation _ ↦ finalCode?_continuation continuation

/-- Bytes at the head of those of an ASCII text are those of a part of the text. -/
theorem exists_part_of_prefix {text : ReplyText} (htext : ∀ char ∈ text, isAscii char = true)
    {bytes : Bytes} (hbytes : bytes <+: utf8 text) : ∃ part, part <+: text ∧ utf8 part = bytes := by
  induction text generalizing bytes with
  | nil => exact ⟨[], List.nil_prefix, (List.prefix_nil.mp hbytes).symm⟩
  | cons char text ih =>
    obtain ⟨hchar, htext⟩ := List.forall_mem_cons.mp htext
    have hbyte := utf8EncodeChar_of_ascii hchar
    rw [utf8_cons, hbyte, List.singleton_append] at hbytes
    rcases List.prefix_cons_iff.mp hbytes with rfl | ⟨more, rfl, hmore⟩
    · exact ⟨[], List.nil_prefix, rfl⟩
    · obtain ⟨part, hpart, rfl⟩ := ih htext hmore
      exact ⟨char :: part, List.cons_prefix_cons.mpr ⟨rfl, hpart⟩, by rw [utf8_cons, hbyte]; rfl⟩

theorem isAscii_content (reply : Reply) : ∀ char ∈ reply.content, isAscii char = true := by
  intro char hchar
  obtain ⟨line, hline, hmem⟩ := List.mem_flatMap.mp hchar
  rcases List.mem_append.mp hmem with htext | hbreak
  · exact (isReplyText_lines reply line hline char htext).1
  · rcases List.mem_pair.mp hbreak with rfl | rfl
    · decide
    · decide

/-- A chunk that goes on where a part of a reply ends is decoded to what makes it a longer part. -/
theorem exists_part_append {decode : Bytes → ReplyText}
    (hdecode : ∀ text, decode (utf8 text) = text)
    {text buffer : ReplyText} (htext : ∀ char ∈ text, isAscii char = true)
    (hbuffer : buffer <+: text)
    {chunk : Bytes} (hchunk : utf8 buffer ++ chunk <+: utf8 text) :
    buffer ++ decode chunk <+: text ∧ utf8 (buffer ++ decode chunk) = utf8 buffer ++ chunk := by
  obtain ⟨part, hpart, hbytes⟩ := exists_part_of_prefix htext hchunk
  have hascii : ∀ {other : ReplyText}, other <+: text → (utf8 other).length = other.length :=
    fun hother ↦ length_utf8_of_ascii fun char hchar ↦ htext char (hother.subset hchar)
  have hlength : buffer.length ≤ part.length := by
    rw [← hascii hbuffer, ← hascii hpart, hbytes, List.length_append]
    exact Nat.le_add_right _ _
  obtain ⟨piece, rfl⟩ := List.prefix_of_prefix_length_le hbuffer hpart hlength
  rw [utf8_append] at hbytes
  obtain rfl := List.append_cancel_left hbytes
  rw [hdecode]
  exact ⟨hpart, utf8_append buffer piece⟩

/-- What the rest of a reply makes of a buffer that holds a part of it. -/
theorem readResponse_chunks {decode : Bytes → ReplyText}
    (hdecode : ∀ text, decode (utf8 text) = text)
    (timeoutMs : ℕ) (reply : Reply) {buffer : ReplyText} {chunks : List Bytes}
    (hbuffer : buffer <+: reply.content) (hne : buffer ≠ reply.content)
    (hchunks : utf8 buffer ++ chunks.flatten <+: utf8 reply.content) :
    readResponse decode timeoutMs buffer (chunks.map .data) =
      if utf8 buffer ++ chunks.flatten = utf8 reply.content then
        some (.resolved { code := reply.code.value, message := Media.trim reply.content })
      else none := by
  induction chunks generalizing buffer with
  | nil =>
    rw [List.flatten_nil, List.append_nil, if_neg fun heq ↦ hne (utf8_injective heq)]
    rfl
  | cons chunk chunks ih =>
    rw [List.flatten_cons, ← List.append_assoc] at hchunks ⊢
    obtain ⟨hpart, hbytes⟩ := exists_part_append hdecode (isAscii_content reply) hbuffer
      ((List.prefix_append _ _).trans hchunks)
    rw [← hbytes] at hchunks ⊢
    rw [List.map_cons, readResponse]
    by_cases hwhole : buffer ++ decode chunk = reply.content
    · have hrest : chunks.flatten = [] := by
        rw [hwhole] at hchunks
        obtain ⟨behind, hbehind⟩ := hchunks
        rw [List.append_assoc, List.append_right_eq_self] at hbehind
        exact (List.append_eq_nil_iff.mp hbehind).1
      rw [hwhole, finalLine?_content, hrest, List.append_nil, if_pos rfl]
    · rw [finalLine?_part reply hpart hwhole]
      exact ih hpart hwhole hchunks

/-- However a reply is cut into chunks, the chunk that completes it settles the promise, and no
earlier one does. -/
theorem readResponse_reply {decode : Bytes → ReplyText}
    (hdecode : ∀ text, decode (utf8 text) = text)
    (timeoutMs : ℕ) (reply : Reply) {chunks : List Bytes}
    (hchunks : chunks.flatten <+: utf8 reply.content) :
    readResponse decode timeoutMs [] (chunks.map .data) =
      if chunks.flatten = utf8 reply.content then
        some (.resolved { code := reply.code.value, message := Media.trim reply.content })
      else none := by
  have hne : [] ≠ reply.content := by
    intro hnil
    have hcontent := finalLine?_content reply
    rw [← hnil] at hcontent
    cases hcontent
  exact readResponse_chunks hdecode timeoutMs reply List.nil_prefix hne hchunks

/-- `toString('utf8')` of well-formed bytes. -/
def decodeUtf8 (chunk : Bytes) : ReplyText := (fromUtf8 chunk).getD []

theorem decodeUtf8_utf8 (text : ReplyText) : decodeUtf8 (utf8 text) = text :=
  congrArg (Option.getD · []) (fromUtf8_utf8 text)

theorem isReplyText_size : IsReplyText ['S', 'I', 'Z', 'E'] := by
  have hall : ['S', 'I', 'Z', 'E'].all (fun char ↦ isAscii char && char ≠ '\r' && char ≠ '\n') =
      true := by decide
  intro char hchar
  simpa [and_assoc] using List.all_eq_true.mp hall char hchar

/-- The reply `250-SIZE`, `250`. -/
def ehloReply : Reply where
  continuations := [⟨⟨2, 5, 0⟩, ['S', 'I', 'Z', 'E'], isReplyText_size⟩]
  code := ⟨2, 5, 0⟩
  text := none
  isReplyText := nofun

/-- The carriage return and the line feed of the last line come apart. -/
theorem readResponse_ehloReply :
    readResponse decodeUtf8 10000 []
        ([[50, 53], [48, 45, 83, 73, 90, 69, 13, 10, 50, 53, 48, 13], [10]].map .data) =
      some (.resolved { code := 250, message := Media.trim ehloReply.content }) := by
  have hcontent : [[50, 53], [48, 45, 83, 73, 90, 69, 13, 10, 50, 53, 48, 13], [10]].flatten =
      utf8 ehloReply.content := by decide
  exact (readResponse_reply decodeUtf8_utf8 10000 ehloReply (hcontent ▸ List.prefix_rfl)).trans
    (if_pos hcontent)

end VmsLite.Notifications.Smtp
