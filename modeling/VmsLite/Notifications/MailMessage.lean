import VmsLite.Data.Base64
import VmsLite.Data.Lines

/-!
# Mail messages

`sendMail` joins eight headers, an empty line, the HTML, an empty line and a dot into one command.
The receiver of the data reads lines up to one that is a single dot, takes the first dot off any
other line, and reads what follows as commands.

The message arrives as it was meant just when no line of the HTML begins with a dot and a subject
that is written as it is does not look like an encoded word (`isFaithfulMail_iff`): the client does not
double the dots at the beginning of lines. `decodeWords` stands for the way in which the reader of
a message decodes encoded words.
-/

set_option autoImplicit false

namespace VmsLite.Notifications.Smtp

open Data

abbrev Text := List Char

/-! ### The client -/

structure SmtpMailOptions where
  sender : Text
  recipients : List Text
  subject : Text
  html : Text

def isPrintable (subject : Text) : Bool := subject.all fun char ↦ ' ' ≤ char && char ≤ '~'

def wordStart : Text := "=?UTF-8?B?".toList

def wordEnd : Text := "?=".toList

def encodedWord (text : Text) : Text := wordStart ++ Base64.encode (utf8 text) ++ wordEnd

def encodeSubject (subject : Text) : Text :=
  if isPrintable subject then subject else encodedWord subject

/-- The headers of a message, with the time at which it is sent and the id that it is given. -/
def headers (mail : SmtpMailOptions) (dateHeader messageId : Text) : List Text :=
  [ "From: ".toList ++ mail.sender
  , "To: ".toList ++ [',', ' '].intercalate mail.recipients
  , "Subject: ".toList ++ encodeSubject mail.subject
  , "Date: ".toList ++ dateHeader
  , "Message-ID: ".toList ++ messageId
  , "MIME-Version: 1.0".toList
  , "Content-Type: text/html; charset=utf-8".toList
  , "Content-Transfer-Encoding: 8bit".toList ]

def mimeMessage (mail : SmtpMailOptions) (dateHeader messageId : Text) : Text :=
  ['\r', '\n'].intercalate (headers mail dateHeader messageId ++ [[], mail.html, [], ['.']])

/-- The bytes that `sendCommand` writes. -/
def commandBytes (cmd : Text) : Bytes := utf8 (cmd ++ ['\r', '\n'])

/-! ### The receiver -/

structure Received where
  /-- The lines of the message. -/
  message : List Bytes
  /-- What is read as commands. -/
  rest : Bytes

/-- A line without the dot that it begins with. -/
def unstuffed : Bytes → Bytes
  | 46 :: line => line
  | line => line

/-- The message up to the first line that is a single dot. What stands behind the last line break is
no line yet. -/
def receiveLines : List Bytes → Option Received
  | line :: next :: lines =>
    if line = [46] then
      some { message := [], rest := ([13, 10] : Bytes).intercalate (next :: lines) }
    else
      (receiveLines (next :: lines)).map fun received ↦
        { received with message := unstuffed line :: received.message }
  | _ => none

def receive (stream : Bytes) : Option Received := receiveLines (splitLines 13 10 stream)

namespace Received

variable (received : Received)

/-- The lines before the first empty one. -/
def headers : List Bytes := received.message.takeWhile fun line ↦ !line.isEmpty

/-- What stands behind the first empty line. -/
def body : Bytes :=
  joinLines 13 10 (received.message.dropWhile fun line ↦ !line.isEmpty).tail

def subject (decodeWords : Text → Text) : Option Text := do
  let header ← received.headers.find? fun header ↦ (utf8 "Subject: ".toList).isPrefixOf header
  let value ← fromUtf8 (header.drop 9)
  return decodeWords value

end Received

/-! ### Faithful messages -/

/-- A text without a carriage return and a line feed. -/
def IsLine (text : Text) : Prop := '\r' ∉ text ∧ '\n' ∉ text

/-- What `sendMail` is called with. -/
structure Mail extends SmtpMailOptions where
  sender_isLine : IsLine sender
  recipients_isLine : ∀ recipient ∈ recipients, IsLine recipient

/-- The time and the id of a message. -/
structure Stamp where
  dateHeader : Text
  messageId : Text
  date_isLine : IsLine dateHeader
  id_isLine : IsLine messageId

/-- A reader of messages that decodes the encoded words of UTF-8 texts. -/
def DecodesWords (decodeWords : Text → Text) : Prop :=
  ∀ text, isPrintable text = false → decodeWords (encodedWord text) = text

def Mail.IsFaithful (decodeWords : Text → Text) (stamp : Stamp) (mail : Mail) : Prop :=
  ∃ received,
    receive (commandBytes (mimeMessage mail.toSmtpMailOptions stamp.dateHeader stamp.messageId)) =
        some received ∧
      received.rest = [] ∧
      received.headers =
        (headers mail.toSmtpMailOptions stamp.dateHeader stamp.messageId).map utf8 ∧
      received.subject decodeWords = some mail.subject ∧
      received.body = utf8 mail.html ++ [13, 10, 13, 10]

/-- A mail none of whose lines begins with a dot, and whose subject is not taken for encoded words
when it is none. -/
structure Mail.IsPlain (decodeWords : Text → Text) (mail : Mail) : Prop where
  html : ∀ line ∈ splitLines '\r' '\n' mail.html, line.head? ≠ some '.'
  subject : isPrintable mail.subject = true → decodeWords mail.subject = mail.subject

/-! ### What is received -/

theorem receiveLines_append {before after : List Bytes} (hbefore : [46] ∉ before)
    (hafter : after ≠ []) :
    receiveLines (before ++ after) = (receiveLines after).map fun received ↦
      { received with message := before.map unstuffed ++ received.message } := by
  induction before with
  | nil => simp
  | cons line before ih =>
    obtain ⟨hline, hbefore⟩ := (List.mem_cons.not.trans not_or).mp hbefore
    obtain ⟨next, lines, hnext⟩ := List.exists_cons_of_ne_nil
      (List.append_ne_nil_of_right_ne_nil before hafter)
    rw [List.cons_append, hnext, receiveLines, if_neg (Ne.symm hline), ← hnext, ih hbefore,
      Option.map_map]
    rfl

/-- The lines of the data, with what stands behind the last line break. -/
theorem splitLines_commandBytes (mail : SmtpMailOptions) (dateHeader messageId : Text)
    (hheaders : ∀ header ∈ headers mail dateHeader messageId, '\r' ∉ header) :
    splitLines 13 10 (commandBytes (mimeMessage mail dateHeader messageId)) =
      (headers mail dateHeader messageId).map utf8 ++
        ([] :: ((splitLines '\r' '\n' mail.html).map utf8 ++ [[], [46], []])) := by
  have hmessage : mimeMessage mail dateHeader messageId ++ ['\r', '\n'] =
      joinLines '\r' '\n' (headers mail dateHeader messageId ++ [[]]) ++
        (mail.html ++ '\r' :: '\n' :: joinLines '\r' '\n' [[], ['.']]) := by
    unfold mimeMessage
    rw [intercalate_append_break (by simp)]
    simp [joinLines]
  have hempty : ∀ header ∈ headers mail dateHeader messageId ++ [[]], '\r' ∉ header :=
    List.forall_mem_append.mpr ⟨hheaders, by simp⟩
  have htail : splitLines '\r' '\n' (joinLines '\r' '\n' [[], ['.']]) = [[], ['.'], []] := by decide
  have hdot : [[], ['.'], []].map utf8 = [[], [46], []] := by decide
  unfold commandBytes
  rw [splitLines_utf8, hmessage, splitLines_joinLines (by decide) hempty,
    splitLines_append (by decide), htail, List.map_append, List.map_append, List.map_append, hdot,
    List.append_assoc]
  rfl

theorem isLine_iff {text : Text} : IsLine text ↔ ∀ char ∈ text, char ≠ '\r' ∧ char ≠ '\n' := by
  constructor
  · rintro ⟨hreturn, hfeed⟩ char hchar
    exact ⟨ne_of_mem_of_not_mem hchar hreturn, ne_of_mem_of_not_mem hchar hfeed⟩
  · intro htext
    exact ⟨fun hmem ↦ (htext _ hmem).1 rfl, fun hmem ↦ (htext _ hmem).2 rfl⟩

theorem IsLine.append {before after : Text} (hbefore : IsLine before) (hafter : IsLine after) :
    IsLine (before ++ after) :=
  isLine_iff.mpr (List.forall_mem_append.mpr ⟨isLine_iff.mp hbefore, isLine_iff.mp hafter⟩)

theorem isLine_of_visible {text : Text} (htext : ∀ char ∈ text, 32 ≤ char.toNat) : IsLine text :=
  ⟨fun hmem ↦ absurd (htext _ hmem) (by decide), fun hmem ↦ absurd (htext _ hmem) (by decide)⟩

theorem isLine_encodeSubject (subject : Text) : IsLine (encodeSubject subject) := by
  unfold encodeSubject
  split_ifs with hprintable
  · refine isLine_of_visible fun char hchar ↦ ?_
    have hrange := List.all_eq_true.mp hprintable char hchar
    simp only [Bool.and_eq_true, decide_eq_true_eq] at hrange
    exact hrange.1
  · have hencoded : IsLine (Base64.encode (utf8 subject)) :=
      isLine_of_visible fun char hchar ↦ (Base64.isVisible_of_mem_encode hchar).1.le
    exact (IsLine.append ⟨by decide, by decide⟩ hencoded).append ⟨by decide, by decide⟩

theorem isLine_recipients {recipients : List Text}
    (hrecipients : ∀ recipient ∈ recipients, IsLine recipient) :
    IsLine ([',', ' '].intercalate recipients) :=
  isLine_iff.mpr (forall_mem_intercalate (isLine_iff.mp ⟨by decide, by decide⟩)
    fun recipient hrecipient ↦ isLine_iff.mp (hrecipients recipient hrecipient))

/-- A header is one line that does not begin with a dot. -/
theorem isLine_header (mail : Mail) (stamp : Stamp) :
    ∀ header ∈ headers mail.toSmtpMailOptions stamp.dateHeader stamp.messageId,
      '\r' ∉ header ∧ ∃ first more, header = first :: more ∧ first ≠ '.' := by
  have hnamed : ∀ {first : Char} {name value : Text}, IsLine (first :: name) → IsLine value →
      first ≠ '.' → '\r' ∉ (first :: name) ++ value ∧
        ∃ other more, (first :: name) ++ value = other :: more ∧ other ≠ '.' :=
    fun hname hvalue hfirst ↦ ⟨(hname.append hvalue).1, _, _, rfl, hfirst⟩
  unfold headers
  simp only [List.forall_mem_cons, List.not_mem_nil, false_implies, implies_true]
  refine ⟨hnamed ⟨by decide, by decide⟩ mail.sender_isLine (by decide),
    hnamed ⟨by decide, by decide⟩ (isLine_recipients mail.recipients_isLine) (by decide),
    hnamed ⟨by decide, by decide⟩ (isLine_encodeSubject _) (by decide),
    hnamed ⟨by decide, by decide⟩ stamp.date_isLine (by decide),
    hnamed ⟨by decide, by decide⟩ stamp.id_isLine (by decide), ?_, ?_, ?_, trivial⟩
  · exact ⟨by decide, _, _, rfl, by decide⟩
  · exact ⟨by decide, _, _, rfl, by decide⟩
  · exact ⟨by decide, _, _, rfl, by decide⟩

/-! ### Dots -/

theorem length_unstuffed_le (line : Bytes) : (unstuffed line).length ≤ line.length := by
  unfold unstuffed
  split
  · exact Nat.le_succ _
  · exact le_rfl

theorem unstuffed_eq_iff (line : Bytes) : unstuffed line = line ↔ line.head? ≠ some 46 := by
  unfold unstuffed
  split
  · rename_i line
    exact iff_of_false (fun heq ↦ absurd (congrArg List.length heq) (by simp)) (by simp)
  · rename_i hother
    refine iff_of_true rfl fun hhead ↦ ?_
    obtain ⟨more, hmore⟩ := List.head?_eq_some_iff.mp hhead
    exact hother more hmore

theorem length_joinLines_le (lines : List Bytes) :
    (joinLines 13 10 (lines.map unstuffed)).length ≤ (joinLines 13 10 lines).length := by
  induction lines with
  | nil => exact le_rfl
  | cons line lines ih =>
    have hline := length_unstuffed_le line
    unfold joinLines at *
    simp only [List.map_cons, List.flatMap_cons, List.length_append]
    omega

/-- Dots that are taken off are missed. -/
theorem joinLines_unstuffed_iff (lines : List Bytes) :
    joinLines 13 10 (lines.map unstuffed) = joinLines 13 10 lines ↔
      ∀ line ∈ lines, line.head? ≠ some 46 := by
  constructor
  · intro hjoin
    induction lines with
    | nil => exact nofun
    | cons line lines ih =>
      have hlength := congrArg List.length hjoin
      have hline := length_unstuffed_le line
      have hrest := length_joinLines_le lines
      unfold joinLines at hjoin hlength hrest
      simp only [List.map_cons, List.flatMap_cons, List.length_append] at hjoin hlength
      obtain ⟨hfirst, hmore⟩ := List.append_inj hjoin (by simp; omega)
      refine List.forall_mem_cons.mpr ⟨(unstuffed_eq_iff line).mp ?_, ih hmore⟩
      exact List.append_cancel_right hfirst
  · intro hlines
    have hsame : lines.map unstuffed = lines :=
      (List.map_congr_left fun line hline ↦ (unstuffed_eq_iff line).mpr (hlines line hline)).trans
        (List.map_id lines)
    rw [hsame]

theorem head?_utf8_iff (line : Text) : (utf8 line).head? = some 46 ↔ line.head? = some '.' := by
  cases line with
  | nil => simp [utf8]
  | cons char line =>
    have hdot : String.utf8EncodeChar '.' = [46] := utf8EncodeChar_of_ascii (by decide)
    rw [utf8_cons]
    constructor
    · intro hhead
      obtain ⟨byte, more, hbytes⟩ := List.exists_cons_of_ne_nil
        (String.utf8EncodeChar_ne_nil : String.utf8EncodeChar char ≠ [])
      rw [hbytes, List.cons_append, List.head?_cons, Option.some.injEq] at hhead
      have hmem : (46 : UInt8) ∈ String.utf8EncodeChar char :=
        hbytes ▸ hhead ▸ List.mem_cons_self
      rw [@eq_of_mem_utf8EncodeChar char '.' (by decide) hmem]
      rfl
    · intro hhead
      rw [List.head?_cons, Option.some.injEq] at hhead
      rw [hhead, hdot]
      rfl

/-! ### What arrives -/

section Arrival

variable {headerLines bodyLines : List Bytes}

/-- The end of the data: an empty line, the dot, and nothing behind it. -/
theorem receiveLines_end : receiveLines [[], [46], []] = some { message := [[]], rest := [] } := rfl

theorem receiveLines_of_not_mem (hheaders : ∀ header ∈ headerLines, header.head? ≠ some 46)
    (hbody : [46] ∉ bodyLines) :
    receiveLines (headerLines ++ ([] :: (bodyLines ++ [[], [46], []]))) = some {
      message := headerLines ++ ([] :: (bodyLines.map unstuffed ++ [[]]))
      rest := [] } := by
  have hdot : [46] ∉ headerLines ++ [] :: bodyLines := by
    refine List.mem_append.not.mpr (not_or.mpr ⟨fun hmem ↦ hheaders _ hmem rfl, ?_⟩)
    simpa using hbody
  have hsame : headerLines.map unstuffed = headerLines :=
    (List.map_congr_left fun header hheader ↦
      (unstuffed_eq_iff header).mpr (hheaders header hheader)).trans (List.map_id headerLines)
  have hlines : headerLines ++ ([] :: (bodyLines ++ [[], [46], []])) =
      (headerLines ++ [] :: bodyLines) ++ [[], [46], []] := by
    rw [List.append_assoc]
    rfl
  rw [hlines, receiveLines_append hdot (List.cons_ne_nil _ _), receiveLines_end, Option.map_some,
    List.map_append, hsame]
  simp [unstuffed]

/-- After a line of the HTML that is a dot, the rest of the mail is read as commands. -/
theorem rest_ne_nil_of_mem (hheaders : ∀ header ∈ headerLines, header.head? ≠ some 46)
    (hbody : [46] ∈ bodyLines) {received : Received}
    (hreceived : receiveLines (headerLines ++ ([] :: (bodyLines ++ [[], [46], []]))) =
      some received) : received.rest ≠ [] := by
  obtain ⟨before, after, rfl, hbefore⟩ := List.eq_append_cons_of_mem hbody
  have hdot : [46] ∉ headerLines ++ [] :: before := by
    refine List.mem_append.not.mpr (not_or.mpr ⟨fun hmem ↦ hheaders _ hmem rfl, ?_⟩)
    simpa using hbefore
  have hlines : headerLines ++ ([] :: (before ++ [46] :: after ++ [[], [46], []])) =
      (headerLines ++ [] :: before) ++ [46] :: (after ++ [[], [46], []]) := by
    simp
  have hrest : ([13, 10] : Bytes).intercalate (after ++ [[], [46], []]) ≠ [] := by
    intro hnil
    have hbreak := @intercalate_append_break UInt8 13 10 _
      (List.append_ne_nil_of_right_ne_nil after (List.cons_ne_nil ([] : Bytes) [[46], []]))
    have hlength := congrArg List.length hbreak
    rw [hnil] at hlength
    simp [joinLines] at hlength
  obtain ⟨next, lines, hnext⟩ := List.exists_cons_of_ne_nil
    (List.append_ne_nil_of_right_ne_nil after (List.cons_ne_nil ([] : Bytes) [[46], []]))
  rw [hlines, receiveLines_append hdot (List.cons_ne_nil _ _), hnext, receiveLines, if_pos rfl,
    ← hnext, Option.map_some, Option.some.injEq] at hreceived
  exact hreceived ▸ hrest

/-- The headers and the body of a message. -/
theorem headers_eq (hheaders : ∀ header ∈ headerLines, header ≠ []) (rest : Bytes) :
    (Received.mk (headerLines ++ [] :: bodyLines) rest).headers = headerLines ∧
      (Received.mk (headerLines ++ [] :: bodyLines) rest).body = joinLines 13 10 bodyLines := by
  have hnonempty : ∀ header ∈ headerLines, (!header.isEmpty) = true := by
    intro header hheader
    simpa using hheaders header hheader
  unfold Received.headers Received.body
  dsimp only
  rw [List.takeWhile_append_of_pos hnonempty, List.dropWhile_append_of_pos hnonempty]
  simp

end Arrival

/-- The third header is the subject. -/
theorem subject_eq {mail : SmtpMailOptions} {dateHeader messageId : Text} {received : Received}
    (hheaders : received.headers = (headers mail dateHeader messageId).map utf8)
    (decodeWords : Text → Text) :
    received.subject decodeWords = some (decodeWords (encodeSubject mail.subject)) := by
  have hname : utf8 "Subject: ".toList = [83, 117, 98, 106, 101, 99, 116, 58, 32] := by decide
  have hfrom : utf8 "From: ".toList = [70, 114, 111, 109, 58, 32] := by decide
  have hto : utf8 "To: ".toList = [84, 111, 58, 32] := by decide
  have hfind : received.headers.find? (fun header ↦ (utf8 "Subject: ".toList).isPrefixOf header) =
      some (utf8 ("Subject: ".toList ++ encodeSubject mail.subject)) := by
    rw [hheaders, headers]
    simp only [List.map_cons, List.find?_cons, utf8_append, hname, hfrom, hto, List.cons_append,
      List.isPrefixOf_cons_cons, List.nil_append, beq_self_eq_true, List.isPrefixOf_nil_left,
      Bool.true_and]
    rfl
  have hvalue : fromUtf8 ((utf8 ("Subject: ".toList ++ encodeSubject mail.subject)).drop 9) =
      some (encodeSubject mail.subject) := by
    rw [utf8_append, hname]
    exact fromUtf8_utf8 _
  unfold Received.subject
  rw [hfind, Option.bind_eq_bind, Option.bind_some, hvalue]
  rfl

theorem decodes_subject_iff {decodeWords : Text → Text} (hdecode : DecodesWords decodeWords)
    (subject : Text) : decodeWords (encodeSubject subject) = subject ↔
      (isPrintable subject = true → decodeWords subject = subject) := by
  unfold encodeSubject
  split_ifs with hprintable
  · exact ⟨fun hsame _ ↦ hsame, fun hsame ↦ hsame hprintable⟩
  · exact iff_of_true (hdecode subject (Bool.eq_false_iff.mpr hprintable))
      fun hyes ↦ absurd hyes hprintable

/-- A message arrives as it was meant just when the mail is plain. -/
theorem isFaithfulMail_iff {decodeWords : Text → Text} (hdecode : DecodesWords decodeWords)
    (stamp : Stamp) (mail : Mail) :
    mail.IsFaithful decodeWords stamp ↔ mail.IsPlain decodeWords := by
  have hlines := isLine_header mail stamp
  have hdots : (∀ line ∈ (splitLines '\r' '\n' mail.html).map utf8, line.head? ≠ some 46) ↔
      ∀ line ∈ splitLines '\r' '\n' mail.html, line.head? ≠ some '.' := by
    rw [List.forall_mem_map]
    exact forall₂_congr fun line _ ↦ not_congr (head?_utf8_iff line)
  have hbody : joinLines 13 10 ((splitLines '\r' '\n' mail.html).map utf8) =
      utf8 mail.html ++ [13, 10] := by
    rw [← splitLines_utf8, joinLines_splitLines]
  have hheaderDots : ∀ header ∈ (headers mail.toSmtpMailOptions stamp.dateHeader
      stamp.messageId).map utf8, header ≠ [] ∧ header.head? ≠ some 46 := by
    refine List.forall_mem_map.mpr fun header hheader ↦ ?_
    obtain ⟨-, first, more, rfl, hfirst⟩ := hlines header hheader
    refine ⟨?_, (head?_utf8_iff _).not.mpr (by simpa using hfirst)⟩
    rw [utf8_cons]
    exact List.append_ne_nil_of_left_ne_nil String.utf8EncodeChar_ne_nil _
  have hnonempty := fun header hheader ↦ (hheaderDots header hheader).1
  have hundotted := fun header hheader ↦ (hheaderDots header hheader).2
  unfold Mail.IsFaithful receive
  rw [splitLines_commandBytes _ _ _ fun header hheader ↦ (hlines header hheader).1]
  generalize (splitLines '\r' '\n' mail.html).map utf8 = bodyLines at *
  constructor
  · rintro ⟨received, hreceived, hrest, hheaders, hsubject, hfaithful⟩
    have hdot : [46] ∉ bodyLines := fun hmem ↦
      rest_ne_nil_of_mem hundotted hmem hreceived hrest
    rw [receiveLines_of_not_mem hundotted hdot, Option.some.injEq] at hreceived
    rw [subject_eq hheaders, Option.some.injEq] at hsubject
    rw [← hreceived, (headers_eq hnonempty _).2, joinLines, List.flatMap_append] at hfaithful
    refine ⟨hdots.mp ((joinLines_unstuffed_iff bodyLines).mp ?_),
      (decodes_subject_iff hdecode _).mp hsubject⟩
    rw [hbody]
    exact List.append_cancel_right (hfaithful.trans (by simp) :
      joinLines 13 10 (bodyLines.map unstuffed) ++ [13, 10] =
        (utf8 mail.html ++ [13, 10]) ++ [13, 10])
  · rintro ⟨hhtml, hsubject⟩
    have hundottedBody := hdots.mpr hhtml
    have hdot : [46] ∉ bodyLines := fun hmem ↦ hundottedBody _ hmem rfl
    have hheaders := (@headers_eq _ (bodyLines.map unstuffed ++ [[]]) hnonempty []).1
    refine ⟨_, receiveLines_of_not_mem hundotted hdot, rfl, hheaders, ?_, ?_⟩
    · rw [subject_eq hheaders, (decodes_subject_iff hdecode _).mpr hsubject]
    · rw [(headers_eq hnonempty _).2, joinLines, List.flatMap_append]
      have hjoin := (joinLines_unstuffed_iff bodyLines).mpr hundottedBody
      rw [hbody, joinLines] at hjoin
      rw [hjoin]
      simp

/-! ### Two mails -/

/-- A reader that decodes a text which is one encoded word. -/
def decodeWord (text : Text) : Text :=
  if wordStart.isPrefixOf text && wordEnd.isSuffixOf text then
    let middle := (text.drop wordStart.length).take
      (text.length - wordStart.length - wordEnd.length)
    (fromUtf8 (Base64.decode middle)).getD text
  else text

theorem decodesWords_decodeWord : DecodesWords decodeWord := by
  intro text _
  have hstart : wordStart <+: encodedWord text := ⟨_, (List.append_assoc _ _ _).symm⟩
  have hend : wordEnd <:+ encodedWord text := List.suffix_append _ _
  have hmiddle : ((encodedWord text).drop wordStart.length).take
      ((encodedWord text).length - wordStart.length - wordEnd.length) =
        Base64.encode (utf8 text) := by
    unfold encodedWord
    rw [List.append_assoc, List.drop_left]
    refine List.take_left' ?_
    rw [List.length_append, List.length_append]
    omega
  unfold decodeWord
  rw [List.isPrefixOf_iff_prefix.mpr hstart, List.isSuffixOf_iff_suffix.mpr hend]
  dsimp only
  rw [hmiddle, Base64.decode_encode, fromUtf8_utf8]
  rfl

def firstAlert : Stamp where
  dateHeader := "Wed, 25 Feb 2026 06:13:20 GMT".toList
  messageId := "<1772000000000.00a1b2c3d4e5f607@basic-vms.local>".toList
  date_isLine := by unfold IsLine; decide
  id_isLine := by unfold IsLine; decide

/-- A mail from one sender to one recipient. -/
def alertMail (subject html : Text) : Mail where
  sender := "vms@example.org".toList
  recipients := ["guard@example.org".toList]
  subject := subject
  html := html
  sender_isLine := by unfold IsLine; decide
  recipients_isLine := List.forall_mem_singleton.mpr (by unfold IsLine; decide)

theorem isFaithful_alertMail :
    (alertMail ['T', 'ü', 'r'] ['<', 'p', '>', '\r', '\n']).IsFaithful decodeWord firstAlert := by
  refine (isFaithfulMail_iff decodesWords_decodeWord firstAlert _).mpr ⟨?_, ?_⟩
  · have hlines : splitLines '\r' '\n' ['<', 'p', '>', '\r', '\n'] = [['<', 'p', '>'], []] := rfl
    change ∀ line ∈ splitLines '\r' '\n' ['<', 'p', '>', '\r', '\n'], line.head? ≠ some '.'
    rw [hlines]
    exact List.forall_mem_cons.mpr ⟨by decide, List.forall_mem_singleton.mpr (by decide)⟩
  · exact fun hprintable ↦ absurd hprintable (by decide)

/-- The mail ends in the middle, and what is behind the dot is read as commands. -/
theorem not_isFaithful_dot : DecodesWords decodeWord ∧
    ¬ (alertMail ['T', 'o', 'r'] ['.', '\r', '\n', 'R', 'S', 'E', 'T']).IsFaithful decodeWord
      firstAlert := by
  refine ⟨decodesWords_decodeWord, ?_⟩
  rintro ⟨received, hreceived, hrest, -⟩
  have hlines := isLine_header
    (alertMail ['T', 'o', 'r'] ['.', '\r', '\n', 'R', 'S', 'E', 'T']) firstAlert
  have hsplit : splitLines '\r' '\n' ['.', '\r', '\n', 'R', 'S', 'E', 'T'] =
      [['.'], ['R', 'S', 'E', 'T']] := rfl
  have hbytes : utf8 ['.'] = [46] := by decide
  rw [receive, splitLines_commandBytes _ _ _ fun header hheader ↦ (hlines header hheader).1]
    at hreceived
  refine rest_ne_nil_of_mem (List.forall_mem_map.mpr fun header hheader ↦ ?_) ?_ hreceived hrest
  · obtain ⟨-, first, more, rfl, hfirst⟩ := hlines header hheader
    exact (head?_utf8_iff _).not.mpr (by simpa using hfirst)
  · change [46] ∈ (splitLines '\r' '\n' ['.', '\r', '\n', 'R', 'S', 'E', 'T']).map utf8
    rw [hsplit, ← hbytes]
    exact List.mem_map_of_mem List.mem_cons_self

end VmsLite.Notifications.Smtp
