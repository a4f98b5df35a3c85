import Mathlib.Data.List.TakeWhile
import VmsLite.Data.Buffer
import VmsLite.Data.Utf8
import VmsLite.Media.RtspUrl

/-!
# The tar archive of a backup

`buildTarGz` and `extractTarGz`, which write and read an archive without a library. Each file is a
header of 512 bytes and its content, filled up with zeros to the next block; two blocks of zeros are
the end. What gzip and `toString('utf-8')` do is a parameter. The writer cuts a name off after as
many bytes as it has units, and the reader leaves out a file that is empty (`found`).
-/

set_option autoImplicit false

namespace VmsLite.Backups.Archive

open Data Data.Buffer
open Url (Text)

/-! ### Numbers in octal -/

/-- `toString(8)`, filled up with zeros. -/
def octal (width number : ℕ) : Text := (Nat.toDigits 8 number).leftpad width '0'

def isOctalDigit (char : Char) : Bool := '0' ≤ char && char ≤ '7'

/-- What `parseInt` finds of a number after its sign. -/
def octalNumber (text : Text) : Option ℕ :=
  let digits := text.takeWhile isOctalDigit
  if digits = [] then none else some (Nat.ofDigitChars 8 digits 0)

/-- `parseInt(text, 8)`, of a text without blanks around it. -/
def parseOctal : Text → Option ℤ
  | '-' :: text => (octalNumber text).map fun number ↦ -(number : ℤ)
  | '+' :: text => (octalNumber text).map fun number ↦ (number : ℤ)
  | text => (octalNumber text).map fun number ↦ (number : ℤ)

theorem isOctalDigit_of_mem_toDigits (number : ℕ) :
    ∀ char ∈ Nat.toDigits 8 number, isOctalDigit char = true := by
  have hdigit : ∀ digit < 8, isOctalDigit (Nat.digitChar digit) = true := by decide
  induction number using Nat.strong_induction_on with
  | _ number ih =>
    intro char hchar
    rw [Nat.toDigits_eq_if (by decide)] at hchar
    split_ifs at hchar with hsmall
    · rw [List.mem_singleton.mp hchar]
      exact hdigit _ hsmall
    · rcases List.mem_append.mp hchar with hfront | hlast
      · exact ih (number / 8) (Nat.div_lt_self (by omega) (by decide)) char hfront
      · rw [List.mem_singleton.mp hlast]
        exact hdigit _ (Nat.mod_lt _ (by decide))

theorem isOctalDigit_of_mem_octal {width number : ℕ} :
    ∀ char ∈ octal width number, isOctalDigit char = true := by
  intro char hchar
  rcases List.mem_append.mp hchar with hzero | hdigit
  · rw [List.eq_of_mem_replicate hzero]
    rfl
  · exact isOctalDigit_of_mem_toDigits number char hdigit

theorem length_octal {width number : ℕ} (hwidth : 0 < width) (hnumber : number < Nat.pow 8 width) :
    (octal width number).length = width := by
  have hdigits := (Nat.length_toDigits_le_iff (by decide) hwidth).mpr hnumber
  unfold octal List.leftpad
  rw [List.length_append, List.length_replicate, Nat.sub_add_cancel hdigits]

theorem parseOctal_of_digit {char : Char} {chars : Text} (hchar : isOctalDigit char = true) :
    parseOctal (char :: chars) = (octalNumber (char :: chars)).map fun number ↦ (number : ℤ) := by
  have hminus : char ≠ '-' := by
    rintro rfl
    exact absurd hchar (by decide)
  have hplus : char ≠ '+' := by
    rintro rfl
    exact absurd hchar (by decide)
  unfold parseOctal
  split
  · exact absurd (List.cons.inj ‹_›).1 hminus
  · exact absurd (List.cons.inj ‹_›).1 hplus
  · rfl

/-- A number that was filled up with zeros is read back. -/
theorem parseOctal_octal {width : ℕ} (number : ℕ) :
    parseOctal (octal width number) = some (number : ℤ) := by
  have hdigits : ∀ char ∈ octal width number, isOctalDigit char = true :=
    isOctalDigit_of_mem_octal
  have hvalue : Nat.ofDigitChars 8 (octal width number) 0 = number := by
    unfold octal List.leftpad
    rw [Nat.ofDigitChars_append, Nat.ofDigitChars_replicate_zero, Nat.mul_zero,
      Nat.ofDigitChars_toDigits (by decide) (by decide)]
  have hne : octal width number ≠ [] := by
    intro hempty
    exact Nat.toDigits_ne_nil (List.append_eq_nil_iff.mp hempty).2
  have hnumber : octalNumber (octal width number) = some number := by
    unfold octalNumber
    rw [List.takeWhile_eq_self_iff.mpr hdigits]
    exact (if_neg hne).trans (congrArg some hvalue)
  cases hchars : octal width number with
  | nil => exact (hne hchars).elim
  | cons char chars =>
    rw [parseOctal_of_digit (hdigits char (hchars ▸ List.mem_cons_self)), ← hchars, hnumber]
    rfl

/-! ### The writer -/

structure TarFile where
  name : Text
  content : Bytes
  deriving DecidableEq, Repr

/-- What fills a content up to the next block. -/
def paddingSize (size : ℕ) : ℕ := (512 - size % 512) % 512

/-- `write(text, offset, limit, 'utf-8')`: a character that does not fit is left out. -/
def field (offset limit : ℕ) (text : Text) : ℕ × Bytes := (offset, utf8 (fitting limit text))

/-- A name as the header holds it: the number of bytes is limited by the number of units. -/
def writtenName (name : Text) : Text :=
  fitting (if utf16Length name ≤ 100 then utf16Length name else 100) name

/-- The fields of a header that are written before its checksum is known. -/
def headerFields (file : TarFile) (now : ℕ) : List (ℕ × Bytes) :=
  [(0, utf8 (writtenName file.name)),
    field 100 8 "0000644\x00".toList,
    field 108 8 "0000000\x00".toList,
    field 116 8 "0000000\x00".toList,
    field 124 12 (octal 11 file.content.length ++ ['\x00']),
    field 136 12 (octal 11 now ++ ['\x00']),
    field 148 8 "        ".toList,
    field 156 1 "0".toList,
    field 257 6 "ustar\x00".toList,
    field 263 2 "00".toList]

def checksum (header : Bytes) : ℕ := header.foldl (fun sum byte ↦ sum + byte.toNat) 0

/-- The header of a file, at a time in seconds. -/
def tarHeader (file : TarFile) (now : ℕ) : Bytes :=
  let header := writeAll (List.replicate 512 0) (headerFields file now)
  write header (field 148 8 (octal 6 (checksum header) ++ ['\x00', ' '])).2 148

def createTarEntry (now : ℕ) (file : TarFile) : Bytes :=
  tarHeader file now ++ file.content ++ List.replicate (paddingSize file.content.length) 0

/-- The archive before it is compressed. -/
def buildTar (now : ℕ) (files : List TarFile) : Bytes :=
  files.flatMap (createTarEntry now) ++ List.replicate 1024 0

/-! ### The reader -/

/-- A map whose entries set later stand before those set earlier. -/
abbrev Files := List (Text × Bytes)

inductive ExtractError
  | decompression
  | entrySize (name : Text)
  deriving DecidableEq, Repr

def ExtractError.message : ExtractError → String
  | .decompression => "Invalid gzip archive: decompression failed"
  | .entrySize name => "Invalid tar entry size for \"" ++ String.ofList name ++ "\""

/-- What the platform provides: gzip, gunzip and `toString('utf-8')`. -/
structure Platform where
  gzip : Bytes → Bytes
  gunzip : Bytes → Option Bytes
  decode : Bytes → Text

namespace Platform

variable (platform : Platform)

def entryName (header : Bytes) : Text := platform.decode ((header.takeWhile (· ≠ 0)).take 100)

def entrySize (header : Bytes) : Option ℤ :=
  parseOctal (Media.trim (platform.decode (subarray header 124 135)))

/-- The loop of `extractTarGz`. -/
def extractEntries (tarBuffer : Bytes) (files : Files) : Except ExtractError Files :=
  if tarBuffer.length < 512 then .ok files
  else
    let header := tarBuffer.take 512
    if header.all (· = 0) then .ok files
    else
      match platform.entrySize header with
      | none => .error (.entrySize (platform.entryName header))
      | some size =>
        if size < 0 then .error (.entrySize (platform.entryName header))
        else
          let rest := tarBuffer.drop 512
          if 0 < size then
            extractEntries (rest.drop (size.toNat + paddingSize size.toNat))
              ((platform.entryName header, rest.take size.toNat) :: files)
          else extractEntries rest files
termination_by tarBuffer.length
decreasing_by
  all_goals
    simp only [List.length_drop]
    omega

def buildTarGz (now : ℕ) (files : List TarFile) : Bytes := platform.gzip (buildTar now files)

def extractTarGz (archive : Bytes) : Except ExtractError Files :=
  match platform.gunzip archive with
  | none => .error .decompression
  | some tarBuffer => platform.extractEntries tarBuffer []

end Platform

/-! ### Headers -/

/-- A file that an entry of the archive can hold. -/
structure Archivable (file : TarFile) : Prop where
  name_ne_nil : file.name ≠ []
  name_length : (utf8 file.name).length ≤ 100
  name_ne_zero : ∀ char ∈ file.name, char ≠ '\x00'
  content_length : file.content.length < 8589934592

section Written

variable {file : TarFile}

theorem length_writtenName_le (name : Text) : (utf8 (writtenName name)).length ≤ 100 := by
  unfold writtenName
  split_ifs with hshort
  · exact (length_utf8_fitting_le _ name).trans hshort
  · exact length_utf8_fitting_le _ name

theorem fits_headerFields (file : TarFile) (now : ℕ) : Fits 512 (headerFields file now) := by
  have hname : (utf8 (writtenName file.name)).length ≤ 100 := length_writtenName_le _
  have hfield : ∀ offset limit text, offset + limit ≤ 512 →
      (field offset limit text).1 + (field offset limit text).2.length ≤ 512 :=
    fun offset limit text hlimit ↦
      (Nat.add_le_add_left (length_utf8_fitting_le limit text) offset).trans hlimit
  intro part hpart
  simp only [headerFields, List.mem_cons, List.not_mem_nil, or_false] at hpart
  rcases hpart with rfl | rfl | rfl | rfl | rfl | rfl | rfl | rfl | rfl | rfl
  · exact (Nat.zero_add _).le.trans (hname.trans (by decide))
  all_goals exact hfield _ _ _ (by decide)

theorem length_headerFields (file : TarFile) (now : ℕ) :
    (writeAll (List.replicate 512 0) (headerFields file now)).length = 512 :=
  (length_writeAll (by rw [List.length_replicate]; exact fits_headerFields file now)).trans
    List.length_replicate

theorem length_tarHeader (file : TarFile) (now : ℕ) : (tarHeader file now).length = 512 := by
  have hfields := length_headerFields file now
  have hbytes := length_utf8_fitting_le 8
    (octal 6 (checksum (writeAll (List.replicate 512 0) (headerFields file now))) ++ ['\x00', ' '])
  refine (length_write ?_).trans hfields
  rw [hfields]
  exact (Nat.add_le_add_left hbytes 148).trans (by decide)

/-- The checksum is written behind the fields that the reader looks at. -/
theorem subarray_tarHeader {start stop : ℕ} (hstop : stop ≤ 148) (now : ℕ) :
    subarray (tarHeader file now) start stop =
      subarray (writeAll (List.replicate 512 0) (headerFields file now)) start stop :=
  subarray_write_of_le hstop (by rw [length_headerFields]; decide)

/-- A field holds what was written, when the later ones stand behind it. -/
theorem subarray_headerField {now : ℕ} {before after : List (ℕ × Bytes)} {offset : ℕ}
    {bytes : Bytes} (hfields : headerFields file now = before ++ (offset, bytes) :: after)
    (hlater : ∀ part ∈ after, offset + bytes.length ≤ part.1)
    (hstop : offset + bytes.length ≤ 148) :
    subarray (tarHeader file now) offset (offset + bytes.length) = bytes := by
  rw [subarray_tarHeader hstop, hfields]
  refine subarray_writeAll ?_ fun part hpart ↦ Or.inl (hlater part hpart)
  rw [List.length_replicate, ← hfields]
  exact fits_headerFields file now

/-- The name stands before the other fields, over zeros. -/
theorem subarray_name (file : TarFile) (now : ℕ) :
    subarray (tarHeader file now) 0 100 = utf8 (writtenName file.name) ++
      List.replicate (100 - (utf8 (writtenName file.name)).length) 0 := by
  have hshort := length_writtenName_le file.name
  have hwrite : write (List.replicate 512 0) (utf8 (writtenName file.name)) 0 =
      utf8 (writtenName file.name) ++
        List.replicate (512 - (utf8 (writtenName file.name)).length) 0 := by
    unfold write
    rw [List.take_zero, List.nil_append, List.drop_replicate, Nat.zero_add]
  have hlength : (write (List.replicate 512 0) (utf8 (writtenName file.name)) 0).length = 512 := by
    rw [hwrite, List.length_append, List.length_replicate]
    omega
  have hfields : headerFields file now =
      (0, utf8 (writtenName file.name)) :: (headerFields file now).tail := rfl
  rw [subarray_tarHeader (by decide), hfields, writeAll_cons, subarray_writeAll_of_apart]
  · unfold subarray
    rw [hwrite, List.drop_zero, List.take_append, List.take_of_length_le hshort,
      List.take_replicate]
    congr 2
    omega
  · rw [hlength]
    exact fun part hpart ↦ fits_headerFields file now part (List.mem_of_mem_tail hpart)
  · intro part hpart
    simp only [headerFields, List.tail_cons, List.mem_cons, List.not_mem_nil, or_false] at hpart
    rcases hpart with rfl | rfl | rfl | rfl | rfl | rfl | rfl | rfl | rfl <;>
      exact Or.inl (Nat.le_of_ble_eq_true rfl)

theorem subarray_mode (file : TarFile) (now : ℕ) :
    subarray (tarHeader file now) 100 108 = utf8 "0000644\x00".toList := by
  have hmode := @subarray_headerField file now [_] _ 100 (utf8 "0000644\x00".toList) rfl ?_
    (by decide)
  · exact hmode
  · intro part hpart
    simp only [List.mem_cons, List.not_mem_nil, or_false] at hpart
    rcases hpart with rfl | rfl | rfl | rfl | rfl | rfl | rfl | rfl <;>
      exact Nat.le_of_ble_eq_true rfl

theorem isAscii_of_mem_octal {width number : ℕ} :
    ∀ char ∈ octal width number, isAscii char = true := by
  intro char hchar
  have hdigit := isOctalDigit_of_mem_octal char hchar
  unfold isOctalDigit at hdigit
  rw [Bool.and_eq_true, decide_eq_true_eq, decide_eq_true_eq] at hdigit
  exact decide_eq_true (lt_of_le_of_lt (UInt32.le_iff_toNat_le.mp hdigit.2) (by decide))

theorem subarray_size (hfile : Archivable file) (now : ℕ) :
    subarray (tarHeader file now) 124 135 = utf8 (octal 11 file.content.length) := by
  have hdigits : (utf8 (octal 11 file.content.length)).length = 11 :=
    (length_utf8_of_ascii isAscii_of_mem_octal).trans
      (length_octal (by decide) hfile.content_length)
  have hlength : (utf8 (octal 11 file.content.length ++ ['\x00'])).length = 12 := by
    rw [utf8_append, List.length_append, hdigits]
    rfl
  have hfitting := fitting_eq_self_iff.mpr hlength.le
  have hsize := @subarray_headerField file now [_, _, _, _] _ 124 _ rfl ?_ ?_
  · rw [hfitting, hlength] at hsize
    have hpart := @subarray_eq_take (tarHeader file now) 124 (124 + 12) 11 (by decide)
    rw [hsize, utf8_append] at hpart
    exact hpart.trans (List.take_left' hdigits)
  · rw [hfitting, hlength]
    intro part hpart
    simp only [List.mem_cons, List.not_mem_nil, or_false] at hpart
    rcases hpart with rfl | rfl | rfl | rfl | rfl <;> exact Nat.le_of_ble_eq_true rfl
  · rw [hfitting, hlength]
    decide

end Written

/-! ### Entries -/

namespace Platform

variable {platform : Platform} {file : TarFile}

/-- Well-formed UTF-8 is decoded. -/
def DecodesUtf8 (platform : Platform) : Prop := ∀ text : Text, platform.decode (utf8 text) = text

/-- One round of the loop. -/
theorem extractEntries_entry {tarBuffer : Bytes} {size : ℕ} (hlength : 512 ≤ tarBuffer.length)
    (hset : (tarBuffer.take 512).all (· = 0) = false)
    (hsize : platform.entrySize (tarBuffer.take 512) = some (size : ℤ)) (files : Files) :
    platform.extractEntries tarBuffer files =
      platform.extractEntries ((tarBuffer.drop 512).drop (size + paddingSize size))
        (if size = 0 then files else
          (platform.entryName (tarBuffer.take 512), (tarBuffer.drop 512).take size) :: files) := by
  rw [extractEntries, if_neg hlength.not_gt]
  simp only [hset, Bool.false_eq_true, if_false, hsize]
  rw [if_neg (Int.natCast_nonneg _).not_gt]
  by_cases hzero : size = 0
  · subst hzero
    rw [if_neg (by decide), if_pos rfl]
    rfl
  · rw [if_pos (Int.natCast_pos.mpr (Nat.pos_of_ne_zero hzero)), if_neg hzero, Int.toNat_natCast]

theorem isOctalDigit_bounds {char : Char} (hchar : isOctalDigit char = true) :
    48 ≤ char.toNat ∧ char.toNat ≤ 55 := by
  unfold isOctalDigit at hchar
  rw [Bool.and_eq_true, decide_eq_true_eq, decide_eq_true_eq] at hchar
  exact hchar

theorem not_isBlank_of_isOctalDigit {char : Char} (hchar : isOctalDigit char = true) :
    Media.isBlank char = false := by
  have hbounds := isOctalDigit_bounds hchar
  simp only [Media.isBlank, Bool.or_eq_false_iff, Bool.and_eq_false_iff, decide_eq_false_iff_not]
  omega

theorem entrySize_tarHeader (hdecode : platform.DecodesUtf8) (hfile : Archivable file) (now : ℕ) :
    platform.entrySize (tarHeader file now) = some (file.content.length : ℤ) := by
  unfold entrySize
  rw [subarray_size hfile, hdecode, Media.trim_of_forall, parseOctal_octal]
  exact fun char hchar ↦ not_isBlank_of_isOctalDigit (isOctalDigit_of_mem_octal char hchar)

/-- The name ends with the first zero, or with its field. -/
theorem entryName_tarHeader (hdecode : platform.DecodesUtf8) (hfile : Archivable file) (now : ℕ) :
    platform.entryName (tarHeader file now) = writtenName file.name := by
  have hname := subarray_name file now
  unfold subarray at hname
  rw [List.drop_zero] at hname
  have hset : ∀ byte ∈ utf8 (writtenName file.name), (decide (byte ≠ 0)) = true := by
    refine fun byte hbyte ↦ decide_eq_true ?_
    rintro rfl
    obtain ⟨char, hchar, hzero⟩ := exists_of_mem_utf8 hbyte (by decide)
    refine hfile.name_ne_zero char ((fitting_isPrefix _ _).subset hchar) ?_
    exact Char.ext (UInt32.toNat_inj.mp hzero)
  unfold entryName
  rw [List.take_takeWhile, hname, List.takeWhile_append_of_pos hset, List.takeWhile_replicate]
  simp only [ne_eq, not_true_eq_false, decide_false, Bool.false_eq_true, if_false,
    List.append_nil]
  exact hdecode _

theorem not_all_tarHeader (file : TarFile) (now : ℕ) :
    (tarHeader file now).all (· = 0) = false := by
  have hmode : (subarray (tarHeader file now) 100 108).any (fun byte ↦ decide (byte ≠ 0)) =
      true := by
    rw [subarray_mode]
    rfl
  obtain ⟨byte, hbyte, hne⟩ := List.any_eq_true.mp (any_of_subarray hmode)
  rw [← Bool.not_eq_true, List.all_eq_true]
  exact fun hall ↦ of_decide_eq_true hne (of_decide_eq_true (hall byte hbyte))

/-- The files that the reader finds, those set later first. -/
def found (archived : List TarFile) : Files :=
  ((archived.filter fun file ↦ file.content ≠ []).map fun file ↦
    (writtenName file.name, file.content)).reverse

theorem extractEntries_createTarEntry (hdecode : platform.DecodesUtf8) (hfile : Archivable file)
    (now : ℕ) (rest : Bytes) (files : Files) :
    platform.extractEntries (createTarEntry now file ++ rest) files =
      platform.extractEntries rest (found [file] ++ files) := by
  have hentry : createTarEntry now file ++ rest = tarHeader file now ++ (file.content ++
      (List.replicate (paddingSize file.content.length) 0 ++ rest)) := by
    unfold createTarEntry
    rw [List.append_assoc, List.append_assoc]
  have hheader : (createTarEntry now file ++ rest).take 512 = tarHeader file now := by
    rw [hentry, List.take_left' (length_tarHeader file now)]
  have hbody : (createTarEntry now file ++ rest).drop 512 =
      file.content ++ (List.replicate (paddingSize file.content.length) 0 ++ rest) := by
    rw [hentry, List.drop_left' (length_tarHeader file now)]
  have hlength : 512 ≤ (createTarEntry now file ++ rest).length := by
    rw [hentry, List.length_append, length_tarHeader]
    exact Nat.le_add_right _ _
  have hset : ((createTarEntry now file ++ rest).take 512).all (· = 0) = false := by
    rw [hheader]
    exact not_all_tarHeader file now
  have hsize : platform.entrySize ((createTarEntry now file ++ rest).take 512) =
      some (file.content.length : ℤ) := by
    rw [hheader]
    exact entrySize_tarHeader hdecode hfile now
  rw [extractEntries_entry hlength hset hsize, hheader, hbody,
    entryName_tarHeader hdecode hfile, ← List.drop_drop, List.drop_left' rfl,
    List.drop_left' List.length_replicate, List.take_left' rfl]
  refine congrArg (platform.extractEntries rest) ?_
  unfold found
  by_cases hempty : file.content = []
  · rw [if_pos (List.length_eq_zero_iff.mpr hempty),
      List.filter_cons_of_neg (by simpa using hempty)]
    rfl
  · rw [if_neg (fun hzero ↦ hempty (List.length_eq_zero_iff.mp hzero)),
      List.filter_cons_of_pos (by simpa using hempty)]
    rfl

/-- Two blocks of zeros end the archive. -/
theorem extractEntries_end (files : Files) :
    platform.extractEntries (List.replicate 1024 0) files = .ok files := by
  have hzero : ((List.replicate 1024 (0 : UInt8)).take 512).all (· = 0) = true := by
    rw [List.take_replicate, List.all_replicate]
    rfl
  rw [extractEntries, if_neg (by rw [List.length_replicate]; decide), if_pos hzero]

theorem found_cons (file : TarFile) (archived : List TarFile) :
    found (file :: archived) = found archived ++ found [file] := by
  unfold found
  by_cases hempty : file.content = []
  · rw [List.filter_cons_of_neg (by simpa using hempty),
      List.filter_cons_of_neg (by simpa using hempty)]
    exact (List.append_nil _).symm
  · rw [List.filter_cons_of_pos (by simpa using hempty),
      List.filter_cons_of_pos (by simpa using hempty), List.map_cons, List.reverse_cons]
    rfl

/-- What is read from an archive that was built. -/
theorem extractEntries_build (hdecode : platform.DecodesUtf8) {archived : List TarFile}
    (harchived : ∀ file ∈ archived, Archivable file) (now : ℕ) (files : Files) :
    platform.extractEntries (buildTar now archived) files = .ok (found archived ++ files) := by
  unfold buildTar
  induction archived generalizing files with
  | nil => exact extractEntries_end files
  | cons file archived ih =>
    rw [List.flatMap_cons, List.append_assoc,
      extractEntries_createTarEntry hdecode (harchived file List.mem_cons_self),
      ih (fun other hother ↦ harchived other (List.mem_cons_of_mem _ hother)),
      found_cons file archived, List.append_assoc]

end Platform

end VmsLite.Backups.Archive
