import VmsLite.Data.LittleEndian
import VmsLite.Data.Utf8

/-!
# ZIP archives

`buildZipArchive` writes every entry without compression: a local header with the contents behind
it, then the central directory, then the end record (`buildZipArchive_eq_some_iff`). `readArchive`
is a reader of such archives: it looks for the end record from the end of the archive, walks the
central directory and reads every local entry, and refuses an archive whose headers, offsets, sizes
or checksums disagree. `crc32` is the function of the platform.
-/

set_option autoImplicit false

namespace VmsLite.Exports.Zip

open Data Data.LittleEndian

/-! ### The builder -/

/-- The fields of a date in local time. The last year of a date is 275760. -/
structure LocalDate where
  fullYear : ℤ
  month : ℕ
  date : ℕ
  hours : ℕ
  minutes : ℕ
  seconds : ℕ
  fullYear_le : fullYear ≤ 275760
  month_lt : month < 12
  date_lt : date < 32
  hours_lt : hours < 24
  minutes_lt : minutes < 60
  seconds_lt : seconds < 60

inductive Date
  /-- The fields of an invalid date are `NaN`. -/
  | invalid
  | valid (fields : LocalDate)

inductive Contents
  | buffer (bytes : Bytes)
  | text (text : List Char)

def Contents.bytes : Contents → Bytes
  | .buffer data => data
  | .text chars => utf8 chars

structure ZipEntry where
  name : List Char
  data : Contents
  date : Option Date := none

structure DosTime where
  time : ℕ
  date : ℕ

def dateToDosTime : Date → DosTime
  -- The bit operators take `NaN` for zero
  | .invalid => { time := 0, date := 0 }
  | .valid d =>
    let year := (d.fullYear - 1980).toNat
    { time := d.hours <<< 11 ||| d.minutes <<< 5 ||| d.seconds / 2
      date := year <<< 9 ||| (d.month + 1) <<< 5 ||| d.date }

/-- What the headers of an entry are written from. -/
structure Member where
  filename : Bytes
  data : Bytes
  crc : ℕ
  modified : DosTime

def ZipEntry.member (crc32 : Bytes → UInt32) (now : LocalDate) (entry : ZipEntry) : Member where
  filename := utf8 entry.name
  data := entry.data.bytes
  crc := (crc32 entry.data.bytes).toNat
  modified := dateToDosTime (entry.date.getD (.valid now))

namespace Member

variable (member : Member)

def localFields : List Field :=
  [ uint32 0x04034b50 0
  , uint16 20 4
  , uint16 0x0800 6
  , uint16 0 8
  , uint16 member.modified.time 10
  , uint16 member.modified.date 12
  , uint32 member.crc 14
  , uint32 member.data.length 18
  , uint32 member.data.length 22
  , uint16 member.filename.length 26
  , uint16 0 28 ]

def centralFields (offset : ℕ) : List Field :=
  [ uint32 0x02014b50 0
  , uint16 20 4
  , uint16 20 6
  , uint16 0x0800 8
  , uint16 0 10
  , uint16 member.modified.time 12
  , uint16 member.modified.date 14
  , uint32 member.crc 16
  , uint32 member.data.length 20
  , uint32 member.data.length 24
  , uint16 member.filename.length 28
  , uint16 0 30
  , uint16 0 32
  , uint16 0 34
  , uint16 0 36
  , uint32 (0o100644 <<< 16) 38
  , uint32 offset 42 ]

end Member

def endFields (count size offset : ℕ) : List Field :=
  [ uint32 0x06054b50 0
  , uint16 0 4
  , uint16 0 6
  , uint16 count 8
  , uint16 count 10
  , uint32 size 12
  , uint32 offset 16
  , uint16 0 20 ]

/-- A buffer with fields and, behind them, a file name. -/
def header (size : ℕ) (fields : List Field) (filename : Bytes) : Option Bytes :=
  (writeFields (List.replicate (size + filename.length) 0) fields).map fun buffer ↦
    Buffer.write buffer filename size

structure Chunks where
  localChunks : List Bytes := []
  centralChunks : List Bytes := []
  currentOffset : ℕ := 0

/-- One round of the loop. -/
def addMember (chunks : Chunks) (member : Member) : Option Chunks := do
  let localHeader ← header 30 member.localFields member.filename
  let centralHeader ← header 46 (member.centralFields chunks.currentOffset) member.filename
  return {
    localChunks := chunks.localChunks ++ [localHeader, member.data]
    centralChunks := chunks.centralChunks ++ [centralHeader]
    currentOffset := chunks.currentOffset + (localHeader.length + member.data.length) }

/-- The archive of some entries, when no number is out of range. `clock` gives the time at which the
loop takes up each entry. -/
def buildZipArchive (crc32 : Bytes → UInt32) (clock : ℕ → LocalDate) (entries : List ZipEntry) :
    Option Bytes := do
  let chunks ← entries.zipIdx.foldlM (fun chunks (entry, index) ↦
    addMember chunks (entry.member crc32 (clock index))) {}
  let centralDirectory := chunks.centralChunks.flatten
  let eocd ← writeFields (List.replicate 22 0)
    (endFields entries.length centralDirectory.length chunks.currentOffset)
  return chunks.localChunks.flatten ++ centralDirectory ++ eocd

/-! ### The reader -/

/-- What the two headers of an entry have in common. -/
structure Header where
  version : ℕ
  flags : ℕ
  method : ℕ
  time : ℕ
  date : ℕ
  crc : ℕ
  compressedSize : ℕ
  size : ℕ
  name : Bytes
  deriving DecidableEq

def readLocal (bytes : Bytes) : Option (Header × Bytes) :=
  match readFields [4, 2, 2, 2, 2, 2, 4, 4, 4, 2, 2] bytes with
  | some ([signature, version, flags, method, time, date, crc, compressedSize, size, nameLength,
      extraLength], rest) =>
    if signature = 0x04034b50 ∧ nameLength + extraLength ≤ rest.length then
      some ({ version, flags, method, time, date, crc, compressedSize, size,
              name := rest.take nameLength },
        rest.drop (nameLength + extraLength))
    else none
  | _ => none

/-- A record of the central directory, with the offset of its local header. -/
def readCentral (bytes : Bytes) : Option (Header × ℕ × Bytes) :=
  match readFields [4, 2, 2, 2, 2, 2, 2, 4, 4, 4, 2, 2, 2, 2, 2, 4, 4] bytes with
  | some ([signature, _, version, flags, method, time, date, crc, compressedSize, size, nameLength,
      extraLength, commentLength, disk, _, _, offset], rest) =>
    if signature = 0x02014b50 ∧ disk = 0 ∧
        nameLength + extraLength + commentLength ≤ rest.length then
      some ({ version, flags, method, time, date, crc, compressedSize, size,
              name := rest.take nameLength },
        offset, rest.drop (nameLength + extraLength + commentLength))
    else none
  | _ => none

structure EndRecord where
  count : ℕ
  size : ℕ
  offset : ℕ

/-- The end record at an offset, when it and its comment reach up to the end of the archive and the
central directory reaches up to it. -/
def readEnd (archive : Bytes) (position : ℕ) : Option EndRecord :=
  match readFields [4, 2, 2, 2, 2, 4, 4, 2] (archive.drop position) with
  | some ([signature, disk, directoryDisk, countHere, count, size, offset, commentLength], rest) =>
    if signature = 0x06054b50 ∧ disk = 0 ∧ directoryDisk = 0 ∧ countHere = count ∧
        offset + size = position ∧ rest.length = commentLength then
      some { count, size, offset }
    else none
  | _ => none

/-- The end record, looked for from the end of the archive. -/
def findEnd (archive : Bytes) : Option EndRecord :=
  (List.range (archive.length - 21)).reverse.findSome? (readEnd archive)

/-- The name and the contents of an entry that is not compressed, from its local header, which must
agree with the record of the central directory, and what is behind them. -/
def readEntry (crc32 : Bytes → UInt32) (central : Header) (bytes : Bytes) :
    Option ((List Char × Bytes) × Bytes) :=
  match readLocal bytes with
  | none => none
  | some (header, rest) =>
    let data := rest.take header.size
    if header = central ∧ header.flags = 0x0800 ∧ header.method = 0 ∧
        header.compressedSize = header.size ∧ header.size ≤ rest.length ∧
          (crc32 data).toNat = header.crc then
      (fromUtf8 header.name).map fun name ↦ ((name, data), rest.drop header.size)
    else none

/-- The entries of a central directory. Each local header must stand where the entry before it ends,
and the last entry must end where the central directory begins. -/
def readEntries (crc32 : Bytes → UInt32) (archive : Bytes) (stop : ℕ) :
    ℕ → ℕ → Bytes → Option (List (List Char × Bytes))
  | 0, position, directory => if directory = [] ∧ position = stop then some [] else none
  | count + 1, position, directory => do
    let (central, offset, directory) ← readCentral directory
    if offset = position then
      let (entry, rest) ← readEntry crc32 central (archive.drop offset)
      let entries ← readEntries crc32 archive stop count (archive.length - rest.length) directory
      return entry :: entries
    else none

def readArchive (crc32 : Bytes → UInt32) (archive : Bytes) :
    Option (List (List Char × Bytes)) := do
  let last ← findEnd archive
  readEntries crc32 archive last.offset last.count 0
    (Buffer.subarray archive last.offset (last.offset + last.size))

/-! ### What is written -/

namespace Member

variable (member : Member)

/-- Whether the numbers in the headers of an entry are in range. -/
structure IsWritable (member : Member) : Prop where
  time_lt : member.modified.time < 65536
  date_lt : member.modified.date < 65536
  crc_lt : member.crc < 4294967296
  size_lt : member.data.length < 4294967296
  name_lt : member.filename.length < 65536

/-- A local header with the contents behind it. -/
def localRecord : Bytes := fieldBytes member.localFields ++ member.filename ++ member.data

def centralRecord (offset : ℕ) : Bytes :=
  fieldBytes (member.centralFields offset) ++ member.filename

theorem totalWidth_localFields : totalWidth member.localFields = 30 := by
  simp only [localFields, totalWidth, uint16, uint32]

theorem totalWidth_centralFields (offset : ℕ) : totalWidth (member.centralFields offset) = 46 := by
  simp only [centralFields, totalWidth, uint16, uint32]

theorem length_localRecord :
    member.localRecord.length = 30 + member.filename.length + member.data.length := by
  unfold localRecord
  rw [List.length_append, List.length_append, length_fieldBytes, totalWidth_localFields]

theorem length_centralRecord (offset : ℕ) :
    (member.centralRecord offset).length = 46 + member.filename.length := by
  unfold centralRecord
  rw [List.length_append, length_fieldBytes, totalWidth_centralFields]

end Member

/-- The header of fields that tile it. -/
theorem header_eq {size : ℕ} {fields : List Field} (filename : Bytes) (htiles : Tiles 0 fields)
    (hsize : totalWidth fields = size) :
    header size fields filename =
      if ∀ field ∈ fields, field.Fits then some (fieldBytes fields ++ filename) else none := by
  subst hsize
  have hlength : (fieldBytes fields).length = totalWidth fields := length_fieldBytes fields
  unfold header
  rw [writeFields_eq htiles (by simp)]
  split_ifs with hfits
  · have hwrite : Buffer.write (fieldBytes fields ++ List.replicate filename.length 0) filename
        (totalWidth fields) = fieldBytes fields ++ filename := by
      unfold Buffer.write
      rw [List.take_left' hlength, List.drop_of_length_le (by simp), List.append_nil]
    rw [Option.map_some, List.take_zero, List.nil_append, Nat.zero_add, List.drop_replicate,
      Nat.add_sub_cancel_left, hwrite]
  · rfl

theorem fits_localFields_iff (member : Member) :
    (∀ field ∈ member.localFields, field.Fits) ↔ member.IsWritable := by
  unfold Member.localFields
  simp only [List.forall_mem_cons, List.not_mem_nil, false_implies, implies_true, Field.Fits,
    uint16, uint32, capacity]
  constructor
  · rintro ⟨-, -, -, -, htime, hdate, hcrc, hsize, -, hname, -⟩
    exact ⟨htime, hdate, hcrc, hsize, hname⟩
  · rintro ⟨htime, hdate, hcrc, hsize, hname⟩
    exact ⟨by decide, by decide, by decide, by decide, htime, hdate, hcrc, hsize, hsize, hname,
      by decide, trivial⟩

theorem fits_centralFields_iff (member : Member) (offset : ℕ) :
    (∀ field ∈ member.centralFields offset, field.Fits) ↔
      member.IsWritable ∧ offset < 4294967296 := by
  unfold Member.centralFields
  simp only [List.forall_mem_cons, List.not_mem_nil, false_implies, implies_true, Field.Fits,
    uint16, uint32, capacity]
  constructor
  · rintro ⟨-, -, -, -, -, htime, hdate, hcrc, hsize, -, hname, -, -, -, -, -, hoffset, -⟩
    exact ⟨⟨htime, hdate, hcrc, hsize, hname⟩, hoffset⟩
  · rintro ⟨⟨htime, hdate, hcrc, hsize, hname⟩, hoffset⟩
    exact ⟨by decide, by decide, by decide, by decide, by decide, htime, hdate, hcrc, hsize, hsize,
      hname, by decide, by decide, by decide, by decide, by decide, hoffset, trivial⟩

theorem fits_endFields_iff (count size offset : ℕ) :
    (∀ field ∈ endFields count size offset, field.Fits) ↔
      count < 65536 ∧ size < 4294967296 ∧ offset < 4294967296 := by
  unfold endFields
  simp only [List.forall_mem_cons, List.not_mem_nil, false_implies, implies_true, Field.Fits,
    uint16, uint32, capacity]
  constructor
  · rintro ⟨-, -, -, hcount, -, hsize, hoffset, -⟩
    exact ⟨hcount, hsize, hoffset⟩
  · rintro ⟨hcount, hsize, hoffset⟩
    exact ⟨by decide, by decide, by decide, hcount, hcount, hsize, hoffset, by decide, trivial⟩

/-- The local records of some entries, one behind the other. -/
def localRecords (members : List Member) : Bytes := members.flatMap Member.localRecord

/-- The central directory of entries whose local records begin at an offset. -/
def centralRecords : ℕ → List Member → Bytes
  | _, [] => []
  | offset, member :: members => member.centralRecord offset ++
      centralRecords (offset + member.localRecord.length) members

/-- Whether every header is in range. -/
def AreWritable : ℕ → List Member → Prop
  | _, [] => True
  | offset, member :: members => (member.IsWritable ∧ offset < 4294967296) ∧
      AreWritable (offset + member.localRecord.length) members

theorem header_localFields (member : Member) :
    header 30 member.localFields member.filename =
      if ∀ field ∈ member.localFields, field.Fits then
        some (fieldBytes member.localFields ++ member.filename)
      else none :=
  header_eq member.filename (by simp [Tiles, Member.localFields, uint16, uint32])
    member.totalWidth_localFields

theorem header_centralFields (member : Member) (offset : ℕ) :
    header 46 (member.centralFields offset) member.filename =
      if ∀ field ∈ member.centralFields offset, field.Fits then some (member.centralRecord offset)
      else none :=
  header_eq member.filename (by simp [Tiles, Member.centralFields, uint16, uint32])
    (member.totalWidth_centralFields offset)

/-- The chunks with those of one more entry. -/
def Chunks.push (chunks : Chunks) (member : Member) : Chunks where
  localChunks := chunks.localChunks ++
    [fieldBytes member.localFields ++ member.filename, member.data]
  centralChunks := chunks.centralChunks ++ [member.centralRecord chunks.currentOffset]
  currentOffset := chunks.currentOffset + member.localRecord.length

theorem addMember_of_isWritable {member : Member} {chunks : Chunks} (hwritable : member.IsWritable)
    (hoffset : chunks.currentOffset < 4294967296) :
    addMember chunks member = some (chunks.push member) := by
  unfold addMember
  rw [header_localFields, if_pos ((fits_localFields_iff member).mpr hwritable),
    header_centralFields, if_pos ((fits_centralFields_iff member _).mpr ⟨hwritable, hoffset⟩)]
  simp [Chunks.push, Member.localRecord, Nat.add_assoc]

theorem isWritable_of_addMember {member : Member} {chunks next : Chunks}
    (hadded : addMember chunks member = some next) :
    member.IsWritable ∧ chunks.currentOffset < 4294967296 := by
  unfold addMember at hadded
  rw [header_centralFields] at hadded
  by_cases hfits : ∀ field ∈ member.centralFields chunks.currentOffset, field.Fits
  · exact (fits_centralFields_iff member _).mp hfits
  · rw [if_neg hfits] at hadded
    cases hlocal : header 30 member.localFields member.filename with
    | none => simp [hlocal] at hadded
    | some buffer => simp [hlocal] at hadded

/-- What the chunks are after some entries. -/
def Chunks.pushAll (chunks : Chunks) (members : List Member) : Chunks :=
  members.foldl Chunks.push chunks

theorem foldlM_addMember_iff (members : List Member) (chunks next : Chunks) :
    members.foldlM addMember chunks = some next ↔
      AreWritable chunks.currentOffset members ∧ next = chunks.pushAll members := by
  induction members generalizing chunks with
  | nil => simp [AreWritable, Chunks.pushAll, eq_comm]
  | cons member members ih =>
    rw [List.foldlM_cons]
    constructor
    · intro hadded
      obtain ⟨middle, hfirst, hrest⟩ := Option.bind_eq_some_iff.mp hadded
      have hwritable := isWritable_of_addMember hfirst
      rw [addMember_of_isWritable hwritable.1 hwritable.2, Option.some.injEq] at hfirst
      subst hfirst
      obtain ⟨hmore, hnext⟩ := (ih _).mp hrest
      exact ⟨⟨hwritable, hmore⟩, hnext⟩
    · rintro ⟨⟨hwritable, hmore⟩, hnext⟩
      rw [addMember_of_isWritable hwritable.1 hwritable.2]
      exact (ih _).mpr ⟨hmore, hnext⟩

theorem pushAll_eq (members : List Member) (chunks : Chunks) :
    (chunks.pushAll members).localChunks.flatten =
        chunks.localChunks.flatten ++ localRecords members ∧
      (chunks.pushAll members).centralChunks.flatten =
        chunks.centralChunks.flatten ++ centralRecords chunks.currentOffset members ∧
      (chunks.pushAll members).currentOffset =
        chunks.currentOffset + (localRecords members).length := by
  induction members generalizing chunks with
  | nil => simp [Chunks.pushAll, localRecords, centralRecords]
  | cons member members ih =>
    obtain ⟨hlocal, hcentral, hoffset⟩ := ih (chunks.push member)
    have hpush : chunks.pushAll (member :: members) = (chunks.push member).pushAll members := rfl
    rw [hpush, hlocal, hcentral, hoffset]
    refine ⟨?_, ?_, ?_⟩
    · simp [Chunks.push, localRecords, Member.localRecord]
    · simp [Chunks.push, centralRecords]
    · simp [Chunks.push, localRecords]
      omega

/-- The entries as the loop takes them up. -/
def membersOf (crc32 : Bytes → UInt32) (clock : ℕ → LocalDate) (entries : List ZipEntry) :
    List Member :=
  entries.zipIdx.map fun (entry, index) ↦ entry.member crc32 (clock index)

/-- The three parts of an archive. -/
def archiveOf (members : List Member) : Bytes :=
  localRecords members ++ centralRecords 0 members ++
    fieldBytes (endFields members.length (centralRecords 0 members).length
      (localRecords members).length)

theorem writeFields_endFields (count size offset : ℕ) :
    writeFields (List.replicate 22 0) (endFields count size offset) =
      if ∀ field ∈ endFields count size offset, field.Fits then
        some (fieldBytes (endFields count size offset))
      else none := by
  have htotal : totalWidth (endFields count size offset) = 22 := rfl
  rw [@writeFields_eq _ _ 0 (by simp [Tiles, endFields, uint16, uint32]) (by simp [htotal]), htotal]
  simp

/-- When an archive is written, and which. -/
theorem buildZipArchive_eq_some_iff {crc32 : Bytes → UInt32} {clock : ℕ → LocalDate}
    {entries : List ZipEntry} {members : List Member} {archive : Bytes}
    (hmembers : membersOf crc32 clock entries = members) :
    buildZipArchive crc32 clock entries = some archive ↔
      (AreWritable 0 members ∧ members.length < 65536 ∧
        (centralRecords 0 members).length < 4294967296 ∧
          (localRecords members).length < 4294967296) ∧ archiveOf members = archive := by
  have hlength : entries.length = members.length := by
    rw [← hmembers, membersOf, List.length_map, List.length_zipIdx]
  have hloop : entries.zipIdx.foldlM (fun chunks (entry, index) ↦
      addMember chunks (entry.member crc32 (clock index))) {} = members.foldlM addMember {} := by
    rw [← hmembers, membersOf, List.foldlM_map]
  obtain ⟨hlocal, hcentral, hoffset⟩ := pushAll_eq members {}
  simp only [List.flatten_nil, List.nil_append, Nat.zero_add] at hlocal hcentral hoffset
  unfold buildZipArchive
  rw [hloop, hlength, Option.bind_eq_bind, Option.bind_eq_some_iff]
  constructor
  · rintro ⟨chunks, hchunks, hrest⟩
    obtain ⟨hwritable, rfl⟩ := (foldlM_addMember_iff _ _ _).mp hchunks
    simp only [hlocal, hcentral, hoffset, writeFields_endFields] at hrest
    split_ifs at hrest with hfits
    · exact ⟨⟨hwritable, (fits_endFields_iff _ _ _).mp hfits⟩, Option.some.inj hrest⟩
    · cases hrest
  · rintro ⟨⟨hwritable, hfits⟩, rfl⟩
    refine ⟨_, (foldlM_addMember_iff _ _ _).mpr ⟨hwritable, rfl⟩, ?_⟩
    simp only [hlocal, hcentral, hoffset, writeFields_endFields,
      if_pos ((fits_endFields_iff _ _ _).mpr hfits)]
    rfl

end VmsLite.Exports.Zip
