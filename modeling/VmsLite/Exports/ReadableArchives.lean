import VmsLite.Exports.ZipArchive

/-!
# Round trip of ZIP archives

What `buildZipArchive` returns is read back as the names and contents of its entries, and within the
limits of the format it does return (`isReadable`). Outside them it returns nothing, or, where a
number still fits its field, an archive that is read back all the same.
-/

set_option autoImplicit false

namespace VmsLite.Exports.Zip

open Data Data.LittleEndian

/-! ### What is read -/

/-- The header that both records of an entry hold. -/
def Member.header (member : Member) : Header where
  version := 20
  flags := 0x0800
  method := 0
  time := member.modified.time
  date := member.modified.date
  crc := member.crc
  compressedSize := member.data.length
  size := member.data.length
  name := member.filename

theorem readLocal_localRecord {member : Member} (hwritable : member.IsWritable) (rest : Bytes) :
    readLocal (member.localRecord ++ rest) = some (member.header, member.data ++ rest) := by
  have hbytes : member.localRecord ++ rest =
      fieldBytes member.localFields ++ (member.filename ++ (member.data ++ rest)) := by
    simp [Member.localRecord]
  have hfields := readFields_fieldBytes ((fits_localFields_iff member).mpr hwritable)
    (member.filename ++ (member.data ++ rest))
  rw [← hbytes] at hfields
  unfold readLocal
  rw [show [4, 2, 2, 2, 2, 2, 4, 4, 4, 2, 2] = member.localFields.map Field.width from rfl, hfields]
  simp [Member.localFields, uint16, uint32, Member.header]

theorem readCentral_centralRecord {member : Member} {offset : ℕ} (hwritable : member.IsWritable)
    (hoffset : offset < 4294967296) (rest : Bytes) :
    readCentral (member.centralRecord offset ++ rest) = some (member.header, offset, rest) := by
  have hbytes : member.centralRecord offset ++ rest =
      fieldBytes (member.centralFields offset) ++ (member.filename ++ rest) := by
    simp [Member.centralRecord]
  have hfields := readFields_fieldBytes
    ((fits_centralFields_iff member offset).mpr ⟨hwritable, hoffset⟩) (member.filename ++ rest)
  rw [← hbytes] at hfields
  unfold readCentral
  rw [show [4, 2, 2, 2, 2, 2, 2, 4, 4, 4, 2, 2, 2, 2, 2, 4, 4] =
    (member.centralFields offset).map Field.width from rfl, hfields]
  simp [Member.centralFields, uint16, uint32, Member.header]

/-- A member made from a name and contents, with their checksum. -/
structure Member.Holds (crc32 : Bytes → UInt32) (member : Member) (content : List Char × Bytes) :
    Prop where
  filename : member.filename = utf8 content.1
  data : member.data = content.2
  crc : member.crc = (crc32 content.2).toNat

theorem readEntry_localRecord {crc32 : Bytes → UInt32} {member : Member}
    {content : List Char × Bytes} (hwritable : member.IsWritable)
    (hholds : member.Holds crc32 content) (rest : Bytes) :
    readEntry crc32 member.header (member.localRecord ++ rest) = some (content, rest) := by
  have hdata : (member.data ++ rest).take member.header.size = content.2 :=
    (List.take_left' rfl).trans hholds.data
  have hname : fromUtf8 member.header.name = some content.1 :=
    (congrArg fromUtf8 hholds.filename).trans (fromUtf8_utf8 content.1)
  have hrest : (member.data ++ rest).drop member.header.size = rest := List.drop_left' rfl
  unfold readEntry
  rw [readLocal_localRecord hwritable]
  have hsize : member.header.size ≤ (member.data ++ rest).length := by
    rw [List.length_append]
    exact Nat.le_add_right _ _
  dsimp only
  rw [hdata, hname, hrest, if_pos ⟨rfl, rfl, rfl, rfl, hsize, hholds.crc.symm⟩]
  rfl

/-- The central directory is walked to its end. -/
theorem readEntries_centralRecords {crc32 : Bytes → UInt32} {members : List Member}
    {contents : List (List Char × Bytes)}
    (hholds : List.Forall₂ (Member.Holds crc32) members contents)
    (before : Bytes) (behind : Bytes) (hwritable : AreWritable before.length members) :
    readEntries crc32 (before ++ localRecords members ++ behind)
      (before ++ localRecords members).length members.length before.length
        (centralRecords before.length members) = some contents := by
  induction hholds generalizing before with
  | nil => simp [readEntries, centralRecords, localRecords]
  | @cons member content members contents hfirst hrest ih =>
    obtain ⟨⟨hmember, hoffset⟩, hmore⟩ := hwritable
    have harchive : before ++ localRecords (member :: members) ++ behind =
        before ++ (member.localRecord ++ (localRecords members ++ behind)) := by
      simp [localRecords]
    have hlater := ih (before ++ member.localRecord) (by rwa [List.length_append])
    have hposition : (before ++ (member.localRecord ++ (localRecords members ++ behind))).length -
        (localRecords members ++ behind).length = (before ++ member.localRecord).length := by
      simp only [List.length_append]
      omega
    have hall : before ++ localRecords (member :: members) =
        before ++ member.localRecord ++ localRecords members := by
      simp [localRecords]
    rw [List.append_assoc, List.append_assoc] at hlater
    rw [harchive, List.length_cons, centralRecords, readEntries,
      readCentral_centralRecord hmember hoffset]
    simp only [Option.bind_eq_bind, Option.bind_some, if_true, List.drop_left]
    rw [readEntry_localRecord hmember hfirst]
    simp only [Option.bind_some]
    rw [hposition, hall, ← List.length_append, hlater]
    rfl

theorem readEnd_archiveOf {members : List Member} (hcount : members.length < 65536)
    (hsize : (centralRecords 0 members).length < 4294967296)
    (hoffset : (localRecords members).length < 4294967296) :
    findEnd (archiveOf members) = some {
      count := members.length
      size := (centralRecords 0 members).length
      offset := (localRecords members).length } := by
  have hfields := readFields_fieldBytes ((fits_endFields_iff _ _ _).mpr ⟨hcount, hsize, hoffset⟩) []
  rw [List.append_nil] at hfields
  have hlength : (archiveOf members).length =
      (localRecords members).length + (centralRecords 0 members).length + 22 := by
    unfold archiveOf
    rw [List.length_append, List.length_append, length_fieldBytes]
    rfl
  have hbehind : (archiveOf members).drop
      ((localRecords members).length + (centralRecords 0 members).length) =
        fieldBytes (endFields members.length (centralRecords 0 members).length
          (localRecords members).length) := by
    unfold archiveOf
    exact List.drop_left' List.length_append
  have hlast : (archiveOf members).length - 21 =
      (localRecords members).length + (centralRecords 0 members).length + 1 := by
    omega
  unfold findEnd
  rw [hlast, List.range_succ, List.reverse_append, List.reverse_singleton, List.singleton_append,
    List.findSome?_cons, readEnd, hbehind,
    show [4, 2, 2, 2, 2, 4, 4, 2] = (endFields members.length (centralRecords 0 members).length
      (localRecords members).length).map Field.width from rfl, hfields]
  simp [endFields, uint16, uint32]

/-! ### Round trip -/

def ZipEntry.content (entry : ZipEntry) : List Char × Bytes := (entry.name, entry.data.bytes)

theorem holds_membersOf (crc32 : Bytes → UInt32) (clock : ℕ → LocalDate)
    (entries : List ZipEntry) (start : ℕ) :
    List.Forall₂ (Member.Holds crc32)
      ((entries.zipIdx start).map fun (entry, index) ↦ entry.member crc32 (clock index))
      (entries.map ZipEntry.content) := by
  induction entries generalizing start with
  | nil => exact List.Forall₂.nil
  | cons entry entries ih => exact List.Forall₂.cons ⟨rfl, rfl, rfl⟩ (ih (start + 1))

theorem readArchive_of_buildZipArchive {crc32 : Bytes → UInt32} {clock : ℕ → LocalDate}
    {entries : List ZipEntry} {archive : Bytes}
    (hbuilt : buildZipArchive crc32 clock entries = some archive) :
    readArchive crc32 archive = some (entries.map ZipEntry.content) := by
  obtain ⟨⟨hwritable, hcount, hsize, hoffset⟩, rfl⟩ := (buildZipArchive_eq_some_iff rfl).mp hbuilt
  have hholds := holds_membersOf crc32 clock entries 0
  change List.Forall₂ (Member.Holds crc32) (membersOf crc32 clock entries) _ at hholds
  generalize membersOf crc32 clock entries = members at *
  have hread := readEntries_centralRecords hholds [] (centralRecords 0 members ++
    fieldBytes (endFields members.length (centralRecords 0 members).length
      (localRecords members).length)) hwritable
  have hdirectory : Buffer.subarray (archiveOf members) (localRecords members).length
      ((localRecords members).length + (centralRecords 0 members).length) =
        centralRecords 0 members := by
    unfold Buffer.subarray archiveOf
    rw [List.take_left' List.length_append, List.drop_left]
  unfold readArchive
  rw [readEnd_archiveOf hcount hsize hoffset, Option.bind_eq_bind, Option.bind_some, hdirectory]
  simpa [archiveOf] using hread

/-! ### Limits of the format -/

def Date.IsInLimits : Date → Prop
  | .invalid => False
  | .valid d => 1980 ≤ d.fullYear ∧ d.fullYear ≤ 2107

/-- The offset of the central directory. -/
def directoryOffset : List ZipEntry → ℕ
  | [] => 0
  | entry :: entries =>
    30 + (utf8 entry.name).length + entry.data.bytes.length + directoryOffset entries

def directorySize : List ZipEntry → ℕ
  | [] => 0
  | entry :: entries => 46 + (utf8 entry.name).length + directorySize entries

structure IsInLimits (clock : ℕ → LocalDate) (entries : List ZipEntry) : Prop where
  count_lt : entries.length < 65535
  name_lt : ∀ entry ∈ entries, (utf8 entry.name).length < 65536
  size_lt : ∀ entry ∈ entries, entry.data.bytes.length < 4294967295
  directoryOffset_lt : directoryOffset entries < 4294967295
  directorySize_lt : directorySize entries < 4294967295
  dates : ∀ (entry : ZipEntry) (index : ℕ), (entry, index) ∈ entries.zipIdx →
    (entry.date.getD (.valid (clock index))).IsInLimits

theorem dateToDosTime_lt {date : Date} (hdate : date.IsInLimits) :
    (dateToDosTime date).time < 65536 ∧ (dateToDosTime date).date < 65536 := by
  cases date with
  | invalid => exact absurd hdate id
  | valid d =>
    obtain ⟨hfirst, hlast⟩ := hdate
    have hmonth := d.month_lt
    have hday := d.date_lt
    have hhours := d.hours_lt
    have hminutes := d.minutes_lt
    have hseconds := d.seconds_lt
    have hyear : (d.fullYear - 1980).toNat < 128 := by omega
    unfold dateToDosTime
    simp only [Nat.shiftLeft_eq]
    constructor
    · exact @Nat.or_lt_two_pow _ _ 16 (@Nat.or_lt_two_pow _ _ 16 (by omega) (by omega)) (by omega)
    · exact @Nat.or_lt_two_pow _ _ 16 (@Nat.or_lt_two_pow _ _ 16 (by omega) (by omega)) (by omega)

theorem isWritable_member {crc32 : Bytes → UInt32} {now : LocalDate} {entry : ZipEntry}
    (hname : (utf8 entry.name).length < 65536) (hsize : entry.data.bytes.length < 4294967295)
    (hdate : (entry.date.getD (.valid now)).IsInLimits) : (entry.member crc32 now).IsWritable where
  time_lt := (dateToDosTime_lt hdate).1
  date_lt := (dateToDosTime_lt hdate).2
  crc_lt := (crc32 entry.data.bytes).toNat_lt
  size_lt := hsize.trans (by decide)
  name_lt := hname

theorem length_localRecords_member (crc32 : Bytes → UInt32) (clock : ℕ → LocalDate)
    (entries : List ZipEntry) (start : ℕ) :
    (localRecords ((entries.zipIdx start).map fun (entry, index) ↦
      entry.member crc32 (clock index))).length = directoryOffset entries := by
  induction entries generalizing start with
  | nil => rfl
  | cons entry entries ih =>
    have hmore := ih (start + 1)
    rw [List.zipIdx_cons, List.map_cons, localRecords, List.flatMap_cons, List.length_append,
      Member.length_localRecord, directoryOffset, ← hmore]
    rfl

theorem length_centralRecords_member (crc32 : Bytes → UInt32) (clock : ℕ → LocalDate)
    (entries : List ZipEntry) (start offset : ℕ) :
    (centralRecords offset ((entries.zipIdx start).map fun (entry, index) ↦
      entry.member crc32 (clock index))).length = directorySize entries := by
  induction entries generalizing start offset with
  | nil => rfl
  | cons entry entries ih =>
    rw [List.zipIdx_cons, List.map_cons, centralRecords, List.length_append,
      Member.length_centralRecord, directorySize, ih (start + 1)]
    rfl

theorem areWritable_member {crc32 : Bytes → UInt32} {clock : ℕ → LocalDate}
    {entries : List ZipEntry} {start offset : ℕ}
    (hwritable : ∀ (entry : ZipEntry) (index : ℕ), (entry, index) ∈ entries.zipIdx start →
      (entry.member crc32 (clock index)).IsWritable)
    (hoffset : offset + directoryOffset entries < 4294967296) :
    AreWritable offset ((entries.zipIdx start).map fun (entry, index) ↦
      entry.member crc32 (clock index)) := by
  induction entries generalizing start offset with
  | nil => trivial
  | cons entry entries ih =>
    have hrecord := Member.length_localRecord (entry.member crc32 (clock start))
    have hname : (entry.member crc32 (clock start)).filename = utf8 entry.name := rfl
    have hdata : (entry.member crc32 (clock start)).data = entry.data.bytes := rfl
    rw [hname, hdata] at hrecord
    rw [directoryOffset] at hoffset
    rw [List.zipIdx_cons, List.map_cons]
    have hmore : offset + (entry.member crc32 (clock start)).localRecord.length +
        directoryOffset entries < 4294967296 := by omega
    refine ⟨⟨hwritable entry start (by simp), by omega⟩, ih ?_ hmore⟩
    exact fun other index hmem ↦ hwritable other index (by simp [hmem])

theorem exists_buildZipArchive {crc32 : Bytes → UInt32} {clock : ℕ → LocalDate}
    {entries : List ZipEntry} (hlimits : IsInLimits clock entries) :
    ∃ archive, buildZipArchive crc32 clock entries = some archive := by
  have hcount := hlimits.count_lt
  have hoffset := hlimits.directoryOffset_lt
  have hsize := hlimits.directorySize_lt
  refine ⟨_, (buildZipArchive_eq_some_iff rfl).mpr ⟨⟨?_, ?_, ?_, ?_⟩, rfl⟩⟩
  · refine areWritable_member (fun entry index hmem ↦ ?_) (by omega)
    have hentry : entry ∈ entries := List.fst_mem_of_mem_zipIdx hmem
    exact isWritable_member (hlimits.name_lt entry hentry) (hlimits.size_lt entry hentry)
      (hlimits.dates entry index hmem)
  · rw [membersOf, List.length_map, List.length_zipIdx]
    omega
  · rw [membersOf, length_centralRecords_member]
    omega
  · rw [membersOf, length_localRecords_member]
    omega

def evening : LocalDate where
  fullYear := 2024
  month := 1
  date := 29
  hours := 18
  minutes := 45
  seconds := 10
  fullYear_le := by decide
  month_lt := by decide
  date_lt := by decide
  hours_lt := by decide
  minutes_lt := by decide
  seconds_lt := by decide

def notes : ZipEntry where
  name := "Überwachung.txt".toList
  data := .text "gate".toList

end VmsLite.Exports.Zip
