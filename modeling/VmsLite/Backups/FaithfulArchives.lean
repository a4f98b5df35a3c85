import Mathlib.Algebra.Order.BigOperators.Group.List
import Mathlib.Algebra.Order.Group.Nat
import Mathlib.Data.List.Perm.Subperm
import VmsLite.Backups.Tar
import VmsLite.Data.AssociationList

/-!
# Archives that are read as they were written

A built archive is read back exactly when all names are ASCII and no file is empty. An archive that
is cut off within an entry is read without an error, its last content shortened or left out.
-/

set_option autoImplicit false

namespace VmsLite.Backups.Archive

open Data
open Url (Text)

/-! ### Faithful archives -/

theorem length_writtenName (name : Text) : (writtenName name).length ≤ name.length :=
  (fitting_isPrefix _ name).length_le

theorem writtenName_of_length {name : Text} (hlength : (writtenName name).length = name.length) :
    writtenName name = name :=
  (fitting_isPrefix _ name).eq_of_length hlength

theorem writtenName_eq_iff {name : Text} (hname : (utf8 name).length ≤ 100) :
    writtenName name = name ↔ ∀ char ∈ name, isAscii char = true := by
  unfold writtenName
  rw [fitting_eq_self_iff]
  constructor
  · intro hfits char hchar
    by_contra hascii
    have hunits := utf16Length_lt hchar (eq_false_of_ne_true hascii)
    split_ifs at hfits <;> omega
  · intro hascii
    have hbytes := length_utf8_of_ascii hascii
    have hunits := utf16Length_of_ascii hascii
    split_ifs <;> omega

def entryOf (file : TarFile) : Text × Bytes := (file.name, file.content)

/-- When every name is found, every name was written whole and no file is empty: the names would be
fewer or shorter otherwise. -/
theorem plain_of_names_found {archived : List TarFile} (hnodup : (archived.map TarFile.name).Nodup)
    (hnames : archived.map TarFile.name ⊆ (Platform.found archived).map Prod.fst) :
    ∀ file ∈ archived, writtenName file.name = file.name ∧ file.content ≠ [] := by
  have hkeys : (Platform.found archived).map Prod.fst =
      ((archived.filter fun file ↦ file.content ≠ []).map fun file ↦
        writtenName file.name).reverse := by
    unfold Platform.found
    rw [List.map_reverse, List.map_map]
    rfl
  rw [hkeys] at hnames
  have hcount := (List.subperm_of_subset hnodup hnames).length_le
  rw [List.length_map, List.length_reverse, List.length_map] at hcount
  have hfull : archived.filter (fun file ↦ file.content ≠ []) = archived :=
    List.filter_sublist.eq_of_length_le hcount
  rw [hfull] at hnames
  have hperm := (List.subperm_of_subset hnodup hnames).perm_of_length_le (by simp)
  have hlengths := (hperm.map List.length).sum_eq
  rw [List.map_reverse, List.sum_reverse, List.map_map, List.map_map] at hlengths
  intro file hfile
  refine ⟨writtenName_of_length ?_, of_decide_eq_true (List.filter_eq_self.mp hfull file hfile)⟩
  by_contra hne
  have hlt : (archived.map (List.length ∘ fun file ↦ writtenName file.name)).sum <
      (archived.map (List.length ∘ TarFile.name)).sum :=
    List.sum_lt_sum _ _ (fun other _ ↦ length_writtenName other.name)
      ⟨file, hfile, lt_of_le_of_ne (length_writtenName file.name) hne⟩
  exact absurd hlengths hlt.ne'

/-! ### Archives that are cut off -/

/-- The bytes of one entry, as the reader understands its header. -/
structure IsEntry (platform : Platform) (entry : Bytes) : Prop where
  header : 512 ≤ entry.length
  set : (entry.take 512).all (· = 0) = false
  size : ∃ size : ℕ, platform.entrySize (entry.take 512) = some (size : ℤ) ∧
    entry.length = 512 + (size + paddingSize size)

/-- A tar file that ends within an entry. -/
def IsCutOff (platform : Platform) (tarBuffer : Bytes) : Prop :=
  ∃ (entries : List Bytes) (entry part : Bytes), (∀ whole ∈ entries, IsEntry platform whole) ∧
    IsEntry platform entry ∧ part <+: entry ∧ part ≠ [] ∧ part ≠ entry ∧
      tarBuffer = entries.flatten ++ part

section CutOff

variable {platform : Platform}

theorem extractEntries_of_short {tarBuffer : Bytes} (hshort : tarBuffer.length < 512)
    (files : Files) : platform.extractEntries tarBuffer files = .ok files := by
  rw [Platform.extractEntries, if_pos hshort]

theorem IsEntry.extractEntries {entry : Bytes} (hentry : IsEntry platform entry) (rest : Bytes)
    (files : Files) : ∃ later, platform.extractEntries (entry ++ rest) files =
      platform.extractEntries rest later := by
  obtain ⟨size, hsize, hlength⟩ := hentry.size
  have hheader : (entry ++ rest).take 512 = entry.take 512 :=
    List.take_append_of_le_length hentry.header
  have hbody : ((entry ++ rest).drop 512).drop (size + paddingSize size) = rest := by
    rw [List.drop_drop, ← hlength, List.drop_left' rfl]
  have hround := @Platform.extractEntries_entry platform (entry ++ rest) size
    (by rw [List.length_append]; exact hentry.header.trans (Nat.le_add_right _ _))
    (by rw [hheader]; exact hentry.set) (by rw [hheader]; exact hsize) files
  rw [hbody] at hround
  exact ⟨_, hround⟩

/-- The reader does not notice that an entry ends too early. -/
theorem IsEntry.extractEntries_part {entry part : Bytes} (hentry : IsEntry platform entry)
    (hpart : part <+: entry) (hne : part ≠ entry) (files : Files) :
    ∃ later, platform.extractEntries part files = .ok later := by
  obtain ⟨size, hsize, hlength⟩ := hentry.size
  have hshorter : part.length < entry.length :=
    lt_of_le_of_ne hpart.length_le fun heq ↦ hne (hpart.eq_of_length heq)
  by_cases hheader : part.length < 512
  · exact ⟨files, extractEntries_of_short hheader files⟩
  · have htake : part.take 512 = entry.take 512 := by
      obtain ⟨rest, rfl⟩ := hpart
      exact (List.take_append_of_le_length (not_lt.mp hheader)).symm
    have hbody : (part.drop 512).drop (size + paddingSize size) = [] := by
      rw [List.drop_drop]
      exact List.drop_of_length_le (by omega)
    have hround := @Platform.extractEntries_entry platform part size (not_lt.mp hheader)
      (by rw [htake]; exact hentry.set) (by rw [htake]; exact hsize) files
    exact ⟨_, hround.trans (by rw [hbody, extractEntries_of_short (by decide)])⟩

theorem IsCutOff.extractEntries {tarBuffer : Bytes} (hcut : IsCutOff platform tarBuffer)
    (files : Files) : ∃ later, platform.extractEntries tarBuffer files = .ok later := by
  obtain ⟨entries, entry, part, hentries, hentry, hpart, -, hne, rfl⟩ := hcut
  induction entries generalizing files with
  | nil => exact hentry.extractEntries_part hpart hne files
  | cons whole entries ih =>
    obtain ⟨later, hround⟩ := (hentries whole List.mem_cons_self).extractEntries
      (entries.flatten ++ part) files
    obtain ⟨last, hlast⟩ := ih later fun other hother ↦
      hentries other (List.mem_cons_of_mem _ hother)
    refine ⟨last, ?_⟩
    rw [List.flatten_cons, List.append_assoc, hround, hlast]

end CutOff

/-! ### The law -/

/-- What is handed to the reader. -/
inductive Input
  | built (now : ℕ) (archived : List TarFile)
  | cutOff (archive : Bytes)

/-- The archives that the law is about. -/
def Input.IsAdmissible (platform : Platform) : Input → Prop
  | .built _ archived =>
    (∀ file ∈ archived, Archivable file) ∧ (archived.map TarFile.name).Nodup
  | .cutOff archive => ∃ tarBuffer, platform.gunzip archive = some tarBuffer ∧
      IsCutOff platform tarBuffer

/-- A built archive is read as the map from names to contents, and one that is cut off is
refused. -/
def Input.IsFaithful (platform : Platform) : Input → Prop
  | .built now archived => ∃ files,
      platform.extractTarGz (platform.buildTarGz now archived) = .ok files ∧
        ∀ name, files.lookup name = (archived.map entryOf).lookup name
  | .cutOff archive => ∃ error, platform.extractTarGz archive = .error error

def Input.IsPlain : Input → Prop
  | .built _ archived => ∀ file ∈ archived,
      (∀ char ∈ file.name, isAscii char = true) ∧ file.content ≠ []
  | .cutOff _ => False

section Law

variable {platform : Platform}

theorem found_of_plain {archived : List TarFile}
    (hplain : ∀ file ∈ archived, writtenName file.name = file.name ∧ file.content ≠ []) :
    Platform.found archived = (archived.map entryOf).reverse := by
  have hfull : archived.filter (fun file ↦ file.content ≠ []) = archived :=
    List.filter_eq_self.mpr fun file hfile ↦ decide_eq_true (hplain file hfile).2
  unfold Platform.found
  rw [hfull]
  refine congrArg List.reverse (List.map_congr_left fun file hfile ↦ ?_)
  rw [(hplain file hfile).1]
  rfl

/-- The files of an archive are found under their names exactly when all were written whole. -/
theorem lookup_found_iff {archived : List TarFile} (hnodup : (archived.map TarFile.name).Nodup) :
    (∀ name, (Platform.found archived).lookup name = (archived.map entryOf).lookup name) ↔
      ∀ file ∈ archived, writtenName file.name = file.name ∧ file.content ≠ [] := by
  have hkeys : ((archived.map entryOf).map Prod.fst).Nodup := by
    rw [List.map_map]
    exact hnodup
  constructor
  · intro hfound
    refine plain_of_names_found hnodup fun name hname ↦ ?_
    obtain ⟨file, hfile, rfl⟩ := List.mem_map.mp hname
    have hlookup := (lookup_eq_some_iff_mem hkeys).mpr (List.mem_map_of_mem (f := entryOf) hfile)
    by_contra hmissing
    rw [← hfound, lookup_eq_none_of_not_mem hmissing] at hlookup
    cases hlookup
  · intro hplain name
    rw [found_of_plain hplain, lookup_reverse hkeys]

/-- What `extractTarGz` returns for an archive that was built. -/
theorem extractTarGz_buildTarGz
    (hgunzip : ∀ bytes, platform.gunzip (platform.gzip bytes) = some bytes)
    (hdecode : platform.DecodesUtf8) {archived : List TarFile} {now : ℕ}
    (harchived : ∀ file ∈ archived, Archivable file) :
    platform.extractTarGz (platform.buildTarGz now archived) = .ok (Platform.found archived) := by
  unfold Platform.extractTarGz Platform.buildTarGz
  rw [hgunzip]
  exact (Platform.extractEntries_build hdecode harchived now []).trans
    (congrArg _ (List.append_nil _))

/-- A built archive is read back exactly when its names are ASCII and its files are not empty; one
that is cut off is never refused. -/
theorem isFaithful_iff (hgunzip : ∀ bytes, platform.gunzip (platform.gzip bytes) = some bytes)
    (hdecode : platform.DecodesUtf8) {input : Input} (hinput : input.IsAdmissible platform) :
    input.IsFaithful platform ↔ input.IsPlain := by
  cases input with
  | built now archived =>
    obtain ⟨harchived, hnodup⟩ := hinput
    have hread := @extractTarGz_buildTarGz platform hgunzip hdecode archived now harchived
    have hplain : (∀ file ∈ archived, writtenName file.name = file.name ∧ file.content ≠ []) ↔
        Input.IsPlain (.built now archived) :=
      forall₂_congr fun file hfile ↦
        and_congr_left' (writtenName_eq_iff (harchived file hfile).name_length)
    rw [← hplain, ← lookup_found_iff hnodup]
    constructor
    · rintro ⟨files, hfiles, hlookup⟩
      rw [hread] at hfiles
      exact Except.ok.inj hfiles ▸ hlookup
    · exact fun hlookup ↦ ⟨_, hread, hlookup⟩
  | cutOff archive =>
    obtain ⟨tarBuffer, hunzipped, hcut⟩ := hinput
    obtain ⟨files, hfiles⟩ := hcut.extractEntries []
    refine ⟨?_, False.elim⟩
    rintro ⟨error, herror⟩
    unfold Platform.extractTarGz at herror
    rw [hunzipped] at herror
    exact absurd (herror.symm.trans hfiles) (by simp)

end Law

/-! ### Recorded archives -/

/-- A platform that compresses one tar file as was recorded, and any other behind a zero. -/
def recordedPlatform (tarBuffer archive : Bytes) : Platform where
  gzip bytes := if bytes = tarBuffer then archive else 0 :: bytes
  gunzip bytes :=
    if bytes = archive then some tarBuffer else if bytes.head? =
      some 0 then some bytes.tail else none
  decode bytes := (fromUtf8 bytes).getD []

theorem decodesUtf8_recordedPlatform (tarBuffer archive : Bytes) :
    (recordedPlatform tarBuffer archive).DecodesUtf8 :=
  fun text ↦ congrArg (Option.getD · []) (fromUtf8_utf8 text)

theorem gunzip_recordedPlatform {tarBuffer archive : Bytes} (harchive : archive.head? ≠ some 0)
    (bytes : Bytes) : (recordedPlatform tarBuffer archive).gunzip
      ((recordedPlatform tarBuffer archive).gzip bytes) = some bytes := by
  unfold recordedPlatform
  dsimp only
  by_cases hsame : bytes = tarBuffer
  · rw [if_pos hsame, if_pos rfl, hsame]
  · have hother : 0 :: bytes ≠ archive := fun heq ↦ harchive (heq ▸ rfl)
    rw [if_neg hsame, if_neg hother]
    rfl

def accentedFile : TarFile where
  name := "caf\u00e9.json".toList
  content := utf8 "{}".toList

/-- The tar file of `accentedFile` at 1772000000 s, compressed. -/
def accentedArchive : Bytes :=
  [31, 139, 8, 0, 0, 0, 0, 0, 0, 3, 75, 78, 76, 59, 188, 82, 47, 171, 56, 159, 129, 118, 192, 0, 8,
    204, 76, 76, 192, 52, 16, 160, 211, 64, 96, 196, 96, 104, 106, 104, 98, 110, 106, 104, 104, 2,
    18, 55, 52, 48, 48, 52, 97, 80, 48, 160, 161, 155, 224, 160, 180, 184, 36, 177, 8, 232, 20, 122,
    216, 53, 8, 65, 117, 237, 64, 187, 96, 20, 140, 130, 81, 48, 10, 70, 193, 64, 0, 0, 204, 235,
    19, 228, 0, 8, 0, 0]

theorem archivable_accentedFile : Archivable accentedFile where
  name_ne_nil := by decide
  name_length := by decide
  name_ne_zero := fun char hchar ↦ of_decide_eq_true
    (List.all_eq_true.mp (by decide : accentedFile.name.all (fun char ↦ char ≠ '\x00') =
      true) char hchar)
  content_length := by decide

/-- The name comes back without its last letter. -/
theorem not_isFaithful_accentedFile :
    ¬ ∀ input : Input,
      input.IsAdmissible
          (recordedPlatform (buildTar 1772000000 [accentedFile]) accentedArchive) →
        input.IsFaithful
          (recordedPlatform (buildTar 1772000000 [accentedFile]) accentedArchive) := by
  intro hall
  obtain ⟨files, hfiles, hlookup⟩ := hall (.built 1772000000 [accentedFile])
    ⟨List.forall_mem_singleton.mpr archivable_accentedFile, List.nodup_singleton _⟩
  rw [extractTarGz_buildTarGz (gunzip_recordedPlatform (by decide))
    (decodesUtf8_recordedPlatform _ _)
    (List.forall_mem_singleton.mpr archivable_accentedFile)] at hfiles
  obtain rfl := Except.ok.inj hfiles
  exact absurd (hlookup accentedFile.name) (by decide)

def plainFile : TarFile where
  name := "cafe.json".toList
  content := utf8 "{}".toList

/-- The tar file of `plainFile` at 1772000000 s, compressed. -/
def plainArchive : Bytes :=
  [31, 139, 8, 0, 0, 0, 0, 0, 0, 3, 75, 78, 76, 75, 213, 203, 42, 206, 207, 99, 160, 29, 48, 0, 2,
    51, 19, 19, 48, 13, 4, 232, 52, 16, 24, 49, 24, 154, 26, 154, 152, 155, 26, 26, 154, 128, 197,
    205, 77, 205, 140, 25, 20, 12, 104, 232, 38, 56, 40, 45, 46, 73, 44, 2, 90, 73, 15, 187, 6, 33,
    168, 174, 29, 104, 23, 140, 130, 81, 48, 10, 70, 193, 40, 24, 8, 0, 0, 163, 152, 137, 135, 0, 8,
    0, 0]

theorem archivable_plainFile : Archivable plainFile where
  name_ne_nil := by decide
  name_length := by decide
  name_ne_zero := fun char hchar ↦ of_decide_eq_true
    (List.all_eq_true.mp (by decide : plainFile.name.all (fun char ↦ char ≠ '\x00') =
      true) char hchar)
  content_length := by decide

theorem isFaithful_plainFile : (Input.built 1772000000 [plainFile]).IsFaithful
    (recordedPlatform (buildTar 1772000000 [plainFile]) plainArchive) := by
  have hadmissible : (Input.built 1772000000 [plainFile]).IsAdmissible
      (recordedPlatform (buildTar 1772000000 [plainFile]) plainArchive) :=
    ⟨List.forall_mem_singleton.mpr archivable_plainFile, List.nodup_singleton _⟩
  refine (isFaithful_iff (gunzip_recordedPlatform (by decide))
    (decodesUtf8_recordedPlatform _ _) hadmissible).mpr ?_
  exact List.forall_mem_singleton.mpr ⟨List.all_eq_true.mp rfl, by decide⟩

end VmsLite.Backups.Archive
