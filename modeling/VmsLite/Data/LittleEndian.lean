import VmsLite.Data.Buffer

/-!
# Numbers in buffers

Numbers of a fixed width, least significant byte first, and records of such numbers: a record is
written field by field into a buffer, each at its offset, and is read off the front of a text of
bytes. Fields that tile the buffer are read back as they were written (`writeFields_eq`,
`readFields_fieldBytes`).
-/

set_option autoImplicit false

namespace VmsLite.Data.LittleEndian

/-! ### Numbers -/

def encode : ℕ → ℕ → Bytes
  | 0, _ => []
  | width + 1, value => UInt8.ofNat (value % 256) :: encode width (value / 256)

def decode : Bytes → ℕ
  | [] => 0
  | byte :: bytes => byte.toNat + 256 * decode bytes

/-- The number of values of a width. -/
def capacity : ℕ → ℕ
  | 0 => 1
  | width + 1 => 256 * capacity width

@[simp] theorem length_encode (width value : ℕ) : (encode width value).length = width := by
  induction width generalizing value with
  | zero => rfl
  | succ width ih => rw [encode, List.length_cons, ih]

theorem decode_encode {width value : ℕ} (hvalue : value < capacity width) :
    decode (encode width value) = value := by
  induction width generalizing value with
  | zero =>
    have hone : value < 1 := hvalue
    exact (Nat.lt_one_iff.mp hone).symm
  | succ width ih =>
    have hhigh : value / 256 < capacity width :=
      Nat.div_lt_of_lt_mul (hvalue : value < 256 * capacity width)
    have hlow : (UInt8.ofNat (value % 256)).toNat = value % 256 := by
      rw [UInt8.toNat_ofNat']
      exact Nat.mod_eq_of_lt (Nat.mod_lt _ (by decide))
    rw [encode, decode, ih hhigh, hlow]
    exact Nat.mod_add_div value 256

/-! ### Records -/

structure Field where
  width : ℕ
  value : ℕ
  offset : ℕ

/-- `writeUInt16LE(value, offset)`. -/
def uint16 (value offset : ℕ) : Field where
  width := 2
  value := value
  offset := offset

/-- `writeUInt32LE(value, offset)`. -/
def uint32 (value offset : ℕ) : Field where
  width := 4
  value := value
  offset := offset

namespace Field

def bytes (field : Field) : Bytes := encode field.width field.value

def Fits (field : Field) : Prop := field.value < capacity field.width

instance (field : Field) : Decidable field.Fits := Nat.decLt _ _

/-- The buffer with the field, unless the value or the offset is out of range. -/
def write (buffer : Bytes) (field : Field) : Option Bytes :=
  if field.Fits ∧ field.offset + field.width ≤ buffer.length then
    some (Buffer.write buffer field.bytes field.offset)
  else none

@[simp] theorem length_bytes (field : Field) : field.bytes.length = field.width :=
  length_encode _ _

end Field

def writeFields (buffer : Bytes) (fields : List Field) : Option Bytes :=
  fields.foldlM Field.write buffer

def fieldBytes (fields : List Field) : Bytes := fields.flatMap Field.bytes

def totalWidth : List Field → ℕ
  | [] => 0
  | field :: fields => field.width + totalWidth fields

/-- Every field begins where the one before ends. -/
def Tiles : ℕ → List Field → Prop
  | _, [] => True
  | offset, field :: fields => field.offset = offset ∧ Tiles (offset + field.width) fields

@[simp] theorem length_fieldBytes (fields : List Field) :
    (fieldBytes fields).length = totalWidth fields := by
  induction fields with
  | nil => rfl
  | cons field fields ih =>
    rw [fieldBytes, List.flatMap_cons, List.length_append, Field.length_bytes]
    exact congrArg (field.width + ·) ih

theorem writeFields_eq {buffer : Bytes} {fields : List Field} {offset : ℕ}
    (htiles : Tiles offset fields) (hbuffer : offset + totalWidth fields ≤ buffer.length) :
    writeFields buffer fields = if ∀ field ∈ fields, field.Fits then
      some (buffer.take offset ++ fieldBytes fields ++ buffer.drop (offset + totalWidth fields))
    else none := by
  induction fields generalizing buffer offset with
  | nil => simp [writeFields, fieldBytes, totalWidth]
  | cons field fields ih =>
    obtain ⟨hoffset, htiles⟩ := htiles
    have htotal : totalWidth (field :: fields) = field.width + totalWidth fields := rfl
    rw [htotal, ← Nat.add_assoc] at hbuffer ⊢
    have hfirst : field.offset + field.width ≤ buffer.length := by omega
    unfold writeFields
    rw [List.foldlM_cons, Field.write]
    by_cases hfits : field.Fits
    · have hlength : (Buffer.write buffer field.bytes field.offset).length = buffer.length :=
        Buffer.length_write (by rwa [Field.length_bytes])
      have hrest := @ih (Buffer.write buffer field.bytes field.offset) _ htiles
        (hlength.symm ▸ hbuffer)
      have hbefore : (buffer.take offset).length = offset := List.length_take_of_le (by omega)
      have htaken : (buffer.take offset ++ field.bytes).length = offset + field.width := by
        rw [List.length_append, hbefore, Field.length_bytes]
      have htake : (Buffer.write buffer field.bytes field.offset).take (offset + field.width) =
          buffer.take offset ++ field.bytes := by
        rw [Buffer.write, hoffset, List.take_left' htaken]
      rw [if_pos ⟨hfits, hfirst⟩, Option.bind_eq_bind, Option.bind_some]
      refine hrest.trans ?_
      simp only [List.forall_mem_cons, hfits, true_and]
      refine if_congr Iff.rfl (congrArg some ?_) rfl
      rw [htake, Buffer.drop_write (by rw [Field.length_bytes]; omega)
        (by rwa [Field.length_bytes]), fieldBytes, fieldBytes, List.flatMap_cons,
        List.append_assoc _ field.bytes]
    · rw [if_neg fun hand ↦ hfits hand.1, if_neg fun hall ↦ hfits (hall field List.mem_cons_self)]
      rfl

/-! ### Reading -/

/-- The numbers of the given widths at the head of a text, with what is behind them. -/
def readFields : List ℕ → Bytes → Option (List ℕ × Bytes)
  | [], bytes => some ([], bytes)
  | width :: widths, bytes =>
    if width ≤ bytes.length then
      (readFields widths (bytes.drop width)).map fun read ↦
        (decode (bytes.take width) :: read.1, read.2)
    else none

theorem readFields_fieldBytes {fields : List Field} (hfits : ∀ field ∈ fields, field.Fits)
    (rest : Bytes) : readFields (fields.map Field.width) (fieldBytes fields ++ rest) =
      some (fields.map Field.value, rest) := by
  induction fields with
  | nil => rfl
  | cons field fields ih =>
    have hbytes : fieldBytes (field :: fields) ++ rest =
        field.bytes ++ (fieldBytes fields ++ rest) := by
      rw [fieldBytes, List.flatMap_cons, List.append_assoc]
      rfl
    have hvalue : decode field.bytes = field.value :=
      decode_encode (hfits field List.mem_cons_self)
    rw [hbytes, List.map_cons, readFields, if_pos (by simp), List.drop_left' field.length_bytes,
      List.take_left' field.length_bytes, ih fun other hother ↦
        hfits other (List.mem_cons_of_mem _ hother), hvalue]
    rfl

end VmsLite.Data.LittleEndian
