import Mathlib.Data.List.TakeDrop
import Mathlib.Data.Nat.Order.Lemmas

/-!
# Buffers

Byte buffers of a fixed length: parts that are read off, and parts that are written over.
-/

set_option autoImplicit false

namespace VmsLite.Data

abbrev Bytes := List UInt8

namespace Buffer

variable {buffer bytes : Bytes} {offset start stop : ℕ}

/-- The bytes from one offset up to another. -/
def subarray (buffer : Bytes) (start stop : ℕ) : Bytes := (buffer.take stop).drop start

/-- The buffer with some bytes written at an offset. -/
def write (buffer bytes : Bytes) (offset : ℕ) : Bytes :=
  buffer.take offset ++ bytes ++ buffer.drop (offset + bytes.length)

theorem length_write (hfits : offset + bytes.length ≤ buffer.length) :
    (write buffer bytes offset).length = buffer.length := by
  unfold write
  rw [List.length_append, List.length_append, List.length_take, List.length_drop]
  omega

theorem subarray_write_self (hfits : offset + bytes.length ≤ buffer.length) :
    subarray (write buffer bytes offset) offset (offset + bytes.length) = bytes := by
  have hbefore : (buffer.take offset).length = offset :=
    List.length_take_of_le (Nat.le_of_add_right_le hfits)
  have hlength : (buffer.take offset ++ bytes).length = offset + bytes.length := by
    rw [List.length_append, hbefore]
  unfold subarray write
  rw [List.take_left' hlength, List.drop_left' hbefore]

theorem subarray_write_of_le (hstop : stop ≤ offset) (hfits : offset ≤ buffer.length) :
    subarray (write buffer bytes offset) start stop = subarray buffer start stop := by
  have hbefore : stop ≤ (buffer.take offset).length :=
    hstop.trans (List.length_take_of_le hfits).ge
  unfold subarray write
  rw [List.append_assoc, List.take_append_of_le_length hbefore, List.take_take,
    Nat.min_eq_left hstop]

theorem drop_write (hstart : offset + bytes.length ≤ start)
    (hfits : offset + bytes.length ≤ buffer.length) :
    (write buffer bytes offset).drop start = buffer.drop start := by
  have hwritten : (buffer.take offset ++ bytes).length = offset + bytes.length := by
    rw [List.length_append, List.length_take_of_le (Nat.le_of_add_right_le hfits)]
  unfold write
  rw [List.drop_append, List.drop_of_length_le (hwritten.le.trans hstart), List.nil_append,
    hwritten, List.drop_drop]
  congr 1
  omega

theorem subarray_write_of_ge (hstart : offset + bytes.length ≤ start)
    (hfits : offset + bytes.length ≤ buffer.length) :
    subarray (write buffer bytes offset) start stop = subarray buffer start stop := by
  unfold subarray
  rw [List.drop_take, List.drop_take, drop_write hstart hfits]

/-- The first bytes of a part. -/
theorem subarray_eq_take {length : ℕ} (hlength : start + length ≤ stop) :
    subarray buffer start (start + length) = (subarray buffer start stop).take length := by
  unfold subarray
  rw [List.drop_take, List.drop_take, List.take_take, Nat.add_sub_cancel_left,
    Nat.min_eq_left (Nat.le_sub_of_add_le' hlength)]

/-- A buffer that a part of is not zero is not all zeros. -/
theorem any_of_subarray {isSet : UInt8 → Bool} (hpart : (subarray buffer start stop).any isSet) :
    buffer.any isSet := by
  obtain ⟨byte, hbyte, hset⟩ := List.any_eq_true.mp hpart
  exact List.any_eq_true.mpr ⟨byte, List.mem_of_mem_take (List.mem_of_mem_drop hbyte), hset⟩

/-- The buffer after some writes, one after the other. -/
def writeAll (buffer : Bytes) (parts : List (ℕ × Bytes)) : Bytes :=
  parts.foldl (fun buffer part ↦ write buffer part.2 part.1) buffer

theorem writeAll_cons (buffer : Bytes) (part : ℕ × Bytes) (parts : List (ℕ × Bytes)) :
    writeAll buffer (part :: parts) = writeAll (write buffer part.2 part.1) parts := rfl

/-- Writes that stay within a buffer. -/
def Fits (length : ℕ) (parts : List (ℕ × Bytes)) : Prop :=
  ∀ part ∈ parts, part.1 + part.2.length ≤ length

theorem length_writeAll {parts : List (ℕ × Bytes)} (hfits : Fits buffer.length parts) :
    (writeAll buffer parts).length = buffer.length := by
  induction parts generalizing buffer with
  | nil => rfl
  | cons part parts ih =>
    have hwrite := length_write (hfits part List.mem_cons_self)
    refine (ih ?_).trans hwrite
    rw [hwrite]
    exact fun other hother ↦ hfits other (List.mem_cons_of_mem _ hother)

/-- Writes elsewhere leave a part alone. -/
theorem subarray_writeAll_of_apart {parts : List (ℕ × Bytes)} (hfits : Fits buffer.length parts)
    (hapart : ∀ part ∈ parts, stop ≤ part.1 ∨ part.1 + part.2.length ≤ start) :
    subarray (writeAll buffer parts) start stop = subarray buffer start stop := by
  induction parts generalizing buffer with
  | nil => rfl
  | cons part parts ih =>
    have hfit := hfits part List.mem_cons_self
    have hlater := fun other hother ↦ hapart other (List.mem_cons_of_mem part hother)
    refine (ih ?_ hlater).trans ?_
    · rw [length_write hfit]
      exact fun other hother ↦ hfits other (List.mem_cons_of_mem _ hother)
    · rcases hapart part List.mem_cons_self with hbefore | hafter
      · exact subarray_write_of_le hbefore (Nat.le_of_add_right_le hfit)
      · exact subarray_write_of_ge hafter hfit

/-- A part that is written holds what was written, unless it is written over. -/
theorem subarray_writeAll {before after : List (ℕ × Bytes)}
    (hfits : Fits buffer.length (before ++ (offset, bytes) :: after))
    (hapart : ∀ part ∈ after,
      offset + bytes.length ≤ part.1 ∨ part.1 + part.2.length ≤ offset) :
    subarray (writeAll buffer (before ++ (offset, bytes) :: after)) offset
      (offset + bytes.length) = bytes := by
  have hbefore : (writeAll buffer before).length = buffer.length :=
    length_writeAll fun part hpart ↦ hfits part (List.mem_append_left _ hpart)
  have hfit : offset + bytes.length ≤ (writeAll buffer before).length := by
    rw [hbefore]
    exact hfits (offset, bytes) (List.mem_append_right _ List.mem_cons_self)
  have hwrites : writeAll buffer (before ++ (offset, bytes) :: after) =
      writeAll (write (writeAll buffer before) bytes offset) after := by
    unfold writeAll
    rw [List.foldl_append, List.foldl_cons]
  rw [hwrites, subarray_writeAll_of_apart _ hapart, subarray_write_self hfit]
  rw [length_write hfit, hbefore]
  exact fun part hpart ↦
    hfits part (List.mem_append_right _ (List.mem_cons_of_mem _ hpart))

end Buffer

end VmsLite.Data
