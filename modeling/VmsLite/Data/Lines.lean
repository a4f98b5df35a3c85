import VmsLite.Data.Utf8
import Mathlib.Data.List.Basic

/-!
# Lines

A text split where a carriage return and a line feed stand behind one another. The symbols are those
of any alphabet, so that bytes and characters are split by one function, and the lines of the UTF-8
bytes of a text are the bytes of its lines (`splitLines_utf8`).
-/

set_option autoImplicit false

namespace VmsLite.Data

section Alphabet

variable {α : Type} [DecidableEq α] {cr lf : α}

/-- The lines of a text. The last one is what stands behind the last line break. -/
def splitLines (cr lf : α) : List α → List (List α)
  | [] => [[]]
  | [symbol] => [[symbol]]
  | symbol :: next :: rest =>
    if symbol = cr ∧ next = lf then [] :: splitLines cr lf rest
    else (splitLines cr lf (next :: rest)).modifyHead (symbol :: ·)

/-- Lines, each with a line break behind it. -/
def joinLines (cr lf : α) (lines : List (List α)) : List α :=
  lines.flatMap fun line ↦ line ++ [cr, lf]

theorem splitLines_ne_nil (text : List α) : splitLines cr lf text ≠ [] := by
  induction text using splitLines.induct cr lf with
  | case1 => exact List.cons_ne_nil _ _
  | case2 symbol => exact List.cons_ne_nil _ _
  | case3 symbol next rest hbreak ih => simp [splitLines, hbreak]
  | case4 symbol next rest hbreak ih => simpa [splitLines, hbreak] using ih

omit [DecidableEq α] in
theorem modifyHead_append {lines : List (List α)} (hlines : lines ≠ []) (more : List (List α))
    (change : List α → List α) :
    (lines ++ more).modifyHead change = lines.modifyHead change ++ more := by
  obtain ⟨line, lines, rfl⟩ := List.exists_cons_of_ne_nil hlines
  rfl

/-- A line break ends the lines before it. -/
theorem splitLines_append (hne : cr ≠ lf) (before after : List α) :
    splitLines cr lf (before ++ cr :: lf :: after) =
      splitLines cr lf before ++ splitLines cr lf after := by
  induction before using splitLines.induct cr lf with
  | case1 => simp [splitLines]
  | case2 symbol => simp [splitLines, hne]
  | case3 symbol next rest hbreak ih =>
    rw [List.cons_append, List.cons_append, splitLines, splitLines, if_pos hbreak, if_pos hbreak,
      ih]
    rfl
  | case4 symbol next rest hbreak ih =>
    rw [List.cons_append, List.cons_append, splitLines, splitLines, if_neg hbreak, if_neg hbreak,
      ← List.cons_append, ih, modifyHead_append (splitLines_ne_nil _)]

theorem splitLines_cons_of_ne {symbol : α} (hsymbol : symbol ≠ cr) (text : List α) :
    splitLines cr lf (symbol :: text) = (splitLines cr lf text).modifyHead (symbol :: ·) := by
  cases text with
  | nil => rfl
  | cons next rest => rw [splitLines, if_neg fun hbreak ↦ hsymbol hbreak.1]

theorem splitLines_append_of_not_mem {before : List α} (hbefore : cr ∉ before) (text : List α) :
    splitLines cr lf (before ++ text) = (splitLines cr lf text).modifyHead (before ++ ·) := by
  induction before with
  | nil =>
    obtain ⟨line, lines, hlines⟩ := List.exists_cons_of_ne_nil (splitLines_ne_nil text)
    rw [List.nil_append, hlines]
    rfl
  | cons symbol before ih =>
    obtain ⟨hsymbol, hbefore⟩ := List.mem_cons.not.trans not_or |>.mp hbefore
    rw [List.cons_append, splitLines_cons_of_ne (Ne.symm hsymbol), ih hbefore,
      List.modifyHead_modifyHead]
    rfl

/-- A text without a carriage return is one line. -/
theorem splitLines_of_not_mem {line : List α} (hline : cr ∉ line) :
    splitLines cr lf line = [line] := by
  have hsplit := @splitLines_append_of_not_mem α _ cr lf line hline []
  rw [List.append_nil] at hsplit
  rw [hsplit, splitLines, List.modifyHead, List.append_nil]

theorem splitLines_joinLines (hne : cr ≠ lf) {lines : List (List α)}
    (hlines : ∀ line ∈ lines, cr ∉ line) (text : List α) :
    splitLines cr lf (joinLines cr lf lines ++ text) = lines ++ splitLines cr lf text := by
  induction lines with
  | nil => rfl
  | cons line lines ih =>
    obtain ⟨hline, hlines⟩ := List.forall_mem_cons.mp hlines
    have hjoin : joinLines cr lf (line :: lines) ++ text =
        line ++ cr :: lf :: (joinLines cr lf lines ++ text) := by
      simp [joinLines]
    rw [hjoin, splitLines_append hne, splitLines_of_not_mem hline, ih hlines]
    rfl

/-- With a line break behind each, the lines of a text make up the text and a last line break. -/
theorem joinLines_splitLines (text : List α) :
    joinLines cr lf (splitLines cr lf text) = text ++ [cr, lf] := by
  induction text using splitLines.induct cr lf with
  | case1 => rfl
  | case2 symbol => rfl
  | case3 symbol next rest hbreak ih =>
    obtain ⟨rfl, rfl⟩ := hbreak
    rw [splitLines, if_pos ⟨rfl, rfl⟩, joinLines, List.flatMap_cons, List.nil_append]
    exact congrArg (symbol :: next :: ·) ih
  | case4 symbol next rest hbreak ih =>
    obtain ⟨line, lines, hlines⟩ := List.exists_cons_of_ne_nil
      (@splitLines_ne_nil α _ cr lf (next :: rest))
    rw [splitLines, if_neg hbreak]
    rw [hlines] at ih ⊢
    exact congrArg (symbol :: ·) ih

/-- The complete lines of a part of some lines leave out the last one. -/
theorem dropLast_splitLines_of_prefix (hne : cr ≠ lf) {lines : List (List α)}
    (hlines : ∀ line ∈ lines, cr ∉ line) {text : List α} (htext : text <+: joinLines cr lf lines)
    (hpart : text ≠ joinLines cr lf lines) :
    (splitLines cr lf text).dropLast <+: lines.dropLast := by
  induction lines generalizing text with
  | nil => exact absurd (List.prefix_nil.mp htext) hpart
  | cons line lines ih =>
    obtain ⟨hline, hlines⟩ := List.forall_mem_cons.mp hlines
    have hjoin : joinLines cr lf (line :: lines) = line ++ cr :: lf :: joinLines cr lf lines := by
      simp [joinLines]
    rw [hjoin] at htext hpart
    obtain ⟨tail, htail⟩ := htext
    rcases List.append_eq_append_iff.mp htail with ⟨missing, hmissing, -⟩ | ⟨found, rfl, hfound⟩
    · -- The part ends within the first line
      have hwithin : cr ∉ text := fun hmem ↦ hline (hmissing ▸ List.mem_append_left _ hmem)
      rw [splitLines_of_not_mem hwithin]
      exact List.nil_prefix
    · match found, hfound with
      | [], _ =>
        rw [List.append_nil, splitLines_of_not_mem hline]
        exact List.nil_prefix
      | [symbol], _ =>
        rw [splitLines_append_of_not_mem hline]
        exact List.nil_prefix
      | symbol :: next :: found, hfound =>
        obtain ⟨rfl, rfl, htext⟩ : cr = symbol ∧ lf = next ∧ joinLines cr lf lines =
            found ++ tail := by
          simpa using hfound
        have hrest : lines ≠ [] := by
          rintro rfl
          obtain ⟨rfl, -⟩ := List.append_eq_nil_iff.mp htext.symm
          exact hpart rfl
        have hmore := ih hlines ⟨tail, htext.symm⟩ fun heq ↦ hpart (by rw [heq])
        rw [splitLines_append hne, splitLines_of_not_mem hline,
          List.dropLast_append_of_ne_nil (splitLines_ne_nil _), List.dropLast_cons_of_ne_nil hrest]
        exact List.cons_prefix_cons.mpr ⟨rfl, hmore⟩

omit [DecidableEq α] in
/-- What is true of a separator and of the parts is true of the joined text. -/
theorem forall_mem_intercalate {holds : α → Prop} {separator : List α} {parts : List (List α)}
    (hseparator : ∀ symbol ∈ separator, holds symbol)
    (hparts : ∀ part ∈ parts, ∀ symbol ∈ part, holds symbol) :
    ∀ symbol ∈ separator.intercalate parts, holds symbol := by
  induction parts with
  | nil => exact nofun
  | cons part parts ih =>
    obtain ⟨hpart, hparts⟩ := List.forall_mem_cons.mp hparts
    cases parts with
    | nil =>
      rw [List.intercalate_singleton]
      exact hpart
    | cons next parts =>
      rw [List.intercalate_cons_cons]
      exact List.forall_mem_append.mpr ⟨List.forall_mem_append.mpr ⟨hpart, hseparator⟩, ih hparts⟩

omit [DecidableEq α] in
theorem intercalate_append_break {lines : List (List α)} (hlines : lines ≠ []) :
    [cr, lf].intercalate lines ++ [cr, lf] = joinLines cr lf lines := by
  induction lines with
  | nil => exact absurd rfl hlines
  | cons line lines ih =>
    cases lines with
    | nil => simp [joinLines]
    | cons next lines =>
      rw [List.intercalate_cons_cons, List.append_assoc, ih (List.cons_ne_nil _ _)]
      rfl

end Alphabet

/-! ### Bytes -/

/-- The byte of an ASCII character stands in no other character's bytes. -/
theorem eq_of_mem_utf8EncodeChar {char ascii : Char} (hascii : isAscii ascii = true)
    (hmem : UInt8.ofNat ascii.toNat ∈ String.utf8EncodeChar char) : char = ascii := by
  have hsmall : ascii.toNat < 128 := of_decide_eq_true hascii
  have hbyte : (UInt8.ofNat ascii.toNat).toNat = ascii.toNat := by
    rw [UInt8.toNat_ofNat']
    exact Nat.mod_eq_of_lt (hsmall.trans (by decide))
  obtain ⟨other, hother, hsame⟩ := @exists_of_mem_utf8 [char] _
    (by rwa [utf8_cons, utf8, List.flatMap_nil, List.append_nil]) (hbyte.symm ▸ hsmall)
  rw [List.mem_singleton.mp hother, hbyte] at hsame
  exact Char.toNat_inj.mp hsame

theorem map_modifyHead_utf8 (symbol : Char) (lines : List (List Char)) :
    (lines.modifyHead (symbol :: ·)).map utf8 =
      (lines.map utf8).modifyHead (String.utf8EncodeChar symbol ++ ·) := by
  cases lines with
  | nil => rfl
  | cons line lines => simp [utf8_cons]

theorem splitLines_utf8 (text : List Char) :
    splitLines 13 10 (utf8 text) = (splitLines '\r' '\n' text).map utf8 := by
  have hcarriage : String.utf8EncodeChar '\r' = [13] := utf8EncodeChar_of_ascii (by decide)
  have hfeed : String.utf8EncodeChar '\n' = [10] := utf8EncodeChar_of_ascii (by decide)
  have hplain : ∀ symbol : Char, symbol ≠ '\r' → (13 : UInt8) ∉ String.utf8EncodeChar symbol :=
    fun symbol hsymbol hmem ↦ hsymbol (@eq_of_mem_utf8EncodeChar symbol '\r' (by decide) hmem)
  induction text using splitLines.induct '\r' '\n' with
  | case1 => rfl
  | case2 symbol =>
    by_cases hsymbol : symbol = '\r'
    · rw [hsymbol]
      decide
    · have hline : (13 : UInt8) ∉ utf8 [symbol] := by
        rw [utf8_cons, utf8, List.flatMap_nil, List.append_nil]
        exact hplain symbol hsymbol
      rw [splitLines_of_not_mem hline]
      rfl
  | case3 symbol next rest hbreak ih =>
    obtain ⟨rfl, rfl⟩ := hbreak
    rw [utf8_cons, utf8_cons, hcarriage, hfeed, splitLines, if_pos ⟨rfl, rfl⟩, List.map_cons, ← ih]
    exact splitLines_append (by decide) [] (utf8 rest)
  | case4 symbol next rest hbreak ih =>
    rw [utf8_cons, splitLines, if_neg hbreak, map_modifyHead_utf8, ← ih]
    by_cases hsymbol : symbol = '\r'
    · have hnext : next ≠ '\n' := fun hnext ↦ hbreak ⟨hsymbol, hnext⟩
      obtain ⟨byte, more, hbytes⟩ := List.exists_cons_of_ne_nil
        (String.utf8EncodeChar_ne_nil : String.utf8EncodeChar next ≠ [])
      have hbyte : byte ≠ 10 := by
        rintro rfl
        exact hnext (@eq_of_mem_utf8EncodeChar next '\n' (by decide) (hbytes ▸ List.mem_cons_self))
      rw [hsymbol, hcarriage, utf8_cons, hbytes]
      exact if_neg fun hand ↦ hbyte hand.2
    · exact splitLines_append_of_not_mem (hplain symbol hsymbol) _

end VmsLite.Data
