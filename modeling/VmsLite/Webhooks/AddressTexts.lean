import VmsLite.Data.Lines
import VmsLite.Webhooks.UrlSafety

/-!
# Address ranges and texts of addresses

The ranges of addresses that a webhook must not reach, and the texts that name an address: an IPv4
address in decimal with dots; an IPv6 address in groups of hexadecimal digits, in brackets or not,
with `::` for a run of zero groups; and what the tests of
`isPrivateOrBlockedIp` say about them by the numbers of the address (`isBlockedIpv4_text`,
`isBlockedText_group`, `isBlockedText_colon`).
-/

set_option autoImplicit false

namespace VmsLite.Webhooks

open Url (Text)

/-! ### Addresses -/

abbrev Octet := Fin 256

/-- Sixteen bits of an IPv6 address. -/
abbrev Group := Fin 65536

namespace Group

def zero : Group := ⟨0, Nat.succ_pos _⟩

/-- The group before the IPv4 address of an IPv4-mapped one. -/
def marker : Group := ⟨0xffff, Nat.lt_succ_self _⟩

@[simp] theorem val_zero : zero.val = 0 := rfl

@[simp] theorem val_marker : marker.val = 0xffff := rfl

end Group

structure Ipv4 where
  first : Octet
  second : Octet
  third : Octet
  fourth : Octet
  deriving DecidableEq, Repr

/-- 127/8, 10/8, 172.16/12, 192.168/16, 169.254/16 and 0/8, by the first two octets. -/
def IsPrivateIpv4 (first second : ℕ) : Prop :=
  first = 127 ∨ first = 10 ∨ (first = 172 ∧ second / 16 = 1) ∨ (first = 192 ∧ second = 168) ∨
    (first = 169 ∧ second = 254) ∨ first = 0

instance (first second : ℕ) : Decidable (IsPrivateIpv4 first second) := by
  unfold IsPrivateIpv4
  infer_instance

/-- ::/128, ::1/128, fe80::/10, fc00::/7 and the IPv4-mapped addresses of a private range. -/
def IsPrivateIpv6 : List Group → Prop
  | [g0, g1, g2, g3, g4, g5, g6, g7] =>
    let leading := g0.val = 0 ∧ g1.val = 0 ∧ g2.val = 0 ∧ g3.val = 0 ∧ g4.val = 0
    (leading ∧ g5.val = 0 ∧ g6.val = 0 ∧ g7.val ≤ 1) ∨ g0.val / 64 = 0xfe80 / 64 ∨
      g0.val / 512 = 0xfc00 / 512 ∨
      (leading ∧ g5.val = 0xffff ∧ IsPrivateIpv4 (g6.val / 256) (g6.val % 256))
  | _ => False

/-! ### Texts -/

def Ipv4.text (ip : Ipv4) : Text :=
  ['.'].intercalate ([ip.first, ip.second, ip.third, ip.fourth].map fun octet ↦
    Nat.toDigits 10 octet.val)

def hex (group : Group) : Text := Nat.toDigits 16 group.val

def groupsText (groups : List Group) : Text := [':'].intercalate (groups.map hex)

/-- A text of an IPv6 address: its groups, or those before and after a `::` that stands for the
others, which are zero. -/
structure Ipv6Text where
  bracketed : Bool
  before : List Group
  after : Option (List Group)
  length : match after with
    | none => before.length = 8
    | some after => before.length + after.length < 8

namespace Ipv6Text

def groups (ip : Ipv6Text) : List Group :=
  match ip.after with
  | none => ip.before
  | some after => ip.before ++
      List.replicate (8 - (ip.before.length + after.length)) Group.zero ++ after

/-- The text without brackets. -/
def body (ip : Ipv6Text) : Text :=
  match ip.after with
  | none => groupsText ip.before
  | some after => groupsText ip.before ++ ':' :: ':' :: groupsText after

def text (ip : Ipv6Text) : Text := if ip.bracketed then '[' :: (ip.body ++ [']']) else ip.body

end Ipv6Text

/-! ### Characters of a text -/

/-- A character that neither `toLowerCase` nor `trim` changes. -/
def isSettled (char : Char) : Bool := char.toLower = char && !Media.isBlank char

theorem isSettled_of_mem_toDigits {base number : ℕ} (hbase : base = 10 ∨ base = 16) :
    ∀ char ∈ Nat.toDigits base number, isSettled char = true ∧ char ≠ ':' ∧ char ≠ '.' := by
  have hdigit : ∀ digit < 16, isSettled (Nat.digitChar digit) = true ∧
      Nat.digitChar digit ≠ ':' ∧ Nat.digitChar digit ≠ '.' := by decide
  have hsmall : 1 < base := by omega
  induction number using Nat.strong_induction_on with
  | _ number ih =>
    intro char hchar
    rw [Nat.toDigits_eq_if hsmall] at hchar
    split_ifs at hchar with hlast
    · rw [List.mem_singleton.mp hchar]
      exact hdigit _ (by omega)
    · rcases List.mem_append.mp hchar with hfront | hback
      · exact ih (number / base) (Nat.div_lt_self (by omega) hsmall) char hfront
      · rw [List.mem_singleton.mp hback]
        exact hdigit _ ((Nat.mod_lt _ (by omega)).trans_le (by omega))

theorem isSettled_groupsText (groups : List Group) :
    ∀ char ∈ groupsText groups, isSettled char = true := by
  refine Data.forall_mem_intercalate (List.forall_mem_singleton.mpr rfl)
    fun part hpart char hchar ↦ ?_
  obtain ⟨group, -, rfl⟩ := List.mem_map.mp hpart
  exact (isSettled_of_mem_toDigits (Or.inr rfl) char hchar).1

theorem isSettled_ipv4 (ip : Ipv4) : ∀ char ∈ ip.text, isSettled char = true := by
  refine Data.forall_mem_intercalate (List.forall_mem_singleton.mpr rfl)
    fun part hpart char hchar ↦ ?_
  obtain ⟨octet, -, rfl⟩ := List.mem_map.mp hpart
  exact (isSettled_of_mem_toDigits (Or.inl rfl) char hchar).1

/-- What the guard looks at is the text itself. -/
theorem clean_of_isSettled {text : Text} (htext : ∀ char ∈ text, isSettled char = true) :
    Media.trim ((String.ofList text).toList.map Char.toLower) = text := by
  have hlower : text.map Char.toLower = text := by
    refine (List.map_congr_left fun char hchar ↦ ?_).trans (List.map_id text)
    exact of_decide_eq_true (Bool.and_eq_true_iff.mp (htext char hchar)).1
  rw [String.toList_ofList, hlower, Media.trim_of_forall fun char hchar ↦ ?_]
  simpa using (Bool.and_eq_true_iff.mp (htext char hchar)).2

/-! ### What the guard tests -/

/-- The tests of the guard, after the prefix of an IPv4-mapped address is off. -/
def isBlockedText (text : Text) : Bool :=
  text = [':', ':', '1'] || ['f', 'e', '8', '0', ':'].isPrefixOf text ||
    ['f', 'c'].isPrefixOf text || ['f', 'd'].isPrefixOf text || isBlockedIpv4 text

theorem isPrivateOrBlockedIp_of_isSettled {text : Text}
    (htext : ∀ char ∈ text, isSettled char = true) :
    isPrivateOrBlockedIp false (String.ofList text) = isBlockedText (unmapped text) := by
  unfold isPrivateOrBlockedIp isBlockedText
  rw [clean_of_isSettled htext]
  simp

theorem isBlockedIpv4_of_not_mem {text : Text} (htext : '.' ∉ text) :
    isBlockedIpv4 text = false := by
  have hsplit := @List.splitOn_intercalate _ [text] _ _ '.' (by simpa using htext) (by simp)
  rw [List.intercalate_singleton] at hsplit
  unfold isBlockedIpv4
  rw [hsplit, List.map_singleton]
  cases parseInt text <;> rfl

theorem leadingNumber_toDigits (number : ℕ) :
    leadingNumber (Nat.toDigits 10 number) = some number := by
  have hdigits : ∀ char ∈ Nat.toDigits 10 number, char.isDigit = true :=
    fun char hchar ↦ Nat.isDigit_of_mem_toDigits (by decide) (by decide) hchar
  have hvalue := @Nat.ofDigitChars_toDigits 10 number (by decide) (by decide)
  rw [Nat.ofDigitChars_eq_foldl] at hvalue
  unfold leadingNumber
  rw [List.takeWhile_eq_self_iff.mpr hdigits]
  split
  · exact absurd ‹_› Nat.toDigits_ne_nil
  · exact congrArg some hvalue

theorem parseInt_toDigits (number : ℕ) :
    parseInt (Nat.toDigits 10 number) = some (number : ℤ) := by
  have hsettled := fun char hchar ↦
    (@isSettled_of_mem_toDigits 10 number (Or.inl rfl) char hchar).1
  have hdigits : ∀ char ∈ Nat.toDigits 10 number, char.isDigit = true :=
    fun char hchar ↦ Nat.isDigit_of_mem_toDigits (by decide) (by decide) hchar
  unfold parseInt
  rw [Media.dropWhile_isBlank_of_forall fun char hchar ↦ by
    simpa using (Bool.and_eq_true_iff.mp (hsettled char hchar)).2]
  split
  · have hsign := hdigits '-' (by simp [*])
    exact absurd hsign (by decide)
  · have hsign := hdigits '+' (by simp [*])
    exact absurd hsign (by decide)
  · rw [leadingNumber_toDigits]
    rfl

theorem isBlockedRange_iff {first second : ℕ} :
    isBlockedRange first second = true ↔ IsPrivateIpv4 first second := by
  unfold isBlockedRange IsPrivateIpv4
  simp only [Bool.or_eq_true, Bool.and_eq_true, decide_eq_true_eq]
  omega

/-- The numbers of an IPv4 address are read as they are. -/
theorem isBlockedIpv4_text (ip : Ipv4) :
    isBlockedIpv4 ip.text = true ↔ IsPrivateIpv4 ip.first.val ip.second.val := by
  have hparts : ∀ part ∈ [ip.first, ip.second, ip.third, ip.fourth].map fun octet ↦
      Nat.toDigits 10 octet.val, '.' ∉ part := by
    intro part hpart hdot
    obtain ⟨octet, -, rfl⟩ := List.mem_map.mp hpart
    exact (isSettled_of_mem_toDigits (Or.inl rfl) '.' hdot).2.2 rfl
  have hsplit := List.splitOn_intercalate '.' hparts (by simp)
  have hoctet : ∀ octet : Octet, (0 : ℤ) ≤ octet.val ∧ (octet.val : ℤ) ≤ 255 := by
    intro octet
    have hlt := octet.isLt
    omega
  unfold isBlockedIpv4 Ipv4.text
  rw [hsplit]
  simp only [List.map_cons, List.map_nil, parseInt_toDigits, List.all_cons, List.all_nil, hoctet,
    decide_true, Bool.and_true, Bool.true_and]
  exact isBlockedRange_iff

/-! ### Groups of hexadecimal digits -/

/-- A group whose digits begin as those of fc00::/7 do. -/
def LooksUniqueLocal (group : ℕ) : Prop :=
  group = 0xfc ∨ group = 0xfd ∨ (0xfc0 ≤ group ∧ group ≤ 0xfdf) ∨
    (0xfc00 ≤ group ∧ group ≤ 0xfdff)

theorem hex_eq (group : Group) : hex group =
    if group.val < 16 then [Nat.digitChar group.val]
    else if group.val < 256 then
      [Nat.digitChar (group.val / 16), Nat.digitChar (group.val % 16)]
    else if group.val < 4096 then
      [Nat.digitChar (group.val / 256), Nat.digitChar (group.val / 16 % 16),
        Nat.digitChar (group.val % 16)]
    else
      [Nat.digitChar (group.val / 4096), Nat.digitChar (group.val / 256 % 16),
        Nat.digitChar (group.val / 16 % 16), Nat.digitChar (group.val % 16)] := by
  have hlt := group.isLt
  unfold hex
  generalize group.val = number at *
  have hstep := fun number ↦ @Nat.toDigits_eq_if 16 number (by decide)
  rw [hstep number, hstep (number / 16), hstep (number / 16 / 16), hstep (number / 16 / 16 / 16)]
  split_ifs <;> simp [Nat.div_div_eq_div_mul] <;> omega

/-- What may stand behind a group. -/
def EndsGroup (rest : Text) : Prop := rest = [] ∨ ∃ more, rest = ':' :: more

theorem EndsGroup.isPrefixOf {rest : Text} (hrest : EndsGroup rest) {letter : Char}
    (hletter : letter ≠ ':') (letters : Text) : (letter :: letters).isPrefixOf rest = false := by
  rcases hrest with rfl | ⟨more, rfl⟩
  · rfl
  · rw [List.isPrefixOf_cons_cons, beq_false_of_ne hletter, Bool.false_and]

theorem digitChar_eq_iff {digit : ℕ} (hdigit : digit < 16) :
    (Nat.digitChar digit = 'f' ↔ digit = 15) ∧ (Nat.digitChar digit = 'e' ↔ digit = 14) ∧
      (Nat.digitChar digit = 'd' ↔ digit = 13) ∧ (Nat.digitChar digit = 'c' ↔ digit = 12) ∧
        (Nat.digitChar digit = '8' ↔ digit = 8) ∧ (Nat.digitChar digit = '0' ↔ digit = 0) ∧
          Nat.digitChar digit ≠ ':' := by
  revert digit
  decide

theorem uniqueLocal_isPrefixOf_iff (group : Group) {rest : Text} (hrest : EndsGroup rest) :
    (['f', 'c'].isPrefixOf (hex group ++ rest) = true ∨
      ['f', 'd'].isPrefixOf (hex group ++ rest) = true) ↔ LooksUniqueLocal group.val := by
  have hlt := group.isLt
  rw [hex_eq]
  unfold LooksUniqueLocal
  generalize group.val = number at *
  split_ifs with hone htwo hthree
  · simp only [List.cons_append, List.nil_append, List.isPrefixOf_cons_cons,
      hrest.isPrefixOf (by decide : 'c' ≠ ':'), hrest.isPrefixOf (by decide : 'd' ≠ ':'),
      Bool.and_false, Bool.false_eq_true, or_self, false_iff]
    omega
  · have hfirst := @digitChar_eq_iff (number / 16) (by omega)
    have hsecond := @digitChar_eq_iff (number % 16) (by omega)
    simp only [List.cons_append, List.isPrefixOf_cons_cons, List.isPrefixOf_nil_left, Bool.and_true,
      Bool.and_eq_true, beq_iff_eq, @eq_comm _ 'f', @eq_comm _ 'c', @eq_comm _ 'd', hfirst,
      hsecond]
    omega
  · have hfirst := @digitChar_eq_iff (number / 256) (by omega)
    have hsecond := @digitChar_eq_iff (number / 16 % 16) (by omega)
    simp only [List.cons_append, List.isPrefixOf_cons_cons, List.isPrefixOf_nil_left, Bool.and_true,
      Bool.and_eq_true, beq_iff_eq, @eq_comm _ 'f', @eq_comm _ 'c', @eq_comm _ 'd', hfirst,
      hsecond]
    omega
  · have hfirst := @digitChar_eq_iff (number / 4096) (by omega)
    have hsecond := @digitChar_eq_iff (number / 256 % 16) (by omega)
    simp only [List.cons_append, List.isPrefixOf_cons_cons, List.isPrefixOf_nil_left, Bool.and_true,
      Bool.and_eq_true, beq_iff_eq, @eq_comm _ 'f', @eq_comm _ 'c', @eq_comm _ 'd', hfirst,
      hsecond]
    omega

theorem digitChar_inj {digit other : ℕ} (hdigit : digit < 16) (hother : other < 16) :
    Nat.digitChar digit = Nat.digitChar other ↔ digit = other := by
  have hall : ∀ digit < 16, ∀ other < 16,
      (Nat.digitChar digit = Nat.digitChar other ↔ digit = other) := by decide
  exact hall digit hdigit other hother

/-- Four digits and a colon at the head of a text. -/
theorem fourDigits_isPrefixOf_iff (group : Group) {rest : Text} (hrest : EndsGroup rest)
    {first second third fourth : ℕ} (hfirst : 0 < first ∧ first < 16) (hsecond : second < 16)
    (hthird : third < 16) (hfourth : fourth < 16) :
    ([first, second, third, fourth].map Nat.digitChar ++ [':']).isPrefixOf (hex group ++ rest) =
        true ↔
      group.val = 4096 * first + 256 * second + 16 * third + fourth ∧ rest ≠ [] := by
  have hlt := group.isLt
  have hcolon := fun digit hdigit ↦ (@digitChar_eq_iff digit hdigit).2.2.2.2.2.2
  rw [hex_eq]
  generalize group.val = number at *
  simp only [List.map_cons, List.map_nil, List.cons_append, List.nil_append]
  split_ifs with hone htwo hthree
  · simp only [List.cons_append, List.nil_append, List.isPrefixOf_cons_cons,
      hrest.isPrefixOf (hcolon second hsecond), Bool.and_false, Bool.false_eq_true, false_iff]
    omega
  · simp only [List.cons_append, List.nil_append, List.isPrefixOf_cons_cons,
      hrest.isPrefixOf (hcolon third hthird), Bool.and_false, Bool.false_eq_true, false_iff]
    omega
  · simp only [List.cons_append, List.nil_append, List.isPrefixOf_cons_cons,
      hrest.isPrefixOf (hcolon fourth hfourth), Bool.and_false, Bool.false_eq_true, false_iff]
    omega
  · have hend : [':'].isPrefixOf rest = true ↔ rest ≠ [] := by
      rcases hrest with rfl | ⟨more, rfl⟩
      · simp
      · simp
    simp only [List.cons_append, List.nil_append, List.isPrefixOf_cons_cons, Bool.and_eq_true,
      beq_iff_eq, hend, digitChar_inj hfirst.2 (by omega : number / 4096 < 16),
      digitChar_inj hsecond (by omega : number / 256 % 16 < 16),
      digitChar_inj hthird (by omega : number / 16 % 16 < 16),
      digitChar_inj hfourth (by omega : number % 16 < 16), ← and_assoc]
    refine and_congr_left' ?_
    omega

theorem linkLocal_isPrefixOf_iff (group : Group) {rest : Text} (hrest : EndsGroup rest) :
    ['f', 'e', '8', '0', ':'].isPrefixOf (hex group ++ rest) = true ↔
      group.val = 0xfe80 ∧ rest ≠ [] :=
  @fourDigits_isPrefixOf_iff group rest hrest 15 14 8 0 (by decide) (by decide) (by decide)
    (by decide)

theorem mapped_isPrefixOf_iff (group : Group) {rest : Text} (hrest : EndsGroup rest) :
    ['f', 'f', 'f', 'f', ':'].isPrefixOf (hex group ++ rest) = true ↔
      group.val = 0xffff ∧ rest ≠ [] :=
  @fourDigits_isPrefixOf_iff group rest hrest 15 15 15 15 (by decide) (by decide) (by decide)
    (by decide)

/-! ### Texts of groups -/

/-- What stands behind the first group of a text. -/
def behind : List Group → Text
  | [] => []
  | groups => ':' :: groupsText groups

theorem endsGroup_behind (groups : List Group) : EndsGroup (behind groups) := by
  cases groups with
  | nil => exact Or.inl rfl
  | cons group groups => exact Or.inr ⟨_, rfl⟩

theorem behind_ne_nil_iff (groups : List Group) : behind groups ≠ [] ↔ groups ≠ [] := by
  cases groups with
  | nil => exact iff_of_false (not_not_intro rfl) (not_not_intro rfl)
  | cons group groups => exact iff_of_true (List.cons_ne_nil _ _) (List.cons_ne_nil _ _)

theorem groupsText_cons (group : Group) (groups : List Group) :
    groupsText (group :: groups) = hex group ++ behind groups := by
  cases groups with
  | nil => rw [groupsText, List.map_singleton, List.intercalate_singleton, behind, List.append_nil]
  | cons next groups =>
    rw [groupsText, List.map_cons, List.map_cons, List.intercalate_cons_cons, List.append_assoc]
    rfl

/-- The first character of a group is not a colon. -/
theorem hex_eq_cons (group : Group) :
    ∃ digit more, hex group = digit :: more ∧ digit ≠ ':' ∧ digit ≠ '.' := by
  obtain ⟨digit, more, hhex⟩ := List.exists_cons_of_ne_nil
    (Nat.toDigits_ne_nil : Nat.toDigits 16 group.val ≠ [])
  have hmem := isSettled_of_mem_toDigits (Or.inr rfl) digit (hhex ▸ List.mem_cons_self)
  exact ⟨digit, more, hhex, hmem.2⟩

theorem not_mem_groupsText (groups : List Group) : '.' ∉ groupsText groups := by
  induction groups with
  | nil => exact List.not_mem_nil
  | cons group groups ih =>
    have hhex : '.' ∉ hex group := fun hmem ↦
      (isSettled_of_mem_toDigits (Or.inr rfl) '.' hmem).2.2 rfl
    rw [groupsText_cons]
    cases groups with
    | nil => simpa [behind] using hhex
    | cons next groups => simpa [behind] using ⟨hhex, ih⟩

/-- A text that begins with a group is blocked by that group. -/
theorem isBlockedText_group (group : Group) {rest : Text} (hrest : EndsGroup rest)
    (hdot : '.' ∉ hex group ++ rest) :
    isBlockedText (hex group ++ rest) = true ↔
      LooksUniqueLocal group.val ∨ (group.val = 0xfe80 ∧ rest ≠ []) := by
  obtain ⟨digit, more, hhex, hcolon, -⟩ := hex_eq_cons group
  have hloopback : hex group ++ rest ≠ [':', ':', '1'] := by
    rw [hhex]
    exact fun heq ↦ hcolon (List.cons.inj heq).1
  rw [← uniqueLocal_isPrefixOf_iff group hrest, ← linkLocal_isPrefixOf_iff group hrest]
  unfold isBlockedText
  rw [decide_eq_false hloopback, isBlockedIpv4_of_not_mem hdot]
  simp only [Bool.false_or, Bool.or_false, Bool.or_eq_true]
  tauto

/-- The only text with a leading colon that is blocked. -/
theorem isBlockedText_colon {rest : Text} (hrest : '.' ∉ rest) :
    isBlockedText (':' :: rest) = true ↔ rest = [':', '1'] := by
  have hdot : '.' ∉ ':' :: rest := by simpa using hrest
  unfold isBlockedText
  rw [isBlockedIpv4_of_not_mem hdot]
  simp [List.isPrefixOf_cons_cons]

theorem groupsText_eq_one_iff (groups : List Group) :
    groupsText groups = ['1'] ↔ groups = [⟨1, by decide⟩] := by
  cases groups with
  | nil => exact iff_of_false (by decide) (by decide)
  | cons group groups =>
    rw [groupsText_cons]
    cases groups with
    | nil =>
      have hlt := group.isLt
      rw [behind, List.append_nil, hex_eq, List.cons.injEq, Fin.ext_iff]
      generalize group.val = number at *
      split_ifs with hone
      · simp only [List.cons.injEq, and_true]
        exact @digitChar_inj number 1 hone (by decide)
      · simp; omega
      · simp; omega
      · simp; omega
    | cons next groups =>
      obtain ⟨digit, more, hhex, -⟩ := hex_eq_cons group
      rw [hhex]
      simp [behind]

end VmsLite.Webhooks
