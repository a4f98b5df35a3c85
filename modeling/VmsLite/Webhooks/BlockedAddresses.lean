import VmsLite.Webhooks.AddressTexts

/-!
# Classification of addresses

`isPrivateOrBlockedIp` compares the beginning of a text with a few letters and its dotted parts with
numbers. `IsClassified` says that the answer for a spelling of an address is whether the address is
in a private range, and that the answer for a host name is no. It holds of every IPv4 address and of
every dotted IPv4-mapped one. A private IPv6 address is missed in every other spelling than the few
that the guard knows, and an address or a host name that is not private is taken for one when it
begins with the letters of one (`isClassified_iff`).
-/

set_option autoImplicit false

namespace VmsLite.Webhooks

open Url (Text)

/-! ### Spellings -/

/-- Whether the last label of a text is a number, so that the parser of URLs takes the text for an
IPv4 address. -/
def endsInNumber (text : Text) : Bool :=
  let labels := text.splitOn '.'
  let labels := if labels.getLast? = some [] then labels.dropLast else labels
  match labels.getLast? with
  | none | some [] => false
  | some ('0' :: 'x' :: digits) | some ('0' :: 'X' :: digits) =>
    digits.all fun digit ↦ (Media.hexValue digit).isSome
  | some label => label.all Char.isDigit

/-- A host name that is not an IP literal. -/
structure HostName where
  name : Text
  allowed : ∀ char ∈ name, Media.isBlank char = false ∧ char ≠ ':'
  notNumber : endsInNumber name = false

namespace Ipv4

/-- The first half of an IPv4 address, as a group. -/
def high (ip : Ipv4) : Group := ⟨256 * ip.first.val + ip.second.val, by omega⟩

/-- The second half of an IPv4 address, as a group. -/
def low (ip : Ipv4) : Group := ⟨256 * ip.third.val + ip.fourth.val, by omega⟩

/-- The groups of an IPv6 address that ends in an IPv4 address. -/
def embedded (ip : Ipv4) (marker : Group) : List Group :=
  List.replicate 5 Group.zero ++ [marker, ip.high, ip.low]

end Ipv4

/-- What stands where the guard reads an address. -/
inductive Spelling
  | ipv4 (ip : Ipv4)
  | ipv6 (ip : Ipv6Text)
  /-- An IPv4-mapped address with its last two groups in dotted form. -/
  | mapped (ip : Ipv4)
  /-- An IPv4-compatible address with its last two groups in dotted form. -/
  | compatible (ip : Ipv4)
  | hostName (host : HostName)

namespace Spelling

def text : Spelling → Text
  | ipv4 ip => ip.text
  | ipv6 ip => ip.text
  | mapped ip => [':', ':', 'f', 'f', 'f', 'f', ':'] ++ ip.text
  | compatible ip => ':' :: ':' :: ip.text
  | hostName host => host.name

/-- Whether the address is in one of the private ranges. -/
def IsPrivate : Spelling → Prop
  | ipv4 ip => IsPrivateIpv4 ip.first.val ip.second.val
  | ipv6 ip => IsPrivateIpv6 ip.groups
  | mapped ip => IsPrivateIpv6 (ip.embedded Group.marker)
  | compatible ip => IsPrivateIpv6 (ip.embedded Group.zero)
  | hostName _ => False

def IsClassified (spelling : Spelling) : Prop :=
  isPrivateOrBlockedIp false (String.ofList spelling.text) = true ↔ spelling.IsPrivate

end Spelling

/-! ### Spellings that the guard mistakes -/

namespace Ipv6Text

/-- A private address that is not spelled `fe80:…`, `fc…:…`, `fd…:…`, `::1`, `::ffff:fc:…` or
`::ffff:fd:…`, without brackets. -/
def IsMissed (ip : Ipv6Text) : Prop :=
  IsPrivateIpv6 ip.groups ∧ (ip.bracketed = true ∨
    match ip.before, ip.after with
    | first :: _, _ => first.val ≠ 0xfe80 ∧ first.val / 512 ≠ 0xfc00 / 512
    | [], some [last] => last.val ≠ 1
    | [], some (marker :: first :: _) =>
      ¬ (marker.val = 0xffff ∧ (first.val = 0xfc ∨ first.val = 0xfd))
    | [], _ => True)

/-- An address that is not private, spelled without brackets, whose text begins as a private one:
with a short group such as `fd` or `fc1`, or, after `::ffff:`, with a group that is no part of an
IPv4 address of a private range. -/
def IsMistaken (ip : Ipv6Text) : Prop :=
  ip.bracketed = false ∧
    match ip.before, ip.after with
    | first :: _, _ => first.val = 0xfc ∨ first.val = 0xfd ∨ (0xfc0 ≤ first.val ∧ first.val ≤ 0xfdf)
    | [], some (marker :: first :: rest) => marker.val = 0xffff ∧
      ((LooksUniqueLocal first.val ∧ ¬ (first.val / 2 = 0xfc / 2 ∧ rest.length = 1)) ∨
        (first.val = 0xfe80 ∧ rest ≠ []))
    | [], _ => False

end Ipv6Text

/-- Four dotted labels that begin with the numbers of a private IPv4 address. -/
def LooksPrivateIpv4 (text : Text) : Prop :=
  ∃ first second third fourth : Octet, (text.splitOn '.').map parseInt =
    [some (first.val : ℤ), some (second.val : ℤ), some (third.val : ℤ), some (fourth.val : ℤ)] ∧
      IsPrivateIpv4 first.val second.val

/-- A host name that begins as a private address does. -/
def HostName.IsMistaken (host : HostName) : Prop :=
  let lower := host.name.map Char.toLower
  ['f', 'c'] <+: lower ∨ ['f', 'd'] <+: lower ∨ LooksPrivateIpv4 lower

/-- A spelling that is not one of those the guard mistakes. -/
def Spelling.IsRegular : Spelling → Prop
  | ipv4 _ | mapped _ => True
  | ipv6 ip => ¬ ip.IsMissed ∧ ¬ ip.IsMistaken
  | compatible ip => ip.first.val ≠ 0 ∨ ip.second.val ≠ 0 ∨ ip.third.val ≠ 0 ∨ 1 < ip.fourth.val
  | hostName host => ¬ host.IsMistaken

/-! ### Addresses with dots -/

theorem isBlockedIpv4_iff (text : Text) : isBlockedIpv4 text = true ↔ LooksPrivateIpv4 text := by
  unfold isBlockedIpv4 LooksPrivateIpv4
  constructor
  · intro hblocked
    split at hblocked
    · rename_i a b c d hparts
      simp only [List.all_cons, List.all_nil, Bool.and_true, Bool.and_eq_true,
        decide_eq_true_eq] at hblocked
      obtain ⟨⟨⟨ha, ha'⟩, ⟨hb, hb'⟩, ⟨hc, hc'⟩, hd, hd'⟩, hrange⟩ := hblocked
      lift a to ℕ using ha
      lift b to ℕ using hb
      lift c to ℕ using hc
      lift d to ℕ using hd
      exact ⟨⟨a, by omega⟩, ⟨b, by omega⟩, ⟨c, by omega⟩, ⟨d, by omega⟩, hparts,
        isBlockedRange_iff.mp hrange⟩
    · exact absurd hblocked Bool.false_ne_true
  · rintro ⟨first, second, third, fourth, hparts, hprivate⟩
    have hoctet : ∀ octet : Octet, (0 : ℤ) ≤ octet.val ∧ (octet.val : ℤ) ≤ 255 := by
      intro octet
      have hlt := octet.isLt
      omega
    rw [hparts]
    simpa [hoctet] using isBlockedRange_iff.mpr hprivate

theorem Ipv4.text_eq_cons (ip : Ipv4) :
    ∃ digit more, ip.text = digit :: more ∧ digit.isDigit = true ∧ more ≠ [] := by
  obtain ⟨digit, more, hdigits⟩ := List.exists_cons_of_ne_nil
    (Nat.toDigits_ne_nil : Nat.toDigits 10 ip.first.val ≠ [])
  refine ⟨digit, more ++ ['.'] ++ ['.'].intercalate ([ip.second, ip.third, ip.fourth].map
    fun octet ↦ Nat.toDigits 10 octet.val), ?_, ?_, by simp⟩
  · rw [Ipv4.text, List.map_cons, List.map_cons, List.intercalate_cons_cons, hdigits]
    rfl
  · exact Nat.isDigit_of_mem_toDigits (by decide) (by decide)
      (hdigits ▸ List.mem_cons_self : digit ∈ Nat.toDigits 10 ip.first.val)

/-- A text that begins with a digit is blocked by its numbers alone. -/
theorem isBlockedText_digit {digit : Char} {more : Text} (hdigit : digit.isDigit = true) :
    unmapped (digit :: more) = digit :: more ∧
      isBlockedText (digit :: more) = isBlockedIpv4 (digit :: more) := by
  have hcolon : ':' ≠ digit := by rintro rfl; exact absurd hdigit (by decide)
  have hletter : 'f' ≠ digit := by rintro rfl; exact absurd hdigit (by decide)
  unfold unmapped isBlockedText
  simp [List.isPrefixOf_cons_cons, beq_false_of_ne hcolon, beq_false_of_ne hletter, hcolon.symm]

theorem isClassified_ipv4 (ip : Ipv4) : (Spelling.ipv4 ip).IsClassified := by
  obtain ⟨digit, more, htext, hdigit, -⟩ := ip.text_eq_cons
  obtain ⟨hunmapped, hblocked⟩ := @isBlockedText_digit digit more hdigit
  have hanswer := isPrivateOrBlockedIp_of_isSettled (isSettled_ipv4 ip)
  rw [htext, hunmapped, hblocked, ← htext] at hanswer
  unfold Spelling.IsClassified Spelling.text Spelling.IsPrivate
  rw [hanswer, isBlockedIpv4_text]

theorem high_eq (ip : Ipv4) :
    ip.high.val / 256 = ip.first.val ∧ ip.high.val % 256 = ip.second.val := by
  have hlt := ip.second.isLt
  have hhigh : ip.high.val = 256 * ip.first.val + ip.second.val := rfl
  omega

theorem isClassified_mapped (ip : Ipv4) : (Spelling.mapped ip).IsClassified := by
  obtain ⟨digit, more, htext, hdigit, -⟩ := ip.text_eq_cons
  have hmarker : ∀ char ∈ [':', ':', 'f', 'f', 'f', 'f', ':'], isSettled char = true :=
    List.all_eq_true.mp rfl
  have hsettled : ∀ char ∈ [':', ':', 'f', 'f', 'f', 'f', ':'] ++ ip.text,
      isSettled char = true :=
    List.forall_mem_append.mpr ⟨hmarker, isSettled_ipv4 ip⟩
  have hunmapped : unmapped ([':', ':', 'f', 'f', 'f', 'f', ':'] ++ ip.text) = ip.text := by
    simp [unmapped]
  have hanswer := isPrivateOrBlockedIp_of_isSettled hsettled
  rw [hunmapped, htext, (isBlockedText_digit hdigit).2, ← htext] at hanswer
  unfold Spelling.IsClassified Spelling.text Spelling.IsPrivate
  rw [hanswer, isBlockedIpv4_text]
  simp only [Ipv4.embedded, List.replicate_succ, List.replicate_zero, List.cons_append,
    List.nil_append, IsPrivateIpv6, high_eq]
  simp

/-- Behind a colon there is no number before the first dot. -/
theorem isBlockedIpv4_colon (text : Text) : isBlockedIpv4 (':' :: text) = false := by
  refine Bool.eq_false_iff.mpr fun hblocked ↦ ?_
  obtain ⟨first, second, third, fourth, hparts, -⟩ := (isBlockedIpv4_iff _).mp hblocked
  obtain ⟨part, parts, hsplit⟩ := List.exists_cons_of_ne_nil
    (List.splitOnP_ne_nil (· == '.') text)
  have hcolon : (':' :: text).splitOn '.' = (':' :: part) :: parts := by
    have hcons := List.splitOnP_cons_eq_if_modifyHead (p := (· == '.')) ':' text
    rw [hsplit] at hcons
    exact hcons
  rw [hcolon] at hparts
  simp [parseInt, leadingNumber, Media.isBlank] at hparts

theorem isClassified_compatible_iff (ip : Ipv4) :
    (Spelling.compatible ip).IsClassified ↔ (Spelling.compatible ip).IsRegular := by
  obtain ⟨digit, more, htext, hdigit, hmore⟩ := ip.text_eq_cons
  have hletter : 'f' ≠ digit := by rintro rfl; exact absurd hdigit (by decide)
  have hmarker : ∀ char ∈ [':', ':'], isSettled char = true := List.all_eq_true.mp rfl
  have hsettled : ∀ char ∈ [':', ':'] ++ ip.text, isSettled char = true :=
    List.forall_mem_append.mpr ⟨hmarker, isSettled_ipv4 ip⟩
  have hunmapped : unmapped (':' :: ':' :: ip.text) = ':' :: ':' :: ip.text := by
    simp [unmapped, htext, List.isPrefixOf_cons_cons, beq_false_of_ne hletter]
  have hanswer : isPrivateOrBlockedIp false (String.ofList (':' :: ':' :: ip.text)) = false := by
    refine (isPrivateOrBlockedIp_of_isSettled hsettled).trans ?_
    have hdots : ip.text ≠ ['1'] := by
      rw [htext]
      exact fun heq ↦ hmore (List.cons.inj heq).2
    rw [List.cons_append, List.cons_append, List.nil_append, hunmapped]
    unfold isBlockedText
    rw [isBlockedIpv4_colon]
    simpa [List.isPrefixOf_cons_cons] using hdots
  unfold Spelling.IsClassified Spelling.text Spelling.IsPrivate Spelling.IsRegular
  rw [hanswer]
  simp only [Ipv4.embedded, List.replicate_succ, List.replicate_zero, List.cons_append,
    List.nil_append, IsPrivateIpv6]
  have hhigh : ip.high.val = 256 * ip.first.val + ip.second.val := rfl
  have hlow : ip.low.val = 256 * ip.third.val + ip.fourth.val := rfl
  simp
  omega

/-! ### Addresses in groups -/

/-- The texts that the guard knows. -/
def Ipv6Text.IsRecognized (ip : Ipv6Text) : Prop :=
  ip.bracketed = false ∧
    match ip.before, ip.after with
    | first :: _, _ => LooksUniqueLocal first.val ∨ first.val = 0xfe80
    | [], some [last] => last.val = 1
    | [], some (marker :: first :: rest) => marker.val = 0xffff ∧
      (LooksUniqueLocal first.val ∨ (first.val = 0xfe80 ∧ rest ≠ []))
    | [], _ => False

theorem isSettled_body (ip : Ipv6Text) : ∀ char ∈ ip.body, isSettled char = true := by
  unfold Ipv6Text.body
  split
  · exact isSettled_groupsText _
  · have hmarker : ∀ char ∈ [':', ':'], isSettled char = true := List.all_eq_true.mp rfl
    exact List.forall_mem_append.mpr ⟨isSettled_groupsText _,
      List.forall_mem_append.mpr ⟨hmarker, isSettled_groupsText _⟩⟩

theorem not_mem_body (ip : Ipv6Text) : '.' ∉ ip.body := by
  unfold Ipv6Text.body
  split
  · exact not_mem_groupsText _
  · simp [not_mem_groupsText]

theorem isBlocked_bracketed (ip : Ipv6Text) :
    isPrivateOrBlockedIp false (String.ofList ('[' :: (ip.body ++ [']']))) = false := by
  have hbracket : ∀ char ∈ ['[', ']'], isSettled char = true := List.all_eq_true.mp rfl
  have hsettled : ∀ char ∈ '[' :: (ip.body ++ [']']), isSettled char = true := by
    intro char hchar
    rcases List.mem_cons.mp hchar with rfl | hmem
    · rfl
    · rcases List.mem_append.mp hmem with hbody | hlast
      · exact isSettled_body ip char hbody
      · exact hbracket char (List.mem_cons_of_mem _ hlast)
  have hdot : '.' ∉ '[' :: (ip.body ++ [']']) := by simp [not_mem_body ip]
  have hunmapped : unmapped ('[' :: (ip.body ++ [']'])) = '[' :: (ip.body ++ [']']) := by
    simp [unmapped, List.isPrefixOf_cons_cons]
  rw [isPrivateOrBlockedIp_of_isSettled hsettled, hunmapped]
  unfold isBlockedText
  rw [isBlockedIpv4_of_not_mem hdot]
  simp [List.isPrefixOf_cons_cons]

/-- The text of an address that begins with a group. -/
theorem isBlocked_before (ip : Ipv6Text) {first : Group} {more : List Group}
    (hbefore : ip.before = first :: more) :
    isPrivateOrBlockedIp false (String.ofList ip.body) = true ↔
      LooksUniqueLocal first.val ∨ first.val = 0xfe80 := by
  obtain ⟨rest, hbody, hends, hrest⟩ : ∃ rest, ip.body = hex first ++ rest ∧ EndsGroup rest ∧
      rest ≠ [] := by
    have hlength := ip.length
    unfold Ipv6Text.body
    rw [hbefore] at hlength ⊢
    rw [groupsText_cons]
    cases hafter : ip.after with
    | none =>
      rw [hafter] at hlength
      refine ⟨_, rfl, endsGroup_behind more, (behind_ne_nil_iff more).mpr ?_⟩
      rintro rfl
      have hone : [first].length = 8 := hlength
      exact absurd hone (by simp)
    | some after =>
      refine ⟨_, List.append_assoc _ _ _, ?_, by simp⟩
      rcases endsGroup_behind more with hnil | ⟨tail, htail⟩
      · exact Or.inr ⟨_, by rw [hnil, List.nil_append]⟩
      · exact Or.inr ⟨_, by rw [htail, List.cons_append]⟩
  obtain ⟨digit, tail, hhex, hcolon, -⟩ := hex_eq_cons first
  have hunmapped : unmapped ip.body = ip.body := by
    simp [unmapped, hbody, hhex, List.isPrefixOf_cons_cons, beq_false_of_ne hcolon.symm]
  rw [isPrivateOrBlockedIp_of_isSettled (isSettled_body ip), hunmapped, hbody,
    isBlockedText_group first hends (hbody ▸ not_mem_body ip), and_iff_left hrest]

theorem unmapped_marker {marker : Group} (hmarker : marker.val = 0xffff) (first : Group)
    (rest : List Group) :
    unmapped (':' :: ':' :: groupsText (marker :: first :: rest)) = groupsText (first :: rest) := by
  obtain rfl : marker = ⟨0xffff, by decide⟩ := Fin.ext hmarker
  have hhex : hex ⟨0xffff, by decide⟩ = ['f', 'f', 'f', 'f'] := by decide
  rw [groupsText_cons, hhex]
  simp [unmapped, behind]

theorem unmapped_colons {after : List Group}
    (hafter : ∀ marker first rest, after = marker :: first :: rest → marker.val ≠ 0xffff) :
    unmapped (':' :: ':' :: groupsText after) = ':' :: ':' :: groupsText after := by
  unfold unmapped
  simp only [List.isPrefixOf_cons_cons, beq_self_eq_true, Bool.true_and]
  rw [if_neg]
  cases after with
  | nil => decide
  | cons marker groups =>
    rw [groupsText_cons, mapped_isPrefixOf_iff marker (endsGroup_behind groups),
      behind_ne_nil_iff]
    rintro ⟨hmarker, hgroups⟩
    obtain ⟨first, rest, rfl⟩ := List.exists_cons_of_ne_nil hgroups
    exact hafter marker first rest rfl hmarker

/-- The text of an address that begins with two colons. -/
theorem isBlocked_after (ip : Ipv6Text) {after : List Group} (hbefore : ip.before = [])
    (hafter : ip.after = some after) :
    isPrivateOrBlockedIp false (String.ofList ip.body) = true ↔
      match after with
      | [last] => last.val = 1
      | marker :: first :: rest => marker.val = 0xffff ∧
        (LooksUniqueLocal first.val ∨ (first.val = 0xfe80 ∧ rest ≠ []))
      | [] => False := by
  have hbody : ip.body = ':' :: ':' :: groupsText after := by
    unfold Ipv6Text.body
    rw [hbefore, hafter]
    rfl
  have hdot : '.' ∉ ':' :: groupsText after := by simp [not_mem_groupsText]
  have hplain : isBlockedText (':' :: ':' :: groupsText after) = true ↔
      after = [⟨1, by decide⟩] := by
    rw [isBlockedText_colon hdot, List.cons.injEq, and_iff_right rfl, groupsText_eq_one_iff]
  rw [isPrivateOrBlockedIp_of_isSettled (isSettled_body ip), hbody]
  match after with
  | [] =>
    rw [unmapped_colons (by simp), hplain]
    exact iff_of_false (by decide) id
  | [last] =>
    rw [unmapped_colons (by simp), hplain, List.cons.injEq, and_iff_left rfl, Fin.ext_iff]
  | marker :: first :: rest =>
    by_cases hmarker : marker.val = 0xffff
    · rw [unmapped_marker hmarker, groupsText_cons,
        isBlockedText_group first (endsGroup_behind rest)
          (groupsText_cons first rest ▸ not_mem_groupsText _), behind_ne_nil_iff]
      exact (and_iff_right hmarker).symm
    · rw [unmapped_colons fun _ _ _ heq ↦ (List.cons.inj heq).1 ▸ hmarker, hplain]
      exact iff_of_false (by simp) fun hrecognized ↦ hmarker hrecognized.1

theorem isPrivateOrBlockedIp_ipv6 (ip : Ipv6Text) :
    isPrivateOrBlockedIp false (String.ofList ip.text) = true ↔ ip.IsRecognized := by
  unfold Ipv6Text.text Ipv6Text.IsRecognized
  cases hbracketed : ip.bracketed with
  | true =>
    rw [if_pos rfl, isBlocked_bracketed]
    exact iff_of_false Bool.false_ne_true fun hplain ↦ Bool.noConfusion hplain.1
  | false =>
    simp only [Bool.false_eq_true, if_false, true_and]
    cases hbefore : ip.before with
    | cons first more => exact isBlocked_before ip hbefore
    | nil =>
      cases hafter : ip.after with
      | none =>
        have hlength := ip.length
        rw [hafter, hbefore] at hlength
        exact absurd hlength (by decide)
      | some after =>
        refine (isBlocked_after ip hbefore hafter).trans ?_
        match after with
        | [] | [_] | _ :: _ :: _ => exact Iff.rfl

/-! ### Private addresses among the recognized texts -/

/-- An address whose first group is written. -/
theorem isPrivate_before (ip : Ipv6Text) {first : Group} {more : List Group}
    (hbefore : ip.before = first :: more) :
    (IsPrivateIpv6 ip.groups → first.val = 0 ∨ first.val / 64 = 0xfe80 / 64 ∨
        first.val / 512 = 0xfc00 / 512) ∧
      (first.val / 64 = 0xfe80 / 64 ∨ first.val / 512 = 0xfc00 / 512 →
        IsPrivateIpv6 ip.groups) := by
  obtain ⟨rest, hgroups, hrest⟩ : ∃ rest, ip.groups = first :: rest ∧ rest.length = 7 := by
    have hlength := ip.length
    unfold Ipv6Text.groups
    rw [hbefore] at hlength ⊢
    cases hafter : ip.after with
    | none =>
      rw [hafter] at hlength
      exact ⟨more, rfl, Nat.succ.inj hlength⟩
    | some after =>
      rw [hafter] at hlength
      have hshort : more.length + 1 + after.length < 8 := hlength
      exact ⟨_, rfl, by simp; omega⟩
  match rest, hrest with
  | [g1, g2, g3, g4, g5, g6, g7], _ =>
    rw [hgroups]
    unfold IsPrivateIpv6
    constructor
    · rintro (⟨hzero, -⟩ | hlocal | hunique | ⟨hzero, -⟩)
      · exact Or.inl hzero.1
      · exact Or.inr (Or.inl hlocal)
      · exact Or.inr (Or.inr hunique)
      · exact Or.inl hzero.1
    · rintro (hlocal | hunique)
      · exact Or.inr (Or.inl hlocal)
      · exact Or.inr (Or.inr (Or.inl hunique))

/-- An address that begins with two colons and has at least two groups. -/
theorem isPrivate_after (ip : Ipv6Text) {marker first : Group} {rest : List Group}
    (hbefore : ip.before = []) (hafter : ip.after = some (marker :: first :: rest))
    (hmarker : marker.val = 0xffff) :
    IsPrivateIpv6 ip.groups ↔
      rest.length = 1 ∧ IsPrivateIpv4 (first.val / 256) (first.val % 256) := by
  have hlength := ip.length
  unfold Ipv6Text.groups
  rw [hbefore, hafter] at hlength ⊢
  have hshort : 0 + (rest.length + 1 + 1) < 8 := hlength
  match rest with
  | [] | [_] | [_, _] | [_, _, _] | [_, _, _, _] | [_, _, _, _, _] =>
    simp [IsPrivateIpv6, List.replicate_succ, hmarker]
  | _ :: _ :: _ :: _ :: _ :: _ :: _ =>
    simp at hshort
    omega

theorem isPrivate_last (ip : Ipv6Text) {last : Group} (hbefore : ip.before = [])
    (hafter : ip.after = some [last]) : IsPrivateIpv6 ip.groups ↔ last.val ≤ 1 := by
  unfold Ipv6Text.groups
  rw [hbefore, hafter]
  simp [IsPrivateIpv6, List.replicate_succ]

/-- Of the groups that look as if they began a unique local address, fc and fd begin a private IPv4
address. -/
theorem looksUniqueLocal_of_isPrivate {group : ℕ}
    (hprivate : IsPrivateIpv4 (group / 256) (group % 256)) :
    (LooksUniqueLocal group ↔ group = 0xfc ∨ group = 0xfd) ∧ group ≠ 0xfe80 := by
  have hfirst : group / 256 ≤ 192 := by
    unfold IsPrivateIpv4 at hprivate
    omega
  have hsecond : group / 256 ≠ 15 := by
    unfold IsPrivateIpv4 at hprivate
    omega
  unfold LooksUniqueLocal
  omega

theorem isPrivate_short {group : ℕ} (hgroup : group = 0xfc ∨ group = 0xfd) :
    IsPrivateIpv4 (group / 256) (group % 256) := by
  unfold IsPrivateIpv4
  omega

/-- An address without brackets. -/
theorem isRecognized_iff_of_plain (ip : Ipv6Text) (hplain : ip.bracketed = false) :
    (ip.IsRecognized ↔ IsPrivateIpv6 ip.groups) ↔ ¬ ip.IsMissed ∧ ¬ ip.IsMistaken := by
  unfold Ipv6Text.IsRecognized Ipv6Text.IsMissed Ipv6Text.IsMistaken
  simp only [hplain, true_and, Bool.false_eq_true, false_or]
  cases hbefore : ip.before with
  | cons first more =>
    obtain ⟨hprivate, hblock⟩ := isPrivate_before ip hbefore
    by_cases hgroups : IsPrivateIpv6 ip.groups
    · have hfirst := hprivate hgroups
      simp only [hgroups, iff_true, true_and, LooksUniqueLocal]
      omega
    · have hfirst := mt hblock hgroups
      simp only [hgroups, iff_false, false_and, not_false_eq_true, true_and, LooksUniqueLocal]
      omega
  | nil =>
    match hafter : ip.after with
    | none | some [] => simp
    | some [last] =>
      simp only [isPrivate_last ip hbefore hafter, not_false_eq_true, and_true]
      omega
    | some (marker :: first :: rest) =>
      by_cases hmarker : marker.val = 0xffff
      · have hhalf : first.val / 2 = 0xfc / 2 ↔ first.val = 0xfc ∨ first.val = 0xfd := by omega
        have hshort := @isPrivate_short first.val
        have hlooks := @looksUniqueLocal_of_isPrivate first.val
        simp only [isPrivate_after ip hbefore hafter hmarker, hmarker, true_and, hhalf]
        by_cases hprivate : IsPrivateIpv4 (first.val / 256) (first.val % 256)
        · obtain ⟨hlooks, hne⟩ := hlooks hprivate
          by_cases hgroup : first.val = 0xfc ∨ first.val = 0xfd
          · simp [hlooks, hne, hprivate, hgroup]
          · simp [hlooks, hne, hprivate, hgroup]
        · have hgroup := mt hshort hprivate
          simp [hprivate, hgroup, not_or]
      · simp [hmarker]

theorem isClassified_ipv6_iff (ip : Ipv6Text) :
    (Spelling.ipv6 ip).IsClassified ↔ (Spelling.ipv6 ip).IsRegular := by
  unfold Spelling.IsClassified Spelling.text Spelling.IsPrivate Spelling.IsRegular
  rw [isPrivateOrBlockedIp_ipv6]
  cases hbracketed : ip.bracketed with
  | false => exact isRecognized_iff_of_plain ip hbracketed
  | true =>
    unfold Ipv6Text.IsRecognized Ipv6Text.IsMissed Ipv6Text.IsMistaken
    simp [hbracketed]

/-! ### Host names -/

/-- Lower case changes a character into a small letter only. -/
theorem toLower_eq_or (char : Char) :
    char.toLower = char ∨ (97 ≤ char.toLower.toNat ∧ char.toLower.toNat ≤ 122) := by
  unfold Char.toLower
  split_ifs with hupper
  · have hlow : 65 ≤ char.val.toNat := hupper.1
    have hhigh : char.val.toNat ≤ 90 := hupper.2
    have hvalue : (char.val + ('a'.val - 'A'.val)).toNat = char.val.toNat + 32 := by
      rw [UInt32.toNat_add]
      exact Nat.mod_eq_of_lt (by
        have hshift : ('a'.val - 'A'.val).toNat = 32 := rfl
        omega)
    refine Or.inr ?_
    change 97 ≤ (char.val + ('a'.val - 'A'.val)).toNat ∧
      (char.val + ('a'.val - 'A'.val)).toNat ≤ 122
    omega
  · exact Or.inl rfl

theorem isBlank_toLower {char : Char} (hchar : Media.isBlank char = false) :
    Media.isBlank char.toLower = false := by
  rcases toLower_eq_or char with hsame | ⟨hlow, hhigh⟩
  · rw [hsame]
    exact hchar
  · unfold Media.isBlank
    simp only [Bool.or_eq_false_iff, Bool.and_eq_false_iff, decide_eq_false_iff_not]
    omega

theorem toLower_ne_colon {char : Char} (hchar : char ≠ ':') : char.toLower ≠ ':' := by
  rcases toLower_eq_or char with hsame | ⟨hlow, -⟩
  · rw [hsame]
    exact hchar
  · intro hcolon
    rw [hcolon] at hlow
    exact absurd hlow (by decide)

theorem isPrefixOf_eq_false_of_mem {marker text : Text} {char : Char} (hmarker : char ∈ marker)
    (htext : char ∉ text) : marker.isPrefixOf text = false := by
  rw [Bool.eq_false_iff, ne_eq, List.isPrefixOf_iff_prefix]
  exact fun hbegins ↦ htext (hbegins.subset hmarker)

theorem isPrivateOrBlockedIp_hostName (host : HostName) :
    isPrivateOrBlockedIp false (String.ofList host.name) = true ↔ host.IsMistaken := by
  have hlower : ∀ char ∈ host.name.map Char.toLower, Media.isBlank char = false ∧ char ≠ ':' := by
    intro lower hmem
    obtain ⟨char, hchar, rfl⟩ := List.mem_map.mp hmem
    obtain ⟨hblank, hcolon⟩ := host.allowed char hchar
    exact ⟨isBlank_toLower hblank, toLower_ne_colon hcolon⟩
  unfold HostName.IsMistaken isPrivateOrBlockedIp
  rw [String.toList_ofList]
  generalize host.name.map Char.toLower = lower at *
  have hcolon : ':' ∉ lower := fun hmem ↦ (hlower ':' hmem).2 rfl
  have hloopback : lower ≠ [':', ':', '1'] := by
    rintro rfl
    exact hcolon List.mem_cons_self
  have hunmapped : unmapped lower = lower := by
    unfold unmapped
    rw [isPrefixOf_eq_false_of_mem (by decide : ':' ∈ [':', ':', 'f', 'f', 'f', 'f', ':']) hcolon]
    rfl
  have hlinkLocal := isPrefixOf_eq_false_of_mem
    (by decide : ':' ∈ ['f', 'e', '8', '0', ':']) hcolon
  rw [Media.trim_of_forall fun char hchar ↦ (hlower char hchar).1, hunmapped]
  simp only [hloopback, hlinkLocal, decide_false, Bool.not_false, Bool.true_and, Bool.false_or,
    Bool.or_eq_true, List.isPrefixOf_iff_prefix, isBlockedIpv4_iff, or_assoc]

/-- The guard answers exactly the spellings that are regular. -/
theorem isClassified_iff (spelling : Spelling) :
    spelling.IsClassified ↔ spelling.IsRegular := by
  cases spelling with
  | ipv4 ip => exact iff_of_true (isClassified_ipv4 ip) trivial
  | ipv6 ip => exact isClassified_ipv6_iff ip
  | mapped ip => exact iff_of_true (isClassified_mapped ip) trivial
  | compatible ip => exact isClassified_compatible_iff ip
  | hostName host =>
    exact (iff_false_right id).trans (not_congr (isPrivateOrBlockedIp_hostName host))

/-- The loopback address as the host of a URL. -/
def loopbackHost : Ipv6Text where
  bracketed := true
  before := []
  after := some [⟨1, by decide⟩]
  length := by decide

def footballClub : HostName where
  name := "fcbarcelona.com".toList
  allowed := by
    have hall : "fcbarcelona.com".toList.all (fun char ↦ !Media.isBlank char && char ≠ ':') =
        true := by decide
    exact fun char hchar ↦ by simpa using List.all_eq_true.mp hall char hchar
  notNumber := by decide

theorem not_isClassified_loopbackHost :
    ¬ (Spelling.ipv6 loopbackHost).IsClassified ∧
        ¬ (Spelling.hostName footballClub).IsClassified := by
  constructor
  · intro hclassified
    have hprivate : IsPrivateIpv6 loopbackHost.groups := by
      simp [loopbackHost, Ipv6Text.groups, IsPrivateIpv6, List.replicate_succ]
    exact absurd (hclassified.mpr hprivate) (by decide)
  · intro hclassified
    have hblocked : isPrivateOrBlockedIp false (String.ofList footballClub.name) = true := by decide
    exact hclassified.mp hblocked

end VmsLite.Webhooks
