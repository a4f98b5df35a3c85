import VmsLite.Media.RtspUrl

/-!
# User information in the URLs of a text

`scrubText` replaces every match of `([a-z][a-z0-9+.-]*:\/\/)[^@/\s]+@` in a text, of either case,
by its group: the leftmost match first, each repetition as long as it can be, the next search behind
the match. The authority of a URL is what stands behind its `://` and before the next slash, and its
user information is what stands there before the last `@`.

A scrubbed text has no user information left exactly when that of every URL in the text is free of
white space and of `@` (`hasUserInfo_scrubText_iff`).
-/

set_option autoImplicit false

namespace VmsLite.Events

open Url (Text)

/-! ### The expression -/

def isLetter (char : Char) : Bool := ('a' ≤ char && char ≤ 'z') || ('A' ≤ char && char ≤ 'Z')

def isSchemeChar (char : Char) : Bool :=
  isLetter char || ('0' ≤ char && char ≤ '9') || char = '+' || char = '.' || char = '-'

/-- `[^@/\s]`. -/
def isUserChar (char : Char) : Bool := char ≠ '@' && char ≠ '/' && !Media.isBlank char

def separator : Text := [':', '/', '/']

/-- The scheme at the head of a text, and the text behind its separator. No repetition gives up a
character: what follows it is not of its class. -/
def readScheme : Text → Option (Text × Text)
  | [] => none
  | first :: rest =>
    if isLetter first then
      match rest.dropWhile isSchemeChar with
      | ':' :: '/' :: '/' :: after => some (first :: rest.takeWhile isSchemeChar, after)
      | _ => none
    else none

/-- The text behind the user information at its head. -/
def readUser (text : Text) : Option Text :=
  match text.takeWhile isUserChar, text.dropWhile isUserChar with
  | _ :: _, '@' :: after => some after
  | _, _ => none

/-- The match at the head of a text: its scheme, and the text behind it. -/
def readMatch (text : Text) : Option (Text × Text) :=
  match readScheme text with
  | some (scheme, rest) => (readUser rest).map fun after ↦ (scheme, after)
  | none => none

/-! ### Reading -/

/-- A letter and then characters of a scheme. -/
inductive IsScheme : Text → Prop
  | intro {first : Char} {name : Text} (hfirst : isLetter first = true)
      (hname : ∀ char ∈ name, isSchemeChar char = true) : IsScheme (first :: name)

theorem isSchemeChar_of_isLetter {char : Char} (h : isLetter char = true) :
    isSchemeChar char = true := by
  unfold isSchemeChar
  rw [h]
  rfl

theorem IsScheme.all {scheme : Text} (h : IsScheme scheme) :
    ∀ char ∈ scheme, isSchemeChar char = true := by
  cases h with
  | intro hfirst hname =>
    exact List.forall_mem_cons.mpr ⟨isSchemeChar_of_isLetter hfirst, hname⟩

theorem takeWhile_append_stop {accepts : Char → Bool} {text : Text} {stop : Char} (rest : Text)
    (htext : ∀ char ∈ text, accepts char = true) (hstop : accepts stop = false) :
    (text ++ stop :: rest).takeWhile accepts = text ∧
      (text ++ stop :: rest).dropWhile accepts = stop :: rest := by
  constructor
  · rw [List.takeWhile_append_of_pos htext, List.takeWhile_cons_of_neg (by simp [hstop]),
      List.append_nil]
  · rw [List.dropWhile_append_of_pos htext, List.dropWhile_cons_of_neg (by simp [hstop])]

theorem readScheme_eq_some_iff {text scheme after : Text} :
    readScheme text = some (scheme, after) ↔ IsScheme scheme ∧ text = scheme ++
        separator ++ after := by
  constructor
  · intro hread
    cases text with
    | nil => cases hread
    | cons first rest =>
      simp only [readScheme] at hread
      split_ifs at hread with hfirst
      split at hread
      · rename_i behind hdrop
        obtain ⟨rfl, rfl⟩ := Prod.mk.inj (Option.some.inj hread)
        refine ⟨.intro hfirst fun char hchar ↦ List.mem_takeWhile_imp hchar, ?_⟩
        have hsplit := List.takeWhile_append_dropWhile (p := isSchemeChar) (l := rest)
        rw [hdrop] at hsplit
        rw [List.cons_append, List.cons_append, List.append_assoc]
        exact congrArg (first :: ·) hsplit.symm
      · cases hread
  · rintro ⟨⟨hfirst, hname⟩, rfl⟩
    rename_i first name
    obtain ⟨htake, hdrop⟩ := takeWhile_append_stop ('/' :: '/' :: after) hname
      (show isSchemeChar ':' = false by decide)
    have htext : first :: name ++ separator ++ after = first ::
        (name ++ ':' :: '/' :: '/' :: after) := by
      unfold separator
      simp
    rw [htext]
    simp only [readScheme, if_pos hfirst, hdrop, htake]

theorem readUser_eq_some_iff {text after : Text} :
    readUser text = some after ↔
      ∃ user, user ≠ [] ∧ (∀ char ∈ user, isUserChar char = true) ∧ text = user ++
          '@' :: after := by
  constructor
  · intro hread
    unfold readUser at hread
    split at hread
    · rename_i first user behind htake hdrop
      obtain rfl := Option.some.inj hread
      refine ⟨first :: user, List.cons_ne_nil _ _, fun char hchar ↦ ?_, ?_⟩
      · rw [← htake] at hchar
        exact List.mem_takeWhile_imp hchar
      · rw [← htake, ← hdrop, List.takeWhile_append_dropWhile]
    · cases hread
  · rintro ⟨user, hne, huser, rfl⟩
    obtain ⟨htake, hdrop⟩ := takeWhile_append_stop after huser
      (show isUserChar '@' = false by decide)
    unfold readUser
    rw [htake, hdrop]
    cases user with
    | nil => exact absurd rfl hne
    | cons first rest => rfl

theorem readMatch_eq_some_iff {text scheme after : Text} :
    readMatch text = some (scheme, after) ↔ ∃ user, IsScheme scheme ∧ user ≠ [] ∧
      (∀ char ∈ user, isUserChar char = true) ∧
      text = scheme ++ separator ++ (user ++ '@' :: after) := by
  unfold readMatch
  cases hscheme : readScheme text with
  | none =>
    refine ⟨nofun, ?_⟩
    rintro ⟨user, hisScheme, -, -, htext⟩
    rw [readScheme_eq_some_iff.mpr ⟨hisScheme, htext⟩] at hscheme
    cases hscheme
  | some found =>
    obtain ⟨foundScheme, rest⟩ := found
    have hfound := readScheme_eq_some_iff.mp hscheme
    constructor
    · intro hread
      obtain ⟨behind, hbehind, hpair⟩ := Option.map_eq_some_iff.mp hread
      obtain ⟨rfl, rfl⟩ := Prod.mk.inj hpair
      obtain ⟨user, hne, huser, rfl⟩ := readUser_eq_some_iff.mp hbehind
      exact ⟨user, hfound.1, hne, huser, hfound.2⟩
    · rintro ⟨user, hisScheme, hne, huser, htext⟩
      rw [readScheme_eq_some_iff.mpr ⟨hisScheme, htext⟩] at hscheme
      obtain ⟨rfl, rfl⟩ := Prod.mk.inj (Option.some.inj hscheme)
      simp only [readUser_eq_some_iff.mpr ⟨user, hne, huser, rfl⟩, Option.map_some]

theorem length_of_readMatch {text scheme after : Text} (h : readMatch text = some (scheme, after)) :
    after.length < text.length := by
  obtain ⟨user, -, -, -, rfl⟩ := readMatch_eq_some_iff.mp h
  simp only [List.length_append, List.length_cons]
  omega

/-- The text with every match replaced by its scheme. -/
def scrubText (text : Text) : Text :=
  match text with
  | [] => []
  | first :: rest =>
    match _hread : readMatch (first :: rest) with
    | some (scheme, after) => scheme ++ separator ++ scrubText after
    | none => first :: scrubText rest
termination_by text.length
decreasing_by
  · exact length_of_readMatch ‹_›
  · simp

theorem scrubText_of_match {text scheme after : Text} (h : readMatch text = some (scheme, after)) :
    scrubText text = scheme ++ separator ++ scrubText after := by
  cases text with
  | nil => cases h
  | cons first rest =>
    rw [scrubText]
    split
    · rename_i found behind hread
      obtain ⟨rfl, rfl⟩ := Prod.mk.inj (Option.some.inj (h.symm.trans hread))
      rfl
    · rename_i hread
      rw [h] at hread
      cases hread

theorem scrubText_of_no_match {first : Char} {rest : Text} (h : readMatch (first :: rest) = none) :
    scrubText (first :: rest) = first :: scrubText rest := by
  rw [scrubText]
  split
  · rename_i found behind hread
    rw [h] at hread
    cases hread
  · rfl

@[simp] theorem scrubText_nil : scrubText [] = [] := by rw [scrubText]

/-- Induction along the matches of a text. -/
theorem scrub_induction {motive : Text → Prop} (nil : motive [])
    (found : ∀ scheme user after, IsScheme scheme → user ≠ [] →
      (∀ char ∈ user, isUserChar char = true) →
        readMatch (scheme ++ separator ++ (user ++ '@' :: after)) = some (scheme, after) →
          motive after → motive (scheme ++ separator ++ (user ++ '@' :: after)))
    (skip : ∀ first rest, readMatch (first :: rest) = none → motive rest → motive (first :: rest))
    (text : Text) : motive text := by
  induction text using scrubText.induct with
  | case1 => exact nil
  | case2 first rest scheme after hread ih =>
    obtain ⟨user, hscheme, hne, huser, htext⟩ := readMatch_eq_some_iff.mp hread
    rw [htext] at hread ⊢
    exact found scheme user after hscheme hne huser hread ih
  | case3 first rest hread ih => exact skip first rest hread ih

/-! ### URLs -/

/-- The authority of a URL, from what stands behind its separator. -/
def authority (text : Text) : Text := text.takeWhile (· ≠ '/')

/-- Some URL of a text has a property, which is one of what stands behind the separator. -/
def SomeUrl (property : Text → Prop) (text : Text) : Prop :=
  ∃ before scheme rest, IsScheme scheme ∧ text = before ++
    (scheme ++ separator ++ rest) ∧ property rest

/-- There is user information before the last `@` of the authority. -/
def HasUser (rest : Text) : Prop := '@' ∈ (authority rest).tail

/-- A URL of the text has user information. -/
def HasUserInfo (text : Text) : Prop := SomeUrl HasUser text

/-- User information that is there is free of white space and of `@`. -/
def IsPlain (rest : Text) : Prop :=
  HasUser rest → ∃ user host, authority rest = user ++ '@' :: host ∧ user ≠ [] ∧
    (∀ char ∈ user, char ≠ '@' ∧ Media.isBlank char = false) ∧ '@' ∉ host.tail

/-- The user information of every URL in the text is free of white space and of `@`. -/
def IsPlainText (text : Text) : Prop := ¬ SomeUrl (fun rest ↦ ¬ IsPlain rest) text

variable {property : Text → Prop}

/-- A URL at the head of a text. -/
theorem someUrl_cons (first : Char) (rest : Text) :
    SomeUrl property (first :: rest) ↔
      (∃ scheme after, readScheme (first :: rest) = some (scheme, after) ∧ property after) ∨
        SomeUrl property rest := by
  constructor
  · rintro ⟨before, scheme, after, hscheme, htext, hproperty⟩
    cases before with
    | nil => exact Or.inl ⟨scheme, after, readScheme_eq_some_iff.mpr ⟨hscheme, htext⟩, hproperty⟩
    | cons head before =>
      obtain ⟨-, hrest⟩ := List.cons.inj htext
      exact Or.inr ⟨before, scheme, after, hscheme, hrest, hproperty⟩
  · rintro (⟨scheme, after, hread, hproperty⟩ | ⟨before, scheme, after, hscheme, rfl, hproperty⟩)
    · obtain ⟨hscheme, htext⟩ := readScheme_eq_some_iff.mp hread
      exact ⟨[], scheme, after, hscheme, htext, hproperty⟩
    · exact ⟨first :: before, scheme, after, hscheme, rfl, hproperty⟩

theorem not_someUrl_nil : ¬ SomeUrl property [] := by
  rintro ⟨before, scheme, after, hscheme, htext, -⟩
  cases hscheme with
  | intro hfirst hname => simp at htext

theorem readScheme_of_not_isLetter {first : Char} {rest : Text} (h : isLetter first = false) :
    readScheme (first :: rest) = none := by
  simp [readScheme, h]

/-- A text whose first `@` comes before its first slash has no scheme at its head. -/
theorem readScheme_of_at {user after : Text} (hslash : '/' ∉ user) :
    readScheme (user ++ '@' :: after) = none := by
  by_contra hread
  obtain ⟨⟨scheme, rest⟩, hread⟩ := Option.ne_none_iff_exists'.mp hread
  obtain ⟨hscheme, htext⟩ := readScheme_eq_some_iff.mp hread
  have hcolon : user ++ '@' :: after = (scheme ++ [':']) ++ '/' :: '/' :: rest := by
    rw [htext]
    unfold separator
    simp
  rcases List.append_eq_append_iff.mp hcolon with ⟨more, hlong, hrest⟩ | ⟨more, hlong, hrest⟩
  · -- the `@` would be a character of the scheme
    cases more with
    | nil => cases (List.cons.inj hrest).1
    | cons char more =>
      obtain ⟨rfl, -⟩ := List.cons.inj hrest
      have hat : '@' ∈ scheme ++ [':'] := by
        rw [hlong]
        exact List.mem_append_right _ List.mem_cons_self
      rcases List.mem_append.mp hat with hmem | hmem
      · exact absurd (hscheme.all _ hmem) (by decide)
      · exact absurd hmem (by decide)
  · -- the slash would be in the user information
    cases more with
    | nil => cases (List.cons.inj hrest).1
    | cons char more =>
      obtain ⟨rfl, -⟩ := List.cons.inj hrest
      exact hslash (hlong ▸ List.mem_append_right _ List.mem_cons_self)

/-- The separator has no URL of its own. -/
theorem someUrl_separator (rest : Text) :
    SomeUrl property (separator ++ rest) ↔ SomeUrl property rest := by
  have hcolon : isLetter ':' = false := by decide
  have hslash : isLetter '/' = false := by decide
  unfold separator
  rw [List.cons_append, List.cons_append, List.cons_append, List.nil_append]
  rw [someUrl_cons, someUrl_cons, someUrl_cons]
  simp [readScheme_of_not_isLetter hcolon, readScheme_of_not_isLetter hslash]

/-- The URLs of a text that begins with the characters of a scheme. -/
theorem someUrl_name (name rest : Text) (hname : ∀ char ∈ name, isSchemeChar char = true) :
    SomeUrl property (name ++ separator ++ rest) ↔
      ((∃ char ∈ name, isLetter char = true) ∧ property rest) ∨ SomeUrl property rest := by
  induction name with
  | nil =>
    rw [List.nil_append, someUrl_separator]
    simp
  | cons first name ih =>
    obtain ⟨hfirst, hname⟩ := List.forall_mem_cons.mp hname
    rw [List.cons_append, List.cons_append, someUrl_cons, ih hname]
    cases hletter : isLetter first with
    | false =>
      rw [readScheme_of_not_isLetter hletter]
      simp [hletter]
    | true =>
      have hread : readScheme (first :: (name ++ separator ++ rest)) = some (first :: name, rest) :=
        readScheme_eq_some_iff.mpr ⟨.intro hletter hname, by simp⟩
      rw [hread]
      simp only [Option.some.injEq, Prod.mk.injEq, List.exists_mem_cons_iff, hletter, true_or,
        true_and]
      constructor
      · rintro (⟨scheme, after, ⟨-, rfl⟩, hproperty⟩ | ⟨-, hproperty⟩ | hlater)
        · exact Or.inl hproperty
        · exact Or.inl hproperty
        · exact Or.inr hlater
      · rintro (hproperty | hlater)
        · exact Or.inl ⟨_, _, ⟨rfl, rfl⟩, hproperty⟩
        · exact Or.inr (Or.inr hlater)

theorem someUrl_scheme {scheme : Text} (hscheme : IsScheme scheme) (rest : Text) :
    SomeUrl property (scheme ++ separator ++ rest) ↔ property rest ∨ SomeUrl property rest := by
  cases hscheme with
  | intro hfirst hname =>
    rename_i first name
    rw [someUrl_name _ rest (IsScheme.intro hfirst hname).all]
    have hletter : ∃ char ∈ first :: name, isLetter char = true :=
      ⟨first, List.mem_cons_self, hfirst⟩
    rw [and_iff_right hletter]

/-- User information holds no URL. -/
theorem someUrl_user {user after : Text} (hslash : '/' ∉ user) :
    SomeUrl property (user ++ '@' :: after) ↔ SomeUrl property after := by
  induction user with
  | nil =>
    rw [List.nil_append, someUrl_cons, readScheme_of_not_isLetter (by decide)]
    simp
  | cons first user ih =>
    have hread : readScheme (first :: user ++ '@' :: after) = none := readScheme_of_at hslash
    rw [List.cons_append] at hread ⊢
    rw [someUrl_cons, hread, ih fun hmem ↦ hslash (List.mem_cons_of_mem _ hmem)]
    simp

/-! ### Scrubbing URL by URL -/

theorem ne_slash_of_isSchemeChar {char : Char} (h : isSchemeChar char = true) : char ≠ '/' := by
  rintro rfl
  exact absurd h (by decide)

/-- A scheme ends at its own separator. -/
theorem authority_scheme {scheme : Text} (hscheme : ∀ char ∈ scheme, isSchemeChar char = true)
    (rest : Text) : authority (scheme ++ separator ++ rest) = scheme ++ [':'] := by
  have hstop : ∀ char ∈ scheme ++ [':'], decide (char ≠ '/') = true := by
    intro char hchar
    rcases List.mem_append.mp hchar with hmem | hmem
    · exact decide_eq_true (ne_slash_of_isSchemeChar (hscheme char hmem))
    · rw [List.mem_singleton.mp hmem]
      decide
  have hsplit : scheme ++ separator ++ rest = (scheme ++ [':']) ++ '/' :: ('/' :: rest) := by
    unfold separator
    simp
  rw [hsplit]
  exact (takeWhile_append_stop ('/' :: rest) hstop (by decide)).1

/-- Scrubbing leaves the authority at the head of a text alone: a match begins with a scheme. -/
theorem authority_scrubText (text : Text) : authority (scrubText text) = authority text := by
  induction text using scrub_induction with
  | nil => rw [scrubText_nil]
  | found scheme user after hscheme hne huser hread ih =>
    rw [scrubText_of_match hread, authority_scheme hscheme.all, authority_scheme hscheme.all]
  | skip first rest hread ih =>
    rw [scrubText_of_no_match hread]
    unfold authority at ih ⊢
    by_cases hslash : first = '/'
    · rw [hslash, List.takeWhile_cons_of_neg (by decide), List.takeWhile_cons_of_neg (by decide)]
    · have hother : decide (first ≠ '/') = true := decide_eq_true hslash
      rw [List.takeWhile_cons, List.takeWhile_cons, if_pos hother, if_pos hother, ih]

theorem hasUser_scrubText (text : Text) : HasUser (scrubText text) ↔ HasUser text := by
  unfold HasUser
  rw [authority_scrubText]

/-- A match begins with a letter. -/
theorem readMatch_of_not_isLetter {first : Char} {rest : Text} (h : isLetter first = false) :
    readMatch (first :: rest) = none := by
  unfold readMatch
  rw [readScheme_of_not_isLetter h]

theorem scrubText_separator (rest : Text) : scrubText (separator ++ rest) = separator ++
    scrubText rest := by
  unfold separator
  rw [List.cons_append, List.cons_append, List.cons_append, List.nil_append]
  rw [scrubText_of_no_match (readMatch_of_not_isLetter (by decide)),
    scrubText_of_no_match (readMatch_of_not_isLetter (by decide)),
    scrubText_of_no_match (readMatch_of_not_isLetter (by decide))]
  rfl

/-- A URL without user information to match is left as it is, up to its separator. -/
theorem scrubText_name {name rest : Text} (hname : ∀ char ∈ name, isSchemeChar char = true)
    (huser : readUser rest = none) :
    scrubText (name ++ separator ++ rest) = name ++ separator ++ scrubText rest := by
  induction name with
  | nil => exact scrubText_separator rest
  | cons first name ih =>
    obtain ⟨hfirst, hname⟩ := List.forall_mem_cons.mp hname
    have hread : readMatch (first :: (name ++ separator ++ rest)) = none := by
      cases hletter : isLetter first with
      | false => exact readMatch_of_not_isLetter hletter
      | true =>
        have hscheme : readScheme (first :: (name ++ separator ++ rest)) =
            some (first :: name, rest) :=
          readScheme_eq_some_iff.mpr ⟨.intro hletter hname, by simp⟩
        unfold readMatch
        simp only [hscheme, huser, Option.map_none]
    rw [List.cons_append, List.cons_append, scrubText_of_no_match hread, ih hname]
    rfl

/-- A slash at the head of a scrubbed text stood there before. -/
theorem head_slash_of_scrubText {text rest : Text} (h : scrubText text = '/' :: rest) :
    ∃ before, text = '/' :: before ∧ scrubText before = rest := by
  induction text using scrub_induction with
  | nil =>
    rw [scrubText_nil] at h
    cases h
  | found scheme user after hscheme hne huser hread ih =>
    rw [scrubText_of_match hread] at h
    cases hscheme with
    | intro hfirst hname =>
      obtain ⟨rfl, -⟩ := List.cons.inj h
      exact absurd hfirst (by decide)
  | skip first text hread ih =>
    rw [scrubText_of_no_match hread] at h
    obtain ⟨rfl, hrest⟩ := List.cons.inj h
    exact ⟨text, rfl, hrest⟩

/-- Two texts that begin with characters of a scheme and a separator begin with the same. -/
theorem name_unique {first second rest other : Text}
    (hfirst : ∀ char ∈ first, isSchemeChar char = true)
    (hsecond : ∀ char ∈ second, isSchemeChar char = true)
    (h : first ++ separator ++ rest = second ++ separator ++ other) : first = second := by
  have hcolon : ∀ name more : Text, name ++ separator ++ more = name ++ ':' ::
      ('/' :: '/' :: more) := by
    intro name more
    unfold separator
    simp
  rw [hcolon, hcolon] at h
  have hleft := (takeWhile_append_stop ('/' :: '/' :: rest) hfirst
    (show isSchemeChar ':' = false by decide)).1
  have hright := (takeWhile_append_stop ('/' :: '/' :: other) hsecond
    (show isSchemeChar ':' = false by decide)).1
  rw [← hleft, h, hright]

/-- What looks like the rest of a scheme in a scrubbed text stood in the text before. -/
theorem name_of_scrubText {text name rest : Text} (hname : ∀ char ∈ name, isSchemeChar char = true)
    (h : scrubText text = name ++ separator ++ rest) :
        ∃ before, text = name ++ separator ++ before := by
  induction text using scrub_induction generalizing name with
  | nil =>
    rw [scrubText_nil] at h
    have hlength := congrArg List.length h
    simp [separator] at hlength
  | found scheme user after hscheme hne huser hread ih =>
    rw [scrubText_of_match hread] at h
    rw [name_unique hscheme.all hname h]
    exact ⟨_, rfl⟩
  | skip first text hread ih =>
    rw [scrubText_of_no_match hread] at h
    cases name with
    | nil =>
      obtain ⟨rfl, hslashes⟩ := List.cons.inj h
      obtain ⟨more, rfl, hslash⟩ := head_slash_of_scrubText hslashes
      obtain ⟨behind, rfl, -⟩ := head_slash_of_scrubText hslash
      exact ⟨behind, rfl⟩
    | cons char name =>
      obtain ⟨rfl, hrest⟩ := List.cons.inj h
      obtain ⟨before, rfl⟩ := ih (List.forall_mem_cons.mp hname).2 hrest
      exact ⟨before, rfl⟩

/-- The scheme at the head of a text without a match is there after scrubbing, and only then. -/
theorem readScheme_scrubText {first : Char} {rest : Text}
    (hread : readMatch (first :: rest) = none) :
    readScheme (first :: scrubText rest) =
      (readScheme (first :: rest)).map fun found ↦ (found.1, scrubText found.2) := by
  cases hscheme : readScheme (first :: rest) with
  | none =>
    by_contra hfound
    obtain ⟨⟨scheme, after⟩, hfound⟩ := Option.ne_none_iff_exists'.mp hfound
    obtain ⟨hisScheme, htext⟩ := readScheme_eq_some_iff.mp hfound
    cases hisScheme with
    | intro hfirst hname =>
      obtain ⟨rfl, hrest⟩ := List.cons.inj htext
      obtain ⟨before, rfl⟩ := name_of_scrubText hname hrest
      have hthere := readScheme_eq_some_iff.mpr ⟨IsScheme.intro hfirst hname,
        Eq.refl (_ ++ separator ++ before)⟩
      exact absurd (hscheme.symm.trans hthere) (by nofun)
  | some found =>
    obtain ⟨scheme, after⟩ := found
    have huser : readUser after = none := by
      unfold readMatch at hread
      simp only [hscheme] at hread
      exact Option.map_eq_none_iff.mp hread
    obtain ⟨hisScheme, htext⟩ := readScheme_eq_some_iff.mp hscheme
    have hscrubbed : first :: scrubText rest = scheme ++ separator ++ scrubText after := by
      rw [← scrubText_of_no_match hread, htext, scrubText_name hisScheme.all huser]
    rw [hscrubbed]
    exact readScheme_eq_some_iff.mpr ⟨hisScheme, rfl⟩

/-! ### What is left -/

theorem authority_user {user after : Text} (hslash : '/' ∉ user) :
    authority (user ++ '@' :: after) = user ++ '@' :: authority after := by
  unfold authority
  have hall : ∀ char ∈ user, decide (char ≠ '/') = true := by
    intro char hchar
    exact decide_eq_true fun hsame ↦ hslash (hsame ▸ hchar)
  rw [List.takeWhile_append_of_pos hall, List.takeWhile_cons_of_pos (by decide)]

theorem not_mem_of_isUserChar {user : Text} (huser : ∀ char ∈ user, isUserChar char = true) :
    '/' ∉ user ∧ '@' ∉ user :=
  ⟨fun h ↦ absurd (huser _ h) (by decide), fun h ↦ absurd (huser _ h) (by decide)⟩

theorem hasUser_user {user after : Text} (hne : user ≠ [])
    (huser : ∀ char ∈ user, isUserChar char = true) : HasUser (user ++ '@' :: after) := by
  unfold HasUser
  rw [authority_user (not_mem_of_isUserChar huser).1]
  cases user with
  | nil => exact absurd rfl hne
  | cons first user => exact List.mem_append_right _ List.mem_cons_self

/-- The text before the first `@` is one thing only. -/
theorem split_at_unique {first second rest other : Text} (hfirst : '@' ∉ first)
    (hsecond : '@' ∉ second) (h : first ++ '@' :: rest = second ++ '@' :: other) :
    first = second ∧ rest = other := by
  rcases List.append_eq_append_iff.mp h with ⟨more, hlong, hrest⟩ | ⟨more, hlong, hrest⟩
  · cases more with
    | nil => exact ⟨by simpa using hlong.symm, (List.cons.inj hrest).2⟩
    | cons char more =>
      obtain ⟨rfl, -⟩ := List.cons.inj hrest
      exact absurd (hlong ▸ List.mem_append_right _ List.mem_cons_self) hsecond
  · cases more with
    | nil => exact ⟨by simpa using hlong, (List.cons.inj hrest).2.symm⟩
    | cons char more =>
      obtain ⟨rfl, -⟩ := List.cons.inj hrest
      exact absurd (hlong ▸ List.mem_append_right _ List.mem_cons_self) hfirst

/-- User information that is matched is plain exactly when none is left behind it. -/
theorem isPlain_user_iff {user after : Text} (hne : user ≠ [])
    (huser : ∀ char ∈ user, isUserChar char = true) :
    IsPlain (user ++ '@' :: after) ↔ ¬ HasUser after := by
  obtain ⟨hslash, hat⟩ := not_mem_of_isUserChar huser
  unfold IsPlain
  rw [authority_user hslash]
  constructor
  · intro hplain hleft
    obtain ⟨plain, host, hsplit, -, hclean, hhost⟩ := hplain (hasUser_user hne huser)
    obtain ⟨-, rfl⟩ := split_at_unique hat (fun h ↦ (hclean _ h).1 rfl) hsplit
    exact hhost hleft
  · refine fun hleft _ ↦ ⟨user, authority after, rfl, hne, fun char hchar ↦ ?_, hleft⟩
    have hchar := huser char hchar
    unfold isUserChar at hchar
    simpa [and_assoc] using And.intro (of_decide_eq_true (Bool.and_eq_true_iff.mp
      (Bool.and_eq_true_iff.mp hchar).1).1) (by simpa using (Bool.and_eq_true_iff.mp hchar).2)

/-- User information that is not matched is plain exactly when there is none. -/
theorem isPlain_iff_of_no_user {rest : Text} (huser : readUser rest = none) :
    IsPlain rest ↔ ¬ HasUser rest := by
  refine ⟨fun hplain hhas ↦ ?_, fun hnone hhas ↦ absurd hhas hnone⟩
  obtain ⟨user, host, hsplit, hne, hclean, -⟩ := hplain hhas
  have hrest : rest = user ++ '@' :: (host ++ rest.dropWhile (· ≠ '/')) := by
    have htext := List.takeWhile_append_dropWhile (p := (· ≠ '/')) (l := rest)
    unfold authority at hsplit
    rw [hsplit] at htext
    rw [← List.cons_append, ← List.append_assoc]
    exact htext.symm
  have hchars : ∀ char ∈ user, isUserChar char = true := by
    intro char hchar
    have hslash : char ≠ '/' := by
      have hmem : char ∈ rest.takeWhile (· ≠ '/') := by
        unfold authority at hsplit
        exact hsplit ▸ List.mem_append_left _ hchar
      simpa using List.mem_takeWhile_imp hmem
    unfold isUserChar
    simp [(hclean char hchar).1, (hclean char hchar).2, hslash]
  rw [readUser_eq_some_iff.mpr ⟨user, hne, hchars, hrest⟩] at huser
  cases huser

/-- A scrubbed text has no user information left, if and only if that of every URL in the text is
free of white space and of `@`. -/
theorem hasUserInfo_scrubText_iff (text : Text) :
    HasUserInfo (scrubText text) ↔ ¬ IsPlainText text := by
  unfold HasUserInfo IsPlainText
  rw [not_not]
  induction text using scrub_induction with
  | nil =>
    rw [scrubText_nil]
    exact iff_of_false not_someUrl_nil not_someUrl_nil
  | found scheme user after hscheme hne huser hread ih =>
    rw [scrubText_of_match hread, someUrl_scheme hscheme, someUrl_scheme hscheme,
      someUrl_user (not_mem_of_isUserChar huser).1, isPlain_user_iff hne huser, not_not,
      hasUser_scrubText, ih]
  | skip first rest hread ih =>
    rw [scrubText_of_no_match hread, someUrl_cons, someUrl_cons, readScheme_scrubText hread, ih]
    refine or_congr_left ?_
    cases hscheme : readScheme (first :: rest) with
    | none => simp
    | some found =>
      obtain ⟨scheme, after⟩ := found
      have huser : readUser after = none := by
        unfold readMatch at hread
        simp only [hscheme] at hread
        exact Option.map_eq_none_iff.mp hread
      simp [hasUser_scrubText, isPlain_iff_of_no_user huser]

/-- A text without user information is left as it is. -/
theorem scrubText_of_not_hasUserInfo {text : Text} (h : ¬ HasUserInfo text) :
    scrubText text = text := by
  induction text using scrub_induction with
  | nil => exact scrubText_nil
  | found scheme user after hscheme hne huser hread ih =>
    exact absurd ((someUrl_scheme hscheme _).mpr (Or.inl (hasUser_user hne huser))) h
  | skip first rest hread ih =>
    rw [scrubText_of_no_match hread, ih fun hrest ↦
      h ((someUrl_cons first rest).mpr (Or.inr hrest))]

/-! ### What scrubbing takes away -/

/-- A text with some of the user information of its URLs taken away, and nothing else. -/
inductive Strips : Text → Text → Prop
  | nil : Strips [] []
  | char {text stripped : Text} (char : Char) (h : Strips text stripped) :
      Strips (char :: text) (char :: stripped)
  | user {scheme user rest stripped : Text} (hscheme : IsScheme scheme) (hslash : '/' ∉ user)
      (h : Strips rest stripped) :
      Strips (scheme ++ separator ++ (user ++ '@' :: rest)) (scheme ++ separator ++ stripped)

theorem Strips.refl (text : Text) : Strips text text := by
  induction text with
  | nil => exact .nil
  | cons char text ih => exact .char char ih

theorem strips_scrubText (text : Text) : Strips text (scrubText text) := by
  induction text using scrub_induction with
  | nil =>
    rw [scrubText_nil]
    exact .nil
  | found scheme user after hscheme hne huser hread ih =>
    rw [scrubText_of_match hread]
    exact .user hscheme (not_mem_of_isUserChar huser).1 ih
  | skip first rest hread ih =>
    rw [scrubText_of_no_match hread]
    exact .char first ih

end VmsLite.Events
