import VmsLite.Url.SpecialUrl
import Mathlib.Data.List.TakeWhile

/-!
# RTSP URLs

What the media server client does to the text of a source URL and of a path name: `trim`,
`encodeURIComponent`, `decodeURIComponent` and `sanitizeRtspUrl`, which re-encodes the credentials
of an RTSP URL. Texts are lists of characters. Blanks at the end of a URL survive `sanitizeRtspUrl`
(`sanitize_trim_iff`).
-/

set_option autoImplicit false

namespace VmsLite.Media

open Url (Text)

/-! ### Text functions of the language -/

/-- White space and line terminators, as `trim` takes them. -/
def isBlank (char : Char) : Bool :=
  let code := char.toNat
  (0x9 ≤ code && code ≤ 0xD) || code = 0x20 || code = 0xA0 || code = 0x1680 ||
    (0x2000 ≤ code && code ≤ 0x200A) || code = 0x2028 || code = 0x2029 || code = 0x202F ||
    code = 0x205F || code = 0x3000 || code = 0xFEFF

def trimBlanks (text : Text) : Text := (text.reverse.dropWhile isBlank).reverse

def trim (text : Text) : Text := trimBlanks (text.dropWhile isBlank)

/-- What `encodeURIComponent` leaves alone. -/
def isUnreserved (char : Char) : Bool :=
  char.isAlpha || char.isDigit || char ∈ ['-', '_', '.', '!', '~', '*', '\'', '(', ')']

def encodeURIComponent (text : Text) : Text :=
  text.flatMap fun char ↦
    if isUnreserved char then [char]
    else (String.utf8EncodeChar char).flatMap Url.percentEncodeByte

def hexValue (char : Char) : Option ℕ :=
  if char.isDigit then some (char.toNat - '0'.toNat)
  else if 'a' ≤ char && char ≤ 'f' then some (char.toNat - 'a'.toNat + 10)
  else if 'A' ≤ char && char ≤ 'F' then some (char.toNat - 'A'.toNat + 10)
  else none

/-- The characters of a text, with its escapes read as bytes; `none` at a `%` that is no escape. -/
def readEscapes : Text → Option (List (Char ⊕ ℕ))
  | [] => some []
  | '%' :: high :: low :: rest =>
    match hexValue high, hexValue low with
    | some high, some low => (readEscapes rest).map (.inr (16 * high + low) :: ·)
    | _, _ => none
  | char :: rest => if char = '%' then none else (readEscapes rest).map (.inl char :: ·)

/-- The low six bits of a continuation byte. -/
def continuation : Char ⊕ ℕ → Option ℕ
  | .inr byte => if 0x80 ≤ byte && byte < 0xC0 then some (byte - 0x80) else none
  | .inl _ => none

/-- A character of more than one byte, unless it is overlong, a surrogate or out of range. -/
def multibyte (least code : ℕ) : Option Char :=
  if least ≤ code && code.isValidChar then some (Char.ofNat code) else none

/-- Reads bytes as UTF-8. -/
def decodeUtf8 : List (Char ⊕ ℕ) → Option Text
  | [] => some []
  | .inl char :: rest => (decodeUtf8 rest).map (char :: ·)
  | .inr first :: rest =>
    if first < 0x80 then (decodeUtf8 rest).map (Char.ofNat first :: ·)
    else
      match rest with
      | second :: rest =>
        if 0xC0 ≤ first && first < 0xE0 then do
          let second ← continuation second
          let char ← multibyte 0x80 (64 * (first - 0xC0) + second)
          (decodeUtf8 rest).map (char :: ·)
        else
          match rest with
          | third :: rest =>
            if 0xE0 ≤ first && first < 0xF0 then do
              let second ← continuation second
              let third ← continuation third
              let char ← multibyte 0x800 (4096 * (first - 0xE0) + 64 * second + third)
              (decodeUtf8 rest).map (char :: ·)
            else
              match rest with
              | fourth :: rest =>
                if 0xF0 ≤ first && first < 0xF8 then do
                  let second ← continuation second
                  let third ← continuation third
                  let fourth ← continuation fourth
                  let char ← multibyte 0x10000
                    (262144 * (first - 0xF0) + 4096 * second + 64 * third + fourth)
                  (decodeUtf8 rest).map (char :: ·)
                else none
              | [] => none
          | [] => none
      | [] => none

/-- `decodeURIComponent`, or `none` when it throws. -/
def decodeURIComponent (text : Text) : Option Text := (readEscapes text).bind decodeUtf8

theorem readEscapes_of_plain {text : Text} (hplain : ∀ char ∈ text, char ≠ '%') :
    readEscapes text = some (text.map .inl) := by
  induction text with
  | nil => rfl
  | cons char rest ih =>
    obtain ⟨hchar, hrest⟩ := List.forall_mem_cons.mp hplain
    rw [readEscapes, if_neg hchar, ih hrest]
    · rfl
    · intro _ _ _ hpercent
      exact absurd hpercent hchar

theorem decodeUtf8_inl (text : Text) : decodeUtf8 (text.map .inl) = some text := by
  induction text with
  | nil => rfl
  | cons char rest ih =>
    rw [List.map_cons, decodeUtf8, ih]
    rfl

/-- A text without escapes is its own decoding. -/
theorem decodeURIComponent_of_plain {text : Text} (hplain : ∀ char ∈ text, char ≠ '%') :
    decodeURIComponent text = some text := by
  rw [decodeURIComponent, readEscapes_of_plain hplain]
  exact decodeUtf8_inl text

def safeDecode (text : Text) : Text := (decodeURIComponent text).getD text

/-- A text cut at the first place of a character. -/
def cutFirst (char : Char) (text : Text) : Option (Text × Text) :=
  if char ∈ text then
    some (text.takeWhile (· ≠ char), (text.dropWhile (· ≠ char)).drop 1)
  else none

/-- A text cut at the last place of a character. -/
def cutLast (char : Char) (text : Text) : Option (Text × Text) :=
  (cutFirst char text.reverse).map fun parts ↦ (parts.2.reverse, parts.1.reverse)

/-! ### Source URLs -/

def rtsp : Text := ['r', 't', 's', 'p', ':', '/', '/']

def rtsps : Text := ['r', 't', 's', 'p', 's', ':', '/', '/']

/-- The scheme that a source URL starts with. -/
def schemeOf (url : Text) : Option Text :=
  if rtsp.isPrefixOf url then some rtsp
  else if rtsps.isPrefixOf url then some rtsps
  else none

/-- The credentials of a URL, re-encoded. -/
def encodeCredentials (userInfo : Text) : Text :=
  match cutFirst ':' userInfo with
  | some (user, pass) => encodeURIComponent (safeDecode user) ++
      ':' :: (encodeURIComponent (safeDecode pass) ++ ['@'])
  | none => encodeURIComponent (safeDecode userInfo) ++ ['@']

/-- Encodes the credentials within an RTSP URL. -/
def sanitizeRtspUrl (rawUrl : Text) : Except String Text :=
  if rawUrl.isEmpty then .error "RTSP URL must be a non-empty string"
  else
    match schemeOf rawUrl with
    | none => .error "Invalid RTSP scheme; must start with rtsp:// or rtsps://"
    | some proto =>
      let rest := rawUrl.drop proto.length
      let authority := rest.takeWhile (· ≠ '/')
      let pathAndQuery := rest.dropWhile (· ≠ '/')
      -- The last `@` before the first path separator splits credentials from host
      match cutLast '@' authority with
      | none => .ok rawUrl
      | some (userInfo, hostPort) =>
        .ok (proto ++ encodeCredentials userInfo ++ hostPort ++ pathAndQuery)

/-! ### Blanks at the end -/

def endsBlank (text : Text) : Bool := text.getLast?.any isBlank

theorem endsBlank_append {before after : Text} (hafter : after ≠ []) :
    endsBlank (before ++ after) = endsBlank after := by
  obtain ⟨last, hlast⟩ := Option.isSome_iff_exists.mp (List.getLast?_isSome.mpr hafter)
  unfold endsBlank
  rw [List.getLast?_append, hlast]
  rfl

theorem endsBlank_trimBlanks (text : Text) : endsBlank (trimBlanks text) = false := by
  unfold endsBlank trimBlanks
  rw [List.getLast?_reverse]
  cases hhead : (text.reverse.dropWhile isBlank).head? with
  | none => rfl
  | some char =>
    have hfirst := List.head?_dropWhile_not isBlank text.reverse
    rw [hhead] at hfirst
    exact hfirst

theorem dropWhile_isBlank_of_forall {text : Text} (htext : ∀ char ∈ text, isBlank char = false) :
    text.dropWhile isBlank = text := by
  cases text with
  | nil => rfl
  | cons char text =>
    exact List.dropWhile_cons_of_neg (by rw [htext char List.mem_cons_self]; decide)

/-- A text without blanks is its own `trim`. -/
theorem trim_of_forall {text : Text} (htext : ∀ char ∈ text, isBlank char = false) :
    trim text = text := by
  unfold trim trimBlanks
  rw [dropWhile_isBlank_of_forall htext, dropWhile_isBlank_of_forall, List.reverse_reverse]
  exact fun char hchar ↦ htext char (List.mem_reverse.mp hchar)

theorem trimBlanks_of_not_endsBlank {text : Text} (h : endsBlank text = false) :
    trimBlanks text = text := by
  unfold endsBlank at h
  rw [← List.head?_reverse] at h
  unfold trimBlanks
  cases hreverse : text.reverse with
  | nil => simpa using hreverse
  | cons char rest =>
    rw [hreverse, List.head?_cons, Option.any_some] at h
    rw [List.dropWhile_cons_of_neg (by simp [h]), ← hreverse, List.reverse_reverse]

theorem eq_of_cutFirst {char : Char} {text before after : Text}
    (h : cutFirst char text = some (before, after)) : text = before ++ char :: after := by
  unfold cutFirst at h
  split_ifs at h with hmem
  obtain ⟨rfl, rfl⟩ := Prod.mk.inj (Option.some.inj h)
  have hstop : text.dropWhile (· ≠ char) ≠ [] := by
    intro hnil
    simpa using List.dropWhile_eq_nil_iff.mp hnil char hmem
  obtain ⟨first, rest, hcons⟩ := List.exists_cons_of_ne_nil hstop
  have hfirst : first = char := by
    have hhead := List.head?_dropWhile_not (fun other ↦ decide (other ≠ char)) text
    rw [hcons] at hhead
    simpa using hhead
  calc text = text.takeWhile (· ≠ char) ++ text.dropWhile (· ≠ char) :=
        List.takeWhile_append_dropWhile.symm
    _ = text.takeWhile (· ≠ char) ++ char :: (text.dropWhile (· ≠ char)).drop 1 := by
      rw [hcons, hfirst]
      rfl

theorem eq_of_cutLast {char : Char} {text before after : Text}
    (h : cutLast char text = some (before, after)) : text = before ++ char :: after := by
  unfold cutLast at h
  cases hcut : cutFirst char text.reverse with
  | none =>
    rw [hcut] at h
    contradiction
  | some parts =>
    rw [hcut, Option.map_some, Option.some.injEq, Prod.mk.injEq] at h
    obtain ⟨rfl, rfl⟩ := h
    have hreverse := congrArg List.reverse (eq_of_cutFirst hcut)
    simpa using hreverse

theorem eq_scheme_append {url proto : Text} (h : schemeOf url = some proto) :
    url = proto ++ url.drop proto.length := by
  unfold schemeOf at h
  split_ifs at h with hrtsp hrtsps
  · obtain rfl := Option.some.inj h
    exact (List.prefix_iff_eq_append.mp (List.isPrefixOf_iff_prefix.mp hrtsp)).symm
  · obtain rfl := Option.some.inj h
    exact (List.prefix_iff_eq_append.mp (List.isPrefixOf_iff_prefix.mp hrtsps)).symm

theorem encodeCredentials_eq (userInfo : Text) :
    ∃ before, encodeCredentials userInfo = before ++ ['@'] := by
  unfold encodeCredentials
  split
  · rename_i user pass _
    exact ⟨encodeURIComponent (safeDecode user) ++ ':' :: encodeURIComponent (safeDecode pass),
      by simp⟩
  · exact ⟨_, rfl⟩

/-- Sanitising a URL leaves what stands at its end. -/
theorem endsBlank_sanitizeRtspUrl {url sanitized : Text} (h : sanitizeRtspUrl url = .ok sanitized) :
    endsBlank sanitized = endsBlank url := by
  unfold sanitizeRtspUrl at h
  split_ifs at h
  cases hscheme : schemeOf url with
  | none =>
    rw [hscheme] at h
    contradiction
  | some proto =>
    simp only [hscheme] at h
    have hparts : (url.drop proto.length).takeWhile (· ≠ '/') ++
        (url.drop proto.length).dropWhile (· ≠ '/') = url.drop proto.length :=
      List.takeWhile_append_dropWhile
    generalize (url.drop proto.length).takeWhile (· ≠ '/') = authority at h hparts
    generalize (url.drop proto.length).dropWhile (· ≠ '/') = pathAndQuery at h hparts
    cases hcut : cutLast '@' authority with
    | none =>
      simp only [hcut] at h
      rw [Except.ok.inj h]
    | some parts =>
      obtain ⟨userInfo, hostPort⟩ := parts
      simp only [hcut] at h
      obtain rfl := Except.ok.inj h
      obtain ⟨before, hbefore⟩ := encodeCredentials_eq userInfo
      have hurl : url = proto ++ userInfo ++ ['@'] ++ (hostPort ++ pathAndQuery) := by
        rw [eq_scheme_append hscheme, ← hparts, eq_of_cutLast hcut]
        simp
      have hout : proto ++ encodeCredentials userInfo ++ hostPort ++ pathAndQuery =
          proto ++ before ++ ['@'] ++ (hostPort ++ pathAndQuery) := by
        rw [hbefore]
        simp
      rw [hout, hurl]
      by_cases hend : hostPort ++ pathAndQuery = []
      · rw [hend, List.append_nil, List.append_nil, endsBlank_append (by simp),
          endsBlank_append (by simp)]
      · rw [endsBlank_append hend, endsBlank_append hend]

theorem not_endsBlank_trim (url : Text) : endsBlank (trim url) = false := endsBlank_trimBlanks _

theorem schemeOf_first {url proto : Text} (h : schemeOf url = some proto) :
    ∃ rest, url = 'r' :: rest := by
  have hbegins := eq_scheme_append h
  unfold schemeOf at h
  split_ifs at h
  · obtain rfl := Option.some.inj h
    exact ⟨_, hbegins⟩
  · obtain rfl := Option.some.inj h
    exact ⟨_, hbegins⟩

/-- A URL is sanitised when it has a scheme. -/
theorem sanitizeRtspUrl_isOk_iff (url : Text) :
    (∃ sanitized, sanitizeRtspUrl url = .ok sanitized) ↔ (schemeOf url).isSome = true := by
  unfold sanitizeRtspUrl
  cases hscheme : schemeOf url with
  | none => split_ifs <;> simp
  | some proto =>
    obtain ⟨rest, rfl⟩ := schemeOf_first hscheme
    simp only [List.isEmpty_cons, Bool.false_eq_true, if_false, Option.isSome_some, iff_true]
    split
    · exact ⟨_, rfl⟩
    · exact ⟨_, rfl⟩

/-- A URL with a scheme is sanitised like its trimmed form only when it is trimmed. -/
theorem sanitize_trim_iff {url : Text} (hscheme : (schemeOf url).isSome = true) :
    sanitizeRtspUrl url = sanitizeRtspUrl (trim url) ↔ trim url = url := by
  constructor
  · intro hsame
    obtain ⟨sanitized, hsanitized⟩ := (sanitizeRtspUrl_isOk_iff url).mpr hscheme
    have hend : endsBlank url = false := by
      rw [← endsBlank_sanitizeRtspUrl hsanitized,
        endsBlank_sanitizeRtspUrl (hsame.symm.trans hsanitized)]
      exact not_endsBlank_trim url
    obtain ⟨proto, hproto⟩ := Option.isSome_iff_exists.mp hscheme
    obtain ⟨rest, rfl⟩ := schemeOf_first hproto
    unfold trim
    rw [List.dropWhile_cons_of_neg (by decide)]
    exact trimBlanks_of_not_endsBlank hend
  · intro htrim
    rw [htrim]

end VmsLite.Media
