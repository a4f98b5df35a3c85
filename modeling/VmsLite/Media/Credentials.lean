import VmsLite.Data.Utf8
import VmsLite.Media.RtspUrl

/-!
# Credentials of source URLs

`sanitizeRtspUrl` takes the credentials of a URL apart, decodes each part, when it can, and encodes
it again. On a URL put together from its parts, whatever the credentials are escaped like, it
changes nothing but the spelling of the credentials, and sanitising once more changes nothing
(`isSanitized`).
-/

set_option autoImplicit false

namespace VmsLite.Media

open Url (Text percentEncodeByte)

/-! ### Escapes -/

theorem hexValue_hexDigit {digit : ℕ} (hdigit : digit < 16) :
    hexValue (Url.hexDigit digit) = some digit := by
  revert digit
  decide

/-- The escapes of some bytes are read as the bytes. -/
theorem readEscapes_percentEncode (bytes : List UInt8) (rest : Text) :
    readEscapes (bytes.flatMap percentEncodeByte ++ rest) =
      (readEscapes rest).map ((bytes.map fun byte ↦ .inr byte.toNat) ++ ·) := by
  induction bytes with
  | nil => simp
  | cons byte bytes ih =>
    have hbyte := byte.toNat_lt
    have hhigh := @hexValue_hexDigit (byte.toNat / 16) (by omega)
    have hlow := @hexValue_hexDigit (byte.toNat % 16) (by omega)
    have hvalue : 16 * (byte.toNat / 16) + byte.toNat % 16 = byte.toNat := Nat.div_add_mod _ _
    rw [List.flatMap_cons, percentEncodeByte, List.append_assoc]
    simp only [List.cons_append, List.nil_append, readEscapes, hhigh, hlow, ih, hvalue,
      Option.map_map]
    rfl

/-- A character as `readEscapes` reads it from an encoded text. -/
def readChar (char : Char) : List (Char ⊕ ℕ) :=
  if isUnreserved char then [.inl char]
  else (String.utf8EncodeChar char).map fun byte ↦ .inr byte.toNat

theorem readEscapes_encodeURIComponent (text : Text) :
    readEscapes (encodeURIComponent text) = some (text.flatMap readChar) := by
  induction text with
  | nil => rfl
  | cons char text ih =>
    unfold encodeURIComponent at ih ⊢
    rw [List.flatMap_cons, List.flatMap_cons, readChar]
    split_ifs with hplain
    · have hpercent : char ≠ '%' := by
        rintro rfl
        exact absurd hplain (by decide)
      rw [List.singleton_append, readEscapes, if_neg hpercent, ih]
      · rfl
      · exact fun _ _ _ heq ↦ absurd heq hpercent
    · rw [readEscapes_percentEncode, ih]
      rfl

/-- The bytes of a character spell it. -/
theorem decodeUtf8_utf8EncodeChar (char : Char) (rest : List (Char ⊕ ℕ)) :
    decodeUtf8 (((String.utf8EncodeChar char).map fun byte ↦ .inr byte.toNat) ++ rest) =
      (decodeUtf8 rest).map (char :: ·) := by
  have hbyte : ∀ {value : ℕ}, value < 256 → (UInt8.ofNat value).toNat = value := by
    intro value hlt
    rw [UInt8.toNat_ofNat']
    exact Nat.mod_eq_of_lt hlt
  have hmultibyte : ∀ {least code : ℕ}, code = char.toNat → least ≤ code →
      multibyte least code = some char := by
    rintro least code rfl hleast
    have hvalid : char.toNat.isValidChar := char.valid
    unfold multibyte
    rw [decide_eq_true hleast, decide_eq_true hvalid, Char.ofNat_toNat]
    rfl
  have hlimit : char.toNat < 0x110000 := by
    rcases char.valid with hlow | ⟨-, hhigh⟩
    · exact lt_trans hlow (by decide)
    · exact hhigh
  have hcontinuation : ∀ value : ℕ, continuation (.inr (value % 64 + 128)) = some (value % 64) := by
    intro value
    unfold continuation
    dsimp only
    rw [if_pos (by simp; omega), Nat.add_sub_cancel]
  have hvalue : char.val.toNat = char.toNat := rfl
  unfold String.utf8EncodeChar
  dsimp only
  rw [hvalue]
  split_ifs with hone htwo hthree
  · simp only [List.map_cons, List.map_nil, List.cons_append, List.nil_append,
      hbyte (by omega : char.toNat < 256)]
    rw [decodeUtf8.eq_def]
    dsimp only
    rw [if_pos (by omega), Char.ofNat_toNat]
  · have hcode : 64 * (char.toNat / 64 % 32 + 192 - 192) + char.toNat % 64 = char.toNat := by omega
    simp only [List.map_cons, List.map_nil, List.cons_append, List.nil_append,
      hbyte (by omega : char.toNat / 64 % 32 + 192 < 256),
      hbyte (by omega : char.toNat % 64 + 128 < 256)]
    rw [decodeUtf8.eq_def]
    dsimp only
    rw [if_neg (by omega), if_pos (by simp; omega)]
    simp only [hcontinuation, Option.bind_eq_bind, Option.bind_some]
    rw [hmultibyte hcode (by omega), Option.bind_some]
  · have hcode : 4096 * (char.toNat / 4096 % 16 + 224 - 224) + 64 * (char.toNat / 64 % 64) +
        char.toNat % 64 = char.toNat := by omega
    simp only [List.map_cons, List.map_nil, List.cons_append, List.nil_append,
      hbyte (by omega : char.toNat / 4096 % 16 + 224 < 256),
      hbyte (by omega : char.toNat / 64 % 64 + 128 < 256),
      hbyte (by omega : char.toNat % 64 + 128 < 256)]
    rw [decodeUtf8.eq_def]
    dsimp only
    rw [if_neg (by omega), if_neg (by simp), if_pos (by simp; omega)]
    simp only [hcontinuation, Option.bind_eq_bind, Option.bind_some]
    rw [hmultibyte hcode (by omega), Option.bind_some]
  · have hcode : 262144 * (char.toNat / 262144 % 8 + 240 - 240) + 4096 * (char.toNat / 4096 % 64) +
        64 * (char.toNat / 64 % 64) + char.toNat % 64 = char.toNat := by omega
    simp only [List.map_cons, List.map_nil, List.cons_append, List.nil_append,
      hbyte (by omega : char.toNat / 262144 % 8 + 240 < 256),
      hbyte (by omega : char.toNat / 4096 % 64 + 128 < 256),
      hbyte (by omega : char.toNat / 64 % 64 + 128 < 256),
      hbyte (by omega : char.toNat % 64 + 128 < 256)]
    rw [decodeUtf8.eq_def]
    dsimp only
    rw [if_neg (by omega), if_neg (by simp), if_neg (by simp),
      if_pos (by simp; omega)]
    simp only [hcontinuation, Option.bind_eq_bind, Option.bind_some]
    rw [hmultibyte hcode (by omega), Option.bind_some]

theorem decodeUtf8_readChar (text : Text) : decodeUtf8 (text.flatMap readChar) = some text := by
  induction text with
  | nil => rfl
  | cons char text ih =>
    rw [List.flatMap_cons, readChar]
    split_ifs
    · rw [List.singleton_append, decodeUtf8, ih]
      rfl
    · rw [decodeUtf8_utf8EncodeChar, ih]
      rfl

theorem decodeURIComponent_encodeURIComponent (text : Text) :
    decodeURIComponent (encodeURIComponent text) = some text := by
  unfold decodeURIComponent
  rw [readEscapes_encodeURIComponent, Option.bind_some, decodeUtf8_readChar]

theorem safeDecode_encodeURIComponent (text : Text) :
    safeDecode (encodeURIComponent text) = text := by
  unfold safeDecode
  rw [decodeURIComponent_encodeURIComponent]
  rfl

/-! ### Encoded texts -/

/-- Whether a `%` stands before two hexadecimal digits. -/
def StartsEscape (rest : Text) : Prop :=
  ∃ high low more, rest = high :: low :: more ∧ (hexValue high).isSome = true ∧
    (hexValue low).isSome = true

/-- A text without reserved characters. -/
structure IsClean (text : Text) : Prop where
  reserved : ∀ char ∈ text, char ∉ ['@', ':', '#', '?', '/']
  escapes : ∀ before rest, text = before ++ '%' :: rest → StartsEscape rest

/-- Where escapes can be read, every `%` starts one. -/
theorem startsEscape_of_readEscapes {text : Text} (htext : (readEscapes text).isSome = true) :
    ∀ before rest, text = before ++ '%' :: rest → StartsEscape rest := by
  have hpercent : hexValue '%' = none := by decide
  induction text using readEscapes.induct with
  | case1 => exact fun before rest heq ↦ absurd heq.symm (by simp)
  | case2 high low text highValue lowValue hlow hhigh ih =>
    rw [readEscapes, hhigh, hlow] at htext
    have hmore := ih (by simpa using htext)
    intro before rest heq
    rcases before with _ | ⟨first, _ | ⟨second, _ | ⟨third, before⟩⟩⟩
    · obtain rfl : high :: low :: text = rest := by simpa using heq
      exact ⟨high, low, text, rfl, by rw [hhigh]; rfl, by rw [hlow]; rfl⟩
    · -- The digits of an escape are not `%`
      obtain ⟨-, rfl, -⟩ : _ ∧ high = '%' ∧ _ := by simpa using heq
      rw [hpercent] at hhigh
      cases hhigh
    · obtain ⟨-, -, rfl, -⟩ : _ ∧ _ ∧ low = '%' ∧ _ := by simpa using heq
      rw [hpercent] at hlow
      cases hlow
    · obtain ⟨-, -, -, hrest⟩ : _ ∧ _ ∧ _ ∧ text = before ++ '%' :: rest := by simpa using heq
      exact hmore before rest hrest
  | case3 high low text hnone =>
    rw [readEscapes] at htext
    split at htext
    · exact absurd (hnone _ _ ‹_› ‹_›) id
    · cases htext
  | case4 text hshort =>
    rw [readEscapes, if_pos rfl] at htext
    · cases htext
    · exact fun high low more _ hmore ↦ hshort high low more rfl hmore
  | case5 char text hshort hchar ih =>
    rw [readEscapes, if_neg hchar] at htext
    · have hmore := ih (by simpa using htext)
      intro before rest heq
      cases before with
      | nil => exact absurd (List.cons.inj heq).1 hchar
      | cons first before => exact hmore before rest (List.cons.inj heq).2
    · exact fun high low more heq hmore ↦ hshort high low more heq hmore

theorem mem_encodeURIComponent {text : Text} {char : Char}
    (hmem : char ∈ encodeURIComponent text) :
    isUnreserved char = true ∨ char = '%' ∨ ∃ digit < 16, char = Url.hexDigit digit := by
  obtain ⟨original, -, hchar⟩ := List.mem_flatMap.mp hmem
  split_ifs at hchar with hplain
  · rw [List.mem_singleton.mp hchar]
    exact Or.inl hplain
  · obtain ⟨byte, -, hbyte⟩ := List.mem_flatMap.mp hchar
    have hlt := byte.toNat_lt
    simp only [percentEncodeByte, List.mem_cons, List.not_mem_nil, or_false] at hbyte
    rcases hbyte with rfl | rfl | rfl
    · exact Or.inr (Or.inl rfl)
    · exact Or.inr (Or.inr ⟨_, by omega, rfl⟩)
    · exact Or.inr (Or.inr ⟨_, by omega, rfl⟩)

theorem isClean_encodeURIComponent (text : Text) : IsClean (encodeURIComponent text) where
  reserved char hchar := by
    have hdigits : ∀ digit < 16, Url.hexDigit digit ∉ ['@', ':', '#', '?', '/'] := by decide
    have hreserved : ∀ other ∈ ['@', ':', '#', '?', '/'], isUnreserved other = false ∧
        other ≠ '%' := by
      simp only [List.forall_mem_cons, List.not_mem_nil, false_implies, implies_true, and_true]
      decide
    rcases mem_encodeURIComponent hchar with hplain | rfl | ⟨digit, hdigit, rfl⟩
    · exact fun hmem ↦ absurd hplain (by simp [(hreserved char hmem).1])
    · decide
    · exact hdigits digit hdigit
  escapes := startsEscape_of_readEscapes (by rw [readEscapes_encodeURIComponent]; rfl)

/-! ### Cuts -/

theorem cutFirst_append {char : Char} {before : Text} (hbefore : char ∉ before) (after : Text) :
    cutFirst char (before ++ char :: after) = some (before, after) := by
  have hplain : ∀ other ∈ before, decide (other ≠ char) = true := by
    intro other hother
    exact decide_eq_true (ne_of_mem_of_not_mem hother hbefore)
  unfold cutFirst
  rw [if_pos (by simp), List.takeWhile_append_of_pos hplain, List.dropWhile_append_of_pos hplain]
  simp

theorem cutFirst_of_not_mem {char : Char} {text : Text} (htext : char ∉ text) :
    cutFirst char text = none := if_neg htext

theorem cutLast_append {char : Char} {after : Text} (hafter : char ∉ after) (before : Text) :
    cutLast char (before ++ char :: after) = some (before, after) := by
  have hreverse : (before ++ char :: after).reverse = after.reverse ++ char :: before.reverse := by
    simp
  unfold cutLast
  rw [hreverse, cutFirst_append (List.mem_reverse.not.mpr hafter)]
  simp

/-! ### Source URLs put together from their parts -/

inductive Scheme
  | rtsp | rtsps

def Scheme.text : Scheme → Text
  | .rtsp => Media.rtsp
  | .rtsps => Media.rtsps

structure Credentials where
  user : Text
  pass : Option Text
  user_no_slash : '/' ∉ user
  user_no_colon : ':' ∉ user
  pass_no_slash : ∀ password ∈ pass, '/' ∉ password

def Credentials.userInfo (credentials : Credentials) : Text :=
  match credentials.pass with
  | none => credentials.user
  | some pass => credentials.user ++ ':' :: pass

/-- A host with its port, and a path. -/
structure Destination where
  hostPort : Text
  path : Text
  host_no_at : '@' ∉ hostPort
  host_no_slash : '/' ∉ hostPort
  path_slash : path = [] ∨ ∃ more, path = '/' :: more

def sourceUrl (scheme : Scheme) (credentials : Credentials) (destination : Destination) : Text :=
  scheme.text ++ (credentials.userInfo ++ '@' :: (destination.hostPort ++ destination.path))

/-- Credentials that spell the decoded ones, without reserved characters. -/
structure Credentials.Spells (sanitized credentials : Credentials) : Prop where
  user : IsClean sanitized.user
  pass : ∀ password ∈ sanitized.pass, IsClean password
  decodedUser : decodeURIComponent sanitized.user = some (safeDecode credentials.user)
  decodedPass : sanitized.pass.map decodeURIComponent =
    credentials.pass.map fun password ↦ some (safeDecode password)

theorem schemeOf_text_append (scheme : Scheme) (rest : Text) :
    schemeOf (scheme.text ++ rest) = some scheme.text := by
  cases scheme with
  | rtsp => simp [schemeOf, Scheme.text, rtsp]
  | rtsps => simp [schemeOf, Scheme.text, rtsp, rtsps]

theorem Credentials.not_mem_userInfo (credentials : Credentials) :
    '/' ∉ credentials.userInfo := by
  unfold userInfo
  cases hpass : credentials.pass with
  | none => exact credentials.user_no_slash
  | some pass => simp [credentials.user_no_slash, credentials.pass_no_slash pass hpass]

/-- The authority of a source URL, and what is behind it. -/
theorem authority_sourceUrl (credentials : Credentials) (destination : Destination) :
    (credentials.userInfo ++ '@' :: (destination.hostPort ++ destination.path)).takeWhile
        (· ≠ '/') = credentials.userInfo ++ '@' :: destination.hostPort ∧
      (credentials.userInfo ++ '@' :: (destination.hostPort ++ destination.path)).dropWhile
        (· ≠ '/') = destination.path := by
  have hauthority : ∀ char ∈ credentials.userInfo ++ '@' :: destination.hostPort,
      decide (char ≠ '/') = true := by
    intro char hchar
    refine decide_eq_true (ne_of_mem_of_not_mem hchar ?_)
    simp [credentials.not_mem_userInfo, destination.host_no_slash]
  have hsplit : credentials.userInfo ++ '@' :: (destination.hostPort ++ destination.path) =
      (credentials.userInfo ++ '@' :: destination.hostPort) ++ destination.path := by simp
  rw [hsplit, List.takeWhile_append_of_pos hauthority, List.dropWhile_append_of_pos hauthority]
  rcases destination.path_slash with hpath | ⟨more, hpath⟩
  · simp [hpath]
  · simp [hpath]

/-- What sanitising does to a URL put together from its parts. -/
theorem sanitizeRtspUrl_sourceUrl (scheme : Scheme) (credentials : Credentials)
    (destination : Destination) :
    sanitizeRtspUrl (sourceUrl scheme credentials destination) =
      .ok (scheme.text ++ encodeCredentials credentials.userInfo ++ destination.hostPort ++
        destination.path) := by
  obtain ⟨hauthority, hpath⟩ := authority_sourceUrl credentials destination
  have hnonempty : (sourceUrl scheme credentials destination).isEmpty = false := by
    cases scheme with
    | rtsp => rfl
    | rtsps => rfl
  unfold sanitizeRtspUrl
  rw [hnonempty, if_neg Bool.false_ne_true]
  unfold sourceUrl
  rw [schemeOf_text_append]
  dsimp only
  rw [List.drop_left, hauthority, hpath, cutLast_append destination.host_no_at]

namespace Credentials

/-- The credentials with their parts encoded. -/
def encoded (credentials : Credentials) : Credentials where
  user := encodeURIComponent (safeDecode credentials.user)
  pass := credentials.pass.map fun password ↦ encodeURIComponent (safeDecode password)
  user_no_slash hmem :=
    (isClean_encodeURIComponent _).reserved '/' hmem (by decide)
  user_no_colon hmem :=
    (isClean_encodeURIComponent _).reserved ':' hmem (by decide)
  pass_no_slash password hpassword hmem := by
    obtain ⟨original, -, rfl⟩ := Option.map_eq_some_iff.mp hpassword
    exact (isClean_encodeURIComponent _).reserved '/' hmem (by decide)

theorem encodeCredentials_userInfo (credentials : Credentials) :
    encodeCredentials credentials.userInfo = credentials.encoded.userInfo ++ ['@'] := by
  obtain ⟨user, pass, -, hcolon, -⟩ := credentials
  unfold encodeCredentials userInfo encoded
  cases pass with
  | none => simp [cutFirst_of_not_mem hcolon]
  | some pass => simp [cutFirst_append hcolon]

theorem encoded_spells (credentials : Credentials) : credentials.encoded.Spells credentials where
  user := isClean_encodeURIComponent _
  pass password hpassword := by
    obtain ⟨original, -, rfl⟩ := Option.map_eq_some_iff.mp hpassword
    exact isClean_encodeURIComponent _
  decodedUser := decodeURIComponent_encodeURIComponent _
  decodedPass := by
    unfold encoded
    rw [Option.map_map]
    exact Option.map_congr fun password _ ↦ decodeURIComponent_encodeURIComponent _

theorem encoded_encoded (credentials : Credentials) :
    credentials.encoded.encoded.userInfo = credentials.encoded.userInfo := by
  obtain ⟨user, pass, -, -, -⟩ := credentials
  unfold userInfo encoded
  cases pass with
  | none => simp [safeDecode_encodeURIComponent]
  | some pass => simp [safeDecode_encodeURIComponent]

end Credentials

/-- Where a parser that cuts the authority at an `@`, be it the first or the last, finds the
host. -/
def SplitsAt (url : Text) (scheme : Scheme) (hostPort : Text) : Prop :=
  let authority := (url.drop scheme.text.length).takeWhile (· ≠ '/')
  (cutFirst '@' authority).map Prod.snd = some hostPort ∧
    (cutLast '@' authority).map Prod.snd = some hostPort

theorem splitsAt_encoded (scheme : Scheme) (credentials : Credentials)
    (destination : Destination) :
    SplitsAt (sourceUrl scheme credentials.encoded destination) scheme destination.hostPort := by
  have hclean : ∀ text, '@' ∉ encodeURIComponent text :=
    fun text hmem ↦ (isClean_encodeURIComponent text).reserved '@' hmem (by decide)
  have huserInfo : '@' ∉ credentials.encoded.userInfo := by
    obtain ⟨user, pass, -, -, -⟩ := credentials
    unfold Credentials.userInfo Credentials.encoded
    cases pass with
    | none => exact hclean _
    | some pass => simp [hclean]
  unfold SplitsAt sourceUrl
  dsimp only
  rw [List.drop_left, (authority_sourceUrl credentials.encoded destination).1,
    cutFirst_append huserInfo, cutLast_append destination.host_no_at]
  exact ⟨rfl, rfl⟩

theorem sanitizeRtspUrl_eq_encoded (scheme : Scheme) (credentials : Credentials)
    (destination : Destination) :
    sanitizeRtspUrl (sourceUrl scheme credentials destination) =
      .ok (sourceUrl scheme credentials.encoded destination) := by
  rw [sanitizeRtspUrl_sourceUrl, credentials.encodeCredentials_userInfo]
  simp [sourceUrl]

/-- Sanitising keeps the parts of a URL and what the credentials decode to, leaves no reserved
character in the credentials, and is done after one time. -/
theorem isSanitized (scheme : Scheme) (credentials : Credentials) (destination : Destination) :
    ∃ sanitized : Credentials,
      sanitizeRtspUrl (sourceUrl scheme credentials destination) =
        .ok (sourceUrl scheme sanitized destination) ∧
      sanitized.Spells credentials ∧
      SplitsAt (sourceUrl scheme sanitized destination) scheme destination.hostPort ∧
      sanitizeRtspUrl (sourceUrl scheme sanitized destination) =
        .ok (sourceUrl scheme sanitized destination) := by
  refine ⟨credentials.encoded, sanitizeRtspUrl_eq_encoded scheme credentials destination,
    credentials.encoded_spells, splitsAt_encoded scheme credentials destination, ?_⟩
  rw [sanitizeRtspUrl_eq_encoded, sourceUrl, sourceUrl, credentials.encoded_encoded]

end VmsLite.Media
