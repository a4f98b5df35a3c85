import Mathlib.Data.List.Infix
import VmsLite.Webhooks.UrlSafety

/-!
# Editing a webhook endpoint

`updateEndpoint` and the view of an endpoint that `toDto` gives, in which the secret is masked. A
masked secret shows its last four characters when it has more than eight; `updateEndpoint` takes a
submitted secret for a masked one when it contains the text of a mask without them. The two agree on
short secrets only (`updateKeeps_iff`). Strings are lists of UTF-16 code units, because `length` and
`slice` count these.
-/

set_option autoImplicit false

namespace VmsLite.Webhooks

abbrev CodeUnits := List ℕ

/-- The code units of a text in ASCII. -/
def units (text : String) : CodeUnits := text.toList.map Char.toNat

def includes (text part : CodeUnits) : Bool := decide (part <:+: text)

/-- `slice(-4)`. -/
def lastFour (text : CodeUnits) : CodeUnits := text.drop (text.length - 4)

def placeholder : CodeUnits := units "whsec_***"

def maskSecret (secret : CodeUnits) : CodeUnits :=
  if secret = [] then placeholder
  else if 8 < secret.length then units "whsec_" ++ lastFour secret
  else placeholder

structure EndpointRecord where
  id : String
  name : String
  url : String
  secret : CodeUnits
  events : List String
  enabled : Bool

structure UpdateWebhookInput where
  name : Option String := none
  url : Option String := none
  secret : Option CodeUnits := none
  events : Option (List String) := none
  enabled : Option Bool := none

def toDto (record : EndpointRecord) : EndpointRecord :=
  { record with secret := maskSecret record.secret }

/-- The secret that an update leaves. -/
def updatedSecret (existing : CodeUnits) : Option CodeUnits → CodeUnits
  | none => existing
  | some submitted =>
    if submitted ≠ [] && !includes submitted placeholder then submitted else existing

/-- The update of an endpoint that is there; `urlValidation` is what the guard says of a new URL. -/
def updateEndpoint (allowPrivateIpsForTesting : Bool) (urlValidation : UrlSafety)
    (existing : EndpointRecord) (input : UpdateWebhookInput) : Except String EndpointRecord :=
  if input.url.any (· ≠ "") && !urlValidation.safe && !allowPrivateIpsForTesting then
    .error (urlValidation.error.getD "Invalid or blocked webhook destination URL")
  else
    .ok { existing with
      name := input.name.getD existing.name
      url := input.url.getD existing.url
      secret := updatedSecret existing.secret input.secret
      events := input.events.getD existing.events
      enabled := input.enabled.getD existing.enabled }

/-! ### What an update must keep -/

/-- A secret that is not a masked one. -/
def IsUnmasked (secret : CodeUnits) : Prop := secret ≠ [] ∧ ∀ stored, secret ≠ maskSecret stored

/-- What a caller who edits an endpoint finds afterwards. -/
structure IsKept (existing : EndpointRecord) (input : UpdateWebhookInput)
    (updated : EndpointRecord) :
    Prop where
  /-- A secret that is left out, or sent back as it was shown, stays. -/
  secret_kept : input.secret = none ∨ input.secret = some (toDto existing).secret →
    updated.secret = existing.secret
  secret_stored : ∀ secret, input.secret = some secret → IsUnmasked secret → updated.secret = secret
  name_eq : (toDto updated).name = input.name.getD (toDto existing).name
  url_eq : (toDto updated).url = input.url.getD (toDto existing).url
  events_eq : (toDto updated).events = input.events.getD (toDto existing).events
  enabled_eq : (toDto updated).enabled = input.enabled.getD (toDto existing).enabled

/-- Every update that goes through keeps what it must. -/
def UpdateKeeps (allowPrivateIpsForTesting : Bool) (urlValidation : UrlSafety)
    (existing : EndpointRecord) (input : UpdateWebhookInput) : Prop :=
  ∀ updated, updateEndpoint allowPrivateIpsForTesting urlValidation existing input = .ok updated →
    IsKept existing input updated

/-- A masked secret is recognised as one when it shows no more than three stars. -/
def ShowsStars (secret : CodeUnits) : Prop :=
  secret.length ≤ 8 ∨ units "***" <+: lastFour secret

/-- The update is refused, or: a masked secret sent back is recognised or is the secret itself, and
a new secret does not contain the placeholder or is the one that is stored. -/
def IsRecognised (allowPrivateIpsForTesting : Bool) (urlValidation : UrlSafety)
    (existing : EndpointRecord) (input : UpdateWebhookInput) : Prop :=
  (∃ url, input.url = some url ∧ url ≠ "" ∧ urlValidation.safe = false ∧
      allowPrivateIpsForTesting = false) ∨
    (input.secret = some (maskSecret existing.secret) →
      ShowsStars existing.secret ∨ maskSecret existing.secret = existing.secret) ∧
    ∀ secret, input.secret = some secret → IsUnmasked secret →
      includes secret placeholder = false ∨ secret = existing.secret

/-! ### The masks that are recognised -/

theorem length_lastFour {secret : CodeUnits} (h : 8 < secret.length) :
    (lastFour secret).length = 4 := by
  unfold lastFour
  rw [List.length_drop]
  omega

/-- Behind the prefix the placeholder can only stand at the head. -/
theorem placeholder_infix_iff {shown : CodeUnits} (hlength : shown.length = 4) :
    placeholder <:+: units "whsec_" ++ shown ↔ units "***" <+: shown := by
  have hplaceholder : placeholder = units "whsec_" ++ units "***" := by decide
  constructor
  · rintro ⟨before, after, hsplit⟩
    have htotal := congrArg List.length hsplit
    rw [List.length_append, List.length_append, List.length_append, hlength] at htotal
    have hsix : (units "whsec_").length = 6 := by decide
    have hnine : placeholder.length = 9 := by decide
    cases before with
    | nil =>
      rw [hplaceholder, List.nil_append, List.append_assoc] at hsplit
      exact ⟨after, List.append_cancel_left hsplit⟩
    | cons first rest =>
      have hrest : rest = [] := by
        refine List.eq_nil_of_length_eq_zero ?_
        rw [List.length_cons] at htotal
        omega
      subst hrest
      -- the second character would be both a `w` and an `h`
      have hsecond := congrArg (·[1]?) hsplit
      have hleft : ([first] ++ placeholder ++ after)[1]? = some 119 := rfl
      have hright : (units "whsec_" ++ shown)[1]? = some 104 := rfl
      simp only [hleft, hright] at hsecond
      cases hsecond
  · rintro ⟨after, rfl⟩
    exact ⟨[], after, by rw [hplaceholder, List.nil_append, List.append_assoc]⟩

/-- A mask is recognised exactly when it shows no more than three stars. -/
theorem includes_maskSecret_iff (secret : CodeUnits) :
    includes (maskSecret secret) placeholder = true ↔ ShowsStars secret := by
  have hself : includes placeholder placeholder = true := decide_eq_true (List.infix_refl _)
  unfold maskSecret ShowsStars
  split_ifs with hempty hlong
  · subst hempty
    exact iff_of_true hself (Or.inl (Nat.zero_le _))
  · unfold includes
    rw [decide_eq_true_iff, placeholder_infix_iff (length_lastFour hlong)]
    exact ⟨Or.inr, fun h ↦ h.resolve_left (not_le.mpr hlong)⟩
  · exact iff_of_true hself (Or.inl (not_lt.mp hlong))

theorem maskSecret_ne_nil (secret : CodeUnits) : maskSecret secret ≠ [] := by
  unfold maskSecret
  split_ifs
  · decide
  · exact List.append_ne_nil_of_left_ne_nil (by decide) _
  · decide

/-! ### When an update keeps what it must -/

variable {allowPrivateIpsForTesting : Bool} {urlValidation : UrlSafety} {existing : EndpointRecord}
  {input : UpdateWebhookInput}

theorem updatedSecret_of_recognised {stored submitted : CodeUnits}
    (h : includes submitted placeholder = true) :
        updatedSecret stored (some submitted) = stored := by
  unfold updatedSecret
  simp [h]

theorem updatedSecret_of_not_recognised {stored submitted : CodeUnits} (hne : submitted ≠ [])
    (h : includes submitted placeholder = false) :
    updatedSecret stored (some submitted) = submitted := by
  unfold updatedSecret
  simp [h, hne]

/-- A masked secret sent back leaves the secret as it is, exactly when it is recognised or is the
secret itself. -/
theorem updatedSecret_maskSecret_iff (stored : CodeUnits) :
    updatedSecret stored (some (maskSecret stored)) = stored ↔
      ShowsStars stored ∨ maskSecret stored = stored := by
  cases hrecognised : includes (maskSecret stored) placeholder with
  | true =>
    exact iff_of_true (updatedSecret_of_recognised hrecognised)
      (Or.inl ((includes_maskSecret_iff stored).mp hrecognised))
  | false =>
    rw [updatedSecret_of_not_recognised (maskSecret_ne_nil stored) hrecognised]
    have hstars : ¬ ShowsStars stored := fun hstars ↦
      absurd ((includes_maskSecret_iff stored).mpr hstars) (by simp [hrecognised])
    exact ⟨Or.inr, fun h ↦ h.resolve_left hstars⟩

/-- A new secret is stored, exactly when it does not contain the placeholder or is stored
already. -/
theorem updatedSecret_eq_iff {stored secret : CodeUnits} (hnew : secret ≠ []) :
    updatedSecret stored (some secret) = secret ↔
      includes secret placeholder = false ∨ secret = stored := by
  cases hrecognised : includes secret placeholder with
  | true =>
    rw [updatedSecret_of_recognised hrecognised]
    exact ⟨fun h ↦ Or.inr h.symm, fun h ↦ (h.resolve_left nofun).symm⟩
  | false => exact iff_of_true (updatedSecret_of_not_recognised hnew hrecognised) (Or.inl rfl)

/-- The record after an update that is not refused. -/
theorem updateEndpoint_eq_ok
    (hallowed : ¬ ∃ url, input.url = some url ∧ url ≠ "" ∧ urlValidation.safe = false ∧
      allowPrivateIpsForTesting = false) :
    updateEndpoint allowPrivateIpsForTesting urlValidation existing input =
      .ok { existing with
        name := input.name.getD existing.name
        url := input.url.getD existing.url
        secret := updatedSecret existing.secret input.secret
        events := input.events.getD existing.events
        enabled := input.enabled.getD existing.enabled } := by
  refine if_neg fun hrefused ↦ hallowed ?_
  simp only [Bool.and_eq_true, Option.any_eq_true, decide_eq_true_eq, Bool.not_eq_true'] at hrefused
  obtain ⟨⟨⟨url, hurl, hne⟩, hrisky⟩, hguarded⟩ := hrefused
  exact ⟨url, hurl, hne, hrisky, hguarded⟩

/-- An update that is refused stores nothing. -/
theorem updateEndpoint_eq_error {url : String} (hurl : input.url = some url) (hne : url ≠ "")
    (hrisky : urlValidation.safe = false) :
    ∃ error, updateEndpoint false urlValidation existing input = .error error := by
  refine ⟨_, if_pos ?_⟩
  simp [hurl, hne, hrisky]

/-- An update of an endpoint keeps what it must, if and only if masked and new secrets are told
apart. -/
theorem updateKeeps_iff (allowPrivateIpsForTesting : Bool) (urlValidation : UrlSafety)
    (existing : EndpointRecord) (input : UpdateWebhookInput) :
    UpdateKeeps allowPrivateIpsForTesting urlValidation existing input ↔
      IsRecognised allowPrivateIpsForTesting urlValidation existing input := by
  by_cases hrefused : ∃ url, input.url = some url ∧ url ≠ "" ∧ urlValidation.safe = false ∧
      allowPrivateIpsForTesting = false
  · refine iff_of_true ?_ (Or.inl hrefused)
    obtain ⟨url, hurl, hne, hrisky, rfl⟩ := hrefused
    intro updated hupdated
    obtain ⟨error, herror⟩ : ∃ error, updateEndpoint false urlValidation existing input =
        .error error := updateEndpoint_eq_error hurl hne hrisky
    rw [herror] at hupdated
    cases hupdated
  · unfold UpdateKeeps IsRecognised
    rw [updateEndpoint_eq_ok hrefused]
    constructor
    · refine fun hkeeps ↦ Or.inr ⟨fun hmasked ↦ ?_, fun secret hsecret hnew ↦ ?_⟩
      · have hkept := (hkeeps _ rfl).secret_kept (Or.inr hmasked)
        rw [hmasked] at hkept
        exact (updatedSecret_maskSecret_iff existing.secret).mp hkept
      · have hstored := (hkeeps _ rfl).secret_stored secret hsecret hnew
        rw [hsecret] at hstored
        exact (updatedSecret_eq_iff hnew.1).mp hstored
    · intro hrecognised updated hupdated
      obtain ⟨hmasked, hnew⟩ := hrecognised.resolve_left hrefused
      obtain rfl := Except.ok.inj hupdated
      refine ⟨?_, ?_, rfl, rfl, rfl, rfl⟩
      · rintro (homitted | hshown)
        · simp only [homitted, updatedSecret]
        · change input.secret = some (maskSecret existing.secret) at hshown
          simp only [hshown]
          exact (updatedSecret_maskSecret_iff existing.secret).mpr (hmasked hshown)
      · intro secret hsecret hunmasked
        simp only [hsecret]
        exact (updatedSecret_eq_iff hunmasked.1).mpr (hnew secret hsecret hunmasked)

/-! ### A secret sent back as it was shown -/

def longSecret : EndpointRecord where
  id := "e-1"
  name := "alerts"
  url := "https://hooks.example.com/vms"
  secret := units "whsec_0123456789"
  events := ["*"]
  enabled := true

/-- The settings page sends back what it was given. -/
def shownSecret : UpdateWebhookInput where
  name := some "alarms"
  secret := some (units "whsec_6789")

/-- The mask is stored in the place of the secret. -/
theorem not_updateKeeps_shownSecret :
    ¬ UpdateKeeps false { safe := true } longSecret shownSecret := by
  intro hkeeps
  have hkept := (hkeeps _ rfl).secret_kept (Or.inr (by decide))
  revert hkept
  decide

end VmsLite.Webhooks
