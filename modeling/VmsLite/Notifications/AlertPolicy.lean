import Mathlib.Data.List.Infix
import VmsLite.Data.Json
import VmsLite.Health.CameraHealth
import VmsLite.Notifications.ConfigUpdate

/-!
# Site alerts in place of camera alerts

`alertFor` and what the three channels make of an event of the health service, up to the rate
limiter: phone notifications, e-mail, and the webhook endpoints one by one. An alert of a camera
that is covered by a site outage is left out everywhere, because the channel that would have sent it
sends the alert of the site. Phones and e-mail ask `channelWantsEvent`, which sees to that. Webhooks
compare the type with the list of the endpoint, so an endpoint that lists `camera.offline` but not
`site.offline` hears of neither (`replacesAlerts_iff`). The instant of an alert is left out.
-/

set_option autoImplicit false

namespace VmsLite.Notifications

open Health (HealthEvent HealthMetadata HealthRun SiteId CameraId)

/-! ### The policy -/

/-- Events a person can be alerted about. -/
def alertEvents : List String :=
  ["motion.detected", "camera.offline", "camera.degraded", "camera.tamper", "storage.warning",
    "site.offline", "site.online"]

def siteAlertEvents : List String := ["site.offline", "site.online"]

def startsWith (text start : String) : Bool := decide (start.toList <+: text.toList)

structure SiteAlertDetails where
  title : String
  siteName : String
  cameraCount : ℕ
  duration : Option String
  deriving DecidableEq, Repr

structure Alert where
  type : String
  cameraId : Option CameraId
  siteId : Option SiteId
  /-- Camera name, or site name for site alerts. -/
  subjectName : String
  site : Option SiteAlertDetails
  metadata : HealthMetadata
  deriving DecidableEq, Repr

/-- Camera alert that is part of a site outage. -/
def isCoveredBySiteAlert (event : HealthEvent) : Bool :=
  startsWith event.type "camera." && event.siteOutage.any (· ≠ "")

def formatDuration (ms : Option ℤ) : Option String :=
  ms.map fun ms ↦
    let minutes := (ms + 30000) / 60000
    if minutes < 1 then "under a minute"
    else if minutes < 60 then toString minutes ++ " min"
    else toString (minutes / 60) ++ " h " ++ toString (minutes % 60) ++ " min"

def siteAlertDetails (event : HealthEvent) : SiteAlertDetails :=
  let offline := event.type = "site.offline"
  let title := if offline then "Site Unreachable" else "Site Back Online"
  match event.metadata with
  | .site metadata =>
    { title
      siteName := metadata.siteName
      cameraCount := metadata.cameraCount
      duration := if offline then none else formatDuration metadata.outageDurationMs }
  | .camera metadata =>
    { title
      siteName := "Unknown site"
      cameraCount := 0
      duration := if offline then none else formatDuration metadata.outageDurationMs }

/-- What a camera alert is about. -/
def cameraSubject (cameraId : Option CameraId) (metadata : HealthMetadata) : String :=
  let fallback :=
    match cameraId.filter (· ≠ "") with
    | some cameraId => "Camera " ++ String.ofList (cameraId.toList.take 8)
    | none => "System"
  match metadata with
  | .camera metadata => if metadata.cameraName = "" then fallback else metadata.cameraName
  | .site _ => fallback

/-- The alert an event stands for, or none when it must not alert anyone. -/
def alertFor (event : HealthEvent) : Option Alert :=
  if isCoveredBySiteAlert event then none
  else
    let isSite := startsWith event.type "site."
    let cameraId := if isSite then none else event.cameraId
    let site := if isSite then some (siteAlertDetails event) else none
    some
      { type := event.type
        cameraId
        siteId := event.siteId
        subjectName := (site.map (·.siteName)).getD (cameraSubject cameraId event.metadata)
        site
        metadata := event.metadata }

/-- A channel that sends camera-offline alerts also sends site alerts. -/
def channelWantsEvent (configuredEvents : List String) (eventType : String) : Bool :=
  eventType ∈ configuredEvents || (eventType ∈ siteAlertEvents && "camera.offline" ∈
    configuredEvents)

/-! ### The channels -/

/-- The alert that a list of events lets through. -/
def wantedAlert (configuredEvents : List String) (event : HealthEvent) : Option Alert :=
  (alertFor event).filter fun alert ↦ channelWantsEvent configuredEvents alert.type

/-- `handleEvent` of the phone notifications, on a bus that brings the events of `alertEvents`. -/
def phoneAlert (config : NotificationConfig) (event : HealthEvent) : Option Alert :=
  if event.type ∈ alertEvents ∧ config.settings.enabled = true then
    wantedAlert config.settings.events event
  else none

structure SmtpConfig where
  recipients : List String
  events : List String
  enabled : Bool

/-- `handleEvent` of the e-mails. -/
def smtpAlert (config : SmtpConfig) (event : HealthEvent) : Option Alert :=
  if event.type ∈ alertEvents ∧ config.enabled = true ∧ config.recipients ≠ [] then
    wantedAlert config.events event
  else none

def allowedWebhookEvents : List String :=
  ["motion.detected", "camera.added", "camera.online", "camera.degraded", "camera.offline",
    "camera.tamper", "site.offline", "site.online"]

/-- A row of `webhook_endpoints`, with its column of JSON. -/
structure EndpointRow where
  id : String
  events : Data.Json
  enabled : Bool

/-- `JSON.parse`; none when it throws. -/
abbrev JsonParse := List Char → Option Data.Json

/-- The events of an endpoint; none when they cannot be parsed. -/
def rawEvents (parse : JsonParse) (row : EndpointRow) : Option Data.Json :=
  match row.events with
  | .array items => some (.array items)
  | .string text => parse text
  | _ => some (.array [])

def isText (text : String) : Data.Json → Bool
  | .string found => found = text.toList
  | _ => false

/-- `includes` of an array or a text; none when there is no such method. -/
def includesText (text : String) : Option Data.Json → Option Bool
  | some (.array items) => some (items.any (isText text))
  | some (.string found) => some (decide (text.toList <:+: found))
  | _ => none

/-- Whether an endpoint is to get events of a type; none when that throws. -/
def endpointWants (parse : JsonParse) (eventType : String) (row : EndpointRow) : Option Bool :=
  match includesText "*" (rawEvents parse row) with
  | none => none
  | some true => some (eventType ∈ allowedWebhookEvents)
  | some false => includesText eventType (rawEvents parse row)

/-- The endpoints that an event is queued for. An error leaves the loop. -/
def queuedFor (parse : JsonParse) (eventType : String) : List EndpointRow → List EndpointRow
  | [] => []
  | row :: rows =>
    match endpointWants parse eventType row with
    | none => []
    | some true => row :: queuedFor parse eventType rows
    | some false => queuedFor parse eventType rows

/-- `handleEvent` of the webhooks. -/
def webhookEndpoints (parse : JsonParse) (rows : List EndpointRow) (event : HealthEvent) :
    List EndpointRow :=
  if (alertFor event).isNone then [] else queuedFor parse event.type (rows.filter (·.enabled))

/-- A channel with its configuration. -/
inductive Channel
  | phone (config : NotificationConfig)
  | mail (config : SmtpConfig)
  | webhooks (parse : JsonParse) (rows : List EndpointRow)

/-- Who takes an alert. -/
inductive Taker
  | phone
  | mail
  | endpoint (row : EndpointRow)

/-- Who takes an event, before any rate limit. -/
def Channel.takers (event : HealthEvent) : Channel → List Taker
  | .phone config => if (phoneAlert config event).isSome then [.phone] else []
  | .mail config => if (smtpAlert config event).isSome then [.mail] else []
  | .webhooks parse rows => (webhookEndpoints parse rows event).map .endpoint

/-! ### The property -/

/-- The event as it would be without the outage. -/
def uncovered (event : HealthEvent) : HealthEvent :=
  { event with
    metadata := match event.metadata with
      | .camera metadata => .camera { metadata with siteOutage := none }
      | .site metadata => .site metadata }

/-- Whoever would have taken a `camera.offline` that a site outage covers takes the `site.offline`
of the outage. -/
def ReplacesAlerts (channel : Channel) : Prop :=
  ∀ run : HealthRun fun _ _ ↦ True, ∀ covered ∈ run.service.events, ∀ siteId,
    covered.type = "camera.offline" → covered.siteOutage = some siteId → alertFor covered = none →
      ∀ announcement ∈ run.service.events, announcement.type = "site.offline" →
        announcement.siteId = some siteId →
          ∀ taker ∈ channel.takers (uncovered covered), taker ∈ channel.takers announcement

/-- The endpoints that the loop reaches: those before the first whose events are no array or
text. -/
def reached (parse : JsonParse) (rows : List EndpointRow) : List EndpointRow :=
  rows.takeWhile fun row ↦ (includesText "*" (rawEvents parse row)).isSome

/-- Each endpoint that is enabled and reached, and wants `camera.offline`, wants `site.offline`
too. -/
def Channel.HearsOfSites : Channel → Prop
  | .phone _ => True
  | .mail _ => True
  | .webhooks parse rows => ∀ row ∈ reached parse (rows.filter (·.enabled)),
      endpointWants parse "camera.offline" row = some true →
        endpointWants parse "site.offline" row = some true

/-! ### What the channels take -/

theorem siteOutage_uncovered (event : HealthEvent) : (uncovered event).siteOutage = none := by
  cases hmetadata : event.metadata with
  | camera metadata => simp [uncovered, HealthEvent.siteOutage, hmetadata]
  | site metadata => simp [uncovered, HealthEvent.siteOutage, hmetadata]

theorem type_of_alertFor {event : HealthEvent} {alert : Alert}
    (halert : alertFor event = some alert) :
    alert.type = event.type := by
  unfold alertFor at halert
  split_ifs at halert
  rw [← Option.some.inj halert]

/-- Only what is covered alerts nobody. -/
theorem exists_alertFor {event : HealthEvent} (hcovered : isCoveredBySiteAlert event = false) :
    ∃ alert, alertFor event = some alert := by
  unfold alertFor
  rw [hcovered]
  exact ⟨_, rfl⟩

theorem exists_alertFor_uncovered (event : HealthEvent) :
    ∃ alert, alertFor (uncovered event) = some alert := by
  refine exists_alertFor ?_
  unfold isCoveredBySiteAlert
  rw [siteOutage_uncovered]
  exact Bool.and_false _

theorem exists_alertFor_site {event : HealthEvent} (htype : event.type = "site.offline") :
    ∃ alert, alertFor event = some alert := by
  refine exists_alertFor ?_
  unfold isCoveredBySiteAlert
  rw [htype]
  rfl

/-- A list that lets `camera.offline` through lets `site.offline` through. -/
theorem isSome_wantedAlert_site {events : List String} {covered announcement : HealthEvent}
    (hcovered : covered.type = "camera.offline") (hannouncement : announcement.type =
      "site.offline")
    (hwanted : (wantedAlert events covered).isSome = true) :
    (wantedAlert events announcement).isSome = true := by
  obtain ⟨alert, halert⟩ := Option.isSome_iff_exists.mp hwanted
  obtain ⟨halert, hwants⟩ := Option.filter_eq_some_iff.mp halert
  obtain ⟨other, hother⟩ := exists_alertFor_site hannouncement
  refine Option.isSome_iff_exists.mpr ⟨other, Option.filter_eq_some_iff.mpr ⟨hother, ?_⟩⟩
  have hlisted : "camera.offline" ∈ events := by
    rw [type_of_alertFor halert, hcovered] at hwants
    simpa [channelWantsEvent, siteAlertEvents] using hwants
  rw [type_of_alertFor hother, hannouncement]
  simp [channelWantsEvent, siteAlertEvents, hlisted]

section Alerts

variable {covered announcement : HealthEvent}

theorem isSome_phoneAlert_site {config : NotificationConfig} (hcovered : covered.type =
    "camera.offline")
    (hannouncement : announcement.type = "site.offline")
    (hcalls : (phoneAlert config covered).isSome = true) :
    (phoneAlert config announcement).isSome = true := by
  unfold phoneAlert at hcalls ⊢
  rw [hcovered] at hcalls
  rw [hannouncement]
  split_ifs at hcalls with hlistens
  · rw [if_pos ⟨by decide, hlistens.2⟩]
    exact isSome_wantedAlert_site hcovered hannouncement hcalls
  · cases hcalls

theorem isSome_smtpAlert_site {config : SmtpConfig} (hcovered : covered.type = "camera.offline")
    (hannouncement : announcement.type = "site.offline")
    (hmails : (smtpAlert config covered).isSome = true) :
    (smtpAlert config announcement).isSome = true := by
  unfold smtpAlert at hmails ⊢
  rw [hcovered] at hmails
  rw [hannouncement]
  split_ifs at hmails with hlistens
  · rw [if_pos ⟨by decide, hlistens.2⟩]
    exact isSome_wantedAlert_site hcovered hannouncement hmails
  · cases hmails

end Alerts

/-- Whether there is an `includes` does not depend on the text. -/
theorem includesText_eq_none_iff (text other : String) (value : Option Data.Json) :
    includesText text value = none ↔ includesText other value = none := by
  cases value with
  | none => exact Iff.rfl
  | some value => cases value <;> simp [includesText]

theorem endpointWants_eq_none_iff {parse : JsonParse} {eventType : String} {row : EndpointRow} :
    endpointWants parse eventType row = none ↔ includesText "*" (rawEvents parse row) = none := by
  unfold endpointWants
  have htext := includesText_eq_none_iff eventType "*" (rawEvents parse row)
  cases hstar : includesText "*" (rawEvents parse row) with
  | none => simp
  | some starred =>
    rw [hstar] at htext
    cases starred with
    | true => simp
    | false => exact htext

theorem mem_queuedFor {parse : JsonParse} {eventType : String} {rows : List EndpointRow}
    {row : EndpointRow} :
    row ∈ queuedFor parse eventType rows ↔
      row ∈ reached parse rows ∧ endpointWants parse eventType row = some true := by
  induction rows with
  | nil => simp [queuedFor, reached]
  | cons first rows ih =>
    unfold queuedFor reached
    cases hwants : endpointWants parse eventType first with
    | none =>
      have hthrows : ¬ (includesText "*" (rawEvents parse first)).isSome = true := by
        rw [endpointWants_eq_none_iff.mp hwants]
        exact nofun
      rw [List.takeWhile_cons, if_neg hthrows]
      simp
    | some wanted =>
      have hread : (includesText "*" (rawEvents parse first)).isSome = true := by
        refine Option.isSome_iff_ne_none.mpr fun hnone ↦ ?_
        exact absurd (hwants.symm.trans (endpointWants_eq_none_iff.mpr hnone)) nofun
      rw [List.takeWhile_cons, if_pos hread, List.mem_cons]
      unfold reached at ih
      cases wanted with
      | true =>
        rw [List.mem_cons, ih]
        constructor
        · rintro (rfl | ⟨hreached, hrow⟩)
          · exact ⟨Or.inl rfl, hwants⟩
          · exact ⟨Or.inr hreached, hrow⟩
        · rintro ⟨rfl | hreached, hrow⟩
          · exact Or.inl rfl
          · exact Or.inr ⟨hreached, hrow⟩
      | false =>
        rw [ih]
        constructor
        · rintro ⟨hreached, hrow⟩
          exact ⟨Or.inr hreached, hrow⟩
        · rintro ⟨rfl | hreached, hrow⟩
          · exact absurd (hwants.symm.trans hrow) nofun
          · exact ⟨hreached, hrow⟩

theorem mem_takers_phone {config : NotificationConfig} {event : HealthEvent} {taker : Taker} :
    taker ∈ (Channel.phone config).takers event ↔
      taker = .phone ∧ (phoneAlert config event).isSome = true := by
  simp [Channel.takers, and_comm]

theorem mem_takers_mail {config : SmtpConfig} {event : HealthEvent} {taker : Taker} :
    taker ∈ (Channel.mail config).takers event ↔
      taker = .mail ∧ (smtpAlert config event).isSome = true := by
  simp [Channel.takers, and_comm]

/-- The takers among the webhooks of an event that is not covered. -/
theorem mem_takers_webhooks {parse : JsonParse} {rows : List EndpointRow} {event : HealthEvent}
    (halert : ∃ alert, alertFor event = some alert) {taker : Taker} :
    taker ∈ (Channel.webhooks parse rows).takers event ↔
      ∃ row ∈ reached parse (rows.filter (·.enabled)), taker = .endpoint row ∧
        endpointWants parse event.type row = some true := by
  obtain ⟨alert, halert⟩ := halert
  unfold Channel.takers webhookEndpoints
  rw [halert]
  simp only [Option.isNone_some, Bool.false_eq_true, if_false, List.mem_map]
  constructor
  · rintro ⟨row, hrow, rfl⟩
    obtain ⟨hreached, hwants⟩ := mem_queuedFor.mp hrow
    exact ⟨row, hreached, rfl, hwants⟩
  · rintro ⟨row, hreached, rfl, hwants⟩
    exact ⟨row, mem_queuedFor.mpr ⟨hreached, hwants⟩, rfl⟩

/-! ### An outage -/

/-- The two cameras of a site fail until the site is announced. -/
def outageSteps : List Health.HealthStep :=
  let cameras := [Health.probed "one" (some "depot"), Health.probed "two" (some "depot")]
  Health.deadCycle cameras 0 1 ++ Health.deadCycle cameras 30000 4

theorem exists_outage : ∃ run : HealthRun fun _ _ ↦ True, ∃ covered ∈ run.service.events,
    ∃ announcement ∈ run.service.events, covered.type = "camera.offline" ∧
      covered.siteOutage = some "depot" ∧ alertFor covered = none ∧
        announcement.type = "site.offline" ∧ announcement.siteId = some "depot" := by
  have hlegal : Async.LegalRun Health.CameraHealthService.step
      (fun service step ↦ step.IsLegal (fun _ _ ↦ True) service) {} outageSteps := by
    refine Async.LegalRun.of_forall (fun step hstep service ↦ ?_) _
    rcases List.mem_append.mp hstep with hcycle | hcycle
    · exact Health.isLegal_of_mem_deadCycle (by decide) hcycle service
    · exact Health.isLegal_of_mem_deadCycle (by decide) hcycle service
  have hcovered : (Async.runMoves Health.CameraHealthService.step {} outageSteps).events.any
      (fun event ↦
      event.type = "camera.offline" && event.siteOutage = some "depot" && (alertFor event).isNone) =
          true := by
    decide +kernel
  have hannounced : (Async.runMoves Health.CameraHealthService.step {} outageSteps).events.any
      (fun event ↦
      event.type = "site.offline" && event.siteId = some "depot") = true := by decide +kernel
  obtain ⟨covered, hmem, hcovered⟩ := List.any_eq_true.mp hcovered
  obtain ⟨announcement, hannouncement, hannounced⟩ := List.any_eq_true.mp hannounced
  simp only [Bool.and_eq_true, decide_eq_true_eq, Option.isNone_iff_eq_none] at hcovered hannounced
  exact ⟨⟨_, Async.Reaches.refl.run hlegal⟩, covered, hmem, announcement,
    hannouncement, hcovered.1.1, hcovered.1.2, hcovered.2, hannounced.1, hannounced.2⟩

/-- In an outage an endpoint that wants the cameras must want the site. -/
theorem hearsOfSites_of_replacesAlerts {channel : Channel} (h : ReplacesAlerts channel) :
    channel.HearsOfSites := by
  cases channel with
  | phone config => trivial
  | mail config => trivial
  | webhooks parse rows =>
    intro row hreached hwants
    obtain ⟨run, covered, hcovered, announcement, hannouncement, htype, hsite, hnone,
        hoffline, hdepot⟩ :=
      exists_outage
    have htaker : Taker.endpoint row ∈
        (Channel.webhooks parse rows).takers (uncovered covered) := by
      have hsame : (uncovered covered).type = "camera.offline" := htype
      rw [mem_takers_webhooks (exists_alertFor_uncovered covered), hsame]
      exact ⟨row, hreached, rfl, hwants⟩
    have htakes := h run covered hcovered "depot" htype hsite hnone announcement
      hannouncement hoffline
      hdepot _ htaker
    rw [mem_takers_webhooks (exists_alertFor_site hoffline), hoffline] at htakes
    obtain ⟨other, -, hother, hwantsSite⟩ := htakes
    exact Taker.endpoint.inj hother ▸ hwantsSite

/-- Phones and e-mail always replace the alerts, and webhooks where each endpoint that is enabled,
reached and wants `camera.offline` wants `site.offline` too. -/
theorem replacesAlerts_iff (channel : Channel) : ReplacesAlerts channel ↔ channel.HearsOfSites := by
  refine ⟨hearsOfSites_of_replacesAlerts, fun hhears ↦ ?_⟩
  intro run covered _ siteId htype _ _ announcement _ hoffline _ taker htaker
  have hsame : (uncovered covered).type = "camera.offline" := htype
  cases channel with
  | phone config =>
    rw [mem_takers_phone] at htaker ⊢
    exact htaker.imp_right (isSome_phoneAlert_site hsame hoffline)
  | mail config =>
    rw [mem_takers_mail] at htaker ⊢
    exact htaker.imp_right (isSome_smtpAlert_site hsame hoffline)
  | webhooks parse rows =>
    rw [mem_takers_webhooks (exists_alertFor_uncovered covered), hsame] at htaker
    rw [mem_takers_webhooks (exists_alertFor_site hoffline), hoffline]
    obtain ⟨row, hreached, rfl, hwants⟩ := htaker
    exact ⟨row, hreached, rfl, hhears row hreached hwants⟩

/-- An endpoint that lists `camera.offline` only. -/
def cameraHook : EndpointRow :=
  { id := "hook", events := .array [.string "camera.offline".toList], enabled := true }

/-- It hears nothing of an outage. -/
theorem not_replacesAlerts_cameraHook : ¬ ∀ channel, ReplacesAlerts channel := by
  intro h
  have hhears := hearsOfSites_of_replacesAlerts (h (.webhooks (fun _ ↦ none) [cameraHook]))
  have hwants := hhears cameraHook List.mem_cons_self (by decide)
  exact absurd hwants (by decide)

end VmsLite.Notifications
