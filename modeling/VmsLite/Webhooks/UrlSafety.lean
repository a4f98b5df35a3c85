import VmsLite.Async.RelyGuarantee
import VmsLite.Data.Json
import VmsLite.Media.RtspUrl

/-!
# The address guard of webhook deliveries

`executeDelivery`: one attempt to deliver a webhook job. The guard `validateUrlSafety` looks the
host up and refuses a private address; the request that follows looks the host up again, by itself,
at connection time. `newUrl` is the URL parser of the platform. An attempt keeps a record of what
the guard evaluated and of what was connected to, which no branch reads.

A guarded attempt connects to evaluated addresses only, exactly when the lookup of the request gives
nothing but the address that the guard looked up, or the host name itself (`isCovered_iff`).
-/

set_option autoImplicit false

namespace VmsLite.Webhooks

open Async

open Url (Text)

/-! ### Blocked addresses -/

/-- The number that the digits at the head of a text spell, when there is one. -/
def leadingNumber (text : Text) : Option ℕ :=
  match text.takeWhile Char.isDigit with
  | [] => none
  | digits => some (digits.foldl (fun value digit ↦ 10 * value + (digit.toNat - '0'.toNat)) 0)

/-- `parseInt` to base 10, with `none` for `NaN`. -/
def parseInt (text : Text) : Option ℤ :=
  match text.dropWhile Media.isBlank with
  | '-' :: rest => (leadingNumber rest).map fun value ↦ -(value : ℤ)
  | '+' :: rest => (leadingNumber rest).map fun value ↦ (value : ℤ)
  | rest => (leadingNumber rest).map fun value ↦ (value : ℤ)

/-- The blocked ranges of IPv4, by the first two numbers of an address. -/
def isBlockedRange (a b : ℤ) : Bool :=
  a = 127 || a = 10 || (a = 172 && 16 ≤ b && b ≤ 31) || (a = 192 && b = 168) ||
    (a = 169 && b = 254) || a = 0

def isBlockedIpv4 (text : Text) : Bool :=
  match (text.splitOn '.').map parseInt with
  | [some a, some b, some c, some d] =>
    [a, b, c, d].all (fun part ↦ 0 ≤ part && part ≤ 255) && isBlockedRange a b
  | _ => false

/-- An address without the prefix of an IPv4-mapped IPv6 address. -/
def unmapped (text : Text) : Text :=
  if [':', ':', 'f', 'f', 'f', 'f', ':'].isPrefixOf text then text.drop 7 else text

/-- Whether an address is private, loopback, link-local, or of the metadata service of a cloud. -/
def isPrivateOrBlockedIp (allowPrivateIpsForTesting : Bool) (ip : String) : Bool :=
  -- Only ASCII letters matter to the comparisons below, so theirs is the only lower case needed
  let cleanIp := unmapped (Media.trim (ip.toList.map Char.toLower))
  !allowPrivateIpsForTesting &&
    (cleanIp = [':', ':', '1'] || ['f', 'e', '8', '0', ':'].isPrefixOf cleanIp ||
      ['f', 'c'].isPrefixOf cleanIp || ['f', 'd'].isPrefixOf cleanIp || isBlockedIpv4 cleanIp)

example : isPrivateOrBlockedIp false "::ffff:192.168.1.20" = true := by decide

/-! ### One attempt -/

structure WebhookDeliveryPayload where
  eventId : String
  eventType : String
  timestamp : ℤ
  cameraId : Option String
  data : Data.Json

structure QueuedWebhookJob where
  deliveryId : String
  endpointId : String
  endpointName : String
  url : String
  secret : String
  eventType : String
  payload : WebhookDeliveryPayload
  attempts : ℕ
  maxAttempts : ℕ
  nextAttemptTime : ℤ

/-- The parts of a parsed URL that the guard reads. -/
structure WebUrl where
  protocol : String
  hostname : String

/-- What an attempt does not choose: its configuration and the URL parser. -/
structure Platform where
  allowPrivateIpsForTesting : Bool
  newUrl : String → Option WebUrl

/-- The request of an attempt, without its timestamp and signature. -/
structure DeliveryRequest where
  url : String
  event : String
  delivery : String
  body : WebhookDeliveryPayload

def QueuedWebhookJob.request (job : QueuedWebhookJob) : DeliveryRequest where
  url := job.url
  event := job.eventType
  delivery := job.deliveryId
  body := job.payload

inductive Call
  | isPrivateOrBlockedIp (ip : String)
  | lookup (hostname : String)
  | fetch (request : DeliveryRequest)

/-- A failed lookup or request replies with the message of its error, an answered request with its
status. -/
@[reducible] def Reply : Call → Type
  | .isPrivateOrBlockedIp _ => Bool
  | .lookup _ => Except String String
  | .fetch _ => Except String ℕ

/-- What the network does at a call: the address that a lookup gives, and the addresses that a
request connects to after a lookup of its own, with the status it gets. -/
structure Outcome where
  address : Except String String := .error ""
  connections : List String := []
  response : Except String ℕ := .error ""

/-- The record of an attempt. -/
structure AttemptRecord where
  /-- The texts that `isPrivateOrBlockedIp` was evaluated at, with its answers. -/
  evaluations : List (String × Bool) := []
  sent : List DeliveryRequest := []
  connections : List String := []
  /-- The status of the last response. -/
  response : Option ℕ := none

abbrev Async (α : Type) : Type := Program Call Reply Empty α

abbrev call (request : Call) : Async (Reply request) := Program.request request

namespace Platform

variable (platform : Platform)

def answer (call : Call) (outcome : Outcome) (record : AttemptRecord) :
    Reply call × AttemptRecord :=
  match call with
  | .isPrivateOrBlockedIp ip =>
    let blocked := Webhooks.isPrivateOrBlockedIp platform.allowPrivateIpsForTesting ip
    (blocked, { record with evaluations := record.evaluations ++ [(ip, blocked)] })
  | .lookup _ => (outcome.address, record)
  | .fetch request =>
    (outcome.response, { record with
      sent := record.sent ++ [request]
      connections := record.connections ++ outcome.connections
      response := outcome.response.toOption })

/-- Attempts do not share anything, so nothing changes the record of one from outside. -/
def machine : Machine Call Reply AttemptRecord Outcome Empty where
  answer := platform.answer
  synchronous
    | .isPrivateOrBlockedIp _ => true
    | .lookup _ | .fetch _ => false
  calm := {}
  react := nofun
  restart := id

end Platform

structure UrlSafety where
  safe : Bool
  resolvedIp : Option String := none
  error : Option String := none

/-- The address guard, with a lookup of its own. -/
def validateUrlSafety (platform : Platform) (rawUrl : String) : Async UrlSafety :=
  match platform.newUrl rawUrl with
  | none => pure { safe := false, error := some "Invalid URL format" }
  | some parsed =>
    if parsed.protocol ≠ "http:" ∧ parsed.protocol ≠ "https:" then
      pure { safe := false, error := some "Webhook URL protocol must be http: or https:" }
    else do
      let hostname := parsed.hostname
      if ← call (.isPrivateOrBlockedIp hostname) then
        return { safe := false
                 error := some s!"Direct private/internal IP address rejected: {hostname}" }
      if platform.allowPrivateIpsForTesting then
        return { safe := true, resolvedIp := some "127.0.0.1" }
      match ← call (.lookup hostname) with
      | .error message =>
        return { safe := false, error := some s!"DNS resolution failed for {hostname}: {message}" }
      | .ok resolvedIp =>
        if ← call (.isPrivateOrBlockedIp resolvedIp) then
          return {
            safe := false
            resolvedIp := some resolvedIp
            error := some (s!"Resolved destination IP {resolvedIp} belongs to blocked/private range " ++
              "(SSRF guard)") }
        return { safe := true, resolvedIp := some resolvedIp }

structure DeliveryResult where
  success : Bool
  status : Option ℕ := none
  error : Option String := none

/-- A client error, after which there is no retry. -/
def isTerminal (status : ℕ) : Bool := 400 ≤ status && status < 500 && status ≠ 429

def isDelivered (status : ℕ) : Bool := 200 ≤ status && status < 300

def resultOf (status : ℕ) : DeliveryResult :=
  if isDelivered status then { success := true, status := some status }
  else if isTerminal status then
    { success := false
      status := some status
      error := some s!"Terminal client error ({status}); retry cancelled" }
  else
    { success := false
      status := some status
      error := some s!"Server responded with HTTP {status}" }

/-- What an attempt does after it has been counted. -/
def deliver (platform : Platform) (job : QueuedWebhookJob) : Async DeliveryResult := do
  let urlCheck ← validateUrlSafety platform job.url
  if !urlCheck.safe && !platform.allowPrivateIpsForTesting then
    return { success := false, error := some (urlCheck.error.getD "Blocked by SSRF guard") }
  match ← call (.fetch job.request) with
  | .ok status => return resultOf status
  | .error message => return { success := false, error := some message }

/-- One attempt: the job counts it at once, and the rest is awaited. -/
def executeDelivery (platform : Platform) (job : QueuedWebhookJob) :
    QueuedWebhookJob × Async DeliveryResult :=
  ({ job with attempts := job.attempts + 1 }, deliver platform job)

/-! ### The addresses an attempt connects to -/

/-- The record of an attempt on a network that answers each of its two lookups as it likes. -/
def attempt (platform : Platform) (job : QueuedWebhookJob) (network : Outcome) : AttemptRecord :=
  (Program.eval platform.answer (fun _ _ ↦ network) (executeDelivery platform job).2 {}).2

/-- Every address connected to is one that the guard evaluated, and found not to be blocked. -/
def AttemptRecord.IsCovered (record : AttemptRecord) : Prop :=
  ∀ address ∈ record.connections, (address, false) ∈ record.evaluations

/-- The guard lets a URL pass, its lookup having given an address. -/
structure Passes (newUrl : String → Option WebUrl) (url : String) (network : Outcome)
    (parsed : WebUrl) (address : String) : Prop where
  parses : newUrl url = some parsed
  isWeb : parsed.protocol = "http:" ∨ parsed.protocol = "https:"
  hostname_free : isPrivateOrBlockedIp false parsed.hostname = false
  looksUp : network.address = .ok address
  address_free : isPrivateOrBlockedIp false address = false

/-- The platform with private addresses not allowed. -/
def guarded (newUrl : String → Option WebUrl) : Platform where
  allowPrivateIpsForTesting := false
  newUrl := newUrl

variable {newUrl : String → Option WebUrl} {job : QueuedWebhookJob} {network : Outcome}

/-- The run of the guard by itself. -/
def check (newUrl : String → Option WebUrl) (url : String) (network : Outcome) :
    Except Empty UrlSafety × AttemptRecord :=
  Program.eval (guarded newUrl).answer (fun _ _ ↦ network) (validateUrlSafety (guarded newUrl) url)
    {}

theorem check_of_passes {url : String} {parsed : WebUrl} {address : String}
    (h : Passes newUrl url network parsed address) :
    check newUrl url network =
      (.ok { safe := true, resolvedIp := some address },
        { evaluations := [(parsed.hostname, false), (address, false)] }) := by
  have hweb : ¬ (parsed.protocol ≠ "http:" ∧ parsed.protocol ≠ "https:") := by
    rintro ⟨hhttp, hhttps⟩
    exact h.isWeb.elim hhttp hhttps
  have hparses : (guarded newUrl).newUrl url = some parsed := h.parses
  unfold check validateUrlSafety
  simp only [hparses, if_neg hweb]
  simp [Platform.answer, guarded, h.hostname_free, h.looksUp, h.address_free]

/-- A URL that does not pass is unsafe. -/
theorem check_of_not_passes {url : String}
    (h : ∀ parsed address, ¬ Passes newUrl url network parsed address) :
    ∃ verdict record, check newUrl url network = (.ok verdict, record) ∧
      verdict.safe = false ∧ record.connections = [] := by
  unfold check validateUrlSafety
  cases hparsed : (guarded newUrl).newUrl url with
  | none => exact ⟨_, _, rfl, rfl, rfl⟩
  | some parsed =>
    by_cases hweb : parsed.protocol ≠ "http:" ∧ parsed.protocol ≠ "https:"
    · simp only [if_pos hweb]
      exact ⟨_, _, rfl, rfl, rfl⟩
    · simp only [if_neg hweb]
      by_cases hhost : isPrivateOrBlockedIp false parsed.hostname = true
      · simp only [Program.bind_eq, Program.request_bind, Program.eval_await, Platform.answer,
          guarded, hhost, if_true]
        exact ⟨_, _, rfl, rfl, rfl⟩
      · have hfree : isPrivateOrBlockedIp false parsed.hostname = false :=
          Bool.eq_false_iff.mpr hhost
        cases haddress : network.address with
        | error message =>
          simp only [Program.bind_eq, Program.request_bind, Program.eval_await, Platform.answer,
            guarded, hfree, haddress, Bool.false_eq_true, if_false]
          exact ⟨_, _, rfl, rfl, rfl⟩
        | ok address =>
          have hblocked : isPrivateOrBlockedIp false address = true := by
            by_contra hopen
            have hisWeb : parsed.protocol = "http:" ∨ parsed.protocol = "https:" := by
              by_contra hneither
              exact hweb (not_or.mp hneither)
            exact h parsed address ⟨hparsed, hisWeb, hfree, haddress, Bool.eq_false_iff.mpr hopen⟩
          simp only [Program.bind_eq, Program.request_bind, Program.eval_await, Platform.answer,
            guarded, hfree, haddress, hblocked, Bool.false_eq_true, if_false, if_true]
          exact ⟨_, _, rfl, rfl, rfl⟩

/-- Past the guard the request is sent, with two evaluations on record. -/
theorem attempt_of_passes {parsed : WebUrl} {address : String}
    (h : Passes newUrl job.url network parsed address) :
    attempt (guarded newUrl) job network = {
      evaluations := [(parsed.hostname, false), (address, false)]
      sent := [job.request]
      connections := network.connections
      response := network.response.toOption } := by
  have hcheck := check_of_passes h
  unfold check at hcheck
  simp only [attempt, executeDelivery, deliver, Program.bind_eq]
  rw [Program.eval_bind_of_ok _ _ hcheck]
  cases hresponse : network.response with
  | ok status => simp [guarded, Platform.answer, hresponse]
  | error message => simp [guarded, Platform.answer, hresponse]

/-- A refused attempt connects to nothing. -/
theorem connections_of_not_passes
    (h : ∀ parsed address, ¬ Passes newUrl job.url network parsed address) :
    (attempt (guarded newUrl) job network).connections = [] := by
  obtain ⟨verdict, record, hcheck, hrisky, hnone⟩ := check_of_not_passes h
  unfold check at hcheck
  simp only [attempt, executeDelivery, deliver, Program.bind_eq]
  rw [Program.eval_bind_of_ok _ _ hcheck]
  simpa [guarded, hrisky] using hnone

/-- The lookup of the request agrees with the lookup of the guard: whenever the guard lets the URL
pass, the request connects to the address that the guard looked up, or to the host name itself. -/
def Agrees (newUrl : String → Option WebUrl) (url : String) (network : Outcome) : Prop :=
  ∀ parsed checked, Passes newUrl url network parsed checked →
    ∀ address ∈ network.connections, address = checked ∨ address = parsed.hostname

/-- An attempt connects to evaluated addresses only, if and only if the two lookups agree. -/
theorem isCovered_iff (newUrl : String → Option WebUrl) (job : QueuedWebhookJob)
    (network : Outcome) :
    (attempt (guarded newUrl) job network).IsCovered ↔ Agrees newUrl job.url network := by
  by_cases hpasses : ∃ parsed checked, Passes newUrl job.url network parsed checked
  · obtain ⟨parsed, checked, hpasses⟩ := hpasses
    unfold AttemptRecord.IsCovered
    rw [attempt_of_passes hpasses]
    constructor
    · intro hcovered parsed' checked' hpasses' address haddress
      obtain rfl : parsed = parsed' := Option.some.inj (hpasses.parses.symm.trans hpasses'.parses)
      obtain rfl : checked = checked' :=
        Except.ok.inj (hpasses.looksUp.symm.trans hpasses'.looksUp)
      have hevaluated := hcovered address haddress
      simp only [List.mem_cons, Prod.mk.injEq, List.not_mem_nil, and_true, or_false] at hevaluated
      exact hevaluated.symm
    · intro hagrees address haddress
      rcases hagrees parsed checked hpasses address haddress with rfl | rfl
      · exact List.mem_cons_of_mem _ List.mem_cons_self
      · exact List.mem_cons_self
  · have hnone : ∀ parsed checked, ¬ Passes newUrl job.url network parsed checked :=
      fun parsed checked h ↦ hpasses ⟨parsed, checked, h⟩
    unfold AttemptRecord.IsCovered
    rw [connections_of_not_passes hnone]
    constructor
    · exact fun _ parsed checked h ↦ absurd h (hnone parsed checked)
    · exact fun _ address haddress ↦ absurd haddress List.not_mem_nil

/-! ### A name that changes its address -/

/-- A job for an endpoint outside. -/
def hookJob : QueuedWebhookJob where
  deliveryId := "d-1"
  endpointId := "e-1"
  endpointName := "alerts"
  url := "https://hooks.example.com/vms"
  secret := "whsec_0123456789"
  eventType := "camera.offline"
  payload := { eventId := "evt-1", eventType := "camera.offline", timestamp := 0, cameraId := none,
               data := .object [] }
  attempts := 0
  maxAttempts := 3
  nextAttemptTime := 0

/-- The URL parser, at the URL of the job. -/
def hookUrl (url : String) : Option WebUrl :=
  if url = hookJob.url then some { protocol := "https:", hostname := "hooks.example.com" } else none

/-- A name server that gives a public address first and the metadata service next. -/
def rebinding : Outcome where
  address := .ok "93.184.216.34"
  connections := ["169.254.169.254"]
  response := .ok 200

theorem passes_rebinding : Passes hookUrl hookJob.url rebinding
    { protocol := "https:", hostname := "hooks.example.com" } "93.184.216.34" where
  parses := if_pos rfl
  isWeb := Or.inr rfl
  hostname_free := by decide
  looksUp := rfl
  address_free := by decide

/-- The guard does not cover the connection to the metadata service. -/
theorem not_isCovered_rebinding :
    ¬ ∀ newUrl job network, (attempt (guarded newUrl) job network).IsCovered := by
  intro hcovered
  have hrebinding := hcovered hookUrl hookJob rebinding "169.254.169.254"
  rw [attempt_of_passes passes_rebinding] at hrebinding
  have hevaluated := hrebinding List.mem_cons_self
  revert hevaluated
  decide

end VmsLite.Webhooks
