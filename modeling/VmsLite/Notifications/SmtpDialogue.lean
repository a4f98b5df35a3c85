import VmsLite.Async.Typestate
import VmsLite.Notifications.SmtpClient

/-!
# What the SMTP client says

`Progress` is what somebody who watches the calls of `sendMail` and the replies to them knows:
whether a socket is open and encrypted, which commands the server accepted, and the id of the
message that it took. `converses` says, for every server, that a message is made only when the
server has accepted every recipient, that a success is reported with the id of the message just when
the server took it, that the socket is always destroyed, and when nothing but an introduction and
the wish for encryption is said on a plain connection.
-/

set_option autoImplicit false

namespace VmsLite.Notifications.Smtp.Client

open Async Data Program

/-- What may be said to everybody. -/
def isHarmless (cmd : Text) : Bool := [hello, oldHello, "STARTTLS".toList].contains cmd

/-- The options ask for TLS from the beginning or for an upgrade. -/
def SmtpConnectionOptions.AsksForTls (options : SmtpConnectionOptions) : Prop :=
  options.isDirectTls = true ∨ options.requireTls.getD (options.port = 587) = true

structure Progress where
  isOpen : Bool
  isSecured : Bool
  /-- The commands that were answered with 250 or 251. -/
  accepted : List Text
  moment : Option Moment
  /-- The id of the message that the server took. -/
  taken : Option Text

namespace Progress

def start : Progress where
  isOpen := false
  isSecured := false
  accepted := []
  moment := none
  taken := none

def hear (mail : SmtpMailOptions) (cmd : Text) (response : SmtpResponse) (progress : Progress) :
    Progress :=
  { progress with
    accepted := if isAccepted [250, 251] response then cmd :: progress.accepted
      else progress.accepted
    taken := match progress.moment with
      | some moment => if isAccepted [250] response ∧ cmd = message mail moment then
          some (messageId moment) else progress.taken
      | none => progress.taken }

/-- Something may be said on a channel: an encrypted one is opened as such, or is upgraded to. -/
structure CanSpeak (channel : Channel) (progress : Progress) : Prop where
  isOpen : progress.isOpen = true
  isSecured : channel = .tls → progress.isSecured = true

/-- Nothing has been sent yet. -/
structure Prepares (channel : Channel) (progress : Progress) : Prop
    extends progress.CanSpeak channel where
  moment : progress.moment = none
  taken : progress.taken = none

/-- A socket that is still open, and no message that the server took. -/
def Fails (progress : Progress) : Prop := progress.isOpen = true ∧ progress.taken = none

/-- The socket is destroyed, and the result says what the server took. -/
def Ends (result : SmtpSendResult) (progress : Progress) : Prop :=
  progress.isOpen = false ∧
    progress.taken = if result.success then some result.messageId else none

end Progress

section Dialogue

variable (mail : SmtpMailOptions) (secret : Prop)

/-- Where there is a secret to keep, only harmless commands are permitted on a plain channel. -/
def correspondence : Typestate Call Reply Progress where
  permits progress
    | .connect .. => progress.isOpen = false
    | .connected | .upgrade .. | .destroy => progress.isOpen = true
    | .readResponse channel _ => progress.CanSpeak channel
    | .sendCommand channel cmd _ => progress.CanSpeak channel ∧
      (channel = .plain → secret → isHarmless cmd = true)
    | .moment => ∀ recipient ∈ mail.recipients, rcptTo recipient ∈ progress.accepted
  expects _ _ _ := True
  step
    | progress, .connect _ _ channel _, .ok () =>
      { progress with isOpen := true, isSecured := channel = .tls }
    | progress, .upgrade .., .ok () => { progress with isSecured := true }
    | progress, .sendCommand _ cmd _, .resolved response => progress.hear mail cmd response
    | progress, .moment, moment => { progress with moment := some moment }
    | progress, .destroy, _ => { progress with isOpen := false }
    | progress, _, _ => progress

variable {mail secret} {options : SmtpConnectionOptions} {channel : Channel} {cmd : Text}
  {timeoutMs : ℕ} {codes : List ℕ} {error : SmtpResponse → Text} {progress : Progress}

namespace Progress

theorem Prepares.hear (hprepares : progress.Prepares channel) (response : SmtpResponse) :
    (progress.hear mail cmd response).Prepares channel := by
  refine ⟨⟨hprepares.isOpen, hprepares.isSecured⟩, hprepares.moment, ?_⟩
  unfold Progress.hear
  rw [hprepares.moment]
  exact hprepares.taken

theorem Prepares.fails (hprepares : progress.Prepares channel) : progress.Fails :=
  ⟨hprepares.isOpen, hprepares.taken⟩

theorem accepted_hear (response : SmtpResponse) :
    progress.accepted ⊆ (progress.hear mail cmd response).accepted := by
  unfold hear
  dsimp only
  split_ifs
  · exact fun _ ↦ List.mem_cons_of_mem _
  · exact List.Subset.refl _

theorem mem_accepted_hear {response : SmtpResponse}
    (haccepted : isAccepted [250, 251] response = true) :
    cmd ∈ (progress.hear mail cmd response).accepted := by
  unfold hear
  dsimp only
  rw [if_pos haccepted]
  exact List.mem_cons_self

end Progress

open Progress

/-- A command with a reply that is waited for: what is heard, or a failure. -/
theorem demand_follows (hspeaks : progress.CanSpeak channel) (htaken : progress.Fails)
    (hcmd : channel = .plain → secret → isHarmless cmd = true)
    (hrefused : ∀ response, isAccepted codes response = false →
      (progress.hear mail cmd response).taken = none) :
    (demand channel cmd timeoutMs codes error).Follows (correspondence mail secret)
      (fun response reached ↦ reached = progress.hear mail cmd response ∧
        isAccepted codes response = true)
      (fun _ ↦ Fails) progress := by
  refine ⟨⟨hspeaks, hcmd⟩, fun reply _ ↦ ?_⟩
  cases reply with
  | rejected message => exact htaken
  | resolved response =>
    change Follows _ _ _ (if isAccepted codes response = true then _ else _) _
    by_cases haccepted : isAccepted codes response = true
    · rw [if_pos haccepted]
      exact ⟨rfl, haccepted⟩
    · rw [if_neg haccepted]
      exact ⟨hspeaks.isOpen, hrefused response (eq_false_of_ne_true haccepted)⟩

/-- A command before there is a message. -/
theorem prepare_follows (hprepares : progress.Prepares channel)
    (hcmd : channel = .plain → secret → isHarmless cmd = true) :
    (demand channel cmd timeoutMs codes error).Follows (correspondence mail secret)
      (fun response reached ↦ reached.Prepares channel ∧
        progress.accepted ⊆ reached.accepted ∧
          (isAccepted codes response = true ∧ reached = progress.hear mail cmd response))
      (fun _ ↦ Fails) progress := by
  refine (demand_follows hprepares.toCanSpeak hprepares.fails hcmd
    fun response _ ↦ (hprepares.hear response).taken).mono ?_ fun _ _ ↦ id
  rintro response reached ⟨rfl, haccepted⟩
  exact ⟨hprepares.hear response, accepted_hear response, haccepted, rfl⟩

namespace SmtpConnectionOptions

theorem introduce_follows (hprepares : progress.Prepares options.channel) :
    options.introduce.Follows (correspondence mail secret)
      (fun _ reached ↦ reached.Prepares options.channel) (fun _ ↦ Fails) progress := by
  refine ⟨⟨hprepares.toCanSpeak, fun _ _ ↦ by decide⟩, fun reply _ ↦ ?_⟩
  cases reply with
  | rejected message => exact hprepares.fails
  | resolved ehlo =>
    change Follows _ _ _ (if isAccepted [250] ehlo = true then _ else _) _
    by_cases haccepted : isAccepted [250] ehlo = true
    · rw [if_pos haccepted]
      exact hprepares.hear ehlo
    · rw [if_neg haccepted]
      exact (prepare_follows (hprepares.hear ehlo) fun _ _ ↦ by decide).bind
        fun _ _ hreached ↦ hreached.1

theorem greet_follows (hprepares : progress.Prepares options.channel) :
    options.greet.Follows (correspondence mail secret)
      (fun _ reached ↦ reached.Prepares options.channel) (fun _ ↦ Fails) progress := by
  refine ⟨hprepares.toCanSpeak, fun reply _ ↦ ?_⟩
  cases reply with
  | rejected message => exact hprepares.fails
  | resolved greeting =>
    change Follows _ _ _ (if isAccepted [220] greeting = true then _ else _) _
    by_cases haccepted : isAccepted [220] greeting = true
    · rw [if_pos haccepted]
      exact hprepares
    · rw [if_neg haccepted]
      exact hprepares.fails

/-- Who agrees on a plain channel has asked for no TLS. -/
theorem startTls_follows (hprepares : progress.Prepares options.channel) :
    options.startTls.Follows (correspondence mail secret)
      (fun channel reached ↦ reached.Prepares channel ∧ (channel = .plain → ¬ options.AsksForTls))
      (fun _ ↦ Fails) progress := by
  unfold startTls
  by_cases hupgrades : options.upgrades = true
  · rw [if_pos hupgrades]
    refine (prepare_follows hprepares fun _ _ ↦ by decide).bind ?_
    rintro - reached ⟨hreached, -⟩
    refine ⟨hreached.isOpen, fun reply _ ↦ ?_⟩
    cases reply with
    | error error => exact hreached.fails
    | ok =>
      have hsecured : Prepares .tls { reached with isSecured := true } :=
        ⟨⟨hreached.isOpen, fun _ ↦ rfl⟩, hreached.moment, hreached.taken⟩
      exact (prepare_follows hsecured nofun).bind fun _ _ hgreeted ↦ ⟨hgreeted.1, nofun⟩
  · rw [if_neg hupgrades]
    refine ⟨hprepares, fun hplain hasks ↦ hupgrades ?_⟩
    unfold channel at hplain
    unfold upgrades
    unfold AsksForTls at hasks
    split_ifs at hplain with hdirect
    rw [Bool.eq_false_iff.mpr hdirect, hasks.resolve_left hdirect]
    rfl

section Transact

variable (hplain : channel = .plain → ¬ secret)
include hplain

/-- A plain channel is agreed on only where there is no secret to keep. -/
theorem isHarmless_of_agreed (cmd : Text) (hchannel : channel = .plain) (hsecret : secret) :
    isHarmless cmd = true :=
  absurd hsecret (hplain hchannel)

theorem authenticate_follows (hprepares : progress.Prepares channel) :
    (options.authenticate channel).Follows (correspondence mail secret)
      (fun _ reached ↦ reached.Prepares channel) (fun _ ↦ Fails) progress := by
  unfold authenticate
  cases options.credentials with
  | none => exact hprepares
  | some auth =>
    refine (prepare_follows hprepares (isHarmless_of_agreed hplain _)).bind fun _ _ hfirst ↦ ?_
    refine (prepare_follows hfirst.1 (isHarmless_of_agreed hplain _)).bind fun _ _ hsecond ↦ ?_
    exact (prepare_follows hsecond.1 (isHarmless_of_agreed hplain _)).bind fun _ _ hthird ↦ hthird.1

/-- The server accepts every recipient of a list, or the loop fails. -/
theorem addresses_follow (hprepares : progress.Prepares channel) (recipients : List Text) :
    (recipients.forM (options.address channel)).Follows (correspondence mail secret)
      (fun _ reached ↦ reached.Prepares channel ∧ progress.accepted ⊆ reached.accepted ∧
        ∀ recipient ∈ recipients, rcptTo recipient ∈ reached.accepted)
      (fun _ ↦ Fails) progress := by
  induction recipients generalizing progress with
  | nil => exact ⟨hprepares, List.Subset.refl _, fun _ hmem ↦ absurd hmem List.not_mem_nil⟩
  | cons recipient recipients ih =>
    have haddress : (options.address channel recipient).Follows (correspondence mail secret)
        (fun _ reached ↦ reached.Prepares channel ∧ progress.accepted ⊆ reached.accepted ∧
          rcptTo recipient ∈ reached.accepted) (fun _ ↦ Fails) progress := by
      refine (prepare_follows hprepares (isHarmless_of_agreed hplain _)).bind ?_
      rintro response reached ⟨hreached, hmore, haccepted, rfl⟩
      exact ⟨hreached, hmore, mem_accepted_hear haccepted⟩
    refine haddress.bind ?_
    rintro - reached ⟨hreached, hmore, hmem⟩
    refine (ih hreached).mono ?_ fun _ _ ↦ id
    rintro - last ⟨hlast, hothers, hall⟩
    exact ⟨hlast, List.Subset.trans hmore hothers, List.forall_mem_cons.mpr ⟨hothers hmem, hall⟩⟩

theorem nameParties_follows (hprepares : progress.Prepares channel) :
    (options.nameParties channel mail).Follows (correspondence mail secret)
      (fun _ reached ↦ reached.Prepares channel ∧
        ∀ recipient ∈ mail.recipients, rcptTo recipient ∈ reached.accepted)
      (fun _ ↦ Fails) progress := by
  refine (prepare_follows hprepares (isHarmless_of_agreed hplain _)).bind ?_
  rintro - reached ⟨hreached, -⟩
  split_ifs
  · exact hreached.fails
  · exact (addresses_follow hplain hreached mail.recipients).mono
      (fun _ _ hnamed ↦ ⟨hnamed.1, hnamed.2.2⟩) fun _ _ ↦ id

/-- The server took the message that a result tells of. -/
def Delivers (channel : Channel) (result : SmtpSendResult) (progress : Progress) : Prop :=
  progress.CanSpeak channel ∧ result.success = true ∧ progress.taken = some result.messageId ∧
    ∃ moment, progress.moment = some moment ∧ result.messageId = messageId moment

theorem deliver_follows (hprepares : progress.Prepares channel)
    (hnamed : ∀ recipient ∈ mail.recipients, rcptTo recipient ∈ progress.accepted) :
    (options.deliver channel mail).Follows (correspondence mail secret)
      (Delivers channel) (fun _ ↦ Fails) progress := by
  refine (prepare_follows hprepares (isHarmless_of_agreed hplain _)).bind ?_
  rintro - reached ⟨hreached, hmore, -⟩
  refine ⟨fun recipient hrecipient ↦ hmore (hnamed recipient hrecipient), fun moment _ ↦ ?_⟩
  have hspeaks : CanSpeak channel { reached with moment := some moment } :=
    ⟨hreached.isOpen, hreached.isSecured⟩
  refine (demand_follows hspeaks hreached.fails (isHarmless_of_agreed hplain _) ?_).bind ?_
  · intro response hrefused
    unfold hear
    simp only [hrefused, Bool.false_eq_true, false_and, if_false]
    exact hreached.taken
  · rintro response last ⟨rfl, haccepted⟩
    refine ⟨⟨hspeaks.isOpen, hspeaks.isSecured⟩, rfl, ?_, moment, rfl, rfl⟩
    unfold hear
    simp only [haccepted, and_self, if_true]
    rfl

theorem quit_follows {result : SmtpSendResult} (hdelivers : Delivers channel result progress) :
    (quit channel).Follows (correspondence mail secret)
      (fun _ ↦ Delivers channel result) (fun _ ↦ Fails) progress := by
  obtain ⟨hspeaks, hsuccess, htaken, moment, hmoment, hid⟩ := hdelivers
  refine ⟨⟨hspeaks, isHarmless_of_agreed hplain _⟩, fun reply _ ↦ ?_⟩
  cases reply with
  | rejected message => exact ⟨hspeaks, hsuccess, htaken, moment, hmoment, hid⟩
  | resolved response =>
    refine ⟨⟨hspeaks.isOpen, hspeaks.isSecured⟩, hsuccess, ?_, moment, hmoment, hid⟩
    change (hear mail "QUIT".toList response progress).taken = _
    unfold hear
    rw [hmoment]
    dsimp only
    split_ifs
    · rw [hid]
    · exact htaken

theorem transact_follows (hprepares : progress.Prepares channel) :
    (options.transact channel mail).Follows (correspondence mail secret) Progress.Ends
      (fun _ ↦ Fails) progress := by
  refine (authenticate_follows hplain hprepares).bind fun _ _ hauthenticated ↦ ?_
  refine (nameParties_follows hplain hauthenticated).bind fun _ _ hnamed ↦ ?_
  refine (deliver_follows hplain hnamed.1 hnamed.2).bind fun result _ hdelivers ↦ ?_
  refine (quit_follows hplain hdelivers).bind ?_
  rintro - reached ⟨hspeaks, hsuccess, htaken, -⟩
  refine ⟨hspeaks.isOpen, fun _ _ ↦ ⟨rfl, ?_⟩⟩
  rw [hsuccess, if_pos rfl]
  exact htaken

end Transact

theorem converse_follows (hsecret : secret → options.AsksForTls)
    (hprepares : progress.Prepares options.channel) :
    (options.converse mail).Follows (correspondence mail secret) Progress.Ends (fun _ ↦ Fails)
      progress := by
  refine ⟨hprepares.isOpen, fun reply _ ↦ ?_⟩
  cases reply with
  | error error => exact hprepares.fails
  | ok =>
    refine (greet_follows hprepares).bind fun _ _ hgreeted ↦ ?_
    refine (introduce_follows hgreeted).bind fun _ _ hintroduced ↦ ?_
    refine (startTls_follows hintroduced).bind fun channel _ hagreed ↦ ?_
    exact transact_follows (fun hchannel hkept ↦ hagreed.2 hchannel (hsecret hkept)) hagreed.1

theorem sendMail_follows (hsecret : secret → options.AsksForTls) :
    (options.sendMail mail).Follows (correspondence mail secret) Progress.Ends (fun _ _ ↦ False)
      .start := by
  refine ⟨rfl, fun reply _ ↦ ?_⟩
  cases reply with
  | error error => exact ⟨rfl, rfl⟩
  | ok =>
    have hprepares : Prepares options.channel
        { Progress.start with isOpen := true, isSecured := options.channel = .tls } :=
      ⟨⟨rfl, fun hchannel ↦ decide_eq_true hchannel⟩, rfl, rfl⟩
    refine (converse_follows hsecret hprepares).catching _ fun error reached hfails ↦ ?_
    exact ⟨hfails.1, fun _ _ ↦ ⟨rfl, hfails.2⟩⟩

/-! ### A server that agrees to everything on the plain channel -/

theorem isHarmless_mailFrom (mail : SmtpMailOptions) : isHarmless (mailFrom mail) = false := by
  have hhead : (mailFrom mail).head? = some 'M' := rfl
  have hother : ∀ cmd : Text, cmd.head? ≠ some 'M' → mailFrom mail ≠ cmd := by
    rintro cmd hcmd rfl
    exact hcmd hhead
  simp only [isHarmless, List.contains_cons, List.contains_nil, Bool.or_false, Bool.or_eq_false_iff,
    beq_eq_false_iff_ne]
  exact ⟨hother hello (by decide), hother oldHello (by decide), hother _ (by decide)⟩

/-- The first command after the introduction is said in any case. -/
theorem not_secret_of_transact {post : SmtpSendResult → Progress → Prop}
    {thrown : Text → Progress → Prop} {handler : Text → Async SmtpSendResult}
    (hfollows : ((options.transact .plain mail).catching handler).Follows
      (correspondence mail secret) post thrown progress) : ¬ secret := by
  intro hsecret
  unfold transact authenticate at hfollows
  cases hcredentials : options.credentials with
  | none =>
    rw [hcredentials] at hfollows
    obtain ⟨⟨-, hcmd⟩, -⟩ := hfollows
    rw [isHarmless_mailFrom] at hcmd
    exact absurd (hcmd rfl hsecret) Bool.false_ne_true
  | some auth =>
    rw [hcredentials] at hfollows
    obtain ⟨⟨-, hcmd⟩, -⟩ := hfollows
    exact absurd (hcmd rfl hsecret) (by decide)

theorem asksForTls_of_follows {post : SmtpSendResult → Progress → Prop}
    {thrown : Text → Progress → Prop} (hfollows : (options.sendMail mail).Follows
      (correspondence mail secret) post thrown .start) (hsecret : secret) :
    options.AsksForTls := by
  by_contra hasks
  have hdirect : options.isDirectTls = false :=
    Bool.eq_false_iff.mpr fun hdirect ↦ hasks (.inl hdirect)
  have hrequire : options.requireTls.getD (options.port = 587) = false :=
    Bool.eq_false_iff.mpr fun hrequire ↦ hasks (.inr hrequire)
  have hstart : options.startTls = done .plain := by
    unfold startTls upgrades channel
    rw [hdirect, hrequire]
    rfl
  obtain ⟨-, hconnected⟩ := hfollows
  obtain ⟨-, hgreeted⟩ := hconnected (.ok ()) trivial
  obtain ⟨-, hintroduced⟩ := hgreeted (.ok ()) trivial
  obtain ⟨-, hagreed⟩ := hintroduced (.resolved { code := 220, message := [] }) trivial
  have htransact : (((options.startTls).bind fun channel ↦ options.transact channel mail).catching
      fun error ↦ (do call .destroy; return failure error)).Follows
        (correspondence mail secret) post
        thrown _ := hagreed (.resolved { code := 250, message := [] }) trivial
  rw [hstart] at htransact
  exact not_secret_of_transact htransact hsecret

/-- The dialogue keeps to the typestate whatever the server says, and it keeps a secret just where
the options ask for encryption. -/
theorem converses (options : SmtpConnectionOptions) (mail : SmtpMailOptions) (secret : Prop) :
    (options.sendMail mail).Follows (correspondence mail secret) Progress.Ends (fun _ _ ↦ False)
      .start ↔ (secret → options.AsksForTls) :=
  ⟨asksForTls_of_follows, sendMail_follows⟩

end SmtpConnectionOptions

end Dialogue

end VmsLite.Notifications.Smtp.Client
