import VmsLite.Async.Program
import VmsLite.Notifications.MailMessage
import VmsLite.Notifications.SmtpReplies

/-!
# The SMTP client

`NodeSocketSmtpClient.sendMail`: one connection for one message. The greeting is read, then every
command is sent with a read of its reply behind it; a reply with another code than the one that is
waited for is thrown, and the message of whatever is thrown becomes the error of the result. What
a read gives is what `readResponse` makes of the socket. The variable of the socket stands for the
plain connection until it is overwritten by the encrypted one.
-/

set_option autoImplicit false

namespace VmsLite.Notifications.Smtp.Client

open Async Data

structure SmtpAuth where
  user : Text
  pass : Text

structure SmtpConnectionOptions where
  host : Text
  port : ℕ
  /-- TLS from the beginning. -/
  secure : Option Bool
  /-- An upgrade by `STARTTLS`. -/
  requireTls : Option Bool
  auth : Option SmtpAuth
  timeoutMs : Option ℕ
  rejectUnauthorized : Option Bool

structure SmtpSendResult where
  success : Bool
  messageId : Text
  response : Option Text
  error : Option Text
  deriving DecidableEq

/-- The text within the first angle brackets that have one: a match of `/<([^>]+)>/`. -/
def bracketed : Text → Option Text
  | [] => none
  | char :: rest =>
    let inner := rest.takeWhile (· ≠ '>')
    if char = '<' ∧ inner ≠ [] ∧ inner.length < rest.length then some inner else bracketed rest

def extractEmailAddress (addressStr : Text) : Text :=
  Media.trim ((bracketed addressStr).getD addressStr)

/-! ### Calls -/

inductive Channel
  | plain
  | tls
  deriving DecidableEq

/-- The time and the random bytes of a message. -/
structure Moment where
  now : ℕ
  random : Text
  dateHeader : Text

inductive Call
  /-- `net.connect`, or `tls.connect` where a channel is given that is encrypted. -/
  | connect (host : Text) (port : ℕ) (channel : Channel) (rejectUnauthorized : Bool)
  | connected
  /-- `tls.connect` over the socket, and its events. -/
  | upgrade (host : Text) (rejectUnauthorized : Bool)
  | readResponse (channel : Channel) (timeoutMs : ℕ)
  | sendCommand (channel : Channel) (cmd : Text) (timeoutMs : ℕ)
  | moment
  | destroy

abbrev Reply : Call → Type
  | .connect .. | .connected | .upgrade .. => Except Text Unit
  | .readResponse .. | .sendCommand .. => Outcome
  | .moment => Moment
  | .destroy => Unit

abbrev Async (α : Type) : Type := Program Call Reply Text α

/-- Await one call. -/
abbrev call (request : Call) : Async (Reply request) := Program.request request

/-- The response that a read gives, else its error. -/
def settled : Outcome → Async SmtpResponse
  | .resolved response => .done response
  | .rejected message => .failed message.toList

def sendCommand (channel : Channel) (cmd : Text) (timeoutMs : ℕ) : Async SmtpResponse := do
  settled (← call (.sendCommand channel cmd timeoutMs))

/-! ### The dialogue -/

def localHostname : Text := "basic-vms.local".toList

def isAccepted (codes : List ℕ) (response : SmtpResponse) : Bool := codes.contains response.code

/-- A command whose reply is thrown unless it has one of the codes. -/
def demand (channel : Channel) (cmd : Text) (timeoutMs : ℕ) (codes : List ℕ)
    (error : SmtpResponse → Text) : Async SmtpResponse := do
  let response ← sendCommand channel cmd timeoutMs
  if isAccepted codes response then return response else .failed (error response)

/-- The text of an error: what is refused, and what the server said. -/
def refusal (label : Text) (response : SmtpResponse) : Text :=
  label ++ ": ".toList ++ response.message

def codedRefusal (label : Text) (response : SmtpResponse) : Text :=
  label ++ " (".toList ++ (toString response.code).toList ++ "): ".toList ++ response.message

def hello : Text := "EHLO ".toList ++ localHostname

def oldHello : Text := "HELO ".toList ++ localHostname

/-- The events of the socket that say whether the connection stands. -/
def establish : Async Unit := do Program.orThrow (← call .connected)

def mailFrom (mail : SmtpMailOptions) : Text :=
  "MAIL FROM:<".toList ++ extractEmailAddress mail.sender ++ ['>']

def rcptTo (recipient : Text) : Text :=
  "RCPT TO:<".toList ++ extractEmailAddress recipient ++ ['>']

def messageId (moment : Moment) : Text :=
  ['<'] ++ (toString moment.now).toList ++ ['.'] ++ moment.random ++ ['@'] ++ localHostname ++ ['>']

def message (mail : SmtpMailOptions) (moment : Moment) : Text :=
  mimeMessage mail moment.dateHeader (messageId moment)

def delivered (moment : Moment) (response : SmtpResponse) : SmtpSendResult where
  success := true
  messageId := messageId moment
  response := some response.message
  error := none

/-- The error of a `QUIT` is ignored. -/
def quit (channel : Channel) : Async Unit :=
  Program.catching (do let _ ← sendCommand channel "QUIT".toList 2000) fun _ ↦ return ()

def failure (error : Text) : SmtpSendResult where
  success := false
  messageId := []
  response := none
  error := some (if error = [] then "Unknown SMTP error".toList else error)

namespace SmtpConnectionOptions

variable (options : SmtpConnectionOptions)

def timeout : ℕ := options.timeoutMs.getD 10000

def isDirectTls : Bool := options.secure.getD false || options.port = 465

def upgrades : Bool := !options.isDirectTls && options.requireTls.getD (options.port = 587)

def channel : Channel := if options.isDirectTls then .tls else .plain

def upgrade : Async Unit := do
  Program.orThrow (← call (.upgrade options.host (options.rejectUnauthorized.getD false)))

def greet : Async Unit := do
  let greeting ← settled (← call (.readResponse options.channel options.timeout))
  if isAccepted [220] greeting then return () else
    .failed (refusal "Unexpected greeting".toList greeting)

def introduce : Async Unit := do
  let ehlo ← sendCommand options.channel hello options.timeout
  if isAccepted [250] ehlo then return ()
  else
    let _ ← demand options.channel oldHello options.timeout [250] (refusal "HELO rejected".toList)

/-- The channel that the rest of the dialogue takes. -/
def startTls : Async Channel :=
  if options.upgrades then do
    let _ ← demand options.channel "STARTTLS".toList options.timeout [220]
      (codedRefusal "STARTTLS rejected".toList)
    options.upgrade
    let _ ← demand .tls hello options.timeout [250] (refusal "Post-TLS EHLO rejected".toList)
    return .tls
  else return options.channel

/-- The credentials that are used: those with a name. -/
def credentials : Option SmtpAuth := options.auth.filter fun auth ↦ auth.user ≠ []

def authenticate (channel : Channel) : Async Unit :=
  match options.credentials with
  | none => return ()
  | some auth => do
    let _ ← demand channel "AUTH LOGIN".toList options.timeout [334]
      (refusal "AUTH LOGIN initiation failed".toList)
    let _ ← demand channel (Base64.encode (utf8 auth.user)) options.timeout [334]
      (refusal "AUTH username rejected".toList)
    let _ ← demand channel (Base64.encode (utf8 auth.pass)) options.timeout [235]
      (refusal "Authentication credentials rejected".toList)

def address (channel : Channel) (recipient : Text) : Async Unit := do
  let _ ← demand channel (rcptTo recipient) options.timeout [250, 251]
    (refusal ("Recipient rejected (".toList ++ extractEmailAddress recipient ++ [')']))

def nameParties (channel : Channel) (mail : SmtpMailOptions) : Async Unit := do
  let _ ← demand channel (mailFrom mail) options.timeout [250] (refusal "MAIL FROM rejected".toList)
  if mail.recipients = [] then .failed "No recipient email addresses provided".toList
  else mail.recipients.forM (options.address channel)

def deliver (channel : Channel) (mail : SmtpMailOptions) : Async SmtpSendResult := do
  let _ ← demand channel "DATA".toList options.timeout [354] (refusal "DATA rejected".toList)
  let moment ← call .moment
  let response ← demand channel (message mail moment) options.timeout [250]
    (refusal "Failed delivering message data".toList)
  return delivered moment response

/-- What follows on the channel that has been agreed on. -/
def transact (channel : Channel) (mail : SmtpMailOptions) : Async SmtpSendResult := do
  options.authenticate channel
  options.nameParties channel mail
  let result ← options.deliver channel mail
  quit channel
  call .destroy
  return result

def converse (mail : SmtpMailOptions) : Async SmtpSendResult := do
  establish
  options.greet
  options.introduce
  let channel ← options.startTls
  options.transact channel mail

/-- What becomes of the attempt to open a connection. -/
def proceed (mail : SmtpMailOptions) : Except Text Unit → Async SmtpSendResult
  | .error error => return failure error
  | .ok () => (options.converse mail).catching fun error ↦ do
    call .destroy
    return failure error

/-- The call that opens the connection. -/
def opens : Call :=
  .connect options.host options.port options.channel (options.rejectUnauthorized.getD false)

def sendMail (mail : SmtpMailOptions) : Async SmtpSendResult := do
  options.proceed mail (← call options.opens)

end SmtpConnectionOptions

end VmsLite.Notifications.Smtp.Client
