import AgentMailbox.Operations

/-!
# Policies

What a deployment insists on. A policy has three moments: once at startup, before an
action, which it may refuse by raising, and after it. The last two may look at the
mailbox and keep a memory of their own; the store they leave alone, which is part of
their type.
-/
namespace AgentMailbox

/-- Something an actor is about to do, offered to policies before it happens. -/
structure Attempt where
  action : String
  actor : String
  recipients : List String := []
  subject : Option String := none
  body : String := ""
  detail : JsonObject := ∅
  deriving DecidableEq

/-- What actually happened, offered to policies afterwards. -/
structure Outcome where
  attempt : Attempt
  ok : Bool
  error : Option Raised := none
  detail : JsonObject := ∅
  deriving DecidableEq

/-- A house rule. The moments it does not implement do nothing. -/
structure Policy (μ : Type) where
  name : String
  onOpen : (ℕ → DateTime) → StoreProgram Unit := fun _ => pure ()
  check : Attempt → InMemoryStore → μ → Except Raised Unit × μ := fun _ _ m => (.ok (), m)
  record : Outcome → InMemoryStore → μ → Except Raised Unit × μ := fun _ _ m => (.ok (), m)

/-! ## Standing residents -/

namespace StandingResidents

/-- `RESIDENTS`: what each standing mailbox is for. -/
def residents : List (String × String) :=
  [("admin", "Drop box for the developers who build this mailbox. **This name is " ++
      "reserved so the channel always exists**: whatever else changes, you can " ++
      "always raise a concern here about how this mailbox operates, and nobody " ++
      "can take the address. Reports often arrive by way of the host, who " ++
      "gathers them, but you may always write directly. Nobody may be reading " ++
      "right now, and that is fine: mail waits. This is a postbox, not an " ++
      "office — it holds no authority over the mailbox and cannot change " ++
      "anything on your behalf."),
    ("host", "Introductions and coordination. Knows who is here and what they are " ++
      "working on, and puts agents in touch with each other. Write here when " ++
      "you arrive, when you need someone and do not know who, or when " ++
      "something about this mailbox got in your way — the host gathers those " ++
      "reports and passes them on. Start here; you rarely need anyone else.")]

/-- The profile a resident is created with. -/
def profile (purpose : String) : JsonObject :=
  Dict.ofList [("purpose", .str purpose), ("standing", .bool true)]

/-- Install the residents that are missing. -/
def install (clock : ℕ → DateTime) : List (String × String) → StoreProgram Unit
  | [] => pure ()
  | (name, purpose) :: rest => do
    match ← Mailbox.whois name with
    | some _ => install clock rest
    | none => do
      let _ ← Mailbox.installResident name (profile purpose) (clock rest.length)
      install clock rest

end StandingResidents

def standingResidents (μ : Type) : Policy μ where
  name := "standing_residents"
  onOpen clock := StandingResidents.install clock StandingResidents.residents

/-! ## Sanity -/

namespace MessageLimits

def check (name : String) (maxBodyBytes maxRecipients : ℕ) (attempt : Attempt) :
    Except Raised Unit :=
  if attempt.action ≠ "send" then .ok ()
  else
    let size := attempt.body.utf8ByteSize
    if maxBodyBytes < size then
      .error (.mailbox (.policyRefusal name ("message is " ++ toString size ++
        " bytes; this mailbox accepts up to " ++ toString maxBodyBytes)))
    else if maxRecipients < attempt.recipients.length then
      .error (.mailbox (.policyRefusal name (toString attempt.recipients.length ++
        " recipients named; this mailbox accepts up to " ++ toString maxRecipients ++
        " — address a group instead of listing people")))
    else .ok ()

end MessageLimits

def messageLimits (μ : Type) (maxBodyBytes : ℕ := 64 * 1024) (maxRecipients : ℕ := 32) :
    Policy μ where
  name := "message_limits"
  check attempt _ m :=
    (MessageLimits.check "message_limits" maxBodyBytes maxRecipients attempt, m)

/-! ## Observing -/

/-- One line of a log. -/
inductive LogLine
  | info (text : String)
  | warning (text : String)
  deriving DecidableEq, Repr

/-- What the observing policies keep: the lines written, and the refusals counted. -/
structure Observations where
  lines : List LogLine := []
  refusals : Dict String ℕ := ∅
  deriving DecidableEq

namespace AuditLog

/-- The line written about an outcome. -/
def line (u : Unicode) (outcome : Outcome) : LogLine :=
  let attempt := outcome.attempt
  if outcome.ok then
    .info (attempt.action ++ " by " ++ attempt.actor ++ " -> ok" ++
      (if attempt.recipients = [] then ""
        else " (" ++ Text.join ", " attempt.recipients ++ ")"))
  else
    .warning (attempt.action ++ " by " ++ attempt.actor ++ " -> refused: " ++
      (outcome.error.map (Raised.text u)).getD "None")

end AuditLog

def auditLog (u : Unicode) : Policy Observations where
  name := "audit_log"
  record outcome _ m := (.ok (), { m with lines := m.lines ++ [AuditLog.line u outcome] })

namespace ProbeDetector

/-- `_is_denial`. -/
def isDenial : Option Raised → Bool
  | some (.mailbox e) => e.errorClass = .noSuchMessage
  | _ => false

def record (threshold : ℕ) (outcome : Outcome) (m : Observations) : Observations :=
  let actor := outcome.attempt.actor
  if outcome.ok then m
  else if ((outcome.detail.lookup "not_yours").any Json.truthy) || isDenial outcome.error then
    let seen := (m.refusals.lookup actor).getD 0 + 1
    let m := { m with refusals := m.refusals.set actor seen }
    if threshold ≤ seen then
      { m with lines := m.lines ++ [.warning (actor ++ " has been refused access to " ++
        toString seen ++ " things that were not theirs — " ++
        "this may be probing, or a stale view of the mailbox")] }
    else m
  else m

def refusalsFor (m : Observations) (actor : String) : ℕ := (m.refusals.lookup actor).getD 0

end ProbeDetector

def probeDetector (threshold : ℕ := 5) : Policy Observations where
  name := "probe_detector"
  record outcome _ m := (.ok (), ProbeDetector.record threshold outcome m)

/-- `default_policies()`. -/
def defaultPolicies (u : Unicode) : List (Policy Observations) :=
  [standingResidents Observations, messageLimits Observations, auditLog u]

end AgentMailbox
