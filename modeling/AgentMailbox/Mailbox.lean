import AgentMailbox.Store
import AgentMailbox.Rules
import AgentMailbox.Addressing
import AgentMailbox.Naming

/-!
# The mailbox

Fetch, decide, persist: every operation is a program of store calls, in the order
the source awaits them. What the source takes from its surroundings in the course
of an operation is an argument here: the clock reading, the freshly minted id, and
the outcomes of the random choices.
-/
namespace AgentMailbox

/-- A computation of the mailbox: store calls, and anything that can be raised. -/
abbrev StoreProgram (α : Type) : Type := Program messageStore Raised α

namespace MessageStore

/-- One call of the port. -/
def ask (c : StoreCall) : StoreProgram c.Answer := @Program.perform messageStore Raised c

def claimName (actor : ActorRecord) : StoreProgram Bool := ask (.claimName actor)
def getActor (name : String) : StoreProgram (Option ActorRecord) := ask (.getActor name)
def putActor (actor : ActorRecord) : StoreProgram Unit := ask (.putActor actor)
def actors : StoreProgram (List ActorRecord) := ask .actors
def addObject (obj : ObjectRecord) : StoreProgram Unit := ask (.addObject obj)
def getObject (id : String) : StoreProgram (Option ObjectRecord) := ask (.getObject id)
def objects : StoreProgram (List ObjectRecord) := ask .objects
def removeObjects (ids : List String) : StoreProgram ℕ := ask (.removeObjects ids)
def markRead (read : ReadRecord) : StoreProgram Bool := ask (.markRead read)
def readsOf (ids : List String) : StoreProgram (Dict String (List ReadRecord)) :=
  ask (.readsOf ids)

end MessageStore

/-- `to: str | Sequence[str]`. -/
inductive Recipients
  | one (name : String)
  | many (names : List String)
  deriving DecidableEq

/-- `(to,) if isinstance(to, str) else tuple(to)`. -/
def Recipients.toList : Recipients → List String
  | one name => [name]
  | many names => names

/-- The arguments of `send` other than the caller. -/
structure Draft where
  to_ : Recipients
  body : String
  subject : Option String := none
  cc : List String := []
  inReplyTo : Option String := none
  document : Option JsonObject := none

/-- What a sending takes from its surroundings: `uuid4().hex`, and the clock. -/
structure Stamp where
  id : String
  now : DateTime

/-- The configuration a mailbox is built with. -/
structure Mailbox where
  unicode : Unicode
  hubName : String := localHub
  retentionDays : ℤ := 14

namespace Mailbox

/-- Resolve an address to a local actor name. -/
def local_ (mb : Mailbox) (text : String) : Except Raised String :=
  localName mb.unicode text mb.hubName

/-- `tuple(self._local(one) for one in texts)`. -/
def localAll (mb : Mailbox) (texts : List String) : Except Raised (List String) :=
  texts.mapM mb.local_

/-- Who exists and which groups they are in. -/
def context (mb : Mailbox) : StoreProgram Context := do
  let actors ← MessageStore.actors
  let memberships ← .ofExcept (groupMemberships mb.unicode actors)
  return ⟨actors.map ActorRecord.name, memberships⟩

/-! ## Identity -/

/-- The record a join asks for. -/
def newActor (name : String) (now : DateTime) : ActorRecord :=
  { name, created := now.isoformat, lastSeen := now.isoformat }

/-- Try the generated names one after the other, `remaining` of them. -/
def joinIssued (draw : ℕ → Naming.Draw) (now : DateTime) : ℕ → ℕ → StoreProgram ActorRecord
  | 0, _ => throw (.mailbox .noFreeName)
  | remaining + 1, attempt => do
    let actor := newActor (Naming.generate (draw attempt)) now
    if ← MessageStore.claimName actor then return actor
    else joinIssued draw now remaining (attempt + 1)

/-- Join the mailbox, with a chosen name or an issued one. -/
def join (mb : Mailbox) (requestedName : Option String) (draw : ℕ → Naming.Draw)
    (now : DateTime) : StoreProgram ActorRecord :=
  match requestedName with
  | some requested => do
    let name ← .ofExcept (Naming.validate mb.unicode requested)
    let actor := newActor name now
    if ← MessageStore.claimName actor then return actor
    else throw (.mailbox (.nameTaken name))
  | none => joinIssued draw now nameAttempts 0

def whois (name : String) : StoreProgram (Option ActorRecord) := MessageStore.getActor name

def directory : StoreProgram (List ActorRecord) := MessageStore.actors

def requireActor (mb : Mailbox) (name : String) : StoreProgram ActorRecord := do
  let resolved ← .ofExcept (mb.local_ name)
  match ← MessageStore.getActor resolved with
  | none => throw (.mailbox (.unknownActor name))
  | some actor => return actor

/-- Replace the caller's profile. -/
def updateProfile (mb : Mailbox) (caller : String) (profile : JsonObject) (now : DateTime) :
    StoreProgram ActorRecord := do
  let actor ← mb.requireActor caller
  let updated := { actor with profile := profile, lastSeen := now.isoformat }
  MessageStore.putActor updated
  return updated

/-- Create a standing mailbox the hub itself owns. -/
def installResident (name : String) (profile : JsonObject) (now : DateTime) :
    StoreProgram ActorRecord := do
  let actor := { newActor name now with profile := profile }
  if ← MessageStore.claimName actor then return actor
  else match ← MessageStore.getActor name with
    | some existing => return existing
    | none => return actor

/-! ## Sending -/

/-- The names nobody holds. -/
def missingNames (names : List String) (ctx : Context) : List String :=
  names.filter fun name =>
    !(name ∈ ctx.allActors || name ∈ ctx.memberships || name = everyone)

/-- Refuse a specific name nobody holds, before anything is stored. -/
def rejectUnknownRecipients (names : List String) (ctx : Context) : Except Raised Unit :=
  let missing := missingNames names ctx
  if missing = [] then .ok () else .error (.mailbox (.unknownRecipient missing))

/-- The parent a message is stored with: silently none when the sender may not
attach to the one it names. -/
def attach (ctx : Context) (sender : String) (inReplyTo : Option String) :
    StoreProgram (Option String) :=
  match inReplyTo with
  | none => return none
  | some parent => do
    let objects ← MessageStore.objects
    return if mayAttachTo ctx objects sender (some parent) then some parent else none

/-- The document kept with a message: what was typed, under what the client sent. -/
def documentOf (names : List String) (document : Option JsonObject) : JsonObject :=
  (Dict.ofList [("audience", Json.strings names)]).update (document.getD ∅)

/-- The record of a message, its audience resolved. -/
def compose (ctx : Context) (sender : String) (recipients copies : List String)
    (parent : Option String) (draft : Draft) (stamp : Stamp) : ObjectRecord :=
  let reached := resolveAudience ctx recipients \ {sender}
  let also := (resolveAudience ctx copies \ {sender}) \ reached
  { id := stamp.id
    attributedTo := sender
    to_ := Sorting.sorted reached
    cc := Sorting.sorted also
    inReplyTo := parent
    summary := draft.subject
    content := draft.body
    published := stamp.now.isoformat
    document := documentOf (recipients ++ copies) draft.document }

/-- Send a message. Every actor addressed receives their own copy. -/
def send (mb : Mailbox) (caller : String) (draft : Draft) (stamp : Stamp) :
    StoreProgram ObjectRecord := do
  let sender := (← mb.requireActor caller).name
  let recipients ← .ofExcept (mb.localAll draft.to_.toList)
  let copies ← .ofExcept (mb.localAll draft.cc)
  let ctx ← mb.context
  .ofExcept (rejectUnknownRecipients (recipients ++ copies) ctx)
  let parent ← attach ctx sender draft.inReplyTo
  let obj := compose ctx sender recipients copies parent draft stamp
  MessageStore.addObject obj
  return obj

/-- Fetch a message the caller is party to, or refuse indistinguishably. -/
def visibleObject (mb : Mailbox) (caller objectId : String) : StoreProgram ObjectRecord := do
  let me := (← mb.requireActor caller).name
  match ← MessageStore.getObject objectId with
  | none => throw (.mailbox (.noSuchMessage objectId))
  | some obj => do
    let ctx ← mb.context
    if isPartyTo ctx obj me then return obj
    else throw (.mailbox (.noSuchMessage objectId))

/-- `_reply_subject`. -/
def replySubject (mb : Mailbox) : Option String → Option String
  | none => none
  | some subject =>
    if Text.startsWith (mb.unicode.lower subject) "re:" then some subject
    else some ("Re: " ++ subject)

/-- `subject or _reply_subject(original.summary)`. -/
def subjectOr (mb : Mailbox) (subject summary : Option String) : Option String :=
  match subject with
  | some text => if text = "" then mb.replySubject summary else some text
  | none => mb.replySubject summary

/-- What a reply sends: to the original's sender, on its thread. -/
def replyDraft (mb : Mailbox) (original : ObjectRecord) (body : String)
    (subject : Option String) : Draft :=
  { to_ := .one original.attributedTo
    body := body
    subject := mb.subjectOr subject original.summary
    inReplyTo := some original.id }

def reply (mb : Mailbox) (caller objectId body : String) (subject : Option String)
    (stamp : Stamp) : StoreProgram ObjectRecord := do
  let original ← mb.visibleObject caller objectId
  mb.send caller (mb.replyDraft original body subject) stamp

/-! ## Receiving -/

/-- The ids, among those asked about, that `caller` has consumed. -/
def readIds (caller : String) (reads : Dict String (List ReadRecord)) : Finset String :=
  ((reads.entries.filter fun entry => entry.2.any fun read => read.reader = caller).map
    Sigma.fst).toFinset

/-- `_read_by`. -/
def readBy (caller : String) (objects : List ObjectRecord) : StoreProgram (Finset String) := do
  let reads ← MessageStore.readsOf (objects.map ObjectRecord.id)
  return readIds caller reads

/-- What is waiting, without consuming any of it. -/
def peek (mb : Mailbox) (caller : String) : StoreProgram (List ObjectRecord) := do
  let me := (← mb.requireActor caller).name
  let ctx ← mb.context
  let objects ← MessageStore.objects
  let read ← readBy me objects
  return unread ctx objects me read

def unreadCount (mb : Mailbox) (caller : String) : StoreProgram ℕ := do
  return (← mb.peek caller).length

/-- Consume one message, for this reader only. -/
def read (mb : Mailbox) (caller objectId : String) (now : DateTime) :
    StoreProgram ObjectRecord := do
  let me := (← mb.requireActor caller).name
  let obj ← mb.visibleObject caller objectId
  let _ ← MessageStore.markRead ⟨obj.id, me, now.isoformat⟩
  return obj

/-- The turns of a conversation the caller is party to. -/
def thread (mb : Mailbox) (caller rootId : String) : StoreProgram (List ObjectRecord) := do
  let me := (← mb.requireActor caller).name
  let ctx ← mb.context
  let objects ← MessageStore.objects
  return visibleTurns ctx objects rootId me

/-- One message the caller is party to, without consuming it. -/
def view (mb : Mailbox) (caller objectId : String) : StoreProgram ObjectRecord :=
  mb.visibleObject caller objectId

/-! ## Housekeeping -/

/-- `clock() - timedelta(days=self._retention_days)`. -/
def cutoff (mb : Mailbox) (now : DateTime) : Except Raised DateTime :=
  now.daysBefore mb.retentionDays

/-- Remove conversations that have gone quiet, and say how many messages went. The
order in which a set is handed to the store is immaterial; it is the sorted one. -/
def expire (mb : Mailbox) (now : DateTime) : StoreProgram ℕ :=
  if mb.retentionDays ≤ 0 then return 0
  else do
    let cutoff ← .ofExcept (mb.cutoff now)
    let objects ← MessageStore.objects
    let doomed := expiredObjectIds objects cutoff.isoformat
    if doomed = ∅ then return 0 else MessageStore.removeObjects (Sorting.sorted doomed)

end Mailbox

end AgentMailbox
