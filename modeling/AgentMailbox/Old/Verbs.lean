import AgentMailbox.Library.Redirects
import AgentMailbox.Old.Tables

/-!
# The verbs of the older hub

What each verb computes from the tables, what it raises, and what it leaves behind. Every
reading of the clock, and every id that is minted, is an argument.
-/
namespace AgentMailbox.Old

/-- The answer of a verb, and the tables it leaves. -/
abbrev Outcome (α : Type) : Type := Except Failure α × Tables

namespace Hub

variable (hub : Hub)

/-! ## Sending -/

/-- `_thread_sender_may_join`: a sender who is no party to the thread it names starts its own. -/
def threadSenderMayJoin (message : Message) (t : Tables) : Except Failure Message :=
  if message.thread = message.id then .ok message
  else if t.messages.rows.all fun row => row.thread ≠ some message.thread then .ok message
  else do
    let sender ← parseAddress hub.unicode message.from_
    match sender.project, sender.agent with
    | some project, some agent => do
      let reader ← hub.reader project agent sender.role
      if t.messages.rows.any fun row => row.thread = some message.thread && row.isParty reader then
        return message
      else return { message with thread := message.id }
    | _, _ => return { message with thread := message.id }

/-- Where a message goes: on to the new address, if the one it names was renamed. -/
def follow (message : Message) (now : DateTime) (t : Tables) : Except Failure Message :=
  match t.resolveForward (Text.strip message.to_) now with
  | none => .ok message
  | some (newAddress, true) => .error (.forwardEnded message.to_ newAddress)
  | some (newAddress, false) =>
    .ok { message with to_ := newAddress, forwardedTo := some newAddress }

/-- What is going to be stored, and for whom. -/
def prepare (message : Message) (now : DateTime) (t : Tables) :
    Except Failure (Message × Target) := do
  let message ← follow message now t
  let message ← hub.threadSenderMayJoin message t
  let size := hub.jsonBytes message
  if hub.maxMessageBytes ≠ 0 ∧ hub.maxMessageBytes < size then
    throw (.tooLarge size hub.maxMessageBytes)
  else do
    let target ← parseAddress hub.unicode message.to_
    return (message, target)

/-- The row of a message. -/
def rowOf (message : Message) (target : Target) : MessageRow where
  id := message.id
  from_ := message.from_
  to_ := message.to_
  kind := target.kind
  toProject := target.project
  toAgent := target.agent
  toRole := target.role
  thread := some message.thread
  intent := message.intent
  subject := message.subject
  body := message.body
  created := message.created

def send (message : Message) (now : DateTime) (t : Tables) : Outcome Message :=
  match hub.prepare message now t with
  | .error e => (.error e, t)
  | .ok (message, target) =>
    match t.messages.insert (rowOf message target) with
    | none => (.error (.integrityError "UNIQUE constraint failed: messages.id"), t)
    | some messages => (.ok message, { t with messages := messages })

/-! ## Receiving -/

/-- Unread messages routed to an agent, without consuming them. -/
def peek (project agent : String) (role : Option String) (t : Tables) :
    Except Failure (List Message) := do
  let reader ← hub.reader project agent role
  return (oldestFirst (t.messages.rows.filter (t.waits reader))).map MessageRow.toMessage

/-- `SELECT * FROM messages WHERE id = … AND …`. -/
def routedRow (t : Tables) (reader : Reader) (messageId : String) : Option MessageRow :=
  (t.messages.find? messageId).filter fun row => row.routesTo reader

/-- Return a message, and consume it for this agent. -/
def read (project agent messageId : String) (role : Option String) (now : DateTime) (t : Tables) :
    Outcome Message :=
  match hub.reader project agent role with
  | .error e => (.error e, t)
  | .ok reader =>
    match routedRow t reader messageId with
    | none => (.error (.notFound project agent messageId), t)
    | some row =>
      let consumed := t.reads.insertOrIgnore ⟨messageId, reader.me, now⟩
      if consumed.1 = 1 then (.ok row.toMessage, { t with reads := consumed.2 })
      else (.error (.notFound project agent messageId), { t with reads := consumed.2 })

/-- `_readable_message`: a message routed to this agent, read or not. -/
def readableMessage (project agent messageId : String) (role : Option String) (t : Tables) :
    Except Failure (Option Message) := do
  let reader ← hub.reader project agent role
  return (routedRow t reader messageId).map MessageRow.toMessage

/-- `_reply_subject`. -/
def replySubject (subject : Option String) : Option String :=
  subject.map fun text =>
    if Text.startsWith (hub.unicode.lower text) "re:" then text else "Re: " ++ text

/-- `subject or _reply_subject(original.subject)`. -/
def subjectOr (subject original : Option String) : Option String :=
  match subject.bind Text.orNone with
  | some text => some text
  | none => hub.replySubject original

/-- What a message takes from its surroundings when it is built. -/
structure Stamp where
  id : String
  created : DateTime
  deriving DecidableEq

/-- The message that answers another. -/
def replyTo (me : String) (original : Message) (body : String) (subject : Option String)
    (stamp : Stamp) : Message where
  id := stamp.id
  from_ := me
  to_ := original.from_
  thread := if original.thread = "" then original.id else original.thread
  intent := .reply
  subject := hub.subjectOr subject original.subject
  body := body
  created := stamp.created

/-- Build the answer to a message, and send it. -/
def answer (project agent : String) (role : Option String) (original : Message) (body : String)
    (subject : Option String) (stamp : Stamp) (now : DateTime) (t : Tables) : Outcome Message :=
  match formatAddress hub.unicode project agent role with
  | .error e => (.error e, t)
  | .ok me => hub.send (hub.replyTo me original body subject stamp) now t

/-- Reply to the sender of a message, consuming it if it is unread. -/
def reply (project agent messageId body : String) (subject role : Option String)
    (readAt : DateTime) (stamp : Stamp) (now : DateTime) (t : Tables) : Outcome Message :=
  match hub.read project agent messageId role readAt t with
  | (.ok original, t') => hub.answer project agent role original body subject stamp now t'
  | (.error e, t') =>
    if e.failureClass = .mailboxError then
      match hub.readableMessage project agent messageId role t' with
      | .error e' => (.error e', t')
      | .ok none => (.error e, t')
      | .ok (some original) => hub.answer project agent role original body subject stamp now t'
    else (.error e, t')

/-- The message with which an agent probes its own address. -/
def probe (me : String) (stamp : Stamp) : Message where
  id := stamp.id
  from_ := me
  to_ := me
  thread := stamp.id
  subject := some "agent-inbox ping"
  body := "ping"
  created := stamp.created

/-- Send a probe to an agent's own address, and consume it. -/
def ping (project agent : String) (role : Option String) (stamp : Stamp) (now readAt : DateTime)
    (t : Tables) : Outcome Message :=
  match formatAddress hub.unicode project agent role with
  | .error e => (.error e, t)
  | .ok me =>
    match hub.send (probe me stamp) now t with
    | (.error e, t') => (.error e, t')
    | (.ok _, t') => hub.read project agent (probe me stamp).id role readAt t'

/-! ## The directory -/

/-- Record that an agent was just active. -/
def touch (project agent : String) (role : Option String) (now : DateTime) (t : Tables) : Tables :=
  let row : AgentRow := ⟨project, agent, role.getD "", now, now, {}⟩
  { t with agents := t.agents.upsert row (fun old => { old with lastSeen := now }) fun _ => rfl }

/-- Set an agent's profile, and mark it active; then look it up. -/
def register (project agent : String) (profile : AgentProfile) (role : Option String)
    (now seen : DateTime) (t : Tables) : Outcome (Option AgentInfo) :=
  let row : AgentRow := ⟨project, agent, role.getD "", now, now, profile⟩
  let t' := { t with
    agents := t.agents.upsert row (fun old => { old with lastSeen := now, profile := profile })
      fun _ => rfl }
  (hub.whois project agent role seen t', t')

/-- Update just the status of an agent's profile. -/
def updateStatus (project agent status : String) (role : Option String) (seen now again : DateTime)
    (t : Tables) : Outcome (Option AgentInfo) :=
  match hub.whois project agent role seen t with
  | .error e => (.error e, t)
  | .ok current =>
    let profile := (current.map AgentInfo.profile).getD {}
    hub.register project agent { profile with status := status } role now again t

/-- Remove a directory entry, and say whether there was one. -/
def retire (project agent : String) (role : Option String) (t : Tables) : Bool × Tables :=
  let key := (project, agent, role.getD "")
  ((t.agents.find? key).isSome, { t with agents := t.agents.delete fun row => row.key = key })

/-- Retire former identities of the caller's, if they are stale. With each address stands the
time at which it is looked up. -/
def supersede (caller : String) : List (String × DateTime) → Tables → Outcome (List String)
  | [], t => (.ok [], t)
  | (address, seen) :: addresses, t =>
    match parseTarget hub.unicode address with
    | .error e => (.error e, t)
    | .ok (.direct, some project, some agent) =>
      if address = caller then supersede caller addresses t
      else match hub.whois project agent none seen t with
        | .error e => (.error e, t)
        | .ok none => supersede caller addresses t
        | .ok (some info) =>
          if info.stale then
            let retired := retire project agent none t
            let rest := supersede caller addresses retired.2
            (rest.1.map fun removed => if retired.1 then address :: removed else removed, rest.2)
          else supersede caller addresses t
    | .ok _ => supersede caller addresses t

/-! ## Renames -/

/-- `_resolves_to`: whether following forwards from one address reaches another. -/
def resolvesTo (t : Tables) (start target : String) : Bool :=
  ParentPointers.leads t.forwardOf target (t.forwards.rows.length + 1) [] start

/-- The readings of the clock in the course of a rename. -/
structure RenameClock where
  seen : DateTime
  now : DateTime
  written : DateTime
  deriving DecidableEq

/-- The old address, the new one, and what the new one names. -/
structure Renaming where
  old : String
  new_ : String
  project : String
  agent : String
  role : Option String
  expires : DateTime

/-- What a rename checks before it writes. -/
def checkRename (project agent to_ : String) (role : Option String) (clock : RenameClock)
    (t : Tables) : Except Failure Renaming := do
  let old ← formatAddress hub.unicode project agent role
  let target ← parseAddress hub.unicode to_
  match target.project, target.agent with
  | some newProject, some newAgent => do
    let new_ ← formatAddress hub.unicode newProject newAgent target.role
    if new_ = old then throw .renameSame
    else do
      let occupant ← hub.whois newProject newAgent target.role clock.seen t
      if occupant.any fun info => !info.stale then throw (.renameHeld new_)
      else if resolvesTo t new_ old then throw (.renameBack new_ old)
      else match clock.now.daysAfter (max hub.renameGraceDays 0) with
        | .error e => throw (.overflowError (e.text hub.unicode))
        | .ok expires => do
          let _ ← hub.whois project agent role clock.seen t
          return ⟨old, new_, newProject, newAgent, target.role, expires⟩
  | _, _ => throw (.renameWildcard to_)

/-- The directory entry moves, with its profile and the time it was first seen. -/
def moveEntry (project agent : String) (role : Option String) (r : Renaming) (written : DateTime)
    (t : Tables) : Tables :=
  match entryOf t project agent role with
  | none => t
  | some entry =>
    let moved : AgentRow := ⟨r.project, r.agent, r.role.getD "", entry.firstSeen, written,
      entry.profile⟩
    let key := (project, agent, role.getD "")
    { t with agents := (t.agents.insertOrReplace moved).delete fun row => row.key = key }

/-- `to_project = ? AND to_agent = ? AND (to_role IS ? OR to_role = ?)`. -/
def deliveredTo (project agent : String) (role : Option String) (row : MessageRow) : Bool :=
  row.toProject = some project && row.toAgent = some agent &&
    (row.toRole = role || row.toRole = some (role.getD ""))

/-- A row of mail after a rename: what was delivered to the old address is readdressed, and
what was sent from it comes from the new one. -/
def readdress (project agent : String) (role : Option String) (r : Renaming) (row : MessageRow) :
    MessageRow :=
  let moved := if deliveredTo project agent role row then
      { row with to_ := r.new_, toProject := some r.project, toAgent := some r.agent,
                 toRole := r.role }
    else row
  if moved.from_ = r.old then { moved with from_ := r.new_ } else moved

lemma readdress_id (project agent : String) (role : Option String) (r : Renaming)
    (row : MessageRow) : (readdress project agent role r row).id = row.id := by
  unfold readdress
  dsimp only
  split_ifs <;> rfl

/-- `UPDATE OR IGNORE broadcast_reads SET reader = …`. -/
def moveReads (old new_ : String) (t : Tables) : Table ReadRow.key :=
  t.reads.rekey (fun row => row.reader = old) (fun row => { row with reader := new_ }) (by
    intro a b ha hb hkey
    simp only [decide_eq_true_eq] at ha hb
    simp only [ReadRow.key, Prod.mk.injEq, and_true] at hkey ⊢
    exact ⟨hkey, ha.trans hb.symm⟩)

/-- The forwards after a rename: those that pointed at the old name point at the new one. -/
def moveForwards (r : Renaming) (now : DateTime) (t : Tables) : Table ForwardRow.oldAddress :=
  (t.forwards.insertOrReplace ⟨r.old, r.new_, now, r.expires⟩).update
    (fun row => if row.newAddress = r.old then { row with newAddress := r.new_ } else row)
    (fun row => by split_ifs <;> rfl)

/-- Rename an agent; its mail follows. The old address, the new one, and how many messages
were moved. -/
def rename (project agent to_ : String) (role : Option String) (clock : RenameClock) (t : Tables) :
    Outcome (String × String × ℕ) :=
  match hub.checkRename project agent to_ role clock t with
  | .error e => (.error e, t)
  | .ok r =>
    let moved := (t.messages.rows.filter (deliveredTo project agent role)).length
    let t' := moveEntry project agent role r clock.written t
    (.ok (r.old, r.new_, moved),
      { t' with
        messages := t.messages.update (readdress project agent role r)
          (readdress_id project agent role r)
        reads := moveReads r.old r.new_ t
        forwards := moveForwards r clock.now t })

/-! ## Opening the file -/

/-- Nobody has written on the thread since the cutoff: `HAVING MAX(created) < ?`. -/
def quiet (t : Tables) (cutoff : DateTime) (thread : String) : Bool :=
  (t.messages.rows.filter fun row => row.thread = some thread).all fun row =>
    row.created.isoformat < cutoff.isoformat

/-- `thread IN (SELECT thread … GROUP BY thread HAVING …)`; a message that is on no thread is
in no list. -/
def expired (t : Tables) (cutoff : DateTime) (row : MessageRow) : Bool :=
  row.thread.any fun thread => quiet t cutoff thread

/-- The tables without the conversations that nobody has touched since the cutoff. -/
def purged (cutoff : DateTime) (t : Tables) : Tables :=
  let messages := t.messages.delete (expired t cutoff)
  { t with
    messages := messages
    reads := t.reads.delete fun read => messages.rows.all fun row => row.id ≠ read.messageId }

/-- `_purge_expired`. -/
def purgeExpired (now : DateTime) (t : Tables) : Outcome Unit :=
  if hub.ttlDays ≤ 0 then (.ok (), t)
  else match now.daysBefore hub.ttlDays with
    | .error e => (.error (.overflowError (e.text hub.unicode)), t)
    | .ok cutoff => (.ok (), purged cutoff t)

/-- `INSERT OR IGNORE INTO hub_meta`. -/
def stamp (stamped : DateTime) (t : Tables) : Tables :=
  { t with initializedAt := t.initializedAt.or (some stamped) }

/-- `connect`, on a file whose schema is the current one: stamp it if it is new, and purge. -/
def connect (stamped now : DateTime) (t : Tables) : Outcome Unit :=
  hub.purgeExpired now (stamp stamped t)

end Hub

/-! ## Runs -/

/-- A call that may write. -/
inductive Verb
  | send (message : Message) (now : DateTime)
  | read (project agent messageId : String) (role : Option String) (now : DateTime)
  | reply (project agent messageId body : String) (subject role : Option String)
      (readAt : DateTime) (stamp : Hub.Stamp) (now : DateTime)
  | ping (project agent : String) (role : Option String) (stamp : Hub.Stamp)
      (now readAt : DateTime)
  | touch (project agent : String) (role : Option String) (now : DateTime)
  | register (project agent : String) (profile : AgentProfile) (role : Option String)
      (now seen : DateTime)
  | updateStatus (project agent status : String) (role : Option String)
      (seen now again : DateTime)
  | retire (project agent : String) (role : Option String)
  | supersede (caller : String) (addresses : List (String × DateTime))
  | rename (project agent to_ : String) (role : Option String) (clock : Hub.RenameClock)
  | connect (stamped now : DateTime)

/-- What a verb returns. -/
inductive Answer
  | done
  | message (message : Message)
  | entry (info : Option AgentInfo)
  | flag (value : Bool)
  | removed (addresses : List String)
  | renamed (old new_ : String) (moved : ℕ)
  deriving DecidableEq

/-- What a verb answers and leaves. -/
def Hub.step (hub : Hub) : Verb → Tables → Outcome Answer
  | .send message now, t => (hub.send message now t).map (·.map .message) id
  | .read project agent messageId role now, t =>
    (hub.read project agent messageId role now t).map (·.map .message) id
  | .reply project agent messageId body subject role readAt stamp now, t =>
    (hub.reply project agent messageId body subject role readAt stamp now t).map
      (·.map .message) id
  | .ping project agent role stamp now readAt, t =>
    (hub.ping project agent role stamp now readAt t).map (·.map .message) id
  | .touch project agent role now, t => (.ok .done, Hub.touch project agent role now t)
  | .register project agent profile role now seen, t =>
    (hub.register project agent profile role now seen t).map (·.map .entry) id
  | .updateStatus project agent status role seen now again, t =>
    (hub.updateStatus project agent status role seen now again t).map (·.map .entry) id
  | .retire project agent role, t => (Hub.retire project agent role t).map (.ok ∘ .flag) id
  | .supersede caller addresses, t =>
    (hub.supersede caller addresses t).map (·.map .removed) id
  | .rename project agent to_ role clock, t =>
    (hub.rename project agent to_ role clock t).map
      (·.map fun done => .renamed done.1 done.2.1 done.2.2) id
  | .connect stamped now, t => (hub.connect stamped now t).map (·.map fun _ => .done) id

/-- The tables after a sequence of calls. -/
def Hub.after (hub : Hub) (t : Tables) (verbs : List Verb) : Tables :=
  verbs.foldl (fun t verb => (hub.step verb t).2) t

theorem Hub.after_cons (hub : Hub) (t : Tables) (verb : Verb) (verbs : List Verb) :
    hub.after t (verb :: verbs) = hub.after (hub.step verb t).2 verbs := rfl

theorem Hub.after_append (hub : Hub) (t : Tables) (first rest : List Verb) :
    hub.after t (first ++ rest) = hub.after (hub.after t first) rest := List.foldl_append

/-! ## Some mail -/

/-- A rename on one day. -/
def renameOn (day : ℕ) (agent to_ : String) : Verb :=
  .rename "p" agent to_ none ⟨january day, january day, january day⟩

/-- A letter to one agent. -/
def letterToAlice : Message where
  id := "m1"
  from_ := "p/bob"
  to_ := "p/alice"
  thread := "m1"
  body := "hello"
  created := january 10

/-- A note to everybody of a project. -/
def noteByAlice : Message where
  id := "m2"
  from_ := "p/alice"
  to_ := "p"
  thread := "m2"
  subject := some "news"
  body := "to all"
  created := january 11

/-- A letter and a note. -/
def someMail : List Verb := [.send letterToAlice (january 10), .send noteByAlice (january 11)]

/-- An answer to the note, to its author alone. -/
def answerToAlice : Message where
  id := "m3"
  from_ := "p/bob"
  to_ := "p/alice"
  thread := "m2"
  body := "between us"
  created := january 12

end AgentMailbox.Old
