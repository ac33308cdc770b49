import AgentMailbox.Policy

/-!
# The house

A mailbox with its policies applied: check, act, record. The wrapping of the three
policed operations is one function, `policed`; everything else is passed through.
-/
namespace AgentMailbox

/-- What a house asks of its surroundings. -/
inductive HouseCall (μ : Type)
  | store (c : StoreCall)
  | check (policy : Policy μ) (attempt : Attempt)
  | record (policy : Policy μ) (outcome : Outcome)

abbrev HouseCall.Answer {μ : Type} : HouseCall μ → Type
  | store c => c.Answer
  | check _ _ => Except Raised Unit
  | record _ _ => Except Raised Unit

abbrev houseSignature (μ : Type) : Signature := ⟨HouseCall μ, HouseCall.Answer⟩

abbrev HouseProgram (μ α : Type) : Type := Program (houseSignature μ) Raised α

structure House (μ : Type) where
  mailbox : Mailbox
  policies : List (Policy μ)

/-- The store underneath, and what the policies remember. -/
structure HouseState (μ : Type) where
  store : InMemoryStore
  memory : μ

namespace House

section
variable {μ α : Type}

/-- The surroundings' answers: policies see the store and change only their memory. -/
def handle : Handler (houseSignature μ) (HouseState μ)
  | .store c, s =>
    let answered := InMemoryStore.handle c s.store
    (answered.1, { s with store := answered.2 })
  | .check policy attempt, s =>
    let answered := policy.check attempt s.store s.memory
    (answered.1, { s with memory := answered.2 })
  | .record policy outcome, s =>
    let answered := policy.record outcome s.store s.memory
    (answered.1, { s with memory := answered.2 })

def ask (c : HouseCall μ) : HouseProgram μ c.Answer :=
  @Program.perform (houseSignature μ) Raised c

/-- `policy.check(attempt, mailbox)`, and what it raises. -/
def askCheck (policy : Policy μ) (attempt : Attempt) : HouseProgram μ (Except Raised Unit) :=
  ask (.check policy attempt)

/-- `policy.record(outcome, mailbox)`, and what it raises. -/
def askRecord (policy : Policy μ) (outcome : Outcome) : HouseProgram μ (Except Raised Unit) :=
  ask (.record policy outcome)

/-- A program of the mailbox underneath. -/
def lift (p : StoreProgram α) : HouseProgram μ α := p.through fun c => ask (.store c)

/-- `for policy in policies: await policy.check(attempt, mailbox)`. -/
def check (attempt : Attempt) : List (Policy μ) → HouseProgram μ Unit
  | [] => pure ()
  | policy :: rest => do
    let answer ← askCheck policy attempt
    .ofExcept answer
    check attempt rest

/-- Tell every observer; what one of them raises goes no further. -/
def record (outcome : Outcome) : List (Policy μ) → HouseProgram μ Unit
  | [] => pure ()
  | policy :: rest => do
    let _ ← askRecord policy outcome
    record outcome rest

/-- Check, act, record. -/
def policed (house : House μ) (attempt : Attempt) (onError : JsonObject)
    (onSuccess : α → JsonObject) (act : StoreProgram α) : HouseProgram μ α := do
  check attempt house.policies
  let result ← (lift act).catchError fun e => do
    record ⟨attempt, false, some e, onError⟩ house.policies
    throw e
  record ⟨attempt, true, none, onSuccess result⟩ house.policies
  return result

/-- Establish standing invariants. -/
def openAll (clock : ℕ → DateTime) : List (Policy μ) → HouseProgram μ Unit
  | [] => pure ()
  | policy :: rest => do
    lift (policy.onOpen clock)
    openAll clock rest

def open_ (house : House μ) (clock : ℕ → DateTime) : HouseProgram μ Unit :=
  openAll clock house.policies

/-! ## Policed operations -/

def send (house : House μ) (caller : String) (draft : Draft) (stamp : Stamp) :
    HouseProgram μ ObjectRecord :=
  house.policed
    { action := "send", actor := caller, recipients := draft.to_.toList ++ draft.cc,
      subject := draft.subject, body := draft.body }
    ∅ (fun sent => Dict.ofList [("id", .str sent.id)]) (house.mailbox.send caller draft stamp)

def read (house : House μ) (caller objectId : String) (now : DateTime) :
    HouseProgram μ ObjectRecord :=
  house.policed
    { action := "read", actor := caller, detail := Dict.ofList [("id", .str objectId)] }
    (Dict.ofList [("not_yours", .bool true)]) (fun _ => ∅)
    (house.mailbox.read caller objectId now)

/-- `requested_name or "<unnamed>"`. -/
def joinActor (requestedName : Option String) : String :=
  match requestedName with
  | some requested => if requested = "" then "<unnamed>" else requested
  | none => "<unnamed>"

def join (house : House μ) (requestedName : Option String) (draw : ℕ → Naming.Draw)
    (now : DateTime) : HouseProgram μ ActorRecord :=
  house.policed { action := "join", actor := joinActor requestedName }
    ∅ (fun actor => Dict.ofList [("name", .str actor.name)])
    (house.mailbox.join requestedName draw now)

def reply (house : House μ) (caller objectId body : String) (subject : Option String)
    (stamp : Stamp) : HouseProgram μ ObjectRecord := do
  let original ← lift (house.mailbox.view caller objectId)
  house.send caller (house.mailbox.replyDraft original body subject) stamp

/-! ## Pass-through -/

/-- Reading without consuming; observers still see that it happened. -/
def view (house : House μ) (caller objectId : String) : HouseProgram μ ObjectRecord := do
  let got ← lift (house.mailbox.view caller objectId)
  let attempt : Attempt :=
    { action := "view", actor := caller, detail := Dict.ofList [("id", .str objectId)] }
  record { attempt, ok := true } house.policies
  return got

def peek (house : House μ) (caller : String) : HouseProgram μ (List ObjectRecord) :=
  lift (house.mailbox.peek caller)

def thread (house : House μ) (caller rootId : String) : HouseProgram μ (List ObjectRecord) :=
  lift (house.mailbox.thread caller rootId)

def whois (name : String) : HouseProgram μ (Option ActorRecord) := lift (Mailbox.whois name)

def directory : HouseProgram μ (List ActorRecord) := lift Mailbox.directory

def updateProfile (house : House μ) (caller : String) (profile : JsonObject) (now : DateTime) :
    HouseProgram μ ActorRecord := lift (house.mailbox.updateProfile caller profile now)

/-- The house's operation for each operation of the mailbox. Those without a policy
moment are the mailbox's own. -/
def program (house : House μ) : Operation → HouseProgram μ Result
  | .join requestedName draw now => Result.actor <$> house.join requestedName draw now
  | .send caller draft stamp => Result.message <$> house.send caller draft stamp
  | .reply caller objectId body subject stamp =>
    Result.message <$> house.reply caller objectId body subject stamp
  | .read caller objectId now => Result.message <$> house.read caller objectId now
  | .view caller objectId => Result.message <$> house.view caller objectId
  | op => lift (op.program house.mailbox)

/-- The operation, from start to finish. -/
def step (house : House μ) (op : Operation) (s : HouseState μ) :
    Except Raised Result × HouseState μ := (house.program op).run handle s

/-- Reached by opening the house on a reachable mailbox, and by admissible operations
and openings from there. -/
inductive Opened (house : House μ) : HouseState μ → Prop
  | first (store : InMemoryStore) (memory : μ) (clock : ℕ → DateTime)
      (hstore : Reachable house.mailbox store) :
      Opened house ((house.open_ clock).run handle ⟨store, memory⟩).2
  | again {s : HouseState μ} (clock : ℕ → DateTime) (hs : Opened house s) :
      Opened house ((house.open_ clock).run handle s).2
  | step {s : HouseState μ} (op : Operation) (hs : Opened house s)
      (hop : op.Admissible s.store) : Opened house (house.step op s).2

end

end House

end AgentMailbox
