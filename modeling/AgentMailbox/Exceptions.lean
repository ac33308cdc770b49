import AgentMailbox.Text

/-!
# What the mailbox raises

One constructor for each situation, carrying what the message mentions; the text is a
function of it. `noSuchMessage` is deliberately one situation for two: absent, and not yours.

`Raised` adds what is not a `MailboxError`: the exceptions of the interpreter and
of the layers above.
-/
namespace AgentMailbox

/-- The classes of `exceptions.py`, and `policy.PolicyRefusal`. -/
inductive ErrorClass
  | nameUnavailable | unknownActor | malformedAddress | unknownRecipient | remoteMailbox
  | storeNotOpen | noSuchMessage | policyRefusal
  deriving DecidableEq, Repr

inductive MailboxError
  | nameEmpty (raw : String)
  | nameReserved (candidate : String)
  | nameUnusable (candidate : String)
  | nameTaken (name : String)
  | noFreeName
  | unknownActor (name : String)
  | addressEmpty
  | addressManyAts (text : String)
  | addressNoName (text : String)
  | addressNoHub (text : String)
  | unknownRecipient (missing : List String)
  | remoteMailbox (address hubName : String)
  | storeNotOpen
  | noSuchMessage (objectId : String)
  | policyRefusal (policy reason : String)
  deriving DecidableEq, Repr

namespace MailboxError

def errorClass : MailboxError → ErrorClass
  | nameEmpty _ | nameReserved _ | nameUnusable _ | nameTaken _ | noFreeName => .nameUnavailable
  | unknownActor _ => .unknownActor
  | addressEmpty | addressManyAts _ | addressNoName _ | addressNoHub _ => .malformedAddress
  | unknownRecipient _ => .unknownRecipient
  | remoteMailbox _ _ => .remoteMailbox
  | storeNotOpen => .storeNotOpen
  | noSuchMessage _ => .noSuchMessage
  | policyRefusal _ _ => .policyRefusal

end MailboxError

/-- `RESERVED_NAMES`, in the order `sorted` lists them. -/
def reservedNames : List String :=
  ["admin", "all", "any", "everyone", "host", "local", "me", "public"]

/-- `_NAME_ATTEMPTS`. -/
def nameAttempts : ℕ := 24

/-- `str(exc)`. -/
def MailboxError.message (u : Unicode) : MailboxError → String
  | nameEmpty raw => Text.repr u raw ++ " has no usable characters — names are ASCII letters, " ++
      "digits and underscores, so pick a romanised form (for example 'yitzhak_levin')"
  | nameReserved candidate => Text.repr u candidate ++
      " is reserved for addressing and cannot be a name; reserved: " ++
      Text.join ", " reservedNames
  | nameUnusable candidate => Text.repr u candidate ++
      " is not a usable name — 1 to 64 characters, starting and ending with a letter or digit"
  | nameTaken name => Text.repr u name ++
      " is taken — choose another, or join without a name and one will be issued to you"
  | noFreeName => "could not find a free name in " ++ toString nameAttempts ++ " attempts"
  | unknownActor name => Text.repr u name ++ " has not joined this mailbox"
  | addressEmpty => "an address cannot be empty"
  | addressManyAts text => Text.repr u text ++
      " has more than one '@' — addresses are name@hub"
  | addressNoName text => Text.repr u text ++ " has no name before the '@'"
  | addressNoHub text => Text.repr u text ++ " has no hub after the '@'"
  | unknownRecipient missing => "nobody here is called " ++
      Text.join ", " (missing.map (Text.repr u)) ++
      " — check the name, or call `directory` to see who has joined"
  | remoteMailbox address hubName => address ++
      " is on another mailbox, and this one does not federate yet — " ++
      "reachable addresses end in @local or @" ++ hubName
  | storeNotOpen => "SqliteStore must be used as an async context manager: " ++
      "`async with SqliteStore(path) as store:`"
  | noSuchMessage objectId => "no message " ++ Text.repr u objectId ++ " available to you"
  | policyRefusal policy reason => reason ++ " (refused by the " ++ Text.repr u policy ++
      " policy)"

/-- Anything an operation can raise. -/
inductive Raised
  | mailbox (e : MailboxError)
  /-- `TypeError`, with its text. -/
  | typeError (message : String)
  /-- `ValueError`, with its text. -/
  | valueError (message : String)
  /-- `OverflowError`, with its text. -/
  | overflowError (message : String)
  /-- `litestar.exceptions.HTTPException`. -/
  | http (status : ℕ) (detail : String)
  /-- `msgspec.ValidationError`, or any other exception of code outside the repository. -/
  | foreign (kind : String)
  deriving DecidableEq, Repr

/-! Sequencing of computations that may raise, as equations. -/

section
variable {ε α β : Type}

@[simp] theorem ok_bind (a : α) (f : α → Except ε β) : (Except.ok a >>= f) = f a := rfl
@[simp] theorem error_bind (e : ε) (f : α → Except ε β) :
    (Except.error e >>= f) = .error e := rfl
@[simp] theorem ok_map (a : α) (f : α → β) :
    (f <$> (Except.ok a : Except ε α)) = .ok (f a) := rfl
@[simp] theorem error_map (e : ε) (f : α → β) :
    (f <$> (Except.error e : Except ε α)) = .error e := rfl
@[simp] theorem except_pure (a : α) : (pure a : Except ε α) = .ok a := rfl
@[simp] theorem except_throw (e : ε) : (throw e : Except ε α) = .error e := rfl

/-- A sequence returns when each of its parts does. -/
theorem bind_eq_ok {x : Except ε α} {f : α → Except ε β} {b : β} :
    (x >>= f) = .ok b ↔ ∃ a, x = .ok a ∧ f a = .ok b := by
  cases x <;> simp

/-- A sequence raises what the first part to raise raises. -/
theorem bind_eq_error {x : Except ε α} {f : α → Except ε β} {e : ε} :
    (x >>= f) = .error e ↔ x = .error e ∨ ∃ a, x = .ok a ∧ f a = .error e := by
  cases x <;> simp

/-- What a mapped computation returns is made of what the computation returns. -/
theorem map_eq_ok {x : Except ε α} {f : α → β} {b : β} :
    x.map f = .ok b ↔ ∃ a, x = .ok a ∧ f a = b := by
  cases x <;> simp [Except.map]

/-- What returns is what is left of a computation when its error is dropped. -/
theorem toOption_eq_some {x : Except ε α} {a : α} : x.toOption = some a ↔ x = .ok a := by
  cases x <;> simp [Except.toOption]

end

/-- Whether it is an instance of `MailboxError`. -/
def Raised.isMailboxError : Raised → Bool
  | .mailbox _ => true
  | _ => false

/-- `str(exc)`. -/
def Raised.text (u : Unicode) : Raised → String
  | .mailbox e => e.message u
  | .typeError message | .valueError message | .overflowError message => message
  | .http status detail => toString status ++ ": " ++ detail
  | .foreign kind => kind

end AgentMailbox
