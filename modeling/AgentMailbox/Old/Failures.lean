import AgentMailbox.Clock

/-!
# What the older hub raises

`ConfigError` and `MailboxError`, one constructor for each situation, and what comes from
the database and the interpreter.
-/
namespace AgentMailbox.Old

/-- The classes of `exceptions.py`, and the exceptions that come from elsewhere. -/
inductive FailureClass
  | configError | mailboxError | integrityError | operationalError | overflowError
  deriving DecidableEq, Repr

inductive Failure
  | invalidToken (kind value : String)
  | reservedToken (kind value : String)
  | retiredKeyword (keyword address : String)
  | tooManyParts (to_ : String)
  | acrossProjects (to_ : String)
  | notFound (project agent messageId : String)
  | forwardEnded (to_ newAddress : String)
  | tooLarge (size : ℕ) (cap : ℤ)
  | renameWildcard (to_ : String)
  | renameSame
  | renameHeld (newAddress : String)
  | renameBack (newAddress old : String)
  | schemaTooNew (version : ℤ)
  | unattributable (count : ℕ)
  /-- `sqlite3.IntegrityError`. -/
  | integrityError (message : String)
  /-- `sqlite3.OperationalError`. -/
  | operationalError (message : String)
  /-- `OverflowError`. -/
  | overflowError (message : String)
  deriving DecidableEq, Repr

/-- `SCHEMA_VERSION`. -/
def schemaVersion : ℤ := 4

namespace Failure

def failureClass : Failure → FailureClass
  | invalidToken _ _ | reservedToken _ _ | retiredKeyword _ _ | tooManyParts _
  | acrossProjects _ => .configError
  | notFound _ _ _ | forwardEnded _ _ | tooLarge _ _ | renameWildcard _ | renameSame
  | renameHeld _ | renameBack _ _ | schemaTooNew _ | unattributable _ => .mailboxError
  | integrityError _ => .integrityError
  | operationalError _ => .operationalError
  | overflowError _ => .overflowError

/-- `str(exc)`. -/
def text (u : Unicode) : Failure → String
  | invalidToken kind value => "invalid " ++ kind ++ " " ++ Text.repr u value ++
      ": use letters, digits, '-' or '_' (must start alphanumeric; no dots, spaces or " ++
      "wildcards), max 64 chars"
  | reservedToken kind value => "invalid " ++ kind ++ " " ++ Text.repr u value ++
      ": 'all' and 'any' are reserved address words"
  | retiredKeyword keyword address => "the " ++ Text.repr u keyword ++
      " keyword was retired from addresses (in " ++ Text.repr u address ++
      "). Address a specific agent (project/agent), or the whole project (project, or " ++
      "project/all) — every matching agent then gets its own copy."
  | tooManyParts to_ => "too many parts in address " ++ Text.repr u to_ ++
      ": expected <project>[/<agent>[/<role>]]"
  | acrossProjects to_ => "cannot address a specific agent across all projects: " ++
      Text.repr u to_ ++ " (use 'all/all' for everyone, or 'any/any' for one)"
  | notFound project agent messageId => "no unread message with id " ++ Text.repr u messageId ++
      " in " ++ project ++ "/" ++ agent ++ "'s inbox"
  | forwardEnded to_ newAddress => Text.repr u to_ ++ " was renamed to " ++
      Text.repr u newAddress ++ " and the forwarding period has ended — send to the new address."
  | tooLarge size cap => "message too large: " ++ toString size ++
      " bytes exceeds the hub's max of " ++ toString cap ++ " bytes (see hub_info -> limits)"
  | renameWildcard to_ => "cannot rename to " ++ Text.repr u to_ ++
      ": a new name must be a specific address, not a wildcard"
  | renameSame => "the new name is the same as the current one"
  | renameHeld newAddress => "cannot rename to " ++ Text.repr u newAddress ++
      ": that address is already held by an active agent. Choose another name, or wait " ++
      "until it goes stale."
  | renameBack newAddress old => "cannot rename to " ++ Text.repr u newAddress ++
      ": it already forwards back to " ++ Text.repr u old
  | schemaTooNew version => "database schema is v" ++ toString version ++
      " but this agent-inbox only understands v" ++ toString schemaVersion ++
      " — it was written by a newer version. Upgrade agent-inbox rather than letting an " ++
      "old build write to it."
  | unattributable count => "cannot migrate: " ++ toString count ++
      " consumed message(s) have no named recipient, so their reader is unknown. This " ++
      "store used the retired `any` keyword; migrate it by hand."
  | integrityError message | operationalError message | overflowError message => message

end Failure

end AgentMailbox.Old
