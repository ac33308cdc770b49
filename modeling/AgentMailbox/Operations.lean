import AgentMailbox.Mailbox

/-!
# Operations and runs

One call of a mailbox method with everything it takes from its surroundings, what
it returns, and the states a sequence of such calls leads through. An operation is
admissible when its surroundings keep their side: a minted id is one that nothing
stored bears, and the only residents installed are the standing ones, whose
profiles declare no groups.
-/
namespace AgentMailbox

/-- `ADMIN` and `HOST`: the mailboxes that exist whether or not anyone is home. -/
def residentNames : List String := ["admin", "host"]

/-- A method call. -/
inductive Operation
  | join (requestedName : Option String) (draw : ℕ → Naming.Draw) (now : DateTime)
  | whois (name : String)
  | directory
  | updateProfile (caller : String) (profile : JsonObject) (now : DateTime)
  | installResident (name : String) (profile : JsonObject) (now : DateTime)
  | send (caller : String) (draft : Draft) (stamp : Stamp)
  | reply (caller objectId body : String) (subject : Option String) (stamp : Stamp)
  | peek (caller : String)
  | unreadCount (caller : String)
  | read (caller objectId : String) (now : DateTime)
  | thread (caller rootId : String)
  | view (caller objectId : String)
  | expire (now : DateTime)

/-- What a method returns. -/
inductive Result
  | actor (actor : ActorRecord)
  | found (actor : Option ActorRecord)
  | actors (actors : List ActorRecord)
  | message (obj : ObjectRecord)
  | messages (objects : List ObjectRecord)
  | count (n : ℕ)
  deriving DecidableEq

namespace Operation

def program (mb : Mailbox) : Operation → StoreProgram Result
  | join requestedName draw now => Result.actor <$> mb.join requestedName draw now
  | whois name => Result.found <$> Mailbox.whois name
  | directory => Result.actors <$> Mailbox.directory
  | updateProfile caller profile now => Result.actor <$> mb.updateProfile caller profile now
  | installResident name profile now =>
    Result.actor <$> Mailbox.installResident name profile now
  | send caller draft stamp => Result.message <$> mb.send caller draft stamp
  | reply caller objectId body subject stamp =>
    Result.message <$> mb.reply caller objectId body subject stamp
  | peek caller => Result.messages <$> mb.peek caller
  | unreadCount caller => Result.count <$> mb.unreadCount caller
  | read caller objectId now => Result.message <$> mb.read caller objectId now
  | thread caller rootId => Result.messages <$> mb.thread caller rootId
  | view caller objectId => Result.message <$> mb.view caller objectId
  | expire now => Result.count <$> mb.expire now

/-- The id a sending mints. -/
def minted : Operation → Option String
  | send _ _ stamp => some stamp.id
  | reply _ _ _ _ stamp => some stamp.id
  | _ => none

/-- The operation, from start to finish. -/
def step (mb : Mailbox) (op : Operation) (s : InMemoryStore) :
    Except Raised Result × InMemoryStore := (op.program mb).run InMemoryStore.handle s

/-- What the surroundings promise of an operation in the state it is applied to. -/
def Admissible (op : Operation) (s : InMemoryStore) : Prop :=
  match op with
  | send _ _ stamp => stamp.id ∉ s.objects
  | reply _ _ _ _ stamp => stamp.id ∉ s.objects
  | installResident name profile _ => name ∈ residentNames ∧ "groups" ∉ profile
  | _ => True

instance (op : Operation) (s : InMemoryStore) : Decidable (op.Admissible s) :=
  match op with
  | send _ _ stamp => inferInstanceAs (Decidable (stamp.id ∉ s.objects))
  | reply _ _ _ _ stamp => inferInstanceAs (Decidable (stamp.id ∉ s.objects))
  | installResident name profile _ =>
    inferInstanceAs (Decidable (name ∈ residentNames ∧ "groups" ∉ profile))
  | join _ _ _ | whois _ | directory | updateProfile _ _ _ | peek _ | unreadCount _
  | read _ _ _ | thread _ _ | view _ _ | expire _ => isTrue trivial

theorem Admissible.fresh {op : Operation} {s : InMemoryStore} (h : op.Admissible s) {id : String}
    (hid : op.minted = some id) : id ∉ s.objects := by
  cases op <;> simp only [minted, Option.some.injEq, reduceCtorEq] at hid
  all_goals
    subst hid
    exact h

end Operation

/-- The store after a sequence of operations. -/
def after (mb : Mailbox) (s : InMemoryStore) (ops : List Operation) : InMemoryStore :=
  ops.foldl (fun s op => (op.step mb s).2) s

/-- What the caller of each operation gets, in order. -/
def observed (mb : Mailbox) (s : InMemoryStore) : List Operation → List (Except Raised Result)
  | [] => []
  | op :: ops => (op.step mb s).1 :: observed mb (op.step mb s).2 ops

/-- Every operation of the run satisfies `p` in the state it is applied to. -/
def Throughout (mb : Mailbox) (p : Operation → InMemoryStore → Prop) :
    InMemoryStore → List Operation → Prop
  | _, [] => True
  | s, op :: ops => p op s ∧ Throughout mb p (op.step mb s).2 ops

def Throughout.decidable (mb : Mailbox) (p : Operation → InMemoryStore → Prop)
    [∀ op s, Decidable (p op s)] :
    (s : InMemoryStore) → (ops : List Operation) → Decidable (Throughout mb p s ops)
  | _, [] => isTrue trivial
  | s, op :: ops =>
    have := Throughout.decidable mb p (op.step mb s).2 ops
    inferInstanceAs (Decidable (p op s ∧ Throughout mb p (op.step mb s).2 ops))

instance (mb : Mailbox) (p : Operation → InMemoryStore → Prop) [∀ op s, Decidable (p op s)]
    (s : InMemoryStore) (ops : List Operation) : Decidable (Throughout mb p s ops) :=
  Throughout.decidable mb p s ops

/-- Reached from an empty store by admissible operations. -/
inductive Reachable (mb : Mailbox) : InMemoryStore → Prop
  | empty : Reachable mb .empty
  | step {s : InMemoryStore} (op : Operation) (hs : Reachable mb s) (hop : op.Admissible s) :
    Reachable mb (op.step mb s).2

@[simp] theorem after_nil (mb : Mailbox) (s : InMemoryStore) : after mb s [] = s := rfl

@[simp] theorem after_cons (mb : Mailbox) (s : InMemoryStore) (op : Operation)
    (ops : List Operation) : after mb s (op :: ops) = after mb (op.step mb s).2 ops := rfl

theorem after_append (mb : Mailbox) (s : InMemoryStore) (first rest : List Operation) :
    after mb s (first ++ rest) = after mb (after mb s first) rest := List.foldl_append

theorem throughout_append (mb : Mailbox) (p : Operation → InMemoryStore → Prop)
    (s : InMemoryStore) (first rest : List Operation) :
    Throughout mb p s (first ++ rest) ↔
      Throughout mb p s first ∧ Throughout mb p (after mb s first) rest := by
  induction first generalizing s with
  | nil => simp [Throughout]
  | cons op first ih => simp only [List.cons_append, Throughout, ih, after_cons, and_assoc]

theorem Throughout.mono {mb : Mailbox} {p q : Operation → InMemoryStore → Prop}
    (himp : ∀ op s, p op s → q op s) {s : InMemoryStore} {ops : List Operation}
    (h : Throughout mb p s ops) : Throughout mb q s ops := by
  induction ops generalizing s with
  | nil => trivial
  | cons op ops ih => exact ⟨himp op s h.1, ih h.2⟩

/-- What a run's steps preserve, the run preserves. -/
theorem after_invariant {mb : Mailbox} {I : InMemoryStore → Prop}
    {p : Operation → InMemoryStore → Prop}
    (hstep : ∀ op s, I s → p op s → I (op.step mb s).2) {s : InMemoryStore}
    {ops : List Operation} (hs : I s) (hops : Throughout mb p s ops) : I (after mb s ops) := by
  induction ops generalizing s with
  | nil => exact hs
  | cons op ops ih => exact ih (hstep op s hs hops.1) hops.2

/-- When a step leads from `I` to `I` exactly if it satisfies `p`, a run stays in `I`
exactly if every step of it does. -/
theorem along_iff {mb : Mailbox} {I : InMemoryStore → Prop}
    {p : Operation → InMemoryStore → Prop}
    (hstep : ∀ op s, op.Admissible s → I s → (I (op.step mb s).2 ↔ p op s)) {s : InMemoryStore}
    {ops : List Operation} (hadm : Throughout mb Operation.Admissible s ops) :
    (∀ n, I (after mb s (ops.take n))) ↔ I s ∧ Throughout mb p s ops := by
  induction ops generalizing s with
  | nil => simp [Throughout]
  | cons op ops ih =>
    constructor
    · intro hall
      have hs : I s := hall 0
      have hrest := (ih hadm.2).mp fun n => hall (n + 1)
      exact ⟨hs, (hstep op s hadm.1 hs).mp hrest.1, hrest.2⟩
    · rintro ⟨hs, hop, hrest⟩ n
      cases n with
      | zero => exact hs
      | succ n => exact (ih hadm.2).mpr ⟨(hstep op s hadm.1 hs).mpr hop, hrest⟩ n

theorem reachable_after {mb : Mailbox} {s : InMemoryStore} (hs : Reachable mb s)
    {ops : List Operation} (hops : Throughout mb Operation.Admissible s ops) :
    Reachable mb (after mb s ops) :=
  after_invariant (fun op _ hs hop => .step op hs hop) hs hops

/-! ## Concrete runs -/

/-- A mailbox with the default configuration, over ASCII. -/
def asciiMailbox : Mailbox := { unicode := asciiUnicode }

/-- The first name of either list, at every attempt. -/
def firstDraw (_ : ℕ) : Naming.Draw :=
  ⟨⟨0, by decide +kernel⟩, ⟨0, by decide +kernel⟩⟩

/-- Noon on a day of January 2026, counted on from the first when there is no such day. -/
def january (day : ℕ) : DateTime :=
  .noon 1 (1 + (day - 1) % 31) (by decide) (by
    have hlast : daysInMonth 2026 1 = 31 := by decide
    omega)

/-- Joining under a chosen name on the first day. -/
def joinAs (name : String) : Operation := .join (some name) firstDraw (january 1)

end AgentMailbox
