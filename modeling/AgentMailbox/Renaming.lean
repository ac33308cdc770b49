import AgentMailbox.Secrecy

/-!
# Message ids that do not matter

Which id a sending mints is an accident. Two runs are compared up to a permutation of
ids, applied to what is asked and to what is answered.
-/
namespace AgentMailbox

section
variable (f : String → String)

def ObjectRecord.renamed (obj : ObjectRecord) : ObjectRecord :=
  { obj with id := f obj.id, inReplyTo := obj.inReplyTo.map f }

/-- Only the refusal of a message names an id. -/
def Raised.renamed : Raised → Raised
  | .mailbox (.noSuchMessage id) => .mailbox (.noSuchMessage (f id))
  | e => e

def Result.renamed : Result → Result
  | .message obj => .message (obj.renamed f)
  | .messages objects => .messages (objects.map (ObjectRecord.renamed f))
  | r => r

/-- An outcome, its ids renamed. -/
def renamedOutcome {α : Type} (g : α → α) : Except Raised α → Except Raised α
  | .ok a => .ok (g a)
  | .error e => .error (e.renamed f)

def Draft.renamed (draft : Draft) : Draft := { draft with inReplyTo := draft.inReplyTo.map f }

def Stamp.renamed (stamp : Stamp) : Stamp := { stamp with id := f stamp.id }

def Operation.renamed : Operation → Operation
  | .send caller draft stamp => .send caller (draft.renamed f) (stamp.renamed f)
  | .reply caller objectId body subject stamp =>
    .reply caller (f objectId) body subject (stamp.renamed f)
  | .read caller objectId now => .read caller (f objectId) now
  | .thread caller rootId => .thread caller (f rootId)
  | .view caller objectId => .view caller (f objectId)
  | op => op

end

@[simp] theorem renamedOutcome_ok {α : Type} (f : String → String) (g : α → α) (a : α) :
    renamedOutcome f g (.ok a) = .ok (g a) := rfl

@[simp] theorem deliversTo_renamed (ctx : Context) (f : String → String) (obj : ObjectRecord)
    (me : String) : deliversTo ctx (obj.renamed f) me = deliversTo ctx obj me := rfl

theorem replyDraft_renamed (mb : Mailbox) (f : String → String) (original : ObjectRecord)
    (body : String) (subject : Option String) : mb.replyDraft (original.renamed f) body subject =
      (mb.replyDraft original body subject).renamed f := rfl

/-- An error that names no message is the same under every renaming. -/
def Raised.NamesNoMessage (e : Raised) : Prop := ∀ f, e.renamed f = e

theorem localName_namesNoMessage {u : Unicode} {text hubName : String} {e : Raised}
    (h : localName u text hubName = .error e) : e.NamesNoMessage := by
  intro f
  unfold localName at h
  split at h
  · next e' hparse =>
    simp only [parse] at hparse
    split_ifs at hparse <;> cases hparse <;> cases h <;> rfl
  · split_ifs at h
    cases h
    rfl

theorem localAll_namesNoMessage {mb : Mailbox} {texts : List String} {e : Raised}
    (h : mb.localAll texts = .error e) : e.NamesNoMessage := by
  unfold Mailbox.localAll at h
  induction texts generalizing e with
  | nil => simp at h
  | cons text texts ih =>
    rw [List.mapM_cons] at h
    cases hname : mb.local_ text with
    | error e' =>
      rw [hname, error_bind, Except.error.injEq] at h
      subst h
      exact localName_namesNoMessage hname
    | ok name =>
      cases hrest : texts.mapM mb.local_ with
      | error e' =>
        rw [hname, ok_bind, hrest, error_bind, Except.error.injEq] at h
        subst h
        exact ih hrest
      | ok names => simp [hname, hrest] at h

theorem rejectUnknown_namesNoMessage {names : List String} {ctx : Context} {e : Raised}
    (h : Mailbox.rejectUnknownRecipients names ctx = .error e) : e.NamesNoMessage := by
  unfold Mailbox.rejectUnknownRecipients at h
  dsimp only at h
  split_ifs at h
  cases h
  exact fun f => rfl

/-- What an unusable profile makes of every question. -/
theorem contextIn_error {mb : Mailbox} {s : InMemoryStore} {e : Raised}
    (h : mb.contextIn s = .error e) :
    e = Json.tooManyDigits ∨ ∃ type, e = notIterable type := by
  unfold Mailbox.contextIn at h
  cases hmembers : groupMemberships mb.unicode s.actors.values with
  | error e' =>
    rw [hmembers, Except.map, Except.error.injEq] at h
    subst h
    exact groupMemberships_error hmembers
  | ok memberships => simp [hmembers, Except.map] at h

theorem contextIn_namesNoMessage {mb : Mailbox} {s : InMemoryStore} {e : Raised}
    (h : mb.contextIn s = .error e) : e.NamesNoMessage := by
  rcases contextIn_error h with rfl | ⟨type, rfl⟩ <;> exact fun f => rfl

/-- It is no refusal. -/
theorem contextIn_not_mailbox {mb : Mailbox} {s : InMemoryStore} {e : Raised}
    (h : mb.contextIn s = .error e) (refusal : MailboxError) : e ≠ .mailbox refusal := by
  rcases contextIn_error h with rfl | ⟨type, rfl⟩ <;> exact Raised.noConfusion

namespace InMemoryStore

/-- The message of that id, if `me` is party to it. -/
def visibleAt (s : InMemoryStore) (ctx : Context) (me id : String) : Option ObjectRecord :=
  (s.objects.lookup id).filter (isPartyTo ctx · me)

theorem visibleAt_eq_some (s : InMemoryStore) (ctx : Context) (me id : String)
    (obj : ObjectRecord) : s.visibleAt ctx me id = some obj ↔
      s.objects.lookup id = some obj ∧ isPartyTo ctx obj me = true := by
  rw [visibleAt, Option.filter_eq_some_iff]

theorem visibleAt_none_of_notMem {s : InMemoryStore} {id : String} (h : id ∉ s.objects)
    (ctx : Context) (me : String) : s.visibleAt ctx me id = none := by
  rw [visibleAt, AList.lookup_eq_none.mpr h, Option.filter_none]

theorem find?_objectList (s : InMemoryStore) (id : String) :
    s.objectList.find? (fun obj => obj.id = id) = s.objects.lookup id := by
  cases hfind : s.objectList.find? (fun obj => obj.id = id) with
  | some obj =>
    have hid : obj.id = id := by simpa using List.find?_some hfind
    have hmem := (s.mem_objectList obj).mp (List.mem_of_find?_eq_some hfind)
    rw [← hid, hmem]
  | none =>
    cases hobj : s.objects.lookup id with
    | none => rfl
    | some obj =>
      have hid := s.object_key id obj hobj
      have hmem := (s.mem_objectList obj).mpr (by rw [hid, hobj])
      simpa [hid] using List.find?_eq_none.mp hfind obj hmem

end InMemoryStore

namespace Mailbox

/-- A sender may attach to what is visible to it. -/
theorem attachIn_eq (s : InMemoryStore) (ctx : Context) (me : String) (inReplyTo : Option String) :
    attachIn s ctx me inReplyTo =
      inReplyTo.filter fun parent => (s.visibleAt ctx me parent).isSome := by
  cases inReplyTo with
  | none => rfl
  | some parent =>
    rw [attachIn, mayAttachTo, s.find?_objectList, Option.filter_some, InMemoryStore.visibleAt]
    cases s.objects.lookup parent with
    | none => rfl
    | some obj => by_cases hparty : isPartyTo ctx obj me = true <;> simp [hparty]

/-- What is asked for is returned if it is visible, and refused as if it were not there. -/
theorem visibleIn_eq (mb : Mailbox) {s : InMemoryStore} {ctx : Context} {caller id : String}
    {actor : ActorRecord} (hctx : mb.contextIn s = .ok ctx)
    (hactor : mb.actorIn s caller = .ok actor) : mb.visibleIn s caller id =
      match s.visibleAt ctx actor.name id with
      | some obj => .ok obj
      | none => .error (.mailbox (.noSuchMessage id)) := by
  rw [visibleIn, hactor, ok_bind, InMemoryStore.visibleAt]
  cases hobj : s.objects.lookup id with
  | none => rfl
  | some obj =>
    rw [hctx]
    by_cases hparty : isPartyTo ctx obj actor.name = true <;> simp [hparty, Option.filter]

end Mailbox

end AgentMailbox
