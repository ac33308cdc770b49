import AgentMailbox.Operations

/-!
# What each operation computes

Run from start to finish, an operation is a function of the store: a question about
it, possibly followed by one write. Each program below is proved equal to that
function once, and nothing later looks inside the programs when they run alone.
-/
namespace AgentMailbox

/-- A program run alone over the store in memory. -/
def runs {α : Type} (p : StoreProgram α) (s : InMemoryStore) :
    Except Raised α × InMemoryStore := p.run InMemoryStore.handle s

section
variable {α β : Type} (s : InMemoryStore)

@[simp] theorem runs_pure (a : α) : runs (pure a) s = (.ok a, s) := rfl
@[simp] theorem runs_throw (e : Raised) : runs (throw e : StoreProgram α) s = (.error e, s) := rfl
@[simp] theorem runs_ofExcept (x : Except Raised α) : runs (.ofExcept x) s = (x, s) :=
  Program.run_ofExcept _ x s

theorem runs_bind (p : StoreProgram α) (f : α → StoreProgram β) :
    runs (p >>= f) s = match runs p s with
      | (.ok a, s') => runs (f a) s'
      | (.error e, s') => (.error e, s') := by
  simp only [runs, Program.run_bind]
  rcases p.run InMemoryStore.handle s with ⟨_ | _, s'⟩ <;> rfl

theorem runs_map (f : α → β) (p : StoreProgram α) :
    runs (f <$> p) s = ((runs p s).1.map f, (runs p s).2) := by
  change runs (p >>= fun a => pure (f a)) s = _
  rw [runs_bind]
  cases h : runs p s with
  | mk result s' => cases result <;> rfl

@[simp] theorem runs_claimName (actor : ActorRecord) :
    runs (MessageStore.claimName actor) s =
      (.ok (s.claimName actor).1, (s.claimName actor).2) := rfl
@[simp] theorem runs_getActor (name : String) :
    runs (MessageStore.getActor name) s = (.ok (s.actors.lookup name), s) := rfl
@[simp] theorem runs_putActor (actor : ActorRecord) :
    runs (MessageStore.putActor actor) s = (.ok (), s.putActor actor) := rfl
@[simp] theorem runs_actors :
    runs MessageStore.actors s = (.ok s.actors.values, s) := rfl
@[simp] theorem runs_addObject (obj : ObjectRecord) :
    runs (MessageStore.addObject obj) s = (.ok (), s.addObject obj) := rfl
@[simp] theorem runs_getObject (id : String) :
    runs (MessageStore.getObject id) s = (.ok (s.objects.lookup id), s) := rfl
@[simp] theorem runs_objects :
    runs MessageStore.objects s = (.ok s.objectList, s) := rfl
@[simp] theorem runs_removeObjects (ids : List String) :
    runs (MessageStore.removeObjects ids) s =
      (.ok (s.removeObjects ids).1, (s.removeObjects ids).2) := rfl
@[simp] theorem runs_markRead (read : ReadRecord) :
    runs (MessageStore.markRead read) s =
      (.ok (s.markRead read).1, (s.markRead read).2) := rfl
@[simp] theorem runs_readsOf (ids : List String) :
    runs (MessageStore.readsOf ids) s = (.ok (s.readsOf ids), s) := rfl

end

namespace Mailbox

/-- Who exists and which groups they are in. -/
def contextIn (mb : Mailbox) (s : InMemoryStore) : Except Raised Context :=
  (groupMemberships mb.unicode s.actors.values).map fun memberships =>
    ⟨s.actors.values.map ActorRecord.name, memberships⟩

/-- The actor an address names. -/
def actorIn (mb : Mailbox) (s : InMemoryStore) (name : String) : Except Raised ActorRecord := do
  let resolved ← mb.local_ name
  match s.actors.lookup resolved with
  | none => throw (.mailbox (.unknownActor name))
  | some actor => return actor

/-- The message of that id, if the caller is party to it. -/
def visibleIn (mb : Mailbox) (s : InMemoryStore) (caller objectId : String) :
    Except Raised ObjectRecord := do
  let actor ← mb.actorIn s caller
  match s.objects.lookup objectId with
  | none => throw (.mailbox (.noSuchMessage objectId))
  | some obj => do
    let ctx ← mb.contextIn s
    if isPartyTo ctx obj actor.name then return obj
    else throw (.mailbox (.noSuchMessage objectId))

/-- The parent a message is stored with. -/
def attachIn (s : InMemoryStore) (ctx : Context) (sender : String) :
    Option String → Option String
  | none => none
  | some parent =>
    if mayAttachTo ctx s.objectList sender (some parent) then some parent else none

/-- The record a sending stores. -/
def sendIn (mb : Mailbox) (s : InMemoryStore) (caller : String) (draft : Draft) (stamp : Stamp) :
    Except Raised ObjectRecord := do
  let actor ← mb.actorIn s caller
  let recipients ← mb.localAll draft.to_.toList
  let copies ← mb.localAll draft.cc
  let ctx ← mb.contextIn s
  rejectUnknownRecipients (recipients ++ copies) ctx
  return compose ctx actor.name recipients copies
    (attachIn s ctx actor.name draft.inReplyTo) draft stamp

/-- The record a reply stores. -/
def replyIn (mb : Mailbox) (s : InMemoryStore) (caller objectId body : String)
    (subject : Option String) (stamp : Stamp) : Except Raised ObjectRecord := do
  let original ← mb.visibleIn s caller objectId
  mb.sendIn s caller (mb.replyDraft original body subject) stamp

/-- What is waiting for the caller. -/
def unreadIn (mb : Mailbox) (s : InMemoryStore) (caller : String) :
    Except Raised (List ObjectRecord) := do
  let actor ← mb.actorIn s caller
  let ctx ← mb.contextIn s
  return unread ctx s.objectList actor.name
    (readIds actor.name (s.readsOf (s.objectList.map ObjectRecord.id)))

/-- The caller's turns of a thread. -/
def threadIn (mb : Mailbox) (s : InMemoryStore) (caller rootId : String) :
    Except Raised (List ObjectRecord) := do
  let actor ← mb.actorIn s caller
  let ctx ← mb.contextIn s
  return visibleTurns ctx s.objectList rootId actor.name

/-- The ids an expiry removes. -/
def doomedIn (mb : Mailbox) (s : InMemoryStore) (now : DateTime) :
    Except Raised (Finset String) := do
  let cutoff ← mb.cutoff now
  return expiredObjectIds s.objectList cutoff.isoformat

theorem runs_context (mb : Mailbox) (s : InMemoryStore) :
    runs mb.context s = (mb.contextIn s, s) := by
  unfold context contextIn
  cases h : groupMemberships mb.unicode s.actors.values <;> simp [runs_bind, h, Except.map]

theorem runs_requireActor (mb : Mailbox) (s : InMemoryStore) (name : String) :
    runs (mb.requireActor name) s = (mb.actorIn s name, s) := by
  unfold requireActor actorIn
  cases hname : mb.local_ name with
  | error e => simp
  | ok resolved =>
    cases hactor : s.actors.lookup resolved <;> simp [runs_bind, hactor]

theorem runs_visibleObject (mb : Mailbox) (s : InMemoryStore) (caller objectId : String) :
    runs (mb.visibleObject caller objectId) s = (mb.visibleIn s caller objectId, s) := by
  unfold visibleObject visibleIn
  rw [runs_bind, runs_requireActor]
  cases hactor : mb.actorIn s caller with
  | error e => rfl
  | ok actor =>
    cases hobj : s.objects.lookup objectId with
    | none => simp [runs_bind, hobj]
    | some obj =>
      simp only [runs_bind, runs_getObject, hobj, runs_context]
      cases hctx : mb.contextIn s with
      | error e => rfl
      | ok ctx =>
        by_cases hparty : isPartyTo ctx obj actor.name = true <;> simp [hparty]

theorem runs_attach (s : InMemoryStore) (ctx : Context) (sender : String)
    (inReplyTo : Option String) :
    runs (attach ctx sender inReplyTo) s = (.ok (attachIn s ctx sender inReplyTo), s) := by
  cases inReplyTo <;> simp [attach, attachIn, runs_bind]

/-- A sending stores one record, or raises and stores nothing. -/
theorem runs_send (mb : Mailbox) (s : InMemoryStore) (caller : String) (draft : Draft)
    (stamp : Stamp) : runs (mb.send caller draft stamp) s =
      match mb.sendIn s caller draft stamp with
      | .ok obj => (.ok obj, s.addObject obj)
      | .error e => (.error e, s) := by
  unfold send sendIn
  rw [runs_bind, runs_requireActor]
  cases hactor : mb.actorIn s caller with
  | error e => rfl
  | ok actor =>
    cases hto : mb.localAll draft.to_.toList with
    | error e => simp
    | ok recipients =>
      cases hcc : mb.localAll draft.cc with
      | error e => simp
      | ok copies =>
        cases hctx : mb.contextIn s with
        | error e => simp [runs_bind, runs_context, hctx]
        | ok ctx =>
          cases hknown : rejectUnknownRecipients (recipients ++ copies) ctx <;>
            simp [runs_bind, runs_context, runs_attach, hctx, hknown]

theorem runs_reply (mb : Mailbox) (s : InMemoryStore) (caller objectId body : String)
    (subject : Option String) (stamp : Stamp) :
    runs (mb.reply caller objectId body subject stamp) s =
      match mb.replyIn s caller objectId body subject stamp with
      | .ok obj => (.ok obj, s.addObject obj)
      | .error e => (.error e, s) := by
  unfold reply replyIn
  rw [runs_bind, runs_visibleObject]
  cases hobj : mb.visibleIn s caller objectId with
  | error e => rfl
  | ok original =>
    dsimp only
    rw [ok_bind]
    exact runs_send mb s caller (mb.replyDraft original body subject) stamp

theorem runs_peek (mb : Mailbox) (s : InMemoryStore) (caller : String) :
    runs (mb.peek caller) s = (mb.unreadIn s caller, s) := by
  unfold peek unreadIn readBy
  rw [runs_bind, runs_requireActor]
  cases hactor : mb.actorIn s caller with
  | error e => rfl
  | ok actor =>
    cases hctx : mb.contextIn s <;> simp [runs_bind, runs_context, hctx]

theorem runs_unreadCount (mb : Mailbox) (s : InMemoryStore) (caller : String) :
    runs (mb.unreadCount caller) s = ((mb.unreadIn s caller).map List.length, s) := by
  unfold unreadCount
  rw [runs_bind, runs_peek]
  cases mb.unreadIn s caller <;> rfl

theorem runs_thread (mb : Mailbox) (s : InMemoryStore) (caller rootId : String) :
    runs (mb.thread caller rootId) s = (mb.threadIn s caller rootId, s) := by
  unfold thread threadIn
  rw [runs_bind, runs_requireActor]
  cases hactor : mb.actorIn s caller with
  | error e => rfl
  | ok actor =>
    cases hctx : mb.contextIn s <;> simp [runs_bind, runs_context, hctx]

/-- A successful reading of a message the caller is party to records it. -/
theorem runs_read (mb : Mailbox) (s : InMemoryStore) (caller objectId : String)
    (now : DateTime) : runs (mb.read caller objectId now) s =
      match mb.actorIn s caller, mb.visibleIn s caller objectId with
      | .ok actor, .ok obj => (.ok obj, (s.markRead ⟨obj.id, actor.name, now.isoformat⟩).2)
      | .ok _, .error e => (.error e, s)
      | .error e, _ => (.error e, s) := by
  unfold read
  rw [runs_bind, runs_requireActor]
  cases hactor : mb.actorIn s caller with
  | error e => rfl
  | ok actor =>
    cases hobj : mb.visibleIn s caller objectId <;>
      simp [runs_bind, runs_visibleObject, hobj]

theorem runs_updateProfile (mb : Mailbox) (s : InMemoryStore) (caller : String)
    (profile : JsonObject) (now : DateTime) : runs (mb.updateProfile caller profile now) s =
      match mb.actorIn s caller with
      | .ok actor =>
        let updated := { actor with profile := profile, lastSeen := now.isoformat }
        (.ok updated, s.putActor updated)
      | .error e => (.error e, s) := by
  unfold updateProfile
  rw [runs_bind, runs_requireActor]
  cases mb.actorIn s caller <;> simp [runs_bind]

/-- An expiry removes the doomed messages, and counts them. -/
theorem runs_expire (mb : Mailbox) (s : InMemoryStore) (now : DateTime)
    (hdays : 0 < mb.retentionDays) : runs (mb.expire now) s =
      match mb.doomedIn s now with
      | .ok doomed => (.ok (s.removeObjects (Sorting.sorted doomed)).1,
          (s.removeObjects (Sorting.sorted doomed)).2)
      | .error e => (.error e, s) := by
  unfold expire doomedIn
  rw [if_neg (by omega), runs_bind, runs_ofExcept]
  cases hcut : mb.cutoff now with
  | error e => rfl
  | ok cutoff =>
    simp only [runs_bind, runs_objects]
    split_ifs with hempty
    · change _ = (Except.ok (s.removeObjects (Sorting.sorted _)).1, _)
      rw [hempty]
      rfl
    · rfl

/-- A document holds what was typed, under what the client sent. -/
theorem lookup_documentOf (names : List String) (document : Option JsonObject) (key : String) :
    (documentOf names document).lookup key = ((document.getD ∅).lookup key).or
      (if key = "audience" then some (Json.strings names) else none) := by
  unfold documentOf
  rw [Dict.lookup_update]
  congr 1
  show ((∅ : JsonObject).set "audience" (Json.strings names)).lookup key = _
  rw [Dict.lookup_set]
  rfl

/-- Which ids of a listing the reader has consumed. -/
theorem mem_readIds_lookup (reader : String) (reads : Dict String (List ReadRecord))
    (id : String) : id ∈ readIds reader reads ↔
      ∃ entries, reads.lookup id = some entries ∧ ∃ read ∈ entries, read.reader = reader := by
  simp only [readIds, List.mem_toFinset, List.mem_map, List.mem_filter, List.any_eq_true,
    decide_eq_true_eq]
  constructor
  · intro h
    obtain ⟨⟨key, entries⟩, ⟨hentry, hread⟩, rfl⟩ := h
    exact ⟨entries, AList.mem_lookup_iff.mpr hentry, hread⟩
  · intro h
    obtain ⟨entries, hentry, hread⟩ := h
    exact ⟨⟨id, entries⟩, ⟨AList.mem_lookup_iff.mp hentry, hread⟩, rfl⟩

/-- The ids the reader has consumed are those with a record of it. -/
theorem mem_readIds (s : InMemoryStore) (reader : String) (ids : List String) (id : String) :
    id ∈ readIds reader (s.readsOf ids) ↔ id ∈ ids ∧ (s.readBy id reader).isSome = true := by
  have hread : (∃ read ∈ ((s.reads.lookup id).getD ∅).values, read.reader = reader) ↔
      (s.readBy id reader).isSome = true := by
    simp only [s.mem_readers, Option.isSome_iff_exists]
    constructor
    · intro h
      obtain ⟨read, hread, rfl⟩ := h
      exact ⟨read, hread⟩
    · intro h
      obtain ⟨read, hread⟩ := h
      obtain ⟨_, rfl⟩ := s.readBy_key hread
      exact ⟨read, hread, rfl⟩
  rw [mem_readIds_lookup, InMemoryStore.readsOf, Dict.lookup_ofList_map]
  by_cases hid : id ∈ ids
  · rw [if_pos hid]
    simp only [Option.some.injEq, exists_eq_left', hread, hid, true_and]
  · rw [if_neg hid]
    simp only [reduceCtorEq, false_and, exists_false, hid]

end Mailbox

/-! ## What the caller is told, and what is left behind -/

namespace Operation

theorem step_eq_runs (mb : Mailbox) (op : Operation) (s : InMemoryStore) :
    op.step mb s = runs (op.program mb) s := rfl

section
variable (mb : Mailbox) (s : InMemoryStore)

/-- What a reading returns is what a viewing returns. -/
theorem answer_read (caller objectId : String) (now : DateTime) :
    ((read caller objectId now).step mb s).1 = (mb.visibleIn s caller objectId).map .message := by
  rw [step_eq_runs, program, runs_map, Mailbox.runs_read]
  unfold Mailbox.visibleIn
  cases mb.actorIn s caller with
  | error e => rfl
  | ok actor => split <;> simp_all

theorem step_whois (name : String) :
    (whois name).step mb s = (.ok (.found (s.actors.lookup name)), s) := rfl

theorem step_updateProfile (caller : String) (profile : JsonObject) (now : DateTime) :
    (updateProfile caller profile now).step mb s =
      ((mb.actorIn s caller).map fun actor =>
          .actor { actor with profile := profile, lastSeen := now.isoformat },
        match mb.actorIn s caller with
        | .ok actor => s.putActor { actor with profile := profile, lastSeen := now.isoformat }
        | .error _ => s) := by
  rw [step_eq_runs, program, runs_map, Mailbox.runs_updateProfile]
  cases mb.actorIn s caller <;> rfl

theorem step_peek (caller : String) :
    (peek caller).step mb s = ((mb.unreadIn s caller).map .messages, s) := by
  rw [step_eq_runs, program, runs_map, Mailbox.runs_peek]

theorem step_unreadCount (caller : String) : (unreadCount caller).step mb s =
    (((mb.unreadIn s caller).map List.length).map .count, s) := by
  rw [step_eq_runs, program, runs_map, Mailbox.runs_unreadCount]

theorem step_thread (caller rootId : String) :
    (thread caller rootId).step mb s = ((mb.threadIn s caller rootId).map .messages, s) := by
  rw [step_eq_runs, program, runs_map, Mailbox.runs_thread]

theorem step_view (caller objectId : String) :
    (view caller objectId).step mb s = ((mb.visibleIn s caller objectId).map .message, s) := by
  rw [step_eq_runs, program, Mailbox.view, runs_map, Mailbox.runs_visibleObject]

theorem step_read {caller objectId : String} {actor : ActorRecord} (now : DateTime)
    (hactor : mb.actorIn s caller = .ok actor) : (read caller objectId now).step mb s =
      ((mb.visibleIn s caller objectId).map .message,
        match mb.visibleIn s caller objectId with
        | .ok obj => (s.markRead ⟨obj.id, actor.name, now.isoformat⟩).2
        | .error _ => s) := by
  rw [step_eq_runs, program, runs_map, Mailbox.runs_read, hactor]
  cases mb.visibleIn s caller objectId <;> rfl

theorem step_send (caller : String) (draft : Draft) (stamp : Stamp) :
    (send caller draft stamp).step mb s = ((mb.sendIn s caller draft stamp).map .message,
      match mb.sendIn s caller draft stamp with
      | .ok obj => s.addObject obj
      | .error _ => s) := by
  rw [step_eq_runs, program, runs_map, Mailbox.runs_send]
  cases mb.sendIn s caller draft stamp <;> rfl

theorem step_reply (caller objectId body : String) (subject : Option String) (stamp : Stamp) :
    (reply caller objectId body subject stamp).step mb s =
      ((mb.replyIn s caller objectId body subject stamp).map .message,
        match mb.replyIn s caller objectId body subject stamp with
        | .ok obj => s.addObject obj
        | .error _ => s) := by
  rw [step_eq_runs, program, runs_map, Mailbox.runs_reply]
  cases mb.replyIn s caller objectId body subject stamp <;> rfl

end

end Operation

end AgentMailbox
