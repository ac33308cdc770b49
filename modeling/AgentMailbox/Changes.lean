import AgentMailbox.Semantics
import AgentMailbox.Membership

/-!
# What one operation can do

Every operation either leaves the store as it was or makes one of five changes.
This is proved once, in `step_change`; invariants are then short case analyses of
`Change`, and no later proof opens an operation to see what it writes.
-/
namespace AgentMailbox

/-- A name that addresses an actor: its own address, and not the broadcast word. -/
structure Usable (name : String) : Prop where
  plain : Plain name
  nonempty : name ≠ ""
  not_everyone : name ≠ everyone

theorem Naming.Canonical.usable {name : String} (h : Naming.Canonical name) : Usable name :=
  ⟨h.plain, h.nonempty, fun heq => h.unreserved (heq ▸ by decide)⟩

theorem usable_resident {name : String} (h : name ∈ residentNames) : Usable name := by
  have hcases : name = "admin" ∨ name = "host" := by simpa [residentNames] using h
  rcases hcases with rfl | rfl <;> exact ⟨by decide, by decide, by decide⟩

/-- What a sending operation asks to be sent, and by whom. -/
def Operation.drafted (mb : Mailbox) (s : InMemoryStore) :
    Operation → Except Raised (Option (String × Draft))
  | .send caller draft _ => .ok (some (caller, draft))
  | .reply caller objectId body subject _ =>
    (mb.visibleIn s caller objectId).map fun original =>
      some (caller, mb.replyDraft original body subject)
  | _ => .ok none

/-- The residents installed are standing ones, and declare no groups. -/
def Operation.StandingOnly (op : Operation) : Prop :=
  match op with
  | .installResident name profile _ => name ∈ residentNames ∧ "groups" ∉ profile
  | _ => True

theorem Operation.Admissible.standing {op : Operation} {s : InMemoryStore} (h : op.Admissible s) :
    op.StandingOnly := by
  cases op with
  | installResident => exact h
  | _ => trivial

/-- The answer and the store an operation can lead to. -/
inductive Change (mb : Mailbox) (s : InMemoryStore) (op : Operation) :
    Except Raised Result → InMemoryStore → Prop
  | unchanged (answer : Except Raised Result)
      (hsend : op.minted.isSome = true → ∃ e, answer = .error e) : Change mb s op answer s
  | created (actor : ActorRecord) (hname : Usable actor.name) (hfree : actor.name ∉ s.actors)
      (htype : actor.actorType = .service) (hgroups : "groups" ∉ actor.profile)
      (hmint : op.minted = none) : Change mb s op (.ok (.actor actor)) (s.putActor actor)
  | profiled (caller : String) (profile : JsonObject) (now : DateTime) (actor : ActorRecord)
      (hop : op = .updateProfile caller profile now) (hactor : mb.actorIn s caller = .ok actor) :
      Change mb s op
        (.ok (.actor { actor with profile := profile, lastSeen := now.isoformat }))
        (s.putActor { actor with profile := profile, lastSeen := now.isoformat })
  | sent (caller : String) (draft : Draft) (stamp : Stamp) (obj : ObjectRecord)
      (hmint : op.minted = some stamp.id) (hdraft : op.drafted mb s = .ok (some (caller, draft)))
      (hobj : mb.sendIn s caller draft stamp = .ok obj) :
      Change mb s op (.ok (.message obj)) (s.addObject obj)
  | consumed (caller objectId : String) (now : DateTime) (actor : ActorRecord)
      (obj : ObjectRecord) (hop : op = .read caller objectId now)
      (hactor : mb.actorIn s caller = .ok actor) (hobj : mb.visibleIn s caller objectId = .ok obj) :
      Change mb s op (.ok (.message obj))
        (s.markRead ⟨obj.id, actor.name, now.isoformat⟩).2
  | expired (now : DateTime) (doomed : Finset String) (hop : op = .expire now)
      (hdays : 0 < mb.retentionDays) (hdoomed : mb.doomedIn s now = .ok doomed) :
      Change mb s op (.ok (.count (s.removeObjects (Sorting.sorted doomed)).1))
        (s.removeObjects (Sorting.sorted doomed)).2

/-! ## The parts of a successful answer -/

namespace Mailbox

theorem actorIn_ok_iff (mb : Mailbox) (s : InMemoryStore) (caller : String)
    (actor : ActorRecord) : mb.actorIn s caller = .ok actor ↔
      mb.local_ caller = .ok actor.name ∧ s.actors.lookup actor.name = some actor := by
  unfold actorIn
  cases hname : mb.local_ caller with
  | error e => simp
  | ok resolved =>
    cases hactor : s.actors.lookup resolved with
    | none =>
      simp only [ok_bind, hactor, except_throw, reduceCtorEq, Except.ok.injEq, false_iff, not_and]
      rintro rfl
      simp [hactor]
    | some found =>
      have hkey := s.actor_key resolved found hactor
      simp only [ok_bind, hactor, except_pure, Except.ok.injEq]
      constructor
      · rintro rfl
        exact ⟨hkey.symm, by rw [hkey, hactor]⟩
      · rintro ⟨rfl, hfound⟩
        rw [hactor] at hfound
        exact Option.some.inj hfound

theorem actorIn_of_local {mb : Mailbox} {s : InMemoryStore} {caller me : String}
    {actor : ActorRecord} (hlocal : mb.local_ caller = .ok me)
    (hme : s.actors.lookup me = some actor) : mb.actorIn s caller = .ok actor := by
  have hname := s.actor_key me actor hme
  exact (mb.actorIn_ok_iff s caller actor).mpr (by rw [hname]; exact ⟨hlocal, hme⟩)

theorem contextIn_ok_iff (mb : Mailbox) (s : InMemoryStore) (ctx : Context) :
    mb.contextIn s = .ok ctx ↔ ctx.allActors = s.actors.values.map ActorRecord.name ∧
      groupMemberships mb.unicode s.actors.values = .ok ctx.memberships := by
  unfold contextIn
  cases hmembers : groupMemberships mb.unicode s.actors.values with
  | error e => simp [Except.map]
  | ok memberships =>
    obtain ⟨allActors, found⟩ := ctx
    simp only [Except.map, Except.ok.injEq, Context.mk.injEq]
    constructor <;> rintro ⟨hnames, hfound⟩ <;> exact ⟨hnames.symm, hfound⟩

theorem visibleIn_ok_iff (mb : Mailbox) (s : InMemoryStore) (caller objectId : String)
    (obj : ObjectRecord) : mb.visibleIn s caller objectId = .ok obj ↔
      ∃ actor ctx, mb.actorIn s caller = .ok actor ∧ s.objects.lookup objectId = some obj ∧
        mb.contextIn s = .ok ctx ∧ isPartyTo ctx obj actor.name = true := by
  unfold visibleIn
  constructor
  · intro h
    obtain ⟨actor, hactor, h⟩ := bind_eq_ok.mp h
    cases hobj : s.objects.lookup objectId with
    | none =>
      rw [hobj] at h
      cases h
    | some found =>
      rw [hobj] at h
      obtain ⟨ctx, hctx, h⟩ := bind_eq_ok.mp h
      split_ifs at h with hparty
      cases h
      exact ⟨actor, ctx, hactor, rfl, hctx, hparty⟩
  · rintro ⟨actor, ctx, hactor, hobj, hctx, hparty⟩
    rw [hactor, ok_bind, hobj]
    dsimp only
    rw [hctx, ok_bind, if_pos hparty]
    rfl

theorem unreadIn_ok {mb : Mailbox} {s : InMemoryStore} {caller : String}
    {waiting : List ObjectRecord} (h : mb.unreadIn s caller = .ok waiting) :
    ∃ actor ctx, mb.actorIn s caller = .ok actor ∧ mb.contextIn s = .ok ctx ∧
      waiting = unread ctx s.objectList actor.name
        (readIds actor.name (s.readsOf (s.objectList.map ObjectRecord.id))) := by
  obtain ⟨actor, hactor, h⟩ := bind_eq_ok.mp h
  obtain ⟨ctx, hctx, h⟩ := bind_eq_ok.mp h
  exact ⟨actor, ctx, hactor, hctx, (Except.ok.inj h).symm⟩

theorem threadIn_ok {mb : Mailbox} {s : InMemoryStore} {caller rootId : String}
    {turns : List ObjectRecord} (h : mb.threadIn s caller rootId = .ok turns) :
    ∃ actor ctx, mb.actorIn s caller = .ok actor ∧ mb.contextIn s = .ok ctx ∧
      turns = visibleTurns ctx s.objectList rootId actor.name := by
  obtain ⟨actor, hactor, h⟩ := bind_eq_ok.mp h
  obtain ⟨ctx, hctx, h⟩ := bind_eq_ok.mp h
  exact ⟨actor, ctx, hactor, hctx, (Except.ok.inj h).symm⟩

/-! What is handed over is stored. -/

theorem visibleIn_stored {mb : Mailbox} {s : InMemoryStore} {caller objectId : String}
    {obj : ObjectRecord} (h : mb.visibleIn s caller objectId = .ok obj) :
    s.objects.lookup objectId = some obj := by
  obtain ⟨_, _, _, hobj, _⟩ := (mb.visibleIn_ok_iff s caller objectId obj).mp h
  exact hobj

theorem unreadIn_stored {mb : Mailbox} {s : InMemoryStore} {caller : String}
    {waiting : List ObjectRecord} (h : mb.unreadIn s caller = .ok waiting) {obj : ObjectRecord}
    (hobj : obj ∈ waiting) : s.objects.lookup obj.id = some obj := by
  obtain ⟨actor, ctx, _, _, rfl⟩ := unreadIn_ok h
  exact (s.mem_objectList obj).mp (List.mem_of_mem_filter hobj)

theorem threadIn_stored {mb : Mailbox} {s : InMemoryStore} {caller rootId : String}
    {turns : List ObjectRecord} (h : mb.threadIn s caller rootId = .ok turns) {obj : ObjectRecord}
    (hobj : obj ∈ turns) : s.objects.lookup obj.id = some obj := by
  obtain ⟨actor, ctx, _, _, rfl⟩ := threadIn_ok h
  exact (s.mem_objectList obj).mp (List.mem_of_mem_filter (List.mem_of_mem_filter hobj))

/-- A sending succeeds exactly when the caller has joined, every address is in
reach and every name is known; and then this is what it stores. -/
theorem sendIn_ok_iff (mb : Mailbox) (s : InMemoryStore) (caller : String) (draft : Draft)
    (stamp : Stamp) (obj : ObjectRecord) : mb.sendIn s caller draft stamp = .ok obj ↔
      ∃ actor recipients copies ctx, mb.actorIn s caller = .ok actor ∧
        mb.localAll draft.to_.toList = .ok recipients ∧ mb.localAll draft.cc = .ok copies ∧
        mb.contextIn s = .ok ctx ∧ missingNames (recipients ++ copies) ctx = [] ∧
        obj = compose ctx actor.name recipients copies
          (attachIn s ctx actor.name draft.inReplyTo) draft stamp := by
  unfold sendIn
  constructor
  · intro h
    obtain ⟨actor, hactor, h⟩ := bind_eq_ok.mp h
    obtain ⟨recipients, hto, h⟩ := bind_eq_ok.mp h
    obtain ⟨copies, hcc, h⟩ := bind_eq_ok.mp h
    obtain ⟨ctx, hctx, h⟩ := bind_eq_ok.mp h
    obtain ⟨_, hchecked, h⟩ := bind_eq_ok.mp h
    unfold rejectUnknownRecipients at hchecked
    dsimp only at hchecked
    split_ifs at hchecked with hknown
    exact ⟨actor, recipients, copies, ctx, hactor, hto, hcc, hctx, hknown,
      (Except.ok.inj h).symm⟩
  · rintro ⟨actor, recipients, copies, ctx, hactor, hto, hcc, hctx, hknown, rfl⟩
    have hchecked : rejectUnknownRecipients (recipients ++ copies) ctx = .ok () := if_pos hknown
    rw [hactor, ok_bind, hto, ok_bind, hcc, ok_bind, hctx, ok_bind, hchecked]
    rfl

/-- The parent a message is stored with is a stored message the sender is party to. -/
theorem attachIn_some {s : InMemoryStore} {ctx : Context} {sender : String}
    {inReplyTo : Option String} {parent : String}
    (h : attachIn s ctx sender inReplyTo = some parent) : inReplyTo = some parent ∧
      ∃ obj, s.objects.lookup parent = some obj ∧ isPartyTo ctx obj sender = true := by
  cases inReplyTo with
  | none => simp [attachIn] at h
  | some wanted =>
    unfold attachIn mayAttachTo at h
    cases hfind : s.objectList.find? (fun obj => obj.id = wanted) with
    | none => simp [hfind] at h
    | some obj =>
      simp only [hfind, Option.ite_none_right_eq_some, Option.some.injEq] at h
      obtain ⟨hparty, rfl⟩ := h
      have hid : obj.id = wanted := by simpa using List.find?_some hfind
      have hmem := (s.mem_objectList obj).mp (List.mem_of_find?_eq_some hfind)
      rw [hid] at hmem
      exact ⟨rfl, obj, hmem, hparty⟩

end Mailbox

/-! ## One change at most -/

section
variable (mb : Mailbox) (s : InMemoryStore)

open InMemoryStore in
/-- Claiming a name files the record, if the name is free. -/
lemma change_claim {op : Operation} {actor : ActorRecord} (hname : Usable actor.name)
    (htype : actor.actorType = .service) (hgroups : "groups" ∉ actor.profile)
    (hmint : op.minted = none) (hclaim : (s.claimName actor).1 = true) :
    Change mb s op (.ok (.actor actor)) (s.claimName actor).2 := by
  unfold claimName at hclaim ⊢
  split_ifs at hclaim ⊢ with hfree
  exact .created actor hname hfree htype hgroups hmint

lemma claimName_refused {actor : ActorRecord} (hclaim : (s.claimName actor).1 = false) :
    (s.claimName actor).2 = s := by
  unfold InMemoryStore.claimName at hclaim ⊢
  split_ifs at hclaim ⊢
  rfl

lemma change_joinIssued (draw : ℕ → Naming.Draw) (now : DateTime) {op : Operation}
    (hmint : op.minted = none) (remaining attempt : ℕ) :
    Change mb s op (runs (Result.actor <$> Mailbox.joinIssued draw now remaining attempt) s).1
      (runs (Result.actor <$> Mailbox.joinIssued draw now remaining attempt) s).2 := by
  induction remaining generalizing attempt with
  | zero => exact .unchanged _ (by simp [hmint])
  | succ remaining ih =>
    have hname := (Naming.generate_canonical (draw attempt)).usable
    simp only [runs_map, Mailbox.joinIssued, runs_bind, runs_claimName] at ih ⊢
    cases hclaim : (s.claimName
        (Mailbox.newActor (Naming.generate (draw attempt)) now)).1 with
    | true => exact change_claim mb s hname rfl (AList.notMem_empty _) hmint hclaim
    | false =>
      rw [claimName_refused s hclaim]
      exact ih (attempt + 1)

lemma change_join (requestedName : Option String) (draw : ℕ → Naming.Draw) (now : DateTime) :
    Change mb s (.join requestedName draw now)
      (runs (Result.actor <$> mb.join requestedName draw now) s).1
      (runs (Result.actor <$> mb.join requestedName draw now) s).2 := by
  cases requestedName with
  | none => exact change_joinIssued mb s draw now rfl nameAttempts 0
  | some requested =>
    simp only [runs_map, Mailbox.join, runs_bind, runs_ofExcept]
    cases hvalid : Naming.validate mb.unicode requested with
    | error e => exact .unchanged _ (by simp [Operation.minted])
    | ok name =>
      have hname := (Naming.validate_canonical hvalid).usable
      simp only [runs_claimName]
      cases hclaim : (s.claimName (Mailbox.newActor name now)).1 with
      | true => exact change_claim mb s hname rfl (AList.notMem_empty _) rfl hclaim
      | false =>
        rw [claimName_refused s hclaim]
        exact .unchanged _ (by simp [Operation.minted])

lemma change_installResident (name : String) (profile : JsonObject) (now : DateTime)
    (hadm : (Operation.installResident name profile now).StandingOnly) :
    Change mb s (.installResident name profile now)
      (runs (Result.actor <$> Mailbox.installResident name profile now) s).1
      (runs (Result.actor <$> Mailbox.installResident name profile now) s).2 := by
  simp only [runs_map, Mailbox.installResident, runs_bind, runs_claimName]
  cases hclaim : (s.claimName { Mailbox.newActor name now with profile := profile }).1 with
  | true =>
    have hname : Usable name := usable_resident hadm.1
    exact change_claim mb s hname rfl hadm.2 rfl hclaim
  | false =>
    rw [claimName_refused s hclaim]
    cases hactor : s.actors.lookup name with
    | none =>
      simp only [Bool.false_eq_true, if_false, runs_bind, runs_getActor, hactor]
      exact .unchanged _ (by simp [Operation.minted])
    | some existing =>
      simp only [Bool.false_eq_true, if_false, runs_bind, runs_getActor, hactor]
      exact .unchanged _ (by simp [Operation.minted])

end

/-- What an operation does is one change, whatever id a sending mints. -/
theorem step_change_standing (mb : Mailbox) {op : Operation} (s : InMemoryStore)
    (hstanding : op.StandingOnly) : Change mb s op (op.step mb s).1 (op.step mb s).2 := by
  change Change mb s op (runs (op.program mb) s).1 (runs (op.program mb) s).2
  cases op with
  | join requestedName draw now => exact change_join mb s requestedName draw now
  | whois name => exact .unchanged _ (by simp [Operation.minted])
  | directory => exact .unchanged _ (by simp [Operation.minted])
  | updateProfile caller profile now =>
    simp only [Operation.program, runs_map, Mailbox.runs_updateProfile]
    cases hactor : mb.actorIn s caller with
    | error e => exact .unchanged _ (by simp [Operation.minted])
    | ok actor => exact .profiled caller profile now actor rfl hactor
  | installResident name profile now =>
    exact change_installResident mb s name profile now hstanding
  | send caller draft stamp =>
    simp only [Operation.program, runs_map, Mailbox.runs_send]
    cases hobj : mb.sendIn s caller draft stamp with
    | error e => exact .unchanged _ fun _ => ⟨e, rfl⟩
    | ok obj => exact .sent caller draft stamp obj rfl rfl hobj
  | reply caller objectId body subject stamp =>
    simp only [Operation.program, runs_map, Mailbox.runs_reply, Mailbox.replyIn]
    cases horiginal : mb.visibleIn s caller objectId with
    | error e => exact .unchanged _ fun _ => ⟨e, rfl⟩
    | ok original =>
      simp only [ok_bind]
      cases hobj : mb.sendIn s caller (mb.replyDraft original body subject) stamp with
      | error e => exact .unchanged _ fun _ => ⟨e, rfl⟩
      | ok obj =>
        have hdraft : (Operation.reply caller objectId body subject stamp).drafted mb s =
            .ok (some (caller, mb.replyDraft original body subject)) := by
          simp [Operation.drafted, horiginal, Except.map]
        exact .sent caller _ stamp obj rfl hdraft hobj
  | peek caller =>
    simp only [Operation.program, runs_map, Mailbox.runs_peek]
    exact .unchanged _ (by simp [Operation.minted])
  | unreadCount caller =>
    simp only [Operation.program, runs_map, Mailbox.runs_unreadCount]
    exact .unchanged _ (by simp [Operation.minted])
  | read caller objectId now =>
    simp only [Operation.program, runs_map, Mailbox.runs_read]
    cases hactor : mb.actorIn s caller with
    | error e => exact .unchanged _ (by simp [Operation.minted])
    | ok actor =>
      cases hobj : mb.visibleIn s caller objectId with
      | error e => exact .unchanged _ (by simp [Operation.minted])
      | ok obj => exact .consumed caller objectId now actor obj rfl hactor hobj
  | thread caller rootId =>
    simp only [Operation.program, runs_map, Mailbox.runs_thread]
    exact .unchanged _ (by simp [Operation.minted])
  | view caller objectId =>
    simp only [Operation.program, Mailbox.view, runs_map, Mailbox.runs_visibleObject]
    exact .unchanged _ (by simp [Operation.minted])
  | expire now =>
    by_cases hdays : 0 < mb.retentionDays
    · simp only [Operation.program, runs_map, Mailbox.runs_expire mb s now hdays]
      cases hdoomed : mb.doomedIn s now with
      | error e => exact .unchanged _ (by simp [Operation.minted])
      | ok doomed => exact .expired now doomed rfl hdays hdoomed
    · simp only [Operation.program, Mailbox.expire, if_pos (not_lt.mp hdays), runs_map, runs_pure]
      exact .unchanged _ (by simp [Operation.minted])

theorem step_change (mb : Mailbox) {op : Operation} {s : InMemoryStore}
    (hadm : op.Admissible s) : Change mb s op (op.step mb s).1 (op.step mb s).2 :=
  step_change_standing mb s hadm.standing

/-- Installing a resident never raises. -/
lemma installResident_ok (mb : Mailbox) (s : InMemoryStore) (name : String) (profile : JsonObject)
    (now : DateTime) :
    ∃ result, ((Operation.installResident name profile now).step mb s).1 = .ok result := by
  simp only [Operation.step_eq_runs, Operation.program, runs_map, Mailbox.installResident,
    runs_bind, runs_claimName]
  cases (s.claimName { Mailbox.newActor name now with profile := profile }).1 with
  | true => exact ⟨_, rfl⟩
  | false =>
    generalize (s.claimName { Mailbox.newActor name now with profile := profile }).2 = claimed
    simp only [Bool.false_eq_true, if_false, runs_bind, runs_getActor]
    cases claimed.actors.lookup name with
    | none => exact ⟨_, rfl⟩
    | some existing => exact ⟨_, rfl⟩

/-- Installing a resident claims its name, and writes nothing else. -/
lemma installResident_state (mb : Mailbox) (s : InMemoryStore) (name : String)
    (profile : JsonObject) (now : DateTime) :
    ((Operation.installResident name profile now).step mb s).2 =
      (s.claimName { Mailbox.newActor name now with profile := profile }).2 := by
  simp only [Operation.step_eq_runs, Operation.program, runs_map, Mailbox.installResident,
    runs_bind, runs_claimName]
  cases (s.claimName { Mailbox.newActor name now with profile := profile }).1 with
  | true => rfl
  | false =>
    simp only [Bool.false_eq_true, if_false, runs_bind, runs_getActor]
    split <;> rfl

/-- An operation that raises leaves the store as it was. -/
theorem step_error (mb : Mailbox) {op : Operation} {s : InMemoryStore} {e : Raised}
    (h : (op.step mb s).1 = .error e) : (op.step mb s).2 = s := by
  have hstanding : op.StandingOnly := by
    cases op with
    | installResident name profile now =>
      obtain ⟨result, hresult⟩ := installResident_ok mb s name profile now
      rw [hresult] at h
      cases h
    | _ => trivial
  have hchange := step_change_standing mb s hstanding
  rw [h] at hchange
  generalize (op.step mb s).2 = s' at hchange
  cases hchange
  rfl

end AgentMailbox
