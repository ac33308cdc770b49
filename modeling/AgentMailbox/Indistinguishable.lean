import AgentMailbox.Renaming

/-!
# Absent and forbidden

Two states that look the same to an actor stay so under everything the actor does, and
answer it alike: whether a message it may not see exists makes no difference. The one
thing that gives it away is a profile that breaks the question who is party to a
message, since that question is put only of messages that exist.
-/
namespace AgentMailbox

/-- A mail operation of the actor `me`. -/
def Operation.OwnOf (mb : Mailbox) (me : String) : Operation → Prop
  | .peek caller | .unreadCount caller | .view caller _ | .read caller _ _
  | .reply caller _ _ _ _ | .send caller _ _ => mb.local_ caller = .ok me
  | _ => False

/-- The caller's read records on its own messages are the same. -/
def SameReads (mb : Mailbox) (caller : String) (s t : InMemoryStore) : Prop :=
  ∀ obj, PartyIn mb s caller obj → s.objects.lookup obj.id = some obj →
    ∀ me, mb.local_ caller = .ok me → t.readBy obj.id me = s.readBy obj.id me

/-- What `me` can see in `t` is what it can see in `s`, up to the renaming of messages it
has sent. -/
structure Alike (ctx : Context) (me : String) (f : Equiv.Perm String) (s t : InMemoryStore) :
    Prop where
  directory : t.actors = s.actors
  seen : ∀ id, t.visibleAt ctx me (f id) =
    (s.visibleAt ctx me id).map (ObjectRecord.renamed f)
  received : ∀ id obj, s.visibleAt ctx me id = some obj → deliversTo ctx obj me = true →
    obj.renamed f = obj
  reads : ∀ id obj, s.visibleAt ctx me id = some obj →
    (t.readBy (f id) me).isSome = (s.readBy id me).isSome

section
variable {mb : Mailbox} {ctx : Context} {me : String} {f : Equiv.Perm String}
  {s t : InMemoryStore}

lemma not_deliversTo_self (ctx : Context) (obj : ObjectRecord) :
    deliversTo ctx obj obj.attributedTo = false := by
  simp [deliversTo, recipientsOf]

lemma isPartyTo_of_deliversTo {obj : ObjectRecord} (h : deliversTo ctx obj me = true) :
    isPartyTo ctx obj me = true := by
  rw [isPartyTo, h, Bool.or_true]

lemma isPartyTo_self (ctx : Context) (obj : ObjectRecord) :
    isPartyTo ctx obj obj.attributedTo = true := by
  simp [isPartyTo]

/-! ## Writes -/

lemma visibleAt_addObject (s : InMemoryStore) (obj : ObjectRecord) (id : String) :
    (s.addObject obj).visibleAt ctx me id =
      if id = obj.id then (some obj).filter (isPartyTo ctx · me) else s.visibleAt ctx me id := by
  unfold InMemoryStore.visibleAt
  rw [InMemoryStore.addObject_objects, Dict.lookup_set]
  split_ifs <;> rfl

lemma visibleAt_markRead (s : InMemoryStore) (read : ReadRecord) (id : String) :
    (s.markRead read).2.visibleAt ctx me id = s.visibleAt ctx me id := by
  unfold InMemoryStore.visibleAt
  rw [InMemoryStore.markRead_objects]

lemma readBy_none {s : InMemoryStore} (hs : Consistent s) {id : String} (h : id ∉ s.objects)
    (me : String) : s.readBy id me = none := by
  have hread : id ∉ s.reads := fun hmem => h (hs.reads id hmem)
  rw [InMemoryStore.readBy, AList.lookup_eq_none.mpr hread, Option.bind_none]

theorem Alike.addObject (h : Alike ctx me f s t) (hs : Consistent s) (ht : Consistent t)
    {obj : ObjectRecord} (hown : obj.attributedTo = me) (hfree : obj.id ∉ s.objects)
    (hfree' : f obj.id ∉ t.objects) :
    Alike ctx me f (s.addObject obj) (t.addObject (obj.renamed f)) := by
  subst hown
  have hid : (obj.renamed f).id = f obj.id := rfl
  have hnew : (some obj).filter (isPartyTo ctx · obj.attributedTo) = some obj :=
    Option.filter_eq_some_iff.mpr ⟨rfl, isPartyTo_self ctx obj⟩
  have hnew' : (some (obj.renamed f)).filter (isPartyTo ctx · obj.attributedTo) =
      some (obj.renamed f) := Option.filter_eq_some_iff.mpr ⟨rfl, isPartyTo_self ctx obj⟩
  refine ⟨h.directory, fun id => ?_, fun id other hother hdelivered => ?_,
    fun id other hother => ?_⟩
  · rw [visibleAt_addObject, visibleAt_addObject, hid, hnew, hnew']
    by_cases heq : id = obj.id
    · simp [heq]
    · simpa [heq] using h.seen id
  · rw [visibleAt_addObject, hnew] at hother
    split_ifs at hother with heq
    · cases hother
      rw [not_deliversTo_self] at hdelivered
      cases hdelivered
    · exact h.received id other hother hdelivered
  · rw [visibleAt_addObject] at hother
    change (t.readBy (f id) obj.attributedTo).isSome = (s.readBy id obj.attributedTo).isSome
    split_ifs at hother with heq
    · rw [heq, readBy_none hs hfree, readBy_none ht hfree']
    · exact h.reads id other hother

theorem Alike.markRead (h : Alike ctx me f s t) (id at_ : String) :
    Alike ctx me f (s.markRead ⟨id, me, at_⟩).2 (t.markRead ⟨f id, me, at_⟩).2 := by
  refine ⟨?_, fun x => ?_, fun x obj hobj => ?_, fun x obj hobj => ?_⟩
  · simpa using h.directory
  · rw [visibleAt_markRead, visibleAt_markRead]
    exact h.seen x
  · rw [visibleAt_markRead] at hobj
    exact h.received x obj hobj
  · rw [visibleAt_markRead] at hobj
    rw [InMemoryStore.readBy_markRead, InMemoryStore.readBy_markRead]
    by_cases heq : x = id
    · simp [heq]
    · simpa [heq] using h.reads x obj hobj

/-! ## Questions -/

section
variable {caller : String} {actor : ActorRecord}

lemma Alike.visibleIn (h : Alike ctx me f s t) (hctx : mb.contextIn s = .ok ctx)
    (hactor : mb.actorIn s caller = .ok actor) (hname : actor.name = me) (id : String) :
    mb.visibleIn t caller (f id) =
      renamedOutcome f (ObjectRecord.renamed f) (mb.visibleIn s caller id) := by
  have hctx' : mb.contextIn t = .ok ctx := by rw [mb.contextIn_congr h.directory, hctx]
  have hactor' : mb.actorIn t caller = .ok actor := by rw [mb.actorIn_congr h.directory, hactor]
  rw [mb.visibleIn_eq hctx hactor, mb.visibleIn_eq hctx' hactor', hname, h.seen]
  cases s.visibleAt ctx me id <;> rfl

lemma Alike.attachIn (h : Alike ctx me f s t) (inReplyTo : Option String) :
    Mailbox.attachIn t ctx me (inReplyTo.map f) = (Mailbox.attachIn s ctx me inReplyTo).map f := by
  rw [Mailbox.attachIn_eq, Mailbox.attachIn_eq]
  cases inReplyTo with
  | none => rfl
  | some parent =>
    rw [Option.map_some, Option.filter_some, Option.filter_some, h.seen, Option.isSome_map]
    split_ifs <;> rfl

lemma Alike.sendIn (h : Alike ctx me f s t) (hctx : mb.contextIn s = .ok ctx)
    (hactor : mb.actorIn s caller = .ok actor) (hname : actor.name = me) (draft : Draft)
    (stamp : Stamp) : mb.sendIn t caller (draft.renamed f) (stamp.renamed f) =
      renamedOutcome f (ObjectRecord.renamed f) (mb.sendIn s caller draft stamp) := by
  unfold Mailbox.sendIn
  rw [mb.actorIn_congr h.directory, mb.contextIn_congr h.directory, hactor, hctx]
  simp only [ok_bind, Draft.renamed]
  cases hto : mb.localAll draft.to_.toList with
  | error e => exact congrArg Except.error (localAll_namesNoMessage hto f).symm
  | ok recipients =>
    cases hcc : mb.localAll draft.cc with
    | error e => exact congrArg Except.error (localAll_namesNoMessage hcc f).symm
    | ok copies =>
      simp only [ok_bind]
      cases hknown : Mailbox.rejectUnknownRecipients (recipients ++ copies) ctx with
      | error e => exact congrArg Except.error (rejectUnknown_namesNoMessage hknown f).symm
      | ok _ =>
        rw [hname, h.attachIn]
        rfl

lemma Alike.replyIn (h : Alike ctx me f s t) (hctx : mb.contextIn s = .ok ctx)
    (hactor : mb.actorIn s caller = .ok actor) (hname : actor.name = me) (id body : String)
    (subject : Option String) (stamp : Stamp) :
    mb.replyIn t caller (f id) body subject (stamp.renamed f) =
      renamedOutcome f (ObjectRecord.renamed f) (mb.replyIn s caller id body subject stamp) := by
  unfold Mailbox.replyIn
  rw [h.visibleIn hctx hactor hname]
  cases mb.visibleIn s caller id with
  | error e => rfl
  | ok original =>
    rw [renamedOutcome_ok, ok_bind, ok_bind, replyDraft_renamed]
    exact h.sendIn hctx hactor hname (mb.replyDraft original body subject) stamp

/-- What was delivered to the actor is literally the same in both states. -/
lemma Alike.delivered (h : Alike ctx me f s t) {obj : ObjectRecord}
    (hobj : s.objects.lookup obj.id = some obj) (hdelivered : deliversTo ctx obj me = true) :
    obj.renamed f = obj ∧ t.objects.lookup obj.id = some obj ∧
      (t.readBy obj.id me).isSome = (s.readBy obj.id me).isSome := by
  have hvisible := (s.visibleAt_eq_some ctx me obj.id obj).mpr
    ⟨hobj, isPartyTo_of_deliversTo hdelivered⟩
  have hfixed := h.received obj.id obj hvisible hdelivered
  have hid : f obj.id = obj.id := congrArg ObjectRecord.id hfixed
  have hseen := h.seen obj.id
  have hreads := h.reads obj.id obj hvisible
  rw [hvisible, Option.map_some, hfixed, hid] at hseen
  rw [hid] at hreads
  exact ⟨hfixed, ((t.visibleAt_eq_some ctx me obj.id obj).mp hseen).1, hreads⟩

lemma Alike.delivered_back (h : Alike ctx me f s t) {obj : ObjectRecord}
    (hobj : t.objects.lookup obj.id = some obj) (hdelivered : deliversTo ctx obj me = true) :
    s.objects.lookup obj.id = some obj := by
  have hvisible := (t.visibleAt_eq_some ctx me obj.id obj).mpr
    ⟨hobj, isPartyTo_of_deliversTo hdelivered⟩
  have hseen := h.seen (f.symm obj.id)
  rw [f.apply_symm_apply, hvisible] at hseen
  obtain ⟨old, hold, hrenamed⟩ := Option.map_eq_some_iff.mp hseen.symm
  have hdelivered' : deliversTo ctx old me = true := by
    rw [← deliversTo_renamed ctx f old me, hrenamed]
    exact hdelivered
  have hsame : old = obj := (h.received _ old hold hdelivered').symm.trans hrenamed
  subst hsame
  have hstored := ((s.visibleAt_eq_some ctx me _ old).mp hold).1
  have hid := s.object_key _ old hstored
  rwa [hid]

lemma mem_readIds_iff (u : InMemoryStore) (me : String) {obj : ObjectRecord}
    (hobj : u.objects.lookup obj.id = some obj) :
    obj.id ∈ Mailbox.readIds me (u.readsOf (u.objectList.map ObjectRecord.id)) ↔
      (u.readBy obj.id me).isSome = true := by
  rw [Mailbox.mem_readIds]
  have hlisted : obj.id ∈ u.objectList.map ObjectRecord.id :=
    List.mem_map_of_mem ((u.mem_objectList obj).mpr hobj)
  exact ⟨And.right, fun hread => ⟨hlisted, hread⟩⟩

/-- What waits for the actor was sent by others, and is literally the same. -/
lemma Alike.unreadIn (h : Alike ctx me f s t) (hctx : mb.contextIn s = .ok ctx)
    (hactor : mb.actorIn s caller = .ok actor) (hname : actor.name = me) :
    mb.unreadIn t caller =
      renamedOutcome f (List.map (ObjectRecord.renamed f)) (mb.unreadIn s caller) := by
  unfold Mailbox.unreadIn
  rw [mb.actorIn_congr h.directory, mb.contextIn_congr h.directory, hactor, hctx]
  simp only [ok_bind, except_pure, renamedOutcome, hname, Except.ok.injEq]
  have hlists : unread ctx t.objectList me
      (Mailbox.readIds me (t.readsOf (t.objectList.map ObjectRecord.id))) =
      unread ctx s.objectList me
        (Mailbox.readIds me (s.readsOf (s.objectList.map ObjectRecord.id))) := by
    unfold unread
    rw [InMemoryStore.filter_objectList_eq]
    intro obj
    simp only [Bool.and_eq_true, decide_eq_true_eq]
    constructor
    · rintro ⟨hobj', hnew, hdelivered⟩
      have hobj := h.delivered_back hobj' hdelivered
      obtain ⟨_, _, hreads⟩ := h.delivered hobj hdelivered
      rw [mem_readIds_iff t me hobj', hreads, ← mem_readIds_iff s me hobj] at hnew
      exact ⟨hobj, hnew, hdelivered⟩
    · rintro ⟨hobj, hnew, hdelivered⟩
      obtain ⟨_, hobj', hreads⟩ := h.delivered hobj hdelivered
      rw [mem_readIds_iff s me hobj, ← hreads, ← mem_readIds_iff t me hobj'] at hnew
      exact ⟨hobj', hnew, hdelivered⟩
  rw [hlists]
  refine ((List.map_congr_left fun obj hobj => ?_).trans (List.map_id _)).symm
  obtain ⟨hmem, hselected⟩ := List.mem_filter.mp hobj
  exact (h.delivered ((s.mem_objectList obj).mp hmem) (Bool.and_eq_true_iff.mp hselected).2).1

end

/-! ## One operation, and sequences of them -/

lemma renamedOutcome_map {α : Type} (f : String → String) (wrap : α → Result) (g : α → α)
    (hwrap : ∀ a, (wrap a).renamed f = wrap (g a)) (x : Except Raised α) :
    renamedOutcome f (Result.renamed f) (x.map wrap) = (renamedOutcome f g x).map wrap := by
  cases x with
  | error e => rfl
  | ok a => exact congrArg Except.ok (hwrap a)

/-- A reply that goes out is a message its sender sent. -/
lemma sendIn_of_replyIn {caller objectId body : String} {subject : Option String} {stamp : Stamp}
    {obj : ObjectRecord} (h : mb.replyIn s caller objectId body subject stamp = .ok obj) :
    ∃ draft, mb.sendIn s caller draft stamp = .ok obj := by
  unfold Mailbox.replyIn at h
  cases horiginal : mb.visibleIn s caller objectId with
  | error e => simp [horiginal] at h
  | ok original =>
    rw [horiginal, ok_bind] at h
    exact ⟨_, h⟩

/-- A message of the actor's, stored under a fresh id in both states, leaves them alike. -/
lemma Alike.addSent (h : Alike ctx me f s t) (hs : Consistent s) (ht : Consistent t)
    {caller : String} {draft : Draft} {stamp : Stamp} {obj : ObjectRecord}
    (hobj : mb.sendIn s caller draft stamp = .ok obj) (hown : mb.local_ caller = .ok me)
    (hfree : stamp.id ∉ s.objects) (hfree' : f stamp.id ∉ t.objects) :
    Alike ctx me f (s.addObject obj) (t.addObject (obj.renamed f)) := by
  have hspec := mb.sendIn_spec hobj
  have hsender : obj.attributedTo = me := Except.ok.inj (hspec.sender.symm.trans hown)
  refine h.addObject hs ht hsender ?_ ?_ <;> rw [hspec.id_eq]
  · exact hfree
  · exact hfree'

/-- An operation of the actor's answers alike in both states and leaves them alike. -/
theorem Alike.step (h : Alike ctx me f s t) (hctx : mb.contextIn s = .ok ctx)
    {actor : ActorRecord} (hme : s.actors.lookup me = some actor) (hs : Consistent s)
    (ht : Consistent t) {op : Operation} (hown : op.OwnOf mb me) (hadm : op.Admissible s)
    (hadm' : (op.renamed f).Admissible t) :
    ((op.renamed f).step mb t).1 = renamedOutcome f (Result.renamed f) (op.step mb s).1 ∧
      Alike ctx me f (op.step mb s).2 ((op.renamed f).step mb t).2 := by
  have hname : actor.name = me := s.actor_key me actor hme
  have hme' : t.actors.lookup me = some actor := by rw [h.directory, hme]
  cases op with
  | peek caller =>
    have hactor := Mailbox.actorIn_of_local hown hme
    change ((Operation.peek caller).step mb t).1 = _ ∧
      Alike ctx me f _ ((Operation.peek caller).step mb t).2
    rw [Operation.step_peek, Operation.step_peek, h.unreadIn hctx hactor hname]
    dsimp only
    rw [renamedOutcome_map f .messages (List.map (ObjectRecord.renamed f)) fun _ => rfl]
    exact ⟨rfl, h⟩
  | unreadCount caller =>
    have hactor := Mailbox.actorIn_of_local hown hme
    change ((Operation.unreadCount caller).step mb t).1 = _ ∧
      Alike ctx me f _ ((Operation.unreadCount caller).step mb t).2
    rw [Operation.step_unreadCount, Operation.step_unreadCount, h.unreadIn hctx hactor hname]
    refine ⟨?_, h⟩
    cases mb.unreadIn s caller with
    | error e => rfl
    | ok waiting => simp [renamedOutcome, Except.map, Result.renamed]
  | view caller objectId =>
    have hactor := Mailbox.actorIn_of_local hown hme
    change ((Operation.view caller (f objectId)).step mb t).1 = _ ∧
      Alike ctx me f _ ((Operation.view caller (f objectId)).step mb t).2
    rw [Operation.step_view, Operation.step_view, h.visibleIn hctx hactor hname]
    dsimp only
    rw [renamedOutcome_map f .message (ObjectRecord.renamed f) fun _ => rfl]
    exact ⟨rfl, h⟩
  | read caller objectId now =>
    have hactor := Mailbox.actorIn_of_local hown hme
    have hactor' := Mailbox.actorIn_of_local hown hme'
    change ((Operation.read caller (f objectId) now).step mb t).1 = _ ∧
      Alike ctx me f _ ((Operation.read caller (f objectId) now).step mb t).2
    rw [Operation.step_read mb s now hactor, Operation.step_read mb t now hactor',
      h.visibleIn hctx hactor hname, hname]
    dsimp only
    rw [renamedOutcome_map f .message (ObjectRecord.renamed f) fun _ => rfl]
    refine ⟨rfl, ?_⟩
    cases mb.visibleIn s caller objectId with
    | error e => exact h
    | ok obj => exact h.markRead obj.id now.isoformat
  | send caller draft stamp =>
    have hactor := Mailbox.actorIn_of_local hown hme
    change ((Operation.send caller (draft.renamed f) (stamp.renamed f)).step mb t).1 = _ ∧
      Alike ctx me f _ ((Operation.send caller (draft.renamed f) (stamp.renamed f)).step mb t).2
    rw [Operation.step_send, Operation.step_send, h.sendIn hctx hactor hname]
    dsimp only
    rw [renamedOutcome_map f .message (ObjectRecord.renamed f) fun _ => rfl]
    refine ⟨rfl, ?_⟩
    cases hobj : mb.sendIn s caller draft stamp with
    | error e => exact h
    | ok obj => exact h.addSent hs ht hobj hown hadm hadm'
  | reply caller objectId body subject stamp =>
    have hactor := Mailbox.actorIn_of_local hown hme
    change ((Operation.reply caller (f objectId) body subject (stamp.renamed f)).step mb t).1 = _ ∧
      Alike ctx me f _
        ((Operation.reply caller (f objectId) body subject (stamp.renamed f)).step mb t).2
    rw [Operation.step_reply, Operation.step_reply, h.replyIn hctx hactor hname]
    dsimp only
    rw [renamedOutcome_map f .message (ObjectRecord.renamed f) fun _ => rfl]
    refine ⟨rfl, ?_⟩
    cases hobj : mb.replyIn s caller objectId body subject stamp with
    | error e => exact h
    | ok obj =>
      obtain ⟨draft, hsent⟩ := sendIn_of_replyIn hobj
      exact h.addSent hs ht hsent hown hadm hadm'
  | _ => exact absurd hown id

/-- The actor's own operations leave the directory as it was. -/
lemma own_step_actors {op : Operation} {actor : ActorRecord}
    (hme : s.actors.lookup me = some actor) (hown : op.OwnOf mb me) :
    (op.step mb s).2.actors = s.actors := by
  cases op with
  | peek caller => rw [Operation.step_peek]
  | unreadCount caller => rw [Operation.step_unreadCount]
  | view caller objectId => rw [Operation.step_view]
  | read caller objectId now =>
    rw [Operation.step_read mb s now (Mailbox.actorIn_of_local hown hme)]
    cases mb.visibleIn s caller objectId with
    | error e => rfl
    | ok obj => exact s.markRead_actors _
  | send caller draft stamp =>
    rw [Operation.step_send]
    cases mb.sendIn s caller draft stamp <;> rfl
  | reply caller objectId body subject stamp =>
    rw [Operation.step_reply]
    cases mb.replyIn s caller objectId body subject stamp <;> rfl
  | _ => exact absurd hown id

/-- Whatever the actor does from states that are alike, it observes alike. -/
theorem Alike.observed (h : Alike ctx me f s t) (hctx : mb.contextIn s = .ok ctx)
    {actor : ActorRecord} (hme : s.actors.lookup me = some actor) (hs : Consistent s)
    (ht : Consistent t) {ops : List Operation} (hown : ∀ op ∈ ops, op.OwnOf mb me)
    (hadm : Throughout mb Operation.Admissible s ops)
    (hadm' : Throughout mb Operation.Admissible t (ops.map (Operation.renamed f))) :
    observed mb t (ops.map (Operation.renamed f)) =
      (observed mb s ops).map (renamedOutcome f (Result.renamed f)) := by
  induction ops generalizing s t with
  | nil => rfl
  | cons op ops ih =>
    have hfirst := hown op List.mem_cons_self
    obtain ⟨hanswer, hnext⟩ := h.step hctx hme hs ht hfirst hadm.1 hadm'.1
    have hactors := own_step_actors hme hfirst
    have hrest := ih hnext ((mb.contextIn_congr hactors).trans hctx) (by rw [hactors, hme])
      (hs.step mb hadm.1) (ht.step mb hadm'.1) (fun op hop => hown op (List.mem_cons_of_mem _ hop))
      hadm.2 hadm'.2
    simp only [List.map_cons, AgentMailbox.observed, hanswer, hrest]

/-! ## A profile that breaks the question -/

section
variable {e : Raised}

/-- The question is put of what exists only. -/
lemma visibleIn_broken (hctx : mb.contextIn s = .error e) {caller : String} {actor : ActorRecord}
    (hactor : mb.actorIn s caller = .ok actor) (id : String) : mb.visibleIn s caller id =
      if id ∈ s.objects then .error e else .error (.mailbox (.noSuchMessage id)) := by
  rw [Mailbox.visibleIn, hactor, ok_bind]
  cases hobj : s.objects.lookup id with
  | none =>
    rw [if_neg (AList.lookup_eq_none.mp hobj)]
    rfl
  | some obj =>
    rw [if_pos ((Dict.mem_iff_lookup _ _).mpr ⟨obj, hobj⟩), hctx]
    rfl

lemma sendIn_broken (hctx : mb.contextIn s = .error e) {caller : String} {actor : ActorRecord}
    (hactor : mb.actorIn s caller = .ok actor) (draft : Draft) (stamp : Stamp) :
    mb.sendIn s caller draft stamp = (do
      let _ ← mb.localAll draft.to_.toList
      let _ ← mb.localAll draft.cc
      .error e) := by
  rw [Mailbox.sendIn, hactor, ok_bind, hctx]
  rfl

/-- The outcome of a sending where it cannot succeed. -/
lemma sendIn_broken_renamed (hctx : mb.contextIn s = .error e) (hctx' : mb.contextIn t = .error e)
    {caller : String} {actor : ActorRecord} (hactor : mb.actorIn s caller = .ok actor)
    (hactor' : mb.actorIn t caller = .ok actor) (draft : Draft) (stamp : Stamp) :
    ∃ e', mb.sendIn s caller draft stamp = .error e' ∧
      mb.sendIn t caller (draft.renamed f) (stamp.renamed f) = .error (e'.renamed f) := by
  rw [sendIn_broken hctx hactor, sendIn_broken hctx' hactor']
  change ∃ e', _ ∧ (do
    let _ ← mb.localAll draft.to_.toList
    let _ ← mb.localAll draft.cc
    .error e : Except Raised ObjectRecord) = _
  cases hto : mb.localAll draft.to_.toList with
  | error e' => exact ⟨e', rfl, congrArg _ (localAll_namesNoMessage hto f).symm⟩
  | ok recipients =>
    cases hcc : mb.localAll draft.cc with
    | error e' => exact ⟨e', rfl, congrArg _ (localAll_namesNoMessage hcc f).symm⟩
    | ok copies =>
      exact ⟨e, rfl, congrArg _ (contextIn_namesNoMessage hctx f).symm⟩

lemma unreadIn_broken (hctx : mb.contextIn s = .error e) {caller : String} {actor : ActorRecord}
    (hactor : mb.actorIn s caller = .ok actor) : mb.unreadIn s caller = .error e := by
  rw [Mailbox.unreadIn, hactor, ok_bind, hctx, error_bind]

/-- The outcome of asking for a message where it cannot be answered. -/
lemma visibleIn_broken_renamed (hctx : mb.contextIn s = .error e)
    (hctx' : mb.contextIn t = .error e) {caller : String} {actor : ActorRecord}
    (hactor : mb.actorIn s caller = .ok actor) (hactor' : mb.actorIn t caller = .ok actor)
    (hids : ∀ id, f id ∈ t.objects ↔ id ∈ s.objects) (id : String) :
    ∃ e', mb.visibleIn s caller id = .error e' ∧
      mb.visibleIn t caller (f id) = .error (e'.renamed f) := by
  rw [visibleIn_broken hctx hactor, visibleIn_broken hctx' hactor']
  simp only [hids]
  split_ifs
  · exact ⟨e, rfl, by rw [contextIn_namesNoMessage hctx]⟩
  · exact ⟨_, rfl, rfl⟩

/-- Where the question cannot be answered, states that hold messages of the same ids answer
alike, and nothing changes. -/
lemma broken_step (hctx : mb.contextIn s = .error e) (hdirectory : t.actors = s.actors)
    {actor : ActorRecord} (hme : s.actors.lookup me = some actor)
    (hids : ∀ id, f id ∈ t.objects ↔ id ∈ s.objects) {op : Operation} (hown : op.OwnOf mb me) :
    ((op.renamed f).step mb t).1 = renamedOutcome f (Result.renamed f) (op.step mb s).1 ∧
      (op.step mb s).2 = s ∧ ((op.renamed f).step mb t).2 = t := by
  have hctx' : mb.contextIn t = .error e := by rw [mb.contextIn_congr hdirectory, hctx]
  have hme' : t.actors.lookup me = some actor := by rw [hdirectory, hme]
  cases op with
  | peek caller =>
    change ((Operation.peek caller).step mb t).1 = _ ∧ _ ∧ ((Operation.peek caller).step mb t).2 = t
    rw [Operation.step_peek, Operation.step_peek,
      unreadIn_broken hctx (Mailbox.actorIn_of_local hown hme),
      unreadIn_broken hctx' (Mailbox.actorIn_of_local hown hme')]
    exact ⟨congrArg Except.error (contextIn_namesNoMessage hctx f).symm, rfl, rfl⟩
  | unreadCount caller =>
    change ((Operation.unreadCount caller).step mb t).1 = _ ∧ _ ∧
      ((Operation.unreadCount caller).step mb t).2 = t
    rw [Operation.step_unreadCount, Operation.step_unreadCount,
      unreadIn_broken hctx (Mailbox.actorIn_of_local hown hme),
      unreadIn_broken hctx' (Mailbox.actorIn_of_local hown hme')]
    exact ⟨congrArg Except.error (contextIn_namesNoMessage hctx f).symm, rfl, rfl⟩
  | view caller objectId =>
    obtain ⟨e', hs, ht⟩ := visibleIn_broken_renamed hctx hctx' (Mailbox.actorIn_of_local hown hme)
      (Mailbox.actorIn_of_local hown hme') hids objectId
    change ((Operation.view caller (f objectId)).step mb t).1 = _ ∧ _ ∧
      ((Operation.view caller (f objectId)).step mb t).2 = t
    rw [Operation.step_view, Operation.step_view, hs, ht]
    exact ⟨rfl, rfl, rfl⟩
  | read caller objectId now =>
    obtain ⟨e', hs, ht⟩ := visibleIn_broken_renamed hctx hctx' (Mailbox.actorIn_of_local hown hme)
      (Mailbox.actorIn_of_local hown hme') hids objectId
    change ((Operation.read caller (f objectId) now).step mb t).1 = _ ∧ _ ∧
      ((Operation.read caller (f objectId) now).step mb t).2 = t
    rw [Operation.step_read mb s now (Mailbox.actorIn_of_local hown hme),
      Operation.step_read mb t now (Mailbox.actorIn_of_local hown hme'), hs, ht]
    exact ⟨rfl, rfl, rfl⟩
  | send caller draft stamp =>
    obtain ⟨e', hs, ht⟩ := sendIn_broken_renamed (f := f) hctx hctx'
      (Mailbox.actorIn_of_local hown hme) (Mailbox.actorIn_of_local hown hme') draft stamp
    change ((Operation.send caller (draft.renamed f) (stamp.renamed f)).step mb t).1 = _ ∧ _ ∧
      ((Operation.send caller (draft.renamed f) (stamp.renamed f)).step mb t).2 = t
    rw [Operation.step_send, Operation.step_send, hs, ht]
    exact ⟨rfl, rfl, rfl⟩
  | reply caller objectId body subject stamp =>
    obtain ⟨e', hs, ht⟩ := visibleIn_broken_renamed hctx hctx' (Mailbox.actorIn_of_local hown hme)
      (Mailbox.actorIn_of_local hown hme') hids objectId
    change ((Operation.reply caller (f objectId) body subject (stamp.renamed f)).step mb t).1 = _ ∧
      _ ∧ ((Operation.reply caller (f objectId) body subject (stamp.renamed f)).step mb t).2 = t
    rw [Operation.step_reply, Operation.step_reply, Mailbox.replyIn, Mailbox.replyIn, hs, ht]
    exact ⟨rfl, rfl, rfl⟩
  | _ => exact absurd hown id

lemma broken_observed (hctx : mb.contextIn s = .error e) (hdirectory : t.actors = s.actors)
    {actor : ActorRecord} (hme : s.actors.lookup me = some actor)
    (hids : ∀ id, f id ∈ t.objects ↔ id ∈ s.objects) {ops : List Operation}
    (hown : ∀ op ∈ ops, op.OwnOf mb me) : observed mb t (ops.map (Operation.renamed f)) =
      (observed mb s ops).map (renamedOutcome f (Result.renamed f)) := by
  induction ops with
  | nil => rfl
  | cons op ops ih =>
    obtain ⟨hanswer, hs, ht⟩ := broken_step hctx hdirectory hme hids (hown op List.mem_cons_self)
    have hrest := ih fun op hop => hown op (List.mem_cons_of_mem _ hop)
    simp only [List.map_cons, observed, hanswer, hs, ht, hrest]

end

/-! ## When nothing can be told -/

/-- The permutation renames only ids that neither state holds. -/
def RenamesFresh (f : Equiv.Perm String) (s t : InMemoryStore) : Prop :=
  ∀ id, id ∈ s.objects ∨ id ∈ t.objects → f id = id

/-- A stored message keeps its id and its parent. -/
lemma RenamesFresh.renamed_eq (hf : RenamesFresh f s t) (hs : Consistent s) {id : String}
    {obj : ObjectRecord} (hobj : s.objects.lookup id = some obj) : obj.renamed f = obj := by
  have hid := s.object_key id obj hobj
  have hstored : obj.id ∈ s.objects :=
    (Dict.mem_iff_lookup _ _).mpr ⟨obj, by rw [hid, hobj]⟩
  have hparent : obj.inReplyTo.map f = obj.inReplyTo := by
    cases hreply : obj.inReplyTo with
    | none => rfl
    | some parent =>
      have hlink : s.replyTo id = some parent := by simp [InMemoryStore.replyTo, hobj, hreply]
      rw [Option.map_some, hf parent (Or.inl (hs.forest.parents id parent hlink))]
  rw [ObjectRecord.renamed, hf obj.id (Or.inl hstored), hparent]

/-- An id that neither state holds is renamed to one that neither state holds. -/
lemma RenamesFresh.fresh (hf : RenamesFresh f s t) {id : String} (hs : id ∉ s.objects)
    (ht : id ∉ t.objects) : f id ∉ s.objects ∧ f id ∉ t.objects := by
  have hback : f id ∈ s.objects ∨ f id ∈ t.objects → f id = id :=
    fun hmem => f.injective (hf (f id) hmem)
  constructor <;> intro hmem
  · exact hs (hback (Or.inl hmem) ▸ hmem)
  · exact ht (hback (Or.inr hmem) ▸ hmem)

/-- States that look the same to an actor are alike. -/
theorem alike_of_sameTo {caller : String} (hlocal : mb.local_ caller = .ok me)
    (hctx : mb.contextIn s = .ok ctx) (hs : Consistent s) (hsame : SameTo mb caller s t)
    (hreads : SameReads mb caller s t) (hf : RenamesFresh f s t) : Alike ctx me f s t := by
  have hparty := fun obj => partyIn_iff hlocal hctx obj
  have hsource : ∀ id obj, s.visibleAt ctx me id = some obj →
      PartyIn mb s caller obj ∧ s.objects.lookup obj.id = some obj ∧ obj.id = id ∧
        f id = id ∧ obj.renamed f = obj := by
    intro id obj hvisible
    obtain ⟨hobj, hp⟩ := (s.visibleAt_eq_some ctx me id obj).mp hvisible
    have hid := s.object_key id obj hobj
    refine ⟨(hparty obj).mpr hp, by rw [hid, hobj], hid, hf id (Or.inl ?_), hf.renamed_eq hs hobj⟩
    exact (Dict.mem_iff_lookup _ _).mpr ⟨obj, hobj⟩
  refine ⟨hsame.directory, fun id => ?_, fun id obj hvisible _ => (hsource id obj hvisible).2.2.2.2,
    fun id obj hvisible => ?_⟩
  · cases hvisible : s.visibleAt ctx me id with
    | some obj =>
      obtain ⟨hpartyIn, hobj, hid, hfix, hrenamed⟩ := hsource id obj hvisible
      rw [Option.map_some, hrenamed, hfix, InMemoryStore.visibleAt_eq_some, ← hid]
      exact ⟨(hsame.messages obj hpartyIn).mp hobj, (hparty obj).mp hpartyIn⟩
    | none =>
      rw [Option.map_none]
      by_cases hheld : id ∈ s.objects ∨ id ∈ t.objects
      · rw [hf id hheld]
        cases hvisible' : t.visibleAt ctx me id with
        | none => rfl
        | some obj =>
          obtain ⟨hobj, hp⟩ := (t.visibleAt_eq_some ctx me id obj).mp hvisible'
          have hid := t.object_key id obj hobj
          have hstored := (hsame.messages obj ((hparty obj).mpr hp)).mpr (by rw [hid, hobj])
          rw [(s.visibleAt_eq_some ctx me id obj).mpr ⟨hid ▸ hstored, hp⟩] at hvisible
          cases hvisible
      · obtain ⟨hnot, hnot'⟩ := not_or.mp hheld
        exact InMemoryStore.visibleAt_none_of_notMem (hf.fresh hnot hnot').2 ctx me
  · obtain ⟨hpartyIn, hobj, hid, hfix, _⟩ := hsource id obj hvisible
    have hsame := hreads obj hpartyIn hobj me hlocal
    rw [hfix, ← hid, hsame]

/-- Whatever the actor does, it observes the same in both states, up to the ids of the
messages it sends. -/
def ObservesAlike (mb : Mailbox) (me : String) (s t : InMemoryStore) : Prop :=
  ∀ (f : Equiv.Perm String) (ops : List Operation), RenamesFresh f s t →
    (∀ op ∈ ops, op.OwnOf mb me) → Throughout mb Operation.Admissible s ops →
    Throughout mb Operation.Admissible t (ops.map (Operation.renamed f)) →
    observed mb t (ops.map (Operation.renamed f)) =
      (observed mb s ops).map (renamedOutcome f (Result.renamed f))

/-- Two states that look the same to an actor cannot be told apart by anything it does,
exactly when every profile can be used or the states hold messages of the same ids. -/
theorem observes_alike_iff (mb : Mailbox) (caller me : String) (s t : InMemoryStore)
    (hs : Reachable mb s) (ht : Reachable mb t) (hlocal : mb.local_ caller = .ok me)
    (hjoined : me ∈ s.actors) (hsame : SameTo mb caller s t) (hreads : SameReads mb caller s t) :
    ObservesAlike mb me s t ↔ AllUsable s ∨ ∀ id, id ∈ s.objects ↔ id ∈ t.objects := by
  obtain ⟨actor, hme⟩ := (Dict.mem_iff_lookup _ _).mp hjoined
  rw [← contextIn_ok_iff_usable mb s]
  cases hctx : mb.contextIn s with
  | ok ctx =>
    refine ⟨fun _ => Or.inl ⟨ctx, rfl⟩, fun _ f ops hf hown hadm hadm' => ?_⟩
    exact (alike_of_sameTo hlocal hctx hs.consistent hsame hreads hf).observed hctx hme
      hs.consistent ht.consistent hown hadm hadm'
  | error e =>
    have hnot : ¬ ∃ ctx, (Except.error e : Except Raised Context) = .ok ctx := by
      rintro ⟨ctx, hok⟩
      cases hok
    rw [or_iff_right hnot]
    constructor
    · intro halike objectId
      have hview := halike (Equiv.refl String) [.view caller objectId] (fun _ _ => rfl)
        (fun op hop => by rw [List.mem_singleton.mp hop]; exact hlocal)
        ⟨trivial, trivial⟩ ⟨trivial, trivial⟩
      have hctx' : mb.contextIn t = .error e := by rw [mb.contextIn_congr hsame.directory, hctx]
      have hactor := Mailbox.actorIn_of_local hlocal hme
      have hactor' : mb.actorIn t caller = .ok actor := by
        rw [mb.actorIn_congr hsame.directory, hactor]
      have hanswer : ((Operation.view caller objectId).step mb t).1 =
          renamedOutcome (Equiv.refl String) (Result.renamed (Equiv.refl String))
            ((Operation.view caller objectId).step mb s).1 := List.head_eq_of_cons_eq hview
      rw [Operation.step_view, Operation.step_view, visibleIn_broken hctx hactor,
        visibleIn_broken hctx' hactor'] at hanswer
      have hrenamed := contextIn_namesNoMessage hctx id
      have habsent : (Raised.mailbox (.noSuchMessage objectId)).renamed id =
          .mailbox (.noSuchMessage objectId) := rfl
      have hother := contextIn_not_mailbox hctx (.noSuchMessage objectId)
      by_cases hmem : objectId ∈ s.objects <;> by_cases hmem' : objectId ∈ t.objects <;>
        simp [hmem, hmem', renamedOutcome, Except.map, hrenamed, habsent, hother,
          hother.symm] at hanswer ⊢
    · intro hids f ops hf hown hadm hadm'
      refine broken_observed hctx hsame.directory hme (fun id => ?_) hown
      by_cases hmem : id ∈ s.objects
      · rw [hf id (Or.inl hmem)]
        exact (hids id).symm
      · have hfresh := hf.fresh hmem fun hmem' => hmem ((hids id).mpr hmem')
        exact ⟨fun h => absurd h hfresh.2, fun h => absurd h hmem⟩

end

/-- Three actors, and what is done before carol looks. -/
def beforeCarolLooks (ops : List Operation) : InMemoryStore :=
  after asciiMailbox .empty ([joinAs "alice", joinAs "bob", joinAs "carol"] ++ ops)

/-- A message that carol is not party to. -/
def letterToBob : Operation :=
  .send "alice" { to_ := .one "bob", body := "psst" } ⟨"m1", january 2⟩

/-- A profile that cannot be used. -/
def bobBreaksGroups : Operation :=
  .updateProfile "bob" (Dict.ofList [("groups", .int 5)]) (january 3)

/-- Once a profile is broken, carol can tell whether alice has written to bob. -/
theorem broken_profile_tells_of_letter :
    let s := beforeCarolLooks [letterToBob, bobBreaksGroups]
    let t := beforeCarolLooks [bobBreaksGroups]
    Reachable asciiMailbox s ∧ Reachable asciiMailbox t ∧ "carol" ∈ s.actors ∧
      SameTo asciiMailbox "carol" s t ∧ SameReads asciiMailbox "carol" s t ∧
      ¬ ObservesAlike asciiMailbox "carol" s t := by
  intro s t
  have hctx : asciiMailbox.contextIn s = .error (.typeError "'int' object is not iterable") := by
    decide +kernel
  have hnobody : ∀ obj, ¬ PartyIn asciiMailbox s "carol" obj := by
    rintro obj ⟨_, ctx, _, hctx', _⟩
    rw [hctx] at hctx'
    cases hctx'
  refine ⟨reachable_after .empty (by decide +kernel), reachable_after .empty (by decide +kernel),
    by decide +kernel, ⟨by decide +kernel, fun obj hparty => absurd hparty (hnobody obj)⟩,
    fun obj hparty => absurd hparty (hnobody obj), fun halike => ?_⟩
  have hown : ∀ op ∈ [Operation.view "carol" "m1"], op.OwnOf asciiMailbox "carol" := by
    intro op hop
    rw [List.mem_singleton.mp hop]
    change asciiMailbox.local_ "carol" = .ok "carol"
    decide +kernel
  exact absurd (halike (Equiv.refl String) [.view "carol" "m1"] (fun _ _ => rfl) hown
    (by decide +kernel) (by decide +kernel)) (by decide +kernel)

/-- Before, it cannot. -/
theorem letter_not_observed : ObservesAlike asciiMailbox "carol"
    (beforeCarolLooks [letterToBob]) (beforeCarolLooks []) := by
  have hlocal : asciiMailbox.local_ "carol" = .ok "carol" := by decide +kernel
  have hctx : asciiMailbox.contextIn (beforeCarolLooks [letterToBob]) = .ok threeActors := by
    decide +kernel
  have hsame : SameTo asciiMailbox "carol" (beforeCarolLooks [letterToBob])
      (beforeCarolLooks []) := 
    sameTo_of_listings "carol" threeActors (by decide +kernel) hlocal hctx (by decide +kernel)
  have hunseen : ∀ obj ∈ (beforeCarolLooks [letterToBob]).objectList,
      isPartyTo threeActors obj "carol" = false := by decide +kernel
  have hreads : SameReads asciiMailbox "carol" (beforeCarolLooks [letterToBob])
      (beforeCarolLooks []) := by
    intro obj hparty hobj
    have hseen := (partyIn_iff hlocal hctx obj).mp hparty
    rw [hunseen obj ((InMemoryStore.mem_objectList _ obj).mpr hobj)] at hseen
    cases hseen
  refine (observes_alike_iff asciiMailbox "carol" "carol" _ _
    (reachable_after .empty (by decide +kernel)) (reachable_after .empty (by decide +kernel))
    hlocal (by decide +kernel) hsame hreads).mpr (Or.inl ?_)
  exact (contextIn_ok_iff_usable asciiMailbox _).mp ⟨threeActors, hctx⟩

end AgentMailbox
