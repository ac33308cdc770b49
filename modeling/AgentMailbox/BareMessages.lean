import AgentMailbox.Calls
import AgentMailbox.Renaming

/-!
# Messages without their text

The subject, the body and the document of a message are carried, never looked at: who is told
what, who may answer what, what a thread is and what expires depend on the rest. Two stores that
differ in the text of their messages alone stay so whatever is asked of both, and every request
fares alike in both.
-/
namespace AgentMailbox

/-- A message without its text. -/
def ObjectRecord.bare (obj : ObjectRecord) : ObjectRecord :=
  { obj with summary := none, content := "", document := ∅ }

/-- What is sent, without its text. -/
def Draft.bare (draft : Draft) : Draft :=
  { draft with body := "", subject := none, document := none }

/-- Two calls that differ, if they do, in the text of what is sent. -/
inductive Operation.SameButText : Operation → Operation → Prop
  | send (caller : String) (draft draft' : Draft) (stamp : Stamp)
      (hdraft : draft'.bare = draft.bare) :
      SameButText (.send caller draft stamp) (.send caller draft' stamp)
  | reply (caller objectId body body' : String) (subject subject' : Option String)
      (stamp : Stamp) : SameButText (.reply caller objectId body subject stamp)
        (.reply caller objectId body' subject' stamp)
  | same (op : Operation) : SameButText op op

/-- Two stores whose messages differ in their text alone. -/
structure SameButText (s t : InMemoryStore) : Prop where
  actors : t.actors = s.actors
  objects : ∀ id, (t.objects.lookup id).map ObjectRecord.bare =
    (s.objects.lookup id).map ObjectRecord.bare
  reads : t.reads = s.reads

/-- Both returned, or both raised the same. -/
def SameFate {α β : Type} (x : Except Raised α) (y : Except Raised β) : Prop :=
  x.map (fun _ => ()) = y.map fun _ => ()

/-- Both returned or raised the same, and left stores that differ in text alone. -/
def FareAlike {α β : Type} (x : Except Raised α × InMemoryStore)
    (y : Except Raised β × InMemoryStore) : Prop := SameFate x.1 y.1 ∧ SameButText x.2 y.2

/-! ## Rules that do not look at the text -/

section
variable {objects : List ObjectRecord}

lemma parentIn_bare (objects : List ObjectRecord) :
    parentIn (byId (objects.map ObjectRecord.bare)) = parentIn (byId objects) := by
  have hmaps : Dict.Maps ObjectRecord.bare (byId objects)
      (byId (objects.map ObjectRecord.bare)) := by
    have hlist := Dict.Maps.ofList ObjectRecord.bare (objects.map fun obj => (obj.id, obj))
    rw [List.map_map] at hlist
    unfold byId
    rw [List.map_map]
    exact hlist
  funext current
  unfold parentIn
  rw [hmaps current]
  cases (byId objects).lookup current with
  | none => rfl
  | some obj =>
    have hparent : obj.bare.inReplyTo = obj.inReplyTo := rfl
    simp only [Option.map_some, hparent]
    cases obj.inReplyTo with
    | none => rfl
    | some parent => simp [hmaps.mem_iff]

lemma threadRoot_bare (objects : List ObjectRecord) (id : String) :
    threadRoot (objects.map ObjectRecord.bare) id = threadRoot objects id := by
  unfold threadRoot
  rw [parentIn_bare, List.length_map]

lemma expiredObjectIds_bare (objects : List ObjectRecord) (cutoff : String) :
    expiredObjectIds (objects.map ObjectRecord.bare) cutoff = expiredObjectIds objects cutoff := by
  have hid (obj : ObjectRecord) : obj.bare.id = obj.id := rfl
  have hpublished (obj : ObjectRecord) : obj.bare.published = obj.published := rfl
  have hlatest : latestActivity (objects.map ObjectRecord.bare) = latestActivity objects := by
    unfold latestActivity
    rw [Dict.largest_map]
    simp only [threadRoot_bare, hid, hpublished]
  unfold expiredObjectIds
  simp only [hlatest, threadRoot_bare, List.filter_map, List.map_map, Function.comp_def, hid]

end

lemma compose_bare (ctx : Context) (sender : String) (recipients copies : List String)
    (parent : Option String) (draft draft' : Draft) (stamp : Stamp) :
    (Mailbox.compose ctx sender recipients copies parent draft stamp).bare =
      (Mailbox.compose ctx sender recipients copies parent draft' stamp).bare := by
  unfold Mailbox.compose ObjectRecord.bare
  rfl

lemma FareAlike.map {α β γ δ : Type} {p : StoreProgram α} {q : StoreProgram β}
    {s t : InMemoryStore} (h : FareAlike (runs p s) (runs q t)) (f : α → γ) (g : β → δ) :
    FareAlike (runs (f <$> p) s) (runs (g <$> q) t) := by
  obtain ⟨houtcome, hstore⟩ := h
  rw [runs_map, runs_map]
  refine ⟨?_, hstore⟩
  have hforget {α β : Type} (f : α → β) (x : Except Raised α) :
      (x.map f).map (fun _ => ()) = x.map fun _ => () := by cases x <;> rfl
  unfold SameFate
  rw [hforget, hforget]
  exact houtcome

lemma bare_cases {x y : Except Raised ObjectRecord}
    (h : y.map ObjectRecord.bare = x.map ObjectRecord.bare) :
    (∃ e, x = .error e ∧ y = .error e) ∨
      ∃ obj obj', x = .ok obj ∧ y = .ok obj' ∧ obj'.bare = obj.bare := by
  cases x with
  | error e =>
    cases y with
    | error e' => exact Or.inl ⟨e, rfl, congrArg Except.error (Except.error.inj h)⟩
    | ok obj' => cases h
  | ok obj =>
    cases y with
    | error e' => cases h
    | ok obj' => exact Or.inr ⟨obj, obj', rfl, rfl, Except.ok.inj h⟩

namespace SameButText

variable {s t : InMemoryStore} (mb : Mailbox)

lemma refl (s : InMemoryStore) : SameButText s s := ⟨rfl, fun _ => rfl, rfl⟩

lemma listed (h : SameButText s t) :
    t.objectList.map ObjectRecord.bare = s.objectList.map ObjectRecord.bare := by
  have hs := Dict.maps_mapValues ObjectRecord.bare s.objects
  have ht : Dict.Maps ObjectRecord.bare t.objects (s.objects.mapValues ObjectRecord.bare) :=
    fun id => (hs id).trans (h.objects id).symm
  have hage : ∀ a b : ObjectRecord, a.bare.age ≤ b.bare.age ↔ a.age ≤ b.age := fun _ _ => Iff.rfl
  have hapart : Sorting.KeyedApart ObjectRecord.age (t.objects.values.map ObjectRecord.bare) := by
    intro a ha b hb heq
    obtain ⟨x, hx, rfl⟩ := List.mem_map.mp ha
    obtain ⟨y, hy, rfl⟩ := List.mem_map.mp hb
    rw [t.age_apart x hx y hy heq]
  unfold InMemoryStore.objectList
  rw [← Sorting.sortBy_map hage, ← Sorting.sortBy_map hage]
  exact Sorting.sortBy_eq_of_perm _ (ht.values_perm.symm.trans hs.values_perm) hapart

lemma visibleAt (h : SameButText s t) (ctx : Context) (me id : String) :
    (t.visibleAt ctx me id).map ObjectRecord.bare =
      (s.visibleAt ctx me id).map ObjectRecord.bare := by
  have hfilter (o : Option ObjectRecord) : (o.filter (isPartyTo ctx · me)).map ObjectRecord.bare =
      (o.map ObjectRecord.bare).filter (isPartyTo ctx · me) := by
    cases o with
    | none => rfl
    | some obj =>
      have hparty : isPartyTo ctx obj.bare me = isPartyTo ctx obj me := rfl
      rw [Option.map_some, Option.filter_some, Option.filter_some, hparty]
      split_ifs <;> rfl
  unfold InMemoryStore.visibleAt
  rw [hfilter, hfilter, h.objects id]

lemma attachIn (h : SameButText s t) (ctx : Context) (me : String) (inReplyTo : Option String) :
    Mailbox.attachIn t ctx me inReplyTo = Mailbox.attachIn s ctx me inReplyTo := by
  have hsome (id : String) : (t.visibleAt ctx me id).isSome = (s.visibleAt ctx me id).isSome := by
    rw [← Option.isSome_map (f := ObjectRecord.bare), h.visibleAt, Option.isSome_map]
  rw [Mailbox.attachIn_eq, Mailbox.attachIn_eq]
  simp only [hsome]

lemma visibleIn (h : SameButText s t) (caller objectId : String) :
    (mb.visibleIn t caller objectId).map ObjectRecord.bare =
      (mb.visibleIn s caller objectId).map ObjectRecord.bare := by
  have hobj := h.objects objectId
  unfold Mailbox.visibleIn
  rw [mb.actorIn_congr h.actors, mb.contextIn_congr h.actors]
  cases mb.actorIn s caller with
  | error e => rfl
  | ok actor =>
    rw [ok_bind, ok_bind]
    cases hs : s.objects.lookup objectId with
    | none =>
      rw [hs, Option.map_none, Option.map_eq_none_iff] at hobj
      rw [hobj]
    | some obj =>
      rw [hs, Option.map_some, Option.map_eq_some_iff] at hobj
      obtain ⟨obj', ht, hbare⟩ := hobj
      rw [ht]
      cases mb.contextIn s with
      | error e => rfl
      | ok ctx =>
        have hparty : isPartyTo ctx obj' actor.name = isPartyTo ctx obj actor.name :=
          (congrArg (isPartyTo ctx · actor.name) hbare :)
        simp only [ok_bind, hparty]
        split_ifs
        · exact congrArg Except.ok hbare
        · rfl

lemma sendIn (h : SameButText s t) (caller : String) {draft draft' : Draft}
    (hdraft : draft'.bare = draft.bare) (stamp : Stamp) :
    (mb.sendIn t caller draft' stamp).map ObjectRecord.bare =
      (mb.sendIn s caller draft stamp).map ObjectRecord.bare := by
  have hto : draft'.to_ = draft.to_ := (congrArg Draft.to_ hdraft :)
  have hcc : draft'.cc = draft.cc := (congrArg Draft.cc hdraft :)
  have hparent : draft'.inReplyTo = draft.inReplyTo := (congrArg Draft.inReplyTo hdraft :)
  unfold Mailbox.sendIn
  rw [mb.actorIn_congr h.actors, mb.contextIn_congr h.actors, hto, hcc, hparent]
  cases mb.actorIn s caller with
  | error e => simp only [error_bind]
  | ok actor =>
    cases mb.localAll draft.to_.toList with
    | error e => simp only [ok_bind, error_bind]
    | ok recipients =>
      cases mb.localAll draft.cc with
      | error e => simp only [ok_bind, error_bind]
      | ok copies =>
        cases mb.contextIn s with
        | error e => simp only [ok_bind, error_bind]
        | ok ctx =>
          simp only [ok_bind, h.attachIn]
          cases Mailbox.rejectUnknownRecipients (recipients ++ copies) ctx with
          | error e => simp only [error_bind]
          | ok _ => exact congrArg Except.ok (compose_bare _ _ _ _ _ draft' draft stamp)

lemma doomedIn (h : SameButText s t) (now : DateTime) : mb.doomedIn t now = mb.doomedIn s now := by
  have hexpired (cutoff : String) :
      expiredObjectIds t.objectList cutoff = expiredObjectIds s.objectList cutoff := by
    rw [← expiredObjectIds_bare, h.listed, expiredObjectIds_bare]
  unfold Mailbox.doomedIn
  simp only [hexpired]

/-! What is written leaves them the same. -/

lemma addObject (h : SameButText s t) {obj obj' : ObjectRecord} (hobj : obj'.bare = obj.bare) :
    SameButText (s.addObject obj) (t.addObject obj') := by
  have hid : obj'.id = obj.id := (congrArg ObjectRecord.id hobj :)
  refine ⟨h.actors, ?_, h.reads⟩
  intro id
  rw [InMemoryStore.addObject_objects, InMemoryStore.addObject_objects, Dict.lookup_set,
    Dict.lookup_set, hid]
  split_ifs
  · exact congrArg some hobj
  · exact h.objects id

lemma markRead (h : SameButText s t) (read : ReadRecord) :
    SameButText (s.markRead read).2 (t.markRead read).2 := by
  have hread : t.readBy read.objectId read.reader = s.readBy read.objectId read.reader := by
    unfold InMemoryStore.readBy
    rw [h.reads]
  unfold InMemoryStore.markRead
  rw [hread]
  split_ifs
  · exact h
  · refine ⟨h.actors, h.objects, ?_⟩
    show t.reads.set _ (((t.reads.lookup _).getD ∅).set _ read) =
      s.reads.set _ (((s.reads.lookup _).getD ∅).set _ read)
    rw [h.reads]

lemma removeObjects (h : SameButText s t) (ids : List String) :
    SameButText (s.removeObjects ids).2 (t.removeObjects ids).2 := by
  induction ids generalizing s t with
  | nil => exact h
  | cons id ids ih =>
    refine ih ⟨h.actors, ?_, congrArg (AList.erase id) h.reads⟩
    intro id'
    show ((t.objects.erase id).lookup id').map _ = ((s.objects.erase id).lookup id').map _
    rw [Dict.lookup_erase, Dict.lookup_erase]
    split_ifs
    · rfl
    · exact h.objects id'

lemma putActor (h : SameButText s t) (actor : ActorRecord) :
    SameButText (s.putActor actor) (t.putActor actor) :=
  ⟨by rw [InMemoryStore.putActor_actors, InMemoryStore.putActor_actors, h.actors], h.objects,
    h.reads⟩

lemma handle (h : SameButText s t) {c : StoreCall} (hc : IgnoresMessages c) :
    (InMemoryStore.handle c t).1 = (InMemoryStore.handle c s).1 ∧
      SameButText (InMemoryStore.handle c s).2 (InMemoryStore.handle c t).2 := by
  cases c with
  | claimName actor =>
    show (t.claimName actor).1 = (s.claimName actor).1 ∧
      SameButText (s.claimName actor).2 (t.claimName actor).2
    unfold InMemoryStore.claimName
    rw [h.actors]
    split_ifs
    · exact ⟨rfl, h⟩
    · exact ⟨rfl, h.putActor actor⟩
  | getActor name => exact ⟨congrArg (AList.lookup name) h.actors, h⟩
  | putActor actor => exact ⟨rfl, h.putActor actor⟩
  | actors => exact ⟨congrArg Dict.values h.actors, h⟩
  | addObject | getObject | objects | removeObjects | markRead | readsOf => exact hc.elim

/-! ## Calls that fare alike -/

lemma runs_ignoring (h : SameButText s t) {α : Type} {p : StoreProgram α}
    (hp : p.Uses IgnoresMessages) : FareAlike (runs p s) (runs p t) := by
  induction p generalizing s t with
  | ret a => exact ⟨rfl, h⟩
  | raise e => exact ⟨rfl, h⟩
  | call c next ih =>
    obtain ⟨hc, hnext⟩ := (Program.uses_call_iff c next).mp hp
    obtain ⟨hanswer, hafter⟩ := h.handle hc
    have hrest := ih (InMemoryStore.handle c s).1 hafter (hnext _)
    show FareAlike (runs (next (InMemoryStore.handle c s).1) (InMemoryStore.handle c s).2)
      (runs (next (InMemoryStore.handle c t).1) (InMemoryStore.handle c t).2)
    rw [hanswer]
    exact hrest

lemma runs_send (h : SameButText s t) (caller : String) {draft draft' : Draft}
    (hdraft : draft'.bare = draft.bare) (stamp : Stamp) :
    FareAlike (runs (mb.send caller draft stamp) s) (runs (mb.send caller draft' stamp) t) := by
  rw [Mailbox.runs_send, Mailbox.runs_send]
  rcases bare_cases (h.sendIn mb caller hdraft stamp) with
    ⟨e, hs, ht⟩ | ⟨obj, obj', hs, ht, hbare⟩
  · rw [hs, ht]
    exact ⟨rfl, h⟩
  · rw [hs, ht]
    exact ⟨rfl, h.addObject hbare⟩

lemma runs_view (h : SameButText s t) (caller objectId : String) :
    FareAlike (runs (mb.view caller objectId) s) (runs (mb.view caller objectId) t) := by
  unfold Mailbox.view
  rw [Mailbox.runs_visibleObject, Mailbox.runs_visibleObject]
  rcases bare_cases (h.visibleIn mb caller objectId) with
    ⟨e, hs, ht⟩ | ⟨obj, obj', hs, ht, -⟩
  · rw [hs, ht]
    exact ⟨rfl, h⟩
  · rw [hs, ht]
    exact ⟨rfl, h⟩

lemma runs_read (h : SameButText s t) (caller objectId : String) (now : DateTime) :
    FareAlike (runs (mb.read caller objectId now) s) (runs (mb.read caller objectId now) t) := by
  rw [Mailbox.runs_read, Mailbox.runs_read, mb.actorIn_congr h.actors]
  cases mb.actorIn s caller with
  | error e => exact ⟨rfl, h⟩
  | ok actor =>
    rcases bare_cases (h.visibleIn mb caller objectId) with
      ⟨e, hs, ht⟩ | ⟨obj, obj', hs, ht, hbare⟩
    · rw [hs, ht]
      exact ⟨rfl, h⟩
    · have hid : obj'.id = obj.id := (congrArg ObjectRecord.id hbare :)
      rw [hs, ht]
      dsimp only
      rw [hid]
      exact ⟨rfl, h.markRead _⟩

lemma runs_expire (h : SameButText s t) (now : DateTime) :
    FareAlike (runs (mb.expire now) s) (runs (mb.expire now) t) := by
  by_cases hdays : 0 < mb.retentionDays
  · rw [mb.runs_expire s now hdays, mb.runs_expire t now hdays, h.doomedIn]
    cases mb.doomedIn s now with
    | error e => exact ⟨rfl, h⟩
    | ok doomed => exact ⟨rfl, h.removeObjects _⟩
  · unfold Mailbox.expire
    rw [if_pos (by omega)]
    exact ⟨rfl, h⟩

lemma runs_peek (h : SameButText s t) (caller : String) :
    FareAlike (runs (mb.peek caller) s) (runs (mb.peek caller) t) := by
  rw [Mailbox.runs_peek, Mailbox.runs_peek]
  refine ⟨?_, h⟩
  unfold SameFate Mailbox.unreadIn
  rw [mb.actorIn_congr h.actors, mb.contextIn_congr h.actors]
  cases mb.actorIn s caller with
  | error e => simp only [error_bind, Except.map]
  | ok actor => cases mb.contextIn s <;> simp only [ok_bind, error_bind, except_pure, Except.map]

lemma runs_thread (h : SameButText s t) (caller rootId : String) :
    FareAlike (runs (mb.thread caller rootId) s) (runs (mb.thread caller rootId) t) := by
  rw [Mailbox.runs_thread, Mailbox.runs_thread]
  refine ⟨?_, h⟩
  unfold SameFate Mailbox.threadIn
  rw [mb.actorIn_congr h.actors, mb.contextIn_congr h.actors]
  cases mb.actorIn s caller with
  | error e => simp only [error_bind, Except.map]
  | ok actor => cases mb.contextIn s <;> simp only [ok_bind, error_bind, except_pure, Except.map]

/-- An answer to the same message is a draft of the same but for its text. -/
lemma replyDraft_bare {obj obj' : ObjectRecord} (hobj : obj'.bare = obj.bare)
    (body body' : String) (subject subject' : Option String) :
    (mb.replyDraft obj' body' subject').bare = (mb.replyDraft obj body subject).bare := by
  have hid : obj'.id = obj.id := (congrArg ObjectRecord.id hobj :)
  have hsender : obj'.attributedTo = obj.attributedTo := (congrArg ObjectRecord.attributedTo hobj :)
  unfold Mailbox.replyDraft Draft.bare
  rw [hid, hsender]

lemma runs_reply (h : SameButText s t) (caller objectId body body' : String)
    (subject subject' : Option String) (stamp : Stamp) :
    FareAlike (runs (mb.reply caller objectId body subject stamp) s)
      (runs (mb.reply caller objectId body' subject' stamp) t) := by
  unfold Mailbox.reply
  rw [runs_bind, runs_bind, Mailbox.runs_visibleObject, Mailbox.runs_visibleObject]
  rcases bare_cases (h.visibleIn mb caller objectId) with
    ⟨e, hs, ht⟩ | ⟨obj, obj', hs, ht, hbare⟩
  · rw [hs, ht]
    exact ⟨rfl, h⟩
  · rw [hs, ht]
    exact h.runs_send mb caller (replyDraft_bare mb hbare body body' subject subject') stamp

/-- What is asked of the one store and of the other fares alike. -/
theorem step (h : SameButText s t) {op op' : Operation} (hop : op.SameButText op') :
    FareAlike (op.step mb s) (op'.step mb t) := by
  simp only [Operation.step_eq_runs]
  cases hop with
  | send caller draft draft' stamp hdraft => exact (h.runs_send mb caller hdraft stamp).map _ _
  | reply caller objectId body body' subject subject' stamp =>
    exact (h.runs_reply mb caller objectId body body' subject subject' stamp).map _ _
  | same op =>
    cases op with
    | join requestedName draw now => exact (h.runs_ignoring (ignores_join mb _ _ _)).map _ _
    | whois name => exact (h.runs_ignoring (uses_ask (c := .getActor name) trivial)).map _ _
    | directory => exact (h.runs_ignoring (uses_ask (c := .actors) trivial)).map _ _
    | updateProfile caller profile now =>
      exact (h.runs_ignoring (ignores_updateProfile mb _ _ _)).map _ _
    | installResident name profile now =>
      exact (h.runs_ignoring (ignores_installResident _ _ _)).map _ _
    | send caller draft stamp => exact (h.runs_send mb caller rfl stamp).map _ _
    | reply caller objectId body subject stamp =>
      exact (h.runs_reply mb caller objectId body body subject subject stamp).map _ _
    | peek caller => exact (h.runs_peek mb caller).map _ _
    | unreadCount caller => exact ((h.runs_peek mb caller).map _ _).map _ _
    | read caller objectId now => exact (h.runs_read mb caller objectId now).map _ _
    | thread caller rootId => exact (h.runs_thread mb caller rootId).map _ _
    | view caller objectId => exact (h.runs_view mb caller objectId).map _ _
    | expire now => exact (h.runs_expire mb now).map _ _

end SameButText

end AgentMailbox
