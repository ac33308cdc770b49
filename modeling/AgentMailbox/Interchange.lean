import AgentMailbox.Backends
import AgentMailbox.Changes
import AgentMailbox.ContextOrder

/-!
# Storage does not matter to messaging

Each operation, held against the port as SQLite offers it, comes to what it comes to over
the dictionaries. What can come between are a record that cannot be written, more ids than are
bound, and the one place where the order of the directory shows.
-/
namespace AgentMailbox

/-- What a program comes to over SQLite: what it comes to alone over the dictionaries; or,
unless all is `good`, an exception that leaves everything as it was. -/
def ComesTo {α : Type} (good : Prop) (done : Except Raised α × InMemoryStore) (s : InMemoryStore)
    (x : Except Raised α) (s' : InMemoryStore) : Prop :=
  (x = done.1 ∧ s' = done.2) ∨ (¬ good ∧ (∃ e, x = .error e) ∧ s' = s)

/-- Over SQLite the program does as over the dictionaries. -/
def Follows {α : Type} (engine : Engine) (good : Prop) (p : StoreProgram α)
    (s : InMemoryStore) : Prop :=
  p.wp (InMemoryStore.specification engine) (ComesTo good (runs p s) s) s

/-- The memberships over SQLite are those over the dictionaries; when they cannot be built,
each side complains of the profile it meets first. -/
lemma wp_context {β : Type} {engine : Engine} {mb : Mailbox} {s : InMemoryStore}
    {f : Context → StoreProgram β} {Q : Except Raised β → InMemoryStore → Prop}
    (hok : ∀ ctx ctx', mb.contextIn s = .ok ctx → ctx.Alike ctx' →
      (f ctx').wp (InMemoryStore.specification engine) Q s)
    (herror : ∀ e e', firstComplaint s.actors.values = some e →
      firstComplaint (Sorting.sortBy ActorRecord.name s.actors.values) = some e' →
      mb.contextIn s = .error e → Q (.error e') s) :
    (mb.context >>= f).wp (InMemoryStore.specification engine) Q s := by
  have hperm := Sorting.sortBy_perm ActorRecord.name s.actors.values
  unfold Mailbox.context
  rw [Program.wp_bind_iff, Program.wp_bind_iff]
  refine (Program.wp_perform_iff (S := messageStore) .actors).mpr
    ⟨⟨trivial, trivial⟩, False.elim, ?_⟩
  rintro _ found rfl
  rw [Program.next_ok, Program.wp_bind_iff, Program.wp_ofExcept]
  cases hmembers : groupMemberships mb.unicode s.actors.values with
  | ok memberships =>
    obtain ⟨memberships', hmembers', hlookup⟩ := groupMemberships_perm hperm.symm hmembers
    have hctx : mb.contextIn s = .ok ⟨s.actors.values.map ActorRecord.name, memberships⟩ := by
      rw [Mailbox.contextIn, hmembers]
      rfl
    have hnames : Context.Alike ⟨s.actors.values.map ActorRecord.name, memberships⟩
        ⟨(Sorting.sortBy ActorRecord.name s.actors.values).map ActorRecord.name, memberships'⟩ :=
      ⟨fun name => ((hperm.map ActorRecord.name).mem_iff (a := name)).symm, hlookup⟩
    rw [hmembers', Program.next_ok, Program.wp_pure, Program.next_ok]
    exact hok _ _ hctx hnames
  | error e =>
    have hctx : mb.contextIn s = .error e := by
      rw [Mailbox.contextIn, hmembers]
      rfl
    have he := (groupMemberships_error_iff _ _ _).mp hmembers
    cases hmembers' : groupMemberships mb.unicode
        (Sorting.sortBy ActorRecord.name s.actors.values) with
    | ok memberships' =>
      obtain ⟨_, hok, _⟩ := groupMemberships_perm hperm hmembers'
      rw [hmembers] at hok
      cases hok
    | error e' =>
      have he' := (groupMemberships_error_iff _ _ _).mp hmembers'
      rw [Program.next_error, Program.next_error]
      exact herror e e' he he' hctx

namespace Follows

section
variable {α β : Type} {engine : Engine} {good : Prop} {s : InMemoryStore}

lemma pure (a : α) : Follows engine good (Pure.pure a : StoreProgram α) s :=
  (Program.wp_pure a).mpr (Or.inl ⟨rfl, rfl⟩)

lemma throw (e : Raised) : Follows engine good (MonadExcept.throw e : StoreProgram α) s :=
  (Program.wp_throw e).mpr (Or.inl ⟨rfl, rfl⟩)

lemma ofExcept (x : Except Raised α) : Follows engine good (.ofExcept x) s :=
  (Program.wp_ofExcept x).mpr (Or.inl (by rw [runs_ofExcept]; exact ⟨rfl, rfl⟩))

/-- One program after another that has only looked. -/
lemma bind {p : StoreProgram α} {f : α → StoreProgram β} (hp : Follows engine good p s)
    (hlooks : (runs p s).2 = s)
    (hf : ∀ a, (runs p s).1 = .ok a → Follows engine good (f a) s) :
    Follows engine good (p >>= f) s := by
  unfold Follows
  rw [Program.wp_bind_iff]
  refine Program.wp_mono hp fun x s' hcomes => ?_
  have hbind := runs_bind s p f
  have hpair : runs p s = ((runs p s).1, s) := Prod.ext rfl hlooks
  rw [hpair] at hbind
  rcases hcomes with ⟨rfl, rfl⟩ | ⟨hbad, ⟨e, rfl⟩, rfl⟩
  · rw [hlooks]
    cases hresult : (runs p s).1 with
    | error e =>
      rw [hresult] at hbind
      refine (Program.next_error f _ e s).mpr (Or.inl ?_)
      rw [hbind]
      exact ⟨rfl, rfl⟩
    | ok a =>
      rw [hresult] at hbind
      show (f a).wp _ _ s
      rw [hbind]
      exact hf a hresult
  · exact (Program.next_error f _ e s').mpr (Or.inr ⟨hbad, ⟨e, rfl⟩, rfl⟩)

lemma map {p : StoreProgram α} (hp : Follows engine good p s) (f : α → β) :
    Follows engine good (f <$> p) s := by
  unfold Follows
  rw [Program.wp_map_iff, runs_map]
  refine Program.wp_mono hp fun x s' hcomes => ?_
  rcases hcomes with ⟨rfl, rfl⟩ | ⟨hbad, ⟨e, rfl⟩, rfl⟩
  · exact Or.inl ⟨rfl, rfl⟩
  · exact Or.inr ⟨hbad, ⟨e, rfl⟩, rfl⟩

/-- A call, and a rest that makes no difference between the answers to it. -/
lemma ask (c : StoreCall) {f : c.Answer → StoreProgram β} (hjson : c.IsJson engine.floats)
    (hcreated : c.KeepsCreated s) (hgood : good → ¬ c.Refused engine)
    (hanswer : ∀ answer, c.Answered s answer → f answer = f (InMemoryStore.handle c s).1)
    (hf : (f (InMemoryStore.handle c s).1).wp (InMemoryStore.specification engine)
      (ComesTo good (runs (MessageStore.ask c >>= f) s) s) (InMemoryStore.handle c s).2) :
    Follows engine good (MessageStore.ask c >>= f) s := by
  unfold Follows
  rw [Program.wp_bind_iff]
  refine (Program.wp_perform_iff (S := messageStore) c).mpr ⟨⟨hjson, hcreated⟩, ?_, ?_⟩
  · exact fun href e => Or.inr ⟨fun h => hgood h href, ⟨e, rfl⟩, rfl⟩
  · intro _ answer ha
    rw [Program.next_ok, hanswer answer ha]
    exact hf

/-- A call after which nothing more is asked. -/
lemma ask_last (c : StoreCall) {f : c.Answer → StoreProgram β} (hjson : c.IsJson engine.floats)
    (hcreated : c.KeepsCreated s) (hgood : good → ¬ c.Refused engine)
    (hanswer : ∀ answer, c.Answered s answer → f answer = f (InMemoryStore.handle c s).1)
    {x : Except Raised β} (hf : f (InMemoryStore.handle c s).1 = .ofExcept x) :
    Follows engine good (MessageStore.ask c >>= f) s := by
  apply ask c hjson hcreated hgood hanswer
  have hruns : runs (MessageStore.ask c >>= f) s = (x, (InMemoryStore.handle c s).2) := by
    show runs (f (InMemoryStore.handle c s).1) _ = _
    rw [hf, runs_ofExcept]
  rw [hf, Program.wp_ofExcept, hruns]
  exact Or.inl ⟨rfl, rfl⟩

/-- A call by itself. -/
lemma ask_only (c : StoreCall) (hjson : c.IsJson engine.floats) (hcreated : c.KeepsCreated s)
    (hgood : good → ¬ c.Refused engine)
    (hanswer : ∀ answer, c.Answered s answer → answer = (InMemoryStore.handle c s).1) :
    Follows engine good (MessageStore.ask c) s := by
  refine (Program.wp_perform_iff (S := messageStore) c).mpr ⟨⟨hjson, hcreated⟩, ?_, ?_⟩
  · exact fun href e => Or.inr ⟨fun h => hgood h href, ⟨e, rfl⟩, rfl⟩
  · exact fun _ answer ha => Or.inl ⟨congrArg Except.ok (hanswer answer ha), rfl⟩

lemma getActor {name : String} {f : Option ActorRecord → StoreProgram β}
    (hf : Follows engine good (f (s.actors.lookup name)) s) :
    Follows engine good (MessageStore.getActor name >>= f) s :=
  ask (.getActor name) trivial trivial (fun _ => id) (fun _ ha => congrArg f ha.symm) hf

lemma getObject {id : String} {f : Option ObjectRecord → StoreProgram β}
    (hf : Follows engine good (f (s.objects.lookup id)) s) :
    Follows engine good (MessageStore.getObject id >>= f) s :=
  ask (.getObject id) trivial trivial (fun _ => False.elim) (fun _ ha => congrArg f ha.symm) hf

lemma objects {f : List ObjectRecord → StoreProgram β}
    (hf : Follows engine good (f s.objectList) s) :
    Follows engine good (MessageStore.objects >>= f) s :=
  ask .objects trivial trivial (fun _ => False.elim) (fun _ ha => congrArg f ha.symm) hf

/-- What is done with a context, when it makes no difference in which order this lists names. -/
lemma context {mb : Mailbox} {f : Context → StoreProgram β} (hagree : good → ComplaintsAgree s)
    (halike : ∀ ctx ctx' : Context, ctx.Alike ctx' → f ctx' = f ctx)
    (hf : ∀ ctx, mb.contextIn s = .ok ctx → Follows engine good (f ctx) s) :
    Follows engine good (mb.context >>= f) s := by
  have hruns := runs_bind s mb.context f
  rw [Mailbox.runs_context] at hruns
  apply wp_context
  · intro ctx ctx' hctx hsame
    rw [hctx] at hruns
    rw [hruns, halike ctx ctx' hsame]
    exact hf ctx hctx
  · intro e e' he he' hctx
    rw [hctx] at hruns
    rw [hruns]
    by_cases hgood : good
    · have hsame : some e = some e' := by
        rw [← he, ← he']
        exact hagree hgood
      cases hsame
      exact Or.inl ⟨rfl, rfl⟩
    · exact Or.inr ⟨hgood, ⟨_, rfl⟩, rfl⟩

end

end Follows

/-! ## The operations -/

namespace Operation

/-- The profile or document handed over, if any. -/
def payload : Operation → JsonObject
  | updateProfile _ profile _ | installResident _ profile _ => profile
  | send _ draft _ => draft.document.getD ∅
  | join _ _ _ | whois _ | directory | reply _ _ _ _ _ | peek _ | unreadCount _ | read _ _ _
  | thread _ _ | view _ _ | expire _ => ∅

/-- What is handed over is a JSON value. -/
def IsJson (floats : Floats) (op : Operation) : Prop :=
  (Json.ofDict op.payload).isValue floats = true

/-- What is handed over can be written as text. -/
def Writable (op : Operation) : Prop := (Json.ofDict op.payload).isWritable = true

/-- The operation comes to ask who belongs to which group: its caller has joined, what it
addresses are names here, and the message it is about is stored. -/
def consultsGroups (mb : Mailbox) (s : InMemoryStore) : Operation → Bool
  | send caller draft _ =>
    (mb.actorIn s caller).isOk && (mb.localAll draft.to_.toList).isOk &&
      (mb.localAll draft.cc).isOk
  | reply caller objectId _ _ _ | read caller objectId _ | view caller objectId =>
    (mb.actorIn s caller).isOk && (s.objects.lookup objectId).isSome
  | peek caller | unreadCount caller | thread caller _ => (mb.actorIn s caller).isOk
  | join _ _ _ | whois _ | directory | updateProfile _ _ _ | installResident _ _ _ | expire _ =>
    false

/-- The operation comes to hand its payload to the store: its caller has joined, and the
names it addresses are known. -/
def handsOver (mb : Mailbox) (s : InMemoryStore) : Operation → Bool
  | updateProfile caller _ _ => (mb.actorIn s caller).isOk
  | installResident _ _ _ => true
  | send caller draft _ =>
    (mb.actorIn s caller).isOk &&
      match mb.localAll draft.to_.toList, mb.localAll draft.cc, mb.contextIn s with
      | .ok recipients, .ok copies, .ok ctx => Mailbox.missingNames (recipients ++ copies) ctx = []
      | _, _, _ => false
  | join _ _ _ | whois _ | directory | reply _ _ _ _ _ | peek _ | unreadCount _ | read _ _ _
  | thread _ _ | view _ _ | expire _ => false

/-- What the operation comes to hand over can be written as text, and the order of the
directory does not show in what it comes to ask. -/
structure Interchangeable (mb : Mailbox) (op : Operation) (s : InMemoryStore) : Prop where
  writable : op.handsOver mb s = true → op.Writable
  complaints : op.consultsGroups mb s = true → ComplaintsAgree s

/-- Nothing comes between: the operation is interchangeable, and all ids stored can be bound. -/
structure Smooth (engine : Engine) (mb : Mailbox) (op : Operation) (s : InMemoryStore) : Prop
    extends Interchangeable mb op s where
  bound : s.objectList.length ≤ engine.maxVariables

instance (floats : Floats) (op : Operation) : Decidable (op.IsJson floats) :=
  inferInstanceAs (Decidable (_ = _))

instance (op : Operation) : Decidable op.Writable := inferInstanceAs (Decidable (_ = _))

instance (mb : Mailbox) (op : Operation) (s : InMemoryStore) :
    Decidable (op.Interchangeable mb s) :=
  decidable_of_iff ((op.handsOver mb s = true → op.Writable) ∧
    (op.consultsGroups mb s = true → ComplaintsAgree s)) ⟨fun h => ⟨h.1, h.2⟩, fun h => ⟨h.1, h.2⟩⟩

end Operation

/-- Which read records a listing contains decides who has consumed what. -/
lemma readIds_congr {caller : String} {reads reads' : Dict String (List ReadRecord)}
    (h : ∀ id, Option.Rel List.Perm (reads.lookup id) (reads'.lookup id)) :
    Mailbox.readIds caller reads' = Mailbox.readIds caller reads := by
  ext id
  rw [Mailbox.mem_readIds_lookup, Mailbox.mem_readIds_lookup]
  have hid := h id
  generalize reads.lookup id = found at hid ⊢
  generalize reads'.lookup id = found' at hid ⊢
  cases hid with
  | none => simp
  | some hperm => simp only [Option.some.injEq, exists_eq_left', hperm.mem_iff]

section
variable {engine : Engine} {good : Prop} (mb : Mailbox) {s : InMemoryStore}

lemma follows_requireActor (name : String) : Follows engine good (mb.requireActor name) s := by
  apply Follows.bind (.ofExcept _) (by simp)
  intro resolved _
  apply Follows.getActor
  cases s.actors.lookup resolved with
  | none => exact .throw _
  | some actor => exact .pure actor

lemma looks_requireActor (name : String) : (runs (mb.requireActor name) s).2 = s := by
  rw [Mailbox.runs_requireActor]

lemma follows_visibleObject {caller objectId : String}
    (hagree : good → (Operation.view caller objectId).consultsGroups mb s = true →
      ComplaintsAgree s) : Follows engine good (mb.visibleObject caller objectId) s := by
  apply Follows.bind (follows_requireActor mb caller) (looks_requireActor mb caller)
  intro actor hactor
  rw [Mailbox.runs_requireActor] at hactor
  apply Follows.getObject
  cases hobject : s.objects.lookup objectId with
  | none => exact .throw _
  | some obj =>
    have hconsults : (Operation.view caller objectId).consultsGroups mb s = true := by
      simp [Operation.consultsGroups, show mb.actorIn s caller = .ok actor from hactor, hobject,
        Except.isOk, Except.toBool]
    apply Follows.context fun hgood => hagree hgood hconsults
    · intro ctx ctx' halike
      simp only [halike.isPartyTo_eq]
    · intro ctx _
      split_ifs
      · exact .pure obj
      · exact .throw _

lemma follows_attach (ctx : Context) (sender : String) (inReplyTo : Option String) :
    Follows engine good (Mailbox.attach ctx sender inReplyTo) s := by
  cases inReplyTo with
  | none => exact .pure none
  | some parent => exact Follows.objects (.pure _)

/-- A property that the texts of a list and every value sent have, every value of the
document has. -/
lemma documentOf_all {p : Json → Prop} (names : List String) (hnames : p (Json.strings names))
    {document : Option JsonObject}
    (hdocument : ∀ k v, (document.getD ∅).lookup k = some v → p v) {k : String} {v : Json}
    (hv : (Mailbox.documentOf names document).lookup k = some v) : p v := by
  rw [Mailbox.lookup_documentOf, Option.or_eq_some_iff] at hv
  rcases hv with hsent | ⟨_, htyped⟩
  · exact hdocument k v hsent
  · split_ifs at htyped
    cases htyped
    exact hnames

lemma compose_isJson {floats : Floats} (ctx : Context) (sender : String)
    (recipients copies : List String) (parent : Option String) {draft : Draft} (stamp : Stamp)
    (h : (Json.ofDict (draft.document.getD ∅)).isValue floats = true) :
    (Mailbox.compose ctx sender recipients copies parent draft stamp).IsJson floats :=
  (Json.isValue_ofDict_iff _ _).mpr fun _ _ hv =>
    documentOf_all (recipients ++ copies) (Json.strings_isValue floats _)
      ((Json.isValue_ofDict_iff _ _).mp h) hv

/-- A message can be written if and only if what was sent with it can. -/
lemma compose_writable_iff (ctx : Context) (sender : String) (recipients copies : List String)
    (parent : Option String) (draft : Draft) (stamp : Stamp) :
    (Mailbox.compose ctx sender recipients copies parent draft stamp).Writable ↔
      (Json.ofDict (draft.document.getD ∅)).isWritable = true := by
  have hdocument : (Mailbox.compose ctx sender recipients copies parent draft stamp).document =
      Mailbox.documentOf (recipients ++ copies) draft.document := rfl
  rw [ObjectRecord.Writable, hdocument, Json.isWritable_ofDict_iff, Json.isWritable_ofDict_iff]
  constructor
  · intro h k v hv
    apply h k v
    rw [Mailbox.lookup_documentOf, hv, Option.some_or]
  · exact fun h k v hv => documentOf_all _ (Json.strings_isWritable _) h hv

lemma follows_send {caller : String} {draft : Draft} {stamp : Stamp}
    (hagree : good → (Operation.send caller draft stamp).consultsGroups mb s = true →
      ComplaintsAgree s)
    (hjson : (Json.ofDict (draft.document.getD ∅)).isValue engine.floats = true)
    (hwritable : good → (Operation.send caller draft stamp).handsOver mb s = true →
      (Json.ofDict (draft.document.getD ∅)).isWritable = true) :
    Follows engine good (mb.send caller draft stamp) s := by
  apply Follows.bind (follows_requireActor mb caller) (looks_requireActor mb caller)
  intro actor hactor
  rw [Mailbox.runs_requireActor] at hactor
  have hactor : mb.actorIn s caller = .ok actor := hactor
  apply Follows.bind (.ofExcept _) (by simp)
  intro recipients hrecipients
  rw [runs_ofExcept] at hrecipients
  have hrecipients : mb.localAll draft.to_.toList = .ok recipients := hrecipients
  apply Follows.bind (.ofExcept _) (by simp)
  intro copies hcopies
  rw [runs_ofExcept] at hcopies
  have hcopies : mb.localAll draft.cc = .ok copies := hcopies
  have hconsults : (Operation.send caller draft stamp).consultsGroups mb s = true := by
    simp [Operation.consultsGroups, hactor, hrecipients, hcopies, Except.isOk, Except.toBool]
  apply Follows.context fun hgood => hagree hgood hconsults
  · intro ctx ctx' halike
    simp only [halike.rejectUnknownRecipients_eq, halike.compose_eq, Mailbox.attach,
      halike.mayAttachTo_eq]
  · intro ctx hctx
    apply Follows.bind (.ofExcept _) (by simp)
    intro _ hknown
    rw [runs_ofExcept, Mailbox.rejectUnknownRecipients] at hknown
    have hhands : (Operation.send caller draft stamp).handsOver mb s = true := by
      split_ifs at hknown with hmissing
      simp [Operation.handsOver, hactor, hrecipients, hcopies, hctx, hmissing, Except.isOk,
        Except.toBool]
    apply Follows.bind (follows_attach ctx _ _) (by rw [Mailbox.runs_attach])
    intro parent _
    exact Follows.ask_last (.addObject _)
      (compose_isJson ctx actor.name recipients copies parent stamp hjson) trivial
      (fun hgood => not_not.mpr ((compose_writable_iff _ _ _ _ _ draft stamp).mpr
        (hwritable hgood hhands))) (fun _ _ => rfl) (x := .ok _) rfl

lemma follows_reply {caller objectId : String} (body : String) (subject : Option String)
    (stamp : Stamp)
    (hagree : good → (Operation.view caller objectId).consultsGroups mb s = true →
      ComplaintsAgree s) :
    Follows engine good (mb.reply caller objectId body subject stamp) s := by
  apply Follows.bind (follows_visibleObject mb hagree) (by rw [Mailbox.runs_visibleObject])
  intro original horiginal
  rw [Mailbox.runs_visibleObject] at horiginal
  obtain ⟨actor, _, hactor, hobject, _⟩ :=
    (mb.visibleIn_ok_iff s caller objectId original).mp horiginal
  have hconsults : (Operation.view caller objectId).consultsGroups mb s = true := by
    simp [Operation.consultsGroups, hactor, hobject, Except.isOk, Except.toBool]
  exact follows_send mb (fun hgood _ => hagree hgood hconsults) rfl fun _ _ => rfl

lemma follows_readBy (caller : String) {objects : List ObjectRecord}
    (hbound : good → objects.length ≤ engine.maxVariables) :
    Follows engine good (Mailbox.readBy caller objects) s := by
  refine Follows.ask_last (.readsOf _) trivial trivial (fun hgood => not_lt.mpr ?_)
    (fun answer h => ?_) (x := .ok _) rfl
  · rw [List.length_map]
    exact hbound hgood
  · exact congrArg Pure.pure (readIds_congr h)

lemma follows_peek {caller : String}
    (hagree : good → (Operation.peek caller).consultsGroups mb s = true → ComplaintsAgree s)
    (hbound : good → s.objectList.length ≤ engine.maxVariables) :
    Follows engine good (mb.peek caller) s := by
  apply Follows.bind (follows_requireActor mb caller) (looks_requireActor mb caller)
  intro actor hactor
  rw [Mailbox.runs_requireActor] at hactor
  have hconsults : (Operation.peek caller).consultsGroups mb s = true :=
    congrArg Except.isOk (show mb.actorIn s caller = .ok actor from hactor)
  apply Follows.context fun hgood => hagree hgood hconsults
  · intro ctx ctx' halike
    simp only [halike.unread_eq]
  · intro ctx _
    apply Follows.objects
    apply Follows.bind (follows_readBy actor.name hbound) rfl
    exact fun read _ => .pure _

lemma follows_thread {caller : String} (rootId : String)
    (hagree : good → (Operation.peek caller).consultsGroups mb s = true → ComplaintsAgree s) :
    Follows engine good (mb.thread caller rootId) s := by
  apply Follows.bind (follows_requireActor mb caller) (looks_requireActor mb caller)
  intro actor hactor
  rw [Mailbox.runs_requireActor] at hactor
  have hconsults : (Operation.peek caller).consultsGroups mb s = true :=
    congrArg Except.isOk (show mb.actorIn s caller = .ok actor from hactor)
  apply Follows.context fun hgood => hagree hgood hconsults
  · intro ctx ctx' halike
    simp only [halike.visibleTurns_eq]
  · exact fun ctx _ => Follows.objects (.pure _)

lemma follows_read {caller objectId : String} (now : DateTime)
    (hagree : good → (Operation.view caller objectId).consultsGroups mb s = true →
      ComplaintsAgree s) :
    Follows engine good (mb.read caller objectId now) s := by
  apply Follows.bind (follows_requireActor mb caller) (looks_requireActor mb caller)
  intro actor _
  apply Follows.bind (follows_visibleObject mb hagree) (by rw [Mailbox.runs_visibleObject])
  intro obj _
  exact Follows.ask_last (.markRead _) trivial trivial (fun _ => id) (fun _ _ => rfl)
    (x := .ok obj) rfl

lemma follows_updateProfile {caller : String} {profile : JsonObject} (now : DateTime)
    (hjson : (Json.ofDict profile).isValue engine.floats = true)
    (hwritable : good → (Operation.updateProfile caller profile now).handsOver mb s = true →
      (Json.ofDict profile).isWritable = true) :
    Follows engine good (mb.updateProfile caller profile now) s := by
  apply Follows.bind (follows_requireActor mb caller) (looks_requireActor mb caller)
  intro actor hactor
  rw [Mailbox.runs_requireActor] at hactor
  have hstored := ((mb.actorIn_ok_iff s caller actor).mp hactor).2
  have hhands : (Operation.updateProfile caller profile now).handsOver mb s = true :=
    congrArg Except.isOk (show mb.actorIn s caller = .ok actor from hactor)
  refine Follows.ask_last (.putActor _) hjson (fun old hold => ?_)
    (fun hgood => not_not.mpr (hwritable hgood hhands)) (fun _ _ => rfl) (x := .ok _) rfl
  have hsame : some actor = some old := hstored.symm.trans hold
  rw [Option.some.inj hsame]

lemma newActor_plain (name : String) (now : DateTime) :
    (Mailbox.newActor name now).IsJson engine.floats ∧ (Mailbox.newActor name now).Writable :=
  ⟨rfl, rfl⟩

/-- A claim is answered alike, and a name that is taken changes nothing. -/
lemma follows_claim {α : Type} {actor : ActorRecord} {f : Bool → StoreProgram α}
    (hjson : actor.IsJson engine.floats) (hwritable : good → actor.Writable)
    (hclaimed : ∃ x, f true = .ofExcept x) (htaken : Follows engine good (f false) s) :
    Follows engine good (MessageStore.claimName actor >>= f) s := by
  have hgood : good → ¬ (StoreCall.claimName actor).Refused engine :=
    fun hgood => not_not.mpr (hwritable hgood)
  have hanswer : ∀ answer, (StoreCall.claimName actor).Answered s answer →
      f answer = f (s.claimName actor).1 := fun _ ha => congrArg f ha.symm
  cases hclaim : (s.claimName actor).1 with
  | true =>
    obtain ⟨x, hx⟩ := hclaimed
    exact Follows.ask_last (.claimName actor) hjson trivial hgood hanswer
      ((congrArg f hclaim).trans hx)
  | false =>
    apply Follows.ask (.claimName actor) hjson trivial hgood hanswer
    have hruns : runs (MessageStore.claimName actor >>= f) s = runs (f false) s := by
      rw [runs_bind, runs_claimName, hclaim, claimName_refused s hclaim]
    show (f (s.claimName actor).1).wp _
      (ComesTo good (runs (MessageStore.claimName actor >>= f) s) s) (s.claimName actor).2
    rw [hruns, hclaim, claimName_refused s hclaim]
    exact htaken

lemma follows_joinIssued (draw : ℕ → Naming.Draw) (now : DateTime) (remaining attempt : ℕ) :
    Follows engine good (Mailbox.joinIssued draw now remaining attempt) s := by
  induction remaining generalizing attempt with
  | zero => exact .throw _
  | succ remaining ih =>
    obtain ⟨hjson, hwritable⟩ := @newActor_plain engine (Naming.generate (draw attempt)) now
    exact follows_claim hjson (fun _ => hwritable) ⟨.ok _, rfl⟩ (ih (attempt + 1))

lemma follows_join (requestedName : Option String) (draw : ℕ → Naming.Draw) (now : DateTime) :
    Follows engine good (mb.join requestedName draw now) s := by
  cases requestedName with
  | none => exact follows_joinIssued draw now nameAttempts 0
  | some requested =>
    apply Follows.bind (.ofExcept _) (by simp)
    intro name _
    obtain ⟨hjson, hwritable⟩ := @newActor_plain engine name now
    exact follows_claim hjson (fun _ => hwritable) ⟨.ok _, rfl⟩ (.throw _)

lemma follows_installResident (name : String) (profile : JsonObject) (now : DateTime)
    (hjson : (Json.ofDict profile).isValue engine.floats = true)
    (hwritable : good → (Json.ofDict profile).isWritable = true) :
    Follows engine good (Mailbox.installResident name profile now) s := by
  let actor : ActorRecord := { Mailbox.newActor name now with profile := profile }
  have hactor : actor.IsJson engine.floats := hjson
  refine follows_claim hactor hwritable ⟨.ok actor, rfl⟩ ?_
  apply Follows.getActor
  cases s.actors.lookup name with
  | none => exact .pure _
  | some existing => exact .pure existing

/-- An expiry removes no more messages than are stored. -/
lemma doomed_length (objects : List ObjectRecord) (cutoff : String) :
    (Sorting.sorted (expiredObjectIds objects cutoff)).length ≤ objects.length := by
  rw [Sorting.length_sorted]
  refine (List.toFinset_card_le _).trans ?_
  rw [List.length_map]
  exact List.length_filter_le _ _

lemma follows_expire {now : DateTime}
    (hbound : good → ∀ doomed, mb.doomedIn s now = .ok doomed →
      (Sorting.sorted doomed).length ≤ engine.maxVariables) :
    Follows engine good (mb.expire now) s := by
  unfold Mailbox.expire
  split_ifs
  · exact .pure 0
  · apply Follows.bind (.ofExcept _) (by simp)
    intro cutoff hcutoff
    apply Follows.objects
    show Follows engine good (if expiredObjectIds s.objectList cutoff.isoformat = ∅ then _ else _) s
    split_ifs
    · exact .pure 0
    · refine Follows.ask_only (.removeObjects _) trivial trivial (fun hgood => not_lt.mpr ?_)
        fun _ ha => ha.symm
      have hcut : mb.cutoff now = .ok cutoff := by rwa [runs_ofExcept] at hcutoff
      exact hbound hgood _ (by simp [Mailbox.doomedIn, hcut])

lemma doomedIn_length {now : DateTime} {doomed : Finset String}
    (h : mb.doomedIn s now = .ok doomed) :
    (Sorting.sorted doomed).length ≤ s.objectList.length := by
  unfold Mailbox.doomedIn at h
  cases hcutoff : mb.cutoff now with
  | error e => simp [hcutoff] at h
  | ok cutoff =>
    simp only [hcutoff, ok_bind, except_pure, Except.ok.injEq] at h
    subst h
    exact doomed_length _ _

end

/-- Over SQLite every operation does as over the dictionaries; only the order in which the
directory is listed differs. -/
theorem follows_program (engine : Engine) (mb : Mailbox) {op : Operation} (s : InMemoryStore)
    (hjson : op.IsJson engine.floats) (hdirectory : op ≠ .directory) :
    Follows engine (op.Smooth engine mb s) (op.program mb) s := by
  have hagree : op.Smooth engine mb s → op.consultsGroups mb s = true → ComplaintsAgree s :=
    fun hsmooth => hsmooth.complaints
  have hwritable : op.Smooth engine mb s → op.handsOver mb s = true → op.Writable :=
    fun hsmooth => hsmooth.writable
  have hbound : op.Smooth engine mb s → s.objectList.length ≤ engine.maxVariables :=
    Operation.Smooth.bound
  cases op with
  | join requestedName draw now => exact (follows_join mb requestedName draw now).map _
  | whois name =>
    exact (Follows.ask_only (.getActor name) trivial trivial (fun _ => id)
      fun _ ha => ha.symm).map _
  | directory => exact absurd rfl hdirectory
  | updateProfile caller profile now =>
    exact (follows_updateProfile mb now hjson hwritable).map _
  | installResident name profile now =>
    exact (follows_installResident name profile now hjson fun h => hwritable h rfl).map _
  | send caller draft stamp => exact (follows_send mb hagree hjson hwritable).map _
  | reply caller objectId body subject stamp =>
    exact (follows_reply mb body subject stamp hagree).map _
  | peek caller => exact (follows_peek mb hagree hbound).map _
  | unreadCount caller =>
    apply Follows.map
    apply Follows.bind (follows_peek mb hagree hbound) (by rw [Mailbox.runs_peek])
    exact fun waiting _ => .pure _
  | read caller objectId now => exact (follows_read mb now hagree).map _
  | thread caller rootId => exact (follows_thread mb rootId hagree).map _
  | view caller objectId => exact (follows_visibleObject mb hagree).map _
  | expire now =>
    exact (follows_expire mb fun hsmooth _ hdoomed =>
      (doomedIn_length mb hdoomed).trans (hbound hsmooth)).map _

/-! ## One operation over both stores -/

/-- What a result says: the order of the directory is left out of it. -/
def Result.contents : Result → Result ⊕ Multiset ActorRecord
  | actors directory => .inr directory
  | result => .inl result

/-- An equal result, where the directory is compared as a set, or the same error. -/
def SameOutcome (x x' : Except Raised Result) : Prop :=
  x.map Result.contents = x'.map Result.contents

instance (x x' : Except Raised Result) : Decidable (SameOutcome x x') :=
  inferInstanceAs (Decidable (_ = _))

/-- What an operation comes to over SQLite: the same as over the dictionaries; or, unless all
is `good`, an exception that leaves everything as it was. -/
def Operation.CarriedOut (mb : Mailbox) (op : Operation) (good : Prop) (s : InMemoryStore)
    (x : Except Raised Result) (s' : InMemoryStore) : Prop :=
  (SameOutcome (op.step mb s).1 x ∧ s' = (op.step mb s).2) ∨
    (¬ good ∧ (∃ e, x = .error e) ∧ s' = s)

lemma ComesTo.carriedOut {mb : Mailbox} {op : Operation} {good : Prop} {s s' : InMemoryStore}
    {x : Except Raised Result} (h : ComesTo good (op.step mb s) s x s') :
    op.CarriedOut mb good s x s' := by
  rcases h with ⟨hsame, hstate⟩ | hbad
  · exact Or.inl ⟨congrArg _ hsame.symm, hstate⟩
  · exact Or.inr hbad

lemma program_carriedOut (engine : Engine) (mb : Mailbox) (op : Operation) (s : InMemoryStore)
    (hjson : op.IsJson engine.floats) : (op.program mb).wp (InMemoryStore.specification engine)
      (op.CarriedOut mb (op.Smooth engine mb s) s) s := by
  by_cases hop : op = .directory
  · subst hop
    rw [Operation.program, Program.wp_map_iff]
    refine (Program.wp_perform_iff (S := messageStore) .actors).mpr
      ⟨⟨trivial, trivial⟩, False.elim, ?_⟩
    rintro _ found rfl
    have hlisted : (s.actors.values : Multiset ActorRecord) =
        Sorting.sortBy ActorRecord.name s.actors.values :=
      Multiset.coe_eq_coe.mpr (Sorting.sortBy_perm _ _).symm
    exact Or.inl ⟨congrArg (fun found => Except.ok (Sum.inr found)) hlisted, rfl⟩
  · exact Program.wp_mono (follows_program engine mb s hjson hop) fun _ _ => ComesTo.carriedOut

/-- The operation over the store in SQLite, down to its statements. -/
def Operation.stepSqlite (engine : Engine) (mb : Mailbox) (op : Operation)
    (rows : RowConnection) : Except Raised Result × RowConnection :=
  (SqliteStore.statements (op.program mb)).exec (RowConnection.handle engine) rows

lemma exec_statements {α : Type} (engine : Engine) (p : StoreProgram α) (rows : RowConnection) :
    (SqliteStore.statements p).exec (RowConnection.handle engine) rows =
      p.exec (SqliteStore.backend engine) rows :=
  Program.exec_through (S := messageStore) SqliteStore.port p rows

/-- What an operation comes to over SQLite is what it comes to over the dictionaries, or an
exception that changes nothing. -/
theorem stepSqlite_carriedOut {engine : Engine} (mb : Mailbox) {op : Operation}
    {s : InMemoryStore} {rows : RowConnection} (hrep : SqliteStore.Represents engine s rows)
    (hjson : op.IsJson engine.floats) : ∃ s',
    SqliteStore.Represents engine s' (op.stepSqlite engine mb rows).2 ∧
      op.CarriedOut mb (op.Smooth engine mb s) s (op.stepSqlite engine mb rows).1 s' := by
  unfold Operation.stepSqlite
  rw [exec_statements]
  exact (SqliteStore.backend_meets_port engine).exec hrep
    (program_carriedOut engine mb op s hjson)

end AgentMailbox
