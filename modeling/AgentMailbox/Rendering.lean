import AgentMailbox.HouseCalls
import AgentMailbox.Posting

/-!
# Every stored message can be rendered

A message that the machine interface stores is rendered in the answer to its sender,
and again whenever a recipient lists an inbox, opens a thread or reads it. Rendering
iterates over what the stored document carries under `audience`, and a posted document
may bring an audience of its own that cannot be iterated over. A run keeps every stored
message renderable exactly when no document it stores brings one.
-/
namespace AgentMailbox

namespace House

section
variable {μ α β : Type}

/-- The program answers, rather than raise. -/
def Succeeds (p : HouseProgram μ α) (s : HouseState μ) : Prop :=
  ∃ a, (p.run handle s).1 = .ok a

lemma succeeds_pure (a : α) (s : HouseState μ) : Succeeds (pure a : HouseProgram μ α) s :=
  ⟨a, rfl⟩

lemma succeeds_ofExcept {x : Except Raised α} (hx : ∃ a, x = .ok a) (s : HouseState μ) :
    Succeeds (.ofExcept x : HouseProgram μ α) s := by
  obtain ⟨a, rfl⟩ := hx
  exact ⟨a, rfl⟩

lemma succeeds_bind {p : HouseProgram μ α} {f : α → HouseProgram μ β} {s : HouseState μ} {a : α}
    (hp : (p.run handle s).1 = .ok a) (hf : Succeeds (f a) (p.run handle s).2) :
    Succeeds (p >>= f) s := by
  unfold Succeeds
  rw [Program.run_bind]
  generalize p.run handle s = asked at hp hf
  obtain ⟨answer, t⟩ := asked
  cases hp
  exact hf

lemma succeeds_ofExcept_bind {x : Except Raised α} {f : α → HouseProgram μ β} {s : HouseState μ}
    {a : α} (hx : x = .ok a) (hf : Succeeds (f a) s) : Succeeds (.ofExcept x >>= f) s := by
  subst hx
  exact succeeds_bind rfl hf

end

end House

namespace House

section
variable {μ : Type} (house : House μ)

/-! ## What the house hands over is stored -/

lemma peek_stored {caller : String} {s : HouseState μ} {waiting : List ObjectRecord}
    (h : ((house.peek caller).run handle s).1 = .ok waiting) {obj : ObjectRecord}
    (hobj : obj ∈ waiting) : s.store.objects.lookup obj.id = some obj := by
  rw [peek, run_lifted, Mailbox.runs_peek] at h
  exact Mailbox.unreadIn_stored h hobj

lemma thread_stored {caller rootId : String} {s : HouseState μ} {turns : List ObjectRecord}
    (h : ((house.thread caller rootId).run handle s).1 = .ok turns) {obj : ObjectRecord}
    (hobj : obj ∈ turns) : s.store.objects.lookup obj.id = some obj := by
  rw [thread, run_lifted, Mailbox.runs_thread] at h
  exact Mailbox.threadIn_stored h hobj

lemma view_stored {caller objectId : String} {s : HouseState μ} {obj : ObjectRecord}
    (h : ((house.view caller objectId).run handle s).1 = .ok obj) :
    s.store.objects.lookup objectId = some obj := by
  rcases run_view house caller objectId s with ⟨⟨e, he⟩, _⟩ | ⟨hanswer, _⟩
  · rw [h] at he
    cases he
  · rw [h, Mailbox.view, Mailbox.runs_visibleObject] at hanswer
    exact Mailbox.visibleIn_stored hanswer.symm

lemma read_stored {caller objectId : String} {now : DateTime} {s : HouseState μ}
    {obj : ObjectRecord} (h : ((house.read caller objectId now).run handle s).1 = .ok obj) :
    s.store.objects.lookup objectId = some obj := by
  rcases run_policed house _ _ _ (house.mailbox.read caller objectId now) s with
    ⟨⟨e, he⟩, _⟩ | ⟨hanswer, _⟩
  · rw [read, he] at h
    cases h
  · rw [read, hanswer, Mailbox.runs_read] at h
    split at h
    · next hobj =>
      cases h
      exact Mailbox.visibleIn_stored hobj
    · cases h
    · cases h

/-! ## What sending through the house stores -/

/-- What a sending comes to: refused with nothing stored, or one record stored, which
determines the answer. -/
def RefusedOrStored {α : Type} (result : Except Raised α × HouseState μ)
    (store : InMemoryStore) (answer : ObjectRecord → Except Raised α)
    (P : ObjectRecord → Prop) : Prop :=
  ((∃ e, result.1 = .error e) ∧ result.2.store = store) ∨
    ∃ obj, P obj ∧ result.1 = answer obj ∧ result.2.store = store.addObject obj

lemma run_send_stored (caller : String) (draft : Draft) (stamp : Stamp) (s : HouseState μ) :
    RefusedOrStored ((house.send caller draft stamp).run handle s) s.store .ok
      fun obj => ∃ names, obj.document = Mailbox.documentOf names draft.document := by
  rcases run_policed house _ _ _ (house.mailbox.send caller draft stamp) s with
    hrefused | ⟨hanswer, hstore⟩
  · exact Or.inl hrefused
  · rw [Mailbox.runs_send] at hanswer hstore
    cases hobj : house.mailbox.sendIn s.store caller draft stamp with
    | error e =>
      rw [hobj] at hanswer hstore
      exact Or.inl ⟨⟨e, hanswer⟩, hstore⟩
    | ok obj =>
      rw [hobj] at hanswer hstore
      obtain ⟨_, recipients, copies, _, _, _, _, _, _, rfl⟩ :=
        (house.mailbox.sendIn_ok_iff s.store caller draft stamp obj).mp hobj
      exact Or.inr ⟨_, ⟨recipients ++ copies, rfl⟩, hanswer, hstore⟩

/-- The document of a reply carries only what was typed. -/
lemma run_reply_stored (caller objectId body : String) (subject : Option String) (stamp : Stamp)
    (s : HouseState μ) :
    RefusedOrStored ((house.reply caller objectId body subject stamp).run handle s) s.store .ok
      fun obj => ∃ names, obj.document = Mailbox.documentOf names none := by
  have hview : (lift (house.mailbox.view caller objectId)).run handle s =
      (house.mailbox.visibleIn s.store caller objectId, s) := by
    rw [run_lifted, Mailbox.view, Mailbox.runs_visibleObject]
  rw [reply, Program.run_bind, hview]
  cases house.mailbox.visibleIn s.store caller objectId with
  | error e => exact Or.inl ⟨⟨e, rfl⟩, rfl⟩
  | ok original =>
    exact house.run_send_stored caller (house.mailbox.replyDraft original body subject) stamp s

/-- Rendering changes nothing. -/
lemma run_render_state {α β : Type} (p : HouseProgram μ α) (render : α → Except Raised β)
    (s : HouseState μ) :
    ((p >>= fun a => .ofExcept (render a)).run handle s).2 = (p.run handle s).2 := by
  rw [Program.run_bind]
  rcases p.run handle s with ⟨_ | _, t⟩ <;> simp

lemma RefusedOrStored.render {β : Type} {p : HouseProgram μ ObjectRecord} {s : HouseState μ}
    {P : ObjectRecord → Prop} (h : RefusedOrStored (p.run handle s) s.store .ok P)
    (render : ObjectRecord → Except Raised β) :
    RefusedOrStored ((p >>= fun sent => .ofExcept (render sent)).run handle s) s.store render
      P := by
  rw [Program.run_bind]
  generalize p.run handle s = asked at h
  obtain ⟨answer, t⟩ := asked
  rcases h with ⟨⟨e, he⟩, hstore⟩ | ⟨obj, hobj, hanswer, hstore⟩
  · cases he
    exact Or.inl ⟨⟨e, rfl⟩, hstore⟩
  · cases hanswer
    simp only [Program.run_ofExcept]
    exact Or.inr ⟨obj, hobj, rfl, hstore⟩

/-- A check that fails refuses. -/
lemma RefusedOrStored.ofExcept_bind {α β : Type} {x : Except Raised α}
    {f : α → HouseProgram μ β} {s : HouseState μ} {answer : ObjectRecord → Except Raised β}
    {P : ObjectRecord → Prop}
    (h : ∀ a, x = .ok a → RefusedOrStored ((f a).run handle s) s.store answer P) :
    RefusedOrStored ((.ofExcept x >>= f).run handle s) s.store answer P := by
  cases x with
  | error e => exact Or.inl ⟨⟨e, rfl⟩, rfl⟩
  | ok a => exact h a rfl

lemma RefusedOrStored.mono {α : Type} {result : Except Raised α × HouseState μ}
    {store : InMemoryStore} {answer : ObjectRecord → Except Raised α}
    {P Q : ObjectRecord → Prop} (h : RefusedOrStored result store answer P)
    (himp : ∀ obj, P obj → Q obj) : RefusedOrStored result store answer Q := by
  rcases h with hrefused | ⟨obj, hobj, hstored⟩
  · exact Or.inl hrefused
  · exact Or.inr ⟨obj, himp obj hobj, hstored⟩

end

end House

lemma mapM_ok_iff {α β : Type} (f : α → Except Raised β) (xs : List α) :
    (∃ ys, xs.mapM f = .ok ys) ↔ ∀ x ∈ xs, ∃ y, f x = .ok y := by
  induction xs with
  | nil => exact ⟨fun _ _ h => absurd h (List.not_mem_nil), fun _ => ⟨[], rfl⟩⟩
  | cons x rest ih =>
    rw [List.mapM_cons, List.forall_mem_cons, ← ih]
    cases f x with
    | error e => simp
    | ok y => cases rest.mapM f <;> simp

lemma mapM_eq_ok_iff {α β : Type} {f : α → Except Raised β} {xs : List α} {ys : List β} :
    xs.mapM f = .ok ys ↔ List.Forall₂ (fun x y => f x = .ok y) xs ys := by
  induction xs generalizing ys with
  | nil => cases ys <;> simp [pure, Except.pure]
  | cons x rest ih =>
    rw [List.mapM_cons, List.forall₂_cons_left_iff]
    cases hx : f x with
    | error e => simp
    | ok y =>
      simp only [← ih]
      cases hrest : rest.mapM f with
      | error e => simp
      | ok made => simp [pure, Except.pure, eq_comm]

namespace Api

section
variable {μ : Type} (api : Api μ)

/-- Every stored message can be rendered. -/
def Renders (s : HouseState μ) : Prop :=
  ∀ obj, s.store.objects.lookup obj.id = some obj → ∃ note, api.wire.note obj = .ok note

/-- A message that is not answered for has not been stored; and what the house hands
over, for an inbox, a message or a thread, is answered. -/
def Answers (s : HouseState μ) : Request → Prop
  | .outbox name body caller stamp => ¬ House.Succeeds (api.outbox name body caller stamp) s →
      (api.serve (.outbox name body caller stamp) s).2.store.objects = s.store.objects
  | .inbox name caller => owns name caller api.wire = .ok caller →
      House.Succeeds (api.house.peek caller) s → House.Succeeds (api.inbox name caller) s
  | .readObject objectId caller now =>
      House.Succeeds (api.house.read caller (api.wire.objectIdFrom objectId) now) s →
      House.Succeeds (api.readObject objectId caller now) s
  | .viewObject objectId caller =>
      House.Succeeds (api.house.view caller (api.wire.objectIdFrom objectId)) s →
      House.Succeeds (api.viewObject objectId caller) s
  | .thread objectId caller => ∀ turns, turns ≠ [] →
      ((api.house.thread caller (api.wire.objectIdFrom objectId)).run House.handle s).1 =
        .ok turns → House.Succeeds (api.thread objectId caller) s
  | _ => True

/-- After the request every stored message can be rendered, and it is answered. -/
structure KeepsRendering (s : HouseState μ) (request : Request) : Prop where
  renders : api.Renders (api.serve request s).2
  answers : api.Answers s request

/-- The house is asked to send this draft, made from this document. -/
structure Posts (name : String) (body : Json) (caller : String) (raw : JsonObject)
    (draft : Draft) : Prop where
  caller_owns : owns name caller api.wire = .ok caller
  decoded : body.asObject = .ok raw
  sends : ∃ activity, decodeActivity api.msgspec raw = .ok activity ∧
    api.repliesTo activity.object = none ∧ api.draftOf raw activity.object = .ok draft

/-- A document that the house accepts for sending brings no audience of its own, or one
that can be iterated over. -/
def Renderable (s : HouseState μ) : Request → Prop
  | .outbox name body caller stamp => ∀ raw draft v, api.Posts name body caller raw draft →
      House.Succeeds (api.house.send caller draft stamp) s → postedAudience raw = some v →
      v.iterable = true
  | _ => True

variable {api}

/-! ## Requests that store nothing -/

lemma Renders.congr {s t : HouseState μ} (hs : api.Renders s)
    (h : t.store.objects = s.store.objects) : api.Renders t := by
  intro obj hobj
  rw [h] at hobj
  exact hs obj hobj

lemma succeeds_notes {messages : List ObjectRecord}
    (h : ∀ obj ∈ messages, ∃ note, api.wire.note obj = .ok note) (s : HouseState μ) :
    House.Succeeds (do
      let notes ← .ofExcept (messages.mapM api.wire.note)
      return Renderer.collection notes) s := by
  obtain ⟨notes, hnotes⟩ := (mapM_ok_iff api.wire.note messages).mpr h
  exact House.succeeds_ofExcept_bind hnotes (House.succeeds_pure _ _)

/-- While every stored message can be rendered, what is handed over is answered. -/
lemma Renders.answers {s : HouseState μ} (hs : api.Renders s) (request : Request)
    (h : ∀ name body caller stamp, request ≠ .outbox name body caller stamp) :
    api.Answers s request := by
  cases request with
  | join data draw now => trivial
  | directory => trivial
  | actor name => trivial
  | updateProfile name data caller now => trivial
  | outbox name body caller stamp => exact absurd rfl (h name body caller stamp)
  | inbox name caller =>
    rintro howns ⟨waiting, hwaiting⟩
    exact House.succeeds_ofExcept_bind howns (House.succeeds_bind hwaiting
      (succeeds_notes (fun obj hobj => hs obj (House.peek_stored api.house hwaiting hobj)) _))
  | readObject objectId caller now =>
    rintro ⟨obj, hobj⟩
    have hstored := House.read_stored api.house hobj
    rw [← s.store.object_key _ obj hstored] at hstored
    exact House.succeeds_bind hobj (House.succeeds_ofExcept (hs obj hstored) _)
  | viewObject objectId caller =>
    rintro ⟨obj, hobj⟩
    have hstored := House.view_stored api.house hobj
    rw [← s.store.object_key _ obj hstored] at hstored
    exact House.succeeds_bind hobj (House.succeeds_ofExcept (hs obj hstored) _)
  | thread objectId caller =>
    rintro turns hne hturns
    refine House.succeeds_bind hturns ?_
    rw [if_neg hne]
    exact succeeds_notes (fun obj hobj => hs obj (House.thread_stored api.house hturns hobj)) _

/-! ## Requests that may store something -/

lemma documentOf_audience (names : List String) (document : Option JsonObject) :
    (Mailbox.documentOf names document).lookup "audience" =
      some (((document.getD ∅).lookup "audience").getD (Json.strings names)) := by
  rw [Mailbox.lookup_documentOf, if_pos rfl]
  cases (document.getD ∅).lookup "audience" <;> rfl

/-- A record whose document was composed from a draft can be rendered exactly when the
draft brings no audience, or one that can be iterated over. -/
lemma note_composed_iff {obj : ObjectRecord} {names : List String} {document : Option JsonObject}
    (h : obj.document = Mailbox.documentOf names document) :
    (∃ note, api.wire.note obj = .ok note) ↔
      ∀ v, (document.getD ∅).lookup "audience" = some v → v.iterable = true := by
  rw [Renderer.note_ok_iff, h, documentOf_audience]
  cases (document.getD ∅).lookup "audience" with
  | none => simp [Json.strings, Json.iterable]
  | some v => simp

/-- A posted document is sent, and what was stored is rendered. -/
lemma Posts.run_outbox {name caller : String} {body : Json} {raw : JsonObject} {draft : Draft}
    (h : api.Posts name body caller raw draft) (stamp : Stamp) (s : HouseState μ) :
    (api.outbox name body caller stamp).run House.handle s =
      (api.house.send caller draft stamp >>= fun sent =>
        .ofExcept (api.wire.note sent)).run House.handle s := by
  obtain ⟨howns, hraw, activity, hactivity, hreply, hdraft⟩ := h
  unfold outbox
  simp only [Program.run_bind, Program.run_ofExcept, howns, hraw, hactivity, hreply, hdraft]

/-- A record that can be rendered, or whose document was posted. -/
def StoredFrom (api : Api μ) (s : HouseState μ) (name : String) (body : Json) (caller : String)
    (stamp : Stamp) (obj : ObjectRecord) : Prop :=
  (∃ note, api.wire.note obj = .ok note) ∨
    ∃ raw draft names, api.Posts name body caller raw draft ∧
      House.Succeeds (api.house.send caller draft stamp) s ∧
      obj.document = Mailbox.documentOf names draft.document

/-- What posting comes to: refused with nothing stored, or one record stored and then
rendered, which cannot fail unless its document was posted with it. -/
lemma outbox_stored (api : Api μ) (name : String) (body : Json) (caller : String)
    (stamp : Stamp) (s : HouseState μ) :
    House.RefusedOrStored ((api.outbox name body caller stamp).run House.handle s) s.store
      api.wire.note (api.StoredFrom s name body caller stamp) := by
  unfold outbox
  refine House.RefusedOrStored.ofExcept_bind fun me howns => ?_
  refine House.RefusedOrStored.ofExcept_bind fun raw hraw => ?_
  refine House.RefusedOrStored.ofExcept_bind fun activity hactivity => ?_
  rw [owns_ok howns] at howns
  dsimp only
  cases hreply : api.repliesTo activity.object with
  | some parent =>
    refine ((House.run_reply_stored api.house caller parent _ _ stamp s).render _).mono ?_
    rintro obj ⟨names, hobj⟩
    exact Or.inl ((note_composed_iff hobj).mpr (by simp))
  | none =>
    refine House.RefusedOrStored.ofExcept_bind fun draft hdraft => ?_
    have hposts : api.Posts name body caller raw draft :=
      ⟨howns, hraw, activity, hactivity, hreply, hdraft⟩
    rcases House.run_send_stored api.house caller draft stamp s with
      hrefused | ⟨obj, ⟨names, hobj⟩, hanswer, hstore⟩
    · exact House.RefusedOrStored.render (Or.inl hrefused) _
    · refine House.RefusedOrStored.render (Or.inr ⟨obj, ?_, hanswer, hstore⟩) _
      exact Or.inr ⟨raw, draft, names, hposts, ⟨obj, hanswer⟩, hobj⟩

/-! ## Runs -/

/-- Posting to an outbox leaves the state that its program does. -/
lemma serve_outbox_state (api : Api μ) (name : String) (body : Json) (caller : String)
    (stamp : Stamp) (s : HouseState μ) :
    (api.serve (.outbox name body caller stamp) s).2 =
      ((api.outbox name body caller stamp).run House.handle s).2 := by
  rw [serve, program, House.run_map]

/-- A document that was posted, and whose message is rendered with the rest, brought no
audience that cannot be iterated over. -/
lemma Posts.audience_of_renders {s : HouseState μ} {name caller : String} {body : Json}
    {raw : JsonObject} {draft : Draft} {stamp : Stamp}
    (hposts : api.Posts name body caller raw draft)
    (hsends : House.Succeeds (api.house.send caller draft stamp) s)
    (hrenders : api.Renders (api.serve (.outbox name body caller stamp) s).2) {v : Json}
    (hv : postedAudience raw = some v) : v.iterable = true := by
  rw [serve_outbox_state, hposts.run_outbox] at hrenders
  obtain ⟨obj, hobj⟩ := hsends
  rcases House.run_send_stored api.house caller draft stamp s with
    ⟨⟨e, he⟩, _⟩ | ⟨sent, ⟨names, hdocument⟩, hanswer, hstore⟩
  · rw [hobj] at he
    cases he
  · have hrendered : ∃ note, api.wire.note sent = .ok note := by
      refine hrenders sent ?_
      rw [House.run_render_state, hstore, InMemoryStore.addObject_objects]
      exact Dict.lookup_set_self _ _ _
    obtain ⟨activity, -, -, hdraft⟩ := hposts.sends
    exact (note_composed_iff hdocument).mp hrendered v (by rw [draftOf_audience hdraft, hv])

/-- What a renderable posting stores is rendered. -/
lemma StoredFrom.rendered {s : HouseState μ} {name caller : String} {body : Json} {stamp : Stamp}
    {obj : ObjectRecord} (h : api.StoredFrom s name body caller stamp obj)
    (hrenderable : api.Renderable s (.outbox name body caller stamp)) :
    ∃ note, api.wire.note obj = .ok note := by
  rcases h with hrendered | ⟨raw, draft, names, hposts, hsends, hdocument⟩
  · exact hrendered
  · obtain ⟨activity, -, -, hdraft⟩ := hposts.sends
    refine (note_composed_iff hdocument).mpr fun v hv => ?_
    rw [draftOf_audience hdraft] at hv
    exact hrenderable raw draft v hposts hsends hv

/-- Storing one more message that can be rendered keeps them all so. -/
lemma Renders.addObject {s t : HouseState μ} {obj : ObjectRecord} (hs : api.Renders s)
    (ht : t.store = s.store.addObject obj) (hobj : ∃ note, api.wire.note obj = .ok note) :
    api.Renders t := by
  intro other hother
  rw [ht, InMemoryStore.addObject_objects, Dict.lookup_set] at hother
  split_ifs at hother with hid
  · cases hother
    exact hobj
  · exact hs other hother

/-- A renderable posting keeps every stored message so, and is answered. -/
lemma keepsRendering_outbox {s : HouseState μ} (hs : api.Renders s) {name caller : String}
    {body : Json} {stamp : Stamp}
    (hrenderable : api.Renderable s (.outbox name body caller stamp)) :
    api.KeepsRendering s (.outbox name body caller stamp) := by
  have hstate := serve_outbox_state api name body caller stamp s
  rcases outbox_stored api name body caller stamp s with
    ⟨⟨e, he⟩, hstore⟩ | ⟨obj, hobj, hanswer, hstore⟩
  · exact ⟨hs.congr (by rw [hstate, hstore]), fun _ => by rw [hstate, hstore]⟩
  · have hrendered := hobj.rendered hrenderable
    refine ⟨hs.addObject (by rw [hstate, hstore]) hrendered, fun hfails => ?_⟩
    obtain ⟨note, hnote⟩ := hrendered
    exact absurd ⟨note, by rw [hanswer, hnote]⟩ hfails

/-- One request keeps every stored message renderable, and is answered, exactly when the
document it has stored, if any, brings no audience that cannot be iterated over. -/
theorem keepsRendering_iff {s : HouseState μ} (hs : api.Renders s) (request : Request) :
    api.KeepsRendering s request ↔ api.Renderable s request := by
  by_cases houtbox : ∀ name body caller stamp, request ≠ .outbox name body caller stamp
  · have hrenderable : api.Renderable s request := by
      cases request with
      | outbox name body caller stamp => exact absurd rfl (houtbox name body caller stamp)
      | _ => trivial
    exact ⟨fun _ => hrenderable, fun _ =>
      ⟨hs.congr (House.objects_of_uses (api.uses_program request houtbox) s),
        hs.answers request houtbox⟩⟩
  · push Not at houtbox
    obtain ⟨name, body, caller, stamp, rfl⟩ := houtbox
    constructor
    · intro hkeeps raw draft v hposts hsends hv
      exact hposts.audience_of_renders hsends hkeeps.renders hv
    · exact keepsRendering_outbox hs

/-- In a run that starts with every stored message renderable, every request keeps them
so, and is answered, exactly when no document it has stored brings an audience that
cannot be iterated over. -/
theorem keepsRendering_throughout_iff {s : HouseState μ} (hs : api.Renders s)
    (requests : List Request) :
    api.Throughout api.KeepsRendering s requests ↔ api.Throughout api.Renderable s requests := by
  induction requests generalizing s with
  | nil => exact Iff.rfl
  | cons request rest ih =>
    unfold Throughout
    rw [keepsRendering_iff hs]
    constructor
    · rintro ⟨hrequest, hrest⟩
      exact ⟨hrequest, (ih ((keepsRendering_iff hs request).mpr hrequest).renders).mp hrest⟩
    · rintro ⟨hrequest, hrest⟩
      exact ⟨hrequest, (ih ((keepsRendering_iff hs request).mpr hrequest).renders).mpr hrest⟩

end

end Api

/-! ## A letter with no audience -/

/-- A note to bob whose audience is null, as its type allows. -/
def nullAudience : Json :=
  .obj [("type", .str "Note"), ("to", .arr [.str "bob"]), ("content", .str "hello"),
    ("audience", .null)]

/-- The state in which alice posts it, and the posting. -/
def bothJoined : HouseState Observations :=
  asciiApi.after firstOpening [.joinAs "alice", .joinAs "bob"]

def postNullAudience : Request := .outbox "alice" nullAudience "alice" ⟨"m1", january 2⟩

lemma renders_firstOpening : asciiApi.Renders firstOpening := by
  have hempty : firstOpening.store.objects = ∅ := by decide +kernel
  intro obj hobj
  rw [hempty] at hobj
  simp at hobj

/-- The message is stored and cannot be rendered, its sender is answered with an error, and
bob can no longer list his inbox, open the thread or read the message. -/
theorem null_audience_unanswered :
    let s := (asciiApi.serve postNullAudience bothJoined).2
    let unrendered := Raised.typeError "'NoneType' object is not iterable"
    (asciiApi.serve postNullAudience bothJoined).1 = .error unrendered ∧
    (s.store.objects.lookup "m1").map asciiApi.wire.note = some (.error unrendered) ∧
    (asciiApi.serve (.inbox "bob" "bob") s).1 = .error unrendered ∧
    (asciiApi.serve (.thread "m1" "bob") s).1 = .error unrendered ∧
    (asciiApi.serve (.viewObject "m1" "bob") s).1 = .error unrendered ∧
    (asciiApi.serve (.readObject "m1" "bob" (january 3)) s).1 = .error unrendered := by
  decide +kernel

/-- A note to bob in an activity that says whom it was aimed at. -/
def wrappedLetter : Json :=
  .obj [("type", .str "Create"), ("audience", Json.strings ["team"]),
    ("object", .obj [("to", Json.strings ["bob"]), ("content", .str "hello")])]

/-- Posted, listed, read and followed, with every message rendered. -/
def lettersRun : List Request :=
  [.joinAs "alice", .joinAs "bob", .outbox "alice" wrappedLetter "alice" ⟨"m1", january 2⟩,
    .inbox "bob" "bob", .readObject "m1" "bob" (january 3), .thread "m1" "alice"]

theorem wrapped_letter_keepsRendering :
    asciiApi.Throughout asciiApi.KeepsRendering firstOpening lettersRun := by
  refine (Api.keepsRendering_throughout_iff renders_firstOpening lettersRun).mpr ?_
  refine ⟨trivial, trivial, ?_, trivial, trivial, trivial, trivial⟩
  intro raw draft v hposts _ hv
  have hraw : wrappedLetter.asObject = .ok raw := hposts.decoded
  cases hraw
  have haudience : some (Json.strings ["team"]) = some v := hv
  cases haudience
  rfl

end AgentMailbox
