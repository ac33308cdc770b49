import AgentMailbox.Foreign

/-!
# Bare notes

A note may be posted by itself or in an activity that wraps it. Which of the two a body is,
the outbox decides by its type or by a property `object`; so a note that itself has such a
property is read as the activity, and what it holds there is posted in its place.
-/
namespace AgentMailbox

/-- `{"type": "Create", "object": note}`. -/
def wrapping (inner : List (String × Json)) : List (String × Json) :=
  [("type", .str "Create"), ("object", .obj inner)]

/-- A note is converted in the field `object` as it is by itself. -/
def Msgspec.Nested (msgspec : Msgspec) : Prop :=
  ∀ inner note, msgspec.convertNote (Dict.ofList inner) = .ok note →
    ∃ activity, msgspec.convertCreate (Dict.ofList (wrapping inner)) = .ok activity ∧
      activity.object = note

theorem Msgspec.plain_nested : Msgspec.plain.Nested := by
  intro inner note h
  have hobject : (Dict.ofList (wrapping inner)).lookup "object" = some (.obj inner) := rfl
  have hfields : (Dict.ofList (wrapping inner)).lookup "@context" = none ∧
      (Dict.ofList (wrapping inner)).lookup "type" = some (.str "Create") ∧
      (Dict.ofList (wrapping inner)).lookup "actor" = none := ⟨rfl, rfl, rfl⟩
  have hnote : Msgspec.noteOf (Dict.ofList inner) = .ok note := h
  have hcreate : Msgspec.createOf (Dict.ofList (wrapping inner)) = .ok { object := note } := by
    simp [Msgspec.createOf, hobject, hfields, Msgspec.object, hnote, Msgspec.field, Msgspec.text]
  exact ⟨_, hcreate, rfl⟩

/-- What is foreign on a note without an `object` is all that is foreign on its wrapping. -/
lemma unknownProperties_wrapping {inner : List (String × Json)}
    (h : "object" ∉ Dict.ofList inner) :
    unknownProperties (Dict.ofList (wrapping inner)) = unknownProperties (Dict.ofList inner) := by
  have hbare : wrappedNote (Dict.ofList inner) = none := by
    unfold wrappedNote
    rw [AList.lookup_eq_none.mpr h]
  have hwrapped : wrappedNote (Dict.ofList (wrapping inner)) = some (Dict.ofList inner) := rfl
  have houter : (Dict.ofList (wrapping inner)).filterKeys (· ∉ modelled) = ∅ := rfl
  rw [unknownProperties_eq, unknownProperties_eq, hbare, hwrapped]
  simp only [houter, Dict.empty_update]

namespace Api

variable {μ : Type} {api : Api μ}

/-- What is posted counts only as the note that is read and the foreign properties. -/
lemma outbox_congr {body body' : Json} {raw raw' : JsonObject} {activity activity' : Create}
    (hraw : body.asObject = .ok raw) (hraw' : body'.asObject = .ok raw')
    (hread : decodeActivity api.msgspec raw = .ok activity)
    (hread' : decodeActivity api.msgspec raw' = .ok activity')
    (hnote : activity.object = activity'.object)
    (hunknown : unknownProperties raw = unknownProperties raw') (name caller : String)
    (stamp : Stamp) :
    api.outbox name body caller stamp = api.outbox name body' caller stamp := by
  unfold outbox draftOf
  simp only [hraw, hraw', Program.ofExcept_ok_bind, hread, hread', hnote, hunknown]

/-- A note without an `object` is posted as its wrapping is. -/
theorem outbox_wrapping (hnested : api.msgspec.Nested) {inner : List (String × Json)} {note : Note}
    (htype : (Dict.ofList inner).lookup "type" = some (.str "Note"))
    (hnote : api.msgspec.convertNote (Dict.ofList inner) = .ok note)
    (hobject : "object" ∉ Dict.ofList inner) (name caller : String) (stamp : Stamp) :
    api.outbox name (.obj inner) caller stamp =
      api.outbox name (.obj (wrapping inner)) caller stamp := by
  obtain ⟨activity, hactivity, rfl⟩ := hnested inner note hnote
  have hbare : decodeActivity api.msgspec (Dict.ofList inner) =
      .ok { object := activity.object } := by
    unfold decodeActivity
    rw [htype, if_neg (by simp [hobject]), hnote]
    rfl
  have hwrapped : decodeActivity api.msgspec (Dict.ofList (wrapping inner)) = .ok activity := by
    unfold decodeActivity
    rw [if_pos (by simp [wrapping, Dict.ofList]), hactivity]
  exact outbox_congr rfl rfl hbare hwrapped rfl (unknownProperties_wrapping hobject).symm name
    caller stamp

/-- Whatever is posted to the outbox of somebody else is refused before it is looked at. -/
theorem outbox_of_another {name caller : String} {e : Raised}
    (h : owns name caller api.wire = .error e) (body : Json) (stamp : Stamp) :
    api.outbox name body caller stamp = .raise e := by
  unfold outbox
  rw [h]
  rfl

/-- Whatever a request to an outbox asks to be sent has the content of the note that was read. -/
lemma drafted_body {name : String} {body : Json} {caller : String} {stamp : Stamp}
    {op : Operation} (hposted : api.posted name body caller stamp = .ok op) {s : InMemoryStore}
    {sender : String} {draft : Draft}
    (hdraft : op.drafted api.house.mailbox s = .ok (some (sender, draft))) :
    ∃ raw activity, body.asObject = .ok raw ∧ decodeActivity api.msgspec raw = .ok activity ∧
      draft.body = activity.object.content := by
  obtain ⟨raw, activity, hraw, hactivity, _, hcases⟩ := posted_drafted hposted hdraft
  refine ⟨raw, activity, hraw, hactivity, ?_⟩
  cases hreply : api.repliesTo activity.object with
  | some parent =>
    rw [hreply] at hcases
    obtain ⟨_, original, _, rfl⟩ := hcases
    rfl
  | none =>
    rw [hreply] at hcases
    obtain ⟨recipients, copies, _, _, rfl⟩ := draftOf_ok hcases.2
    rfl

/-- An outbox answers with the content of the note that was read. -/
lemma serve_content {name : String} {body : Json} {caller : String} {stamp : Stamp}
    {s s' : HouseState μ} {response : Response}
    (h : api.serve (.outbox name body caller stamp) s = (.ok response, s')) :
    ∃ raw activity rendered, body.asObject = .ok raw ∧
      decodeActivity api.msgspec raw = .ok activity ∧ response = .note rendered ∧
      rendered.content = activity.object.content := by
  cases hposted : api.posted name body caller stamp with
  | error e =>
    rw [serve_outbox_refused hposted] at h
    cases h
  | ok op =>
    obtain ⟨obj, rendered, hanswer, hrendered, rfl⟩ :=
      (serve_outbox hposted s).2 response (by rw [h])
    have hstep : op.step api.house.mailbox s.store =
        (.ok (.message obj), (api.house.step op s).2.store) :=
      House.step_ok (Prod.ext hanswer rfl)
    obtain ⟨sender, draft, stamp', sent, hresult, hdraft, hsent, _⟩ :=
      step_sends api.house.mailbox (by simp [posted_minted hposted]) hstep
    cases hresult
    obtain ⟨raw, activity, hraw, hactivity, hbody⟩ := drafted_body hposted hdraft
    refine ⟨raw, activity, rendered, hraw, hactivity, rfl, ?_⟩
    obtain ⟨_, _, _, _, _, _, _, _, _, hobj⟩ :=
      (api.house.mailbox.sendIn_ok_iff s.store sender draft stamp' obj).mp hsent
    obtain ⟨_, _, rfl⟩ := Renderer.note_ok hrendered
    rw [← hbody, hobj]
    rfl

end Api

/-- A note and its wrapping are posted alike if the path is not the caller's, or if the note has
no property `object`. If it has one they can be answered alike only where the note says what is
read of its `object`. -/
theorem bare_note_as_wrapped {μ : Type} (api : Api μ) (hnested : api.msgspec.Nested)
    (inner : List (String × Json)) (note : Note)
    (htype : (Dict.ofList inner).lookup "type" = some (.str "Note"))
    (hnote : api.msgspec.convertNote (Dict.ofList inner) = .ok note) :
    (∀ name caller, (∀ own, owns name caller api.wire ≠ .ok own) ∨ "object" ∉ Dict.ofList inner →
      ∀ stamp s, api.serve (.outbox name (.obj inner) caller stamp) s =
        api.serve (.outbox name (.obj (wrapping inner)) caller stamp) s) ∧
    ("object" ∈ Dict.ofList inner → ∀ name caller stamp s response s',
      api.serve (.outbox name (.obj (wrapping inner)) caller stamp) s = (.ok response, s') →
      api.serve (.outbox name (.obj inner) caller stamp) s =
        api.serve (.outbox name (.obj (wrapping inner)) caller stamp) s →
      ∃ activity, api.msgspec.convertCreate (Dict.ofList inner) = .ok activity ∧
        activity.object.content = note.content) := by
  constructor
  · intro name caller hcase stamp s
    rw [Api.serve, Api.serve, Api.program, Api.program]
    rcases hcase with hother | hobject
    · cases howns : owns name caller api.wire with
      | ok own => exact absurd howns (hother own)
      | error e => rw [Api.outbox_of_another howns, Api.outbox_of_another howns]
    · rw [Api.outbox_wrapping hnested htype hnote hobject]
  · intro hobject name caller stamp s response s' hwrapped hsame
    rw [hwrapped] at hsame
    obtain ⟨raw, activity, rendered, hraw, hactivity, hresponse, hcontent⟩ :=
      Api.serve_content hsame
    obtain ⟨raw', activity', rendered', hraw', hactivity', hresponse', hcontent'⟩ :=
      Api.serve_content hwrapped
    cases hraw
    cases hraw'
    rw [hresponse', Response.note.injEq] at hresponse
    obtain ⟨known, hknown, rfl⟩ := hnested inner note hnote
    have hread : activity' = known := by
      unfold decodeActivity at hactivity'
      rw [if_pos (by simp [wrapping, Dict.ofList]), hknown, Except.ok.injEq] at hactivity'
      exact hactivity'.symm
    unfold decodeActivity at hactivity
    rw [if_pos (by simp [hobject])] at hactivity
    exact ⟨activity, hactivity, by rw [← hcontent, ← hresponse, hcontent', hread]⟩

/-- A note to bob without an `object`. -/
def plainNote : List (String × Json) :=
  [("type", .str "Note"), ("to", Json.strings ["bob"]), ("content", .str "hello"),
    ("x:mood", .str "cheerful")]

/-- A note to bob about a note of another text. -/
def noteWithObject : List (String × Json) :=
  [("type", .str "Note"), ("to", Json.strings ["bob"]), ("content", .str "hello"),
    ("object", .obj [("to", Json.strings ["bob"]), ("content", .str "something else")])]

/-- Alice and bob have joined the hub. -/
def hubOfTwo : HouseState Observations :=
  asciiApi.after firstOpening [.joinAs "alice", .joinAs "bob"]

/-- Posted by alice, the note comes to the same bare and wrapped. -/
theorem plain_note_as_wrapped :
    asciiApi.serve (.outbox "alice" (.obj plainNote) "alice" ⟨"m1", january 2⟩) hubOfTwo =
      asciiApi.serve (.outbox "alice" (.obj (wrapping plainNote)) "alice" ⟨"m1", january 2⟩)
        hubOfTwo :=
  (bare_note_as_wrapped asciiApi Msgspec.plain_nested plainNote
    { to_ := ["bob"], content := "hello" } (by decide) (by decide +kernel)).1 "alice" "alice"
    (Or.inr (by decide)) _ _

/-- Posted bare, the note about another is lost, and the other is sent. -/
theorem note_with_object_lost :
    (Dict.ofList noteWithObject).lookup "type" = some (.str "Note") ∧
    asciiApi.msgspec.convertNote (Dict.ofList noteWithObject) =
      .ok { to_ := ["bob"], content := "hello" } ∧
    ((asciiApi.serve (.outbox "alice" (.obj noteWithObject) "alice" ⟨"m1", january 2⟩)
      hubOfTwo).2.store.objects.lookup "m1").map ObjectRecord.content = some "something else" ∧
    ((asciiApi.serve (.outbox "alice" (.obj (wrapping noteWithObject)) "alice" ⟨"m1", january 2⟩)
      hubOfTwo).2.store.objects.lookup "m1").map ObjectRecord.content = some "hello" :=
  ⟨by decide, by decide +kernel, by decide +kernel, by decide +kernel⟩

end AgentMailbox
