import AgentMailbox.Foreign

/-!
# The recorded audience

A message's document records under `audience` the names its sender typed. The document the
client sends along is laid over that record, so the record is what was typed exactly when
the client's own `audience`, if it sends one, says the same.
-/
namespace AgentMailbox

namespace Mailbox

/-- What was typed, `to` and then `cc`, as the document records it. -/
def typedAudience (mb : Mailbox) (to_ cc : List String) : Except Raised Json := do
  let recipients ← mb.localAll to_
  let copies ← mb.localAll cc
  return Json.strings (recipients ++ copies)

end Mailbox

/-- The message records what was typed. -/
def AudienceTyped (mb : Mailbox) (to_ cc : List String) (obj : ObjectRecord) : Prop :=
  ∃ v, mb.typedAudience to_ cc = .ok v ∧ obj.document.lookup "audience" = some v

/-- What the client sends along under `audience` is what was typed. -/
def SaysTyped (mb : Mailbox) (to_ cc : List String) (sent : Option Json) : Prop :=
  ∀ v, sent = some v → mb.typedAudience to_ cc = .ok v

/-- Of a sending that succeeds, what was typed is recorded exactly when the client does not
say otherwise. -/
lemma Mailbox.sendIn_audience {mb : Mailbox} {s : InMemoryStore} {caller : String} {draft : Draft}
    {stamp : Stamp} {obj : ObjectRecord} (h : mb.sendIn s caller draft stamp = .ok obj) :
    AudienceTyped mb draft.to_.toList draft.cc obj ↔
      SaysTyped mb draft.to_.toList draft.cc ((draft.document.getD ∅).lookup "audience") := by
  obtain ⟨recipients, copies, hto, hcc, hdocument⟩ := mb.sendIn_document h
  have htyped : mb.typedAudience draft.to_.toList draft.cc =
      .ok (Json.strings (recipients ++ copies)) := by
    simp [Mailbox.typedAudience, hto, hcc]
  unfold AudienceTyped SaysTyped
  rw [hdocument, Mailbox.lookup_documentOf, htyped, if_pos rfl]
  cases (draft.document.getD ∅).lookup "audience" with
  | none => simp
  | some v => simp [eq_comm]

namespace Api

variable {μ : Type} {api : Api μ}

/-- Of a note with recipients, the document sent along is what the client posted; of a bare
reply there is none, and the one name typed is that of the sender it answers. -/
lemma Stores.audience {name : String} {body : Json} {caller : String} {stamp : Stamp}
    {s : HouseState μ} {document : JsonObject} {note : Note} {obj : ObjectRecord}
    (h : api.Stores name body caller stamp s document note obj) :
    match api.repliesTo note with
    | none => ∃ to_ cc, api.wire.recipients note.to_ = .ok to_ ∧
        api.wire.recipients note.cc = .ok cc ∧
        (AudienceTyped api.house.mailbox to_ cc obj ↔
          SaysTyped api.house.mailbox to_ cc (postedAudience document))
    | some parent => ∃ original,
        api.house.mailbox.visibleIn s.store caller parent = .ok original ∧
          AudienceTyped api.house.mailbox [original.attributedTo] [] obj := by
  obtain ⟨draft, stamp', -, hdrafted, hsent⟩ := h.drafted
  have haudience := Mailbox.sendIn_audience hsent
  unfold DraftOf at hdrafted
  cases hreply : api.repliesTo note with
  | some parent =>
    rw [hreply] at hdrafted
    obtain ⟨original, hvisible, rfl⟩ := hdrafted
    refine ⟨original, hvisible, haudience.mpr fun v hv => ?_⟩
    cases hv
  | none =>
    rw [hreply] at hdrafted
    rw [draftOf_audience hdrafted] at haudience
    obtain ⟨to_, cc, hto, hcc, rfl⟩ := draftOf_ok hdrafted
    exact ⟨to_, cc, hto, hcc, haudience⟩

end Api

/-- The recorded audience is what the sender typed exactly when the client does not send
another one along; a bare reply always records the sender it answers. -/
theorem audience_authentic_iff {μ : Type} (api : Api μ) :
    (∀ (mb : Mailbox) (s s' : InMemoryStore) (caller : String) (draft : Draft) (stamp : Stamp)
      (obj : ObjectRecord),
      (Operation.send caller draft stamp).step mb s = (.ok (.message obj), s') →
      s' = s.addObject obj ∧ (AudienceTyped mb draft.to_.toList draft.cc obj ↔
        SaysTyped mb draft.to_.toList draft.cc ((draft.document.getD ∅).lookup "audience"))) ∧
    ∀ (name : String) (body : Json) (caller : String) (stamp : Stamp) (s s' : HouseState μ)
      (response : Response),
      api.serve (.outbox name body caller stamp) s = (.ok response, s') →
      ∃ document note obj, body.asObject = .ok document ∧
        (∃ activity, decodeActivity api.msgspec document = .ok activity ∧
          activity.object = note) ∧
        s'.store = s.store.addObject obj ∧
        match api.repliesTo note with
        | none => ∃ to_ cc, api.wire.recipients note.to_ = .ok to_ ∧
            api.wire.recipients note.cc = .ok cc ∧
            (AudienceTyped api.house.mailbox to_ cc obj ↔
              SaysTyped api.house.mailbox to_ cc (postedAudience document))
        | some parent => ∃ original,
            api.house.mailbox.visibleIn s.store caller parent = .ok original ∧
              AudienceTyped api.house.mailbox [original.attributedTo] [] obj := by
  constructor
  · intro mb s s' caller draft stamp obj h
    rw [Operation.step_send, Prod.mk.injEq] at h
    cases hobj : mb.sendIn s caller draft stamp with
    | error e =>
      rw [hobj] at h
      cases h.1
    | ok sent =>
      rw [hobj] at h
      obtain ⟨hsent, rfl⟩ := h
      cases hsent
      exact ⟨rfl, mb.sendIn_audience hobj⟩
  · intro name body caller stamp s s' response h
    obtain ⟨document, note, obj, hstores⟩ := Api.stores_of_serve h
    have hstore := hstores.stored
    rw [h] at hstore
    exact ⟨document, note, obj, hstores.decoded, hstores.wraps, hstore, hstores.audience⟩

/-- Alice and bob, before any mail. -/
def twoJoined : InMemoryStore := after asciiMailbox .empty [joinAs "alice", joinAs "bob"]

/-- A note to bob, with a document of the client's. -/
def toBobWith (document : JsonObject) : Draft where
  to_ := .one "bob"
  body := "hello"
  document := some document

def bobsNoteWith (document : JsonObject) : ObjectRecord where
  id := "m1"
  attributedTo := "alice"
  to_ := ["bob"]
  content := "hello"
  published := (january 2).isoformat
  document := Mailbox.documentOf ["bob"] (some document)

def moodOnly : JsonObject := Dict.ofList [("x:mood", .str "cheerful")]

/-- A client says that the note was for everyone. -/
def saysEveryone : JsonObject := Dict.ofList [("audience", Json.strings ["everyone"])]

/-- A mood leaves the recorded audience alone. -/
theorem mood_keeps_audience : AudienceTyped asciiMailbox ["bob"] [] (bobsNoteWith moodOnly) := by
  have hstep : ((Operation.send "alice" (toBobWith moodOnly) ⟨"m1", january 2⟩).step asciiMailbox
      twoJoined).1 = .ok (.message (bobsNoteWith moodOnly)) := by decide +kernel
  refine ((audience_authentic_iff asciiApi).1 asciiMailbox twoJoined _ "alice"
    (toBobWith moodOnly) ⟨"m1", january 2⟩ (bobsNoteWith moodOnly)
    (Prod.ext hstep rfl)).2.mpr fun v hv => ?_
  have hnone : moodOnly.lookup "audience" = none := by decide
  rw [show ((toBobWith moodOnly).document.getD ∅) = moodOnly from rfl, hnone] at hv
  cases hv

/-- The client's word is recorded in place of what alice typed. -/
theorem audience_forged :
    ∃ obj s', (Operation.send "alice" (toBobWith saysEveryone) ⟨"m1", january 2⟩).step
        asciiMailbox twoJoined = (.ok (.message obj), s') ∧
      obj.document.lookup "audience" = some (Json.strings ["everyone"]) ∧
      ¬ AudienceTyped asciiMailbox ["bob"] [] obj := by
  have hstep : ((Operation.send "alice" (toBobWith saysEveryone) ⟨"m1", january 2⟩).step
      asciiMailbox twoJoined).1 = .ok (.message (bobsNoteWith saysEveryone)) := by decide +kernel
  have hrecorded : (bobsNoteWith saysEveryone).document.lookup "audience" =
      some (Json.strings ["everyone"]) := by decide +kernel
  refine ⟨bobsNoteWith saysEveryone, _, Prod.ext hstep rfl, hrecorded, ?_⟩
  rintro ⟨v, hv, hlookup⟩
  have htyped : asciiMailbox.typedAudience ["bob"] [] = .ok (Json.strings ["bob"]) := by
    decide +kernel
  rw [htyped, Except.ok.injEq] at hv
  rw [hrecorded, ← hv, Option.some.injEq] at hlookup
  exact absurd hlookup (by decide)

end AgentMailbox
