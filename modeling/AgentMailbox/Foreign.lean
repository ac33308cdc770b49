import AgentMailbox.Posting

/-!
# Foreign properties

What a posted document carries outside the modelled vocabulary, on the activity or on the
note it wraps, and what of it is found in the document of the message that is stored.
-/
namespace AgentMailbox

/-- The note that a document wraps, if it wraps one. -/
def wrappedNote (document : JsonObject) : Option JsonObject :=
  match document.lookup "object" with
  | some (.obj inner) => some (Dict.ofList inner)
  | _ => none

/-- A property outside `MODELLED`, on the document or on the note it wraps. -/
def Foreign (document : JsonObject) (key : String) (v : Json) : Prop :=
  key ∉ modelled ∧ (document.lookup key = some v ∨
    ∃ inner, wrappedNote document = some inner ∧ inner.lookup key = some v)

/-- Every foreign property is in the message's document, under its own key and with its
own value. -/
def ForeignKept (document : JsonObject) (obj : ObjectRecord) : Prop :=
  ∀ key v, Foreign document key v → obj.document.lookup key = some v

/-- No foreign property has one value on the document and another on the note it wraps. -/
def Unambiguous (document : JsonObject) : Prop :=
  ∀ key v w, Foreign document key v → Foreign document key w → v = w

/-! ## What is collected -/

theorem unknownProperties_eq (document : JsonObject) :
    unknownProperties document = match wrappedNote document with
      | some inner => (document.filterKeys (· ∉ modelled)).update
          (inner.filterKeys (· ∉ modelled))
      | none => document.filterKeys (· ∉ modelled) := by
  unfold unknownProperties wrappedNote
  cases document.lookup "object" with
  | none => rfl
  | some v => cases v <;> rfl

/-- The wrapped note's value of a property is collected before the document's own. -/
theorem lookup_unknown {key : String} (hkey : key ∉ modelled) (document : JsonObject) :
    (unknownProperties document).lookup key =
      ((wrappedNote document).bind (AList.lookup key)).or (document.lookup key) := by
  have hfilter : ∀ d : JsonObject, (d.filterKeys (· ∉ modelled)).lookup key = d.lookup key := by
    intro d
    rw [Dict.lookup_filterKeys]
    exact if_pos (by simpa using hkey)
  rw [unknownProperties_eq]
  cases wrappedNote document with
  | none => exact hfilter document
  | some inner =>
    show ((document.filterKeys _).update (inner.filterKeys _)).lookup key = _
    rw [Dict.lookup_update, hfilter, hfilter]
    rfl

/-- What is collected under a key is foreign. -/
theorem foreign_of_unknown {document : JsonObject} {key : String} {v : Json}
    (hkey : key ∉ modelled) (h : (unknownProperties document).lookup key = some v) :
    Foreign document key v := by
  rw [lookup_unknown hkey] at h
  cases hinner : (wrappedNote document).bind (AList.lookup key) with
  | none =>
    rw [hinner] at h
    exact ⟨hkey, Or.inl h⟩
  | some w =>
    rw [hinner] at h
    have hw : w = v := Option.some.inj h
    obtain ⟨inner, hwrapped, hlookup⟩ := Option.bind_eq_some_iff.mp hinner
    exact ⟨hkey, Or.inr ⟨inner, hwrapped, hw ▸ hlookup⟩⟩

/-- Under the key of a foreign property something is collected. -/
theorem unknown_of_foreign {document : JsonObject} {key : String} {v : Json}
    (h : Foreign document key v) : ∃ w, (unknownProperties document).lookup key = some w := by
  obtain ⟨hkey, hcases⟩ := h
  rw [lookup_unknown hkey]
  rcases hcases with hdocument | ⟨inner, hwrapped, hlookup⟩
  · rw [hdocument]
    cases (wrappedNote document).bind (AList.lookup key) with
    | none => exact ⟨v, rfl⟩
    | some w => exact ⟨w, rfl⟩
  · rw [hwrapped]
    show ∃ w, (inner.lookup key).or _ = some w
    rw [hlookup]
    exact ⟨v, rfl⟩

/-- Every foreign property is collected exactly when none has two values. -/
theorem unambiguous_iff (document : JsonObject) : Unambiguous document ↔
    ∀ key v, Foreign document key v → (unknownProperties document).lookup key = some v := by
  constructor
  · intro hunambiguous key v hv
    obtain ⟨w, hw⟩ := unknown_of_foreign hv
    have hwv : w = v := hunambiguous key w v (foreign_of_unknown hv.1 hw) hv
    rw [hw, hwv]
  · intro hcollected key v w hv hw
    have hvw : some v = some w := (hcollected key v hv).symm.trans (hcollected key w hw)
    exact Option.some.inj hvw

/-! ## What is stored -/

namespace Mailbox

/-- The document of a message is what was typed, under what its draft brings. -/
lemma sendIn_document {mb : Mailbox} {s : InMemoryStore} {caller : String} {draft : Draft}
    {stamp : Stamp} {obj : ObjectRecord} (h : mb.sendIn s caller draft stamp = .ok obj) :
    ∃ recipients copies, mb.localAll draft.to_.toList = .ok recipients ∧
      mb.localAll draft.cc = .ok copies ∧
      obj.document = documentOf (recipients ++ copies) draft.document := by
  obtain ⟨actor, recipients, copies, ctx, _, hto, hcc, _, _, hobj⟩ :=
    (mb.sendIn_ok_iff s caller draft stamp obj).mp h
  rw [hobj]
  exact ⟨recipients, copies, hto, hcc, rfl⟩

end Mailbox

/-- A message sent with what was collected keeps every foreign property exactly when none
has two values. -/
lemma foreignKept_sent_iff {document : JsonObject} {obj : ObjectRecord} {names : List String}
    (hobj : obj.document = Mailbox.documentOf names
      (if unknownProperties document = ∅ then none else some (unknownProperties document))) :
    ForeignKept document obj ↔ Unambiguous document := by
  have hgetD : (if unknownProperties document = ∅ then none
      else some (unknownProperties document)).getD ∅ = unknownProperties document := by
    split_ifs with hempty
    · exact hempty.symm
    · rfl
  have hlookup : ∀ key v, Foreign document key v →
      obj.document.lookup key = (unknownProperties document).lookup key := by
    intro key v hv
    obtain ⟨w, hw⟩ := unknown_of_foreign hv
    rw [hobj, Mailbox.lookup_documentOf, hgetD, hw]
    rfl
  rw [unambiguous_iff]
  unfold ForeignKept
  constructor <;> intro h key v hv
  · rw [← hlookup key v hv]
    exact h key v hv
  · rw [hlookup key v hv]
    exact h key v hv

/-- A message sent without a document has the names that were typed, and nothing else. -/
lemma foreignKept_bare_iff {document : JsonObject} {obj : ObjectRecord} {names : List String}
    (hobj : obj.document = Mailbox.documentOf names none) :
    ForeignKept document obj ↔
      ∀ key v, Foreign document key v → key = "audience" ∧ v = Json.strings names := by
  have hlookup : ∀ key, obj.document.lookup key =
      if key = "audience" then some (Json.strings names) else none := by
    intro key
    rw [hobj, Mailbox.lookup_documentOf]
    rfl
  unfold ForeignKept
  constructor
  · intro hkept key v hv
    have hv := hkept key v hv
    rw [hlookup] at hv
    split_ifs at hv with hkey
    exact ⟨hkey, (Option.some.inj hv).symm⟩
  · intro honly key v hv
    obtain ⟨hkey, hnames⟩ := honly key v hv
    rw [hlookup, if_pos hkey, hnames]

/-! ## Through the outbox -/

namespace Api

variable {μ : Type} (api : Api μ)

/-- A request to an outbox posts this document, read as this note, and the house stores
this message for it. -/
structure Stores (name : String) (body : Json) (caller : String) (stamp : Stamp)
    (s : HouseState μ) (document : JsonObject) (note : Note) (obj : ObjectRecord) : Prop where
  decoded : body.asObject = .ok document
  wraps : ∃ activity, decodeActivity api.msgspec document = .ok activity ∧ activity.object = note
  accepted : ∃ op, api.posted name body caller stamp = .ok op ∧
    (api.house.step op s).1 = .ok (.message obj)

/-- What the stored message can keep: of a document with recipients, foreign properties
with one value each; of a bare reply, nothing but the audience it gets anyway, which is
the sender of the message it answers. -/
def Keepable (s : HouseState μ) (caller : String) (document : JsonObject) (note : Note) : Prop :=
  match api.repliesTo note with
  | none => Unambiguous document
  | some parent => ∀ key v, Foreign document key v → key = "audience" ∧
      ∃ original names, api.house.mailbox.visibleIn s.store caller parent = .ok original ∧
        api.house.mailbox.localAll [original.attributedTo] = .ok names ∧ v = Json.strings names

variable {api}

/-- What the house does for the request: one sending, which stores the message. -/
lemma Stores.sent {name : String} {body : Json} {caller : String} {stamp : Stamp}
    {s : HouseState μ} {document : JsonObject} {note : Note} {obj : ObjectRecord}
    (h : api.Stores name body caller stamp s document note obj) :
    ∃ op sender draft stamp', api.posted name body caller stamp = .ok op ∧
      op.drafted api.house.mailbox s.store = .ok (some (sender, draft)) ∧
      api.house.mailbox.sendIn s.store sender draft stamp' = .ok obj ∧
      (api.serve (.outbox name body caller stamp) s).2.store = s.store.addObject obj := by
  obtain ⟨op, hposted, hanswer⟩ := h.accepted
  have hstep : op.step api.house.mailbox s.store =
      (.ok (.message obj), (api.house.step op s).2.store) :=
    House.step_ok (Prod.ext hanswer rfl)
  have hminted : op.minted.isSome = true := by simp [posted_minted hposted]
  obtain ⟨sender, draft, stamp', sent, hresult, hdraft, hsent, hstore⟩ :=
    step_sends api.house.mailbox hminted hstep
  cases hresult
  exact ⟨op, sender, draft, stamp', hposted, hdraft, hsent,
    by rw [(serve_outbox hposted s).1, hstore]⟩

/-- The draft that the message was made of. -/
def DraftOf (api : Api μ) (s : InMemoryStore) (caller : String) (document : JsonObject)
    (note : Note) (draft : Draft) : Prop :=
  match api.repliesTo note with
  | none => api.draftOf document note = .ok draft
  | some parent => ∃ original, api.house.mailbox.visibleIn s caller parent = .ok original ∧
      draft = api.house.mailbox.replyDraft original note.content note.summary

/-- The message is what its draft makes, which the house accepts. -/
lemma Stores.drafted {name : String} {body : Json} {caller : String} {stamp : Stamp}
    {s : HouseState μ} {document : JsonObject} {note : Note} {obj : ObjectRecord}
    (h : api.Stores name body caller stamp s document note obj) : ∃ draft stamp',
      (∃ op, op.drafted api.house.mailbox s.store = .ok (some (caller, draft)) ∧
        (api.house.step op s).1 = .ok (.message obj)) ∧
      api.DraftOf s.store caller document note draft ∧
      api.house.mailbox.sendIn s.store caller draft stamp' = .ok obj := by
  obtain ⟨op, sender, draft, stamp', hposted, hdraft, hsent, -⟩ := h.sent
  obtain ⟨op', hposted', hanswer⟩ := h.accepted
  cases hposted.symm.trans hposted'
  obtain ⟨document', activity', hdecoded, hactivity', rfl, hcases⟩ := posted_drafted hposted hdraft
  obtain ⟨activity, hactivity, hnote⟩ := h.wraps
  cases h.decoded.symm.trans hdecoded
  cases hactivity.symm.trans hactivity'
  subst hnote
  refine ⟨draft, stamp', ⟨op, hdraft, hanswer⟩, ?_, hsent⟩
  unfold DraftOf
  cases hreply : api.repliesTo activity'.object with
  | none =>
    rw [hreply] at hcases
    exact hcases.2
  | some parent =>
    rw [hreply] at hcases
    exact hcases.2

/-- The document of the stored message: of a bare reply the sender of the message it
answers, else what was collected. -/
lemma Stores.document_eq {name : String} {body : Json} {caller : String} {stamp : Stamp}
    {s : HouseState μ} {document : JsonObject} {note : Note} {obj : ObjectRecord}
    (h : api.Stores name body caller stamp s document note obj) :
    match api.repliesTo note with
    | none => ∃ names, obj.document = Mailbox.documentOf names
        (if unknownProperties document = ∅ then none else some (unknownProperties document))
    | some parent => ∃ original names,
        api.house.mailbox.visibleIn s.store caller parent = .ok original ∧
          api.house.mailbox.localAll [original.attributedTo] = .ok names ∧
            obj.document = Mailbox.documentOf names none := by
  obtain ⟨draft, stamp', -, hdrafted, hsent⟩ := h.drafted
  obtain ⟨recipients, copies, hto, hcc, hobj⟩ := Mailbox.sendIn_document hsent
  unfold DraftOf at hdrafted
  cases hreply : api.repliesTo note with
  | some parent =>
    rw [hreply] at hdrafted
    obtain ⟨original, hvisible, rfl⟩ := hdrafted
    have hnone : copies = [] := (Except.ok.inj hcc).symm
    subst hnone
    have hto : api.house.mailbox.localAll [original.attributedTo] = .ok recipients := hto
    rw [List.append_nil] at hobj
    exact ⟨original, recipients, hvisible, hto, hobj⟩
  | none =>
    rw [hreply] at hdrafted
    obtain ⟨_, _, _, _, rfl⟩ := draftOf_ok hdrafted
    exact ⟨_, hobj⟩

/-- The stored message keeps every foreign property exactly when they can be kept. -/
theorem Stores.foreignKept_iff {name : String} {body : Json} {caller : String} {stamp : Stamp}
    {s : HouseState μ} {document : JsonObject} {note : Note} {obj : ObjectRecord}
    (h : api.Stores name body caller stamp s document note obj) :
    ForeignKept document obj ↔ api.Keepable s caller document note := by
  have hdocument := h.document_eq
  unfold Keepable
  cases hreply : api.repliesTo note with
  | none =>
    rw [hreply] at hdocument
    obtain ⟨names, hobj⟩ := hdocument
    exact foreignKept_sent_iff hobj
  | some parent =>
    rw [hreply] at hdocument
    obtain ⟨original, names, hvisible, hnames, hobj⟩ := hdocument
    rw [foreignKept_bare_iff hobj]
    refine forall_congr' fun key => forall_congr' fun v => imp_congr_right fun _ =>
      and_congr_right fun _ => ?_
    constructor
    · intro hv
      exact ⟨original, names, hvisible, hnames, hv⟩
    · rintro ⟨original', names', hvisible', hnames', hv⟩
      rw [hvisible, Except.ok.injEq] at hvisible'
      subst hvisible'
      rw [hnames, Except.ok.injEq] at hnames'
      rw [hv, hnames']

/-- A request that is answered has stored a message. -/
lemma stores_of_serve {name : String} {body : Json} {caller : String} {stamp : Stamp}
    {s s' : HouseState μ} {response : Response}
    (h : api.serve (.outbox name body caller stamp) s = (.ok response, s')) :
    ∃ document note obj, api.Stores name body caller stamp s document note obj := by
  cases hposted : api.posted name body caller stamp with
  | error e =>
    rw [serve_outbox_refused hposted] at h
    cases h
  | ok op =>
    obtain ⟨document, activity, _, hdecoded, hactivity, _⟩ := api.posted_ok hposted
    obtain ⟨obj, _, hanswer, _⟩ := (serve_outbox hposted s).2 response (by rw [h])
    exact ⟨document, activity.object, obj, hdecoded, ⟨activity, hactivity, rfl⟩, op, hposted,
      hanswer⟩

/-- The message is the one thing the request adds to the store. -/
lemma Stores.stored {name : String} {body : Json} {caller : String} {stamp : Stamp}
    {s : HouseState μ} {document : JsonObject} {note : Note} {obj : ObjectRecord}
    (h : api.Stores name body caller stamp s document note obj) :
    (api.serve (.outbox name body caller stamp) s).2.store = s.store.addObject obj := by
  obtain ⟨_, _, _, _, _, _, _, hstore⟩ := h.sent
  exact hstore

end Api

/-- Every request to an outbox that is answered stores a message; and a message that a
request stores has the foreign properties of what was posted exactly when they can be
kept. -/
theorem foreign_properties_kept_iff {μ : Type} (api : Api μ) (name : String) (body : Json)
    (caller : String) (stamp : Stamp) (s : HouseState μ) :
    (∀ response s', api.serve (.outbox name body caller stamp) s = (.ok response, s') →
      ∃ document note obj, api.Stores name body caller stamp s document note obj) ∧
    ∀ document note obj, api.Stores name body caller stamp s document note obj →
      (api.serve (.outbox name body caller stamp) s).2.store = s.store.addObject obj ∧
        (ForeignKept document obj ↔ api.Keepable s caller document note) :=
  ⟨fun _ _ h => Api.stores_of_serve h, fun _ _ _ h => ⟨h.stored, h.foreignKept_iff⟩⟩

/-! ## Moods -/

/-- Alice and bob have joined, and alice has written to bob. -/
def bobHasMail : HouseState Observations :=
  asciiApi.after firstOpening [.joinAs "alice", .joinAs "bob",
    .outbox "alice" (.obj [("to", Json.strings ["bob"]), ("content", .str "hello")]) "alice"
      ⟨"m1", january 2⟩]

/-- An answer to alice's note, in a mood. -/
def moodyReply : JsonObject := Dict.ofList
  [("type", .str "Note"), ("inReplyTo", .str "m1"), ("content", .str "thanks"),
    ("x:mood", .str "cheerful")]

/-- A note in one mood, in an activity in another. -/
def twoMoods : JsonObject := Dict.ofList
  [("type", .str "Create"), ("x:mood", .str "grim"),
    ("object", .obj [("to", Json.strings ["alice"]), ("content", .str "hello"),
      ("x:mood", .str "cheerful")])]

/-- A document, posted by bob. -/
def postedByBob (document : JsonObject) : Json := .obj (document.entries.map fun e => (e.1, e.2))

/-- What the house is asked to send of it. -/
def twoMoodsDraft : Draft where
  to_ := .many ["alice"]
  body := "hello"
  document := some (Dict.ofList [("x:mood", .str "cheerful")])

/-- The record of a message of bob's to alice. -/
def bobsMessage (content : String) (parent : Option String) (extra : JsonObject) :
    ObjectRecord where
  id := "m2"
  attributedTo := "bob"
  to_ := ["alice"]
  inReplyTo := parent
  content := content
  published := (january 3).isoformat
  document := Mailbox.documentOf ["alice"] (some extra)

lemma moodyReply_foreign : Foreign moodyReply "x:mood" (.str "cheerful") :=
  ⟨by decide, Or.inl rfl⟩

lemma twoMoods_foreign : Foreign twoMoods "x:mood" (.str "grim") := ⟨by decide, Or.inl rfl⟩

/-- The mood of the answer is lost, and the mood of the activity is replaced by the note's. -/
theorem moods_lost :
    (∃ note obj, asciiApi.Stores "bob" (postedByBob moodyReply) "bob" ⟨"m2", january 3⟩ bobHasMail
        moodyReply note obj ∧ Foreign moodyReply "x:mood" (.str "cheerful") ∧
      obj.document.lookup "x:mood" = none ∧ ¬ ForeignKept moodyReply obj) ∧
    ∃ note obj, asciiApi.Stores "bob" (postedByBob twoMoods) "bob" ⟨"m2", january 3⟩ bobHasMail
        twoMoods note obj ∧ Foreign twoMoods "x:mood" (.str "grim") ∧
      obj.document.lookup "x:mood" = some (.str "cheerful") ∧ ¬ ForeignKept twoMoods obj := by
  have hreply : (asciiApi.house.step (.reply "bob" "m1" "thanks" none ⟨"m2", january 3⟩)
      bobHasMail).1 = .ok (.message (bobsMessage "thanks" (some "m1") ∅)) := by decide +kernel
  have hletter : (asciiApi.house.step (.send "bob" twoMoodsDraft ⟨"m2", january 3⟩)
      bobHasMail).1 = .ok (.message
        (bobsMessage "hello" none (Dict.ofList [("x:mood", .str "cheerful")]))) := by
    decide +kernel
  constructor
  · refine ⟨_, bobsMessage "thanks" (some "m1") ∅, ⟨rfl, ⟨_, rfl, rfl⟩, _, rfl, hreply⟩,
      moodyReply_foreign, rfl, fun hkept => ?_⟩
    have hmood := hkept _ _ moodyReply_foreign
    revert hmood
    decide +kernel
  · refine ⟨_, bobsMessage "hello" none (Dict.ofList [("x:mood", .str "cheerful")]),
      ⟨rfl, ⟨_, rfl, rfl⟩, _, rfl, hletter⟩, twoMoods_foreign, rfl, fun hkept => ?_⟩
    have hmood := hkept _ _ twoMoods_foreign
    revert hmood
    decide +kernel

end AgentMailbox
