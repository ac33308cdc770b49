import AgentMailbox.Foreign

/-!
# Rendering and reading again

The rendering of a message carries its foreign properties under `extra`, and whoever
reads the rendering takes `extra` itself for a foreign property. So they are one level
deeper after every hop.
-/
namespace AgentMailbox

namespace Json

/-- A text or `None`. -/
def orNull (text : Option String) : Json := text.elim null str

mutual
/-- How deep arrays and objects are nested. -/
def depth : Json → ℕ
  | arr items => depthItems items + 1
  | obj fields => depthFields fields + 1
  | _ => 0

def depthItems : List Json → ℕ
  | [] => 0
  | v :: rest => max (depth v) (depthItems rest)

def depthFields : List (String × Json) → ℕ
  | [] => 0
  | (_, v) :: rest => max (depth v) (depthFields rest)
end

lemma depth_le_depthFields {key : String} {v : Json} {fields : List (String × Json)}
    (h : (key, v) ∈ fields) : v.depth ≤ depthFields fields := by
  induction fields with
  | nil => cases h
  | cons field rest ih =>
    obtain ⟨k, w⟩ := field
    rcases List.mem_cons.mp h with heq | hrest
    · cases heq
      exact le_max_left _ _
    · exact (ih hrest).trans (le_max_right _ _)

/-- A property is less deep than the object that has it. -/
lemma depth_lt_ofDict {d : JsonObject} {key : String} {v : Json}
    (h : d.lookup key = some v) : v.depth < (ofDict d).depth := by
  have hmem : (⟨key, v⟩ : Σ _ : String, Json) ∈ d.entries := AList.mem_lookup_iff.mp h
  exact Nat.lt_succ_of_le (depth_le_depthFields (List.mem_map_of_mem hmem))

end Json

namespace Note

/-- Every field, those that are `None` too. -/
def fields (note : Note) : List (String × Json) :=
  [("id", .orNull note.id), ("type", .str note.type_),
    ("attributedTo", .orNull note.attributedTo), ("to", Json.strings note.to_),
    ("cc", Json.strings note.cc), ("summary", .orNull note.summary), ("content", .str note.content),
    ("inReplyTo", .orNull note.inReplyTo), ("published", .orNull note.published),
    ("audience", note.audience.elim .null .arr), ("extra", Json.ofDict note.extra)]

/-- What is transmitted of a note. -/
def document (note : Note) : JsonObject := Dict.ofList note.fields

lemma entries_document (note : Note) :
    note.document.entries = note.fields.map fun field => ⟨field.1, field.2⟩ := by
  have hkeys : note.fields.map Prod.fst = ["id", "type", "attributedTo", "to", "cc", "summary",
    "content", "inReplyTo", "published", "audience", "extra"] := rfl
  apply Dict.entries_ofList
  rw [hkeys]
  decide

end Note

/-- What a message carries besides its audience. -/
def foreignProperties (record : ObjectRecord) : JsonObject :=
  record.document.filterKeys (· ≠ "audience")

/-- The rendering of the message reads back as its foreign properties, whatever is read
for its audience. -/
def Survives (wire : Renderer) (record : ObjectRecord) : Prop :=
  ∃ note, wire.note record = .ok note ∧ ∀ key, key ≠ "audience" →
    (unknownProperties note.document).lookup key = (foreignProperties record).lookup key

/-- The second message has the document of the rendering of the first, by whatever hub
and however it was addressed. -/
def Hop (record last : ObjectRecord) : Prop :=
  ∃ (wire : Renderer) (note : Note) (names : List String), wire.note record = .ok note ∧
    last.document = Mailbox.documentOf names (some (unknownProperties note.document))

/-- So many hops from one message to another. -/
inductive Hops (record : ObjectRecord) : ℕ → ObjectRecord → Prop
  | none : Hops record 0 record
  | more {n : ℕ} {between last : ObjectRecord} (h : Hops record n between)
    (hop : Hop between last) : Hops record (n + 1) last

/-- Properties under so many `extra`s. -/
def nested (properties : JsonObject) : ℕ → JsonObject
  | 0 => properties
  | n + 1 => Dict.ofList [("extra", Json.ofDict (nested properties n))]

/-! ## One hop -/

lemma note_extra {wire : Renderer} {record : ObjectRecord} {note : Note}
    (h : wire.note record = .ok note) : note.extra = foreignProperties record := by
  obtain ⟨_, _, rfl⟩ := Renderer.note_ok h
  rfl

/-- What is read of a rendering: the audience, and `extra`. -/
theorem entries_unknownProperties (note : Note) : (unknownProperties note.document).entries =
    [⟨"audience", note.audience.elim .null .arr⟩, ⟨"extra", Json.ofDict note.extra⟩] := by
  have hobject : note.document.lookup "object" = none := by
    rw [AList.lookup_eq_none, AList.mem_keys, AList.keys, note.entries_document]
    simp [Note.fields, List.keys]
  have hwrapped : wrappedNote note.document = none := by simp only [wrappedNote, hobject]
  simp only [unknownProperties_eq, hwrapped, Dict.filterKeys, note.entries_document]
  simp [Note.fields, modelled]

lemma lookup_extra (note : Note) :
    (unknownProperties note.document).lookup "extra" = some (Json.ofDict note.extra) := by
  rw [AList.lookup, entries_unknownProperties]
  rfl

lemma Hop.foreignProperties_eq {record last : ObjectRecord} (h : Hop record last) :
    foreignProperties last = nested (foreignProperties record) 1 := by
  obtain ⟨wire, note, names, hnote, hdocument⟩ := h
  have hentries : (foreignProperties last).entries =
      [⟨"extra", Json.ofDict (foreignProperties record)⟩] := by
    unfold foreignProperties Dict.filterKeys
    rw [hdocument, Mailbox.documentOf, Dict.update, Option.getD_some, entries_unknownProperties,
      note_extra hnote]
    rfl
  exact AList.ext hentries

/-- Properties cannot be their own `extra`. -/
lemma lookup_extra_ne {properties : JsonObject} {v : Json}
    (hdepth : (Json.ofDict properties).depth ≤ v.depth) :
    properties.lookup "extra" ≠ some v := by
  intro h
  exact absurd (Json.depth_lt_ofDict h) hdepth.not_gt

theorem not_survives (wire : Renderer) (record : ObjectRecord) : ¬ Survives wire record := by
  rintro ⟨note, hnote, hsame⟩
  have hextra := hsame "extra" (by decide)
  rw [lookup_extra, note_extra hnote] at hextra
  exact lookup_extra_ne le_rfl hextra.symm

/-! ## Any number of hops -/

/-- Every `extra` is one level more. -/
lemma depth_nested (properties : JsonObject) (n : ℕ) :
    (Json.ofDict (nested properties n)).depth = (Json.ofDict properties).depth + n := by
  induction n with
  | zero => rfl
  | succ n ih =>
    have hstep : ∀ d : JsonObject,
        (Json.ofDict (Dict.ofList [("extra", Json.ofDict d)])).depth =
          max (Json.ofDict d).depth 0 + 1 := fun d => rfl
    rw [nested, hstep, ih, Nat.max_zero, Nat.add_assoc]

lemma Hops.foreignProperties_eq {record last : ObjectRecord} {n : ℕ} (h : Hops record n last) :
    foreignProperties last = nested (foreignProperties record) n := by
  induction h with
  | none => rfl
  | more _ hop ih =>
    rw [hop.foreignProperties_eq, ih]
    rfl

/-- After a hop or more something is under `extra` that was not there. -/
lemma Hops.changed {record last : ObjectRecord} {n : ℕ} (h : Hops record n last) (hn : 0 < n) :
    (foreignProperties last).lookup "extra" ≠ (foreignProperties record).lookup "extra" := by
  obtain ⟨n, rfl⟩ := Nat.exists_eq_succ_of_ne_zero hn.ne'
  have hextra : (foreignProperties last).lookup "extra" =
      some (Json.ofDict (nested (foreignProperties record) n)) := by
    rw [h.foreignProperties_eq]
    rfl
  rw [hextra]
  refine (lookup_extra_ne ?_).symm
  rw [depth_nested]
  exact Nat.le_add_right _ n

/-! ## Through the outbox -/

section
variable {μ : Type} {api : Api μ}

/-- A posted rendering that is not taken for a bare reply is a hop. -/
lemma hop_of_stores {record obj : ObjectRecord} {note posted : Note} {name caller : String}
    {stamp : Stamp} {s : HouseState μ} (hnote : api.wire.note record = .ok note)
    (hstores : api.Stores name (Json.ofDict note.document) caller stamp s note.document posted obj)
    (hsent : api.repliesTo posted = none) : Hop record obj := by
  have hdocument := hstores.document_eq
  rw [hsent] at hdocument
  obtain ⟨names, hobj⟩ := hdocument
  have hunknown : unknownProperties note.document ≠ ∅ := by
    intro hempty
    have hextra := lookup_extra note
    rw [hempty, AList.lookup_empty] at hextra
    cases hextra
  rw [if_neg hunknown] at hobj
  exact ⟨api.wire, note, names, hnote, hobj⟩

/-- A bare reply has no foreign properties. -/
lemma foreignProperties_bare {obj : ObjectRecord} {posted : Note} {name caller parent : String}
    {stamp : Stamp} {s : HouseState μ} {document : JsonObject} {body : Json}
    (hstores : api.Stores name body caller stamp s document posted obj)
    (hreply : api.repliesTo posted = some parent) : foreignProperties obj = ∅ := by
  have hdocument := hstores.document_eq
  rw [hreply] at hdocument
  obtain ⟨original, names, -, -, hobj⟩ := hdocument
  unfold foreignProperties
  rw [hobj]
  rfl

/-- What is stored of a posted rendering has the foreign properties of the message that was
rendered only when there are none, and none are stored. -/
lemma reposted_same_iff {record obj : ObjectRecord} {note posted : Note} {name caller : String}
    {stamp : Stamp} {s : HouseState μ} (hnote : api.wire.note record = .ok note)
    (hstores : api.Stores name (Json.ofDict note.document) caller stamp s note.document posted
      obj) : foreignProperties obj = foreignProperties record ↔
        api.repliesTo posted ≠ none ∧ foreignProperties record = ∅ := by
  cases hreply : api.repliesTo posted with
  | none =>
    have hhop : Hops record 1 obj := .more .none (hop_of_stores hnote hstores hreply)
    refine iff_of_false (fun hsame => ?_) fun h => h.1 rfl
    exact hhop.changed one_pos (congrArg (AList.lookup "extra") hsame)
  | some parent =>
    rw [foreignProperties_bare hstores hreply, eq_comm]
    exact (and_iff_right (Option.some_ne_none parent)).symm

end

/-- No rendering reads back as the foreign properties of its message. With every hop they
are one level deeper, under another `extra`, so after any number of hops they are not what
they were; and posting a rendering is such a hop, unless it is taken for a bare reply,
which keeps no foreign property. -/
theorem foreign_properties_sink {μ : Type} (api : Api μ) :
    (∀ record, ¬ Survives api.wire record) ∧
    (∀ record n last, Hops record n last →
      foreignProperties last = nested (foreignProperties record) n ∧
      (Json.ofDict (foreignProperties last)).depth =
        (Json.ofDict (foreignProperties record)).depth + n ∧
      (0 < n → (foreignProperties last).lookup "extra" ≠
        (foreignProperties record).lookup "extra")) ∧
    ∀ record note name caller stamp s posted obj, api.wire.note record = .ok note →
      api.Stores name (Json.ofDict note.document) caller stamp s note.document posted obj →
        (api.repliesTo posted = none → Hop record obj) ∧
        (foreignProperties obj = foreignProperties record ↔
          api.repliesTo posted ≠ none ∧ foreignProperties record = ∅) := by
  refine ⟨not_survives api.wire, ?_, ?_⟩
  · intro record n last hhops
    have hlast := hhops.foreignProperties_eq
    refine ⟨hlast, ?_, hhops.changed⟩
    rw [hlast, depth_nested]
  · intro record note name caller stamp s posted obj hnote hstores
    exact ⟨hop_of_stores hnote hstores, reposted_same_iff hnote hstores⟩

/-- A cheerful note. -/
def cheerfulNote : Json :=
  .obj [("to", Json.strings ["bob"]), ("content", .str "hello"), ("x:mood", .str "cheerful")]

/-- The record of a message of alice's to bob. -/
def alicesMessage (id : String) (now : DateTime) (extra : JsonObject) : ObjectRecord where
  id := id
  attributedTo := "alice"
  to_ := ["bob"]
  content := "hello"
  published := now.isoformat
  document := Mailbox.documentOf ["bob"] (some extra)

/-- Alice and bob have joined, and alice has written to bob. -/
def bobIsCheered : HouseState Observations :=
  asciiApi.after firstOpening [.joinAs "alice", .joinAs "bob",
    .outbox "alice" cheerfulNote "alice" ⟨"m1", january 2⟩]

/-- The message as alice posted it. -/
def cheerfulMessage : ObjectRecord :=
  alicesMessage "m1" (january 2) (Dict.ofList [("x:mood", .str "cheerful")])

/-- Its rendering. -/
def cheerfulRendering : Note where
  id := some "http://localhost:8080/objects/m1"
  attributedTo := some "http://localhost:8080/actors/alice"
  to_ := ["http://localhost:8080/actors/bob"]
  content := "hello"
  published := some (january 2).isoformat
  audience := some [.str "bob"]
  extra := Dict.ofList [("x:mood", .str "cheerful")]

/-- What is read of its rendering. -/
def sunkMood : JsonObject := Dict.ofList
  [("audience", Json.strings ["bob"]), ("extra", .obj [("x:mood", .str "cheerful")])]

/-- Posted again by alice, the message has its mood one level deeper. -/
theorem cheer_reposted :
    foreignProperties (alicesMessage "m2" (january 3) sunkMood) =
      nested (foreignProperties cheerfulMessage) 1 := by
  have hsend : (asciiApi.house.step (.send "alice"
      { to_ := .many ["bob"], body := "hello", document := some sunkMood }
      ⟨"m2", january 3⟩) bobIsCheered).1 =
        .ok (.message (alicesMessage "m2" (january 3) sunkMood)) := by decide +kernel
  have hposted : asciiApi.posted "alice" (Json.ofDict cheerfulRendering.document) "alice"
      ⟨"m2", january 3⟩ = .ok (.send "alice"
        { to_ := .many ["bob"], body := "hello", document := some sunkMood }
        ⟨"m2", january 3⟩) := rfl
  have hnote : asciiApi.wire.note cheerfulMessage = .ok cheerfulRendering := by decide +kernel
  have hsink := foreign_properties_sink asciiApi
  have hhop := (hsink.2.2 cheerfulMessage cheerfulRendering "alice" "alice" ⟨"m2", january 3⟩
    bobIsCheered cheerfulRendering (alicesMessage "m2" (january 3) sunkMood) hnote
    ⟨Json.asObject_ofDict _, ⟨{ object := cheerfulRendering }, by decide +kernel, rfl⟩, _, hposted,
      hsend⟩).1 (by decide +kernel)
  exact (hsink.2.1 _ 1 _ (.more .none hhop)).1

/-- The mood comes back under `extra`. -/
theorem mood_sinks :
    bobIsCheered.store.objects.lookup "m1" = some cheerfulMessage ∧
      asciiApi.wire.note cheerfulMessage = .ok cheerfulRendering ∧
      foreignProperties cheerfulMessage = Dict.ofList [("x:mood", .str "cheerful")] ∧
      unknownProperties cheerfulRendering.document = sunkMood ∧
      sunkMood ≠ foreignProperties cheerfulMessage ∧
      ¬ Survives asciiApi.wire cheerfulMessage := by
  refine ⟨by decide +kernel, by decide +kernel, by decide +kernel, by decide +kernel,
    by decide +kernel, not_survives _ _⟩

end AgentMailbox
