import AgentMailbox.GrantedNames
import AgentMailbox.Hops

/-!
# Routing data over the wire

A rendering spells names and ids as URIs. Whoever decodes the rendering reads the same names
and ids, since those that reach the store are plain text. What can stand in the way is the
audience the document carries: it is rendered as it is found, and decoded as a list of texts.
-/
namespace AgentMailbox

/-! ## Ids -/

/-- `uuid4().hex`: thirty-two hexadecimal digits. -/
def HexId (id : String) : Prop :=
  id.length = 32 ∧ id.toList.all (fun c => "0123456789abcdef".toList.contains c) = true

instance (id : String) : Decidable (HexId id) := inferInstanceAs (Decidable (_ ∧ _))

lemma HexId.plain {id : String} (h : HexId id) : Plain id := by
  have hdigits : "0123456789abcdef".toList.all isPlain = true := by decide
  intro c hc
  have hdigit := List.all_eq_true.mp h.2 c hc
  exact List.all_eq_true.mp hdigits c (List.contains_iff_mem.mp hdigit)

lemma HexId.nonempty {id : String} (h : HexId id) : id ≠ "" := by
  rintro rfl
  exact absurd h.1 (by decide)

/-- Reached from an empty store by admissible operations that mint ids as `uuid4` does. -/
inductive Issued (mb : Mailbox) : InMemoryStore → Prop
  | empty : Issued mb .empty
  | step {s : InMemoryStore} (op : Operation) (hs : Issued mb s) (hop : op.Admissible s)
    (hid : ∀ id, op.minted = some id → HexId id) : Issued mb (op.step mb s).2

lemma Issued.reachable {mb : Mailbox} {s : InMemoryStore} (h : Issued mb s) : Reachable mb s := by
  induction h with
  | empty => exact .empty
  | step op _ hop _ ih => exact .step op ih hop

/-- Every stored message has an issued id. -/
lemma Issued.hexId {mb : Mailbox} {s : InMemoryStore} (h : Issued mb s) {id : String}
    {obj : ObjectRecord} (hobj : s.objects.lookup id = some obj) : HexId obj.id := by
  induction h with
  | empty => simp [InMemoryStore.empty] at hobj
  | @step s op _ hop hid ih =>
    rcases (step_change mb hop).stored hobj with hold | ⟨caller, draft, stamp, hmint, _, hsent⟩
    · exact ih hold
    · rw [(mb.sendIn_spec hsent).id_eq]
      exact hid stamp.id hmint

/-! ## URIs -/

/-- Our own URI of an object is read back as its id. -/
lemma objectIdFrom_objectUri {wire : Renderer} (hbase : OpensPlainly wire.base) {id : String}
    (hplain : Plain id) (hne : id ≠ "") : wire.objectIdFrom (wire.objectUri id) = id := by
  have hstrip : Text.strip (wire.objectUri id) = wire.objectUri id :=
    strip_uri hbase rfl hplain hne
  unfold Renderer.objectIdFrom
  rw [hstrip]
  simp only [Renderer.objectUri, startsWith_append, if_true, drop_append, stripChar_plain hplain]

/-- A base cut from a public URL begins as the URL does. -/
lemma opensPlainly_ofUrl {publicUrl : String} (h : Text.strip publicUrl = publicUrl)
    (rules : UrlRules) : OpensPlainly (Renderer.ofUrl publicUrl rules).base := by
  intro c hc
  have hopens := opensPlainly_of_strip h
  have hbase : (Renderer.ofUrl publicUrl rules).base.toList =
      (publicUrl.toList.reverse.dropWhile (· = '/')).reverse := String.toList_ofList
  have hsplit : publicUrl.toList = (publicUrl.toList.reverse.dropWhile (· = '/')).reverse ++
      (publicUrl.toList.reverse.takeWhile (· = '/')).reverse := by
    rw [← List.reverse_append, List.takeWhile_append_dropWhile, List.reverse_reverse]
  rw [hbase] at hc
  refine hopens c ?_
  rw [hsplit, List.head?_append, Option.mem_def.mp hc]
  rfl

/-! ## What can be decoded -/

def Json.isText : Json → Bool
  | .str _ => true
  | _ => false

@[simp] lemma Json.isText_str (s : String) : (Json.str s).isText = true := rfl

/-- A list made of the value is a list of texts. -/
def Json.listsTexts : Json → Bool
  | .arr items => items.all isText
  | .str _ | .obj _ => true
  | _ => false

/-- What a message's document carries under `audience`, if anything, lists texts. -/
def AudienceListsTexts (record : ObjectRecord) : Prop :=
  ∀ v, record.document.lookup "audience" = some v → v.listsTexts = true

/-- A rendering is converted to the note it was made of when its audience is of texts, and
refused otherwise. -/
structure Msgspec.ReadsRenderings (msgspec : Msgspec) : Prop where
  reads : ∀ note : Note, (note.audience.getD []).all Json.isText = true →
    msgspec.convertNote note.document = .ok note
  refuses : ∀ note : Note, (note.audience.getD []).all Json.isText = false →
    ∃ e, msgspec.convertNote note.document = .error e

/-- The list a value makes is of texts exactly when the value lists texts; and there is none
if it cannot be iterated over. -/
lemma listsTexts_iff (v : Json) :
    v.listsTexts = true ↔ ∃ items, v.iter = .ok items ∧ items.all Json.isText = true := by
  cases v with
  | arr items => simp [Json.listsTexts, Json.iter]
  | str text => simp [Json.listsTexts, Json.iter]
  | obj fields =>
    simp only [Json.listsTexts, Json.iter, Except.ok.injEq, exists_eq_left', List.all_map, true_iff]
    exact List.all_eq_true.mpr fun _ _ => rfl
  | _ => simp [Json.listsTexts, Json.iter]

/-! ## The conversion of declared types -/

namespace Msgspec

lemma texts_strings (items : List String) : texts (Json.strings items) = .ok items := by
  have hmap : (items.map Json.str).mapM text = .ok items := by
    induction items with
    | nil => rfl
    | cons item items ih => rw [List.map_cons, List.mapM_cons, ih]; rfl
  exact hmap

lemma mapM_text {items : List Json} (h : items.all Json.isText = true) :
    ∃ read, items.mapM text = .ok read ∧ read.map Json.str = items := by
  induction items with
  | nil => exact ⟨[], rfl, rfl⟩
  | cons v items ih =>
    rw [List.all_cons, Bool.and_eq_true] at h
    obtain ⟨hv, hitems⟩ := h
    obtain ⟨read, hread, rfl⟩ := ih hitems
    cases v with
    | str s => exact ⟨s :: read, by rw [List.mapM_cons, hread]; rfl, rfl⟩
    | _ => cases hv

lemma mapM_text_error {items : List Json} (h : items.all Json.isText = false) :
    ∃ e, items.mapM text = .error e := by
  induction items with
  | nil => cases h
  | cons v items ih =>
    cases v with
    | str s =>
      rw [List.all_cons, Json.isText_str, Bool.true_and] at h
      obtain ⟨e, he⟩ := ih h
      exact ⟨e, by rw [List.mapM_cons, he]; rfl⟩
    | _ => exact ⟨_, rfl⟩

/-- The fields of what is transmitted of a note. -/
lemma lookup_document (note : Note) (key : String) :
    note.document.lookup key =
      List.dlookup key
        (note.fields.map fun field => (⟨field.1, field.2⟩ : Σ _ : String, Json)) := by
  rw [AList.lookup, note.entries_document]

lemma optional_orNull (t : Option String) : optional text (Json.orNull t) = .ok t := by
  cases t <;> rfl

lemma noteOf_document (note : Note) : noteOf note.document =
    (optional texts (note.audience.elim .null .arr)).map fun read =>
      { note with audience := read.map (List.map Json.str) } := by
  have hextra : object (Json.ofDict note.extra) = .ok note.extra := Json.asObject_ofDict note.extra
  unfold noteOf field
  simp only [lookup_document, Note.fields, List.map_cons, List.map_nil]
  simp [List.dlookup_cons_ne, optional_orNull, texts_strings, text, hextra]
  cases optional texts (note.audience.elim .null .arr) <;> rfl

theorem plain_readsRenderings : plain.ReadsRenderings where
  reads note h := by
    show noteOf note.document = .ok note
    rw [noteOf_document]
    cases haudience : note.audience with
    | none =>
      show Except.ok { note with audience := none } = _
      rw [← haudience]
    | some items =>
      rw [haudience, Option.getD_some] at h
      obtain ⟨read, hread, hitems⟩ := mapM_text h
      have hoptional : optional texts (.arr items) = .ok (some read) := by
        show some <$> items.mapM text = _
        rw [hread]
        rfl
      rw [Option.elim_some, hoptional]
      simp only [Except.map, Option.map_some, hitems, ← haudience]
  refuses note h := by
    show ∃ e, noteOf note.document = .error e
    rw [noteOf_document]
    cases haudience : note.audience with
    | none => simp [haudience] at h
    | some items =>
      rw [haudience, Option.getD_some] at h
      obtain ⟨e, he⟩ := mapM_text_error h
      have hoptional : optional texts (.arr items) = .error e := by
        show some <$> items.mapM text = _
        rw [he]
        rfl
      exact ⟨e, by rw [Option.elim_some, hoptional]; rfl⟩

end Msgspec

/-! ## The round trip -/

/-- The rendering of the message is decoded to the names and ids of the message, in order,
whatever hub they are read at, and to its content and summary. -/
def RoutesBack (wire : Renderer) (msgspec : Msgspec) (u : Unicode) (record : ObjectRecord) : Prop :=
  ∃ rendered activity, wire.note record = .ok rendered ∧
    decodeActivity msgspec rendered.document = .ok activity ∧
    (∃ texts, wire.recipients activity.object.to_ = .ok texts ∧
      ∀ hubName, texts.mapM (localName u · hubName) = .ok record.to_) ∧
    (∃ texts, wire.recipients activity.object.cc = .ok texts ∧
      ∀ hubName, texts.mapM (localName u · hubName) = .ok record.cc) ∧
    (∃ uri, activity.object.attributedTo = some uri ∧ wire.nameFrom uri = .ok record.attributedTo) ∧
    (∃ uri, activity.object.id = some uri ∧ wire.objectIdFrom uri = record.id) ∧
    activity.object.inReplyTo.map wire.objectIdFrom = record.inReplyTo ∧
    activity.object.content = record.content ∧ activity.object.summary = record.summary

/-- Names that are plain are read back from their URIs, and resolve to themselves. -/
lemma recipients_actorUri {wire : Renderer} (hbase : OpensPlainly wire.base) {names : List String}
    (h : ∀ n ∈ names, Usable n) : wire.recipients (names.map wire.actorUri) = .ok names := by
  unfold Renderer.recipients
  induction names with
  | nil => rfl
  | cons n names ih =>
    have hn := h n List.mem_cons_self
    rw [List.map_cons, List.mapM_cons, nameFrom_actorUri hbase hn.plain hn.nonempty,
      ih fun m hm => h m (List.mem_cons_of_mem _ hm)]
    rfl

lemma mapM_localName {u : Unicode} {names : List String} (h : ∀ n ∈ names, Usable n)
    (hubName : String) : names.mapM (localName u · hubName) = .ok names := by
  induction names with
  | nil => rfl
  | cons n names ih =>
    have hn := h n List.mem_cons_self
    rw [List.mapM_cons, localName_plain u hn.plain hn.nonempty,
      ih fun m hm => h m (List.mem_cons_of_mem _ hm)]
    rfl

/-- A rendering is decoded as the bare note it is. -/
lemma decodeActivity_document {msgspec : Msgspec} {note : Note} (htype : note.type_ = "Note") :
    decodeActivity msgspec note.document =
      (msgspec.convertNote note.document).map fun read => { object := read } := by
  have hfield : note.document.lookup "type" = some (.str "Note") := by
    rw [AList.lookup, note.entries_document, ← htype]
    rfl
  have hobject : "object" ∉ note.document := by
    rw [AList.mem_keys, AList.keys, note.entries_document]
    simp [Note.fields, List.keys]
  unfold decodeActivity
  rw [hfield, if_neg (by simp [hobject])]
  cases msgspec.convertNote note.document <;> rfl

section
variable {wire : Renderer} {msgspec : Msgspec} {u : Unicode} {record : ObjectRecord}

/-- What is rendered under `audience` is what the document's list is made of. -/
lemma rendered_audience {rendered : Note} (h : wire.note record = .ok rendered) :
    AudienceListsTexts record ↔ (rendered.audience.getD []).all Json.isText = true := by
  obtain ⟨items, hitems, rfl⟩ := Renderer.note_ok h
  have hgetD : (if items = [] then none else some items : Option (List Json)).getD [] = items := by
    split_ifs with hnil
    · exact hnil.symm
    · rfl
  show _ ↔ ((if items = [] then none else some items : Option (List Json)).getD []).all _ = true
  rw [hgetD]
  unfold AudienceListsTexts
  unfold Renderer.audience at hitems
  cases hdocument : record.document.lookup "audience" with
  | none =>
    rw [hdocument] at hitems
    cases hitems
    simp
  | some v =>
    rw [hdocument] at hitems
    have hitems : v.iter = .ok items := hitems
    simp [listsTexts_iff, hitems]

/-- What comes back of a rendering that is decoded. -/
lemma routesBack_of_decoded (hmsgspec : msgspec.ReadsRenderings) (hbase : OpensPlainly wire.base)
    (hsender : Usable record.attributedTo) (hto : ∀ n ∈ record.to_, Usable n)
    (hcc : ∀ n ∈ record.cc, Usable n) (hid : HexId record.id)
    (hparent : ∀ p, record.inReplyTo = some p → HexId p) (h : AudienceListsTexts record) :
    RoutesBack wire msgspec u record := by
  have hrendered : ∃ rendered, wire.note record = .ok rendered := by
    rw [Renderer.note_ok_iff]
    intro v hv
    obtain ⟨items, hitems, _⟩ := (listsTexts_iff v).mp (h v hv)
    exact v.iter_ok_iff.mp ⟨items, hitems⟩
  obtain ⟨rendered, hrendered⟩ := hrendered
  have hread := hmsgspec.reads rendered ((rendered_audience hrendered).mp h)
  obtain ⟨items, _, heq⟩ := Renderer.note_ok hrendered
  have hdecoded : decodeActivity msgspec rendered.document = .ok { object := rendered } := by
    rw [decodeActivity_document (by rw [heq]), hread]
    rfl
  refine ⟨rendered, _, hrendered, hdecoded, ?_⟩
  rw [heq]
  refine ⟨⟨_, recipients_actorUri hbase hto, mapM_localName hto⟩,
    ⟨_, recipients_actorUri hbase hcc, mapM_localName hcc⟩,
    ⟨_, rfl, nameFrom_actorUri hbase hsender.plain hsender.nonempty⟩,
    ⟨_, rfl, objectIdFrom_objectUri hbase hid.plain hid.nonempty⟩, ?_, rfl, rfl⟩
  show ((record.inReplyTo.bind Text.orNone).map wire.objectUri).map wire.objectIdFrom = _
  cases hreply : record.inReplyTo with
  | none => rfl
  | some p =>
    have hp := hparent p hreply
    rw [Option.bind_some, Text.orNone, if_neg hp.nonempty, Option.map_some, Option.map_some,
      objectIdFrom_objectUri hbase hp.plain hp.nonempty]

/-- A rendering that is decoded lists texts for an audience. -/
lemma audience_of_decoded (hmsgspec : msgspec.ReadsRenderings) {rendered : Note}
    {activity : Create} (hrendered : wire.note record = .ok rendered)
    (hdecoded : decodeActivity msgspec rendered.document = .ok activity) :
    AudienceListsTexts record := by
  rw [rendered_audience hrendered]
  by_contra hnot
  obtain ⟨e, he⟩ := hmsgspec.refuses rendered (Bool.eq_false_iff.mpr hnot)
  obtain ⟨_, _, heq⟩ := Renderer.note_ok hrendered
  rw [decodeActivity_document (by rw [heq]), he] at hdecoded
  cases hdecoded

end

/-- The routing data of a stored message comes back over the wire exactly when what its
document carries under `audience` lists texts. -/
theorem routing_round_trips_iff (publicUrl : String) (hurl : Text.strip publicUrl = publicUrl)
    (rules : UrlRules) (msgspec : Msgspec) (hmsgspec : msgspec.ReadsRenderings) (mb : Mailbox)
    (s : InMemoryStore) (hs : Issued mb s) (record : ObjectRecord)
    (hrecord : s.objects.lookup record.id = some record) :
    RoutesBack (Renderer.ofUrl publicUrl rules) msgspec mb.unicode record ↔
      AudienceListsTexts record := by
  constructor
  · rintro ⟨rendered, activity, hrendered, hdecoded, _⟩
    exact audience_of_decoded hmsgspec hrendered hdecoded
  · have hconsistent := hs.reachable.consistent
    have hproper := hconsistent.proper record.id record hrecord
    have haddressee := fun n hn => hconsistent.usable n (hproper.addressee n hn).1
    refine routesBack_of_decoded hmsgspec (opensPlainly_ofUrl hurl rules)
      (hconsistent.usable _ hproper.sender) (fun n hn => haddressee n (.inl hn))
      (fun n hn => haddressee n (.inr hn)) (hs.hexId hrecord) fun p hp => ?_
    have hlink : s.replyTo record.id = some p := by
      rw [InMemoryStore.replyTo, hrecord, Option.bind_some, hp]
    obtain ⟨parent, hparent⟩ :=
      (Dict.mem_iff_lookup _ _).mp (hconsistent.forest.parents record.id p hlink)
    rw [← s.object_key p parent hparent]
    exact hs.hexId hparent

/-- A note of alice's to bob, and his answer to her; the notes have issued ids. -/
def openingId : String := "0123456789abcdef0123456789abcdef"

def answerId : String := "fedcba9876543210fedcba9876543210"

def issuedExchange (document : Option JsonObject) : List Operation :=
  [joinAs "alice", joinAs "bob",
    .send "alice" { to_ := .one "bob", body := "one", document } ⟨openingId, january 2⟩,
    .reply "bob" openingId "two" (some "On one") ⟨answerId, january 3⟩]

lemma issued_after {mb : Mailbox} {s : InMemoryStore} (hs : Issued mb s) {ops : List Operation}
    (hops : Throughout mb (fun op s => op.Admissible s ∧ ∀ id ∈ op.minted, HexId id) s ops) :
    Issued mb (after mb s ops) := by
  induction ops generalizing s with
  | nil => exact hs
  | cons op ops ih =>
    obtain ⟨⟨hop, hid⟩, hrest⟩ := hops
    exact ih (.step op hs hop fun id hmint => hid id hmint) hrest

/-- The record of bob's answer. -/
def answerRecord : ObjectRecord where
  id := answerId
  attributedTo := "bob"
  to_ := ["alice"]
  inReplyTo := some openingId
  summary := some "On one"
  content := "two"
  published := (january 3).isoformat
  document := Mailbox.documentOf ["alice"] none

/-- The record of alice's opening. -/
def openingRecord (document : Option JsonObject) : ObjectRecord where
  id := openingId
  attributedTo := "alice"
  to_ := ["bob"]
  content := "one"
  published := (january 2).isoformat
  document := Mailbox.documentOf ["bob"] document

/-- Bob's answer comes back over the wire of a hub whose URL ends in slashes. -/
theorem answer_routes_back : RoutesBack (Renderer.ofUrl "http://localhost:8080//"
    asciiApi.wire.rules) .plain asciiUnicode answerRecord := by
  have hissued : Issued asciiMailbox (after asciiMailbox .empty (issuedExchange none)) :=
    issued_after .empty (by decide +kernel)
  refine (routing_round_trips_iff "http://localhost:8080//" (by decide) asciiApi.wire.rules .plain
    Msgspec.plain_readsRenderings asciiMailbox _ hissued answerRecord
    (by decide +kernel)).mpr fun v hv => ?_
  have hnames : answerRecord.document.lookup "audience" = some (Json.strings ["alice"]) := by
    decide +kernel
  rw [hnames, Option.some.injEq] at hv
  rw [← hv]
  rfl

def audienceOfNull : JsonObject := Dict.ofList [("audience", .null)]

/-- A note that brings `null` for an audience is stored, and does not come back. -/
theorem null_audience_does_not_route :
    Issued asciiMailbox (after asciiMailbox .empty (issuedExchange (some audienceOfNull))) ∧
      (after asciiMailbox .empty (issuedExchange (some audienceOfNull))).objects.lookup openingId =
        some (openingRecord (some audienceOfNull)) ∧
      ¬ RoutesBack asciiApi.wire .plain asciiUnicode (openingRecord (some audienceOfNull)) := by
  refine ⟨issued_after .empty (by decide +kernel), by decide +kernel, ?_⟩
  rintro ⟨rendered, _, hrendered, _⟩
  have hnull : (openingRecord (some audienceOfNull)).document.lookup "audience" = some .null := by
    decide +kernel
  have hiterable := (Renderer.note_ok_iff _ _).mp ⟨rendered, hrendered⟩ .null hnull
  exact absurd hiterable (by decide)

end AgentMailbox
