import AgentMailbox.Foreign
import AgentMailbox.HouseCalls
import AgentMailbox.Observers

/-!
# How large a message can be

The limits on messages measure the body that is handed to the house. The subject and the foreign
properties travel beside it and are stored unmeasured, so a message is as large as these are; the
subject a reply takes over from the message it answers grows once, by what is put before it.
-/
namespace AgentMailbox

/-! ## Bytes of text -/

namespace Json

mutual
/-- The bytes of a value written as JSON in UTF-8, without escapes and separators. -/
def bytes : Json → ℕ
  | null => 4
  | bool b => if b then 4 else 5
  | int n => (toString n).utf8ByteSize
  | float r => r.utf8ByteSize
  | str s => s.utf8ByteSize + 2
  | arr items => itemsBytes items + 2
  | obj fields => fieldsBytes fields + 2

def itemsBytes : List Json → ℕ
  | [] => 0
  | v :: rest => bytes v + itemsBytes rest

def fieldsBytes : List (String × Json) → ℕ
  | [] => 0
  | (k, v) :: rest => k.utf8ByteSize + 2 + bytes v + fieldsBytes rest
end

/-- The bytes of the properties in a document. -/
def documentBytes (document : JsonObject) : ℕ :=
  fieldsBytes (document.entries.map fun entry => (entry.1, entry.2))

lemma fieldsBytes_perm {fields fields' : List (String × Json)} (h : fields.Perm fields') :
    fieldsBytes fields = fieldsBytes fields' := by
  induction h with
  | nil => rfl
  | cons field _ ih => simp only [fieldsBytes, ih]
  | swap first second rest =>
    simp only [fieldsBytes]
    omega
  | trans _ _ ih ih' => exact ih.trans ih'

/-- Only what is found under the keys counts, not the order of the keys. -/
lemma documentBytes_congr {d e : JsonObject} (h : ∀ key, d.lookup key = e.lookup key) :
    documentBytes d = documentBytes e := by
  have hperm : d.entries.Perm e.entries := by
    refine List.lookup_ext d.nodupKeys e.nodupKeys fun key v => ?_
    exact iff_of_eq (congrArg (v ∈ ·) (h key))
  exact fieldsBytes_perm (hperm.map _)

end Json

/-- The bytes of a text that may be missing. -/
def textBytes (text : Option String) : ℕ := text.elim 0 String.utf8ByteSize

/-- The bytes of the sender's that a message is stored with, of which `foreign` are the properties
that it brought along. -/
def ObjectRecord.carried (obj : ObjectRecord) (foreign : JsonObject) : ℕ :=
  obj.content.utf8ByteSize + textBytes obj.summary +
    Json.documentBytes (obj.document.filterKeys (· ∈ foreign))

/-! ## The subject of a reply -/

/-- Lower-casing leaves what `_reply_subject` puts before a subject recognisable. -/
def Unicode.KnowsReplies (u : Unicode) : Prop :=
  ∀ text, Text.startsWith (u.lower ("Re: " ++ text)) "re:" = true

namespace Mailbox

variable {mb : Mailbox}

lemma textBytes_replySubject_le (mb : Mailbox) (subject : Option String) :
    textBytes (mb.replySubject subject) ≤ textBytes subject + 4 := by
  cases subject with
  | none => exact Nat.zero_le _
  | some text =>
    unfold replySubject
    dsimp only
    split_ifs
    · exact Nat.le_add_right _ _
    · have hstart : "Re: ".utf8ByteSize = 4 := by decide
      simp only [textBytes, Option.elim_some, String.utf8ByteSize_append, hstart]
      omega

/-- What is put before a subject is put there once. -/
lemma replySubject_replySubject (hlower : mb.unicode.KnowsReplies) (subject : Option String) :
    mb.replySubject (mb.replySubject subject) = mb.replySubject subject := by
  cases subject with
  | none => rfl
  | some text =>
    by_cases hreply : Text.startsWith (mb.unicode.lower text) "re:" = true
    · have hsame : mb.replySubject (some text) = some text := if_pos hreply
      rw [hsame, hsame]
    · have hlonger : mb.replySubject (some text) = some ("Re: " ++ text) := if_neg hreply
      rw [hlonger]
      exact if_pos (hlower text)

/-- The subject of a reply is the one it is given, or the one it takes over. -/
lemma subjectOr_eq (mb : Mailbox) (subject summary : Option String) :
    mb.subjectOr subject summary = mb.replySubject summary ∨
      mb.subjectOr subject summary = subject := by
  cases subject with
  | none => exact Or.inl rfl
  | some text =>
    unfold subjectOr
    dsimp only
    split_ifs
    · exact Or.inl rfl
    · exact Or.inr rfl

/-- The subject of a reply grows the one it takes over no further than once. -/
lemma textBytes_subjectOr_le {B : ℕ} (hlower : mb.unicode.KnowsReplies)
    {subject summary : Option String} (hsubject : textBytes subject ≤ B)
    (hsummary : textBytes (mb.replySubject summary) ≤ B + 4) :
    textBytes (mb.replySubject (mb.subjectOr subject summary)) ≤ B + 4 := by
  rcases mb.subjectOr_eq subject summary with hdefault | hgiven
  · rw [hdefault, replySubject_replySubject hlower]
    exact hsummary
  · rw [hgiven]
    exact (textBytes_replySubject_le mb _).trans (Nat.add_le_add_right hsubject 4)

/-- A subject that is given is taken. -/
lemma textBytes_le_subjectOr (mb : Mailbox) (subject summary : Option String) :
    textBytes subject ≤ textBytes (mb.subjectOr subject summary) := by
  cases subject with
  | none => exact Nat.zero_le _
  | some text =>
    unfold subjectOr
    dsimp only
    split_ifs with hempty
    · rw [hempty]
      exact Nat.zero_le _
    · exact le_rfl

end Mailbox

/-! ## What is stored of a posting -/

namespace House

variable {μ : Type}

/-- An attempt that is accepted has passed every policy. -/
lemma Accepted.passed {attempt : Attempt} {store : InMemoryStore} {policies : List (Policy μ)}
    {m : μ} (h : Accepted attempt store policies m) {policy : Policy μ}
    (hpolicy : policy ∈ policies) : ∃ m', (policy.check attempt store m').1 = .ok () := by
  induction policies generalizing m with
  | nil => exact absurd hpolicy List.not_mem_nil
  | cons first rest ih =>
    rcases List.mem_cons.mp hpolicy with rfl | hrest
    · exact ⟨m, h.1⟩
    · exact ih h.2 hrest

/-- What the limits on messages accept has a body within them. -/
lemma Accepted.body_le {caller : String} {draft : Draft} {store : InMemoryStore}
    {policies : List (Policy μ)} {m : μ}
    (h : Accepted (sendAttempt caller draft) store policies m) {maxBodyBytes maxRecipients : ℕ}
    (hinstalled : messageLimits μ maxBodyBytes maxRecipients ∈ policies) :
    draft.body.utf8ByteSize ≤ maxBodyBytes := by
  obtain ⟨m', hpassed⟩ := h.passed hinstalled
  change MessageLimits.check _ maxBodyBytes maxRecipients (sendAttempt caller draft) = .ok ()
    at hpassed
  have hsends : (sendAttempt caller draft).action = "send" := rfl
  unfold MessageLimits.check at hpassed
  rw [if_neg (not_not.mpr hsends)] at hpassed
  dsimp only at hpassed
  split_ifs at hpassed with hbytes hnames
  exact not_lt.mp hbytes

/-- A draft of which a message is made has been accepted. -/
lemma accepted_of_step {house : House μ} {op : Operation} {s : HouseState μ} {sender : String}
    {draft : Draft} {result : Result}
    (hdraft : op.drafted house.mailbox s.store = .ok (some (sender, draft)))
    (hanswer : (house.step op s).1 = .ok result) :
    Accepted (sendAttempt sender draft) s.store house.policies s.memory := by
  have hpasses : house.Passes op s := by
    by_contra hstopped
    obtain ⟨⟨e, he⟩, -⟩ := house.stops_program hstopped
    cases hanswer.symm.trans he
  cases op with
  | send caller sent stamp =>
    cases hdraft
    exact hpasses
  | reply caller objectId body subject stamp =>
    obtain ⟨original, hvisible, hdraft⟩ := map_eq_ok.mp hdraft
    cases hdraft
    exact hpasses original hvisible
  | join | whois | directory | updateProfile | installResident | peek | unreadCount | read |
    thread | view | expire => cases hdraft

/-- A sending that is accepted stores the message of its draft. -/
lemma step_send_passed {house : House μ} {caller : String} {draft : Draft} {stamp : Stamp}
    {s : HouseState μ} {obj : ObjectRecord} (h : house.Passes (.send caller draft stamp) s)
    (hsent : house.mailbox.sendIn s.store caller draft stamp = .ok obj) :
    (house.step (.send caller draft stamp) s).1 = .ok (.message obj) := by
  refine (house.does_program h).1.trans ?_
  rw [Operation.program, runs_map, Mailbox.runs_send, hsent]
  rfl

end House

namespace Api

variable {μ : Type} (api : Api μ)

/-- The properties of a posted document that are stored with its message: those that are not
modelled, and of a bare reply none. -/
def foreign (document : JsonObject) (note : Note) : JsonObject :=
  match api.repliesTo note with
  | none => unknownProperties document
  | some _ => ∅

variable {api} {name : String} {body : Json} {caller : String} {stamp : Stamp} {s : HouseState μ}
  {document : JsonObject} {note : Note} {obj : ObjectRecord}

/-- What a message has of the draft it was made of. -/
lemma Stores.made (h : api.Stores name body caller stamp s document note obj) :
    ∃ draft, api.DraftOf s.store caller document note draft ∧ obj.content = draft.body ∧
      obj.summary = draft.subject ∧
      ∃ names, obj.document = Mailbox.documentOf names draft.document := by
  obtain ⟨draft, stamp', -, hdrafted, hsent⟩ := h.drafted
  obtain ⟨_, recipients, copies, _, _, _, _, _, _, rfl⟩ :=
    (Mailbox.sendIn_ok_iff _ _ _ _ _ _).mp hsent
  exact ⟨draft, hdrafted, rfl, rfl, _, rfl⟩

/-- All foreign properties of the posting are kept. -/
lemma Stores.lookup_kept (h : api.Stores name body caller stamp s document note obj)
    (key : String) : (obj.document.filterKeys (· ∈ api.foreign document note)).lookup key =
      (api.foreign document note).lookup key := by
  rw [Dict.lookup_filterKeys]
  split_ifs with hkey
  · obtain ⟨v, hv⟩ := (Dict.mem_iff_lookup _ key).mp (of_decide_eq_true hkey)
    obtain ⟨draft, hdrafted, -, -, names, hfiled⟩ := h.made
    rw [hv, hfiled, Mailbox.lookup_documentOf]
    unfold foreign at hv
    unfold DraftOf at hdrafted
    cases hreply : api.repliesTo note with
    | some parent =>
      rw [hreply] at hv
      exact absurd hv (by simp)
    | none =>
      rw [hreply] at hv hdrafted
      rw [draftOf_document hdrafted, hv]
      rfl
  · exact (AList.lookup_eq_none.mpr fun hin => hkey (decide_eq_true hin)).symm

/-- A message carries its body, its subject, and the foreign properties that were posted. -/
lemma Stores.carried_eq (h : api.Stores name body caller stamp s document note obj) :
    obj.carried (api.foreign document note) = obj.content.utf8ByteSize +
      textBytes obj.summary + Json.documentBytes (api.foreign document note) := by
  unfold ObjectRecord.carried
  rw [Json.documentBytes_congr h.lookup_kept]

/-- The body of the message is within the limits. -/
lemma Stores.content_le (h : api.Stores name body caller stamp s document note obj)
    {maxBodyBytes maxRecipients : ℕ}
    (hinstalled : messageLimits μ maxBodyBytes maxRecipients ∈ api.house.policies) :
    obj.content.utf8ByteSize ≤ maxBodyBytes := by
  obtain ⟨draft, stamp', ⟨op, hdraft, hanswer⟩, -, hsent⟩ := h.drafted
  obtain ⟨_, _, _, _, _, _, _, _, _, rfl⟩ := (Mailbox.sendIn_ok_iff _ _ _ _ _ _).mp hsent
  exact (House.accepted_of_step hdraft hanswer).body_le hinstalled

/-- The subject of the message is the posted one, or that of a reply. -/
lemma Stores.summary_eq (h : api.Stores name body caller stamp s document note obj) :
    obj.summary = note.summary ∨ ∃ original ∈ s.store.objectList,
      obj.summary = api.house.mailbox.subjectOr note.summary original.summary := by
  obtain ⟨draft, hdrafted, -, hsummary, -⟩ := h.made
  unfold DraftOf at hdrafted
  cases hreply : api.repliesTo note with
  | none =>
    rw [hreply] at hdrafted
    obtain ⟨_, _, _, _, rfl⟩ := draftOf_ok hdrafted
    exact Or.inl hsummary
  | some parent =>
    rw [hreply] at hdrafted
    obtain ⟨original, hvisible, rfl⟩ := hdrafted
    obtain ⟨_, _, _, hstored, _, _⟩ := (Mailbox.visibleIn_ok_iff _ _ _ _ _).mp hvisible
    have hid := s.store.object_key parent original hstored
    refine Or.inr ⟨original, ?_, hsummary⟩
    exact (s.store.mem_objectList original).mpr (by rw [hid, hstored])

/-- What was posted beside the body. -/
def beside (api : Api μ) (document : JsonObject) (note : Note) : ℕ :=
  textBytes note.summary + Json.documentBytes (api.foreign document note)

lemma Stores.beside_le (h : api.Stores name body caller stamp s document note obj) :
    api.beside document note ≤ obj.carried (api.foreign document note) := by
  have hsubject : textBytes note.summary ≤ textBytes obj.summary := by
    rcases h.summary_eq with hsummary | ⟨original, _, hsummary⟩
    · rw [hsummary]
    · rw [hsummary]
      exact Mailbox.textBytes_le_subjectOr _ _ _
  rw [h.carried_eq]
  unfold beside
  omega

/-! ## Whole runs -/

/-- No subject that a reply takes over is longer than this. -/
def Settled (api : Api μ) (B : ℕ) (s : HouseState μ) : Prop :=
  ∀ obj ∈ s.store.objectList, textBytes (api.house.mailbox.replySubject obj.summary) ≤ B

/-- A message stored for the request carries no more of the sender's than this. -/
def CarriesWithin (api : Api μ) (B : ℕ) (s : HouseState μ) : Request → Prop
  | .outbox name body caller stamp => ∀ document note obj,
      api.Stores name body caller stamp s document note obj →
      obj.carried (api.foreign document note) ≤ B
  | _ => True

/-- A posting that a message is stored for has no more beside the body than this. -/
def PostsWithin (api : Api μ) (B : ℕ) (s : HouseState μ) : Request → Prop
  | .outbox name body caller stamp => ∀ document note obj,
      api.Stores name body caller stamp s document note obj → api.beside document note ≤ B
  | _ => True

/-- A request leaves the messages alone, or stores one that it was posted for. -/
lemma serve_stores (api : Api μ) (request : Request) (s : HouseState μ) :
    (api.serve request s).2.store.objects = s.store.objects ∨
      ∃ name body caller stamp document note obj, request = .outbox name body caller stamp ∧
        api.Stores name body caller stamp s document note obj := by
  by_cases houtbox : ∀ name body caller stamp, request ≠ .outbox name body caller stamp
  · exact Or.inl (House.objects_of_uses (api.uses_program request houtbox) s)
  push Not at houtbox
  obtain ⟨name, body, caller, stamp, rfl⟩ := houtbox
  cases hposted : api.posted name body caller stamp with
  | error e =>
    rw [serve_outbox_refused hposted]
    exact Or.inl rfl
  | ok op =>
    rw [(serve_outbox hposted s).1]
    cases hanswer : (api.house.step op s).1 with
    | ok result =>
      have hminted : op.minted.isSome = true := by simp [posted_minted hposted]
      obtain ⟨_, _, _, obj, rfl, _⟩ :=
        step_sends api.house.mailbox hminted (House.step_ok (Prod.ext hanswer rfl))
      obtain ⟨document, activity, _, hdecoded, hactivity, _⟩ := api.posted_ok hposted
      exact Or.inr ⟨name, body, caller, stamp, document, activity.object, obj, rfl, hdecoded,
        ⟨activity, hactivity, rfl⟩, op, hposted, hanswer⟩
    | error e =>
      left
      rcases api.house.step_refusedOrDone op s with ⟨_, hstore⟩ | ⟨hdone, hstore⟩
      · rw [hstore]
      · have hstanding : op.StandingOnly := by
          obtain ⟨_, _, _, _, _, ⟨_, _, rfl⟩ | ⟨_, _, _, rfl⟩⟩ := api.posted_ok hposted <;> trivial
        have hchange := step_change_standing api.house.mailbox s.store hstanding
        rw [← hdone, ← hstore, hanswer] at hchange
        generalize (api.house.step op s).2.store = store at hchange
        cases hchange
        rfl

/-- What a request stores takes over no longer subject than there is, or is posted with one. -/
lemma Settled.serve {B : ℕ} {s : HouseState μ} (hs : api.Settled (B + 4) s)
    (hlower : api.house.mailbox.unicode.KnowsReplies) {request : Request}
    (hposts : api.PostsWithin B s request) : api.Settled (B + 4) (api.serve request s).2 := by
  unfold Settled at hs ⊢
  simp only [InMemoryStore.mem_objectList] at hs ⊢
  rcases api.serve_stores request s with
    hobjects | ⟨name, body, caller, stamp, document, note, obj, rfl, hstores⟩
  · rw [hobjects]
    exact hs
  · intro other hother
    rw [hstores.stored, InMemoryStore.addObject_objects, Dict.lookup_set] at hother
    split_ifs at hother
    · cases hother
      have hbeside : textBytes note.summary ≤ B :=
        (Nat.le_add_right _ _).trans (hposts document note obj hstores)
      rcases hstores.summary_eq with hsummary | ⟨original, horiginal, hsummary⟩
      · rw [hsummary]
        exact (Mailbox.textBytes_replySubject_le _ _).trans (Nat.add_le_add_right hbeside 4)
      · rw [hsummary]
        exact Mailbox.textBytes_subjectOr_le hlower hbeside
          (hs original ((s.store.mem_objectList original).mp horiginal))
    · exact hs other hother

/-- A message carries its body within the limits, what was posted beside it, and what a subject
that is taken over has put before it. -/
lemma Settled.carried_le {B maxBodyBytes maxRecipients : ℕ} {s : HouseState μ}
    (hs : api.Settled (B + 4) s)
    (hinstalled : messageLimits μ maxBodyBytes maxRecipients ∈ api.house.policies)
    {request : Request} (hposts : api.PostsWithin B s request) :
    api.CarriesWithin (maxBodyBytes + (B + 4) + B) s request := by
  cases request with
  | outbox name body caller stamp =>
    intro document note obj hstores
    have hbeside := hposts document note obj hstores
    have hcontent := hstores.content_le hinstalled
    have hsummary : textBytes obj.summary ≤ B + 4 := by
      unfold beside at hbeside
      rcases hstores.summary_eq with hsummary | ⟨original, horiginal, hsummary⟩
      · rw [hsummary]
        omega
      · rw [hsummary]
        rcases api.house.mailbox.subjectOr_eq note.summary original.summary with
          hdefault | hgiven
        · rw [hdefault]
          exact hs original horiginal
        · rw [hgiven]
          omega
    rw [hstores.carried_eq]
    unfold beside at hbeside
    omega
  | join | directory | actor | updateProfile | inbox | readObject | viewObject | thread => trivial

lemma carriesWithin_throughout {B maxBodyBytes maxRecipients : ℕ}
    (hlower : api.house.mailbox.unicode.KnowsReplies)
    (hinstalled : messageLimits μ maxBodyBytes maxRecipients ∈ api.house.policies)
    {s : HouseState μ} (hs : api.Settled (B + 4) s) {requests : List Request}
    (hposts : api.Throughout (api.PostsWithin B) s requests) :
    api.Throughout (api.CarriesWithin (maxBodyBytes + (B + 4) + B)) s requests := by
  induction requests generalizing s with
  | nil => trivial
  | cons request rest ih =>
    obtain ⟨hnow, hlater⟩ := hposts
    exact ⟨hs.carried_le hinstalled hnow, ih (hs.serve hlower hnow) hlater⟩

lemma postsWithin_throughout {B : ℕ} {s : HouseState μ} {requests : List Request}
    (hcarries : api.Throughout (api.CarriesWithin B) s requests) :
    api.Throughout (api.PostsWithin B) s requests := by
  induction requests generalizing s with
  | nil => trivial
  | cons request rest ih =>
    refine ⟨?_, ih hcarries.2⟩
    cases request with
    | outbox name body caller stamp =>
      exact fun document note obj hstores =>
        hstores.beside_le.trans (hcarries.1 document note obj hstores)
    | join | directory | actor | updateProfile | inbox | readObject | viewObject | thread =>
      trivial

end Api

/-- A run through the interface, from a state in which nothing has been sent. -/
structure Session (μ : Type) where
  api : Api μ
  start : HouseState μ
  requests : List Request
  unwritten : start.store.objects = ∅

namespace Session

variable {μ : Type}

/-- Bodies are limited to so many bytes. -/
def Capped (session : Session μ) (maxBodyBytes : ℕ) : Prop :=
  ∃ maxRecipients, messageLimits μ maxBodyBytes maxRecipients ∈ session.api.house.policies

/-- Every message stored for a posting carries at most so many bytes of the sender's. -/
def CarriesWithin (session : Session μ) (B : ℕ) : Prop :=
  session.api.Throughout (session.api.CarriesWithin B) session.start session.requests

/-- Every posting that a message is stored for has at most so many bytes beside the body. -/
def PostsWithin (session : Session μ) (B : ℕ) : Prop :=
  session.api.Throughout (session.api.PostsWithin B) session.start session.requests

lemma settled (session : Session μ) (B : ℕ) : session.api.Settled B session.start := by
  intro obj hobj
  rw [InMemoryStore.mem_objectList, session.unwritten] at hobj
  cases hobj

end Session

/-! ## A note under a subject -/

lemma asciiUnicode_knowsReplies : asciiUnicode.KnowsReplies := by
  intro text
  simp [asciiUnicode, Text.startsWith]

/-- Alice and bob join, and a note is posted by alice. -/
def postedByAlice (note : Json) : Session Observations where
  api := asciiApi
  start := firstOpening
  requests := [.joinAs "alice", .joinAs "bob", .outbox "alice" note "alice" ⟨"m1", january 2⟩]
  unwritten := by decide +kernel

lemma postedByAlice_capped (note : Json) : (postedByAlice note).Capped (64 * 1024) :=
  ⟨32, List.mem_cons_of_mem _ List.mem_cons_self⟩

/-- A note to bob, with a subject. -/
def titledNote (subject : String) : List (String × Json) :=
  [("to", Json.strings ["bob"]), ("content", .str "hi"), ("summary", .str subject)]

/-- So many crosses. -/
def crosses : ℕ → String
  | 0 => ""
  | n + 1 => "x" ++ crosses n

lemma crosses_utf8ByteSize (n : ℕ) : (crosses n).utf8ByteSize = n := by
  induction n with
  | zero => rfl
  | succ n ih =>
    have hcross : "x".utf8ByteSize = 1 := by decide
    rw [crosses, String.utf8ByteSize_append, ih, hcross, Nat.add_comm]

/-- A sending under another subject stores the same message under that. -/
lemma Mailbox.sendIn_retitled {mb : Mailbox} {s : InMemoryStore} {caller : String} {draft : Draft}
    {stamp : Stamp} {obj : ObjectRecord} (h : mb.sendIn s caller draft stamp = .ok obj)
    (subject : Option String) : mb.sendIn s caller { draft with subject } stamp =
      .ok { obj with summary := subject } := by
  obtain ⟨actor, recipients, copies, ctx, hactor, hto, hcc, hctx, hknown, rfl⟩ :=
    (mb.sendIn_ok_iff s caller draft stamp obj).mp h
  exact (mb.sendIn_ok_iff s caller _ stamp _).mpr
    ⟨actor, recipients, copies, ctx, hactor, hto, hcc, hctx, hknown, rfl⟩

/-- What is sent under a subject. -/
def titledDraft (subject : Option String) : Draft where
  to_ := .many ["bob"]
  body := "hi"
  subject := subject

/-- The house stores a message under the subject that it is sent with, whatever that is. -/
lemma titledNote_stored {s : HouseState Observations} {obj : ObjectRecord}
    (h : asciiMailbox.sendIn s.store "alice" (titledDraft none) ⟨"m1", january 2⟩ = .ok obj)
    (subject : String) : asciiApi.Stores "alice" (.obj (titledNote subject)) "alice"
      ⟨"m1", january 2⟩ s (Dict.ofList (titledNote subject))
      { to_ := ["bob"], content := "hi", summary := some subject }
      { obj with summary := some subject } := by
  have hpasses : asciiApi.house.Passes
      (.send "alice" (titledDraft (some subject)) ⟨"m1", january 2⟩) s :=
    ⟨rfl, rfl, rfl, trivial⟩
  have hanswer := House.step_send_passed hpasses (Mailbox.sendIn_retitled h (some subject))
  exact ⟨rfl, ⟨{ object := _ }, rfl, rfl⟩, _, rfl, hanswer⟩

/-- However the interface is used, the limit on bodies bounds the messages exactly if it bounds
what is posted beside the bodies. -/
theorem messages_bounded_iff {μ : Type} (usage : ℕ → Session μ → Prop)
    (hcapped : ∀ maxBodyBytes session, usage maxBodyBytes session → session.Capped maxBodyBytes)
    (hlower : ∀ maxBodyBytes session, usage maxBodyBytes session →
      session.api.house.mailbox.unicode.KnowsReplies) :
    (∃ f : ℕ → ℕ, ∀ maxBodyBytes session, usage maxBodyBytes session →
        session.CarriesWithin (f maxBodyBytes)) ↔
      ∃ g : ℕ → ℕ, ∀ maxBodyBytes session, usage maxBodyBytes session →
        session.PostsWithin (g maxBodyBytes) := by
  constructor
  · rintro ⟨f, hf⟩
    exact ⟨f, fun maxBodyBytes session hused =>
      Api.postsWithin_throughout (hf maxBodyBytes session hused)⟩
  · rintro ⟨g, hg⟩
    refine ⟨fun maxBodyBytes => maxBodyBytes + (g maxBodyBytes + 4) + g maxBodyBytes, ?_⟩
    intro maxBodyBytes session hused
    obtain ⟨maxRecipients, hinstalled⟩ := hcapped maxBodyBytes session hused
    exact Api.carriesWithin_throughout (hlower maxBodyBytes session hused) hinstalled
      (session.settled _) (hg maxBodyBytes session hused)

/-- Limited bodies, and at most twenty bytes beside them. -/
def Brief (maxBodyBytes : ℕ) (session : Session Observations) : Prop :=
  session.Capped maxBodyBytes ∧ session.api.house.mailbox.unicode.KnowsReplies ∧
    session.PostsWithin 20

/-- Short subjects leave the messages bounded; alice's is one. -/
theorem brief_notes_bounded :
    (∃ f : ℕ → ℕ, ∀ maxBodyBytes session, Brief maxBodyBytes session →
        session.CarriesWithin (f maxBodyBytes)) ∧
      Brief (64 * 1024) (postedByAlice (.obj (titledNote "lunch"))) := by
  refine ⟨(messages_bounded_iff Brief (fun _ _ h => h.1) fun _ _ h => h.2.1).mpr
    ⟨fun _ => 20, fun _ _ h => h.2.2⟩, postedByAlice_capped _, asciiUnicode_knowsReplies,
    trivial, trivial, ?_, trivial⟩
  intro document note obj hstores
  cases hstores.decoded
  obtain ⟨activity, hactivity, rfl⟩ := hstores.wraps
  have hnote : decodeActivity asciiApi.msgspec (Dict.ofList (titledNote "lunch")) =
      .ok { object := { to_ := ["bob"], content := "hi", summary := some "lunch" } } := by
    decide +kernel
  cases hnote.symm.trans hactivity
  decide +kernel

/-- No bound on the bodies bounds the messages: a subject can have any length. -/
theorem subjects_unbounded : ¬ ∃ f : ℕ → ℕ, ∀ maxBodyBytes (session : Session Observations),
    session.Capped maxBodyBytes → session.api.house.mailbox.unicode.KnowsReplies →
    session.CarriesWithin (f maxBodyBytes) := by
  rintro ⟨f, hf⟩
  let subject := crosses (f (64 * 1024) + 1)
  have hbound := hf (64 * 1024) (postedByAlice (.obj (titledNote subject)))
    (postedByAlice_capped _) asciiUnicode_knowsReplies
  have hplain : (asciiMailbox.sendIn (asciiApi.after firstOpening
      [.joinAs "alice", .joinAs "bob"]).store "alice" (titledDraft none)
      ⟨"m1", january 2⟩).toOption.isSome = true := by decide +kernel
  obtain ⟨obj, hobj⟩ := Option.isSome_iff_exists.mp hplain
  have hstores := titledNote_stored (toOption_eq_some.mp hobj) subject
  have hcarried := hstores.beside_le.trans (hbound.2.2.1 _ _ _ hstores)
  have hsize : subject.utf8ByteSize = f (64 * 1024) + 1 := crosses_utf8ByteSize _
  unfold Api.beside at hcarried
  change subject.utf8ByteSize + _ ≤ f (64 * 1024) at hcarried
  omega

end AgentMailbox
