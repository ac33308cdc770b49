import AgentMailbox.HubNames
import AgentMailbox.Registration
import AgentMailbox.Invariants

/-!
# The spellings of an actor

An actor's name, bare, at `local` or at the hub's name, in any letter case and with white
space around it, is resolved before anything is done with it, so the operations do not
tell the spellings apart. Looking an actor up resolves nothing.
-/
namespace AgentMailbox

/-- The word in some letter case: its `@` and the white space at its ends are as they are
in the word. -/
structure SameLetters (u : Unicode) (word text : String) : Prop where
  lower : u.lower text = word
  at_iff : '@' ∈ text.toList ↔ '@' ∈ word.toList
  trimmed_iff : Text.strip text = text ↔ Text.strip word = word

/-- The name in some letter case, bare or at one of the hub's names. -/
inductive Spelled (mb : Mailbox) (name : String) : String → Prop
  | bare (text : String) (h : SameLetters mb.unicode name text) : Spelled mb name text
  | atHub (text hub word : String) (hname : SameLetters mb.unicode name text)
      (hword : word = localHub ∨ word = mb.hubName) (hhub : SameLetters mb.unicode word hub) :
      Spelled mb name (text ++ "@" ++ hub)

/-- A spelling of the name, with white space around it. -/
def Spelling (mb : Mailbox) (name text : String) : Prop :=
  ∃ before spelled after, (∀ c ∈ before.toList, isSpace c = true) ∧
    (∀ c ∈ after.toList, isSpace c = true) ∧ Spelled mb name spelled ∧
      text = before ++ spelled ++ after

/-- The operations that take an actor, as functions of how it is written. -/
inductive TakesActor : (String → Operation) → Prop
  | updateProfile (profile : JsonObject) (now : DateTime) :
    TakesActor fun text => .updateProfile text profile now
  | send (draft : Draft) (stamp : Stamp) : TakesActor fun text => .send text draft stamp
  | reply (objectId body : String) (subject : Option String) (stamp : Stamp) :
    TakesActor fun text => .reply text objectId body subject stamp
  | peek : TakesActor .peek
  | unreadCount : TakesActor .unreadCount
  | read (objectId : String) (now : DateTime) : TakesActor fun text => .read text objectId now
  | view (objectId : String) : TakesActor fun text => .view text objectId
  | thread (rootId : String) : TakesActor fun text => .thread text rootId
  | whois : TakesActor .whois
  | recipient (caller : String) (draft : Draft) (stamp : Stamp) :
    TakesActor fun text => .send caller { draft with to_ := .one text } stamp
  | recipients (caller : String) (before after : List String) (draft : Draft) (stamp : Stamp) :
    TakesActor fun text => .send caller { draft with to_ := .many (before ++ text :: after) } stamp
  | copies (caller : String) (before after : List String) (draft : Draft) (stamp : Stamp) :
    TakesActor fun text => .send caller { draft with cc := before ++ text :: after } stamp

/-- Whatever is done with the one is done with the other. -/
def Interchangeable (mb : Mailbox) (s : InMemoryStore) (text other : String) : Prop :=
  ∀ use, TakesActor use → (use text).step mb s = (use other).step mb s

section
variable {mb : Mailbox} {name : String}

/-! ## What a spelling resolves to -/

lemma SameLetters.trimmed {u : Unicode} {text : String} (h : SameLetters u name text)
    (hplain : Plain name) : Text.strip text = text :=
  h.trimmed_iff.mpr (strip_plain hplain)

lemma SameLetters.ne_empty {u : Unicode} {word text : String} (h : SameLetters u word text)
    (hne : word ≠ "") : text ≠ "" := by
  rintro rfl
  exact hne (h.lower.symm.trans (u.lower_plain "" (by decide)))

/-- A spelling resolves to the name if it resolves. -/
lemma Spelled.resolved {text resolved : String} (h : Spelled mb name text) (hplain : Plain name)
    (hresolved : mb.local_ text = .ok resolved) : resolved = name := by
  cases h with
  | bare _ h =>
    have hat : '@' ∉ text.toList := mt h.at_iff.mp hplain.at_notMem
    obtain ⟨-, hname⟩ := (localName_bare_iff mb.unicode hat mb.hubName resolved).mp hresolved
    rw [hname, h.trimmed hplain, h.lower]
  | atHub text hub word hname hword hhub =>
    have hat : '@' ∉ text.toList := mt hname.at_iff.mp hplain.at_notMem
    have hheld := (localName_joined_iff mb.unicode mb.hubName text hub).mp ⟨resolved, hresolved⟩
    obtain ⟨-, -, -, hres⟩ :=
      (localName_at_iff mb.unicode hat hheld.hub_at mb.hubName resolved).mp hresolved
    rw [hres, hname.trimmed hplain, hname.lower]

/-- At a hub whose name an address can carry, every spelling resolves. -/
lemma Spelled.resolves {text : String} (h : Spelled mb name text) (hplain : Plain name)
    (hne : name ≠ "") (hhub : HubPart mb.hubName) : mb.local_ text = .ok name := by
  cases h with
  | bare _ h =>
    have hat : '@' ∉ text.toList := mt h.at_iff.mp hplain.at_notMem
    apply (localName_bare_iff mb.unicode hat mb.hubName name).mpr
    rw [h.trimmed hplain]
    exact ⟨h.ne_empty hne, h.lower.symm⟩
  | atHub text hub word hname hword hhub' =>
    have hpart : HubPart word := by
      rcases hword with rfl | rfl
      · exact localHub_hubPart
      · exact hhub
    have hat : '@' ∉ text.toList := mt hname.at_iff.mp hplain.at_notMem
    apply (localName_at_iff mb.unicode hat (mt hhub'.at_iff.mp hpart.no_at) mb.hubName name).mpr
    rw [hname.trimmed hplain, hhub'.trimmed_iff.mpr hpart.trimmed, hhub'.lower]
    exact ⟨hname.ne_empty hne, hhub'.ne_empty hpart.nonempty, hword, hname.lower.symm⟩

lemma Spelling.resolved {text resolved : String} (h : Spelling mb name text)
    (hplain : Plain name) (hresolved : mb.local_ text = .ok resolved) : resolved = name := by
  obtain ⟨before, spelled, after, hbefore, hafter, hspelled, rfl⟩ := h
  exact hspelled.resolved hplain
    ((localName_padded mb.unicode hbefore hafter spelled mb.hubName resolved).mp hresolved)

theorem Spelling.resolves {text : String} (h : Spelling mb name text) (hplain : Plain name)
    (hne : name ≠ "") (hhub : HubPart mb.hubName) : mb.local_ text = .ok name := by
  obtain ⟨before, spelled, after, hbefore, hafter, hspelled, rfl⟩ := h
  exact (localName_padded mb.unicode hbefore hafter spelled mb.hubName name).mpr
    (hspelled.resolves hplain hne hhub)

/-! ## What the operations tell apart -/

/-- Texts that resolve alike stand for the same actor. -/
lemma actorIn_eq {s : InMemoryStore} {text other : String}
    (hlocal : mb.local_ text = mb.local_ other)
    (hjoined : ∀ resolved, mb.local_ text = .ok resolved → resolved ∈ s.actors) :
    mb.actorIn s text = mb.actorIn s other := by
  cases hresolved : mb.local_ text with
  | error e =>
    rw [Mailbox.actorIn, Mailbox.actorIn, ← hlocal, hresolved]
    rfl
  | ok resolved =>
    obtain ⟨actor, hactor⟩ := (Dict.mem_iff_lookup _ _).mp (hjoined resolved hresolved)
    rw [Mailbox.actorIn_of_local hresolved hactor,
      Mailbox.actorIn_of_local (hlocal ▸ hresolved) hactor]

lemma localAll_congr {text other : String} (hlocal : mb.local_ text = mb.local_ other)
    (before after : List String) :
    mb.localAll (before ++ text :: after) = mb.localAll (before ++ other :: after) := by
  simp only [Mailbox.localAll, List.mapM_append, List.mapM_cons, hlocal]

/-- What a sending needs of its caller and its addresses. -/
lemma step_send_congr {s : InMemoryStore} {caller other : String} (draft draft' : Draft)
    (hactor : mb.actorIn s caller = mb.actorIn s other)
    (hto : mb.localAll draft.to_.toList = mb.localAll draft'.to_.toList)
    (hcc : mb.localAll draft.cc = mb.localAll draft'.cc)
    (hrest : { draft with to_ := draft'.to_, cc := draft'.cc } = draft') (stamp : Stamp) :
    (Operation.send caller draft stamp).step mb s =
      (Operation.send other draft' stamp).step mb s := by
  have hsent : mb.sendIn s caller draft stamp = mb.sendIn s other draft' stamp := by
    simp only [Mailbox.sendIn, hactor, hto, hcc]
    rw [← hrest]
    rfl
  rw [Operation.step_send, Operation.step_send, hsent]

/-- Texts that resolve alike, and under which the directory has the same, are
interchangeable. -/
lemma interchangeable_of_local_eq {s : InMemoryStore} {text other : String}
    (hlocal : mb.local_ text = mb.local_ other)
    (hjoined : ∀ resolved, mb.local_ text = .ok resolved → resolved ∈ s.actors)
    (hlookup : s.actors.lookup text = s.actors.lookup other) :
    Interchangeable mb s text other := by
  have hactor := actorIn_eq hlocal hjoined
  intro use huse
  cases huse with
  | updateProfile profile now =>
    rw [Operation.step_updateProfile, Operation.step_updateProfile, hactor]
  | send draft stamp => exact step_send_congr draft draft hactor rfl rfl rfl stamp
  | reply objectId body subject stamp =>
    have hreply : mb.replyIn s text objectId body subject stamp =
        mb.replyIn s other objectId body subject stamp := by
      simp only [Mailbox.replyIn, Mailbox.visibleIn, Mailbox.sendIn, hactor]
    rw [Operation.step_reply, Operation.step_reply, hreply]
  | peek => simp only [Operation.step_peek, Mailbox.unreadIn, hactor]
  | unreadCount => simp only [Operation.step_unreadCount, Mailbox.unreadIn, hactor]
  | read objectId now =>
    simp only [Operation.step_eq_runs, Operation.program, runs_map, Mailbox.runs_read,
      Mailbox.visibleIn, hactor]
  | view objectId => simp only [Operation.step_view, Mailbox.visibleIn, hactor]
  | thread rootId => simp only [Operation.step_thread, Mailbox.threadIn, hactor]
  | whois =>
    rw [Operation.step_whois, Operation.step_whois, hlookup]
  | recipient caller draft stamp =>
    exact step_send_congr { draft with to_ := .one text } { draft with to_ := .one other } rfl
      (localAll_congr hlocal [] []) rfl rfl stamp
  | recipients caller before after draft stamp =>
    exact step_send_congr { draft with to_ := .many (before ++ text :: after) }
      { draft with to_ := .many (before ++ other :: after) } rfl
      (localAll_congr hlocal before after) rfl rfl stamp
  | copies caller before after draft stamp =>
    exact step_send_congr { draft with cc := before ++ text :: after }
      { draft with cc := before ++ other :: after } rfl rfl
      (localAll_congr hlocal before after) rfl stamp

/-- A spelling is found in the directory when it is the name itself. -/
lemma Spelling.mem_actors_iff {s : InMemoryStore} {text : String} (h : Spelling mb name text)
    (hs : Consistent s) (hjoined : name ∈ s.actors) : text ∈ s.actors ↔ text = name := by
  constructor
  · intro hmem
    obtain ⟨hplain, hne⟩ := hs.usable text hmem
    exact h.resolved (hs.usable name hjoined).1 (localName_plain mb.unicode hplain hne mb.hubName)
  · rintro rfl
    exact hjoined

lemma lookup_eq_iff {s : InMemoryStore} {text other : String} (htext : Spelling mb name text)
    (hother : Spelling mb name other) (hs : Consistent s) (hjoined : name ∈ s.actors) :
    s.actors.lookup text = s.actors.lookup other ↔ (text = name ↔ other = name) := by
  obtain ⟨actor, hactor⟩ := (Dict.mem_iff_lookup _ _).mp hjoined
  have hfound : ∀ {spelled}, spelled = name → s.actors.lookup spelled = some actor := by
    rintro spelled rfl
    exact hactor
  have hnone : ∀ {spelled}, Spelling mb name spelled → spelled ≠ name →
      s.actors.lookup spelled = none := fun h hne =>
    AList.lookup_eq_none.mpr (mt (h.mem_actors_iff hs hjoined).mp hne)
  by_cases htext' : text = name
  · by_cases hother' : other = name
    · simp [hfound htext', hfound hother', htext', hother']
    · simp [hfound htext', hnone hother hother', htext', hother']
  · by_cases hother' : other = name
    · simp [hnone htext htext', hfound hother', htext', hother']
    · simp [hnone htext htext', hnone hother hother', htext', hother']

/-- Interchangeable spellings resolve alike. -/
lemma local_eq_of_interchangeable {s : InMemoryStore} {text other : String}
    (htext : Spelling mb name text) (hother : Spelling mb name other) (hs : Consistent s)
    (hjoined : name ∈ s.actors) (h : Interchangeable mb s text other) :
    mb.local_ text = mb.local_ other := by
  have hplain := (hs.usable name hjoined).1
  obtain ⟨actor, hactor⟩ := (Dict.mem_iff_lookup _ _).mp hjoined
  have hupdate := congrArg Prod.fst (h _ (.updateProfile ∅ (january 1)))
  simp only [Operation.step_updateProfile] at hupdate
  have herror : ∀ {spelled e}, mb.local_ spelled = .error e →
      mb.actorIn s spelled = .error e := by
    intro spelled e he
    rw [Mailbox.actorIn, he]
    rfl
  cases hlocal : mb.local_ text with
  | ok resolved =>
    obtain rfl := htext.resolved hplain hlocal
    cases hlocal' : mb.local_ other with
    | ok resolved' => rw [hother.resolved hplain hlocal']
    | error e =>
      rw [Mailbox.actorIn_of_local hlocal hactor, herror hlocal'] at hupdate
      cases hupdate
  | error e =>
    cases hlocal' : mb.local_ other with
    | ok resolved' =>
      obtain rfl := hother.resolved hplain hlocal'
      rw [Mailbox.actorIn_of_local hlocal' hactor, herror hlocal] at hupdate
      cases hupdate
    | error e' =>
      rw [herror hlocal, herror hlocal'] at hupdate
      cases hupdate
      rfl

/-- Two spellings of an actor are interchangeable when both or neither is the name as the
directory has it, and they resolve alike. -/
theorem interchangeable_iff {s : InMemoryStore} {text other : String}
    (htext : Spelling mb name text) (hother : Spelling mb name other) (hs : Consistent s)
    (hjoined : name ∈ s.actors) : Interchangeable mb s text other ↔
      (text = name ↔ other = name) ∧ mb.local_ text = mb.local_ other := by
  rw [← lookup_eq_iff htext hother hs hjoined]
  constructor
  · intro h
    refine ⟨?_, local_eq_of_interchangeable htext hother hs hjoined h⟩
    have hwhois := congrArg Prod.fst (h _ .whois)
    rw [Operation.step_whois, Operation.step_whois] at hwhois
    simpa using hwhois
  · rintro ⟨hlookup, hlocal⟩
    refine interchangeable_of_local_eq hlocal (fun resolved hresolved => ?_) hlookup
    rw [htext.resolved (hs.usable name hjoined).1 hresolved]
    exact hjoined

/-- One operation with one of its actors written another way. -/
def Respelled (mb : Mailbox) (s : InMemoryStore) (op op' : Operation) : Prop :=
  op = op' ∨ ∃ name use text other, name ∈ s.actors ∧ TakesActor use ∧ Spelling mb name text ∧
    Spelling mb name other ∧ (text = name ↔ other = name) ∧
      mb.local_ text = mb.local_ other ∧ op = use text ∧ op' = use other

/-- A run with actors written other ways. -/
inductive RespelledRun (mb : Mailbox) :
    InMemoryStore → List Operation → List Operation → Prop
  | nil (s : InMemoryStore) : RespelledRun mb s [] []
  | cons {s : InMemoryStore} {op op' : Operation} {ops ops' : List Operation}
    (hop : Respelled mb s op op') (hops : RespelledRun mb (op.step mb s).2 ops ops') :
    RespelledRun mb s (op :: ops) (op' :: ops')

lemma Respelled.step_eq {s : InMemoryStore} {op op' : Operation} (h : Respelled mb s op op')
    (hs : Consistent s) : op.step mb s = op'.step mb s := by
  rcases h with rfl | ⟨name, use, text, other, hjoined, huse, htext, hother, hwhois, hlocal, rfl,
    rfl⟩
  · rfl
  · exact (interchangeable_iff htext hother hs hjoined).mpr ⟨hwhois, hlocal⟩ use huse

/-- A respelled run shows its callers the same and leads to the same store. -/
lemma RespelledRun.same {s : InMemoryStore} {ops ops' : List Operation}
    (h : RespelledRun mb s ops ops') (hs : Consistent s)
    (hadm : Throughout mb Operation.Admissible s ops) :
    observed mb s ops = observed mb s ops' ∧ after mb s ops = after mb s ops' := by
  induction h with
  | nil s => exact ⟨rfl, rfl⟩
  | cons hop _ ih =>
    have hstep := hop.step_eq hs
    obtain ⟨hobserved, hafter⟩ := ih (hs.step mb hadm.1) hadm.2
    simp only [observed, after_cons, ← hstep, hobserved, hafter, and_self]

end

/-- Two spellings of an actor do the same in every operation exactly when both or neither
is the name as the directory has it. Where the hub's name is one no address can carry, they
must also resolve alike. Runs respelled in this way do the same throughout. -/
theorem spellings_interchangeable_iff (mb : Mailbox) :
    (HubPart mb.hubName → ∀ s, Reachable mb s → ∀ name ∈ s.actors, ∀ text other,
      Spelling mb name text → Spelling mb name other →
        (Interchangeable mb s text other ↔ (text = name ↔ other = name))) ∧
    (∀ s, Reachable mb s → ∀ name ∈ s.actors, ∀ text other, Spelling mb name text →
      Spelling mb name other → (Interchangeable mb s text other ↔
        (text = name ↔ other = name) ∧ mb.local_ text = mb.local_ other)) ∧
    ∀ s, Reachable mb s → ∀ ops ops', Throughout mb Operation.Admissible s ops →
      RespelledRun mb s ops ops' →
        observed mb s ops = observed mb s ops' ∧ after mb s ops = after mb s ops' := by
  refine ⟨?_, ?_, ?_⟩
  · intro hhub s hs name hjoined text other htext hother
    obtain ⟨hplain, hne⟩ := hs.consistent.usable name hjoined
    have hlocal : mb.local_ text = mb.local_ other :=
      (htext.resolves hplain hne hhub).trans (hother.resolves hplain hne hhub).symm
    rw [interchangeable_iff htext hother hs.consistent hjoined]
    exact and_iff_left hlocal
  · intro s hs name hjoined text other htext hother
    exact interchangeable_iff htext hother hs.consistent hjoined
  · exact fun s hs ops ops' hadm hrun => hrun.same hs.consistent hadm

/-- The mailbox after `alice` has joined. -/
def aliceJoined : InMemoryStore := after asciiMailbox .empty [joinAs "alice"]

lemma alice_spelled : Spelling asciiMailbox "alice" "alice" ∧
    Spelling asciiMailbox "alice" "alice@local" ∧
      Spelling asciiMailbox "alice" " Alice@LOCAL " := by
  have hsame : ∀ text, asciiUnicode.lower text = "alice" → '@' ∉ text.toList →
      Text.strip text = text → SameLetters asciiUnicode "alice" text := fun text h hat hstrip =>
    ⟨h, iff_of_false hat (by decide), iff_of_true hstrip (by decide)⟩
  have hlocal : ∀ hub, asciiUnicode.lower hub = localHub → '@' ∉ hub.toList →
      Text.strip hub = hub → SameLetters asciiUnicode localHub hub := fun hub h hat hstrip =>
    ⟨h, iff_of_false hat (by decide), iff_of_true hstrip (by decide)⟩
  have hnone : ∀ c ∈ "".toList, isSpace c = true := List.all_eq_true.mp (by decide)
  have hspace : ∀ c ∈ " ".toList, isSpace c = true := List.all_eq_true.mp (by decide)
  refine ⟨⟨"", "alice", "", hnone, hnone, .bare _ ?_, by decide⟩,
    ⟨"", "alice@local", "", hnone, hnone, .atHub "alice" "local" localHub ?_ (.inl rfl) ?_,
      by decide⟩,
    ⟨" ", "Alice@LOCAL", " ", hspace, hspace,
      .atHub "Alice" "LOCAL" localHub ?_ (.inl rfl) ?_, by decide⟩⟩
  · exact hsame "alice" (by decide) (by decide) (by decide)
  · exact hsame "alice" (by decide) (by decide) (by decide)
  · exact hlocal "local" (by decide) (by decide) (by decide)
  · exact hsame "Alice" (by decide) (by decide) (by decide)
  · exact hlocal "LOCAL" (by decide) (by decide) (by decide)

theorem alice_interchangeable :
    Interchangeable asciiMailbox aliceJoined "alice@local" " Alice@LOCAL " :=
  ((spellings_interchangeable_iff asciiMailbox).1 ⟨by decide, by decide, by decide⟩ aliceJoined
    (reachable_after .empty (by decide +kernel)) "alice" (by decide +kernel) _ _
    alice_spelled.2.1 alice_spelled.2.2).mpr (by decide)

/-- `whois` finds `alice`, and nobody at `alice@local`. -/
theorem whois_resolves_nothing :
    Reachable asciiMailbox aliceJoined ∧ "alice" ∈ aliceJoined.actors ∧
      Spelling asciiMailbox "alice" "alice" ∧ Spelling asciiMailbox "alice" "alice@local" ∧
      (((Operation.whois "alice").step asciiMailbox aliceJoined).1.map fun result =>
        match result with
        | .found actor => actor.isSome
        | _ => false) = .ok true ∧
      ((Operation.whois "alice@local").step asciiMailbox aliceJoined).1 = .ok (.found none) ∧
      ¬ Interchangeable asciiMailbox aliceJoined "alice" "alice@local" := by
  have hone : (((Operation.whois "alice").step asciiMailbox aliceJoined).1.map fun result =>
      match result with
      | .found actor => actor.isSome
      | _ => false) = .ok true := by decide +kernel
  have hnone : ((Operation.whois "alice@local").step asciiMailbox aliceJoined).1 =
      .ok (.found none) := by decide +kernel
  refine ⟨reachable_after .empty (by decide +kernel), by decide +kernel, alice_spelled.1,
    alice_spelled.2.1, hone, hnone, ?_⟩
  intro h
  rw [h _ .whois, hnone] at hone
  exact absurd hone (by decide)

end AgentMailbox
