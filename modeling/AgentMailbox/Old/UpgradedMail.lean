import AgentMailbox.Old.Consumption
import AgentMailbox.Old.Delivery
import AgentMailbox.Old.Openings

/-!
# The mail of an upgraded file

What an upgraded file holds is what the old one held: the same messages, and a record by reader
of everything that has been consumed.
-/
namespace AgentMailbox.Old

/-- What an agent is shown: what is routed to it, not its own and not consumed by it. -/
lemma Hub.mem_peek {hub : Hub} {project agent : String} {role : Option String} {reader : Reader}
    (hreader : hub.reader project agent role = .ok reader) (t : Tables) :
    ∃ shown, hub.peek project agent role t = .ok shown ∧ ∀ message, message ∈ shown ↔
      ∃ row ∈ t.messages.rows, row.routesTo reader = true ∧ row.notMyOwnFanout reader = true ∧
        ¬ t.hasRead reader.me row.id = true ∧ row.toMessage = message := by
  have hpeek : hub.peek project agent role t =
      .ok ((oldestFirst (t.messages.rows.filter (t.waits reader))).map MessageRow.toMessage) := by
    simp only [Hub.peek, hreader]
    rfl
  refine ⟨_, hpeek, fun message => ?_⟩
  simp only [List.mem_map, (oldestFirst_perm _).mem_iff, List.mem_filter, Tables.waits,
    Bool.and_eq_true, Bool.not_eq_true', Bool.not_eq_true, and_assoc]

namespace StoreFile

/-! ## The mail of an upgraded file -/

/-- What the hub's statements see of a file with the version of today. The column of the claims,
where it could not be dropped, is mentioned by none of them. -/
def tables (f : StoreFile) : Option Tables :=
  match f.messages, f.reads, f.agents, f.forwards with
  | some (.current messages), some reads, some (.current agents), some forwards =>
    some ⟨messages, reads, agents, forwards, f.hubMeta.join⟩
  | some (.claimed messages), some reads, some (.current agents), some forwards =>
    some ⟨withoutAckedAt messages, reads, agents, forwards, f.hubMeta.join⟩
  | _, _, _, _ => none

/-- The messages as they are delivered from the third version on: all in the one mode. -/
def delivered (f : StoreFile) : List MessageRow :=
  if f.version < 3 ∧ "acked_at" ∈ f.columns .messages then f.letters.map MessageRow.fanned
  else f.letters

/-- The directory, in the shape of today. -/
def entries (f : StoreFile) : List AgentRow :=
  match f.agents with
  | some (.twoPart rows) => rows.rows.map DirectoryRow.widen
  | some (.current rows) => rows.rows
  | none => []

/-- There is a record of the reader's having consumed the message. -/
def HasRead (f : StoreFile) (me id : String) : Prop :=
  ∃ reads, f.reads = some reads ∧ (id, me) ∈ reads.rows.map ReadRow.key

/-- The message has been consumed: there is a record of it, or it names a recipient, who was to
be `me`, and has been claimed. -/
def Consumed (f : StoreFile) (me id : String) : Prop :=
  f.HasRead me id ∨ f.version < 3 ∧ ∃ row ∈ f.claims,
    row.ackedAt.isSome ∧ row.toAgent.isSome ∧ row.to_ = me ∧ row.id = id

/-- Why a file cannot be brought up to date. -/
def refusal (f : StoreFile) : Option Failure :=
  if f.messages.isNone then none
  else if schemaVersion < f.version then some (.schemaTooNew f.version)
  else if f.version < 3 ∧ "acked_at" ∈ f.columns .messages then
    if f.reads.isNone then some (.operationalError "no such table: broadcast_reads")
    else if f.countUnattributable = 0 then none
    else some (.unattributable f.countUnattributable)
  else none

section
variable {canDrop : Bool} {f g : StoreFile}

lemma claims_widened : f.widenMessages.widenAgents.claims = f.claims := by
  unfold claims widenMessages widenAgents
  cases f.messages with
  | none => rfl
  | some stored =>
    cases stored with
    | twoPart rows => exact rows_widened rows
    | claimed rows => rfl
    | current rows => rfl

lemma acked_widened : "acked_at" ∈ f.widenMessages.widenAgents.columns .messages ↔
    "acked_at" ∈ f.columns .messages := by
  unfold columns widenMessages widenAgents
  cases f.messages with
  | none => rfl
  | some stored => cases stored <;> simp [StoredMessages.widened, StoredMessages.columns]

/-- The files that have a column of claims are those of the first two versions. -/
lemma claimed_of_acked (hwide : f.Wide) (hacked : "acked_at" ∈ f.columns .messages) :
    ∃ rows, f.messages = some (.claimed rows) := by
  cases hm : f.messages with
  | none => simp [columns, hm] at hacked
  | some stored =>
    cases stored with
    | twoPart rows => exact absurd hm (hwide.messages rows)
    | claimed rows => exact ⟨rows, rfl⟩
    | current rows => simp [columns, hm, StoredMessages.columns] at hacked

lemma claims_of_not_acked (hacked : "acked_at" ∉ f.columns .messages) : f.claims = [] := by
  unfold columns at hacked
  unfold claims
  cases hm : f.messages with
  | none => rfl
  | some stored => cases stored <;> simp_all [StoredMessages.columns]

/-- What a file comes to is decided by what stands in the way. -/
lemma upgraded_refusal (canDrop : Bool) (hf : f.Consistent) :
    match f.refusal with
    | none => ∃ g, f.upgraded canDrop = .ok g
    | some e => f.upgraded canDrop = .error e := by
  unfold refusal
  by_cases hsome : f.messages.isSome
  · rw [if_neg (not_isNone hsome)]
    by_cases hnew : schemaVersion < f.version
    · rw [if_pos hnew]
      exact upgraded_tooNew hsome hnew
    · rw [if_neg hnew, upgraded_eq hf hsome hnew]
      unfold secondStage
      have hv : f.widenMessages.widenAgents.version = f.version := rfl
      rw [hv]
      by_cases howed : f.version < 3 ∧ "acked_at" ∈ f.columns .messages
      · obtain ⟨hthree, hacked⟩ := howed
        obtain ⟨rows, hm⟩ := claimed_of_acked wide_widened (acked_widened.mpr hacked)
        have hcount : f.widenMessages.widenAgents.countUnattributable = f.countUnattributable :=
          congrArg (List.countP ClaimedRow.unattributable) claims_widened
        rw [if_pos ⟨hthree, hacked⟩, if_pos hthree]
        cases hr : f.reads with
        | none =>
          have hreads : f.widenMessages.widenAgents.reads = none := hr
          simp [attributed, acked_widened, hacked, copyAcked, hm, hreads, Except.bind, Except.map]
        | some reads =>
          rw [attributed_claimed hm (show f.widenMessages.widenAgents.reads = some reads from hr),
            hcount]
          by_cases hzero : f.countUnattributable = 0
          · simp [hzero, Except.map]
          · simp [hzero, Except.map]
      · rw [if_neg howed]
        by_cases hthree : f.version < 3
        · have hacked : "acked_at" ∉ f.columns .messages := fun hacked => howed ⟨hthree, hacked⟩
          rw [if_pos hthree, attributed_current (mt acked_widened.mp hacked)]
          exact ⟨_, rfl⟩
        · rw [if_neg hthree]
          exact ⟨_, rfl⟩
  · rw [if_pos (by simpa using hsome)]
    exact ⟨_, (upgraded_fresh canDrop hf hsome).2⟩

lemma entries_widened : f.widenMessages.widenAgents.entries = f.entries := by
  unfold entries widenMessages widenAgents
  cases f.agents with
  | none => rfl
  | some stored =>
    cases stored with
    | current rows => rfl
    | twoPart rows =>
      show (widenedAgents rows).rows = rows.rows.map DirectoryRow.widen
      unfold widenedAgents
      rw [Table.rows_insertAll]
      · rfl
      · -- the third part is the same everywhere
        rw [List.map_map]
        have hkeys : rows.rows.map (AgentRow.key ∘ DirectoryRow.widen) =
            (rows.rows.map DirectoryRow.key).map fun key => (key.1, key.2, "") := by
          rw [List.map_map]
          rfl
        rw [hkeys]
        refine rows.unique.map fun key key' h => ?_
        simpa [Prod.ext_iff] using h
      · simp

lemma letters_widened : f.widenMessages.widenAgents.letters = f.letters := letters_widenMessages

lemma mem_acknowledgements (rows : List ClaimedRow) (me id : String) :
    (id, me) ∈ (rows.filterMap ClaimedRow.acknowledgement).map ReadRow.key ↔
      ∃ row ∈ rows, row.ackedAt.isSome ∧ row.toAgent.isSome ∧ row.to_ = me ∧ row.id = id := by
  simp only [List.mem_map, List.mem_filterMap]
  constructor
  · rintro ⟨read, ⟨row, hrow, hack⟩, hkey⟩
    unfold ClaimedRow.acknowledgement at hack
    split_ifs at hack with hagent
    obtain ⟨ackedAt, hacked, rfl⟩ := Option.map_eq_some_iff.mp hack
    cases hkey
    exact ⟨row, hrow, by simp [hacked], hagent, rfl, rfl⟩
  · rintro ⟨row, hrow, hacked, hagent, rfl, rfl⟩
    obtain ⟨ackedAt, hat⟩ := Option.isSome_iff_exists.mp hacked
    refine ⟨⟨row.id, row.to_, ackedAt⟩, ⟨row, hrow, ?_⟩, rfl⟩
    simp [ClaimedRow.acknowledgement, hagent, hat]

/-- What the second stage makes of the messages and of the record. -/
lemma secondStage_mail (hwide : f.Wide) (h : f.secondStage canDrop = .ok g) :
    g.letters = f.delivered ∧ g.entries = f.entries ∧ g.forwards = f.forwards ∧
      ∀ me id, g.HasRead me id ↔ f.Consumed me id := by
  unfold secondStage at h
  unfold delivered Consumed
  by_cases hthree : f.version < 3
  · rw [if_pos hthree] at h
    rcases attributed_ok hwide.messages h with ⟨hacked, rfl⟩ | ⟨rows, reads, hm, hr, _, rfl⟩
    · rw [if_neg fun howed => hacked howed.2, claims_of_not_acked hacked]
      simp
    · have hacked : "acked_at" ∈ f.columns .messages := by
        simp [columns, hm, StoredMessages.columns]
      have hclaims : f.claims = rows.rows := by simp [claims, hm]
      have hletters : f.letters = rows.rows.map ClaimedRow.toMessageRow := by
        simp [letters, claims, hm]
      rw [if_pos ⟨hthree, hacked⟩, hletters, hclaims]
      refine ⟨?_, rfl, rfl, fun me id => ?_⟩
      · have hthere : (f.onceAttributed canDrop rows reads).letters =
            (rows.rows.map ClaimedRow.fanned).map ClaimedRow.toMessageRow := by
          cases canDrop <;> rfl
        rw [hthere, List.map_map, List.map_map]
        rfl
      · have hreads : (f.onceAttributed canDrop rows reads).HasRead me id ↔
            (id, me) ∈ (reads.insertAll
              (rows.rows.filterMap ClaimedRow.acknowledgement)).rows.map ReadRow.key := by
          simp [HasRead, onceAttributed]
        have hbefore : f.HasRead me id ↔ (id, me) ∈ reads.rows.map ReadRow.key := by
          simp [HasRead, hr]
        rw [hreads, Table.key_mem_insertAll, mem_acknowledgements, hbefore]
        simp only [hthree, true_and]
  · rw [if_neg hthree] at h
    cases h
    rw [if_neg fun howed => hthree howed.1]
    simp [hthree]

/-- What the whole upgrade makes of them. -/
lemma upgraded_mail (hf : f.Consistent) (h : f.upgraded canDrop = .ok g) :
    g.letters = f.delivered ∧ g.entries = f.entries ∧ g.forwards = f.forwards ∧
      ∀ me id, g.HasRead me id ↔ f.Consumed me id := by
  rcases upgraded_stages hf h with ⟨hnone, rfl⟩ | ⟨hsome, hknown, k, hk, rfl⟩
  · have hm : f.messages = none := by simpa using hnone
    have hacked : "acked_at" ∉ f.columns .messages := by simp [columns, hm]
    unfold delivered Consumed
    rw [if_neg fun howed => hacked howed.2, claims_of_not_acked hacked]
    simp [stamped, letters, claims, entries, HasRead]
  · obtain ⟨hletters, hentries, hforwards, hread⟩ := secondStage_mail wide_widened hk
    have hversion : f.widenMessages.widenAgents.version = f.version := rfl
    refine ⟨hletters.trans ?_, hentries.trans entries_widened, hforwards, fun me id => ?_⟩
    · unfold delivered
      rw [hversion, letters_widened]
      simp only [acked_widened]
    · refine (hread me id).trans ?_
      unfold Consumed
      rw [hversion, claims_widened]
      rfl

lemma messages_completed (hwide : f.Wide) :
    ∃ messages : Table MessageRow.id, messages.rows = f.letters ∧
      (f.completed.messages = some (.current messages) ∨ ∃ claimed,
        f.completed.messages = some (.claimed claimed) ∧ withoutAckedAt claimed = messages) := by
  unfold completed letters claims
  cases hm : f.messages with
  | none => exact ⟨.empty, rfl, Or.inl rfl⟩
  | some stored =>
    cases stored with
    | twoPart rows => exact absurd hm (hwide.messages rows)
    | claimed rows => exact ⟨withoutAckedAt rows, rfl, Or.inr ⟨rows, rfl, rfl⟩⟩
    | current rows => exact ⟨rows, rfl, Or.inl rfl⟩

lemma agents_completed (hwide : f.Wide) :
    ∃ agents : Table AgentRow.key, agents.rows = f.entries ∧
      f.completed.agents = some (.current agents) := by
  unfold completed entries
  cases ha : f.agents with
  | none => exact ⟨.empty, rfl, rfl⟩
  | some stored =>
    cases stored with
    | twoPart rows => exact absurd ha (hwide.agents rows)
    | current rows => exact ⟨rows, rfl, rfl⟩

/-- A file that has been completed has the tables of today. -/
lemma tables_completed (hwide : f.Wide) (now : DateTime) :
    ∃ t, (f.completed.firstOpened now).tables = some t ∧ t.messages.rows = f.letters ∧
      t.agents.rows = f.entries ∧ some t.forwards = f.forwards.or (some .empty) ∧
      ∀ me id, t.hasRead me id = true ↔ f.HasRead me id := by
  obtain ⟨messages, hletters, hmessages⟩ := messages_completed hwide
  obtain ⟨agents, hentries, hagents⟩ := agents_completed hwide
  have hreads : f.completed.reads = some (f.reads.getD .empty) := by
    unfold completed
    cases f.reads <;> rfl
  have hforwards : f.completed.forwards = some (f.forwards.getD .empty) := by
    unfold completed
    cases f.forwards <;> rfl
  refine ⟨⟨messages, f.reads.getD .empty, agents, f.forwards.getD .empty,
    (f.completed.firstOpened now).hubMeta.join⟩, ?_, hletters, hentries, hforwards.symm, ?_⟩
  · unfold tables
    rcases hmessages with hcurrent | ⟨claimed, hclaimed, rfl⟩
    · simp only [firstOpened, hcurrent, hreads, hagents, hforwards]
    · simp only [firstOpened, hclaimed, hreads, hagents, hforwards]
  · intro me id
    rw [Hub.hasRead_iff]
    unfold HasRead
    cases f.reads with
    | none => simp
    | some reads =>
      simp only [Option.getD_some, Option.some.injEq, exists_eq_left', List.mem_map,
        ReadRow.key, Prod.mk.injEq]
      exact exists_congr fun row => and_congr_right fun _ => and_comm

/-- Where nothing stands in the way, every message that has been claimed names its recipient. -/
lemma isSome_of_refusal (h : f.refusal = none) (hv : f.version < 3) {row : ClaimedRow}
    (hrow : row ∈ f.claims) (hacked : row.ackedAt.isSome) : row.toAgent.isSome := by
  have hcolumn : "acked_at" ∈ f.columns .messages := by
    by_contra hnot
    rw [claims_of_not_acked hnot] at hrow
    cases hrow
  have hsome : ¬ f.messages.isNone := by
    intro hnone
    have hm : f.messages = none := by simpa using hnone
    simp [columns, hm] at hcolumn
  have hknown : ¬ schemaVersion < f.version := by
    unfold schemaVersion
    omega
  have hcount : f.countUnattributable = 0 := by
    unfold refusal at h
    rw [if_neg hsome, if_neg hknown, if_pos ⟨hv, hcolumn⟩] at h
    split_ifs at h with hreads hzero
    exact hzero
  have hrow' := (List.countP_eq_zero.mp hcount) row hrow
  unfold ClaimedRow.unattributable at hrow'
  cases hagent : row.toAgent with
  | some agent => rfl
  | none => simp [hacked, hagent] at hrow'

/-- What an upgraded file holds is what the old one did. A file is refused if a newer version has
written it, if its record of consumption is missing, or if somebody has consumed a message that
names no recipient; and then too its messages stay. Otherwise the messages are all there, in
their order, and none is unread that was consumed: an agent is shown the messages routed to it
that are neither its own nor consumed by it, whether that was recorded by reader or as a claim. -/
theorem upgrade_keeps_mail (canDrop : Bool) (f : StoreFile) (hf : f.Consistent) (now : DateTime) :
    (∀ e, f.refusal = some e → (f.opening canDrop now).1 = .error e ∧
        (f.opening canDrop now).2.letters.map MessageRow.fanned =
          f.letters.map MessageRow.fanned) ∧
      (f.refusal = none → (f.opening canDrop now).1 = .ok () ∧
        ∃ t, (f.opening canDrop now).2.tables = some t ∧
          t.messages.rows = f.delivered ∧ t.agents.rows = f.entries ∧
          some t.forwards = f.forwards.or (some .empty) ∧
          (∀ me id, t.hasRead me id = true ↔ f.Consumed me id) ∧
          (f.version < 3 → ∀ row ∈ f.claims, row.ackedAt.isSome →
            t.hasRead row.to_ row.id = true) ∧
          ∀ (hub : Hub) (project agent : String) (role : Option String) (reader : Reader),
            hub.reader project agent role = .ok reader →
            ∃ shown, hub.peek project agent role t = .ok shown ∧
              ∀ message, message ∈ shown ↔ ∃ row ∈ f.delivered, row.routesTo reader = true ∧
                row.notMyOwnFanout reader = true ∧ ¬ f.Consumed reader.me row.id ∧
                row.toMessage = message) := by
  have hdecided := upgraded_refusal canDrop hf
  constructor
  · intro e he
    rw [he] at hdecided
    have hopened : f.openedAt canDrop now = .error e := by
      unfold openedAt
      rw [hdecided]
      rfl
    exact ⟨opening_error hf hopened, (intact_opening hf now).letters⟩
  · intro hnone
    rw [hnone] at hdecided
    obtain ⟨g, hg⟩ := hdecided
    have hopened : f.openedAt canDrop now = .ok (g.completed.firstOpened now) := by
      unfold openedAt
      rw [hg]
      rfl
    obtain ⟨k, _, hkwide, _, hkg⟩ := upgraded_ok hf hg
    have hwide : g.Wide := by
      rw [hkg]
      exact ⟨hkwide.messages, hkwide.agents⟩
    obtain ⟨hletters, hentries, hforwards, hread⟩ := upgraded_mail hf hg
    obtain ⟨t, ht, htletters, htentries, htforwards, htread⟩ := tables_completed hwide now
    rw [opening_ok hf hopened]
    have hconsumed : ∀ me id, t.hasRead me id = true ↔ f.Consumed me id := fun me id =>
      (htread me id).trans (hread me id)
    refine ⟨rfl, t, ht, htletters.trans hletters, htentries.trans hentries,
      htforwards.trans (by rw [hforwards]), hconsumed, ?_, ?_⟩
    · intro hv row hrow hacked
      have hagent := isSome_of_refusal hnone hv hrow hacked
      exact (hconsumed _ _).mpr (Or.inr ⟨hv, row, hrow, hacked, hagent, rfl, rfl⟩)
    · intro hub project agent role reader hreader
      obtain ⟨shown, hpeek, hshown⟩ := Hub.mem_peek hreader t
      refine ⟨shown, hpeek, fun message => ?_⟩
      rw [hshown, htletters, hletters]
      simp only [hconsumed]

/-- The claimed letter has been consumed, and the note has not. -/
theorem alice_is_shown_the_note :
    ∃ t, (firstFile.opening true (january 7)).2.tables = some t ∧
      t.hasRead "p/alice" "m1" = true ∧
      ∃ shown, plainHub.peek "p" "alice" none t = .ok shown ∧
        (∀ message ∈ shown, message.id ≠ "m1") ∧
        noteToAll.widen.toMessageRow.fanned.toMessage ∈ shown := by
  obtain ⟨_, t, htables, _, _, _, _, hclaimed, hpeek⟩ :=
    (upgrade_keeps_mail true firstFile consistent_firstFile (january 7)).2 (by decide)
  obtain ⟨shown, hshown, hmem⟩ := hpeek plainHub "p" "alice" none ⟨"p", "alice", "", "p/alice"⟩
    (by decide +kernel)
  have hread : t.hasRead "p/alice" "m1" = true :=
    hclaimed (by decide) claimedLetter.widen (by decide) rfl
  have hconsumed : firstFile.Consumed "p/alice" "m1" :=
    Or.inr ⟨by decide, claimedLetter.widen, by decide, rfl, rfl, rfl, rfl⟩
  have hunread : ¬ firstFile.Consumed "p/alice" "m2" := by
    have hfree : ∀ row ∈ firstFile.claims, row.id = "m2" → row.ackedAt.isSome = false := by decide
    rintro (⟨reads, hreads, hrow⟩ | ⟨_, row, hrow, hacked, _, _, hid⟩)
    · cases hreads
      cases hrow
    · rw [hfree row hrow hid] at hacked
      cases hacked
  refine ⟨t, htables, hread, shown, hshown, ?_, ?_⟩
  · intro message hmessage hid
    obtain ⟨row, _, _, _, hfree, rfl⟩ := (hmem message).mp hmessage
    have hrow : row.id = "m1" := hid
    rw [hrow] at hfree
    exact hfree hconsumed
  · exact (hmem _).mpr ⟨noteToAll.widen.toMessageRow.fanned, by decide +kernel, by decide,
      by decide, hunread, rfl⟩

/-- On a file with the version of today opening is what `connect` begins with. -/
theorem opening_current (canDrop : Bool) (f : StoreFile) (hf : f.Consistent) (now : DateTime)
    (t : Tables) (hversion : f.userVersion = schemaVersion) (ht : f.tables = some t) :
    (f.opening canDrop now).1 = .ok () ∧
      (f.opening canDrop now).2.tables = some (Hub.stamp now t) := by
  have hstamped : f.stamped = f := by
    unfold stamped
    rw [← hversion]
  have hup : f.upgraded canDrop = .ok f := by
    rw [← hstamped, upgraded_stamped]
  have hopened : f.openedAt canDrop now = .ok (f.completed.firstOpened now) := by
    unfold openedAt
    rw [hup]
    rfl
  rw [opening_ok hf hopened]
  refine ⟨rfl, ?_⟩
  have hstamp : ((f.hubMeta.or (some none)).map fun stamp => stamp.or (some now)).join =
      f.hubMeta.join.or (some now) := by
    rcases f.hubMeta with _ | _ | stamp <;> rfl
  unfold tables at ht
  split at ht
  · next messages reads agents forwards hm hr ha hw =>
    cases ht
    simp only [tables, firstOpened, completed, hm, hr, ha, hw, Option.some_or, hstamp, Hub.stamp]
  · next messages reads agents forwards hm hr ha hw =>
    cases ht
    simp only [tables, firstOpened, completed, hm, hr, ha, hw, Option.some_or, hstamp, Hub.stamp]
  · cases ht

end

end StoreFile

end AgentMailbox.Old
