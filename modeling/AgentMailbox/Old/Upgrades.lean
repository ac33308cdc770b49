import AgentMailbox.Old.Files

/-!
# Files brought up to date

What opening a file comes to is a function of the file. Each stage of the upgrade, and each
statement of a stage that is committed by itself, leaves a file that comes to the same.
-/
namespace AgentMailbox.Old

/-- The rows of the first version, each with a third part. -/
def widenedMessages (rows : Table TwoPartRow.id) : Table ClaimedRow.key :=
  Table.empty.insertAll (rows.rows.map TwoPartRow.widen)

def widenedAgents (rows : Table DirectoryRow.key) : Table AgentRow.key :=
  Table.empty.insertAll (rows.rows.map DirectoryRow.widen)

/-- The messages with three parts. -/
def StoredMessages.widened : StoredMessages → StoredMessages
  | .twoPart rows => .claimed (widenedMessages rows)
  | stored => stored

/-- The directory with three parts. -/
def StoredAgents.widened : StoredAgents → StoredAgents
  | .twoPart rows => .current (widenedAgents rows)
  | stored => stored

lemma StoredMessages.widened_ne (stored : StoredMessages) (rows : Table TwoPartRow.id) :
    stored.widened ≠ .twoPart rows := by
  cases stored <;> simp [StoredMessages.widened]

lemma StoredAgents.widened_ne (stored : StoredAgents) (rows : Table DirectoryRow.key) :
    stored.widened ≠ .twoPart rows := by
  cases stored <;> simp [StoredAgents.widened]

lemma StoredMessages.widened_of_wide {stored : StoredMessages}
    (h : ∀ rows, stored ≠ .twoPart rows) : stored.widened = stored := by
  cases stored with
  | twoPart rows => exact absurd rfl (h rows)
  | claimed rows => rfl
  | current rows => rfl

lemma StoredAgents.widened_of_wide {stored : StoredAgents}
    (h : ∀ rows, stored ≠ .twoPart rows) : stored.widened = stored := by
  cases stored with
  | twoPart rows => exact absurd rfl (h rows)
  | current rows => rfl

namespace StoreFile

/-! ## What a file comes to -/

/-- The version of a file. -/
def version (f : StoreFile) : ℤ := versionOf f.userVersion

/-- A file as some version has left it, or has half upgraded it: tables of two parts belong to
the first version, and a table that is copied into is empty and stands beside one of them. -/
structure Consistent (f : StoreFile) : Prop where
  messages : ∀ rows, f.messages = some (.twoPart rows) → f.version < 2
  agents : ∀ rows, f.agents = some (.twoPart rows) → f.version < 2 ∧ f.messages.isSome
  messagesV2 : ∀ copied, f.messagesV2 = some copied →
    copied = .empty ∧ ∃ rows, f.messages = some (.twoPart rows)
  agentsV2 : ∀ copied, f.agentsV2 = some copied →
    copied = .empty ∧ ∃ rows, f.agents = some (.twoPart rows)

/-- A file without tables of two parts. -/
structure Wide (f : StoreFile) : Prop where
  messages : ∀ rows, f.messages ≠ some (.twoPart rows)
  agents : ∀ rows, f.agents ≠ some (.twoPart rows)

/-- With messages of three parts. -/
def widenMessages (f : StoreFile) : StoreFile :=
  { f with messages := f.messages.map StoredMessages.widened, messagesV2 := none }

/-- With a directory of three parts. -/
def widenAgents (f : StoreFile) : StoreFile :=
  { f with agents := f.agents.map StoredAgents.widened, agentsV2 := none }

/-- With one record of consumption. -/
def attributed (canDrop : Bool) (f : StoreFile) : Except Failure StoreFile :=
  if "acked_at" ∈ f.columns .messages then
    f.copyAcked.bind fun copied =>
      if copied.countUnattributable = 0 then .ok (copied.setFanout.dropAckedAt canDrop).2
      else .error (.unattributable copied.countUnattributable)
  else .ok f

/-- Stamped with the version of today. -/
def stamped (f : StoreFile) : StoreFile := { f with userVersion := schemaVersion }

/-- With every table. -/
def completed (f : StoreFile) : StoreFile :=
  { f with
    messages := f.messages.or (some (.current .empty))
    reads := f.reads.or (some .empty)
    agents := f.agents.or (some (.current .empty))
    forwards := f.forwards.or (some .empty) }

/-- The file of today's version that a file comes to, or why it does not. -/
def upgraded (canDrop : Bool) (f : StoreFile) : Except Failure StoreFile :=
  if f.messages.isNone then .ok f.stamped
  else if schemaVersion < f.version then .error (.schemaTooNew f.version)
  else if f.version < 3 then
    (f.widenMessages.widenAgents.attributed canDrop).map stamped
  else .ok f.stamped

/-- Everything but the time at which the file was first opened. -/
def content (f : StoreFile) : StoreFile := { f with hubMeta := none }

/-- What a file comes to, with every table, whenever it is opened. -/
def outcome (canDrop : Bool) (f : StoreFile) : Except Failure StoreFile :=
  (f.upgraded canDrop).map fun g => g.completed.content

/-- The messages, in the shape of today. -/
def letters (f : StoreFile) : List MessageRow :=
  match f.messages with
  | some (.current rows) => rows.rows
  | _ => f.claims.map ClaimedRow.toMessageRow

/-- A file that comes to the same as another, and has lost nothing on the way. -/
structure Intact (canDrop : Bool) (f g : StoreFile) : Prop where
  outcome : g.outcome canDrop = f.outcome canDrop
  letters : g.letters.map MessageRow.fanned = f.letters.map MessageRow.fanned
  stamp : ∀ t, f.hubMeta = some (some t) → g.hubMeta = some (some t)
  consistent : g.Consistent

section
variable {canDrop : Bool} {f g k : StoreFile}

lemma Intact.refl (hf : f.Consistent) : Intact canDrop f f := ⟨rfl, rfl, fun _ h => h, hf⟩

lemma Intact.trans (hg : Intact canDrop f g) (hk : Intact canDrop g k) : Intact canDrop f k :=
  ⟨hk.outcome.trans hg.outcome, hk.letters.trans hg.letters,
    fun t ht => hk.stamp t (hg.stamp t ht), hk.consistent⟩

/-! ## The first stage -/

/-- No table that is copied into stands beside messages of three parts, -/
lemma Consistent.messagesV2_none (hf : f.Consistent)
    (h : ∀ rows, f.messages ≠ some (.twoPart rows)) : f.messagesV2 = none := by
  cases hv : f.messagesV2 with
  | none => rfl
  | some copied =>
    obtain ⟨rows, hrows⟩ := (hf.messagesV2 copied hv).2
    exact absurd hrows (h rows)

/-- nor beside a directory of three parts. -/
lemma Consistent.agentsV2_none (hf : f.Consistent)
    (h : ∀ rows, f.agents ≠ some (.twoPart rows)) : f.agentsV2 = none := by
  cases hv : f.agentsV2 with
  | none => rfl
  | some copied =>
    obtain ⟨rows, hrows⟩ := (hf.agentsV2 copied hv).2
    exact absurd hrows (h rows)

lemma widenMessages_of_wide (hf : f.Consistent) (h : ∀ rows, f.messages ≠ some (.twoPart rows)) :
    f.widenMessages = f := by
  have hrows : f.messages.map StoredMessages.widened = f.messages := by
    cases hm : f.messages with
    | none => rfl
    | some stored =>
      refine congrArg some (StoredMessages.widened_of_wide fun rows hrows => h rows ?_)
      rw [hm, hrows]
  unfold widenMessages
  rw [hrows, ← hf.messagesV2_none h]

lemma widenAgents_of_wide (hf : f.Consistent) (h : ∀ rows, f.agents ≠ some (.twoPart rows)) :
    f.widenAgents = f := by
  have hrows : f.agents.map StoredAgents.widened = f.agents := by
    cases hm : f.agents with
    | none => rfl
    | some stored =>
      refine congrArg some (StoredAgents.widened_of_wide fun rows hrows => h rows ?_)
      rw [hm, hrows]
  unfold widenAgents
  rw [hrows, ← hf.agentsV2_none h]

lemma not_isNone (hsome : f.messages.isSome) : ¬ f.messages.isNone := by
  rw [Option.isNone_eq_false_iff.mpr hsome]
  exact Bool.false_ne_true

lemma upgraded_tooNew (hsome : f.messages.isSome) (hnew : schemaVersion < f.version) :
    f.upgraded canDrop = .error (.schemaTooNew f.version) := by
  unfold upgraded
  rw [if_neg (not_isNone hsome), if_pos hnew]

/-- A file without messages is a new one. -/
lemma upgraded_fresh (canDrop : Bool) (hf : f.Consistent) (hnone : ¬ f.messages.isSome) :
    f.Wide ∧ f.upgraded canDrop = .ok f.stamped := by
  constructor
  · exact ⟨fun rows hrows => hnone (hrows ▸ rfl), fun rows hrows => hnone (hf.agents rows hrows).2⟩
  · unfold upgraded
    rw [if_pos (by simpa using hnone)]

/-- What a file comes to that has messages of one of the first two versions. -/
lemma upgraded_of_owed (hsome : f.messages.isSome) (hv : f.version < 3) :
    f.upgraded canDrop = (f.widenMessages.widenAgents.attributed canDrop).map stamped := by
  have hnot : ¬ schemaVersion < f.version := by unfold schemaVersion; omega
  unfold upgraded
  rw [if_neg (not_isNone hsome), if_neg hnot, if_pos hv]

lemma outcome_congr (hsome : f.messages.isSome) (hv : f.version < 3) (hgsome : g.messages.isSome)
    (hgv : g.version = f.version)
    (h : g.widenMessages.widenAgents = f.widenMessages.widenAgents) :
    g.outcome canDrop = f.outcome canDrop := by
  unfold outcome
  rw [upgraded_of_owed hsome hv, upgraded_of_owed hgsome (hgv ▸ hv), h]

lemma isSome_of_twoPart {rows : Table TwoPartRow.id} (hm : f.messages = some (.twoPart rows)) :
    f.messages.isSome := by simp [hm]

/-- A table that is created unless it exists is empty, if it was empty where it existed. -/
lemma or_created {κ ρ : Type} {key : ρ → κ} {found : Option (Table key)}
    (hfound : ∀ old, found = some old → old = .empty) :
    found.or (some .empty) = some .empty := by
  cases found with
  | none => rfl
  | some old => exact congrArg some (hfound old rfl)

/-- The table into which the messages are copied. -/
lemma intact_createMessagesV2 (hf : f.Consistent) {rows : Table TwoPartRow.id}
    (hm : f.messages = some (.twoPart rows)) :
    Intact canDrop f { f with messagesV2 := f.messagesV2.or (some .empty) } := by
  have hv := hf.messages rows hm
  have hsome := isSome_of_twoPart hm
  refine ⟨outcome_congr hsome (by omega) hsome rfl rfl, rfl, fun t ht => ht, ?_⟩
  refine ⟨hf.messages, hf.agents, fun copied hcopied => ⟨?_, rows, hm⟩, hf.agentsV2⟩
  rw [or_created fun old hold => (hf.messagesV2 old hold).1] at hcopied
  exact (Option.some.inj hcopied).symm

lemma rows_widened (rows : Table TwoPartRow.id) :
    (widenedMessages rows).rows = rows.rows.map TwoPartRow.widen := by
  unfold widenedMessages
  rw [Table.rows_insertAll]
  · rfl
  · rw [List.map_map]
    exact rows.unique
  · simp

lemma letters_widenMessages : f.widenMessages.letters = f.letters := by
  unfold letters widenMessages claims
  cases f.messages with
  | none => rfl
  | some stored =>
    cases stored with
    | twoPart rows => exact congrArg (List.map ClaimedRow.toMessageRow) (rows_widened rows)
    | claimed rows => rfl
    | current rows => rfl

lemma widenMessages_idem : f.widenMessages.widenMessages = f.widenMessages := by
  have hidem : (f.messages.map StoredMessages.widened).map StoredMessages.widened =
      f.messages.map StoredMessages.widened := by
    rw [Option.map_map]
    refine congrArg (fun widen => f.messages.map widen) (funext fun stored => ?_)
    exact StoredMessages.widened_of_wide stored.widened_ne
  show { f with messages := _, messagesV2 := none } = _
  rw [show f.widenMessages.messages = f.messages.map StoredMessages.widened from rfl, hidem]
  rfl

lemma widenAgents_idem : f.widenAgents.widenAgents = f.widenAgents := by
  have hidem : (f.agents.map StoredAgents.widened).map StoredAgents.widened =
      f.agents.map StoredAgents.widened := by
    rw [Option.map_map]
    refine congrArg (fun widen => f.agents.map widen) (funext fun stored => ?_)
    exact StoredAgents.widened_of_wide stored.widened_ne
  show { f with agents := _, agentsV2 := none } = _
  rw [show f.widenAgents.agents = f.agents.map StoredAgents.widened from rfl, hidem]
  rfl

lemma messages_widenMessages (f : StoreFile) (rows : Table TwoPartRow.id) :
    f.widenMessages.messages ≠ some (.twoPart rows) := by
  intro hrows
  obtain ⟨stored, _, hstored⟩ := Option.map_eq_some_iff.mp hrows
  exact stored.widened_ne rows hstored

lemma agents_widenAgents (f : StoreFile) (rows : Table DirectoryRow.key) :
    f.widenAgents.agents ≠ some (.twoPart rows) := by
  intro hrows
  obtain ⟨stored, _, hstored⟩ := Option.map_eq_some_iff.mp hrows
  exact stored.widened_ne rows hstored

lemma intact_widenMessages (hf : f.Consistent) : Intact canDrop f f.widenMessages := by
  by_cases hwide : ∀ rows, f.messages ≠ some (.twoPart rows)
  · rw [widenMessages_of_wide hf hwide]
    exact Intact.refl hf
  · push Not at hwide
    obtain ⟨rows, hm⟩ := hwide
    have hv := hf.messages rows hm
    have hsome : f.widenMessages.messages.isSome := by simp [widenMessages, hm]
    refine ⟨?_, congrArg _ letters_widenMessages, fun t ht => ht, ?_⟩
    · exact outcome_congr (isSome_of_twoPart hm) (by omega) hsome rfl
        (congrArg widenAgents widenMessages_idem)
    · refine ⟨fun rows' hrows => absurd hrows (messages_widenMessages f rows'), ?_, ?_, hf.agentsV2⟩
      · exact fun rows' hrows => ⟨(hf.agents rows' hrows).1, hsome⟩
      · intro copied hcopied
        cases hcopied

/-- The table into which the directory is copied. -/
lemma intact_createAgentsV2 (hf : f.Consistent) {rows : Table DirectoryRow.key}
    (ha : f.agents = some (.twoPart rows)) :
    Intact canDrop f { f with agentsV2 := f.agentsV2.or (some .empty) } := by
  obtain ⟨hv, hsome⟩ := hf.agents rows ha
  refine ⟨outcome_congr hsome (by omega) hsome rfl rfl, rfl, fun t ht => ht, ?_⟩
  refine ⟨hf.messages, hf.agents, hf.messagesV2, fun copied hcopied => ⟨?_, rows, ha⟩⟩
  rw [or_created fun old hold => (hf.agentsV2 old hold).1] at hcopied
  exact (Option.some.inj hcopied).symm

lemma intact_widenAgents (hf : f.Consistent) : Intact canDrop f f.widenAgents := by
  by_cases hwide : ∀ rows, f.agents ≠ some (.twoPart rows)
  · rw [widenAgents_of_wide hf hwide]
    exact Intact.refl hf
  · push Not at hwide
    obtain ⟨rows, ha⟩ := hwide
    obtain ⟨hv, hsome⟩ := hf.agents rows ha
    -- the two tables are widened independently of each other
    have hcommute : f.widenAgents.widenMessages = f.widenMessages.widenAgents := rfl
    refine ⟨outcome_congr hsome (by omega) hsome rfl ?_, rfl, fun t ht => ht, ?_⟩
    · rw [hcommute, widenAgents_idem]
    · refine ⟨hf.messages, ?_, hf.messagesV2, ?_⟩
      · exact fun rows' hrows => absurd hrows (agents_widenAgents f rows')
      · intro copied hcopied
        cases hcopied

/-! ## The second stage -/

/-- The messages afterwards. -/
def fannedOut (canDrop : Bool) (rows : Table ClaimedRow.key) : StoredMessages :=
  if canDrop then .current (withoutAckedAt (rows.update ClaimedRow.fanned ClaimedRow.key_fanned))
  else .claimed (rows.update ClaimedRow.fanned ClaimedRow.key_fanned)

/-- The file afterwards. -/
def onceAttributed (canDrop : Bool) (f : StoreFile) (rows : Table ClaimedRow.key)
    (reads : Table ReadRow.key) : StoreFile :=
  { f with
    messages := some (fannedOut canDrop rows)
    reads := some (reads.insertAll (rows.rows.filterMap ClaimedRow.acknowledgement)) }

lemma attributed_claimed {rows : Table ClaimedRow.key} {reads : Table ReadRow.key}
    (hm : f.messages = some (.claimed rows)) (hr : f.reads = some reads) :
    f.attributed canDrop = if f.countUnattributable = 0
      then .ok (f.onceAttributed canDrop rows reads)
      else .error (.unattributable f.countUnattributable) := by
  have hacked : "acked_at" ∈ f.columns .messages := by
    simp [columns, hm, StoredMessages.columns]
  have hclaims : f.claims = rows.rows := by simp [claims, hm]
  let copied : StoreFile := { f with
    reads := some (reads.insertAll (rows.rows.filterMap ClaimedRow.acknowledgement)) }
  have hcopied : f.copyAcked = .ok copied := by simp only [copyAcked, hm, hr, hclaims, copied]
  have hcount : copied.countUnattributable = f.countUnattributable := rfl
  have hdropped : (copied.setFanout.dropAckedAt canDrop).2 =
      f.onceAttributed canDrop rows reads := by
    cases canDrop <;> simp [setFanout, dropAckedAt, onceAttributed, fannedOut, copied, hm]
  unfold attributed
  rw [if_pos hacked, hcopied, Except.bind, hcount, hdropped]

lemma attributed_current (hacked : "acked_at" ∉ f.columns .messages) :
    f.attributed canDrop = .ok f := by
  unfold attributed
  rw [if_neg hacked]

/-- Messages of three parts are left alone, or nothing stands in the way. -/
lemma attributed_ok (hwide : ∀ rows, f.messages ≠ some (.twoPart rows))
    (h : f.attributed canDrop = .ok g) :
    "acked_at" ∉ f.columns .messages ∧ g = f ∨
      ∃ rows reads, f.messages = some (.claimed rows) ∧ f.reads = some reads ∧
        f.countUnattributable = 0 ∧ g = f.onceAttributed canDrop rows reads := by
  by_cases hacked : "acked_at" ∈ f.columns .messages
  · cases hm : f.messages with
    | none => simp [columns, hm] at hacked
    | some stored =>
      cases stored with
      | twoPart rows => exact absurd hm (hwide rows)
      | current rows => simp [columns, hm, StoredMessages.columns] at hacked
      | claimed rows =>
        cases hr : f.reads with
        | none => simp [attributed, hacked, copyAcked, hm, hr, Except.bind] at h
        | some reads =>
          rw [attributed_claimed hm hr] at h
          split_ifs at h with hcount
          exact Or.inr ⟨rows, reads, rfl, rfl, hcount, (Except.ok.inj h).symm⟩
  · rw [attributed_current hacked] at h
    exact Or.inl ⟨hacked, (Except.ok.inj h).symm⟩

/-- The second stage has nothing to do after itself. -/
lemma attributed_idem (hwide : ∀ rows, f.messages ≠ some (.twoPart rows))
    (h : f.attributed canDrop = .ok g) : g.attributed canDrop = .ok g := by
  rcases attributed_ok hwide h with ⟨hacked, rfl⟩ | ⟨rows, reads, hm, hr, hcount, rfl⟩
  · exact attributed_current hacked
  · cases canDrop with
    | true =>
      refine attributed_current ?_
      simp [columns, onceAttributed, fannedOut, StoredMessages.columns]
    | false =>
      have hacks : (rows.rows.map ClaimedRow.fanned).filterMap ClaimedRow.acknowledgement =
          rows.rows.filterMap ClaimedRow.acknowledgement := by
        rw [List.filterMap_map]
        rfl
      have hzero : (f.onceAttributed false rows reads).countUnattributable = 0 := by
        have hclaims : f.claims = rows.rows := by simp [claims, hm]
        have hthere : (f.onceAttributed false rows reads).claims =
            rows.rows.map ClaimedRow.fanned := rfl
        unfold countUnattributable at hcount ⊢
        rw [hthere, List.countP_map, ← hcount, hclaims]
        rfl
      have hmessages : (f.onceAttributed false rows reads).messages =
          some (.claimed (rows.update ClaimedRow.fanned ClaimedRow.key_fanned)) := rfl
      have hreads : (f.onceAttributed false rows reads).reads =
          some (reads.insertAll (rows.rows.filterMap ClaimedRow.acknowledgement)) := rfl
      rw [attributed_claimed hmessages hreads, if_pos hzero]
      unfold onceAttributed fannedOut
      have hfanned : ((rows.update ClaimedRow.fanned ClaimedRow.key_fanned).update
          ClaimedRow.fanned ClaimedRow.key_fanned) =
            rows.update ClaimedRow.fanned ClaimedRow.key_fanned := by
        refine Table.ext ?_
        show (rows.rows.map ClaimedRow.fanned).map ClaimedRow.fanned = rows.rows.map _
        rw [List.map_map]
        rfl
      have hrows : (rows.update ClaimedRow.fanned ClaimedRow.key_fanned).rows =
          rows.rows.map ClaimedRow.fanned := rfl
      simp only [hfanned, hrows, hacks, Table.insertAll_twice]

lemma Wide.consistent (hwide : f.Wide) (hmessages : f.messagesV2 = none)
    (hagents : f.agentsV2 = none) : f.Consistent where
  messages rows hrows := absurd hrows (hwide.messages rows)
  agents rows hrows := absurd hrows (hwide.agents rows)
  messagesV2 copied hcopied := by simp [hmessages] at hcopied
  agentsV2 copied hcopied := by simp [hagents] at hcopied

lemma Consistent.copies (hf : f.Consistent) (hwide : f.Wide) :
    f.messagesV2 = none ∧ f.agentsV2 = none :=
  ⟨hf.messagesV2_none hwide.messages, hf.agentsV2_none hwide.agents⟩

lemma widened_of_wide (hf : f.Consistent) (hwide : f.Wide) :
    f.widenMessages.widenAgents = f := by
  rw [widenMessages_of_wide hf hwide.messages, widenAgents_of_wide hf hwide.agents]

/-- What the second stage leaves is wide, of the same version and complete in the same way. -/
lemma attributed_frame (hf : f.Consistent) (hwide : f.Wide) (hsome : f.messages.isSome)
    (h : f.attributed canDrop = .ok g) :
    g.Wide ∧ g.Consistent ∧ g.messages.isSome ∧ g.version = f.version ∧
      g.hubMeta = f.hubMeta ∧
      g.letters.map MessageRow.fanned = f.letters.map MessageRow.fanned := by
  rcases attributed_ok hwide.messages h with ⟨_, rfl⟩ | ⟨rows, reads, hm, _, _, rfl⟩
  · exact ⟨hwide, hf, hsome, rfl, rfl, rfl⟩
  · have hwide' : (f.onceAttributed canDrop rows reads).Wide := by
      refine ⟨fun rows' => ?_, hwide.agents⟩
      cases canDrop <;> simp [onceAttributed, fannedOut]
    obtain ⟨hmessages, hagents⟩ := hf.copies hwide
    refine ⟨hwide', hwide'.consistent hmessages hagents, rfl, rfl, rfl, ?_⟩
    have hletters : f.letters = rows.rows.map ClaimedRow.toMessageRow := by
      simp [letters, claims, hm]
    have hthere : (f.onceAttributed canDrop rows reads).letters =
        (rows.rows.map ClaimedRow.fanned).map ClaimedRow.toMessageRow := by
      cases canDrop <;> rfl
    rw [hletters, hthere, List.map_map, List.map_map, List.map_map]
    rfl

/-- Nothing but the stamp is missing after the second stage. -/
lemma upgraded_attributed (hf : f.Consistent) (hwide : f.Wide) (hsome : f.messages.isSome)
    (hv : f.version < 3) (h : f.attributed canDrop = .ok g) :
    f.upgraded canDrop = .ok g.stamped ∧ g.upgraded canDrop = .ok g.stamped := by
  obtain ⟨hgwide, hg, hgsome, hgv, _, _⟩ := attributed_frame hf hwide hsome h
  constructor
  · rw [upgraded_of_owed hsome hv, widened_of_wide hf hwide, h]
    rfl
  · rw [upgraded_of_owed hgsome (hgv ▸ hv), widened_of_wide hg hgwide,
      attributed_idem hwide.messages h]
    rfl

lemma intact_attributed (hf : f.Consistent) (hwide : f.Wide) (hsome : f.messages.isSome)
    (hv : f.version < 3) (h : f.attributed canDrop = .ok g) : Intact canDrop f g := by
  obtain ⟨_, hg, _, _, hmeta, hletters⟩ := attributed_frame hf hwide hsome h
  obtain ⟨hf', hg'⟩ := upgraded_attributed hf hwide hsome hv h
  refine ⟨?_, hletters, fun t ht => hmeta.trans ht, hg⟩
  unfold outcome
  rw [hf', hg']

/-! ## The version, and the tables that are missing -/

lemma version_stamped : f.stamped.version = schemaVersion := rfl

/-- A file with the version of today owes nothing. -/
lemma upgraded_stamped : f.stamped.upgraded canDrop = .ok f.stamped := by
  have hthree : ¬ schemaVersion < 3 := by decide
  unfold upgraded
  rw [version_stamped, if_neg (lt_irrefl schemaVersion), if_neg hthree, ite_self]
  rfl

lemma intact_stamped (hf : f.Consistent) (hwide : f.Wide)
    (h : f.upgraded canDrop = .ok f.stamped) : Intact canDrop f f.stamped := by
  obtain ⟨hmessages, hagents⟩ := hf.copies hwide
  refine ⟨?_, rfl, fun t ht => ht, ?_⟩
  · unfold outcome
    rw [upgraded_stamped, h]
  · exact Wide.consistent ⟨hwide.messages, hwide.agents⟩ hmessages hagents

/-- The files between the stamp and the end: they have the version of today, and come to the same
when every table is there. -/
structure Completing (f g : StoreFile) : Prop where
  version : g.userVersion = schemaVersion
  wide : g.Wide
  messagesV2 : g.messagesV2 = none
  agentsV2 : g.agentsV2 = none
  completed : g.completed.content = f.completed.content
  letters : g.letters = f.letters
  stamp : ∀ t, f.hubMeta = some (some t) → g.hubMeta = some (some t)

lemma Completing.intact (hf : f.userVersion = schemaVersion) (hg : Completing f g) :
    Intact canDrop f g := by
  have hfs : f.stamped = f := by
    unfold stamped
    rw [← hf]
  have hgs : g.stamped = g := by
    unfold stamped
    rw [← hg.version]
  refine ⟨?_, congrArg _ hg.letters, hg.stamp, hg.wide.consistent hg.messagesV2 hg.agentsV2⟩
  unfold outcome
  rw [← hfs, ← hgs, upgraded_stamped, upgraded_stamped, hfs, hgs]
  exact congrArg Except.ok hg.completed

lemma Completing.createMessages (h : Completing f g) :
    Completing f { g with messages := g.messages.or (some (.current .empty)) } where
  version := h.version
  wide := by
    refine ⟨fun rows => ?_, h.wide.agents⟩
    cases hm : g.messages with
    | none => simp
    | some stored => simpa [hm] using h.wide.messages rows
  messagesV2 := h.messagesV2
  agentsV2 := h.agentsV2
  completed := by
    rw [← h.completed]
    simp only [StoreFile.completed, Option.or_assoc, Option.or_self]
  letters := by
    rw [← h.letters]
    unfold StoreFile.letters claims
    cases g.messages <;> rfl
  stamp := h.stamp

lemma Completing.createReads (h : Completing f g) :
    Completing f { g with reads := g.reads.or (some .empty) } where
  version := h.version
  wide := ⟨h.wide.messages, h.wide.agents⟩
  messagesV2 := h.messagesV2
  agentsV2 := h.agentsV2
  completed := by
    rw [← h.completed]
    simp only [StoreFile.completed, Option.or_assoc, Option.or_self]
  letters := h.letters
  stamp := h.stamp

lemma Completing.createAgents (h : Completing f g) :
    Completing f { g with agents := g.agents.or (some (.current .empty)) } where
  version := h.version
  wide := by
    refine ⟨h.wide.messages, fun rows => ?_⟩
    cases ha : g.agents with
    | none => simp
    | some stored => simpa [ha] using h.wide.agents rows
  messagesV2 := h.messagesV2
  agentsV2 := h.agentsV2
  completed := by
    rw [← h.completed]
    simp only [StoreFile.completed, Option.or_assoc, Option.or_self]
  letters := h.letters
  stamp := h.stamp

lemma Completing.createForwards (h : Completing f g) :
    Completing f { g with forwards := g.forwards.or (some .empty) } where
  version := h.version
  wide := ⟨h.wide.messages, h.wide.agents⟩
  messagesV2 := h.messagesV2
  agentsV2 := h.agentsV2
  completed := by
    rw [← h.completed]
    simp only [StoreFile.completed, Option.or_assoc, Option.or_self]
  letters := h.letters
  stamp := h.stamp

/-- The table of the stamp, and the stamp. -/
lemma Completing.setHubMeta (h : Completing f g) (stamp : Option (Option DateTime))
    (hstamp : ∀ t, g.hubMeta = some (some t) → stamp = some (some t)) :
    Completing f { g with hubMeta := stamp } where
  version := h.version
  wide := ⟨h.wide.messages, h.wide.agents⟩
  messagesV2 := h.messagesV2
  agentsV2 := h.agentsV2
  completed := h.completed
  letters := h.letters
  stamp := fun t ht => hstamp t (h.stamp t ht)

/-- The stamp of a file that is opened: the one it has, or the time of the opening. -/
def firstOpened (now : DateTime) (f : StoreFile) : StoreFile :=
  { f with hubMeta := (f.hubMeta.or (some none)).map fun stamp => stamp.or (some now) }

lemma createRouteIndex_ok (hwide : f.Wide) : f.createRouteIndex = .ok f := by
  unfold createRouteIndex
  split
  · next rows hrows => exact absurd hrows (hwide.messages rows)
  · rfl

lemma Completing.refl (hversion : f.userVersion = schemaVersion) (hwide : f.Wide)
    (hf : f.Consistent) : Completing f f where
  version := hversion
  wide := hwide
  messagesV2 := (hf.copies hwide).1
  agentsV2 := (hf.copies hwide).2
  completed := rfl
  letters := rfl
  stamp := fun _ ht => ht

/-- With every table and a stamp that is kept, if there is one. -/
lemma completing_all (hversion : f.userVersion = schemaVersion) (hwide : f.Wide)
    (hf : f.Consistent) (stamp : Option (Option DateTime))
    (hstamp : ∀ t, f.hubMeta = some (some t) → stamp = some (some t)) :
    Completing f { f.completed with hubMeta := stamp } :=
  ((Completing.refl hversion hwide hf).createMessages.createReads.createAgents.setHubMeta stamp
    hstamp).createForwards

/-! ## The stages together -/

/-- A file of the second version or later has no tables of two parts. -/
lemma Consistent.wide (hf : f.Consistent) (hv : ¬ f.version < 2) : f.Wide :=
  ⟨fun rows hrows => hv (hf.messages rows hrows), fun rows hrows => hv (hf.agents rows hrows).1⟩

lemma wide_widened : f.widenMessages.widenAgents.Wide :=
  ⟨messages_widenMessages f, agents_widenAgents f.widenMessages⟩

lemma intact_widened (hf : f.Consistent) : Intact canDrop f f.widenMessages.widenAgents := by
  have hmessages : Intact canDrop f f.widenMessages := intact_widenMessages hf
  exact hmessages.trans (intact_widenAgents hmessages.consistent)

lemma isSome_widened (hsome : f.messages.isSome) :
    f.widenMessages.widenAgents.messages.isSome := by
  simpa [widenMessages, widenAgents] using hsome

/-- What the second stage comes to, where it is owed. -/
def secondStage (canDrop : Bool) (f : StoreFile) : Except Failure StoreFile :=
  if f.version < 3 then f.attributed canDrop else .ok f

lemma upgraded_eq (hf : f.Consistent) (hsome : f.messages.isSome)
    (hknown : ¬ schemaVersion < f.version) :
    f.upgraded canDrop = (f.widenMessages.widenAgents.secondStage canDrop).map stamped := by
  unfold secondStage
  by_cases hv : f.version < 3
  · rw [upgraded_of_owed hsome hv, if_pos (show f.widenMessages.widenAgents.version < 3 from hv)]
  · have hsame := widened_of_wide hf (hf.wide (by omega))
    rw [hsame, if_neg hv]
    unfold upgraded
    rw [if_neg (not_isNone hsome), if_neg hknown, if_neg hv]
    rfl

/-- A wide file after its second stage is only to be stamped. -/
lemma secondStage_ok (hf : f.Consistent) (hwide : f.Wide) (hsome : f.messages.isSome)
    (hknown : ¬ schemaVersion < f.version) (h : f.secondStage canDrop = .ok g) :
    Intact canDrop f g ∧ g.Wide ∧ g.upgraded canDrop = .ok g.stamped := by
  unfold secondStage at h
  by_cases hv : f.version < 3
  · rw [if_pos hv] at h
    exact ⟨intact_attributed hf hwide hsome hv h, (attributed_frame hf hwide hsome h).1,
      (upgraded_attributed hf hwide hsome hv h).2⟩
  · rw [if_neg hv] at h
    cases h
    refine ⟨Intact.refl hf, hwide, ?_⟩
    rw [upgraded_eq hf hsome hknown, widened_of_wide hf hwide]
    unfold secondStage
    rw [if_neg hv]
    rfl

/-- A file that comes to another is a new one, or goes through the stages. -/
lemma upgraded_stages (hf : f.Consistent) (h : f.upgraded canDrop = .ok g) :
    ¬ f.messages.isSome ∧ g = f.stamped ∨ f.messages.isSome ∧ ¬ schemaVersion < f.version ∧
      ∃ k, f.widenMessages.widenAgents.secondStage canDrop = .ok k ∧ g = k.stamped := by
  by_cases hsome : f.messages.isSome
  · refine Or.inr ⟨hsome, ?_⟩
    by_cases hnew : schemaVersion < f.version
    · rw [upgraded_tooNew hsome hnew] at h
      cases h
    · rw [upgraded_eq hf hsome hnew] at h
      cases hk : f.widenMessages.widenAgents.secondStage canDrop with
      | error e =>
        rw [hk] at h
        cases h
      | ok k =>
        rw [hk] at h
        exact ⟨hnew, k, rfl, (Except.ok.inj h).symm⟩
  · rw [(upgraded_fresh canDrop hf hsome).2] at h
    exact Or.inl ⟨hsome, (Except.ok.inj h).symm⟩

/-- The file that the upgrade leaves has the version of today, and is wide. -/
lemma upgraded_ok (hf : f.Consistent) (h : f.upgraded canDrop = .ok g) :
    ∃ k, Intact canDrop f k ∧ k.Wide ∧ k.upgraded canDrop = .ok k.stamped ∧ g = k.stamped := by
  rcases upgraded_stages hf h with ⟨hnone, rfl⟩ | ⟨hsome, hknown, k, hk, rfl⟩
  · obtain ⟨hwide, hstamp⟩ := upgraded_fresh canDrop hf hnone
    exact ⟨f, Intact.refl hf, hwide, hstamp, rfl⟩
  · have hwidened : Intact canDrop f f.widenMessages.widenAgents := intact_widened hf
    obtain ⟨hintact, hkwide, hstamp⟩ :=
      secondStage_ok hwidened.consistent wide_widened (isSome_widened hsome) hknown hk
    exact ⟨k, hwidened.trans hintact, hkwide, hstamp, rfl⟩

end

end StoreFile

end AgentMailbox.Old
