import AgentMailbox.Old.Upgrades

/-!
# Files that are opened

Every statement of the upgrade that is committed leaves a file that comes to the same. So does
whatever is left by a process that dies on the way, however often that happens.
-/
namespace AgentMailbox.Old

namespace StoreFile

/-- A file is opened: what comes of it, and the file that is left. -/
def opening (canDrop : Bool) (now : DateTime) (f : StoreFile) : Except Failure Unit × StoreFile :=
  let left := (openFile now).exec (FileConnection.handle canDrop) (.opened f)
  (left.1, left.2.committed)

/-- The file that is left when a process dies after so many statements of opening it. -/
def killed (canDrop : Bool) (f : StoreFile) (kill : ℕ × DateTime) : StoreFile :=
  ((openFile kill.2).stopped (FileConnection.handle canDrop) kill.1 (.opened f)).committed

/-- What opening a file comes to. -/
def openedAt (canDrop : Bool) (now : DateTime) (f : StoreFile) : Except Failure StoreFile :=
  (f.upgraded canDrop).map fun g => g.completed.firstOpened now

/-! ## What the programs do -/

/-- What a program leaves that comes to a file, or to an exception. -/
def Leaves (y : Except Failure StoreFile) (x : Except Failure Unit) (conn : FileConnection) :
    Prop :=
  match y with
  | .ok g => x = .ok () ∧ conn = .opened g
  | .error e => x = .error e

/-- From a file that has just been opened or committed, the program comes to `y`; and `P` holds
of what is committed, wherever it is cut short. -/
def Runs (canDrop : Bool) (P : StoreFile → Prop) (p : FileProgram Unit) (f : StoreFile)
    (y : Except Failure StoreFile) : Prop :=
  p.Guarded (FileConnection.handle canDrop) (fun conn => P conn.committed) (Leaves y) (.opened f)

section
variable {canDrop : Bool} {f g : StoreFile} {P : StoreFile → Prop}

lemma Runs.bind {p q : FileProgram Unit} {y z : Except Failure StoreFile}
    (hp : Runs canDrop P p f y) (hq : ∀ g, y = .ok g → Runs canDrop P q g z)
    (herror : ∀ e, y = .error e → z = .error e) : Runs canDrop P (p >>= fun _ => q) f z := by
  refine Program.Guarded.bind hp ?_ ?_
  · intro _ conn hleaves
    cases y with
    | ok g =>
      obtain ⟨_, rfl⟩ := hleaves
      exact hq g rfl
    | error e => cases hleaves
  · intro e conn hleaves
    cases y with
    | ok g => cases hleaves.1
    | error e' =>
      rw [herror e' rfl]
      exact hleaves

lemma runs_pure (hf : P f) : Runs canDrop P (pure ()) f (.ok f) := ⟨hf, rfl, rfl⟩

/-- What has been executed is committed. -/
lemma guarded_commit {conn : FileConnection} (hbefore : P conn.committed)
    (hafter : P conn.working) :
    Program.Guarded (FileConnection.handle canDrop) (fun conn => P conn.committed)
      (Leaves (.ok conn.working)) (execute .commit) conn := by
  refine Program.Guarded.last (S := fileSql) (c := FileStatement.commit) ?_ rfl ?_ ?_
  · exact hbefore
  · exact hafter
  · exact ⟨rfl, rfl⟩

lemma runs_rebuildMessages (hf : f.Consistent) (hsome : f.messages.isSome)
    (hP : ∀ g, Intact canDrop f g → P g) :
    Runs canDrop P rebuildMessages f (.ok f.widenMessages) := by
  have hbefore := hP f (Intact.refl hf)
  have hafter := hP f.widenMessages (intact_widenMessages hf)
  by_cases hwide : ∀ rows, f.messages ≠ some (.twoPart rows)
  · rw [widenMessages_of_wide hf hwide]
    have hcolumns : "to_role" ∈ f.columns .messages := by
      obtain ⟨stored, hm⟩ := Option.isSome_iff_exists.mp hsome
      cases stored with
      | twoPart rows => exact absurd hm (hwide rows)
      | claimed rows => simp [columns, hm, StoredMessages.columns]
      | current rows => simp [columns, hm, StoredMessages.columns]
    refine Program.Guarded.step hbefore rfl ?_
    show Program.Guarded _ _ _ (if "to_role" ∈ f.columns .messages then _ else _) _
    rw [if_pos hcolumns]
    exact runs_pure hbefore
  · push Not at hwide
    obtain ⟨rows, hm⟩ := hwide
    have hcreated := hP _ (intact_createMessagesV2 hf hm)
    have hcolumns : "to_role" ∉ f.columns .messages := by
      simp [columns, hm, StoredMessages.columns]
    refine Program.Guarded.step hbefore rfl ?_
    show Program.Guarded _ _ _ (if "to_role" ∈ f.columns .messages then _ else _) _
    rw [if_neg hcolumns]
    have hempty : f.messagesV2.or (some .empty) = some .empty := or_created fun copied hcopied =>
      (hf.messagesV2 copied hcopied).1
    rw [hempty] at hcreated
    have hwidened : f.widenMessages = { f with
        messages := some (.claimed (widenedMessages rows))
        messagesV2 := none } := by simp [widenMessages, hm, StoredMessages.widened]
    rw [hwidened] at hafter ⊢
    have hcreate : FileConnection.handle canDrop .createMessagesV2 (.opened f) =
        (.ok (), .opened { f with messagesV2 := some .empty }) := by
      rw [← hempty]
      rfl
    refine Program.Guarded.step hbefore hcreate ?_
    -- from here to the commit nothing else is committed
    have hcopy : FileConnection.handle canDrop .copyMessages
        (.opened { f with messagesV2 := some .empty }) =
          (.ok (), ⟨{ f with messagesV2 := some .empty },
            { f with messagesV2 := some (widenedMessages rows) }, true⟩) := by
      simp [FileConnection.handle, FileConnection.attempt, FileConnection.opened, copyMessages,
        FileConnection.written, widenedMessages, hm]
    refine Program.Guarded.step hcreated hcopy ?_
    refine Program.Guarded.step hcreated rfl ?_
    refine Program.Guarded.step hcreated rfl ?_
    exact guarded_commit hcreated hafter

lemma runs_rebuildAgents (hf : f.Consistent) (hP : ∀ g, Intact canDrop f g → P g) :
    Runs canDrop P rebuildAgents f (.ok f.widenAgents) := by
  have hbefore := hP f (Intact.refl hf)
  have hafter := hP f.widenAgents (intact_widenAgents hf)
  refine Program.Guarded.step hbefore rfl ?_
  show Program.Guarded _ _ _ (if f.agents.isSome then _ else _) _
  cases ha : f.agents with
  | none =>
    rw [widenAgents_of_wide hf (by simp [ha])]
    exact runs_pure hbefore
  | some stored =>
    rw [if_pos (show (some stored).isSome = true from rfl)]
    refine Program.Guarded.step hbefore rfl ?_
    show Program.Guarded _ _ _ (if "role" ∈ f.columns .agents then _ else _) _
    cases stored with
    | current rows =>
      have hcolumns : "role" ∈ f.columns .agents := by
        simp [columns, ha, StoredAgents.columns]
      rw [if_pos hcolumns, widenAgents_of_wide hf (by simp [ha])]
      exact runs_pure hbefore
    | twoPart rows =>
      have hcreated := hP _ (intact_createAgentsV2 hf ha)
      have hcolumns : "role" ∉ f.columns .agents := by
        simp [columns, ha, StoredAgents.columns]
      rw [if_neg hcolumns]
      have hempty : f.agentsV2.or (some .empty) = some .empty := or_created fun copied hcopied =>
        (hf.agentsV2 copied hcopied).1
      rw [hempty] at hcreated
      have hwidened : f.widenAgents = { f with
          agents := some (.current (widenedAgents rows))
          agentsV2 := none } := by simp [widenAgents, ha, StoredAgents.widened]
      rw [hwidened] at hafter ⊢
      have hcreate : FileConnection.handle canDrop .createAgentsV2 (.opened f) =
          (.ok (), .opened { f with agentsV2 := some .empty }) := by
        rw [← hempty]
        rfl
      refine Program.Guarded.step hbefore hcreate ?_
      have hcopy : FileConnection.handle canDrop .copyAgents
          (.opened { f with agentsV2 := some .empty }) =
            (.ok (), ⟨{ f with agentsV2 := some .empty },
              { f with agentsV2 := some (widenedAgents rows) }, true⟩) := by
        simp [FileConnection.handle, FileConnection.attempt, FileConnection.opened, copyAgents,
          FileConnection.written, widenedAgents, ha]
      refine Program.Guarded.step hcreated hcopy ?_
      refine Program.Guarded.step hcreated rfl ?_
      refine Program.Guarded.step hcreated rfl ?_
      exact guarded_commit hcreated hafter

lemma runs_migrateV1ToV2 (hf : f.Consistent) (hsome : f.messages.isSome)
    (hP : ∀ g, Intact canDrop f g → P g) :
    Runs canDrop P migrateV1ToV2 f (.ok f.widenMessages.widenAgents) := by
  have hwidened : Intact canDrop f f.widenMessages := intact_widenMessages hf
  refine Runs.bind (runs_rebuildMessages hf hsome hP) ?_ fun e he => by cases he
  rintro g hg
  cases hg
  exact runs_rebuildAgents hwidened.consistent fun g hg => hP g (hwidened.trans hg)

lemma runs_migrateV2ToV3 (hf : f.Consistent) (hwide : f.Wide) (hsome : f.messages.isSome)
    (hv : f.version < 3) (hP : ∀ g, Intact canDrop f g → P g) :
    Runs canDrop P migrateV2ToV3 f (f.attributed canDrop) := by
  have hbefore := hP f (Intact.refl hf)
  refine Program.Guarded.step hbefore rfl ?_
  refine Program.Guarded.step hbefore rfl ?_
  show Program.Guarded _ _ _ (if "acked_at" ∈ f.columns .messages then _ else _) _
  by_cases hacked : "acked_at" ∈ f.columns .messages
  · rw [if_pos hacked]
    have hafter : ∀ g, f.attributed canDrop = .ok g → P g := fun g hg =>
      hP g (intact_attributed hf hwide hsome hv hg)
    unfold attributed at hafter ⊢
    rw [if_pos hacked] at hafter ⊢
    cases hcopied : f.copyAcked with
    | error e =>
      have hfail : FileConnection.handle canDrop .copyAcked (.opened f) =
          (.error e, .opened f) := by
        show FileConnection.attempt (.opened f) (FileConnection.opened f).written f.copyAcked = _
        rw [hcopied]
        rfl
      exact Program.Guarded.fail hbefore hfail hbefore rfl
    | ok copied =>
      rw [hcopied] at hafter
      have hcopy : FileConnection.handle canDrop .copyAcked (.opened f) =
          (.ok (), ⟨f, copied, true⟩) := by
        show FileConnection.attempt (.opened f) (FileConnection.opened f).written f.copyAcked = _
        rw [hcopied]
        rfl
      refine Program.Guarded.step hbefore hcopy ?_
      refine Program.Guarded.step hbefore rfl ?_
      show Program.Guarded _ _ _ (if copied.countUnattributable ≠ 0 then _ else _) _
      show Program.Guarded _ _ (Leaves (if copied.countUnattributable = 0 then _ else _)) _ _
      by_cases hcount : copied.countUnattributable = 0
      · rw [if_neg (not_not_intro hcount), if_pos hcount]
        refine Program.Guarded.step hbefore rfl ?_
        refine Program.Guarded.step hbefore rfl ?_
        exact guarded_commit hbefore (hafter _ (if_pos hcount))
      · rw [if_pos hcount, if_neg hcount]
        exact ⟨hbefore, rfl⟩
  · rw [if_neg hacked, attributed_current hacked]
    exact runs_pure hbefore

lemma runs_ifOwed {owed : Bool} {p : FileProgram Unit} {y : Except Failure StoreFile}
    (hp : owed = true → Runs canDrop P p f y) (hskip : owed = false → y = .ok f) (hf : P f) :
    Runs canDrop P (ifOwed owed p) f y := by
  cases owed with
  | true => exact hp rfl
  | false =>
    rw [hskip rfl]
    exact runs_pure hf

lemma runs_stamp (hf : f.Consistent) (hwide : f.Wide) (h : f.upgraded canDrop = .ok f.stamped)
    (hP : ∀ g, Intact canDrop f g → P g) :
    Runs canDrop P (do execute (.setUserVersion schemaVersion); execute .commit) f
      (.ok f.stamped) := by
  have hafter := hP _ (intact_stamped hf hwide h)
  have hset : FileConnection.handle canDrop (.setUserVersion schemaVersion) (.opened f) =
      (.ok (), .opened f.stamped) := rfl
  refine Program.Guarded.step (hP f (Intact.refl hf)) hset ?_
  exact guarded_commit hafter hafter

lemma runs_migrateFrom (hf : f.Consistent) (hsome : f.messages.isSome)
    (hP : ∀ g, Intact canDrop f g → P g) :
    Runs canDrop P (migrateFrom f.version) f (f.upgraded canDrop) := by
  have hbefore := hP f (Intact.refl hf)
  unfold migrateFrom
  by_cases hnew : schemaVersion < f.version
  · rw [if_pos hnew, upgraded_tooNew hsome hnew]
    exact ⟨hbefore, rfl⟩
  · rw [if_neg hnew, upgraded_eq hf hsome hnew]
    have hwidened : Intact canDrop f f.widenMessages.widenAgents := intact_widened hf
    have hsome' := isSome_widened hsome
    refine Runs.bind (y := .ok f.widenMessages.widenAgents) ?_ ?_ fun e he => by cases he
    · refine runs_ifOwed (fun _ => runs_migrateV1ToV2 hf hsome hP) (fun howed => ?_) hbefore
      rw [widened_of_wide hf (hf.wide (of_decide_eq_false howed))]
    rintro w hw
    cases hw
    refine Runs.bind (y := f.widenMessages.widenAgents.secondStage canDrop) ?_ ?_ ?_
    · unfold secondStage
      refine runs_ifOwed (fun howed => ?_) (fun howed => ?_) (hP _ hwidened)
      · have hv : f.widenMessages.widenAgents.version < 3 := of_decide_eq_true howed
        rw [if_pos hv]
        exact runs_migrateV2ToV3 hwidened.consistent wide_widened hsome' hv fun g hg =>
          hP g (hwidened.trans hg)
      · exact if_neg (show ¬ f.widenMessages.widenAgents.version < 3 from
          of_decide_eq_false howed)
    · intro g hg
      obtain ⟨hintact, hgwide, hstamp⟩ :=
        secondStage_ok hwidened.consistent wide_widened hsome' hnew hg
      rw [hg]
      exact runs_stamp hintact.consistent hgwide hstamp fun k hk =>
        hP k ((hwidened.trans hintact).trans hk)
    · intro e he
      rw [he]
      rfl

lemma runs_migrate (hf : f.Consistent) (hP : ∀ g, Intact canDrop f g → P g) :
    Runs canDrop P migrate f (f.upgraded canDrop) := by
  have hbefore := hP f (Intact.refl hf)
  refine Program.Guarded.step hbefore rfl ?_
  show Program.Guarded _ _ _ (if f.messages.isSome then _ else _) _
  by_cases hsome : f.messages.isSome
  · rw [if_pos hsome]
    refine Program.Guarded.step hbefore rfl ?_
    exact runs_migrateFrom hf hsome hP
  · rw [if_neg hsome]
    obtain ⟨hwide, hstamp⟩ := upgraded_fresh canDrop hf hsome
    rw [hstamp]
    exact runs_stamp hf hwide hstamp hP

lemma runs_createSchema (hversion : f.userVersion = schemaVersion) (hwide : f.Wide)
    (hf : f.Consistent) (hP : ∀ g, Intact canDrop f g → P g) :
    Runs canDrop P createSchema f
      (.ok { f.completed with hubMeta := f.hubMeta.or (some none) }) := by
  have hmessages := (Completing.refl hversion hwide hf).createMessages
  have hreads := hmessages.createReads
  have hagents := hreads.createAgents
  have hmeta := hagents.setHubMeta (f.hubMeta.or (some none)) fun t ht => by
    rw [show f.hubMeta = some (some t) from ht]
    rfl
  have hforwards := hmeta.createForwards
  have hP' : ∀ g, Completing f g → P g := fun g hg => hP g (hg.intact hversion)
  have hindex : FileConnection.handle canDrop .createRouteIndex
      (.opened { f with messages := f.messages.or (some (.current .empty)) }) =
        (.ok (), .opened { f with messages := f.messages.or (some (.current .empty)) }) := by
    show FileConnection.attempt _ _ (createRouteIndex _) = _
    rw [FileConnection.opened, createRouteIndex_ok hmessages.wide]
    rfl
  refine Program.Guarded.step (hP f (Intact.refl hf)) rfl ?_
  refine Program.Guarded.step (hP' _ hmessages) hindex ?_
  refine Program.Guarded.step (hP' _ hmessages) rfl ?_
  refine Program.Guarded.step (hP' _ hreads) rfl ?_
  refine Program.Guarded.step (hP' _ hagents) rfl ?_
  refine Program.Guarded.last (S := fileSql) (c := FileStatement.createForwards) ?_ rfl ?_ ?_
  · exact hP' _ hmeta
  · exact hP' _ hforwards
  · exact ⟨rfl, rfl⟩

/-- `INSERT OR IGNORE`: a file keeps the stamp that it has. -/
lemma runs_stampInitialized (now : DateTime) (hbefore : P f)
    (hafter : P { f with hubMeta := f.hubMeta.map fun stamp => stamp.or (some now) }) :
    Runs canDrop P (do execute (.stampInitialized now); execute .commit) f
      (.ok { f with hubMeta := f.hubMeta.map fun stamp => stamp.or (some now) }) := by
  refine Program.Guarded.step hbefore rfl ?_
  exact guarded_commit hbefore hafter

lemma runs_openFile (hf : f.Consistent) (now : DateTime) (hP : ∀ g, Intact canDrop f g → P g) :
    Runs canDrop P (openFile now) f (f.openedAt canDrop now) := by
  refine Runs.bind (runs_migrate hf hP) ?_ ?_
  · intro g hg
    obtain ⟨k, hk, hkwide, hkstamp, rfl⟩ := upgraded_ok hf hg
    have hstamped := intact_stamped hk.consistent hkwide hkstamp
    have hwide : k.stamped.Wide := ⟨hkwide.messages, hkwide.agents⟩
    have hstamped' : ∀ g, Intact canDrop k.stamped g → P g := fun g hg' =>
      hP g ((hk.trans hstamped).trans hg')
    unfold openedAt
    rw [hg]
    refine Runs.bind (runs_createSchema rfl hwide hstamped.consistent hstamped') ?_ fun e he => by
      cases he
    intro g hg'
    cases hg'
    refine runs_stampInitialized now (hstamped' _ ?_) (hstamped' _ ?_)
    · refine Completing.intact rfl (completing_all rfl hwide hstamped.consistent _ fun t ht => ?_)
      rw [ht]
      rfl
    · refine Completing.intact rfl (completing_all rfl hwide hstamped.consistent _ fun t ht => ?_)
      show (k.stamped.hubMeta.or (some none)).map _ = _
      rw [ht]
      rfl
  · intro e he
    unfold openedAt
    rw [he]
    rfl

/-! ## A process that dies while it opens a file -/

lemma intact_killed (hf : f.Consistent) (kill : ℕ × DateTime) :
    Intact canDrop f (f.killed canDrop kill) :=
  (runs_openFile hf kill.2 fun _ hg => hg).stopped kill.1

lemma intact_kills (hf : f.Consistent) (kills : List (ℕ × DateTime)) :
    Intact canDrop f (kills.foldl (killed canDrop) f) := by
  induction kills generalizing f with
  | nil => exact Intact.refl hf
  | cons kill kills ih =>
    have hkill : Intact canDrop f (f.killed canDrop kill) := intact_killed hf kill
    exact hkill.trans (ih hkill.consistent)

/-- An opening that nothing interrupts is one that is cut short after its last statement. -/
lemma intact_opening (hf : f.Consistent) (now : DateTime) :
    Intact canDrop f (f.opening canDrop now).2 := by
  obtain ⟨n, hn⟩ := Program.exists_stopped (h := FileConnection.handle canDrop) (openFile now)
    (.opened f)
  have hstopped := (runs_openFile (P := Intact canDrop f) hf now fun _ hg => hg).stopped n
  rw [hn] at hstopped
  exact hstopped

lemma leaves_opening (canDrop : Bool) (hf : f.Consistent) (now : DateTime) :
    Leaves (f.openedAt canDrop now)
      ((openFile now).exec (FileConnection.handle canDrop) (.opened f)).1
      ((openFile now).exec (FileConnection.handle canDrop) (.opened f)).2 :=
  (runs_openFile (P := fun _ => True) hf now fun _ _ => trivial).exec

lemma opening_ok (hf : f.Consistent) {now : DateTime} (h : f.openedAt canDrop now = .ok g) :
    f.opening canDrop now = (.ok (), g) := by
  have hleaves := leaves_opening canDrop hf now
  rw [h] at hleaves
  obtain ⟨hok, hconn⟩ := hleaves
  exact Prod.ext hok (congrArg FileConnection.committed hconn)

lemma opening_error (hf : f.Consistent) {now : DateTime} {e : Failure}
    (h : f.openedAt canDrop now = .error e) : (f.opening canDrop now).1 = .error e := by
  have hleaves := leaves_opening canDrop hf now
  rw [h] at hleaves
  exact hleaves

/-- What a file comes to, by what opening it comes to. -/
lemma outcome_openedAt (now : DateTime) :
    f.outcome canDrop = (f.openedAt canDrop now).map content := by
  unfold outcome openedAt
  cases f.upgraded canDrop <;> rfl

/-- Opening a file is safe against being killed. However often the process dies while it opens
the file, after whatever statement and at whatever times, the next opening that comes to its end
comes to what the first would have come to: the same refusal, or the same tables. On the way no
message is lost, and a file that says when it was first opened goes on saying so. -/
theorem opening_resumes (canDrop : Bool) (f : StoreFile) (hf : f.Consistent)
    (kills : List (ℕ × DateTime)) (now : DateTime) :
    let left := kills.foldl (killed canDrop) f
    (left.opening canDrop now).1 = (f.opening canDrop now).1 ∧
      ((f.opening canDrop now).1 = .ok () →
        (left.opening canDrop now).2.content = (f.opening canDrop now).2.content) ∧
      left.letters.map MessageRow.fanned = f.letters.map MessageRow.fanned ∧
      (left.opening canDrop now).2.letters.map MessageRow.fanned =
        f.letters.map MessageRow.fanned ∧
      ∀ t, f.hubMeta = some (some t) →
        left.hubMeta = some (some t) ∧ (left.opening canDrop now).2.hubMeta = some (some t) := by
  intro left
  have hleft : Intact canDrop f left := intact_kills hf kills
  have hend : Intact canDrop f (left.opening canDrop now).2 :=
    hleft.trans (intact_opening hleft.consistent now)
  have hsame : (left.openedAt canDrop now).map content = (f.openedAt canDrop now).map content := by
    rw [← outcome_openedAt, ← outcome_openedAt, hleft.outcome]
  have hopen : (left.opening canDrop now).1 = (f.opening canDrop now).1 ∧
      ((f.opening canDrop now).1 = .ok () →
        (left.opening canDrop now).2.content = (f.opening canDrop now).2.content) := by
    cases hfirst : f.openedAt canDrop now with
    | error e =>
      cases hlast : left.openedAt canDrop now with
      | ok g =>
        rw [hfirst, hlast] at hsame
        cases hsame
      | error e' =>
        rw [hfirst, hlast] at hsame
        cases hsame
        rw [opening_error hf hfirst, opening_error hleft.consistent hlast]
        exact ⟨rfl, fun h => by cases h⟩
    | ok g =>
      cases hlast : left.openedAt canDrop now with
      | error e =>
        rw [hfirst, hlast] at hsame
        cases hsame
      | ok g' =>
        rw [hfirst, hlast] at hsame
        rw [opening_ok hf hfirst, opening_ok hleft.consistent hlast]
        exact ⟨rfl, fun _ => Except.ok.inj hsame⟩
  exact ⟨hopen.1, hopen.2, hleft.letters, hend.letters, fun t ht =>
    ⟨hleft.stamp t ht, hend.stamp t ht⟩⟩

end

/-! ## A file of the first version -/

/-- A letter that alice has claimed. -/
def claimedLetter : TwoPartRow where
  id := "m1"
  from_ := "p/bob"
  to_ := "p/alice"
  kind := "direct"
  toProject := "p"
  toAgent := some "alice"
  thread := none
  intent := .message
  subject := "news"
  body := "hello"
  created := january 2
  ackedAt := some (january 3)

/-- A note to everybody. -/
def noteToAll : TwoPartRow where
  id := "m2"
  from_ := "p/bob"
  to_ := "all"
  kind := "public"
  toProject := ""
  toAgent := none
  thread := none
  intent := .message
  subject := "lunch"
  body := "at one"
  created := january 4
  ackedAt := none

def firstFile : StoreFile where
  messages := some (.twoPart (Table.empty.insertAll [claimedLetter, noteToAll]))
  agents := some (.twoPart (Table.empty.insertAll [⟨"p", "alice", january 1, january 3, {}⟩]))
  reads := some .empty

lemma consistent_firstFile : firstFile.Consistent where
  messages rows _ := by decide
  agents rows _ := ⟨by decide, rfl⟩
  messagesV2 copied hcopied := by cases hcopied
  agentsV2 copied hcopied := by cases hcopied

/-- The file is opened by processes that die after copying the messages and after copying the
directory, and then by one that does not. -/
theorem firstFile_resumes :
    let left := [(5, january 5), (12, january 6)].foldl (killed true) firstFile
    (left.opening true (january 7)).1 = .ok () ∧
      (left.opening true (january 7)).2.content = (firstFile.opening true (january 7)).2.content ∧
      left.letters.map MessageRow.fanned = firstFile.letters.map MessageRow.fanned := by
  obtain ⟨hsame, hcontent, hletters, _⟩ := opening_resumes true firstFile consistent_firstFile
    [(5, january 5), (12, january 6)] (january 7)
  have hopens : (firstFile.opening true (january 7)).1 = .ok () := by decide +kernel
  exact ⟨hsame.trans hopens, hcontent hopens, hletters⟩

end StoreFile

end AgentMailbox.Old
