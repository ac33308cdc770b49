import AgentMailbox.Old.Forwarding

/-!
# The directory

There is no authentication, so an agent could be evicted from the directory by anybody who
claims its address, were it not that an entry gives way only when it is stale.
-/
namespace AgentMailbox.Old

/-- The directory entry that a call is made as. -/
def Verb.madeAs : Verb → Option (String × String × String)
  | .touch project agent role _ | .register project agent _ role _ _
  | .updateStatus project agent _ role _ _ _ | .retire project agent role
  | .rename project agent _ role _ => some (project, agent, role.getD "")
  | .send .. | .read .. | .reply .. | .ping .. | .supersede .. | .connect .. => none

/-- The times at which a call judges what is stale. -/
def Verb.judgesAt : Verb → List DateTime
  | .rename _ _ _ _ clock => [clock.seen]
  | .supersede _ addresses => addresses.map Prod.snd
  | _ => []

namespace Hub

/-! ## Mail leaves the directory alone -/

section
variable {hub : Hub} {t : Tables}

lemma agents_send (message : Message) (now : DateTime) :
    (hub.send message now t).2.agents = t.agents := by
  cases hsend : hub.send message now t with
  | mk answer t' =>
    cases answer with
    | error e => rw [send_error hsend]
    | ok sent =>
      obtain ⟨_, _, _, _, rfl⟩ := send_ok hsend
      rfl

lemma agents_read (project agent messageId : String) (role : Option String) (now : DateTime) :
    (hub.read project agent messageId role now t).2.agents = t.agents := by
  unfold Hub.read
  cases hub.reader project agent role with
  | error e => rfl
  | ok reader =>
    dsimp only
    cases routedRow t reader messageId with
    | none => rfl
    | some row =>
      dsimp only
      split_ifs <;> rfl

lemma agents_answer (project agent : String) (role : Option String) (original : Message)
    (body : String) (subject : Option String) (stamp : Stamp) (now : DateTime) :
    (hub.answer project agent role original body subject stamp now t).2.agents = t.agents := by
  unfold answer
  cases formatAddress hub.unicode project agent role with
  | error e => rfl
  | ok me => exact agents_send _ now

lemma agents_reply (project agent messageId body : String) (subject role : Option String)
    (readAt : DateTime) (stamp : Stamp) (now : DateTime) :
    (hub.reply project agent messageId body subject role readAt stamp now t).2.agents =
      t.agents := by
  have hread : (hub.read project agent messageId role readAt t).2.agents = t.agents :=
    agents_read project agent messageId role readAt
  unfold reply
  generalize hub.read project agent messageId role readAt t = done at hread ⊢
  obtain ⟨e | original, t'⟩ := done
  · dsimp only at hread ⊢
    split_ifs
    · rcases hub.readableMessage project agent messageId role t' with e' | _ | original
      · exact hread
      · exact hread
      · exact (agents_answer project agent role original body subject stamp now).trans hread
    · exact hread
  · exact (agents_answer project agent role original body subject stamp now).trans hread

lemma agents_ping (project agent : String) (role : Option String) (stamp : Stamp)
    (now readAt : DateTime) :
    (hub.ping project agent role stamp now readAt t).2.agents = t.agents := by
  unfold ping
  cases formatAddress hub.unicode project agent role with
  | error e => rfl
  | ok me =>
    dsimp only
    have hsend : (hub.send (probe me stamp) now t).2.agents = t.agents := agents_send _ now
    generalize hub.send (probe me stamp) now t = sent at hsend ⊢
    obtain ⟨e | probe, t'⟩ := sent
    · exact hsend
    · exact (agents_read project agent stamp.id role readAt).trans hsend

/-! ## Who is found -/

/-- The entry that is found was seen no earlier than any it could have been. -/
lemma entryOf_seen {project agent : String} {role : Option String} {row : AgentRow}
    (hrow : row ∈ t.agents.rows) (hkey : row.key = (project, agent, role.getD "")) :
    ∃ entry, entryOf t project agent role = some entry ∧
      row.lastSeen.instant ≤ entry.lastSeen.instant := by
  cases role with
  | some role =>
    exact ⟨row, (t.agents.find?_eq_some _ _).mpr ⟨hrow, hkey⟩, le_rfl⟩
  | none =>
    simp only [AgentRow.key, Prod.mk.injEq] at hkey
    have hin : row ∈ lastSeenFirst
        (t.agents.rows.filter fun row => row.project = project && row.agent = agent) := by
      rw [lastSeenFirst, Sorting.mem_sortBy, List.mem_filter]
      exact ⟨hrow, by simp [hkey.1, hkey.2.1]⟩
    have hsorted := Sorting.sortBy_pairwise
      (fun row : AgentRow => OrderDual.toDual row.lastSeen.isoformat)
      (t.agents.rows.filter fun row => row.project = project && row.agent = agent)
    unfold entryOf
    change (lastSeenFirst _).Pairwise _ at hsorted
    generalize lastSeenFirst
      (t.agents.rows.filter fun row => row.project = project && row.agent = agent) = found
      at hin hsorted ⊢
    cases found with
    | nil => cases hin
    | cons entry rest =>
      refine ⟨entry, rfl, ?_⟩
      rcases List.mem_cons.mp hin with rfl | hrest
      · exact le_rfl
      · exact (DateTime.isoformat_le_iff _ _).mp ((List.pairwise_cons.mp hsorted).1 row hrest)

lemma isStale_iff (hub : Hub) (row : AgentRow) (now : DateTime) : hub.isStale row now = true ↔
    0 < hub.staleDays ∧ hub.staleDays * 86400 * 1000000 < row.idle now := by
  rw [isStale, Bool.and_eq_true, decide_eq_true_eq, decide_eq_true_eq]

/-- What was seen later is not stale before. -/
lemma isStale_of_seen {row entry : AgentRow} {now : DateTime}
    (h : row.lastSeen.instant ≤ entry.lastSeen.instant) (hlive : hub.isStale row now = false) :
    hub.isStale entry now = false := by
  rw [Bool.eq_false_iff, ne_eq, isStale_iff, not_and, not_lt, AgentRow.idle] at hlive ⊢
  intro hdays
  have hidle := hlive hdays
  omega

lemma whois_ok {project agent : String} {role : Option String} {now : DateTime}
    {found : Option AgentInfo} (h : hub.whois project agent role now t = .ok found) :
    found.map AgentInfo.stale =
      (entryOf t project agent role).map fun entry => hub.isStale entry now := by
  unfold whois at h
  cases hentry : entryOf t project agent role with
  | none =>
    rw [hentry] at h
    cases h
    rfl
  | some entry =>
    rw [hentry] at h
    cases hinfo : hub.agentInfo entry now with
    | error e => simp [hinfo, Except.map] at h
    | ok info =>
      simp only [hinfo, Except.map, Except.ok.injEq] at h
      subst h
      obtain ⟨address, _, hfields⟩ := bind_eq_ok.mp hinfo
      cases hfields
      rfl

/-- Where there is an entry that is live, somebody is found who is not stale. -/
lemma live_of_whois {project agent : String} {role : Option String} {now : DateTime}
    {row : AgentRow} {found : Option AgentInfo} (hrow : row ∈ t.agents.rows)
    (hkey : row.key = (project, agent, role.getD "")) (hlive : hub.isStale row now = false)
    (h : hub.whois project agent role now t = .ok found) :
    ∃ info, found = some info ∧ info.stale = false := by
  obtain ⟨entry, hentry, hseen⟩ := entryOf_seen hrow hkey
  have hstale := whois_ok h
  rw [hentry, Option.map_some, isStale_of_seen hseen hlive] at hstale
  exact Option.map_eq_some_iff.mp hstale

/-! ## Who stays -/

lemma supersede_keeps {row : AgentRow} {caller : String} {addresses : List (String × DateTime)}
    (hlive : ∀ now ∈ addresses.map Prod.snd, hub.isStale row now = false)
    (hrow : row ∈ t.agents.rows) : row ∈ (hub.supersede caller addresses t).2.agents.rows := by
  induction addresses generalizing t with
  | nil => exact hrow
  | cons looked addresses ih =>
    obtain ⟨address, seen⟩ := looked
    obtain ⟨hseen, hrest⟩ := List.forall_mem_cons.mp hlive
    replace ih := fun {t : Tables} => ih (t := t) hrest
    unfold supersede
    split
    · exact hrow
    · rename_i project agent _
      split_ifs
      · exact ih hrow
      · split
        · exact hrow
        · exact ih hrow
        · rename_i info hwhois
          split_ifs with hstale
          · refine ih ((Table.mem_delete _ _ _).mpr ⟨hrow, ?_⟩)
            rw [decide_eq_false_iff_not]
            intro hkey
            obtain ⟨found, hfound, hfresh⟩ := live_of_whois hrow hkey hseen hwhois
            cases hfound
            rw [hfresh] at hstale
            cases hstale
          · exact ih hrow
    · exact ih hrow

lemma rename_keeps {row : AgentRow} {project agent to_ : String} {role : Option String}
    {clock : RenameClock} {r : Renaming} (hchecked : Renames hub project agent to_ role clock t r)
    (hrow : row ∈ t.agents.rows) (hother : row.key ≠ (project, agent, role.getD ""))
    (hlive : hub.isStale row clock.seen = false) :
    row ∈ (renamed project agent role clock r t).agents.rows := by
  change row ∈ (moveEntry project agent role r clock.written t).agents.rows
  unfold moveEntry
  cases entryOf t project agent role with
  | none => exact hrow
  | some entry =>
    refine (Table.mem_delete _ _ _).mpr ⟨?_, decide_eq_false hother⟩
    refine (Table.mem_insertOrReplace _ _ _).mpr (Or.inr ⟨hrow, fun hkey => ?_⟩)
    -- the name that is taken is not that of the entry
    obtain ⟨found, hfound⟩ := hchecked.looked
    obtain ⟨info, rfl, hfresh⟩ := live_of_whois hrow hkey hlive hfound
    rw [hchecked.free info hfound] at hfresh
    cases hfresh

lemma upsert_keeps {row added : AgentRow} {f : AgentRow → AgentRow}
    (hf : ∀ old, (f old).key = old.key) (hrow : row ∈ t.agents.rows)
    (hother : added.key ≠ row.key) : row ∈ (t.agents.upsert added f hf).rows :=
  (Table.mem_upsert _ _ _ _ _).mpr (Or.inl ⟨hrow, hother.symm⟩)

/-- A call that is not made as an entry leaves the entry alone, if it judges it live. -/
lemma step_keeps {row : AgentRow} {verb : Verb} (hrow : row ∈ t.agents.rows)
    (hother : verb.madeAs ≠ some row.key)
    (hlive : ∀ now ∈ verb.judgesAt, hub.isStale row now = false) :
    row ∈ (hub.step verb t).2.agents.rows := by
  cases verb with
  | send message now =>
    change row ∈ (hub.send message now t).2.agents.rows
    rwa [agents_send]
  | read project agent messageId role now =>
    change row ∈ (hub.read project agent messageId role now t).2.agents.rows
    rwa [agents_read]
  | reply project agent messageId body subject role readAt stamp now =>
    change row ∈ (hub.reply project agent messageId body subject role readAt stamp now
      t).2.agents.rows
    rwa [agents_reply]
  | ping project agent role stamp now readAt =>
    change row ∈ (hub.ping project agent role stamp now readAt t).2.agents.rows
    rwa [agents_ping]
  | touch project agent role now =>
    refine upsert_keeps ?_ hrow fun hkey => hother (congrArg some hkey)
    exact fun _ => rfl
  | register project agent profile role now seen =>
    refine upsert_keeps ?_ hrow fun hkey => hother (congrArg some hkey)
    exact fun _ => rfl
  | updateStatus project agent status role seen now again =>
    change row ∈ (hub.updateStatus project agent status role seen now again t).2.agents.rows
    unfold updateStatus
    cases hub.whois project agent role seen t with
    | error e => exact hrow
    | ok current =>
      refine upsert_keeps ?_ hrow fun hkey => hother (congrArg some hkey)
      exact fun _ => rfl
  | retire project agent role =>
    refine (Table.mem_delete _ _ _).mpr ⟨hrow, ?_⟩
    rw [decide_eq_false_iff_not]
    exact fun hkey => hother (congrArg some hkey.symm)
  | supersede caller addresses => exact supersede_keeps hlive hrow
  | rename project agent to_ role clock =>
    cases hcheck : hub.checkRename project agent to_ role clock t with
    | error e =>
      have hsame : (hub.step (.rename project agent to_ role clock) t).2 = t := by
        simp [step, rename, hcheck]
      rwa [hsame]
    | ok r =>
      have hrenamed : (hub.step (.rename project agent to_ role clock) t).2 =
          renamed project agent role clock r t := by
        simp [step, rename, hcheck, renamed]
      rw [hrenamed]
      exact rename_keeps (checkRename_ok hcheck) hrow (fun hkey => hother (congrArg some hkey.symm))
        (hlive clock.seen (List.mem_singleton_self _))
  | connect stamped now =>
    have hopens : Opens t (hub.connect stamped now t).2 := opens_connect stamped now
    change row ∈ (hub.connect stamped now t).2.agents.rows
    generalize (hub.connect stamped now t).2 = t' at hopens ⊢
    cases hopens with
    | stamps => exact hrow
    | purges => exact hrow

end

/-- Nobody is evicted. An entry of the directory stays exactly as it is through any calls that
are made as others, whatever names they take and whichever entries they want gone, for as long
as it is live whenever one of them judges whether it is. -/
theorem live_entries_stay (hub : Hub) (t : Tables) (later : List Verb) (row : AgentRow)
    (hrow : row ∈ t.agents.rows) (hothers : ∀ verb ∈ later, verb.madeAs ≠ some row.key ∧
      ∀ now ∈ verb.judgesAt, hub.isStale row now = false) :
    row ∈ (hub.after t later).agents.rows := by
  induction later generalizing t with
  | nil => exact hrow
  | cons verb later ih =>
    obtain ⟨⟨hother, hlive⟩, hrest⟩ := List.forall_mem_cons.mp hothers
    exact ih _ (step_keeps hrow hother hlive) hrest

/-- Bob, as he is listed on the tenth. -/
def bobsEntry : AgentRow where
  project := "p"
  agent := "bob"
  role := ""
  firstSeen := january 10
  lastSeen := january 10

/-- Alice can neither retire bob nor take his name. -/
theorem bob_stays : bobsEntry ∈ (plainHub.after (plainHub.after .empty
    [.touch "p" "bob" none (january 10)]) [.supersede "p/alice" [("p/bob", january 12)],
      renameOn 12 "alice" "p/bob"]).agents.rows := by
  have hidle : (january 10).instant + (2 : ℕ) * 86400000000 = (january 12).instant :=
    DateTime.minusDays_instant (by decide +kernel)
  have hlive : plainHub.isStale bobsEntry (january 12) = false := by
    rw [Bool.eq_false_iff, ne_eq, isStale_iff, not_and, not_lt, AgentRow.idle]
    intro _
    have hdays : plainHub.staleDays = 7 := rfl
    have hseen : bobsEntry.lastSeen = january 10 := rfl
    rw [hdays, hseen]
    omega
  refine live_entries_stay plainHub _ _ bobsEntry (by decide +kernel) fun verb hverb => ?_
  rcases List.mem_cons.mp hverb with rfl | hlast
  · exact ⟨by simp [Verb.madeAs], fun now hnow => List.mem_singleton.mp hnow ▸ hlive⟩
  · rw [List.mem_singleton.mp hlast]
    exact ⟨by decide, fun now hnow => List.mem_singleton.mp hnow ▸ hlive⟩

end Hub

end AgentMailbox.Old
