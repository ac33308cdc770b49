import AgentMailbox.Old.Consumption
import AgentMailbox.Old.Delivery

/-!
# Housekeeping

Opening the file drops the conversations that nobody has added to for some days. A conversation
goes as a whole or stays as a whole, with the record of who has consumed what of it.
-/
namespace AgentMailbox.Old

namespace Hub

variable {hub : Hub}

/-! ## Records of what is gone -/

/-- Everything that has been consumed is stored. -/
def Recorded (t : Tables) : Prop := ∀ read ∈ t.reads.rows, t.Stored read.messageId

lemma Write.recorded {t t' : Tables} (ht : Recorded t) (h : Write hub t t') : Recorded t' := by
  cases h with
  | posts message sent now target messages hprepare hinsert =>
    intro read hread
    obtain ⟨row, hrow, hid⟩ := ht read hread
    refine ⟨row, ?_, hid⟩
    dsimp only
    rw [(Table.insert_eq_some hinsert).2]
    exact List.mem_append_left _ hrow
  | consumes project agent messageId role reader row now hreader hrow =>
    intro read hread
    rcases (Table.mem_insertOrIgnore _ _ _).mp hread with hold | ⟨rfl, _⟩
    · exact ht read hold
    · obtain ⟨hfind, _⟩ := Option.filter_eq_some_iff.mp hrow
      exact ⟨row, (t.messages.find?_eq_some _ _).mp hfind⟩
  | lists => exact ht

lemma Opens.recorded {t t' : Tables} (ht : Recorded t) (h : Opens t t') : Recorded t' := by
  cases h with
  | stamps => exact ht
  | purges stamped cutoff =>
    intro read hread
    have hkept := ((Table.mem_delete _ _ _).mp hread).2
    rw [List.all_eq_false] at hkept
    obtain ⟨row, hrow, hid⟩ := hkept
    exact ⟨row, hrow, by simpa using hid⟩

lemma recorded_renamed {t : Tables} (ht : Recorded t) (project agent : String)
    (role : Option String) (clock : RenameClock) (r : Renaming) :
    Recorded (renamed project agent role clock r t) := by
  intro read hread
  obtain ⟨old, hold, rfl⟩ := (mem_reads_renamed read).mp hread
  obtain ⟨row, hrow, hid⟩ := ht old hold
  refine ⟨readdress project agent role r row, List.mem_map_of_mem hrow, ?_⟩
  rw [readdress_id, hid]
  split_ifs <;> rfl

theorem recorded_after (hub : Hub) (verbs : List Verb) : Recorded (hub.after .empty verbs) :=
  after_invariant hub (I := Recorded) (fun _ _ ht h => h.recorded ht)
    (fun _ _ ht h => h.recorded ht)
    (fun _ project agent _ role clock r ht _ => recorded_renamed ht project agent role clock r)
    (fun _ hread => absurd hread List.not_mem_nil) verbs

/-! ## What stays -/

/-- A conversation stays if somebody has added to it since the cutoff. -/
lemma mem_purged {t : Tables} {cutoff : DateTime} {row : MessageRow} (hthread : row.thread ≠ none) :
    row ∈ (purged cutoff t).messages.rows ↔ row ∈ t.messages.rows ∧
      ∃ latest ∈ t.messages.rows, latest.thread = row.thread ∧
        cutoff.instant ≤ latest.created.instant := by
  obtain ⟨thread, hthread⟩ := Option.ne_none_iff_exists'.mp hthread
  simp only [purged, Table.mem_delete, expired, hthread, Option.any_some, quiet, List.all_eq_false,
    List.mem_filter, decide_eq_true_eq, not_lt, DateTime.isoformat_le_iff, and_assoc]

lemma mem_reads_purged {t : Tables} {cutoff : DateTime} {read : ReadRow} :
    read ∈ (purged cutoff t).reads.rows ↔ read ∈ t.reads.rows ∧
      (purged cutoff t).Stored read.messageId := by
  simp only [purged, Table.mem_delete, List.all_eq_false, Tables.Stored, decide_eq_true_eq,
    ne_eq, not_not]

/-- What has been purged once is not purged further. -/
lemma purged_purged {t : Tables} {cutoff : DateTime}
    (hthreads : ∀ row ∈ t.messages.rows, row.thread ≠ none) :
    purged cutoff (purged cutoff t) = purged cutoff t := by
  have hmessages : (purged cutoff (purged cutoff t)).messages = (purged cutoff t).messages := by
    refine Table.ext (List.filter_eq_self.mpr fun row hrow => ?_)
    have hthread := hthreads row ((Table.mem_delete _ _ _).mp hrow).1
    obtain ⟨_, latest, hlatest, hsame, hrecent⟩ := (mem_purged hthread).mp hrow
    -- the message that keeps a conversation is kept with it
    have hkept : latest ∈ (purged cutoff t).messages.rows :=
      (mem_purged (hsame ▸ hthread)).mpr ⟨hlatest, latest, hlatest, rfl, hrecent⟩
    have hagain := (mem_purged hthread).mpr ⟨hrow, latest, hkept, hsame, hrecent⟩
    exact (Bool.not_eq_true' _).mpr ((Table.mem_delete _ _ _).mp hagain).2
  have hreads : (purged cutoff (purged cutoff t)).reads = (purged cutoff t).reads := by
    refine Table.ext (List.filter_eq_self.mpr fun read hread => ?_)
    obtain ⟨row, hrow, hid⟩ := (mem_reads_purged.mp hread).2
    have hagain : read ∈ (purged cutoff (purged cutoff t)).reads.rows :=
      mem_reads_purged.mpr ⟨hread, row, hmessages ▸ hrow, hid⟩
    exact (Bool.not_eq_true' _).mpr ((Table.mem_delete _ _ _).mp hagain).2
  have hrest : purged cutoff (purged cutoff t) = { purged cutoff t with
      messages := (purged cutoff (purged cutoff t)).messages
      reads := (purged cutoff (purged cutoff t)).reads } := rfl
  rw [hrest, hmessages, hreads]

lemma connect_ok {t : Tables} {stamped now : DateTime} (hdays : 0 < hub.ttlDays)
    (h : (hub.step (.connect stamped now) t).1 = .ok .done) : ∃ cutoff,
    now.daysBefore hub.ttlDays = .ok cutoff ∧
      (hub.step (.connect stamped now) t).2 = purged cutoff (stamp stamped t) := by
  simp only [step, connect, purgeExpired, if_neg (not_le.mpr hdays)] at h ⊢
  cases hcutoff : now.daysBefore hub.ttlDays with
  | error e => simp [hcutoff, Except.map] at h
  | ok cutoff => exact ⟨cutoff, rfl, rfl⟩

/-- Opening the file leaves the conversations that are alive as they are, and drops the others:
a message stays if and only if somebody has added to its conversation in the last days. What is
known to be consumed is what is known, of the messages that stay; nothing but mail is dropped;
and opening the file again at that time changes nothing. -/
theorem conversations_stay_whole_or_go (hub : Hub) (verbs : List Verb) (stamped now : DateTime)
    (hdays : 0 < hub.ttlDays)
    (h : (hub.step (.connect stamped now) (hub.after .empty verbs)).1 = .ok .done) :
    let t := hub.after .empty verbs
    let t' := (hub.step (.connect stamped now) t).2
    (∀ row, row ∈ t'.messages.rows ↔ row ∈ t.messages.rows ∧
        ∃ latest ∈ t.messages.rows, latest.thread = row.thread ∧
          now.instant ≤ latest.created.instant + hub.ttlDays.toNat * 86400000000) ∧
      (∀ read ∈ t.reads.rows, t.Stored read.messageId) ∧
      (∀ read, read ∈ t'.reads.rows ↔ read ∈ t.reads.rows ∧ t'.Stored read.messageId) ∧
      t'.agents = t.agents ∧ t'.forwards = t.forwards ∧
      (hub.step (.connect stamped now) t').2 = t' := by
  intro t t'
  obtain ⟨cutoff, hcutoff, ht'⟩ := connect_ok hdays h
  have hthreads : ∀ row ∈ t.messages.rows, row.thread ≠ none :=
    fun row hrow => (proper_after hub verbs row hrow).threaded
  have hinstant := DateTime.minusDays_instant (DateTime.daysBefore_ok hcutoff)
  have ht'' : t' = purged cutoff (stamp stamped t) := ht'
  rw [ht'']
  refine ⟨fun row => ?_, recorded_after hub verbs, fun read => mem_reads_purged, rfl, rfl, ?_⟩
  · constructor
    · intro hrow
      have hin := ((Table.mem_delete _ _ _).mp hrow).1
      obtain ⟨_, latest, hlatest, hsame, hrecent⟩ := (mem_purged (hthreads row hin)).mp hrow
      exact ⟨hin, latest, hlatest, hsame, by omega⟩
    · rintro ⟨hin, latest, hlatest, hsame, hrecent⟩
      exact (mem_purged (hthreads row hin)).mpr ⟨hin, latest, hlatest, hsame, by omega⟩
  · have hstamp : stamp stamped (purged cutoff (stamp stamped t)) =
        purged cutoff (stamp stamped t) := by
      cases hinitialized : t.initializedAt <;> simp [stamp, purged, hinitialized]
    have hagain : (hub.step (.connect stamped now) (purged cutoff (stamp stamped t))).2 =
        purged cutoff (stamp stamped (purged cutoff (stamp stamped t))) := by
      simp only [step, connect, purgeExpired, if_neg (not_le.mpr hdays), hcutoff]
      rfl
    rw [hagain, hstamp]
    exact purged_purged hthreads

/-- After a fortnight the note is still there, and the letter of the day before is not. -/
theorem note_outlives_letter :
    let t' := (plainHub.step (.connect (january 25) (january 25))
      (plainHub.after .empty someMail)).2
    rowOf noteByAlice ⟨some "p", none, none⟩ ∈ t'.messages.rows ∧
      rowOf letterToAlice ⟨some "p", some "alice", none⟩ ∉ t'.messages.rows := by
  obtain ⟨hrows, _⟩ := conversations_stay_whole_or_go plainHub someMail (january 25) (january 25)
    (by decide) (by decide +kernel)
  have hmail : (plainHub.after .empty someMail).messages.rows =
      [rowOf letterToAlice ⟨some "p", some "alice", none⟩,
        rowOf noteByAlice ⟨some "p", none, none⟩] := by decide +kernel
  have hdays : plainHub.ttlDays.toNat = 14 := rfl
  have hnotecreated : (rowOf noteByAlice ⟨some "p", none, none⟩).created = january 11 := rfl
  have hlettercreated : (rowOf letterToAlice ⟨some "p", some "alice", none⟩).created =
      january 10 := rfl
  have hnote : (january 11).instant + (14 : ℕ) * 86400000000 = (january 25).instant :=
    DateTime.minusDays_instant (by decide +kernel)
  have hletter : (january 10).instant + (15 : ℕ) * 86400000000 = (january 25).instant :=
    DateTime.minusDays_instant (by decide +kernel)
  rw [hmail, hdays] at hrows
  constructor
  · refine (hrows _).mpr ⟨by simp, rowOf noteByAlice ⟨some "p", none, none⟩, by simp, rfl, ?_⟩
    rw [hnotecreated]
    omega
  · rw [hrows]
    rintro ⟨_, latest, hlatest, hsame, hrecent⟩
    rcases List.mem_cons.mp hlatest with rfl | hlast
    · rw [hlettercreated] at hrecent
      omega
    · rw [List.mem_singleton.mp hlast] at hsame
      exact absurd hsame (by decide)

end Hub

end AgentMailbox.Old
