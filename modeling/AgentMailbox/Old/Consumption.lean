import AgentMailbox.Old.Forwarding

/-!
# Consumption

Since there is one mode of delivery, a message has been consumed by those who have a row of
their own for it. What an agent has consumed it has consumed for good, also under the names it
takes later.
-/
namespace AgentMailbox.Old

/-- A message with that id is stored. -/
def Tables.Stored (t : Tables) (id : String) : Prop := ∃ row ∈ t.messages.rows, row.id = id

namespace Hub

lemma hasRead_iff (t : Tables) (me id : String) :
    t.hasRead me id = true ↔ ∃ row ∈ t.reads.rows, row.reader = me ∧ row.messageId = id := by
  simp [Tables.hasRead, List.any_eq_true]

/-- A reading adds the reader's row for the message, and no other. -/
lemma hasRead_insertOrIgnore (t : Tables) (me id : String) (now : DateTime) (me' id' : String) :
    Tables.hasRead { t with reads := (t.reads.insertOrIgnore ⟨id, me, now⟩).2 } me' id' =
      (t.hasRead me' id' || (me' = me && id' = id)) := by
  rw [Bool.eq_iff_iff, hasRead_iff]
  simp only [Table.mem_insertOrIgnore, Bool.or_eq_true, Bool.and_eq_true, decide_eq_true_eq,
    hasRead_iff]
  constructor
  · rintro ⟨row, hrow | ⟨rfl, _⟩, hreader, hid⟩
    · exact Or.inl ⟨row, hrow, hreader, hid⟩
    · exact Or.inr ⟨hreader.symm, hid.symm⟩
  · rintro (⟨row, hrow, hkey⟩ | ⟨rfl, rfl⟩)
    · exact ⟨row, Or.inl hrow, hkey⟩
    · by_cases hfound : ∃ read ∈ t.reads.rows, read.key = (id', me')
      · obtain ⟨read, hread, hkey⟩ := hfound
        simp only [ReadRow.key, Prod.mk.injEq] at hkey
        exact ⟨read, Or.inl hread, hkey.2, hkey.1⟩
      · refine ⟨⟨id', me', now⟩, Or.inr ⟨rfl, ?_⟩, rfl, rfl⟩
        rw [Table.find?_eq_none]
        exact fun read hread hkey => hfound ⟨read, hread, hkey⟩

/-- A reading consumes what the reader has not consumed. -/
lemma insertOrIgnore_eq_one_iff (t : Tables) (me id : String) (now : DateTime) :
    (t.reads.insertOrIgnore ⟨id, me, now⟩).1 = 1 ↔ t.hasRead me id = false := by
  rw [Table.insertOrIgnore_eq_one, Table.find?_eq_none, ← Bool.not_eq_true, hasRead_iff]
  constructor
  · rintro hnone ⟨read, hread, hreader, hid⟩
    exact hnone read hread (by simp [ReadRow.key, hreader, hid])
  · intro hnone read hread hkey
    simp only [ReadRow.key, Prod.mk.injEq] at hkey
    exact hnone ⟨read, hread, hkey.2, hkey.1⟩

/-! ## What each step does to it -/

lemma Write.hasRead {hub : Hub} {t t' : Tables} (h : Write hub t t') {me id : String}
    (hread : t.hasRead me id = true) : t'.hasRead me id = true := by
  cases h with
  | consumes =>
    rw [hasRead_insertOrIgnore, hread, Bool.true_or]
  | _ => exact hread

lemma Writes.hasRead {hub : Hub} {t t' : Tables} (h : Writes hub t t') {me id : String}
    (hread : t.hasRead me id = true) : t'.hasRead me id = true :=
  h.invariant (I := fun t => t.hasRead me id = true) (fun _ _ h hwrite => hwrite.hasRead h) hread

/-- The rows of messages that stay, stay. -/
lemma Opens.hasRead {t t' : Tables} (h : Opens t t') {me id : String}
    (hread : t.hasRead me id = true) (hstored : t'.Stored id) : t'.hasRead me id = true := by
  cases h with
  | stamps => exact hread
  | purges stamped cutoff =>
    obtain ⟨read, hrow, hkey⟩ := (hasRead_iff t me id).mp hread
    obtain ⟨row, hmem, hid⟩ := hstored
    refine (hasRead_iff _ me id).mpr ⟨read, (Table.mem_delete _ _ _).mpr ⟨hrow, ?_⟩, hkey⟩
    rw [List.all_eq_false]
    exact ⟨row, hmem, by simp [hid, hkey.2]⟩

section
variable {t : Tables} {project agent id : String} {role : Option String} {clock : RenameClock}
  {r : Renaming}

/-- The rows of those who have consumed, after a rename. -/
lemma mem_reads_renamed (row : ReadRow) :
    row ∈ (renamed project agent role clock r t).reads.rows ↔ ∃ read ∈ t.reads.rows,
      (if read.reader = r.old ∧ t.hasRead r.new_ read.messageId = false then
        { read with reader := r.new_ } else read) = row := by
  change row ∈ (moveReads r.old r.new_ t).rows ↔ _
  rw [moveReads, Table.mem_rekey]
  refine exists_congr fun read => and_congr_right fun _ => ?_
  have htaken : ReadRow.key { read with reader := r.new_ } ∉ t.reads.rows.map ReadRow.key ↔
      t.hasRead r.new_ read.messageId = false := by
    rw [← Bool.not_eq_true, hasRead_iff, List.mem_map]
    simp only [ReadRow.key, Prod.mk.injEq, and_comm]
  simp only [decide_eq_true_eq, htaken]

/-- Under the new name it has been consumed what had been under either. -/
lemma hasRead_renamed_new :
    (renamed project agent role clock r t).hasRead r.new_ id = true ↔
      t.hasRead r.old id = true ∨ t.hasRead r.new_ id = true := by
  rw [hasRead_iff]
  simp only [mem_reads_renamed]
  constructor
  · rintro ⟨row, ⟨read, hread, rfl⟩, hreader, hid⟩
    split_ifs at hreader hid with hmoved
    · exact Or.inl ((hasRead_iff _ _ _).mpr ⟨read, hread, hmoved.1, hid⟩)
    · exact Or.inr ((hasRead_iff _ _ _).mpr ⟨read, hread, hreader, hid⟩)
  · intro hread
    cases hnew : t.hasRead r.new_ id with
    | true =>
      -- a row under the new name is left alone, whether or not the names differ
      obtain ⟨read, hin, hreader, hid⟩ := (hasRead_iff _ _ _).mp hnew
      refine ⟨read, ⟨read, hin, if_neg ?_⟩, hreader, hid⟩
      rw [hid, hnew]
      simp
    | false =>
      rw [hnew] at hread
      obtain ⟨read, hin, hreader, hid⟩ := (hasRead_iff _ _ _).mp (hread.resolve_right (by simp))
      exact ⟨{ read with reader := r.new_ }, ⟨read, hin, if_pos ⟨hreader, by rw [hid, hnew]⟩⟩, rfl,
        hid⟩

/-- For all others nothing changes. -/
lemma hasRead_renamed_other {me : String} (hold : me ≠ r.old) (hnew : me ≠ r.new_) :
    (renamed project agent role clock r t).hasRead me id = t.hasRead me id := by
  rw [Bool.eq_iff_iff, hasRead_iff, hasRead_iff]
  simp only [mem_reads_renamed]
  constructor
  · rintro ⟨row, ⟨read, hread, rfl⟩, hreader, hid⟩
    split_ifs at hreader hid
    · exact absurd hreader.symm hnew
    · exact ⟨read, hread, hreader, hid⟩
  · rintro ⟨read, hread, rfl, hid⟩
    exact ⟨read, ⟨read, hread, if_neg fun hmoved => hold hmoved.1⟩, rfl, hid⟩

/-- What was consumed under a name is consumed under what the rename makes of it. -/
lemma hasRead_renamed {me : String} (hread : t.hasRead me id = true) :
    (renamed project agent role clock r t).hasRead (if me = r.old then r.new_ else me) id =
      true := by
  split_ifs with hme
  · exact hasRead_renamed_new.mpr (Or.inl (hme ▸ hread))
  · by_cases hnew : me = r.new_
    · rw [hnew] at hread ⊢
      exact hasRead_renamed_new.mpr (Or.inr hread)
    · rw [hasRead_renamed_other hme hnew, hread]

end

/-- What was consumed under a name is consumed under the name of today, as long as the message
is kept. -/
lemma hasRead_after {hub : Hub} {t : Tables} {me id : String} (verbs : List Verb)
    (hread : t.hasRead me id = true) (hkept : ∀ n, (hub.after t (verbs.take n)).Stored id) :
    (hub.after t verbs).hasRead (nameToday me (renamings hub t verbs)) id = true := by
  induction verbs generalizing t me with
  | nil => exact hread
  | cons verb verbs ih =>
    have hrest : ∀ n, (hub.after (hub.step verb t).2 (verbs.take n)).Stored id :=
      fun n => hkept (n + 1)
    rw [after_cons]
    rcases step_cases hub verb t with ⟨hwrites | hopens, hanswer⟩ |
      ⟨project, agent, to_, role, clock, r, n, _, _, hstep⟩
    · rw [renamings, movedBy_of_ne hanswer]
      exact ih (hwrites.hasRead hread) hrest
    · rw [renamings, movedBy_of_ne hanswer]
      exact ih (hopens.hasRead hread (hrest 0)) hrest
    · rw [renamings, hstep]
      rw [hstep] at hrest
      exact ih (hasRead_renamed hread) hrest

/-! ## What a reading leaves -/

lemma reader_ok {hub : Hub} {project agent me : String} {role : Option String}
    (h : formatAddress hub.unicode project agent role = .ok me) :
    hub.reader project agent role = .ok ⟨project, agent, role.getD "", me⟩ := by
  simp only [reader, h]
  rfl

/-- After a reading that returned a message, the reader has a row for it. -/
lemma hasRead_of_read {hub : Hub} {t t' : Tables} {project agent id me : String}
    {role : Option String} {now : DateTime} {message : Message}
    (hme : formatAddress hub.unicode project agent role = .ok me)
    (h : hub.read project agent id role now t = (.ok message, t')) :
    t'.hasRead me id = true := by
  unfold read at h
  rw [reader_ok hme] at h
  dsimp only at h
  cases hrow : routedRow t ⟨project, agent, role.getD "", me⟩ id with
  | none => simp [hrow] at h
  | some row =>
    simp only [hrow] at h
    split_ifs at h
    · cases h
      simp [hasRead_insertOrIgnore]
    · cases h

/-- What has been consumed is not listed. -/
lemma not_mem_peek {hub : Hub} {t : Tables} {project agent id me : String} {role : Option String}
    {messages : List Message} (hme : formatAddress hub.unicode project agent role = .ok me)
    (hread : t.hasRead me id = true) (h : hub.peek project agent role t = .ok messages) :
    ∀ message ∈ messages, message.id ≠ id := by
  unfold peek at h
  rw [reader_ok hme] at h
  cases h
  intro message hmessage hid
  obtain ⟨row, hrow, rfl⟩ := List.mem_map.mp hmessage
  have hwaits := (List.mem_filter.mp ((Sorting.sortBy_perm _ _).mem_iff.mp hrow)).2
  change row.id = id at hid
  simp [Tables.waits, hid, hread] at hwaits

/-- What has been consumed cannot be consumed again, and the attempt changes nothing. -/
lemma read_again {hub : Hub} {t : Tables} {project agent id me : String} {role : Option String}
    (hme : formatAddress hub.unicode project agent role = .ok me)
    (hread : t.hasRead me id = true) (now : DateTime) :
    hub.read project agent id role now t = (.error (.notFound project agent id), t) := by
  obtain ⟨read, hrow, hreader, hid⟩ := (hasRead_iff t me id).mp hread
  have hignored : t.reads.insertOrIgnore ⟨id, me, now⟩ = (0, t.reads) := by
    have hnone : t.reads.insert ⟨id, me, now⟩ = none :=
      (t.reads.insert_eq_none _).mpr ⟨read, hrow, by simp [ReadRow.key, hreader, hid]⟩
    simp [Table.insertOrIgnore, hnone]
  unfold Hub.read
  rw [reader_ok hme]
  dsimp only
  cases routedRow t ⟨project, agent, role.getD "", me⟩ id with
  | none => rfl
  | some row => simp [hignored]

/-- A message is consumed once. After an agent has read it, and for as long as the message is
kept, whatever else happens, the agent is neither shown it nor handed it again: not under the
name it read it with, and not under the name that later renames have given it. -/
theorem consumed_for_good (hub : Hub) (t : Tables) (later : List Verb) (project agent id : String)
    (role : Option String) (now : DateTime) (message : Message) (left : Tables)
    (hread : hub.read project agent id role now t = (.ok message, left))
    (hkept : ∀ n, (hub.after left (later.take n)).Stored id) (me project' agent' : String)
    (role' : Option String) (hme : formatAddress hub.unicode project agent role = .ok me)
    (htoday : formatAddress hub.unicode project' agent' role' =
      .ok (nameToday me (renamings hub left later))) :
    (∀ messages, hub.peek project' agent' role' (hub.after left later) = .ok messages →
        ∀ message ∈ messages, message.id ≠ id) ∧
      ∀ again, hub.read project' agent' id role' again (hub.after left later) =
        (.error (.notFound project' agent' id), hub.after left later) := by
  have hconsumed := hasRead_after later (hasRead_of_read hme hread) hkept
  exact ⟨fun messages => not_mem_peek htoday hconsumed, read_again htoday hconsumed⟩

/-- The letter that is read before its reader takes another name. -/
theorem alicia_has_read_it :
    let waiting := plainHub.after .empty [.send letterToAlice (january 10)]
    let left := (plainHub.read "p" "alice" "m1" none (january 11) waiting).2
    let t := plainHub.after left [renameOn 12 "alice" "p/alicia"]
    (∀ messages, plainHub.peek "p" "alicia" none t = .ok messages →
        ∀ message ∈ messages, message.id ≠ "m1") ∧
      ∀ again, plainHub.read "p" "alicia" "m1" none again t =
        (.error (.notFound "p" "alicia" "m1"), t) := by
  refine consumed_for_good plainHub (plainHub.after .empty [.send letterToAlice (january 10)])
    [renameOn 12 "alice" "p/alicia"] "p" "alice" "m1" none (january 11)
    { letterToAlice with reach := some "direct" } _ ?_ ?_ "p/alice" "p" "alicia" none
    (by decide +kernel) (by decide +kernel)
  · exact Prod.ext (by decide +kernel) rfl
  · rintro (_ | n)
    · exact ⟨rowOf letterToAlice ⟨some "p", some "alice", none⟩, by decide +kernel, rfl⟩
    · refine ⟨{ rowOf letterToAlice ⟨some "p", some "alice", none⟩ with
        to_ := "p/alicia", toAgent := some "alicia" }, ?_, rfl⟩
      rw [List.take_succ_cons, List.take_nil]
      decide +kernel

end Hub

end AgentMailbox.Old
