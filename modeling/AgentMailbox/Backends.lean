import AgentMailbox.Spelling

/-!
# Two stores behind one port

The store in memory says what the port means: a dictionary is a table, and whatever the
table stores under a key is what the dictionary holds there. Held against it, the store in
SQLite refuses what cannot be written or bound, lists actors by name, and answers everything
else alike.
-/
namespace AgentMailbox

namespace StoreCall

/-- The records handed over are JSON values. -/
def IsJson (floats : Floats) : StoreCall → Prop
  | claimName actor | putActor actor => actor.IsJson floats
  | addObject obj => obj.IsJson floats
  | getActor _ | actors | getObject _ | objects | removeObjects _ | markRead _ | readsOf _ => True

/-- The records handed over can be written as text. -/
def Writable : StoreCall → Prop
  | claimName actor | putActor actor => actor.Writable
  | addObject obj => obj.Writable
  | getActor _ | actors | getObject _ | objects | removeObjects _ | markRead _ | readsOf _ => True

/-- The ids handed over can be bound as parameters. -/
def Bound (engine : Engine) : StoreCall → Prop
  | removeObjects ids | readsOf ids => ids.length ≤ engine.maxVariables
  | claimName _ | getActor _ | putActor _ | actors | addObject _ | getObject _ | objects
  | markRead _ => True

/-- What SQLite refuses: a record that cannot be written, or more ids than it binds. -/
def Refused (engine : Engine) : StoreCall → Prop
  | claimName actor | putActor actor => ¬ actor.Writable
  | addObject obj => ¬ obj.Writable
  | removeObjects ids | readsOf ids => engine.maxVariables < ids.length
  | getActor _ | actors | getObject _ | objects | markRead _ => False

theorem not_refused {engine : Engine} {c : StoreCall} (hwritable : c.Writable)
    (hbound : c.Bound engine) : ¬ c.Refused engine := by
  cases c with
  | claimName actor | putActor actor | addObject obj => exact fun href => href hwritable
  | removeObjects ids | readsOf ids => exact not_lt.mpr hbound
  | getActor | actors | getObject | objects | markRead => exact id

/-- An actor that is overwritten keeps its time of creation. -/
def KeepsCreated (s : InMemoryStore) : StoreCall → Prop
  | putActor actor => ∀ old ∈ s.actors.lookup actor.name, actor.created = old.created
  | claimName _ | getActor _ | actors | addObject _ | getObject _ | objects | removeObjects _
  | markRead _ | readsOf _ => True

/-- The same answer, where the actors and the reads of one object are compared as sets. -/
def SameAnswer : (c : StoreCall) → c.Answer → c.Answer → Prop
  | actors, found, found' => found.Perm found'
  | readsOf _, reads, reads' => ∀ id, Option.Rel List.Perm (reads.lookup id) (reads'.lookup id)
  | _, answer, answer' => answer = answer'

/-- What SQLite answers when it holds what `s` holds. -/
def Answered : (c : StoreCall) → InMemoryStore → c.Answer → Prop
  | actors, s, found => found = Sorting.sortBy ActorRecord.name s.actors.values
  | c, s, answer => c.SameAnswer (InMemoryStore.handle c s).1 answer

theorem Answered.same {c : StoreCall} {s : InMemoryStore} {answer : c.Answer}
    (h : c.Answered s answer) : c.SameAnswer (InMemoryStore.handle c s).1 answer := by
  cases c
  case actors =>
    obtain rfl : answer = _ := h
    exact (Sorting.sortBy_perm _ _).symm
  all_goals exact h

instance (floats : Floats) : (c : StoreCall) → Decidable (c.IsJson floats)
  | claimName actor | putActor actor => inferInstanceAs (Decidable (actor.IsJson floats))
  | addObject obj => inferInstanceAs (Decidable (obj.IsJson floats))
  | getActor _ | actors | getObject _ | objects | removeObjects _ | markRead _ | readsOf _ =>
    isTrue trivial

instance : (c : StoreCall) → Decidable c.Writable
  | claimName actor | putActor actor => inferInstanceAs (Decidable actor.Writable)
  | addObject obj => inferInstanceAs (Decidable obj.Writable)
  | getActor _ | actors | getObject _ | objects | removeObjects _ | markRead _ | readsOf _ =>
    isTrue trivial

instance (engine : Engine) : (c : StoreCall) → Decidable (c.Bound engine)
  | removeObjects ids | readsOf ids =>
    inferInstanceAs (Decidable (ids.length ≤ engine.maxVariables))
  | claimName _ | getActor _ | putActor _ | actors | addObject _ | getObject _ | objects
  | markRead _ => isTrue trivial

instance (s : InMemoryStore) : (c : StoreCall) → Decidable (c.KeepsCreated s)
  | putActor actor => inferInstanceAs
      (Decidable (∀ old ∈ s.actors.lookup actor.name, actor.created = old.created))
  | claimName _ | getActor _ | actors | addObject _ | getObject _ | objects | removeObjects _
  | markRead _ | readsOf _ => isTrue trivial

end StoreCall

/-- The port, as SQLite offers it. -/
def InMemoryStore.specification (engine : Engine) : Specification messageStore InMemoryStore where
  proper c s := c.IsJson engine.floats ∧ c.KeepsCreated s
  refused c _ := c.Refused engine
  answer c s answer := c.Answered s answer
  after c s := (handle c s).2

/-- The tables hold what the dictionaries hold. -/
structure Mirrors (s : InMemoryStore) (t : Tables) : Prop where
  actors : Dict.Maps id s.actors t.actors
  objects : Dict.Maps id s.objects t.objects
  reads : ∀ key reader, t.reads.lookup (key, reader) = s.readBy key reader

namespace Mirrors

section
variable {s : InMemoryStore} {t : Tables} (h : Mirrors s t)
include h

lemma putActor (actor : ActorRecord) :
    Mirrors (s.putActor actor) { t with actors := t.actors.set actor.name actor } :=
  ⟨h.actors.set actor.name actor, h.objects, h.reads⟩

lemma claimName (actor : ActorRecord) :
    (s.claimName actor).1 = decide ((t.insertActor actor).1 = 1) ∧
      Mirrors (s.claimName actor).2 (t.insertActor actor).2 := by
  have hmem : actor.name ∈ t.actors ↔ actor.name ∈ s.actors := h.actors.mem_iff _
  unfold InMemoryStore.claimName Tables.insertActor
  by_cases htaken : actor.name ∈ s.actors
  · rw [if_pos htaken, if_pos (hmem.mpr htaken)]
    exact ⟨rfl, h⟩
  · rw [if_neg htaken, if_neg fun hin => htaken (hmem.mp hin)]
    exact ⟨rfl, h.putActor actor⟩

/-- An upsert puts the record as it is, when it brings the time of creation stored. -/
lemma upsertActor {actor : ActorRecord} (hcreated : (StoreCall.putActor actor).KeepsCreated s) :
    Mirrors (s.putActor actor) (t.upsertActor actor).2 := by
  have hrow : (t.upsertActor actor).2 = { t with actors := t.actors.set actor.name actor } := by
    unfold Tables.upsertActor
    cases hold : t.actors.lookup actor.name with
    | none => rfl
    | some old =>
      have hstored := h.actors.lookup_eq actor.name
      rw [hold] at hstored
      have hkept : actor.created = old.created := hcreated old hstored.symm
      simp only [← hkept]
  rw [hrow]
  exact h.putActor actor

lemma addObject (obj : ObjectRecord) : Mirrors (s.addObject obj) (t.replaceObject obj).2 :=
  ⟨h.actors, h.objects.set obj.id obj, h.reads⟩

lemma markRead (read : ReadRecord) :
    (s.markRead read).1 = decide ((t.insertRead read).1 = 1) ∧
      Mirrors (s.markRead read).2 (t.insertRead read).2 := by
  have hmem : (read.objectId, read.reader) ∈ t.reads ↔
      (s.readBy read.objectId read.reader).isSome = true := by
    rw [← AList.lookup_isSome, h.reads]
  have hreads : ∀ key reader, (t.insertRead read).2.reads.lookup (key, reader) =
      (s.markRead read).2.readBy key reader := by
    intro key reader
    rw [InMemoryStore.readBy_markRead, Tables.insertRead_reads, Dict.lookup_setDefault, h.reads,
      h.reads]
    simp only [Prod.mk.injEq]
    split_ifs with hpair
    · rw [hpair.1, hpair.2]
    · rfl
  refine ⟨?_, ?_, ?_, hreads⟩
  · unfold InMemoryStore.markRead Tables.insertRead
    by_cases hread : (s.readBy read.objectId read.reader).isSome = true
    · rw [if_pos hread, if_pos (hmem.mpr hread)]
      rfl
    · rw [if_neg hread, if_neg fun hin => hread (hmem.mp hin)]
      rfl
  · rw [InMemoryStore.markRead_actors]
    unfold Tables.insertRead
    split_ifs <;> exact h.actors
  · rw [InMemoryStore.markRead_objects, Tables.insertRead_objects]
    exact h.objects

lemma actorList : Sorting.sortBy ActorRecord.name t.actors.values =
    Sorting.sortBy ActorRecord.name s.actors.values := by
  have hperm := h.actors.values_perm
  rw [List.map_id] at hperm
  refine (Sorting.sortBy_eq_of_perm _ hperm.symm ?_).symm
  exact fun a ha b hb hname => Dict.eq_of_key s.actor_key ha hb hname

lemma objectList : Sorting.sortBy ObjectRecord.age t.objects.values = s.objectList := by
  have hperm := h.objects.values_perm
  rw [List.map_id] at hperm
  exact (Sorting.sortBy_eq_of_perm _ hperm.symm s.age_apart).symm

lemma removeObjects (ids : List String) :
    (s.removeObjects ids).1 = ((t.deleteReads ids).2.deleteObjects ids).1 ∧
      Mirrors (s.removeObjects ids).2 ((t.deleteReads ids).2.deleteObjects ids).2 := by
  have hkeys : t.objects.keys.Perm s.objects.keys := h.objects.keys_perm
  refine ⟨?_, ?_, ?_, ?_⟩
  · rw [s.removeObjects_keys]
    exact (hkeys.filter _).length_eq.symm
  · rw [InMemoryStore.removeObjects_actors]
    exact h.actors
  · intro key
    rw [s.lookup_removeObjects]
    show (Dict.filterKeys (fun id => id ∉ ids) t.objects).lookup key = _
    rw [Dict.lookup_filterKeys, h.objects key]
    by_cases hkey : key ∈ ids <;> simp [hkey]
  · intro key reader
    show (t.deleteReads ids).2.reads.lookup (key, reader) = _
    rw [Tables.lookup_deleteReads, h.reads]
    unfold InMemoryStore.readBy
    rw [s.lookup_reads_removeObjects]
    by_cases hkey : key ∈ ids <;> simp [hkey]

/-- The reads of one object. -/
lemma readers (key : String) :
    (t.reads.values.filter fun row => row.objectId = key).Perm
      ((s.reads.lookup key).getD ∅).values := by
  have hentry : ∀ pair row, t.reads.lookup pair = some row →
      (row.objectId, row.reader) = pair := by
    intro pair row hrow
    obtain ⟨hid, hreader⟩ := s.readBy_key ((h.reads pair.1 pair.2).symm.trans hrow)
    rw [hid, hreader]
  have hnodup : t.reads.values.Nodup := Dict.values_nodup hentry
  apply (List.perm_ext_iff_of_nodup (hnodup.filter _) (s.readers_nodup key)).mpr
  intro row
  rw [List.mem_filter, Dict.mem_values, s.mem_readers, ← h.reads]
  constructor
  · rintro ⟨⟨pair, hrow⟩, hid⟩
    have hpair : (key, row.reader) = pair := by
      rw [← hentry pair row hrow, of_decide_eq_true hid]
    rw [hpair]
    exact hrow
  · intro hrow
    exact ⟨⟨_, hrow⟩, decide_eq_true (congrArg Prod.fst (hentry _ row hrow))⟩

lemma readsOf {ids : List String} {rows : List ReadRecord} (hrows : (t.selectReads ids).Perm rows)
    (key : String) : Option.Rel List.Perm ((s.readsOf ids).lookup key)
      ((Dict.ofList (ids.map fun id =>
        (id, rows.filter fun row => row.objectId = id))).lookup key) := by
  unfold InMemoryStore.readsOf
  rw [Dict.lookup_ofList_map, Dict.lookup_ofList_map]
  by_cases hkey : key ∈ ids
  · rw [if_pos hkey, if_pos hkey]
    apply Option.Rel.some
    have hsame : (t.selectReads ids).filter (fun row => row.objectId = key) =
        t.reads.values.filter fun row => row.objectId = key := by
      unfold Tables.selectReads
      rw [List.filter_filter]
      apply List.filter_congr
      intro row _
      by_cases hrow : row.objectId = key <;> simp [hrow, hkey]
    have hfiltered := hrows.filter fun row => decide (row.objectId = key)
    rw [hsame] at hfiltered
    exact (h.readers key).symm.trans hfiltered
  · rw [if_neg hkey, if_neg hkey]
    exact .none

end

end Mirrors

/-! ## The methods, statement by statement -/

namespace SqliteStore

section
variable {α : Type} {engine : Engine} {conn : Connection} {Q : Except Raised α → Connection → Prop}

/-- A statement that comes last. -/
lemma wp_execute_last (stmt : Statement) {Q : Except Raised stmt.Answer → Connection → Prop}
    (hjson : stmt.IsJson engine.floats) (hrefused : stmt.Refused engine → ∀ e, Q (.error e) conn)
    (hok : ¬ stmt.Refused engine →
      ∀ answer, stmt.SameAnswer (Connection.handle stmt conn).1 answer →
        Q (.ok answer) (Connection.handle stmt conn).2) :
    (execute stmt).wp (Connection.specification engine) Q conn :=
  (Program.wp_perform_iff (S := sqlite) stmt).mpr ⟨hjson, hrefused, hok⟩

/-- A statement, and what is done with its answer. -/
lemma wp_execute (stmt : Statement) {f : stmt.Answer → SqlProgram α}
    (hjson : stmt.IsJson engine.floats) (hrefused : stmt.Refused engine → ∀ e, Q (.error e) conn)
    (hok : ¬ stmt.Refused engine →
      ∀ answer, stmt.SameAnswer (Connection.handle stmt conn).1 answer →
        (f answer).wp (Connection.specification engine) Q (Connection.handle stmt conn).2) :
    (execute stmt >>= f).wp (Connection.specification engine) Q conn := by
  rw [Program.wp_bind_iff]
  exact wp_execute_last stmt hjson hrefused hok

lemma wp_commit {f : Unit → SqlProgram α}
    (h : (f ()).wp (Connection.specification engine) Q { conn with committed := conn.working }) :
    (commit >>= f).wp (Connection.specification engine) Q conn :=
  wp_execute .commit trivial False.elim fun _ _ _ => h

end

/-- Each method comes to what the port says of it. -/
theorem wp_port {engine : Engine} (c : StoreCall) {s : InMemoryStore} {conn : Connection}
    (h : Mirrors s conn.working)
    (hproper : (InMemoryStore.specification engine).proper c s) :
    (port c).wp (Connection.specification engine)
      ((InMemoryStore.specification engine).Outcome (fun s conn => Mirrors s conn.working) c s)
      conn := by
  obtain ⟨hjson, hcreated⟩ := hproper
  have hdone : ∀ answer : c.Answer, ¬ c.Refused engine → c.Answered s answer →
      ∀ conn' : Connection, Mirrors (InMemoryStore.handle c s).2 conn'.working →
        (InMemoryStore.specification engine).Outcome (fun s conn => Mirrors s conn.working) c s
          (.ok answer : Except Raised c.Answer) conn' :=
    fun answer href hanswer conn' hmirrors => Or.inr ⟨href, answer, rfl, hanswer, hmirrors⟩
  have hraised : c.Refused engine → ∀ e,
      (InMemoryStore.specification engine).Outcome (fun s conn => Mirrors s conn.working) c s
        (.error e : Except Raised c.Answer) conn :=
    fun href e => Or.inl ⟨href, ⟨e, rfl⟩, h⟩
  cases c with
  | claimName actor =>
    apply wp_execute (.insertActor actor) hjson hraised
    rintro href rowcount rfl
    apply wp_commit
    obtain ⟨hanswer, hmirrors⟩ := h.claimName actor
    exact (Program.wp_pure _).mpr (hdone _ href hanswer _ hmirrors)
  | getActor name =>
    have hfound : s.actors.lookup name = conn.working.actors.lookup name :=
      (h.actors.lookup_eq name).symm
    apply wp_execute_last (.selectActor name) trivial hraised
    intro href answer hanswer
    apply hdone _ href _ _ h
    exact hfound.trans hanswer
  | putActor actor =>
    apply wp_execute (.upsertActor actor) hjson hraised
    rintro href rowcount rfl
    apply wp_execute_last .commit trivial False.elim
    exact fun _ _ _ => hdone () href rfl _ (h.upsertActor hcreated)
  | actors =>
    apply wp_execute_last .selectActors trivial hraised
    intro href answer hanswer
    apply hdone _ href _ _ h
    exact (h.actorList.symm.trans hanswer).symm
  | addObject obj =>
    apply wp_execute (.replaceObject obj) hjson hraised
    rintro href rowcount rfl
    apply wp_execute_last .commit trivial False.elim
    exact fun _ _ _ => hdone () href rfl _ (h.addObject obj)
  | getObject key =>
    have hfound : s.objects.lookup key = conn.working.objects.lookup key :=
      (h.objects.lookup_eq key).symm
    apply wp_execute_last (.selectObject key) trivial hraised
    intro href answer hanswer
    apply hdone _ href _ _ h
    exact hfound.trans hanswer
  | objects =>
    apply wp_execute_last .selectObjects trivial hraised
    intro href answer hanswer
    apply hdone _ href _ _ h
    exact h.objectList.symm.trans hanswer
  | removeObjects ids =>
    cases ids with
    | nil => exact (Program.wp_pure _).mpr (hdone 0 (Nat.not_lt_zero _) rfl _ h)
    | cons id ids =>
      obtain ⟨hanswer, hmirrors⟩ := h.removeObjects (id :: ids)
      apply wp_execute (.deleteReads (id :: ids)) trivial hraised
      rintro href _ rfl
      apply wp_execute (.deleteObjects (id :: ids)) trivial fun hyes => absurd hyes href
      rintro _ rowcount rfl
      apply wp_commit
      exact (Program.wp_pure _).mpr (hdone _ href hanswer _ hmirrors)
  | markRead read =>
    apply wp_execute (.insertRead read) hjson hraised
    rintro href rowcount rfl
    apply wp_commit
    obtain ⟨hanswer, hmirrors⟩ := h.markRead read
    exact (Program.wp_pure _).mpr (hdone _ href hanswer _ hmirrors)
  | readsOf ids =>
    cases ids with
    | nil => exact (Program.wp_pure _).mpr (hdone ∅ (Nat.not_lt_zero _) (fun _ => .none) _ h)
    | cons id ids =>
      apply wp_execute (.selectReads (id :: ids)) trivial hraised
      intro href rows hrows
      exact (Program.wp_pure _).mpr (hdone _ href (h.readsOf hrows) _ h)

/-- The store as its callers see it: each method run on the connection. -/
def backend (engine : Engine) : Fallible messageStore Raised RowConnection :=
  fun c => (port c).exec (RowConnection.handle engine)

/-- The rows hold, as text, what the dictionaries hold. -/
def Represents (engine : Engine) (s : InMemoryStore) (rows : RowConnection) : Prop :=
  ∃ conn : Connection, Mirrors s conn.working ∧ RowConnection.Spells engine.floats conn rows

theorem represents_empty (engine : Engine) : Represents engine .empty (.opened .empty) :=
  ⟨.opened .empty, ⟨fun _ => rfl, fun _ => rfl, fun _ _ => rfl⟩, spells_empty _, spells_empty _⟩

theorem backend_meets_port (engine : Engine) :
    (InMemoryStore.specification engine).Met (backend engine) (Represents engine) :=
  Specification.met_through (RowConnection.rows_meet_records engine)
    fun c _ _ h hproper => wp_port c h hproper

end SqliteStore

/-! ## Runs of calls -/

/-- Over both stores every call of the run returns, and returns the same. -/
def SameAnswers (engine : Engine) : List StoreCall → InMemoryStore → RowConnection → Prop
  | [], _, _ => True
  | c :: calls, s, rows =>
    (∃ answer, (SqliteStore.backend engine c rows).1 = .ok answer ∧
      c.SameAnswer (InMemoryStore.handle c s).1 answer) ∧
    SameAnswers engine calls (InMemoryStore.handle c s).2 (SqliteStore.backend engine c rows).2

/-- Every call of the run hands over records that can be written, and overwrites no time of
creation with another. -/
def KeptAlong : List StoreCall → InMemoryStore → Prop
  | [], _ => True
  | c :: calls, s => (c.Writable ∧ c.KeepsCreated s) ∧ KeptAlong calls (InMemoryStore.handle c s).2

instance KeptAlong.decidable :
    (calls : List StoreCall) → (s : InMemoryStore) → Decidable (KeptAlong calls s)
  | [], _ => isTrue trivial
  | c :: calls, s =>
    have := KeptAlong.decidable calls (InMemoryStore.handle c s).2
    inferInstanceAs (Decidable ((c.Writable ∧ c.KeepsCreated s) ∧ KeptAlong calls _))

lemma same_answers_of_represents {engine : Engine} {calls : List StoreCall} {s : InMemoryStore}
    {rows : RowConnection} (h : SqliteStore.Represents engine s rows)
    (hdomain : ∀ c ∈ calls, c.IsJson engine.floats ∧ c.Bound engine) (hkept : KeptAlong calls s) :
    SameAnswers engine calls s rows := by
  induction calls generalizing s rows with
  | nil => trivial
  | cons c calls ih =>
    obtain ⟨⟨hwritable, hcreated⟩, hrest⟩ := hkept
    obtain ⟨hjson, hbound⟩ := hdomain c List.mem_cons_self
    have hcall := SqliteStore.backend_meets_port engine c s rows h ⟨hjson, hcreated⟩
    obtain ⟨answer, rows', hrun, hanswer, h'⟩ := hcall.2 (StoreCall.not_refused hwritable hbound)
    show (∃ answer, _) ∧ SameAnswers engine calls _ _
    rw [hrun]
    refine ⟨⟨answer, rfl, hanswer.same⟩, ih h' (fun c hc => ?_) hrest⟩
    exact hdomain c (List.mem_cons_of_mem _ hc)

/-- Started empty, the two stores give the same answers to every run of calls that overwrites
no time of creation and writes no integer of too many digits. -/
theorem stores_answer_alike (engine : Engine) (calls : List StoreCall)
    (hdomain : ∀ c ∈ calls, c.IsJson engine.floats ∧ c.Bound engine)
    (hkept : KeptAlong calls .empty) : SameAnswers engine calls .empty (.opened .empty) :=
  same_answers_of_represents (SqliteStore.represents_empty engine) hdomain hkept

/-- An engine that visits rows in the order they were inserted, for data without floats. -/
def plainEngine : Engine where
  unicode := asciiUnicode
  floats := ⟨fun _ => false, id, by simp, by simp⟩
  maxVariables := 32766
  scan _ rows := rows
  scan_perm _ rows := .refl rows

/-- An actor with a profile, a message to it with an extension, and its reading. -/
def storedLetter : List StoreCall :=
  let profile : JsonObject :=
    Dict.ofList [("tags", .arr [.str "naïve", .obj [("deep", .int (-1))]])]
  let alice : ActorRecord := { name := "alice", created := "2026-01-01", profile }
  let letter : ObjectRecord :=
    { id := "m1", attributedTo := "bob", to_ := ["alice"], published := "2026-01-02",
      document := Dict.ofList [("x:mood", .str "cheerful")] }
  [.claimName alice, .claimName alice, .putActor { alice with lastSeen := "2026-01-02" },
    .getActor "alice", .actors, .addObject letter, .markRead ⟨"m1", "alice", "2026-01-03"⟩,
    .markRead ⟨"m9", "alice", "2026-01-03"⟩, .readsOf ["m1", "m9", "m1"], .objects,
    .removeObjects ["m1", "m1", "m2"], .readsOf ["m1"]]

theorem stored_letter_answered_alike :
    SameAnswers plainEngine storedLetter .empty (.opened .empty) :=
  stores_answer_alike plainEngine storedLetter (by decide +kernel) (by decide +kernel)

/-- Alice's record, put again with a new time of creation. -/
def recreated : List StoreCall :=
  [.claimName { name := "alice", created := "2026-01-01" },
    .putActor { name := "alice", created := "2026-02-01" }, .getActor "alice"]

/-- The dictionary holds the new time, the table the old one. -/
theorem created_kept_by_sqlite_alone :
    (∀ c ∈ recreated, c.IsJson plainEngine.floats ∧ c.Bound plainEngine) ∧
      ¬ SameAnswers plainEngine recreated .empty (.opened .empty) := by
  refine ⟨by decide +kernel, ?_⟩
  rintro ⟨_, _, ⟨answer, hrun, hsame⟩, _⟩
  have hold : (Except.ok (some { name := "alice", created := "2026-01-01" }) :
      Except Raised (Option ActorRecord)) = .ok answer := by
    rw [← hrun]
    decide +kernel
  have hnew : (some { name := "alice", created := "2026-02-01" } : Option ActorRecord) =
      answer := by
    rw [← (show _ = answer from hsame)]
    decide +kernel
  cases hold
  exact absurd hnew (by decide)

end AgentMailbox
