import AgentMailbox.Sqlite
import AgentMailbox.Operations
import AgentMailbox.Library.Interleaving

/-!
# Read-state on a shared connection

Removing messages takes two statements, and any task's commit makes durable whatever
has been executed so far. What is committed stays consistent as long as nothing is
committed while it is half removed, and nothing is marked read that is gone or going.
-/
namespace AgentMailbox

open Interleaving

namespace Tables

/-- Every read record names a stored object. -/
def ReadsNameObjects (t : Tables) : Prop :=
  ∀ x reader row, t.reads.lookup (x, reader) = some row → x ∈ t.objects

end Tables

abbrev SqlConfig (ι α : Type) : Type := Config sqlite Raised α ι Connection

/-- Tasks about to run their store calls, statement by statement, on a connection just
opened. -/
def onConnection {ι α : Type} (tables : Tables) (tasks : ι → StoreProgram α) : SqlConfig ι α :=
  ⟨.opened tables, fun i => SqliteStore.statements (tasks i)⟩

/-- The ids that a task has stripped of their read-state and is about to remove. -/
def goingIn : Option Statement → List String
  | some (.deleteObjects ids) => ids
  | _ => []

/-- The ids whose read-state a statement strips. -/
def Statement.strips : Statement → List String
  | .deleteReads ids => ids
  | _ => []

section
variable {ι α : Type}

/-- Some task is between its two deletions, and removes `x` next. -/
def Going (cfg : SqlConfig ι α) (x : String) : Prop := ∃ j, x ∈ goingIn (next? (cfg.tasks j))

/-- A statement that does no harm: a commit finds no stored object half removed whose
read-state is committed, a read is recorded of an object that is there and is not going,
and no object is filed anew while its removal is uncommitted. -/
def HarmlessNext (cfg : SqlConfig ι α) : Option Statement → Prop
  | some .commit => ∀ j, ∀ x ∈ goingIn (next? (cfg.tasks j)), x ∈ cfg.state.working.objects →
      ∀ key ∈ cfg.state.committed.reads.keys, key.1 ≠ x
  | some (.insertRead read) => read.objectId ∈ cfg.state.working.objects ∧
      ∀ j, read.objectId ∉ goingIn (next? (cfg.tasks j))
  | some (.replaceObject obj) =>
    obj.id ∈ cfg.state.committed.objects → obj.id ∈ cfg.state.working.objects
  | _ => True

/-- What task `i` executes next does no harm. -/
def Harmless (cfg : SqlConfig ι α) (i : ι) : Prop := HarmlessNext cfg (next? (cfg.tasks i))

instance {n : ℕ} (cfg : SqlConfig (Fin n) α) (stmt : Option Statement) :
    Decidable (HarmlessNext cfg stmt) :=
  match stmt with
  | some .commit => @Nat.decidableForallFin n _ fun j =>
      List.decidableBAll (fun x => x ∈ cfg.state.working.objects →
        ∀ key ∈ cfg.state.committed.reads.keys, key.1 ≠ x) (goingIn (next? (cfg.tasks j)))
  | some (.insertRead _) =>
    @instDecidableAnd _ _ inferInstance (@Nat.decidableForallFin n _ fun _ => inferInstance)
  | some (.replaceObject obj) => inferInstanceAs
      (Decidable (obj.id ∈ cfg.state.committed.objects → obj.id ∈ cfg.state.working.objects))
  | none | some (.insertActor _) | some (.upsertActor _) | some (.selectActor _)
  | some .selectActors | some (.selectObject _) | some .selectObjects | some (.deleteReads _)
  | some (.deleteObjects _) | some (.selectReads _) => isTrue trivial

instance {n : ℕ} (cfg : SqlConfig (Fin n) α) (i : Fin n) : Decidable (Harmless cfg i) :=
  inferInstanceAs (Decidable (HarmlessNext cfg (next? (cfg.tasks i))))

/-! ## Where a task stands -/

/-- A statement that neither deletes nor commits. -/
def Statement.Plain : Statement → Prop
  | .deleteReads _ | .deleteObjects _ | .commit => False
  | _ => True

/-- The statements of a program of store calls: a selection, a write and its commit, or
the two deletions and their commit. -/
inductive Whole : SqlProgram α → Prop
  | ret (a : α) : Whole (.ret a)
  | raise (e : Raised) : Whole (.raise e)
  | select (stmt : Statement) (next : stmt.Answer → SqlProgram α) (hplain : stmt.Plain)
      (h : ∀ answer, Whole (next answer)) : Whole (.call stmt next)
  | write (stmt : Statement) (next : stmt.Answer → SqlProgram α) (hplain : stmt.Plain)
      (h : ∀ answer, Whole (next answer)) :
      Whole (.call stmt fun answer => .call .commit fun _ => next answer)
  | remove (ids : List String) (next : ℕ → SqlProgram α) (h : ∀ n, Whole (next n)) :
      Whole (.call (.deleteReads ids) fun _ => .call (.deleteObjects ids) fun n =>
        .call .commit fun _ => next n)

/-- What is left of a task at any moment. -/
inductive Standing : SqlProgram α → Prop
  | whole (p : SqlProgram α) (h : Whole p) : Standing p
  | committing (next : SqlProgram α) (h : Whole next) : Standing (.call .commit fun _ => next)
  | removing (ids : List String) (next : ℕ → SqlProgram α) (h : ∀ n, Whole (next n)) :
      Standing (.call (.deleteObjects ids) fun n => .call .commit fun _ => next n)

lemma whole_statements (p : StoreProgram α) : Whole (SqliteStore.statements p) := by
  induction p with
  | ret a => exact .ret a
  | raise e => exact .raise e
  | call c next ih =>
    cases c with
    | claimName actor => exact .write (.insertActor actor) _ trivial fun n => ih (decide (n = 1))
    | getActor name => exact .select (.selectActor name) _ trivial ih
    | putActor actor => exact .write (.upsertActor actor) _ trivial fun _ => ih ()
    | actors => exact .select .selectActors _ trivial ih
    | addObject obj => exact .write (.replaceObject obj) _ trivial fun _ => ih ()
    | getObject id => exact .select (.selectObject id) _ trivial ih
    | objects => exact .select .selectObjects _ trivial ih
    | removeObjects ids =>
      cases ids with
      | nil => exact ih 0
      | cons id ids => exact .remove (id :: ids) _ ih
    | markRead read => exact .write (.insertRead read) _ trivial fun n => ih (decide (n = 1))
    | readsOf ids =>
      cases ids with
      | nil => exact ih ∅
      | cons id ids => exact .select (.selectReads (id :: ids)) _ trivial fun rows => ih _

lemma goingIn_of_plain {stmt : Statement} (h : stmt.Plain) : goingIn (some stmt) = [] := by
  cases stmt <;> first | rfl | exact absurd h id

lemma Whole.goingIn_eq {p : SqlProgram α} (h : Whole p) : goingIn (next? p) = [] := by
  cases h with
  | ret a => rfl
  | raise e => rfl
  | select stmt next hplain _ => exact goingIn_of_plain hplain
  | write stmt next hplain _ => exact goingIn_of_plain hplain
  | remove ids next _ => rfl

/-- A task comes to stand between its deletions by the first of them, and in no other way. -/
lemma Standing.next {stmt : Statement} {next : stmt.Answer → SqlProgram α}
    (h : Standing (.call stmt next)) (answer : stmt.Answer) :
    Standing (next answer) ∧ goingIn (next? (next answer)) = stmt.strips := by
  cases h with
  | whole _ h =>
    cases h with
    | select _ _ hplain h =>
      refine ⟨.whole _ (h answer), ?_⟩
      rw [(h answer).goingIn_eq]
      cases stmt <;> first | rfl | exact absurd hplain id
    | write _ next hplain h =>
      refine ⟨.committing _ (h answer), ?_⟩
      cases stmt <;> first | rfl | exact absurd hplain id
    | remove ids next h => exact ⟨.removing ids next h, rfl⟩
  | committing next h => exact ⟨.whole _ h, h.goingIn_eq⟩
  | removing ids next h => exact ⟨.committing _ (h answer), rfl⟩

/-! ## What is kept -/

/-- What holds of the connection at any moment: what is committed and what is seen are
consistent, and of what is committed only that has gone from sight which is going. -/
structure Kept (cfg : SqlConfig ι α) : Prop where
  committed : cfg.state.committed.ReadsNameObjects
  working : cfg.state.working.ReadsNameObjects
  carried : ∀ x reader row, cfg.state.committed.reads.lookup (x, reader) = some row →
    x ∈ cfg.state.working.objects →
    cfg.state.working.reads.lookup (x, reader) = some row ∨ Going cfg x
  stripped : ∀ x, Going cfg x → ∀ reader, cfg.state.working.reads.lookup (x, reader) = none
  standing : ∀ i, Standing (cfg.tasks i)

variable [DecidableEq ι]

/-- Who is going after a statement: what it has stripped, and what the others remove next. -/
lemma going_advance {cfg : SqlConfig ι α} (h : ∀ i, Standing (cfg.tasks i)) {i : ι}
    {stmt : Statement} {next : stmt.Answer → SqlProgram α} (hi : cfg.tasks i = .call stmt next)
    (x : String) : Going (advance Connection.handle cfg i) x ↔
      x ∈ stmt.strips ∨ ∃ j, j ≠ i ∧ x ∈ goingIn (next? (cfg.tasks j)) := by
  have hstanding := h i
  rw [hi] at hstanding
  have hown : goingIn (next? ((advance Connection.handle cfg i).tasks i)) = stmt.strips := by
    rw [advance_self, hi]
    exact (hstanding.next _).2
  constructor
  · rintro ⟨j, hj⟩
    by_cases hji : j = i
    · subst hji
      rw [hown] at hj
      exact Or.inl hj
    · rw [advance_other cfg hji] at hj
      exact Or.inr ⟨j, hji, hj⟩
  · rintro (hx | ⟨j, hji, hj⟩)
    · exact ⟨i, by rw [hown]; exact hx⟩
    · exact ⟨j, by rw [advance_other cfg hji]; exact hj⟩

/-- A statement that deletes nothing changes nothing about who is going. -/
lemma going_unchanged {cfg : SqlConfig ι α} (h : ∀ i, Standing (cfg.tasks i)) {i : ι}
    {stmt : Statement} {next : stmt.Answer → SqlProgram α} (hi : cfg.tasks i = .call stmt next)
    (hstrips : stmt.strips = []) (hgoing : goingIn (some stmt) = []) (x : String) :
    Going (advance Connection.handle cfg i) x ↔ Going cfg x := by
  rw [going_advance h hi, hstrips]
  constructor
  · rintro (hx | ⟨j, _, hj⟩)
    · simp at hx
    · exact ⟨j, hj⟩
  · rintro ⟨j, hj⟩
    refine Or.inr ⟨j, fun hji => ?_, hj⟩
    subst hji
    rw [hi, next?, hgoing] at hj
    simp at hj

lemma standing_advance {cfg : SqlConfig ι α} (h : ∀ i, Standing (cfg.tasks i)) {i : ι}
    {stmt : Statement} {next : stmt.Answer → SqlProgram α} (hi : cfg.tasks i = .call stmt next)
    (j : ι) : Standing ((advance Connection.handle cfg i).tasks j) := by
  by_cases hji : j = i
  · subst hji
    have hstanding := h j
    rw [hi] at hstanding
    rw [advance_self, hi]
    exact (hstanding.next _).1
  · rw [advance_other cfg hji]
    exact h j

/-- A reading that can be seen goes from sight only with its message, which is going from the
moment its read-state is stripped. -/
lemma carried_advance {cfg : SqlConfig ι α} (h : ∀ i, Standing (cfg.tasks i)) (i : ι)
    {x reader : String} {row : ReadRecord}
    (hcarried : cfg.state.working.reads.lookup (x, reader) = some row ∨ Going cfg x)
    (hstored : x ∈ (advance Connection.handle cfg i).state.working.objects) :
    (advance Connection.handle cfg i).state.working.reads.lookup (x, reader) = some row ∨
      Going (advance Connection.handle cfg i) x := by
  cases hi : cfg.tasks i with
  | ret a =>
    rw [advance_idle cfg i (by rw [hi]; rfl)]
    exact hcarried
  | raise e =>
    rw [advance_idle cfg i (by rw [hi]; rfl)]
    exact hcarried
  | call stmt next =>
    have hstate := advance_state (h := Connection.handle) cfg (i := i) (c := stmt)
      (by rw [hi]; rfl)
    rw [hstate] at hstored ⊢
    cases stmt with
    | deleteReads ids =>
      have hlookup : (Connection.handle (.deleteReads ids) cfg.state).2.working.reads.lookup
          (x, reader) = if x ∉ ids then cfg.state.working.reads.lookup (x, reader) else none :=
        cfg.state.working.lookup_deleteReads ids (x, reader)
      rw [going_advance h hi, hlookup]
      by_cases hids : x ∈ ids
      · exact Or.inr (Or.inl hids)
      · rw [if_pos hids]
        refine hcarried.imp_right fun ⟨j, hj⟩ => Or.inr ⟨j, fun hji => ?_, hj⟩
        subst hji
        rw [hi] at hj
        simp [next?, goingIn] at hj
    | deleteObjects ids =>
      have hkept := ((cfg.state.working.mem_deleteObjects ids) x).mp hstored
      rw [going_advance h hi]
      refine hcarried.imp_right fun ⟨j, hj⟩ => Or.inr ⟨j, fun hji => ?_, hj⟩
      subst hji
      rw [hi] at hj
      exact hkept.1 hj
    | insertRead read =>
      rw [going_unchanged h hi rfl rfl]
      exact hcarried.imp_left (Tables.lookup_insertRead_of_some _ read)
    | insertActor actor =>
      have hreads : (Connection.handle (.insertActor actor) cfg.state).2.working.reads =
          cfg.state.working.reads := Tables.insertActor_reads _ actor
      rw [going_unchanged h hi rfl rfl, hreads]
      exact hcarried
    | _ =>
      rw [going_unchanged h hi rfl rfl]
      exact hcarried

/-- A statement that touches neither messages nor read-state. -/
lemma Kept.untouched {cfg : SqlConfig ι α} (h : Kept cfg) {i : ι} {stmt : Statement}
    {next : stmt.Answer → SqlProgram α} (hi : cfg.tasks i = .call stmt next)
    (hstrips : stmt.strips = []) (hgoing : goingIn (some stmt) = [])
    (hcommitted : (Connection.handle stmt cfg.state).2.committed = cfg.state.committed)
    (hobjects : (Connection.handle stmt cfg.state).2.working.objects = cfg.state.working.objects)
    (hreads : (Connection.handle stmt cfg.state).2.working.reads = cfg.state.working.reads) :
    Kept (advance Connection.handle cfg i) := by
  have hstate := advance_state (h := Connection.handle) cfg (i := i) (c := stmt) (by rw [hi]; rfl)
  have hgo := going_unchanged h.standing hi hstrips hgoing
  refine ⟨?_, ?_, ?_, ?_, standing_advance h.standing hi⟩
  · rw [hstate, hcommitted]
    exact h.committed
  · intro x reader row hrow
    rw [hstate, hreads] at hrow
    rw [hstate, hobjects]
    exact h.working x reader row hrow
  · intro x reader row hrow hx
    rw [hstate, hcommitted] at hrow
    refine carried_advance h.standing i (h.carried x reader row hrow ?_) hx
    rwa [hstate, hobjects] at hx
  · intro x hx reader
    rw [hstate, hreads]
    exact h.stripped x ((hgo x).mp hx) reader

/-- A message filed that was not on its way out. -/
lemma Kept.replaceObject {cfg : SqlConfig ι α} (h : Kept cfg) {i : ι} {obj : ObjectRecord}
    {next : ℕ → SqlProgram α} (hi : cfg.tasks i = .call (.replaceObject obj) next)
    (hharmless : obj.id ∈ cfg.state.committed.objects → obj.id ∈ cfg.state.working.objects) :
    Kept (advance Connection.handle cfg i) := by
  have hstate := advance_state (h := Connection.handle) cfg (i := i) (c := .replaceObject obj)
    (by rw [hi]; rfl)
  have hgo := going_unchanged h.standing hi rfl rfl
  have hmem := cfg.state.working.mem_replaceObject obj
  refine ⟨?_, ?_, ?_, ?_, standing_advance h.standing hi⟩
  · rw [hstate]
    exact h.committed
  · intro x reader row hrow
    rw [hstate] at hrow ⊢
    exact (hmem x).mpr (Or.inr (h.working x reader row hrow))
  · intro x reader row hrow hx
    rw [hstate] at hrow
    refine carried_advance h.standing i (h.carried x reader row hrow ?_) hx
    rw [hstate] at hx
    rcases (hmem x).mp hx with rfl | hx
    · exact hharmless (h.committed _ reader row hrow)
    · exact hx
  · intro x hx reader
    rw [hstate]
    exact h.stripped x ((hgo x).mp hx) reader

/-- The first deletion takes the read-state of what goes next. -/
lemma Kept.deleteReads {cfg : SqlConfig ι α} (h : Kept cfg) {i : ι} {ids : List String}
    {next : ℕ → SqlProgram α} (hi : cfg.tasks i = .call (.deleteReads ids) next) :
    Kept (advance Connection.handle cfg i) := by
  have hstate := advance_state (h := Connection.handle) cfg (i := i) (c := .deleteReads ids)
    (by rw [hi]; rfl)
  have hlookup : ∀ x reader,
      (Connection.handle (.deleteReads ids) cfg.state).2.working.reads.lookup (x, reader) =
        if x ∉ ids then cfg.state.working.reads.lookup (x, reader) else none :=
    fun x reader => cfg.state.working.lookup_deleteReads ids (x, reader)
  have hgo : ∀ x, Going (advance Connection.handle cfg i) x ↔ x ∈ ids ∨ Going cfg x := by
    intro x
    rw [going_advance h.standing hi]
    refine or_congr_right ⟨fun ⟨j, _, hj⟩ => ⟨j, hj⟩, fun ⟨j, hj⟩ => ⟨j, fun hji => ?_, hj⟩⟩
    subst hji
    rw [hi] at hj
    simp [next?, goingIn] at hj
  refine ⟨?_, ?_, ?_, ?_, standing_advance h.standing hi⟩
  · rw [hstate]
    exact h.committed
  · intro x reader row hrow
    rw [hstate, hlookup] at hrow
    rw [hstate]
    split_ifs at hrow
    exact h.working x reader row hrow
  · intro x reader row hrow hx
    rw [hstate] at hrow
    refine carried_advance h.standing i (h.carried x reader row hrow ?_) hx
    rwa [hstate] at hx
  · intro x hx reader
    rw [hstate, hlookup]
    rcases (hgo x).mp hx with hids | hx
    · rw [if_neg (not_not_intro hids)]
    · rw [h.stripped x hx reader, ite_self]

/-- The second deletion finds no read-state left of what it removes. -/
lemma Kept.deleteObjects {cfg : SqlConfig ι α} (h : Kept cfg) {i : ι} {ids : List String}
    {next : ℕ → SqlProgram α} (hi : cfg.tasks i = .call (.deleteObjects ids) next) :
    Kept (advance Connection.handle cfg i) := by
  have hstate := advance_state (h := Connection.handle) cfg (i := i) (c := .deleteObjects ids)
    (by rw [hi]; rfl)
  have hmem := cfg.state.working.mem_deleteObjects ids
  have hgoes : ∀ x ∈ ids, Going cfg x := fun x hx => ⟨i, by rw [hi]; exact hx⟩
  have hgo : ∀ x, Going (advance Connection.handle cfg i) x ↔
      ∃ j, j ≠ i ∧ x ∈ goingIn (next? (cfg.tasks j)) := by
    intro x
    rw [going_advance h.standing hi]
    exact or_iff_right (by simp [Statement.strips])
  refine ⟨?_, ?_, ?_, ?_, standing_advance h.standing hi⟩
  · rw [hstate]
    exact h.committed
  · intro x reader row hrow
    rw [hstate] at hrow ⊢
    refine (hmem x).mpr ⟨fun hids => ?_, h.working x reader row hrow⟩
    have hnone := h.stripped x (hgoes x hids) reader
    exact absurd (hrow.symm.trans hnone) (by simp)
  · intro x reader row hrow hx
    rw [hstate] at hrow
    refine carried_advance h.standing i (h.carried x reader row hrow ?_) hx
    rw [hstate] at hx
    exact ((hmem x).mp hx).2
  · intro x hx reader
    rw [hstate]
    obtain ⟨j, _, hj⟩ := (hgo x).mp hx
    exact h.stripped x ⟨j, hj⟩ reader

/-- A reading recorded of a message that is there and stays. -/
lemma Kept.insertRead {cfg : SqlConfig ι α} (h : Kept cfg) {i : ι} {read : ReadRecord}
    {next : ℕ → SqlProgram α} (hi : cfg.tasks i = .call (.insertRead read) next)
    (hstored : read.objectId ∈ cfg.state.working.objects) (hstays : ¬ Going cfg read.objectId) :
    Kept (advance Connection.handle cfg i) := by
  have hstate := advance_state (h := Connection.handle) cfg (i := i) (c := .insertRead read)
    (by rw [hi]; rfl)
  have hgo := going_unchanged h.standing hi rfl rfl
  refine ⟨?_, ?_, ?_, ?_, standing_advance h.standing hi⟩
  · rw [hstate]
    exact h.committed
  · intro x reader row hrow
    rw [hstate] at hrow ⊢
    show x ∈ (cfg.state.working.insertRead read).2.objects
    rw [Tables.insertRead_objects]
    by_cases hx : x = read.objectId
    · rw [hx]
      exact hstored
    · exact h.working x reader row ((Tables.lookup_insertRead_of_ne _ read hx).symm.trans hrow)
  · intro x reader row hrow hx
    rw [hstate] at hrow
    refine carried_advance h.standing i (h.carried x reader row hrow ?_) hx
    rw [hstate] at hx
    rwa [← Tables.insertRead_objects cfg.state.working read]
  · intro x hx reader
    have hx := (hgo x).mp hx
    have hne : x ≠ read.objectId := fun heq => hstays (heq ▸ hx)
    rw [hstate]
    exact (Tables.lookup_insertRead_of_ne _ read hne).trans (h.stripped x hx reader)

/-- A commit that finds nothing half removed loses no read-state of what is stored. -/
lemma Kept.commit {cfg : SqlConfig ι α} (h : Kept cfg) {i : ι} {next : Unit → SqlProgram α}
    (hi : cfg.tasks i = .call .commit next) : Kept (advance Connection.handle cfg i) := by
  have hstate := advance_state (h := Connection.handle) cfg (i := i) (c := .commit)
    (by rw [hi]; rfl)
  have hgo := going_unchanged h.standing hi rfl rfl
  refine ⟨?_, ?_, ?_, ?_, standing_advance h.standing hi⟩
  · rw [hstate]
    exact h.working
  · rw [hstate]
    exact h.working
  · intro x reader row hrow _
    rw [hstate] at hrow ⊢
    exact Or.inl hrow
  · intro x hx reader
    rw [hstate]
    exact h.stripped x ((hgo x).mp hx) reader

/-- Every harmless statement keeps what is to be kept. -/
theorem Kept.advance {cfg : SqlConfig ι α} (h : Kept cfg) {i : ι} (hharmless : Harmless cfg i) :
    Kept (Interleaving.advance Connection.handle cfg i) := by
  cases hi : cfg.tasks i with
  | ret a =>
    rw [advance_idle cfg i (by rw [hi]; rfl)]
    exact h
  | raise e =>
    rw [advance_idle cfg i (by rw [hi]; rfl)]
    exact h
  | call stmt next =>
    rw [Harmless, hi] at hharmless
    cases stmt with
    | replaceObject obj => exact h.replaceObject hi hharmless
    | deleteReads ids => exact h.deleteReads hi
    | deleteObjects ids => exact h.deleteObjects hi
    | insertRead read =>
      exact h.insertRead hi hharmless.1 fun ⟨j, hj⟩ => hharmless.2 j hj
    | commit => exact h.commit hi
    | insertActor actor =>
      exact h.untouched hi rfl rfl rfl (Tables.insertActor_objects _ actor)
        (Tables.insertActor_reads _ actor)
    | upsertActor actor => exact h.untouched hi rfl rfl rfl rfl rfl
    | selectActor name => exact h.untouched hi rfl rfl rfl rfl rfl
    | selectActors => exact h.untouched hi rfl rfl rfl rfl rfl
    | selectObject objectId => exact h.untouched hi rfl rfl rfl rfl rfl
    | selectObjects => exact h.untouched hi rfl rfl rfl rfl rfl
    | selectReads ids => exact h.untouched hi rfl rfl rfl rfl rfl

/-- A read record that is committed stays committed over a harmless statement, unless its
message goes. -/
theorem Kept.committed_advance {cfg : SqlConfig ι α} (h : Kept cfg) {i : ι}
    (hharmless : Harmless cfg i) {x reader : String} {row : ReadRecord}
    (hrow : cfg.state.committed.reads.lookup (x, reader) = some row)
    (hstored : x ∈ (Interleaving.advance Connection.handle cfg i).state.committed.objects) :
    (Interleaving.advance Connection.handle cfg i).state.committed.reads.lookup (x, reader) =
      some row := by
  cases hi : cfg.tasks i with
  | ret a =>
    rw [advance_idle cfg i (by rw [hi]; rfl)]
    exact hrow
  | raise e =>
    rw [advance_idle cfg i (by rw [hi]; rfl)]
    exact hrow
  | call stmt next =>
    have hstate := advance_state (h := Connection.handle) cfg (i := i) (c := stmt)
      (by rw [hi]; rfl)
    rw [hstate] at hstored ⊢
    cases stmt with
    | commit =>
      rw [Harmless, hi] at hharmless
      refine (h.carried x reader row hrow hstored).resolve_right fun ⟨j, hj⟩ => ?_
      have hkey : (x, reader) ∈ cfg.state.committed.reads.keys :=
        AList.mem_keys.mp ((Dict.mem_iff_lookup _ _).mpr ⟨row, hrow⟩)
      exact hharmless j x hj hstored (x, reader) hkey rfl
    | _ => exact hrow

/-! ## Whole runs -/

omit [DecidableEq ι] in
lemma kept_onConnection {tables : Tables} (htables : tables.ReadsNameObjects)
    (tasks : ι → StoreProgram α) : Kept (onConnection tables tasks) := by
  have hwhole : ∀ i, Whole ((onConnection tables tasks).tasks i) :=
    fun i => whole_statements (tasks i)
  have hnobody : ∀ x, ¬ Going (onConnection tables tasks) x := by
    rintro x ⟨j, hj⟩
    rw [(hwhole j).goingIn_eq] at hj
    simp at hj
  exact ⟨htables, htables, fun x reader row hrow _ => Or.inl hrow,
    fun x hx => absurd hx (hnobody x), fun i => .whole _ (hwhole i)⟩

/-- A committed read record outlasts a run through which its message is stored. -/
lemma Kept.committed_run {cfg : SqlConfig ι α} (h : Kept cfg) {rest : List ι}
    (hharmless : Along Connection.handle Harmless cfg rest) {x reader : String}
    {row : ReadRecord} (hrow : cfg.state.committed.reads.lookup (x, reader) = some row)
    (hstored : Along Connection.handle (fun cfg _ => x ∈ cfg.state.committed.objects) cfg rest)
    (hlast : x ∈ (run Connection.handle cfg rest).state.committed.objects) :
    (run Connection.handle cfg rest).state.committed.reads.lookup (x, reader) = some row := by
  induction rest generalizing cfg with
  | nil => exact hrow
  | cons i rest ih =>
    have hnext : x ∈ (Interleaving.advance Connection.handle cfg i).state.committed.objects := by
      cases rest with
      | nil => exact hlast
      | cons j rest => exact hstored.2.1
    have hrow' := h.committed_advance hharmless.1 hrow hnext
    exact ih (h.advance hharmless.1) hharmless.2 hrow' hstored.2 hlast

/-- A reading that can be seen goes from sight only with its message, over a whole run. -/
lemma carried_run {cfg : SqlConfig ι α} (h : Kept cfg) {schedule : List ι}
    (hharmless : Along Connection.handle Harmless cfg schedule) {x reader : String}
    {row : ReadRecord}
    (hcarried : cfg.state.working.reads.lookup (x, reader) = some row ∨ Going cfg x)
    (hstored : Along Connection.handle (fun cfg _ => x ∈ cfg.state.working.objects) cfg schedule)
    (hlast : x ∈ (run Connection.handle cfg schedule).state.working.objects) :
    (run Connection.handle cfg schedule).state.working.reads.lookup (x, reader) = some row ∨
      Going (run Connection.handle cfg schedule) x := by
  induction schedule generalizing cfg with
  | nil => exact hcarried
  | cons i schedule ih =>
    have hnext : x ∈ (Interleaving.advance Connection.handle cfg i).state.working.objects := by
      cases schedule with
      | nil => exact hlast
      | cons j schedule => exact hstored.2.1
    exact ih (h.advance hharmless.1) hharmless.2 (carried_advance h.standing i hcarried hnext)
      hstored.2 hlast

/-- However the statements of any tasks are interleaved, as long as each is harmless:
whenever the run is cut off, what is committed has no read record without its message;
and a read record once committed stays as it is as long as its message is stored. A reading
that is recorded is committed by the next commit that finds its message stored and not half
removed, if it has been stored all the while. -/
theorem committed_reads_kept (tables : Tables) (htables : tables.ReadsNameObjects)
    (tasks : ι → StoreProgram α) (first rest : List ι)
    (hharmless : Along Connection.handle Harmless (onConnection tables tasks) (first ++ rest)) :
    let before := run Connection.handle (onConnection tables tasks) first
    let final := run Connection.handle (onConnection tables tasks) (first ++ rest)
    final.state.committed.ReadsNameObjects ∧
      (∀ x reader row, before.state.committed.reads.lookup (x, reader) = some row →
        Along Connection.handle (fun cfg _ => x ∈ cfg.state.committed.objects) before rest →
        x ∈ final.state.committed.objects →
        final.state.committed.reads.lookup (x, reader) = some row) ∧
      ∀ i, next? (final.tasks i) = some .commit →
        ∀ x reader row, before.state.working.reads.lookup (x, reader) = some row →
          Along Connection.handle (fun cfg _ => x ∈ cfg.state.working.objects) before rest →
          x ∈ final.state.working.objects → ¬ Going final x →
          (advance Connection.handle final i).state.committed.reads.lookup (x, reader) =
            some row := by
  intro before final
  have hkept : ∀ schedule, Along Connection.handle Harmless (onConnection tables tasks) schedule →
      Kept (run Connection.handle (onConnection tables tasks) schedule) := fun schedule =>
    run_invariant (fun cfg i h hc => h.advance hc) _ schedule (kept_onConnection htables tasks)
  obtain ⟨hfirst, hrest⟩ := (along_append _ first rest).mp hharmless
  have hfinal : final = run Connection.handle before rest := run_append _ first rest
  refine ⟨(hkept _ hharmless).committed, fun x reader row hrow hstored hlast => ?_,
    fun i hcommit x reader row hrow hstored hlast hstays => ?_⟩
  · rw [hfinal] at hlast ⊢
    exact (hkept first hfirst).committed_run hrest hrow hstored hlast
  · have hstate : (advance Connection.handle final i).state.committed = final.state.working := by
      rw [advance_state final hcommit]
      rfl
    rw [hstate]
    rw [hfinal] at hlast hstays ⊢
    exact (carried_run (hkept first hfirst) hrest (Or.inl hrow) hstored hlast).resolve_right
      hstays

end

/-! ## A reading against an expiry -/

/-- Alice writes to bob, bob reads it, it expires, and carol joins. -/
def letterTasks : Fin 6 → StoreProgram Result
  | 0 => (joinAs "alice").program asciiMailbox
  | 1 => (joinAs "bob").program asciiMailbox
  | 2 => (Operation.send "alice" { to_ := .one "bob", body := "ping" } ⟨"m1", january 2⟩).program
      asciiMailbox
  | 3 => (Operation.read "bob" "m1" (january 31)).program asciiMailbox
  | 4 => (Operation.expire (january 31)).program asciiMailbox
  | 5 => (joinAs "carol").program asciiMailbox

/-- Both have joined, and the letter has been sent. -/
def letterSent : List (Fin 6) := [0, 0, 1, 1, 2, 2, 2, 2]

def lettersAfter (schedule : List (Fin 6)) : Connection :=
  (run Connection.handle (onConnection .empty letterTasks) schedule).state

/-- When bob's reading finds the letter and records it only after it has expired, the record
outlives its message. When carol's joining commits the first half of an expiry that is then
cut off, the letter bob has read is unread again. -/
theorem read_state_goes_astray :
    ¬ (lettersAfter (letterSent ++
      [3, 3, 3, 3, 4, 4, 4, 4, 3, 3])).committed.ReadsNameObjects ∧
    let before := lettersAfter (letterSent ++ [3, 3, 3, 3, 3, 3])
    let final := lettersAfter (letterSent ++ [3, 3, 3, 3, 3, 3, 4, 4, 5, 5])
    ("m1", "bob") ∈ before.committed.reads ∧ "m1" ∈ final.committed.objects ∧
      ("m1", "bob") ∉ final.committed.reads := by
  refine ⟨fun hall => ?_, by decide +kernel⟩
  have hread : ∃ row, (lettersAfter (letterSent ++
      [3, 3, 3, 3, 4, 4, 4, 4, 3, 3])).committed.reads.lookup ("m1", "bob") = some row :=
    (Dict.mem_iff_lookup _ _).mp (by decide +kernel)
  obtain ⟨row, hrow⟩ := hread
  exact absurd (hall "m1" "bob" row hrow) (by decide +kernel)

/-- When carol joins between the reading and the expiry, and the expiry is cut off halfway,
the letter is still there and still read. -/
theorem letter_stays_read :
    let final := lettersAfter (letterSent ++ [3, 3, 3, 3, 3, 3] ++ [5, 5, 4, 4])
    final.committed.ReadsNameObjects ∧ ∃ row,
      final.committed.reads.lookup ("m1", "bob") = some row := by
  have hempty : Tables.empty.ReadsNameObjects := fun x reader row hrow => by
    simp [Tables.empty] at hrow
  have hkept := committed_reads_kept .empty hempty letterTasks
    (letterSent ++ [3, 3, 3, 3, 3, 3]) [5, 5, 4, 4] (by decide +kernel)
  have hread : ∃ row, (lettersAfter (letterSent ++
      [3, 3, 3, 3, 3, 3])).committed.reads.lookup ("m1", "bob") = some row :=
    (Dict.mem_iff_lookup _ _).mp (by decide +kernel)
  obtain ⟨row, hrow⟩ := hread
  exact ⟨hkept.1, row, hkept.2.1 "m1" "bob" row hrow (by decide +kernel) (by decide +kernel)⟩

end AgentMailbox
