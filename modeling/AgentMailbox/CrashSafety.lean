import AgentMailbox.Calls
import AgentMailbox.Interchange
import AgentMailbox.Library.Crashes

/-!
# The process dies

The file keeps what was committed. Every operation of the mailbox writes at most once, and a
write is durable at its commit and not before: a process that dies in the middle of an
operation has done all of it or nothing. The store is opened and closed by whoever holds it,
and used in between.
-/
namespace AgentMailbox

/-! ## Operations write once -/

/-- The calls that only look. -/
def Looks : StoreCall → Prop
  | .getActor _ | .actors | .getObject _ | .objects | .readsOf _ => True
  | _ => False

/-- A program that writes at most once, and looks before and after it. A name that is not free
is claimed without effect, and may be followed by another claim. -/
inductive WritesOnce {α : Type} : StoreProgram α → Prop
  | ret (a : α) : WritesOnce (.ret a)
  | raise (e : Raised) : WritesOnce (.raise e)
  | look (c : StoreCall) (next : c.Answer → StoreProgram α) (hc : Looks c)
      (h : ∀ answer, WritesOnce (next answer)) : WritesOnce (.call c next)
  | claim (actor : ActorRecord) (next : Bool → StoreProgram α) (hfree : (next true).Uses Looks)
      (htaken : WritesOnce (next false)) : WritesOnce (.call (.claimName actor) next)
  | write (c : StoreCall) (next : c.Answer → StoreProgram α)
      (h : ∀ answer, (next answer).Uses Looks) : WritesOnce (.call c next)

namespace WritesOnce

section
variable {α β : Type}

theorem of_uses {p : StoreProgram α} (hp : p.Uses Looks) : WritesOnce p := by
  induction p with
  | ret a => exact .ret a
  | raise e => exact .raise e
  | call c next ih =>
    obtain ⟨hc, hnext⟩ := (Program.uses_call_iff c next).mp hp
    exact .look c next hc fun answer => ih answer (hnext answer)

/-- Looking first. -/
theorem after {p : StoreProgram α} {f : α → StoreProgram β} (hp : p.Uses Looks)
    (hf : ∀ a, WritesOnce (f a)) : WritesOnce (p >>= f) := by
  induction p with
  | ret a => exact hf a
  | raise e => exact .raise e
  | call c next ih =>
    obtain ⟨hc, hnext⟩ := (Program.uses_call_iff c next).mp hp
    exact .look c _ hc fun answer => ih answer (hnext answer)

/-- Looking afterwards. -/
theorem before {p : StoreProgram α} {f : α → StoreProgram β} (hp : WritesOnce p)
    (hf : ∀ a, (f a).Uses Looks) : WritesOnce (p >>= f) := by
  induction hp with
  | ret a => exact of_uses (hf a)
  | raise e => exact .raise e
  | look c next hc _ ih => exact .look c _ hc ih
  | claim actor next hfree _ ih => exact .claim actor _ (Program.uses_bind hfree hf) ih
  | write c next h => exact .write c _ fun answer => Program.uses_bind (h answer) hf

theorem map {p : StoreProgram α} (hp : WritesOnce p) (f : α → β) : WritesOnce (f <$> p) :=
  hp.before fun a => Program.uses_pure (f a)

/-- One call and nothing else. -/
theorem ask (c : StoreCall) : WritesOnce (MessageStore.ask c) :=
  .write c _ fun answer => Program.uses_ret answer

end

end WritesOnce

lemma onlyLooks_ask {c : StoreCall} (hc : Looks c) : (MessageStore.ask c).Uses Looks :=
  Program.uses_perform hc

section
variable (mb : Mailbox)

lemma onlyLooks_requireActor (name : String) : (mb.requireActor name).Uses Looks := by
  unfold Mailbox.requireActor
  refine Program.uses_bind (Program.uses_ofExcept _) fun resolved => ?_
  refine Program.uses_bind (onlyLooks_ask trivial) fun found => ?_
  cases found with
  | none => exact Program.uses_throw _
  | some actor => exact Program.uses_pure _

lemma onlyLooks_context : mb.context.Uses Looks := by
  unfold Mailbox.context
  refine Program.uses_bind (onlyLooks_ask trivial) fun actors => ?_
  exact Program.uses_bind (Program.uses_ofExcept _) fun memberships => Program.uses_pure _

lemma onlyLooks_visibleObject (caller objectId : String) :
    (mb.visibleObject caller objectId).Uses Looks := by
  unfold Mailbox.visibleObject
  refine Program.uses_bind (onlyLooks_requireActor mb caller) fun actor => ?_
  refine Program.uses_bind (onlyLooks_ask trivial) fun found => ?_
  cases found with
  | none => exact Program.uses_throw _
  | some obj =>
    refine Program.uses_bind (onlyLooks_context mb) fun ctx => ?_
    by_cases hparty : isPartyTo ctx obj actor.name = true <;> simp [hparty]

lemma onlyLooks_attach (ctx : Context) (sender : String) (inReplyTo : Option String) :
    (Mailbox.attach ctx sender inReplyTo).Uses Looks := by
  cases inReplyTo with
  | none => exact Program.uses_pure _
  | some parent => exact Program.uses_bind (onlyLooks_ask trivial) fun _ => Program.uses_pure _

lemma onlyLooks_peek (caller : String) : (mb.peek caller).Uses Looks := by
  unfold Mailbox.peek Mailbox.readBy
  refine Program.uses_bind (onlyLooks_requireActor mb caller) fun actor => ?_
  refine Program.uses_bind (onlyLooks_context mb) fun ctx => ?_
  refine Program.uses_bind (onlyLooks_ask trivial) fun objects => ?_
  refine Program.uses_bind ?_ fun read => Program.uses_pure _
  exact Program.uses_bind (onlyLooks_ask trivial) fun reads => Program.uses_pure _

lemma onlyLooks_thread (caller rootId : String) : (mb.thread caller rootId).Uses Looks := by
  unfold Mailbox.thread
  refine Program.uses_bind (onlyLooks_requireActor mb caller) fun actor => ?_
  refine Program.uses_bind (onlyLooks_context mb) fun ctx => ?_
  exact Program.uses_bind (onlyLooks_ask trivial) fun objects => Program.uses_pure _

lemma writesOnce_joinIssued (draw : ℕ → Naming.Draw) (now : DateTime) (remaining attempt : ℕ) :
    WritesOnce (Mailbox.joinIssued draw now remaining attempt) := by
  induction remaining generalizing attempt with
  | zero => exact .raise _
  | succ remaining ih =>
    unfold Mailbox.joinIssued
    exact .claim _ _ (Program.uses_pure _) (ih (attempt + 1))

lemma writesOnce_join (requestedName : Option String) (draw : ℕ → Naming.Draw)
    (now : DateTime) : WritesOnce (mb.join requestedName draw now) := by
  unfold Mailbox.join
  cases requestedName with
  | none => exact writesOnce_joinIssued draw now nameAttempts 0
  | some requested =>
    refine WritesOnce.after (Program.uses_ofExcept _) fun name => ?_
    exact .claim _ _ (Program.uses_pure _) (.raise _)

lemma writesOnce_updateProfile (caller : String) (profile : JsonObject) (now : DateTime) :
    WritesOnce (mb.updateProfile caller profile now) := by
  unfold Mailbox.updateProfile
  refine WritesOnce.after (onlyLooks_requireActor mb caller) fun actor => ?_
  exact (WritesOnce.ask _).before fun _ => Program.uses_pure _

lemma writesOnce_installResident (name : String) (profile : JsonObject) (now : DateTime) :
    WritesOnce (Mailbox.installResident name profile now) := by
  unfold Mailbox.installResident
  refine (WritesOnce.ask _).before fun claimed => ?_
  cases claimed with
  | true => exact Program.uses_pure _
  | false =>
    refine Program.uses_bind (onlyLooks_ask trivial) fun found => ?_
    cases found <;> simp

lemma writesOnce_send (caller : String) (draft : Draft) (stamp : Stamp) :
    WritesOnce (mb.send caller draft stamp) := by
  unfold Mailbox.send
  refine WritesOnce.after (onlyLooks_requireActor mb caller) fun actor => ?_
  refine WritesOnce.after (Program.uses_ofExcept _) fun recipients => ?_
  refine WritesOnce.after (Program.uses_ofExcept _) fun copies => ?_
  refine WritesOnce.after (onlyLooks_context mb) fun ctx => ?_
  refine WritesOnce.after (Program.uses_ofExcept _) fun _ => ?_
  refine WritesOnce.after (onlyLooks_attach ctx actor.name draft.inReplyTo) fun parent => ?_
  exact (WritesOnce.ask _).before fun _ => Program.uses_pure _

lemma writesOnce_reply (caller objectId body : String) (subject : Option String)
    (stamp : Stamp) : WritesOnce (mb.reply caller objectId body subject stamp) :=
  .after (onlyLooks_visibleObject mb caller objectId) fun _ => writesOnce_send mb caller _ stamp

lemma writesOnce_read (caller objectId : String) (now : DateTime) :
    WritesOnce (mb.read caller objectId now) := by
  unfold Mailbox.read
  refine WritesOnce.after (onlyLooks_requireActor mb caller) fun actor => ?_
  refine WritesOnce.after (onlyLooks_visibleObject mb caller objectId) fun obj => ?_
  exact (WritesOnce.ask _).before fun _ => Program.uses_pure _

lemma writesOnce_expire (now : DateTime) : WritesOnce (mb.expire now) := by
  unfold Mailbox.expire
  split_ifs
  · exact .ret _
  · refine WritesOnce.after (Program.uses_ofExcept _) fun cutoff => ?_
    refine WritesOnce.after (onlyLooks_ask trivial) fun objects => ?_
    dsimp only
    split_ifs
    · exact .ret _
    · exact WritesOnce.ask _

/-- Every operation writes at most once. -/
theorem writesOnce_program (op : Operation) : WritesOnce (op.program mb) := by
  cases op with
  | join requestedName draw now => exact (writesOnce_join mb requestedName draw now).map _
  | whois name => exact (WritesOnce.ask (.getActor name)).map _
  | directory => exact (WritesOnce.ask .actors).map _
  | updateProfile caller profile now => exact (writesOnce_updateProfile mb caller profile now).map _
  | installResident name profile now => exact (writesOnce_installResident name profile now).map _
  | send caller draft stamp => exact (writesOnce_send mb caller draft stamp).map _
  | reply caller objectId body subject stamp =>
    exact (writesOnce_reply mb caller objectId body subject stamp).map _
  | peek caller => exact (WritesOnce.of_uses (onlyLooks_peek mb caller)).map _
  | unreadCount caller =>
    exact (WritesOnce.of_uses (Program.uses_map (onlyLooks_peek mb caller) _)).map _
  | read caller objectId now => exact (writesOnce_read mb caller objectId now).map _
  | thread caller rootId => exact (WritesOnce.of_uses (onlyLooks_thread mb caller rootId)).map _
  | view caller objectId =>
    exact (WritesOnce.of_uses (onlyLooks_visibleObject mb caller objectId)).map _
  | expire now => exact (writesOnce_expire mb now).map _

end

/-! ## A write is durable at its commit -/

namespace RowConnection

/-- Nothing is executed that is not committed. -/
def Settled (conn : RowConnection) : Prop := conn.committed = conn.working

lemma settled_opened (tables : RowTables) : (opened tables).Settled := rfl

/-- The statements that make nothing durable. -/
def Uncommitted : Statement → Prop
  | .commit => False
  | _ => True

lemma handle_committed (engine : Engine) (stmt : Statement) (conn : RowConnection)
    (h : Uncommitted stmt) : (handle engine stmt conn).2.committed = conn.committed := by
  cases stmt with
  | commit => exact absurd h id
  | insertActor actor | upsertActor actor | replaceObject obj =>
    simp only [handle]
    split <;> rfl
  | deleteReads ids | deleteObjects ids | selectReads ids =>
    simp only [handle]
    split_ifs <;> rfl
  | selectActor | selectActors | selectObject | selectObjects | insertRead => rfl

/-- The statements that only look. -/
def Selects : Statement → Prop
  | .selectActor _ | .selectActors | .selectObject _ | .selectObjects | .selectReads _ => True
  | _ => False

lemma Selects.uncommitted {stmt : Statement} (h : Selects stmt) : Uncommitted stmt := by
  cases stmt <;> first | exact trivial | exact absurd h id

lemma handle_selects (engine : Engine) {stmt : Statement} (conn : RowConnection)
    (h : Selects stmt) : (handle engine stmt conn).2 = conn := by
  cases stmt with
  | selectActor | selectActors | selectObject | selectObjects => rfl
  | selectReads ids =>
    simp only [handle]
    split_ifs <;> rfl
  | _ => exact absurd h id

/-- A statement that raises has done nothing. -/
lemma handle_error {engine : Engine} {stmt : Statement} {conn conn' : RowConnection} {e : Raised}
    (h : handle engine stmt conn = (.error e, conn')) : conn' = conn := by
  cases stmt with
  | insertActor actor | upsertActor actor | replaceObject obj =>
    simp only [handle] at h
    split at h
    · cases h
    · exact (congrArg Prod.snd h).symm
  | deleteReads ids | deleteObjects ids | selectReads ids =>
    simp only [handle] at h
    split_ifs at h
    · exact (congrArg Prod.snd h).symm
    · cases h
  | selectActor | selectActors | selectObject | selectObjects => exact (congrArg Prod.snd h).symm
  | insertRead | commit => cases h

end RowConnection

namespace SqliteStore

section
variable (engine : Engine) {α : Type} {conn : RowConnection}

/-- Until the commit nothing is durable. -/
lemma silent_of_uncommitted {p : SqlProgram α} (hp : p.Uses RowConnection.Uncommitted) :
    p.Silent (RowConnection.handle engine) RowConnection.committed conn :=
  Program.silent_of_uses (fun stmt conn h => RowConnection.handle_committed engine stmt conn h) hp
    conn

lemma uncommitted_execute {stmt : Statement} (h : RowConnection.Uncommitted stmt) :
    (execute stmt).Uses RowConnection.Uncommitted := Program.uses_perform h

/-- The atomic step itself. -/
lemma atomic_commit : commit.Atomic (RowConnection.handle engine) RowConnection.committed conn := by
  intro n
  cases n with
  | zero => exact Or.inl (by rw [Program.stopped_zero])
  | succ n => exact Or.inr (by cases n <;> rfl)

lemma atomic_commit_pure (a : α) : (commit >>= fun _ => (Pure.pure a : SqlProgram α)).Atomic
    (RowConnection.handle engine) RowConnection.committed conn :=
  Program.atomic_before (atomic_commit engine) fun _ _ _ =>
    silent_of_uncommitted engine (Program.uses_pure a)

/-- A statement before it. -/
lemma atomic_execute (stmt : Statement) (h : RowConnection.Uncommitted stmt)
    {f : stmt.Answer → SqlProgram α}
    (hf : ∀ answer conn,
      (f answer).Atomic (RowConnection.handle engine) RowConnection.committed conn) :
    (execute stmt >>= f).Atomic (RowConnection.handle engine) RowConnection.committed conn :=
  Program.atomic_after (silent_of_uncommitted engine (uncommitted_execute h)) fun answer conn _ =>
    hf answer conn

lemma selects_of_looks {c : StoreCall} (hc : Looks c) : (port c).Uses RowConnection.Selects := by
  cases c with
  | getActor | actors | getObject | objects => exact Program.uses_perform trivial
  | readsOf ids =>
    cases ids with
    | nil => exact Program.uses_pure _
    | cons id ids =>
      exact Program.uses_bind (Program.uses_perform trivial) fun _ => Program.uses_pure _
  | claimName | putActor | addObject | removeObjects | markRead => exact absurd hc id

/-- Every call of the port is atomic. -/
theorem atomic_port (conn : RowConnection) (c : StoreCall) :
    (port c).Atomic (RowConnection.handle engine) RowConnection.committed conn := by
  by_cases hc : Looks c
  · refine (silent_of_uncommitted engine ?_).atomic
    exact (selects_of_looks hc).mono fun _ => RowConnection.Selects.uncommitted
  cases c with
  | getActor | actors | getObject | objects | readsOf => exact absurd trivial hc
  | claimName actor =>
    exact atomic_execute engine (.insertActor actor) trivial fun _ _ => atomic_commit_pure engine _
  | putActor actor =>
    exact atomic_execute engine (.upsertActor actor) trivial fun _ _ => atomic_commit engine
  | addObject obj =>
    exact atomic_execute engine (.replaceObject obj) trivial fun _ _ => atomic_commit engine
  | markRead read =>
    exact atomic_execute engine (.insertRead read) trivial fun _ _ => atomic_commit_pure engine _
  | removeObjects ids =>
    cases ids with
    | nil => exact (silent_of_uncommitted engine (Program.uses_pure _)).atomic
    | cons id ids =>
      refine atomic_execute engine (.deleteReads (id :: ids)) trivial fun _ _ => ?_
      exact atomic_execute engine (.deleteObjects (id :: ids)) trivial fun _ _ =>
        atomic_commit_pure engine _

/-! ### Between the calls -/

/-- What only looks leaves the connection as it is. -/
lemma exec_selects (conn : RowConnection) {p : SqlProgram α} (hp : p.Uses RowConnection.Selects) :
    (p.exec (RowConnection.handle engine) conn).2 = conn :=
  Program.exec_of_uses (fun _ conn h => RowConnection.handle_selects engine conn h) hp conn

/-- What follows a statement that raises is not executed. -/
lemma exec_execute (conn : RowConnection) (stmt : Statement) (f : stmt.Answer → SqlProgram α) :
    (∃ e, (execute stmt >>= f).exec (RowConnection.handle engine) conn = (.error e, conn)) ∨
      ∃ answer conn', RowConnection.handle engine stmt conn = (.ok answer, conn') ∧
        (execute stmt >>= f).exec (RowConnection.handle engine) conn =
          (f answer).exec (RowConnection.handle engine) conn' := by
  show (∃ e, Program.exec _ (.call (S := sqlite) stmt f) conn = _) ∨ ∃ answer conn', _ ∧
    Program.exec _ (.call (S := sqlite) stmt f) conn = _
  rw [Program.exec_call]
  cases h : RowConnection.handle engine stmt conn with
  | mk x conn' =>
    cases x with
    | ok answer => exact Or.inr ⟨answer, conn', rfl, rfl⟩
    | error e =>
      rw [RowConnection.handle_error h]
      exact Or.inl ⟨e, rfl⟩

/-- A statement that raises leaves everything committed that was. -/
lemma settled_execute (stmt : Statement) {f : stmt.Answer → SqlProgram α} (h : conn.Settled)
    (hf : ∀ answer conn', RowConnection.handle engine stmt conn = (.ok answer, conn') →
      ((f answer).exec (RowConnection.handle engine) conn').2.Settled) :
    ((execute stmt >>= f).exec (RowConnection.handle engine) conn).2.Settled := by
  rcases exec_execute engine conn stmt f with
    ⟨e, he⟩ | ⟨answer, conn', hanswer, hexec⟩
  · rwa [he]
  · rw [hexec]
    exact hf answer conn' hanswer

/-- After every call of the port everything is committed. -/
lemma settled_port (c : StoreCall) (h : conn.Settled) :
    ((port c).exec (RowConnection.handle engine) conn).2.Settled := by
  by_cases hc : Looks c
  · rwa [exec_selects engine conn (selects_of_looks hc)]
  cases c with
  | getActor | actors | getObject | objects | readsOf => exact absurd trivial hc
  | claimName actor => exact settled_execute engine (.insertActor actor) h fun _ _ _ => rfl
  | putActor actor => exact settled_execute engine (.upsertActor actor) h fun _ _ _ => rfl
  | addObject obj => exact settled_execute engine (.replaceObject obj) h fun _ _ _ => rfl
  | markRead read => rfl
  | removeObjects ids =>
    cases ids with
    | nil => exact h
    | cons id ids =>
      refine settled_execute engine (.deleteReads (id :: ids)) h fun _ conn' hreads => ?_
      -- The second deletion binds as many ids as the first, so it raises only if that did.
      have hbound : ¬ engine.maxVariables < (id :: ids).length := by
        intro hmany
        simp only [RowConnection.handle, if_pos hmany] at hreads
        cases hreads
      show (Program.exec _ (.call (S := sqlite) (.deleteObjects (id :: ids)) _) conn').2.Settled
      rw [Program.exec_call]
      simp only [RowConnection.handle, if_neg hbound, RowConnection.written]
      rfl

/-- A claim that fails leaves no trace. -/
lemma claim_taken {actor : ActorRecord} {conn' : RowConnection} (h : conn.Settled)
    (hclaim : (port (.claimName actor)).exec (RowConnection.handle engine) conn =
      (.ok false, conn')) : conn' = conn := by
  change Program.exec _ (.call (S := sqlite) (.insertActor actor) fun rowcount =>
    .call (S := sqlite) .commit fun _ => .ret (decide (rowcount = 1))) conn = _ at hclaim
  rw [Program.exec_call] at hclaim
  cases hrow : Columns.ofActor actor with
  | error e =>
    simp only [RowConnection.handle, hrow] at hclaim
    cases hclaim
  | ok row =>
    simp only [RowConnection.handle, hrow, RowConnection.written, RowTables.insertActor] at hclaim
    split_ifs at hclaim with hname
    · rw [Program.exec_call] at hclaim
      simp only [RowConnection.handle, Program.exec_ret, Prod.mk.injEq] at hclaim
      obtain ⟨-, rfl⟩ := hclaim
      exact congrArg (RowConnection.mk conn.working) h.symm
    · rw [Program.exec_call] at hclaim
      simp [RowConnection.handle] at hclaim

lemma selects_statements {p : StoreProgram α} (hp : p.Uses Looks) :
    (statements p).Uses RowConnection.Selects :=
  Program.uses_through (fun _ => selects_of_looks) hp

/-- What only looks makes nothing durable. -/
lemma silent_of_looks {p : StoreProgram α} (hp : p.Uses Looks) :
    (statements p).Silent (RowConnection.handle engine) RowConnection.committed conn :=
  silent_of_uncommitted engine
    ((selects_statements hp).mono fun _ => RowConnection.Selects.uncommitted)

/-- A program that writes once is atomic. -/
theorem atomic_statements {p : StoreProgram α} (hp : WritesOnce p) (h : conn.Settled) :
    (statements p).Atomic (RowConnection.handle engine) RowConnection.committed conn := by
  induction hp generalizing conn with
  | ret a => exact (silent_of_looks engine (Program.uses_ret a)).atomic
  | raise e => exact (silent_of_looks engine (Program.uses_raise e)).atomic
  | look c next hc _ ih =>
    have huses := selects_of_looks hc
    refine Program.atomic_after (p := port c) (f := fun answer => statements (next answer))
      (silent_of_uncommitted engine (huses.mono fun _ => RowConnection.Selects.uncommitted)) ?_
    intro answer conn' hexec
    have hsame := exec_selects engine conn huses
    rw [hexec] at hsame
    subst hsame
    exact ih answer h
  | claim actor next hfree _ ih =>
    have hclaim := atomic_port engine conn (.claimName actor)
    cases hexec : (port (.claimName actor)).exec (RowConnection.handle engine) conn with
    | mk x conn' =>
      have hrest : ∀ answer conn'', (port (.claimName actor)).exec (RowConnection.handle engine)
          conn = (.ok answer, conn'') → x = .ok answer := fun answer conn'' hagain =>
        congrArg Prod.fst (hexec.symm.trans hagain)
      rcases x with e | _ | _
      · refine Program.atomic_before (f := fun answer => statements (next answer)) hclaim ?_
        exact fun answer conn'' hagain => absurd (hrest answer conn'' hagain) (by simp)
      · -- The name is taken: nothing has happened yet.
        have hsame := claim_taken engine h hexec
        have hsilent := hclaim.silent (by rw [hexec, hsame])
        refine Program.atomic_after (f := fun answer => statements (next answer)) hsilent ?_
        intro answer conn'' hagain
        cases hrest answer conn'' hagain
        rw [claim_taken engine h hagain]
        exact ih h
      · refine Program.atomic_before (f := fun answer => statements (next answer)) hclaim ?_
        intro answer conn'' hagain
        cases hrest answer conn'' hagain
        exact silent_of_looks engine hfree
  | write c next hnext =>
    exact Program.atomic_before (p := port c) (f := fun answer => statements (next answer))
      (atomic_port engine conn c) fun answer _ _ => silent_of_looks engine (hnext answer)

/-- After every program everything is committed. -/
theorem settled_statements (p : StoreProgram α) (h : conn.Settled) :
    ((statements p).exec (RowConnection.handle engine) conn).2.Settled := by
  induction p generalizing conn with
  | ret a => exact h
  | raise e => exact h
  | call c next ih =>
    show ((port c >>= fun answer => statements (next answer)).exec _ conn).2.Settled
    have hcall := settled_port engine c h
    rw [Program.exec_bind]
    cases hexec : (port c).exec (RowConnection.handle engine) conn with
    | mk x conn' =>
      rw [hexec] at hcall
      cases x with
      | error e => exact hcall
      | ok answer => exact ih answer hcall

end

end SqliteStore

end AgentMailbox
