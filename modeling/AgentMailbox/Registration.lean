import AgentMailbox.Changes
import AgentMailbox.Joining

/-!
# Who is in the directory

An operation run alone adds at most one name to the directory, and only a join that is
granted one or the installing of a resident does. No operation takes a name out.
-/
namespace AgentMailbox

section
variable (mb : Mailbox) (s : InMemoryStore)

/-- Asking for a name: refused, taken, or granted under its normal form. -/
theorem step_join_chosen (requested : String) (draw : ℕ → Naming.Draw) (now : DateTime) :
    (Operation.join (some requested) draw now).step mb s =
      match Naming.validate mb.unicode requested with
      | .error e => (.error e, s)
      | .ok name =>
        if name ∈ s.actors then (.error (.mailbox (.nameTaken name)), s)
        else (.ok (.actor (Mailbox.newActor name now)),
          s.putActor (Mailbox.newActor name now)) := by
  rw [Operation.step_eq_runs]
  simp only [Operation.program, runs_map, Mailbox.join, runs_bind, runs_ofExcept]
  cases Naming.validate mb.unicode requested with
  | error e => rfl
  | ok name =>
    simp only [runs_claimName, InMemoryStore.claimName]
    have hname : (Mailbox.newActor name now).name = name := rfl
    rw [hname]
    by_cases htaken : name ∈ s.actors
    · rw [if_pos htaken, if_pos htaken]
      rfl
    · rw [if_neg htaken, if_neg htaken]
      rfl

/-- Trying issued names: the first free one, or none. -/
lemma runs_joinIssued (draw : ℕ → Naming.Draw) (now : DateTime) (remaining attempt : ℕ) :
    runs (Mailbox.joinIssued draw now remaining attempt) s =
        (.error (.mailbox .noFreeName), s) ∨
      ∃ k, Naming.generate (draw k) ∉ s.actors ∧
        runs (Mailbox.joinIssued draw now remaining attempt) s =
          (.ok (Mailbox.newActor (Naming.generate (draw k)) now),
            s.putActor (Mailbox.newActor (Naming.generate (draw k)) now)) := by
  induction remaining generalizing attempt with
  | zero => exact Or.inl rfl
  | succ remaining ih =>
    simp only [Mailbox.joinIssued, runs_bind, runs_claimName, InMemoryStore.claimName]
    have hname : (Mailbox.newActor (Naming.generate (draw attempt)) now).name =
        Naming.generate (draw attempt) := rfl
    rw [hname]
    by_cases htaken : Naming.generate (draw attempt) ∈ s.actors
    · rw [if_pos htaken]
      exact ih (attempt + 1)
    · rw [if_neg htaken]
      exact Or.inr ⟨attempt, htaken, rfl⟩

/-- A join is refused and changes nothing, or files the record it creates under a name
that was free. -/
theorem join_outcome (requestedName : Option String) (draw : ℕ → Naming.Draw) (now : DateTime) :
    (∃ m : MailboxError, m.errorClass = .nameUnavailable ∧
        (Operation.join requestedName draw now).step mb s = (.error (.mailbox m), s)) ∨
      ∃ actor, (Operation.join requestedName draw now).Creates mb actor ∧
        actor.name ∉ s.actors ∧
        (Operation.join requestedName draw now).step mb s =
          (.ok (.actor actor), s.putActor actor) := by
  cases requestedName with
  | some requested =>
    rw [step_join_chosen]
    cases hvalid : Naming.validate mb.unicode requested with
    | error e =>
      obtain ⟨m, rfl, hclass⟩ := Naming.validate_error hvalid
      exact Or.inl ⟨m, hclass, rfl⟩
    | ok name =>
      by_cases htaken : name ∈ s.actors
      · exact Or.inl ⟨.nameTaken name, rfl, if_pos htaken⟩
      · exact Or.inr ⟨_, ⟨name, hvalid, rfl⟩, htaken, if_neg htaken⟩
  | none =>
    have hruns : (Operation.join none draw now).step mb s =
        ((runs (Mailbox.joinIssued draw now nameAttempts 0) s).1.map Result.actor,
          (runs (Mailbox.joinIssued draw now nameAttempts 0) s).2) := by
      rw [Operation.step_eq_runs]
      exact runs_map s _ _
    rw [hruns]
    rcases runs_joinIssued s draw now nameAttempts 0 with hnone | ⟨k, hfree, hissued⟩
    · exact Or.inl ⟨.noFreeName, rfl, by rw [hnone]; rfl⟩
    · exact Or.inr ⟨_, ⟨k, rfl⟩, hfree, by rw [hissued]; rfl⟩

/-- The other operations keep the directory, or file a profile under a name in it. -/
lemma mem_actors_other {op : Operation} (hjoin : ¬ op.IsJoin)
    (hinstall : ∀ name profile now, op ≠ .installResident name profile now) (name : String) :
    name ∈ (op.step mb s).2.actors ↔ name ∈ s.actors := by
  cases op with
  | join => exact absurd trivial hjoin
  | installResident name profile now => exact absurd rfl (hinstall name profile now)
  | updateProfile caller profile now =>
    rw [Operation.step_updateProfile]
    cases hactor : mb.actorIn s caller with
    | error e => exact Iff.rfl
    | ok actor =>
      have hstored := ((mb.actorIn_ok_iff s caller actor).mp hactor).2
      have hmem : actor.name ∈ s.actors := (Dict.mem_iff_lookup _ _).mpr ⟨actor, hstored⟩
      simp only [InMemoryStore.putActor_actors, Dict.mem_set]
      exact ⟨fun h => h.elim (fun heq => heq ▸ hmem) id, Or.inr⟩
  | whois => exact Iff.rfl
  | directory => exact Iff.rfl
  | peek caller => rw [Operation.step_peek]
  | unreadCount caller => rw [Operation.step_unreadCount]
  | thread caller rootId => rw [Operation.step_thread]
  | view caller objectId => rw [Operation.step_view]
  | send caller draft stamp =>
    rw [Operation.step_send]
    cases mb.sendIn s caller draft stamp <;> rfl
  | reply caller objectId body subject stamp =>
    rw [Operation.step_reply]
    cases mb.replyIn s caller objectId body subject stamp <;> rfl
  | read caller objectId now =>
    cases hactor : mb.actorIn s caller with
    | error e =>
      simp only [Operation.step_eq_runs, Operation.program, runs_map, Mailbox.runs_read, hactor]
    | ok actor =>
      rw [Operation.step_read mb s now hactor]
      cases mb.visibleIn s caller objectId with
      | error e => rfl
      | ok obj => rw [InMemoryStore.markRead_actors]
  | expire now =>
    rw [Operation.step_eq_runs, Operation.program, runs_map]
    by_cases hdays : 0 < mb.retentionDays
    · rw [Mailbox.runs_expire mb s now hdays]
      cases mb.doomedIn s now with
      | error e => rfl
      | ok doomed => rw [InMemoryStore.removeObjects_actors]
    · rw [Mailbox.expire, if_pos (not_lt.mp hdays)]
      rfl

/-- What an operation adds to the directory it creates, and answers with. -/
theorem mem_actors_step (op : Operation) {name : String} (hnew : name ∈ (op.step mb s).2.actors)
    (hfree : name ∉ s.actors) :
    ∃ actor, actor.name = name ∧ op.Creates mb actor ∧
      op.step mb s = (.ok (.actor actor), s.putActor actor) := by
  have hput : ∀ actor : ActorRecord, name ∈ (s.putActor actor).actors → actor.name = name := by
    intro actor hmem
    rw [InMemoryStore.putActor_actors, Dict.mem_set] at hmem
    exact (hmem.resolve_right hfree).symm
  cases op with
  | join requestedName draw now =>
    rcases join_outcome mb s requestedName draw now with
      ⟨m, -, hstep⟩ | ⟨actor, hcreates, -, hstep⟩
    · rw [hstep] at hnew
      exact absurd hnew hfree
    · rw [hstep] at hnew
      exact ⟨actor, hput actor hnew, hcreates, hstep⟩
  | installResident resident profile now =>
    have hstate := installResident_state mb s resident profile now
    have htaken : resident ∉ s.actors := by
      intro htaken
      rw [hstate, InMemoryStore.claimName] at hnew
      simp only [Mailbox.newActor, htaken, if_true] at hnew
      exact hfree hnew
    have hstep : (Operation.installResident resident profile now).step mb s =
        (.ok (.actor { Mailbox.newActor resident now with profile := profile }),
          s.putActor { Mailbox.newActor resident now with profile := profile }) := by
      simp only [Operation.step_eq_runs, Operation.program, runs_map, Mailbox.installResident,
        runs_bind, runs_claimName, InMemoryStore.claimName, Mailbox.newActor, htaken, if_false,
        if_true, runs_pure]
      rfl
    rw [hstep] at hnew
    exact ⟨_, hput _ hnew, rfl, hstep⟩
  | _ =>
    exact absurd ((mem_actors_other mb s (by simp [Operation.IsJoin]) (by simp) name).mp hnew)
      hfree

/-- No call on the store takes a name out of the directory. -/
lemma handle_kept (name : String) (c : StoreCall) (s : InMemoryStore) (h : name ∈ s.actors) :
    name ∈ (InMemoryStore.handle c s).2.actors := by
  cases c with
  | claimName actor =>
    simp only [InMemoryStore.handle, InMemoryStore.claimName]
    split_ifs
    · exact h
    · simp [h]
  | putActor actor => simp [InMemoryStore.handle, h]
  | markRead read => simp [InMemoryStore.handle, h]
  | removeObjects ids => simp [InMemoryStore.handle, h]
  | _ => exact h

/-- A program of the mailbox leaves every name in the directory. -/
theorem names_kept {α : Type} (p : StoreProgram α) {name : String} (h : name ∈ s.actors) :
    name ∈ (runs p s).2.actors :=
  Program.run_invariant InMemoryStore.handle (handle_kept name) p h

end

end AgentMailbox
