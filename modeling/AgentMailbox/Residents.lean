import AgentMailbox.Api
import AgentMailbox.HouseRuns
import AgentMailbox.Registration

/-!
# Standing residents

Opening a house installs the residents that are missing. Nothing takes a name out of the
directory, and nothing but an opening puts a reserved one in, so the residents stay and
nobody else can be called what they are called.
-/
namespace AgentMailbox

section
variable {mb : Mailbox} (s : InMemoryStore)

/-! ## Joining -/

/-- What a join creates is not reserved, whatever was asked for. -/
lemma unreserved_of_creates {requestedName : Option String} {draw : ℕ → Naming.Draw}
    {now : DateTime} {actor : ActorRecord}
    (h : (Operation.join requestedName draw now).Creates mb actor) :
    actor.name ∉ reservedNames := by
  cases requestedName with
  | none =>
    obtain ⟨attempt, rfl⟩ := h
    exact (Naming.generate_canonical (draw attempt)).unreserved
  | some requested =>
    obtain ⟨name, hvalid, rfl⟩ := h
    exact (Naming.validate_canonical hvalid).unreserved

variable (mb) in
/-- A join answers with no reserved name, and reserved names are held after it as before. -/
theorem join_unreserved (requestedName : Option String) (draw : ℕ → Naming.Draw)
    (now : DateTime) :
    (∀ actor, ((Operation.join requestedName draw now).step mb s).1 = .ok (.actor actor) →
        actor.name ∉ reservedNames) ∧
      ∀ name ∈ reservedNames,
        (name ∈ ((Operation.join requestedName draw now).step mb s).2.actors ↔
          name ∈ s.actors) := by
  rcases join_outcome mb s requestedName draw now with
    ⟨m, -, hstep⟩ | ⟨created, hcreates, -, hstep⟩
  · rw [hstep]
    exact ⟨fun actor h => (by cases h), fun name _ => Iff.rfl⟩
  · have hunreserved := unreserved_of_creates hcreates
    rw [hstep]
    constructor
    · intro actor h
      cases h
      exact hunreserved
    · intro name hname
      rw [InMemoryStore.putActor_actors, Dict.mem_set]
      exact or_iff_right fun heq => hunreserved (heq ▸ hname)

/-! ## Installing -/

lemma held_of_installResident (name : String) (profile : JsonObject) (now : DateTime) :
    name ∈ (runs (Mailbox.installResident name profile now) s).2.actors := by
  rw [Mailbox.installResident, runs_bind, runs_claimName]
  have hclaimed : name ∈ (s.claimName { Mailbox.newActor name now with profile }).2.actors := by
    unfold InMemoryStore.claimName
    split_ifs with htaken
    · exact htaken
    · simp [Mailbox.newActor]
  exact names_kept _ _ hclaimed

lemma held_of_install (clock : ℕ → DateTime) (residents : List (String × String))
    (h : (runs (StandingResidents.install clock residents) s).1 = .ok ()) :
    ∀ resident ∈ residents,
      resident.1 ∈ (runs (StandingResidents.install clock residents) s).2.actors := by
  induction residents generalizing s with
  | nil => exact fun resident hmem => by cases hmem
  | cons resident rest ih =>
    obtain ⟨name, purpose⟩ := resident
    have hwhois : runs (Mailbox.whois name) s = (.ok (s.actors.lookup name), s) := rfl
    rw [StandingResidents.install, runs_bind, hwhois] at h ⊢
    cases hactor : s.actors.lookup name with
    | some actor =>
      simp only [hactor] at h ⊢
      have hheld : name ∈ s.actors := (Dict.mem_iff_lookup _ _).mpr ⟨actor, hactor⟩
      intro resident hmem
      obtain rfl | hmem := List.mem_cons.mp hmem
      · exact names_kept s _ hheld
      · exact ih s h resident hmem
    | none =>
      simp only [hactor, runs_bind] at h ⊢
      have hheld := held_of_installResident s name (StandingResidents.profile purpose)
        (clock rest.length)
      cases hinstalled : runs (Mailbox.installResident name (StandingResidents.profile purpose)
          (clock rest.length)) s with
      | mk answer installed =>
        rw [hinstalled] at h hheld
        cases answer with
        | error e => cases h
        | ok actor =>
          intro resident hmem
          obtain rfl | hmem := List.mem_cons.mp hmem
          · exact names_kept installed _ hheld
          · exact ih installed h resident hmem

/-- Residents that are there already are left as they are. -/
lemma install_held (clock : ℕ → DateTime) {residents : List (String × String)}
    (h : ∀ resident ∈ residents, resident.1 ∈ s.actors) :
    runs (StandingResidents.install clock residents) s = (.ok (), s) := by
  induction residents with
  | nil => rfl
  | cons resident rest ih =>
    obtain ⟨name, purpose⟩ := resident
    have hwhois : runs (Mailbox.whois name) s = (.ok (s.actors.lookup name), s) := rfl
    obtain ⟨actor, hactor⟩ := (Dict.mem_iff_lookup _ _).mp (h (name, purpose) List.mem_cons_self)
    rw [StandingResidents.install, runs_bind, hwhois, hactor]
    exact ih fun resident hmem => h resident (List.mem_cons_of_mem _ hmem)

end

namespace House

section
variable {μ α : Type}

/-- A program of a house leaves every name in the directory. -/
theorem names_kept (p : HouseProgram μ α) {s : HouseState μ} {name : String}
    (h : name ∈ s.store.actors) : name ∈ (p.run handle s).2.store.actors := by
  refine Program.run_invariant (I := fun s : HouseState μ => name ∈ s.store.actors) handle ?_ p h
  intro c s hs
  cases c with
  | store c => exact handle_kept name c s.store hs
  | check policy attempt => exact hs
  | record policy outcome => exact hs

/-- A house with the standing residents that has been opened has them. -/
lemma held_of_openAll (clock : ℕ → DateTime) {policies : List (Policy μ)} (s : HouseState μ)
    (hstanding : standingResidents μ ∈ policies)
    (h : ((openAll clock policies).run handle s).1 = .ok ()) :
    ∀ name ∈ residentNames, name ∈ ((openAll clock policies).run handle s).2.store.actors := by
  induction policies generalizing s with
  | nil => cases hstanding
  | cons policy rest ih =>
    rw [openAll, Program.run_bind, run_lifted] at h ⊢
    cases hopened : runs (policy.onOpen clock) s.store with
    | mk answer store =>
      rw [hopened] at h
      cases answer with
      | error e => cases h
      | ok _ =>
        rcases List.mem_cons.mp hstanding with rfl | hrest
        · intro name hname
          have hresidents : residentNames = StandingResidents.residents.map Prod.fst := rfl
          rw [hresidents, List.mem_map] at hname
          obtain ⟨resident, hmem, rfl⟩ := hname
          have hheld := held_of_install s.store clock StandingResidents.residents
            (congrArg Prod.fst hopened) resident hmem
          have hstore : (runs (StandingResidents.install clock StandingResidents.residents)
              s.store).2 = store := congrArg Prod.snd hopened
          rw [hstore] at hheld
          exact names_kept _ hheld
        · exact ih _ hrest h

/-- Opening a house where the residents are does nothing. -/
lemma openAll_held (clock : ℕ → DateTime) {policies : List (Policy μ)} {s : HouseState μ}
    (horderly : ∀ policy ∈ policies, policy.onOpen = (standingResidents μ).onOpen ∨
      policy.onOpen = fun _ => pure ())
    (h : ∀ name ∈ residentNames, name ∈ s.store.actors) :
    (openAll clock policies).run handle s = (.ok (), s) := by
  induction policies with
  | nil => rfl
  | cons policy rest ih =>
    have hopen : runs (policy.onOpen clock) s.store = (.ok (), s.store) := by
      rcases horderly policy List.mem_cons_self with hopen | hopen
      · have hresidents : ∀ resident ∈ StandingResidents.residents,
            resident.1 ∈ residentNames := by decide
        rw [hopen]
        exact install_held s.store clock fun resident hmem => h _ (hresidents resident hmem)
      · rw [hopen]
        rfl
    rw [openAll, Program.run_bind, run_lifted, hopen]
    exact ih fun policy hmem => horderly policy (List.mem_cons_of_mem _ hmem)

/-- A house's joins create no reserved names either. -/
lemma join_unreserved (house : House μ) (requestedName : Option String)
    (draw : ℕ → Naming.Draw) (now : DateTime) (s : HouseState μ) :
    (∀ actor, (house.step (.join requestedName draw now) s).1 = .ok (.actor actor) →
        actor.name ∉ reservedNames) ∧
      ∀ name ∈ reservedNames,
        (name ∈ (house.step (.join requestedName draw now) s).2.store.actors ↔
          name ∈ s.store.actors) := by
  obtain ⟨hanswer, hdirectory⟩ :=
    AgentMailbox.join_unreserved house.mailbox s.store requestedName draw now
  rcases house.step_refusedOrDone (.join requestedName draw now) s with
    ⟨⟨e, he⟩, hstore⟩ | ⟨hsame, hstore⟩
  · rw [he, hstore]
    exact ⟨fun actor h => (by cases h), fun name _ => Iff.rfl⟩
  · rw [hsame, hstore]
    exact ⟨hanswer, hdirectory⟩

/-- Reached from `start` by operations of mailboxes and houses, and by opening houses. -/
inductive Since (start : HouseState μ) : HouseState μ → Prop
  | here : Since start start
  | mailbox {s : HouseState μ} (mb : Mailbox) (op : Operation) (hs : Since start s) :
      Since start { s with store := (op.step mb s.store).2 }
  | house {s : HouseState μ} (house : House μ) (op : Operation) (hs : Since start s) :
      Since start (house.step op s).2
  | opened {s : HouseState μ} (house : House μ) (clock : ℕ → DateTime) (hs : Since start s) :
      Since start ((house.open_ clock).run handle s).2

/-- The residents are there, nobody can join under a reserved name, and another opening
finds nothing to do. -/
structure ResidentsStand (s : HouseState μ) : Prop where
  held : ∀ name ∈ residentNames, name ∈ s.store.actors
  mailbox_joins : ∀ (mb : Mailbox) requestedName draw now,
    (∀ actor, ((Operation.join requestedName draw now).step mb s.store).1 =
        .ok (.actor actor) → actor.name ∉ reservedNames) ∧
      ∀ name ∈ reservedNames,
        (name ∈ ((Operation.join requestedName draw now).step mb s.store).2.actors ↔
          name ∈ s.store.actors)
  house_joins : ∀ (house : House μ) requestedName draw now,
    (∀ actor, (house.step (.join requestedName draw now) s).1 = .ok (.actor actor) →
        actor.name ∉ reservedNames) ∧
      ∀ name ∈ reservedNames,
        (name ∈ (house.step (.join requestedName draw now) s).2.store.actors ↔
          name ∈ s.store.actors)
  reopened : ∀ house : House μ, house.Orderly → ∀ clock,
    (house.open_ clock).run handle s = (.ok (), s)

lemma Since.held {start s : HouseState μ} (h : Since start s) {name : String}
    (hname : name ∈ start.store.actors) : name ∈ s.store.actors := by
  induction h with
  | here => exact hname
  | mailbox mb op _ ih =>
    rw [Operation.step_eq_runs]
    exact AgentMailbox.names_kept _ _ ih
  | house house op _ ih => exact names_kept (house.program op) ih
  | opened house clock _ ih => exact names_kept (house.open_ clock) ih

/-- From the opening of a house with standing residents on, whatever happens, the residents
stand. -/
theorem residents_stand (house : House μ) (hstanding : standingResidents μ ∈ house.policies)
    (clock : ℕ → DateTime) (start : HouseState μ)
    (hopened : ((house.open_ clock).run handle start).1 = .ok ()) (s : HouseState μ)
    (hs : Since ((house.open_ clock).run handle start).2 s) : ResidentsStand s := by
  have hheld : ∀ name ∈ residentNames, name ∈ s.store.actors :=
    fun name hname => hs.held (held_of_openAll clock start hstanding hopened name hname)
  exact ⟨hheld, fun mb requestedName draw now =>
      AgentMailbox.join_unreserved mb s.store requestedName draw now,
    fun other requestedName draw now => other.join_unreserved requestedName draw now s,
    fun other horderly clock => openAll_held clock horderly hheld⟩

end

/-- A house with the default policies, opened on an empty store: however `admin` is asked
for, it stays the resident's. -/
theorem admin_stands : ResidentsStand
    (asciiApi.house.step (joinAs " ADMIN ") firstOpening).2 :=
  residents_stand asciiApi.house List.mem_cons_self (fun _ => january 1) ⟨.empty, {}⟩ rfl _
    (.house asciiApi.house (joinAs " ADMIN ") .here)

end House

end AgentMailbox
