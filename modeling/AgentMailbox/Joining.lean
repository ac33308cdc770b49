import AgentMailbox.Operations
import AgentMailbox.Library.Interleaving

/-!
# Names under concurrency

Joins, profile updates and the installing of residents, interleaved call by call. A
name is granted by one claim that found it free. The invariant ties every entry of
the directory to the grant it goes back to, and every task to the grants it has had.
-/
namespace AgentMailbox

open Interleaving

/-- The calls made so far: by whom, which, and in what state. -/
abbrev Past (ι : Type) : Type := List (ι × StoreCall × InMemoryStore)

/-- Task `i` claimed the actor's name when it was free. -/
def Granted {ι : Type} (past : Past ι) (i : ι) (actor : ActorRecord) : Prop :=
  ∃ s, (i, .claimName actor, s) ∈ past ∧ actor.name ∉ s.actors

/-- Every call of task `i` left the store as it was. -/
def Quiet {ι : Type} (past : Past ι) (i : ι) : Prop :=
  ∀ c s, (i, c, s) ∈ past → (InMemoryStore.handle c s).2 = s

namespace Operation

def IsJoin (op : Operation) : Prop :=
  match op with
  | join _ _ _ => True
  | _ => False

/-- The operations that write the directory. -/
def ManagesNames (op : Operation) : Prop :=
  match op with
  | join _ _ _ | installResident _ _ _ | updateProfile _ _ _ => True
  | _ => False

/-- The record an operation creates under a name it is granted. -/
def Creates (mb : Mailbox) (op : Operation) (actor : ActorRecord) : Prop :=
  match op with
  | join (some requested) _ now =>
    ∃ name, Naming.validate mb.unicode requested = .ok name ∧ actor = Mailbox.newActor name now
  | join none draw now =>
    ∃ attempt, actor = Mailbox.newActor (Naming.generate (draw attempt)) now
  | installResident name profile now =>
    actor = { Mailbox.newActor name now with profile := profile }
  | _ => False

end Operation

/-- The same actor, with at most the changes of profile updates made under its name. -/
structure Descends {ι : Type} (mb : Mailbox) (ops : ι → Operation)
    (origin actor : ActorRecord) : Prop where
  name_eq : actor.name = origin.name
  type_eq : actor.actorType = origin.actorType
  created_eq : actor.created = origin.created
  updated : (actor.profile = origin.profile ∧ actor.lastSeen = origin.lastSeen) ∨
    ∃ j caller profile now, ops j = .updateProfile caller profile now ∧
      mb.local_ caller = .ok origin.name ∧ actor.profile = profile ∧
      actor.lastSeen = now.isoformat

/-- The record a name goes back to: one that was there at the start, or one granted since. -/
def Origin {ι : Type} (s₀ : InMemoryStore) (past : Past ι) (name : String)
    (origin : ActorRecord) : Prop :=
  origin.name = name ∧ (s₀.actors.lookup name = some origin ∨ ∃ i, Granted past i origin)

/-- A program that claims names one after the other until one is granted. -/
inductive Claiming (creates : ActorRecord → Prop) : StoreProgram Result → Prop
  | refused (e : MailboxError) (h : e.errorClass = .nameUnavailable) :
      Claiming creates (.raise (.mailbox e))
  | claim (actor : ActorRecord) (next : Bool → StoreProgram Result) (hcreates : creates actor)
      (hwon : next true = .ret (.actor actor)) (hlost : Claiming creates (next false)) :
      Claiming creates (.call (.claimName actor) next)

/-- A call that looks up an actor. -/
def LooksUp (c : StoreCall) : Prop := ∃ name, c = .getActor name

/-- Where a task stands: what is left of it, and what it has been granted. -/
inductive Stage {ι : Type} (mb : Mailbox) (ops : ι → Operation) (s₀ : InMemoryStore)
    (past : Past ι) (i : ι) : StoreProgram Result → Prop
  | claiming (p : StoreProgram Result) (hclaim : Claiming ((ops i).Creates mb) p)
      (hquiet : Quiet past i) : Stage mb ops s₀ past i p
  | granted (actor : ActorRecord) (h : Granted past i actor) :
      Stage mb ops s₀ past i (.ret (.actor actor))
  | installing (actor : ActorRecord) (next : Bool → StoreProgram Result)
      (hcreates : (ops i).Creates mb actor) (hwon : next true = .ret (.actor actor))
      (hlost : (next false).Uses LooksUp) (hop : ¬ (ops i).IsJoin) :
      Stage mb ops s₀ past i (.call (.claimName actor) next)
  | looking (p : StoreProgram Result) (h : p.Uses LooksUp) (hop : ¬ (ops i).IsJoin) :
      Stage mb ops s₀ past i p
  | fetching (caller name : String) (profile : JsonObject) (now : DateTime)
      (next : Option ActorRecord → StoreProgram Result)
      (hop : ops i = .updateProfile caller profile now) (hlocal : mb.local_ caller = .ok name)
      (hnone : (next none).Uses LooksUp)
      (hsome : ∀ actor, next (some actor) =
        .call (.putActor { actor with profile := profile, lastSeen := now.isoformat })
          fun _ => .ret (.actor { actor with profile := profile, lastSeen := now.isoformat })) :
      Stage mb ops s₀ past i (.call (.getActor name) next)
  | putting (actor origin : ActorRecord) (next : Unit → StoreProgram Result)
      (horigin : Origin s₀ past actor.name origin) (hdescends : Descends mb ops origin actor)
      (hnext : (next ()).Uses LooksUp) (hop : ¬ (ops i).IsJoin) :
      Stage mb ops s₀ past i (.call (.putActor actor) next)

section
variable {ι : Type} (mb : Mailbox) (ops : ι → Operation) (s₀ : InMemoryStore)

/-! ## The programs -/

lemma claiming_joinIssued (draw : ℕ → Naming.Draw) (now : DateTime) (remaining attempt : ℕ) :
    Claiming ((Operation.join none draw now).Creates mb)
      (Result.actor <$> Mailbox.joinIssued draw now remaining attempt) := by
  induction remaining generalizing attempt with
  | zero => exact .refused .noFreeName rfl
  | succ remaining ih => exact .claim _ _ ⟨attempt, rfl⟩ rfl (ih (attempt + 1))

lemma claiming_join (requestedName : Option String) (draw : ℕ → Naming.Draw) (now : DateTime) :
    Claiming ((Operation.join requestedName draw now).Creates mb)
      ((Operation.join requestedName draw now).program mb) := by
  cases requestedName with
  | none => exact claiming_joinIssued mb draw now nameAttempts 0
  | some requested =>
    change Claiming _ (Result.actor <$> mb.join (some requested) draw now)
    unfold Mailbox.join
    cases hvalid : Naming.validate mb.unicode requested with
    | error e =>
      obtain ⟨m, rfl, hclass⟩ := Naming.validate_error hvalid
      simp only [hvalid]
      exact .refused m hclass
    | ok name =>
      simp only [hvalid]
      exact .claim _ _ ⟨name, hvalid, rfl⟩ rfl (.refused (.nameTaken name) rfl)

/-- Installing a resident claims its name, and looks the holder up when it is taken. -/
lemma program_installResident (name : String) (profile : JsonObject) (now : DateTime) :
    ∃ next, (Operation.installResident name profile now).program mb =
        .call (.claimName { Mailbox.newActor name now with profile := profile }) next ∧
      next true = .ret (.actor { Mailbox.newActor name now with profile := profile }) ∧
      (next false).Uses LooksUp := by
  refine ⟨_, rfl, rfl, (Program.uses_call_iff _ _).mpr ⟨⟨name, rfl⟩, fun found => ?_⟩⟩
  cases found <;> exact Program.uses_ret _

/-- An update of a caller whose address resolves looks the actor up and files it anew. -/
lemma program_updateProfile {caller name : String} (profile : JsonObject) (now : DateTime)
    (hlocal : mb.local_ caller = .ok name) :
    ∃ next, (Operation.updateProfile caller profile now).program mb =
        .call (.getActor name) next ∧ (next none).Uses LooksUp ∧
      ∀ actor, next (some actor) =
        .call (.putActor { actor with profile := profile, lastSeen := now.isoformat })
          fun _ => .ret (.actor { actor with profile := profile, lastSeen := now.isoformat }) := by
  change ∃ next, (Result.actor <$> mb.updateProfile caller profile now) = _ ∧ _
  unfold Mailbox.updateProfile Mailbox.requireActor
  rw [hlocal]
  exact ⟨_, rfl, Program.uses_raise _, fun actor => rfl⟩

lemma program_updateProfile_error {caller : String} (profile : JsonObject) (now : DateTime)
    {e : Raised} (hlocal : mb.local_ caller = .error e) :
    (Operation.updateProfile caller profile now).program mb = .raise e := by
  change (Result.actor <$> mb.updateProfile caller profile now) = _
  unfold Mailbox.updateProfile Mailbox.requireActor
  rw [hlocal]
  rfl

lemma stage_initial (i : ι) (hop : (ops i).ManagesNames) :
    Stage mb ops s₀ [] i ((ops i).program mb) := by
  cases hi : ops i with
  | join requestedName draw now =>
    refine .claiming _ ?_ (by simp [Quiet])
    rw [hi]
    exact claiming_join mb requestedName draw now
  | installResident name profile now =>
    obtain ⟨next, hprogram, hwon, hlost⟩ := program_installResident mb name profile now
    rw [hprogram]
    refine .installing _ next ?_ hwon hlost ?_
    · simp [hi, Operation.Creates]
    · simp [hi, Operation.IsJoin]
  | updateProfile caller profile now =>
    have hjoin : ¬ (ops i).IsJoin := by simp [hi, Operation.IsJoin]
    cases hlocal : mb.local_ caller with
    | error e =>
      rw [program_updateProfile_error mb profile now hlocal]
      exact .looking _ (Program.uses_raise _) hjoin
    | ok name =>
      obtain ⟨next, hprogram, hnone, hsome⟩ := program_updateProfile mb profile now hlocal
      rw [hprogram]
      exact .fetching caller name profile now next hi hlocal hnone hsome
  | _ => simp [hi, Operation.ManagesNames] at hop

end

/-! ## One call -/

section
variable {ι : Type} {mb : Mailbox} {ops : ι → Operation} {s₀ : InMemoryStore}

lemma granted_append (past : Past ι) (i j : ι) (c : StoreCall) (s : InMemoryStore)
    (actor : ActorRecord) : Granted (past ++ [(i, c, s)]) j actor ↔
      Granted past j actor ∨ (j = i ∧ c = .claimName actor ∧ actor.name ∉ s.actors) := by
  simp only [Granted, List.mem_append, List.mem_singleton, Prod.mk.injEq, or_and_right, exists_or]
  constructor
  · rintro (h | ⟨_, ⟨rfl, rfl, rfl⟩, hfree⟩)
    · exact Or.inl h
    · exact Or.inr ⟨rfl, rfl, hfree⟩
  · rintro (h | ⟨rfl, rfl, hfree⟩)
    · exact Or.inl h
    · exact Or.inr ⟨s, ⟨rfl, rfl, rfl⟩, hfree⟩

lemma quiet_append {past : Past ι} {i : ι} {c : StoreCall} {s : InMemoryStore}
    (h : Quiet past i) (hc : (InMemoryStore.handle c s).2 = s) : Quiet (past ++ [(i, c, s)]) i := by
  intro d t hd
  rcases List.mem_append.mp hd with hd | hd
  · exact h d t hd
  · simp only [List.mem_singleton, Prod.mk.injEq, true_and] at hd
    obtain ⟨rfl, rfl⟩ := hd
    exact hc

lemma Origin.append {past : Past ι} {name : String} {origin : ActorRecord}
    (h : Origin s₀ past name origin) (event : ι × StoreCall × InMemoryStore) :
    Origin s₀ (past ++ [event]) name origin := by
  obtain ⟨hname, hstart | ⟨i, s, hmem, hfree⟩⟩ := h
  · exact ⟨hname, Or.inl hstart⟩
  · exact ⟨hname, Or.inr ⟨i, s, List.mem_append_left _ hmem, hfree⟩⟩

/-- Another task's call does not change where this one stands. -/
lemma Stage.other {past : Past ι} {i j : ι} {p : StoreProgram Result} (hij : j ≠ i)
    (h : Stage mb ops s₀ past j p) (c : StoreCall) (s : InMemoryStore) :
    Stage mb ops s₀ (past ++ [(i, c, s)]) j p := by
  cases h with
  | claiming p hclaim hquiet =>
    refine .claiming p hclaim fun d t hd => ?_
    rcases List.mem_append.mp hd with hd | hd
    · exact hquiet d t hd
    · simp [hij] at hd
  | granted actor hgranted =>
    exact .granted actor ((granted_append _ _ _ _ _ _).mpr (.inl hgranted))
  | installing actor next hcreates hwon hlost hop =>
    exact .installing actor next hcreates hwon hlost hop
  | looking p hp hop => exact .looking p hp hop
  | fetching caller name profile now next hop hlocal hnone hsome =>
    exact .fetching caller name profile now next hop hlocal hnone hsome
  | putting actor origin next horigin hdescends hnext hop =>
    exact .putting actor origin next (horigin.append _) hdescends hnext hop

/-- What holds after any number of calls. -/
structure Registered (mb : Mailbox) (ops : ι → Operation) (s₀ : InMemoryStore)
    (cfg : Config messageStore Raised Result ι InMemoryStore) (past : Past ι) : Prop where
  entries : ∀ name actor, cfg.state.actors.lookup name = some actor →
    ∃ origin, Origin s₀ past name origin ∧ Descends mb ops origin actor
  kept : ∀ name ∈ s₀.actors, name ∈ cfg.state.actors
  grants : ∀ i actor, Granted past i actor →
    actor.name ∈ cfg.state.actors ∧ actor.name ∉ s₀.actors ∧ (ops i).Creates mb actor
  once : ∀ i j actor other, Granted past i actor → Granted past j other →
    actor.name = other.name → i = j ∧ actor = other
  stages : ∀ i, Stage mb ops s₀ past i (cfg.tasks i)

lemma Descends.refl (mb : Mailbox) (ops : ι → Operation) (actor : ActorRecord) :
    Descends mb ops actor actor := ⟨rfl, rfl, rfl, Or.inl ⟨rfl, rfl⟩⟩

/-- Before the first call. -/
lemma registered_start (hops : ∀ i, (ops i).ManagesNames) :
    Registered mb ops s₀ ⟨s₀, fun i => (ops i).program mb⟩ [] := by
  refine ⟨fun name actor hactor => ?_, fun _ h => h, fun i actor hgranted => ?_,
    fun i _ actor _ hgranted => ?_, fun i => stage_initial mb ops s₀ i (hops i)⟩
  · exact ⟨actor, ⟨s₀.actor_key name actor hactor, Or.inl hactor⟩, .refl mb ops actor⟩
  · simp [Granted] at hgranted
  · simp [Granted] at hgranted

section
variable {cfg : Config messageStore Raised Result ι InMemoryStore} {past : Past ι}
  (h : Registered mb ops s₀ cfg past)
include h

/-- A join that returns has been granted the name it returns. -/
lemma Registered.joined {i : ι} {actor : ActorRecord} (hjoin : (ops i).IsJoin)
    (htask : result? (cfg.tasks i) = some (.ok (.actor actor))) : Granted past i actor := by
  have hstage := h.stages i
  rw [(result?_ok_iff _ _).mp htask] at hstage
  cases hstage with
  | claiming _ hclaim => cases hclaim
  | granted _ hgranted => exact hgranted
  | looking _ _ hop => exact absurd hjoin hop

/-- A join that raises has refused its name and changed nothing. -/
lemma Registered.refused {i : ι} {e : Raised} (hjoin : (ops i).IsJoin)
    (htask : result? (cfg.tasks i) = some (.error e)) :
    (∃ m : MailboxError, e = .mailbox m ∧ m.errorClass = .nameUnavailable) ∧ Quiet past i := by
  have hstage := h.stages i
  rw [(result?_error_iff _ _).mp htask] at hstage
  cases hstage with
  | claiming _ hclaim hquiet =>
    cases hclaim with
    | refused m hm => exact ⟨⟨m, rfl, hm⟩, hquiet⟩
  | looking _ _ hop => exact absurd hjoin hop

/-- An entry goes back to the start, when nothing was granted under its name since, or to the
one grant of its name. -/
lemma Registered.entry {name : String} {actor : ActorRecord}
    (hactor : cfg.state.actors.lookup name = some actor) :
    ∃ origin, origin.name = name ∧ Descends mb ops origin actor ∧
      ((s₀.actors.lookup name = some origin ∧ ∀ i other, Granted past i other →
          other.name ≠ name) ∨
        ∃ i, Granted past i origin ∧ (ops i).Creates mb origin ∧
          ∀ j other, Granted past j other → other.name = name → j = i ∧ other = origin) := by
  obtain ⟨origin, ⟨hname, hsource⟩, hdescends⟩ := h.entries name actor hactor
  refine ⟨origin, hname, hdescends, ?_⟩
  rcases hsource with hfirst | ⟨i, hgranted⟩
  · refine Or.inl ⟨hfirst, fun i other hgranted heq => ?_⟩
    have hstored : other.name ∈ s₀.actors := by
      rw [heq]
      exact (Dict.mem_iff_lookup _ _).mpr ⟨origin, hfirst⟩
    exact (h.grants i other hgranted).2.1 hstored
  · refine Or.inr ⟨i, hgranted, (h.grants i origin hgranted).2.2, ?_⟩
    intro j other hother heq
    exact h.once j i other origin hother hgranted (heq.trans hname.symm)

end

/-- An update has fetched the record it is going to file anew. -/
lemma Registered.fetched {cfg : Config messageStore Raised Result ι InMemoryStore}
    {past : Past ι} (h : Registered mb ops s₀ cfg past) {i : ι} {caller name : String}
    {profile : JsonObject} {now : DateTime} (hop : ops i = .updateProfile caller profile now)
    (hlocal : mb.local_ caller = .ok name) {actor : ActorRecord}
    (hfound : cfg.state.actors.lookup name = some actor)
    (event : ι × StoreCall × InMemoryStore) :
    Stage mb ops s₀ (past ++ [event]) i
      (.call (.putActor { actor with profile := profile, lastSeen := now.isoformat })
        fun _ => .ret (.actor { actor with profile := profile, lastSeen := now.isoformat })) := by
  obtain ⟨origin, horigin, hdescends⟩ := h.entries name actor hfound
  have hname : actor.name = name := cfg.state.actor_key name actor hfound
  have hjoin : ¬ (ops i).IsJoin := by simp [hop, Operation.IsJoin]
  refine .putting _ origin _ ?_ ?_ (Program.uses_ret _) hjoin
  · rw [hname]
    exact horigin.append _
  · refine ⟨hdescends.name_eq, hdescends.type_eq, hdescends.created_eq, Or.inr ?_⟩
    exact ⟨i, caller, profile, now, hop, by rw [horigin.1, hlocal], rfl, rfl⟩

variable [DecidableEq ι]

/-- A call that grants nothing and writes no directory entry. -/
lemma Registered.idle {cfg : Config messageStore Raised Result ι InMemoryStore} {past : Past ι}
    (h : Registered mb ops s₀ cfg past) {i : ι} {c : StoreCall} {p : StoreProgram Result}
    (hstate : (InMemoryStore.handle c cfg.state).2 = cfg.state)
    (hgrant : ∀ actor, c = .claimName actor → actor.name ∈ cfg.state.actors)
    (hstage : Stage mb ops s₀ (past ++ [(i, c, cfg.state)]) i p) :
    Registered mb ops s₀
      ⟨(InMemoryStore.handle c cfg.state).2, Function.update cfg.tasks i p⟩
      (past ++ [(i, c, cfg.state)]) := by
  have hsame : ∀ j actor, Granted (past ++ [(i, c, cfg.state)]) j actor → Granted past j actor := by
    intro j actor hgranted
    rcases (granted_append _ _ _ _ _ _).mp hgranted with hgranted | ⟨_, hc, hfree⟩
    · exact hgranted
    · exact absurd (hgrant actor hc) hfree
  rw [hstate]
  refine ⟨fun name actor hactor => ?_, h.kept,
    fun j actor hg => h.grants j actor (hsame j actor hg),
    fun j k a b hj hk => h.once j k a b (hsame j a hj) (hsame k b hk), fun j => ?_⟩
  · obtain ⟨origin, horigin, hdescends⟩ := h.entries name actor hactor
    exact ⟨origin, horigin.append _, hdescends⟩
  · by_cases hj : j = i
    · subst hj
      simpa using hstage
    · simpa [hj] using (h.stages j).other hj c cfg.state

/-- A claim that finds the name free. -/
lemma Registered.claim {cfg : Config messageStore Raised Result ι InMemoryStore} {past : Past ι}
    (h : Registered mb ops s₀ cfg past) {i : ι} {actor : ActorRecord} {p : StoreProgram Result}
    (hcreates : (ops i).Creates mb actor) (hfree : actor.name ∉ cfg.state.actors)
    (hp : p = .ret (.actor actor)) :
    Registered mb ops s₀ ⟨cfg.state.putActor actor, Function.update cfg.tasks i p⟩
      (past ++ [(i, .claimName actor, cfg.state)]) := by
  have hnew : Granted (past ++ [(i, .claimName actor, cfg.state)]) i actor :=
    (granted_append _ _ _ _ _ _).mpr (.inr ⟨rfl, rfl, hfree⟩)
  have hcases : ∀ j other, Granted (past ++ [(i, .claimName actor, cfg.state)]) j other →
      Granted past j other ∨ (j = i ∧ other = actor) := by
    intro j other hgranted
    rcases (granted_append _ _ _ _ _ _).mp hgranted with hgranted | ⟨hj, hc, _⟩
    · exact Or.inl hgranted
    · exact Or.inr ⟨hj, (StoreCall.claimName.inj hc).symm⟩
  refine ⟨fun name found hfound => ?_, fun name hname => ?_, fun j other hgranted => ?_,
    fun j k a b hj hk hnames => ?_, fun j => ?_⟩
  · rw [InMemoryStore.putActor_actors, Dict.lookup_set] at hfound
    split_ifs at hfound with hname
    · cases hfound
      exact ⟨actor, ⟨hname.symm, Or.inr ⟨i, hnew⟩⟩, .refl mb ops actor⟩
    · obtain ⟨origin, horigin, hdescends⟩ := h.entries name found hfound
      exact ⟨origin, horigin.append _, hdescends⟩
  · rw [InMemoryStore.putActor_actors, Dict.mem_set]
    exact Or.inr (h.kept name hname)
  · rw [InMemoryStore.putActor_actors, Dict.mem_set]
    rcases hcases j other hgranted with hgranted | ⟨rfl, rfl⟩
    · obtain ⟨hmem, hstart, hc⟩ := h.grants j other hgranted
      exact ⟨Or.inr hmem, hstart, hc⟩
    · exact ⟨Or.inl rfl, fun hstart => hfree (h.kept _ hstart), hcreates⟩
  · have hfresh : ∀ l o, Granted past l o → o.name ≠ actor.name := by
      intro l o hgranted heq
      exact hfree (heq ▸ (h.grants l o hgranted).1)
    rcases hcases j a hj with hold | ⟨hji, ha⟩ <;> rcases hcases k b hk with hold' | ⟨hki, hb⟩
    · exact h.once j k a b hold hold' hnames
    · exact absurd (hb ▸ hnames) (hfresh j a hold)
    · exact absurd (ha ▸ hnames).symm (hfresh k b hold')
    · exact ⟨hji.trans hki.symm, ha.trans hb.symm⟩
  · by_cases hj : j = i
    · subst hj
      simpa [hp] using Stage.granted actor hnew
    · simpa [hj] using (h.stages j).other hj (.claimName actor) cfg.state

/-- Filing a record that goes back to the origin of its name. -/
lemma Registered.put {cfg : Config messageStore Raised Result ι InMemoryStore} {past : Past ι}
    (h : Registered mb ops s₀ cfg past) {i : ι} {actor origin : ActorRecord}
    {p : StoreProgram Result} (horigin : Origin s₀ past actor.name origin)
    (hdescends : Descends mb ops origin actor) (hp : p.Uses LooksUp) (hop : ¬ (ops i).IsJoin) :
    Registered mb ops s₀ ⟨cfg.state.putActor actor, Function.update cfg.tasks i p⟩
      (past ++ [(i, .putActor actor, cfg.state)]) := by
  have hsame : ∀ j other, Granted (past ++ [(i, .putActor actor, cfg.state)]) j other →
      Granted past j other := by
    intro j other hgranted
    rcases (granted_append _ _ _ _ _ _).mp hgranted with hgranted | ⟨_, hc, _⟩
    · exact hgranted
    · simp at hc
  refine ⟨fun name found hfound => ?_, fun name hname => ?_, fun j other hgranted => ?_,
    fun j k a b hj hk => h.once j k a b (hsame j a hj) (hsame k b hk), fun j => ?_⟩
  · rw [InMemoryStore.putActor_actors, Dict.lookup_set] at hfound
    split_ifs at hfound with hname
    · cases hfound
      subst hname
      exact ⟨origin, horigin.append _, hdescends⟩
    · obtain ⟨origin, horigin, hdescends⟩ := h.entries name found hfound
      exact ⟨origin, horigin.append _, hdescends⟩
  · rw [InMemoryStore.putActor_actors, Dict.mem_set]
    exact Or.inr (h.kept name hname)
  · obtain ⟨hmem, hrest⟩ := h.grants j other (hsame j other hgranted)
    rw [InMemoryStore.putActor_actors, Dict.mem_set]
    exact ⟨Or.inr hmem, hrest⟩
  · by_cases hj : j = i
    · subst hj
      simpa using Stage.looking p hp hop
    · simpa [hj] using (h.stages j).other hj (.putActor actor) cfg.state

/-- A claim, granted or not. -/
lemma Registered.tryClaim {cfg : Config messageStore Raised Result ι InMemoryStore}
    {past : Past ι} (h : Registered mb ops s₀ cfg past) {i : ι} {actor : ActorRecord}
    {next : Bool → StoreProgram Result} (hcreates : (ops i).Creates mb actor)
    (hwon : next true = .ret (.actor actor))
    (hlost : actor.name ∈ cfg.state.actors →
      Stage mb ops s₀ (past ++ [(i, .claimName actor, cfg.state)]) i (next false)) :
    Registered mb ops s₀ ⟨(cfg.state.claimName actor).2,
      Function.update cfg.tasks i (next (cfg.state.claimName actor).1)⟩
      (past ++ [(i, .claimName actor, cfg.state)]) := by
  by_cases hfree : actor.name ∈ cfg.state.actors
  · have hrefused : cfg.state.claimName actor = (false, cfg.state) := if_pos hfree
    have hstate : (InMemoryStore.handle (.claimName actor) cfg.state).2 = cfg.state :=
      congrArg Prod.snd hrefused
    have hidle := h.idle (i := i) (p := next false) hstate
      (fun other hother => by cases hother; exact hfree) (hlost hfree)
    rw [hstate] at hidle
    rw [hrefused]
    exact hidle
  · have hgranted : cfg.state.claimName actor = (true, cfg.state.putActor actor) := if_neg hfree
    rw [hgranted]
    exact h.claim hcreates hfree hwon

/-- Every call of a task keeps the directory registered. -/
lemma Registered.call {cfg : Config messageStore Raised Result ι InMemoryStore} {past : Past ι}
    (h : Registered mb ops s₀ cfg past) (i : ι) (c : StoreCall)
    (next : c.Answer → StoreProgram Result) (hi : cfg.tasks i = .call c next) :
    Registered mb ops s₀
      ⟨(InMemoryStore.handle c cfg.state).2,
        Function.update cfg.tasks i (next (InMemoryStore.handle c cfg.state).1)⟩
      (past ++ [(i, c, cfg.state)]) := by
  have hstage := h.stages i
  rw [hi] at hstage
  cases hstage with
  | claiming p hclaiming hquiet =>
    cases hclaiming with
    | claim actor next hcreates hwon hlost =>
      apply h.tryClaim hcreates hwon
      intro htaken
      apply Stage.claiming _ hlost (quiet_append hquiet _)
      exact congrArg Prod.snd (if_pos htaken : cfg.state.claimName actor = (false, cfg.state))
  | installing actor next hcreates hwon hlost hop =>
    exact h.tryClaim hcreates hwon fun _ => .looking _ hlost hop
  | looking p hp hop =>
    obtain ⟨⟨name, rfl⟩, hnext⟩ := (Program.uses_call_iff _ _).mp hp
    exact h.idle rfl (fun actor hactor => by cases hactor) (.looking _ (hnext _) hop)
  | fetching caller name profile now next hop hlocal hnone hsome =>
    refine h.idle rfl (fun actor hactor => by cases hactor) ?_
    change Stage mb ops s₀ _ i (next (cfg.state.actors.lookup name))
    cases hfound : cfg.state.actors.lookup name with
    | none => exact .looking _ hnone (by simp [hop, Operation.IsJoin])
    | some actor =>
      rw [hsome]
      exact h.fetched hop hlocal hfound _
  | putting actor origin next horigin hdescends hnext hop =>
    exact h.put horigin hdescends hnext hop

/-! ## Whole runs -/

/-- However the calls of joins, profile updates and installations are interleaved: the
names returned by different joins differ; a join that raises has refused the name and
changed nothing; and every entry is the record that one join or installation created
when it was granted the name, or that was there from the start, modified at most by
updates made under that name. -/
theorem names_unique_under_concurrency (mb : Mailbox) (ops : ι → Operation)
    (hops : ∀ i, (ops i).ManagesNames) (s₀ : InMemoryStore) (schedule : List ι) :
    let start : Config messageStore Raised Result ι InMemoryStore :=
      ⟨s₀, fun i => (ops i).program mb⟩
    let final := run InMemoryStore.handle start schedule
    let past := trace InMemoryStore.handle start schedule
    (∀ i j actor other, (ops i).IsJoin → (ops j).IsJoin → i ≠ j →
      result? (final.tasks i) = some (.ok (.actor actor)) →
      result? (final.tasks j) = some (.ok (.actor other)) → actor.name ≠ other.name) ∧
    (∀ i e, (ops i).IsJoin → result? (final.tasks i) = some (.error e) →
      (∃ m : MailboxError, e = .mailbox m ∧ m.errorClass = .nameUnavailable) ∧
        Quiet past i) ∧
    ∀ name actor, final.state.actors.lookup name = some actor →
      ∃ origin, origin.name = name ∧ Descends mb ops origin actor ∧
        ((s₀.actors.lookup name = some origin ∧ ∀ i other, Granted past i other →
            other.name ≠ name) ∨
          ∃ i, Granted past i origin ∧ (ops i).Creates mb origin ∧
            ∀ j other, Granted past j other → other.name = name → j = i ∧ other = origin) := by
  intro start final past
  have hfinal : Registered mb ops s₀ final past := by
    have hrun := run_trace_invariant (I := Registered mb ops s₀)
      (fun cfg past i c next h hi => h.call i c next hi) start [] schedule (registered_start hops)
    simpa using hrun
  refine ⟨fun i j actor other hi hj hij htask htask' hnames => ?_,
    fun i e hi htask => hfinal.refused hi htask, fun name actor => hfinal.entry⟩
  have hgranted := hfinal.joined hi htask
  have hgranted' := hfinal.joined hj htask'
  exact hij (hfinal.once i j actor other hgranted hgranted' hnames).1

end

/-- Two joins under spellings of one name, and an update under that name. -/
def aliceTasks : Fin 3 → Operation
  | 0 => joinAs "alice"
  | 1 => joinAs "Alice"
  | 2 => .updateProfile "alice" (Dict.ofList [("purpose", .str "tests")]) (january 2)

/-- The second join, made between the two calls of the update, is refused and has changed
nothing. -/
theorem second_alice_changes_nothing :
    Quiet (trace InMemoryStore.handle
      (⟨.empty, fun i => (aliceTasks i).program asciiMailbox⟩ :
        Config messageStore Raised Result (Fin 3) InMemoryStore) [0, 2, 1, 2]) 1 := by
  have hops : ∀ i, (aliceTasks i).ManagesNames := by
    intro i
    match i with
    | 0 | 1 | 2 => trivial
  have hunique := names_unique_under_concurrency asciiMailbox aliceTasks hops .empty [0, 2, 1, 2]
  exact (hunique.2.1 1 (.mailbox (.nameTaken "alice")) trivial (by decide +kernel)).2

end AgentMailbox
