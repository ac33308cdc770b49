import AgentMailbox.Interchange

/-!
# The same over both stores

A run of operations comes to the same over the dictionaries and over SQLite, call by call, as
long as nothing comes between an operation and its store; and where something does, it shows.
-/
namespace AgentMailbox

/-! ## What comes between shows -/

/-- Over SQLite the program ends in an exception, and not over the dictionaries in the same. -/
def Differs {α : Type} (engine : Engine) (p : StoreProgram α) (s : InMemoryStore) : Prop :=
  p.wp (InMemoryStore.specification engine) (fun x _ => ∃ e, x = .error e ∧ (runs p s).1 ≠ .error e)
    s

namespace Differs

section
variable {α β : Type} {engine : Engine} {s : InMemoryStore}

lemma map {p : StoreProgram α} (hp : Differs engine p s) (f : α → β) :
    Differs engine (f <$> p) s := by
  unfold Differs
  rw [Program.wp_map_iff, runs_map]
  refine Program.wp_mono hp fun x s' hdiffers => ?_
  obtain ⟨e, rfl, hother⟩ := hdiffers
  refine ⟨e, rfl, fun hsame => hother ?_⟩
  cases hdone : (runs p s).1 with
  | error e' =>
    simp only [hdone, Except.map, Except.error.injEq] at hsame
    rw [hsame]
  | ok a =>
    rw [hdone] at hsame
    cases hsame

/-- A difference that stops both sides. -/
lemma first {p : StoreProgram α} {f : α → StoreProgram β} (hp : Differs engine p s)
    {e₀ : Raised} (hstops : (runs p s).1 = .error e₀) : Differs engine (p >>= f) s := by
  have hpair : runs p s = (.error e₀, (runs p s).2) := Prod.ext hstops rfl
  have hdone : (runs (p >>= f) s).1 = .error e₀ := by rw [runs_bind, hpair]
  unfold Differs
  rw [Program.wp_bind_iff, hdone]
  refine Program.wp_mono hp fun x s' hdiffers => ?_
  obtain ⟨e, rfl, hother⟩ := hdiffers
  rw [hstops, ne_eq, Except.error.injEq] at hother
  exact (Program.next_error f _ e s').mpr ⟨e, rfl, fun hsame => hother (Except.error.inj hsame)⟩

/-- A difference after something that has only looked. -/
lemma later {p : StoreProgram α} {f : α → StoreProgram β} (hp : Follows engine True p s) {a : α}
    (hlooks : runs p s = (.ok a, s)) (hf : Differs engine (f a) s) :
    Differs engine (p >>= f) s := by
  have hdone : runs (p >>= f) s = runs (f a) s := by rw [runs_bind, hlooks]
  unfold Differs
  rw [Program.wp_bind_iff, hdone]
  refine Program.wp_mono hp fun x s' hcomes => ?_
  rcases hcomes with ⟨rfl, rfl⟩ | ⟨hbad, _⟩
  · rw [hlooks]
    exact hf
  · exact absurd trivial hbad

/-- A call that is refused, and after which a program over the dictionaries returns. -/
lemma refused {c : StoreCall} {f : c.Answer → StoreProgram β} (hjson : c.IsJson engine.floats)
    (hcreated : c.KeepsCreated s) (hrefused : c.Refused engine)
    (hreturns : ∃ b, (runs (MessageStore.ask c >>= f) s).1 = .ok b) :
    Differs engine (MessageStore.ask c >>= f) s := by
  obtain ⟨b, hb⟩ := hreturns
  unfold Differs
  rw [Program.wp_bind_iff, hb]
  refine (Program.wp_perform_iff (S := messageStore) c).mpr ⟨⟨hjson, hcreated⟩, ?_, ?_⟩
  · exact fun _ e => ⟨e, rfl, fun hsame => by cases hsame⟩
  · exact fun hnot => absurd hrefused hnot

/-- Each side complains of the profile it meets first. -/
lemma complaints {mb : Mailbox} {f : Context → StoreProgram β} (hagree : ¬ ComplaintsAgree s) :
    Differs engine (mb.context >>= f) s := by
  have hruns := runs_bind s mb.context f
  rw [Mailbox.runs_context] at hruns
  obtain ⟨e, he⟩ := firstComplaint_of_not_agree hagree
  apply wp_context
  · intro ctx ctx' hctx _
    obtain ⟨_, hmembers⟩ := (mb.contextIn_ok_iff s ctx).mp hctx
    have herror := (groupMemberships_error_iff mb.unicode _ _).mpr he
    rw [hmembers] at herror
    cases herror
  · intro e e' he he' hctx
    rw [hctx] at hruns
    rw [hruns]
    refine ⟨_, rfl, fun hsame => hagree ?_⟩
    rw [ComplaintsAgree, he, he', Except.error.inj hsame]

/-- A difference after the context, which is alike on both sides. -/
lemma context {mb : Mailbox} {f : Context → StoreProgram β} {ctx : Context}
    (hctx : mb.contextIn s = .ok ctx)
    (halike : ∀ ctx' : Context, ctx.Alike ctx' → f ctx' = f ctx)
    (hf : Differs engine (f ctx) s) : Differs engine (mb.context >>= f) s := by
  have hdone : runs (mb.context >>= f) s = runs (f ctx) s := by
    rw [runs_bind, Mailbox.runs_context, hctx]
  unfold Differs
  rw [hdone]
  apply wp_context
  · intro found ctx' hfound hsame
    cases hctx.symm.trans hfound
    rw [halike ctx' hsame]
    exact hf
  · intro e e' _ _ herror
    rw [hctx] at herror
    cases herror

end

end Differs

section
variable {engine : Engine} (mb : Mailbox) {s : InMemoryStore}

lemma exists_of_isOk {α : Type} {x : Except Raised α} (h : x.isOk = true) : ∃ a, x = .ok a := by
  cases x with
  | ok a => exact ⟨a, rfl⟩
  | error e => cases h

lemma differs_requireActor {α : Type} {f : ActorRecord → StoreProgram α} {caller : String}
    {actor : ActorRecord} (hactor : mb.actorIn s caller = .ok actor)
    (hf : Differs engine (f actor) s) : Differs engine (mb.requireActor caller >>= f) s := by
  apply Differs.later (follows_requireActor mb caller) _ hf
  rw [Mailbox.runs_requireActor, hactor]

lemma differs_ofExcept {α β : Type} {f : α → StoreProgram β} {x : Except Raised α} {a : α}
    (hx : x = .ok a) (hf : Differs engine (f a) s) : Differs engine (.ofExcept x >>= f) s := by
  rw [hx]
  exact hf

lemma differs_visibleObject (hagree : ¬ ComplaintsAgree s) {caller objectId : String}
    (hconsults : (Operation.view caller objectId).consultsGroups mb s = true) :
    Differs engine (mb.visibleObject caller objectId) s := by
  obtain ⟨hjoined, hstored⟩ := Bool.and_eq_true_iff.mp hconsults
  obtain ⟨actor, hactor⟩ := exists_of_isOk hjoined
  obtain ⟨obj, hobj⟩ := Option.isSome_iff_exists.mp hstored
  apply differs_requireActor mb hactor
  have hfound : runs (MessageStore.getObject objectId) s = (.ok (some obj), s) := by
    rw [runs_getObject, hobj]
  have hfollows : Follows engine True (MessageStore.getObject objectId) s :=
    Follows.ask_only (.getObject objectId) trivial trivial (fun _ => id) fun _ ha => ha.symm
  apply Differs.later hfollows hfound
  exact Differs.complaints hagree

lemma contextIn_unusable (hagree : ¬ ComplaintsAgree s) : ∃ e, mb.contextIn s = .error e := by
  obtain ⟨e, he⟩ := firstComplaint_of_not_agree hagree
  have hmembers := (groupMemberships_error_iff mb.unicode s.actors.values e).mpr he
  refine ⟨e, ?_⟩
  rw [Mailbox.contextIn, hmembers]
  rfl

/-- The memberships are not there for a message to be seen, either. -/
lemma visibleIn_unusable (hagree : ¬ ComplaintsAgree s) (caller objectId : String) :
    ∃ e, mb.visibleIn s caller objectId = .error e := by
  obtain ⟨e, he⟩ := contextIn_unusable mb hagree
  cases hvisible : mb.visibleIn s caller objectId with
  | error e => exact ⟨e, rfl⟩
  | ok obj =>
    obtain ⟨_, ctx, _, _, hctx, _⟩ := (mb.visibleIn_ok_iff s caller objectId obj).mp hvisible
    rw [he] at hctx
    cases hctx

lemma differs_send_complaints (hagree : ¬ ComplaintsAgree s) {caller : String} {draft : Draft}
    {stamp : Stamp} (hconsults : (Operation.send caller draft stamp).consultsGroups mb s = true) :
    Differs engine (mb.send caller draft stamp) s := by
  obtain ⟨hplaces, hcopies⟩ := Bool.and_eq_true_iff.mp hconsults
  obtain ⟨hjoined, hrecipients⟩ := Bool.and_eq_true_iff.mp hplaces
  obtain ⟨actor, hactor⟩ := exists_of_isOk hjoined
  obtain ⟨recipients, hrecipients⟩ := exists_of_isOk hrecipients
  obtain ⟨copies, hcopies⟩ := exists_of_isOk hcopies
  apply differs_requireActor mb hactor
  apply differs_ofExcept hrecipients
  apply differs_ofExcept hcopies
  exact Differs.complaints hagree

lemma differs_send_unwritable {caller : String} {draft : Draft} {stamp : Stamp}
    (hhands : (Operation.send caller draft stamp).handsOver mb s = true)
    (hjson : (Operation.send caller draft stamp).IsJson engine.floats)
    (hwritable : ¬ (Operation.send caller draft stamp).Writable) :
    Differs engine (mb.send caller draft stamp) s := by
  obtain ⟨hjoined, hknown⟩ := Bool.and_eq_true_iff.mp hhands
  obtain ⟨actor, hactor⟩ := exists_of_isOk hjoined
  split at hknown
  case h_2 => cases hknown
  case h_1 recipients copies ctx hrecipients hcopies hctx =>
    have hmissing := of_decide_eq_true hknown
    apply differs_requireActor mb hactor
    apply differs_ofExcept hrecipients
    apply differs_ofExcept hcopies
    apply Differs.context hctx
    · intro ctx' halike
      simp only [halike.rejectUnknownRecipients_eq, halike.compose_eq, Mailbox.attach,
        halike.mayAttachTo_eq]
    · apply differs_ofExcept (x := Mailbox.rejectUnknownRecipients (recipients ++ copies) ctx)
        (if_pos hmissing)
      apply Differs.later (follows_attach ctx _ _) (Mailbox.runs_attach s ctx _ _)
      apply Differs.refused (c := .addObject _) _ trivial _ ⟨_, rfl⟩
      · exact compose_isJson ctx actor.name recipients copies _ stamp hjson
      · exact fun hwrites => hwritable ((compose_writable_iff _ _ _ _ _ draft stamp).mp hwrites)

/-- Where the groups are asked for, the order of the directory shows. -/
lemma differs_complaints {op : Operation} (hagree : ¬ ComplaintsAgree s)
    (hconsults : op.consultsGroups mb s = true) : Differs engine (op.program mb) s := by
  cases op with
  | join | whois | directory | updateProfile | installResident | expire => cases hconsults
  | send caller draft stamp => exact (differs_send_complaints mb hagree hconsults).map _
  | reply caller objectId body subject stamp =>
    obtain ⟨e, he⟩ := visibleIn_unusable mb hagree caller objectId
    have hstops : (runs (mb.visibleObject caller objectId) s).1 = .error e := by
      rw [Mailbox.runs_visibleObject, he]
    apply Differs.map
    exact Differs.first (differs_visibleObject mb hagree hconsults) hstops
  | peek caller =>
    obtain ⟨actor, hactor⟩ := exists_of_isOk hconsults
    exact (differs_requireActor mb hactor (Differs.complaints hagree)).map _
  | unreadCount caller =>
    obtain ⟨actor, hactor⟩ := exists_of_isOk hconsults
    obtain ⟨e, he⟩ := contextIn_unusable mb hagree
    have hpeek : Differs engine (mb.peek caller) s :=
      differs_requireActor mb hactor (Differs.complaints hagree)
    have hstops : (runs (mb.peek caller) s).1 = .error e := by
      rw [Mailbox.runs_peek, Mailbox.unreadIn, hactor, ok_bind, he, error_bind]
    apply Differs.map
    exact Differs.first hpeek hstops
  | thread caller rootId =>
    obtain ⟨actor, hactor⟩ := exists_of_isOk hconsults
    exact (differs_requireActor mb hactor (Differs.complaints hagree)).map _
  | read caller objectId now =>
    obtain ⟨e, he⟩ := visibleIn_unusable mb hagree caller objectId
    obtain ⟨actor, hactor⟩ := exists_of_isOk (Bool.and_eq_true_iff.mp hconsults).1
    have hstops : (runs (mb.visibleObject caller objectId) s).1 = .error e := by
      rw [Mailbox.runs_visibleObject, he]
    apply Differs.map
    apply differs_requireActor mb hactor
    exact Differs.first (differs_visibleObject mb hagree hconsults) hstops
  | view caller objectId => exact (differs_visibleObject mb hagree hconsults).map _

/-- Where something is handed over that cannot be written, SQLite shows. -/
lemma differs_unwritable {op : Operation} (hjson : op.IsJson engine.floats)
    (hwritable : ¬ op.Writable) (hhands : op.handsOver mb s = true) :
    Differs engine (op.program mb) s := by
  cases op with
  | updateProfile caller profile now =>
    obtain ⟨actor, hactor⟩ := exists_of_isOk hhands
    apply Differs.map
    apply differs_requireActor mb hactor
    apply Differs.refused
      (c := .putActor { actor with profile := profile, lastSeen := now.isoformat })
      hjson _ hwritable ⟨_, rfl⟩
    intro old hold
    have hstored := ((mb.actorIn_ok_iff s caller actor).mp hactor).2
    have hsame : some actor = some old := hstored.symm.trans hold
    rw [Option.some.inj hsame]
  | installResident name profile now =>
    apply Differs.map
    apply Differs.refused
      (c := .claimName { Mailbox.newActor name now with profile := profile }) hjson trivial
      hwritable
    obtain ⟨result, hresult⟩ := installResident_ok mb s name profile now
    rw [Operation.step_eq_runs, Operation.program, runs_map] at hresult
    show ∃ b, (runs (Mailbox.installResident name profile now) s).1 = .ok b
    cases hdone : (runs (Mailbox.installResident name profile now) s).1 with
    | ok actor => exact ⟨actor, rfl⟩
    | error e =>
      rw [hdone] at hresult
      cases hresult
  | send caller draft stamp => exact (differs_send_unwritable mb hhands hjson hwritable).map _
  | join | whois | directory | reply | peek | unreadCount | read | thread | view | expire =>
    cases hhands

/-- An operation between which and the store something comes shows it. -/
lemma differs_program {op : Operation} (hjson : op.IsJson engine.floats)
    (hbad : ¬ op.Interchangeable mb s) : Differs engine (op.program mb) s := by
  by_cases hwrites : op.handsOver mb s = true → op.Writable
  · have hagree : ¬ (op.consultsGroups mb s = true → ComplaintsAgree s) :=
      fun hagree => hbad ⟨hwrites, hagree⟩
    obtain ⟨hconsults, hdisagree⟩ := Classical.not_imp.mp hagree
    exact differs_complaints mb hdisagree hconsults
  · obtain ⟨hhands, hunwritable⟩ := Classical.not_imp.mp hwrites
    exact differs_unwritable mb hjson hunwritable hhands

end

/-! ## Runs over both stores -/

lemma sameOutcome_error {x : Except Raised Result} {e : Raised} (h : SameOutcome x (.error e)) :
    x = .error e := by
  cases x with
  | error e' => exact congrArg Except.error (Except.error.inj h)
  | ok result => cases h

/-- Over both stores every call of the run comes to the same. -/
def SameResults (engine : Engine) (mb : Mailbox) :
    List Operation → InMemoryStore → RowConnection → Prop
  | [], _, _ => True
  | op :: ops, s, rows => SameOutcome (op.step mb s).1 (op.stepSqlite engine mb rows).1 ∧
    SameResults engine mb ops (op.step mb s).2 (op.stepSqlite engine mb rows).2

instance SameResults.decidable (engine : Engine) (mb : Mailbox) : (ops : List Operation) →
    (s : InMemoryStore) → (rows : RowConnection) → Decidable (SameResults engine mb ops s rows)
  | [], _, _ => isTrue trivial
  | op :: ops, s, rows =>
    have := SameResults.decidable engine mb ops (op.step mb s).2 (op.stepSqlite engine mb rows).2
    inferInstanceAs (Decidable (SameOutcome _ _ ∧ SameResults engine mb ops _ _))

section
variable {engine : Engine} {mb : Mailbox} {op : Operation} {s : InMemoryStore}
  {rows : RowConnection}

/-- While the order of the directory does not show and all can be written, one step does over
both stores the same. -/
lemma step_alike (hrep : SqliteStore.Represents engine s rows) (hjson : op.IsJson engine.floats)
    (hbound : s.objectList.length < engine.maxVariables) (hgood : op.Interchangeable mb s) :
    SameOutcome (op.step mb s).1 (op.stepSqlite engine mb rows).1 ∧
      SqliteStore.Represents engine (op.step mb s).2 (op.stepSqlite engine mb rows).2 := by
  obtain ⟨s', hrep', ⟨hsame, rfl⟩ | ⟨hbad, _⟩⟩ := stepSqlite_carriedOut mb hrep hjson
  · exact ⟨hsame, hrep'⟩
  · exact absurd ⟨hgood, hbound.le⟩ hbad

/-- Otherwise the step shows what it runs over. -/
lemma interchangeable_of_same (hrep : SqliteStore.Represents engine s rows)
    (hjson : op.IsJson engine.floats)
    (hsame : SameOutcome (op.step mb s).1 (op.stepSqlite engine mb rows).1) :
    op.Interchangeable mb s := by
  by_contra hbad
  unfold Operation.stepSqlite at hsame
  rw [exec_statements] at hsame
  obtain ⟨s', _, e, he, hother⟩ :=
    (SqliteStore.backend_meets_port engine).exec hrep (differs_program mb hjson hbad)
  rw [he] at hsame
  exact hother (sameOutcome_error hsame)

lemma same_results_iff {ops : List Operation} (hrep : SqliteStore.Represents engine s rows)
    (hjson : ∀ op ∈ ops, op.IsJson engine.floats)
    (hbound : Throughout mb (fun _ s => s.objectList.length < engine.maxVariables) s ops) :
    SameResults engine mb ops s rows ↔
      Throughout mb (fun op s => op.Interchangeable mb s) s ops := by
  induction ops generalizing s rows with
  | nil => exact Iff.rfl
  | cons op ops ih =>
    have hop := hjson op List.mem_cons_self
    have hrest : ∀ op ∈ ops, op.IsJson engine.floats :=
      fun op hmem => hjson op (List.mem_cons_of_mem _ hmem)
    show _ ∧ _ ↔ _ ∧ _
    constructor
    · rintro ⟨hsame, hlater⟩
      have hgood := interchangeable_of_same hrep hop hsame
      obtain ⟨_, hrep'⟩ := step_alike hrep hop hbound.1 hgood
      exact ⟨hgood, (ih hrep' hrest hbound.2).mp hlater⟩
    · rintro ⟨hgood, hlater⟩
      obtain ⟨hsame, hrep'⟩ := step_alike hrep hop hbound.1 hgood
      exact ⟨hsame, (ih hrep' hrest hbound.2).mpr hlater⟩

end

/-- Started empty, a run of operations comes to the same over the dictionaries and over SQLite
if and only if it hands over nothing that cannot be written and never lets the order of the
directory show. -/
theorem storage_does_not_matter_iff (engine : Engine) (mb : Mailbox) (ops : List Operation)
    (hjson : ∀ op ∈ ops, op.IsJson engine.floats)
    (hbound : Throughout mb (fun _ s => s.objectList.length < engine.maxVariables) .empty ops) :
    SameResults engine mb ops .empty (.opened .empty) ↔
      Throughout mb (fun op s => op.Interchangeable mb s) .empty ops :=
  same_results_iff (SqliteStore.represents_empty engine) hjson hbound

/-- A group, a message to it, its reading and an answer. -/
def groupLetter : List Operation :=
  [joinAs "bob", joinAs "alice", .join none firstDraw (january 1),
    .updateProfile "alice" (Dict.ofList [("groups", .arr [.str "tools"])]) (january 2),
    .send "bob" { to_ := .one "tools", body := "hi" } ⟨"m1", january 2⟩, .peek "alice",
    .read "alice" "m1" (january 3), .reply "alice" "m1" "hello" none ⟨"m2", january 3⟩,
    .thread "bob" "m1", .unreadCount "bob", .view "bob" "m2", .whois "alice", .directory,
    .read "nobody" "m1" (january 4), .expire (january 9)]

theorem group_letter_alike :
    SameResults plainEngine asciiMailbox groupLetter .empty (.opened .empty) := by
  apply (storage_does_not_matter_iff plainEngine asciiMailbox groupLetter _ _).mpr
  · decide +kernel
  · decide +kernel
  · decide +kernel

/-- Bob, who joined before alice, carries a number for groups, and alice a truth value. -/
def twoUnusable : List Operation :=
  [joinAs "bob", joinAs "alice",
    .updateProfile "bob" (Dict.ofList [("groups", .int 5)]) (january 2),
    .updateProfile "alice" (Dict.ofList [("groups", .bool true)]) (january 2), .peek "bob"]

/-- Peeking complains of an int over the dictionaries, and of a bool over SQLite. -/
theorem complaints_differ :
    (∀ op ∈ twoUnusable, op.IsJson plainEngine.floats) ∧
      Throughout asciiMailbox (fun _ s => s.objectList.length < plainEngine.maxVariables) .empty
        twoUnusable ∧
      ¬ SameResults plainEngine asciiMailbox twoUnusable .empty (.opened .empty) := by
  refine ⟨by decide +kernel, by decide +kernel, by decide +kernel⟩

end AgentMailbox
