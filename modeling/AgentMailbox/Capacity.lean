import AgentMailbox.Expiry
import AgentMailbox.Indifference
import AgentMailbox.Secrecy

/-!
# As many messages as can be bound

A listing asks for the reads of every stored message in one statement, and an expiry deletes
all it dooms in one. SQLite binds so many parameters and no more: past that number the
operation raises, for every actor at once, where the store in memory goes on.
-/
namespace AgentMailbox

/-- Reached from an empty database by operations that hand over JSON values and whose
surroundings keep their promises. -/
inductive SqliteReachable (engine : Engine) (mb : Mailbox) : RowConnection → Prop
  | opened : SqliteReachable engine mb (.opened .empty)
  | step {rows : RowConnection} (op : Operation) (hrows : SqliteReachable engine mb rows)
    (hjson : op.IsJson engine.floats)
    (hop : ∀ s, SqliteStore.Represents engine s rows → op.Admissible s) :
    SqliteReachable engine mb (op.stepSqlite engine mb rows).2

/-- The rows hold what some run over the dictionaries leads to. -/
theorem SqliteReachable.represents {engine : Engine} {mb : Mailbox} {rows : RowConnection}
    (h : SqliteReachable engine mb rows) :
    ∃ s, Reachable mb s ∧ SqliteStore.Represents engine s rows := by
  induction h with
  | opened => exact ⟨.empty, .empty, SqliteStore.represents_empty engine⟩
  | @step rows op _ hjson hop ih =>
    obtain ⟨s, hs, hrep⟩ := ih
    obtain ⟨s', hrep', ⟨_, rfl⟩ | ⟨_, _, rfl⟩⟩ := stepSqlite_carriedOut mb hrep hjson
    · exact ⟨_, .step op hs (hop s hrep), hrep'⟩
    · exact ⟨s', hs, hrep'⟩

/-- What nothing comes between leads on to rows that hold what the dictionaries hold. -/
lemma SqliteReachable.smooth {engine : Engine} {mb : Mailbox} {s : InMemoryStore}
    {rows : RowConnection} (hrows : SqliteReachable engine mb rows)
    (hrep : SqliteStore.Represents engine s rows) {op : Operation}
    (hjson : op.IsJson engine.floats)
    (hop : ∀ s, SqliteStore.Represents engine s rows → op.Admissible s)
    (hsmooth : op.Smooth engine mb s) : ∃ rows', SqliteReachable engine mb rows' ∧
      SqliteStore.Represents engine (op.step mb s).2 rows' := by
  obtain ⟨s', hrep', ⟨_, rfl⟩ | ⟨hbad, _⟩⟩ := stepSqlite_carriedOut mb hrep hjson
  · exact ⟨_, hrows.step op hjson hop, hrep'⟩
  · exact absurd hsmooth hbad

/-- The rows of messages bear the ids of the messages. -/
lemma represents_mem {engine : Engine} {s : InMemoryStore} {rows : RowConnection}
    (h : SqliteStore.Represents engine s rows) (id : String) :
    id ∈ s.objects ↔ id ∈ rows.working.objects := by
  obtain ⟨conn, hmirrors, hspells, _⟩ := h
  rw [hspells.objects.mem_iff, hmirrors.objects.mem_iff]

/-- There are as many rows as messages. -/
lemma represents_length {engine : Engine} {s : InMemoryStore} {rows : RowConnection}
    (h : SqliteStore.Represents engine s rows) :
    s.objectList.length = rows.working.objects.keys.length := by
  obtain ⟨conn, hmirrors, hspells, _⟩ := h
  have hkeys := hspells.objects.keys_perm.trans hmirrors.objects.keys_perm
  have hnodup : s.objects.keys.Nodup := s.objects.nodupKeys
  rw [s.objectList_length, List.toFinset_card_of_nodup hnodup, hkeys.length_eq]

section
variable {engine : Engine} {mb : Mailbox} {s : InMemoryStore} {rows : RowConnection}

lemma complaintsAgree_of_context {ctx : Context} (h : mb.contextIn s = .ok ctx) :
    ComplaintsAgree s := by
  by_contra hnot
  obtain ⟨e, he⟩ := contextIn_unusable mb hnot
  rw [h] at he
  cases he

/-- A difference before something that returns over the dictionaries. -/
lemma Differs.further {α β : Type} {p : StoreProgram α} {f : α → StoreProgram β}
    (hp : Differs engine p s) (hreturns : ∃ a, (runs p s).1 = .ok a)
    (hf : ∀ a, ∃ b, (runs (f a) (runs p s).2).1 = .ok b) : Differs engine (p >>= f) s := by
  obtain ⟨a, ha⟩ := hreturns
  obtain ⟨b, hb⟩ := hf a
  have hpair : runs p s = (.ok a, (runs p s).2) := Prod.ext ha rfl
  have hdone : (runs (p >>= f) s).1 = .ok b := by rw [runs_bind, hpair, ← hb]
  unfold Differs
  rw [Program.wp_bind_iff, hdone]
  refine Program.wp_mono hp fun x s' hdiffers => ?_
  obtain ⟨e, rfl, _⟩ := hdiffers
  exact (Program.next_error f _ e s').mpr ⟨e, rfl, fun hsame => by cases hsame⟩

/-- Past the bound a listing raises, although it would return over the dictionaries. -/
lemma differs_peek {caller : String} {actor : ActorRecord} {ctx : Context}
    (hactor : mb.actorIn s caller = .ok actor) (hctx : mb.contextIn s = .ok ctx)
    (hmany : engine.maxVariables < s.objectList.length) : Differs engine (mb.peek caller) s := by
  apply differs_requireActor mb hactor
  apply Differs.context hctx
  · intro ctx' halike
    simp only [halike.unread_eq]
  · have hlists : Follows engine True MessageStore.objects s :=
      Follows.ask_only .objects trivial trivial (fun _ => id) fun _ ha => ha.symm
    apply Differs.later hlists (runs_objects s)
    apply Differs.refused (c := .readsOf (s.objectList.map ObjectRecord.id)) trivial trivial
    · show engine.maxVariables < _
      rwa [List.length_map]
    · exact ⟨_, rfl⟩

/-- Past the bound an expiry raises. -/
lemma differs_expire {now : DateTime} {doomed : Finset String} (hdays : 0 < mb.retentionDays)
    (hdoomed : mb.doomedIn s now = .ok doomed) (hmany : engine.maxVariables < doomed.card) :
    Differs engine (mb.expire now) s := by
  unfold Mailbox.doomedIn at hdoomed
  unfold Mailbox.expire
  rw [if_neg (not_le.mpr hdays)]
  cases hcutoff : mb.cutoff now with
  | error e => simp [hcutoff] at hdoomed
  | ok cutoff =>
    simp only [hcutoff, ok_bind, except_pure, Except.ok.injEq] at hdoomed
    have hlists : Follows engine True MessageStore.objects s :=
      Follows.ask_only .objects trivial trivial (fun _ => id) fun _ ha => ha.symm
    apply differs_ofExcept rfl
    apply Differs.later hlists (runs_objects s)
    have hnonempty : expiredObjectIds s.objectList cutoff.isoformat ≠ ∅ := by
      rw [hdoomed]
      rintro rfl
      simp at hmany
    show Differs engine (if expiredObjectIds s.objectList cutoff.isoformat = ∅ then _ else _) s
    rw [if_neg hnonempty, hdoomed]
    show Differs engine (MessageStore.ask (.removeObjects (Sorting.sorted doomed)) >>= pure) s
    apply Differs.refused (c := .removeObjects (Sorting.sorted doomed)) trivial trivial
    · show engine.maxVariables < _
      rwa [Sorting.length_sorted]
    · exact ⟨_, rfl⟩

/-- What differs over SQLite raises there. -/
lemma raises_of_differs {op : Operation} (hrep : SqliteStore.Represents engine s rows)
    (h : Differs engine (op.program mb) s) : ∃ e, (op.stepSqlite engine mb rows).1 = .error e ∧
      (op.step mb s).1 ≠ .error e := by
  unfold Operation.stepSqlite
  rw [exec_statements]
  obtain ⟨_, _, e, he, hother⟩ := (SqliteStore.backend_meets_port engine).exec hrep h
  exact ⟨e, he, hother⟩

/-- What follows the dictionaries does over SQLite as over them. -/
lemma step_of_follows {op : Operation} (hrep : SqliteStore.Represents engine s rows)
    (h : Follows engine True (op.program mb) s) :
    (op.stepSqlite engine mb rows).1 = (op.step mb s).1 ∧
      SqliteStore.Represents engine (op.step mb s).2 (op.stepSqlite engine mb rows).2 := by
  unfold Operation.stepSqlite
  rw [exec_statements]
  obtain ⟨s', hrep', ⟨hsame, rfl⟩ | ⟨hbad, _⟩⟩ :=
    (SqliteStore.backend_meets_port engine).exec hrep h
  · exact ⟨hsame, hrep'⟩
  · exact absurd trivial hbad

/-- A listing comes to the same over both stores exactly when all that is stored can be bound. -/
lemma peek_iff_bound (hrep : SqliteStore.Represents engine s rows) {caller : String}
    {actor : ActorRecord} {ctx : Context} (hactor : mb.actorIn s caller = .ok actor)
    (hctx : mb.contextIn s = .ok ctx) :
    ((Operation.peek caller).stepSqlite engine mb rows).1 = ((Operation.peek caller).step mb s).1 ↔
      s.objectList.length ≤ engine.maxVariables := by
  constructor
  · intro hsame
    by_contra hmany
    have hdiffers : Differs engine ((Operation.peek caller).program mb) s :=
      (differs_peek hactor hctx (not_le.mp hmany)).map _
    obtain ⟨e, he, hother⟩ := raises_of_differs hrep hdiffers
    exact hother (hsame.symm.trans he)
  · intro hbound
    have hfollows : Follows engine True (mb.peek caller) s :=
      follows_peek mb (fun _ _ => complaintsAgree_of_context hctx) fun _ => hbound
    have hprogram : Follows engine True ((Operation.peek caller).program mb) s := hfollows.map _
    exact (step_of_follows hrep hprogram).1

/-- So does counting what is waiting. -/
lemma unreadCount_iff_bound (hrep : SqliteStore.Represents engine s rows) {caller : String}
    {actor : ActorRecord} {ctx : Context} (hactor : mb.actorIn s caller = .ok actor)
    (hctx : mb.contextIn s = .ok ctx) :
    ((Operation.unreadCount caller).stepSqlite engine mb rows).1 =
        ((Operation.unreadCount caller).step mb s).1 ↔
      s.objectList.length ≤ engine.maxVariables := by
  constructor
  · intro hsame
    by_contra hmany
    have hreturns : ∃ waiting, (runs (mb.peek caller) s).1 = .ok waiting := by
      simp [Mailbox.runs_peek, Mailbox.unreadIn, hactor, hctx]
    have hdiffers : Differs engine (mb.unreadCount caller) s :=
      Differs.further (differs_peek hactor hctx (not_le.mp hmany)) hreturns fun _ => ⟨_, rfl⟩
    have hprogram : Differs engine ((Operation.unreadCount caller).program mb) s := hdiffers.map _
    obtain ⟨e, he, hother⟩ := raises_of_differs hrep hprogram
    exact hother (hsame.symm.trans he)
  · intro hbound
    have hfollows : Follows engine True (mb.peek caller) s :=
      follows_peek mb (fun _ _ => complaintsAgree_of_context hctx) fun _ => hbound
    have hcounts : Follows engine True (mb.unreadCount caller) s :=
      Follows.bind hfollows (by rw [Mailbox.runs_peek]) fun _ _ => .pure _
    have hprogram : Follows engine True ((Operation.unreadCount caller).program mb) s :=
      hcounts.map _
    exact (step_of_follows hrep hprogram).1

/-- Past the bound an expiry raises over SQLite. -/
lemma expire_raises (hrep : SqliteStore.Represents engine s rows) {now : DateTime}
    {doomed : Finset String} (hdays : 0 < mb.retentionDays)
    (hdoomed : mb.doomedIn s now = .ok doomed) (hmany : engine.maxVariables < doomed.card) :
    ∃ e, ((Operation.expire now).stepSqlite engine mb rows).1 = .error e := by
  have hdiffers : Differs engine ((Operation.expire now).program mb) s :=
    (differs_expire hdays hdoomed hmany).map _
  obtain ⟨e, he, _⟩ := raises_of_differs hrep hdiffers
  exact ⟨e, he⟩

/-- Up to the bound an expiry does over SQLite as over the dictionaries. -/
lemma expire_alike (hrep : SqliteStore.Represents engine s rows) {now : DateTime}
    {doomed : Finset String} (hdoomed : mb.doomedIn s now = .ok doomed)
    (hbound : doomed.card ≤ engine.maxVariables) :
    ((Operation.expire now).stepSqlite engine mb rows).1 = ((Operation.expire now).step mb s).1 ∧
      SqliteStore.Represents engine ((Operation.expire now).step mb s).2
        ((Operation.expire now).stepSqlite engine mb rows).2 := by
  have hfollows : Follows engine True (mb.expire now) s := by
    refine follows_expire mb fun _ found hfound => ?_
    rw [hdoomed, Except.ok.injEq] at hfound
    rwa [← hfound, Sorting.length_sorted]
  have hprogram : Follows engine True ((Operation.expire now).program mb) s := hfollows.map _
  exact step_of_follows hrep hprogram

end

/-- Over SQLite, in every state a run leads to, peeking and counting answer a joined caller as
they do over the dictionaries exactly when no more messages are stored than can be bound, and
an expiry removes the idle conversations exactly when no more messages are idle than that. -/
theorem mailbox_works_iff_bound (engine : Engine) (mb : Mailbox) (hdays : 0 < mb.retentionDays)
    (rows : RowConnection) (hrows : SqliteReachable engine mb rows) :
    (∃ s, Reachable mb s ∧ SqliteStore.Represents engine s rows) ∧
    ∀ s, Reachable mb s → SqliteStore.Represents engine s rows →
      (∀ caller waiting, ((Operation.peek caller).step mb s).1 = .ok (.messages waiting) →
        (((Operation.peek caller).stepSqlite engine mb rows).1 = .ok (.messages waiting) ↔
          rows.working.objects.keys.length ≤ engine.maxVariables) ∧
        (((Operation.unreadCount caller).stepSqlite engine mb rows).1 =
            .ok (.count waiting.length) ↔
          rows.working.objects.keys.length ≤ engine.maxVariables)) ∧
      ∀ now cutoff, mb.cutoff now = .ok cutoff →
        ((∃ s', ExpiredBefore s cutoff.isoformat s' ∧
            ((Operation.expire now).stepSqlite engine mb rows).1 =
              .ok (.count (s.objects.keys.filter fun id => id ∉ s'.objects).length) ∧
            SqliteStore.Represents engine s'
              ((Operation.expire now).stepSqlite engine mb rows).2) ↔
          (expiredObjectIds s.objectList cutoff.isoformat).card ≤ engine.maxVariables) := by
  refine ⟨hrows.represents, fun s hs hrep =>
    ⟨fun caller waiting hwaiting => ?_, fun now cutoff hcutoff => ?_⟩⟩
  · rw [Operation.step_peek] at hwaiting
    obtain ⟨found, hlisted, hfound⟩ := map_eq_ok.mp hwaiting
    cases hfound
    obtain ⟨actor, ctx, hactor, hctx, _⟩ := Mailbox.unreadIn_ok hlisted
    have hpeek := peek_iff_bound hrep hactor hctx
    have hcount := unreadCount_iff_bound hrep hactor hctx
    rw [Operation.step_peek, hlisted] at hpeek
    rw [Operation.step_unreadCount, hlisted] at hcount
    rw [← represents_length hrep]
    exact ⟨hpeek, hcount⟩
  · have hdoomed : mb.doomedIn s now = .ok (expiredObjectIds s.objectList cutoff.isoformat) := by
      simp [Mailbox.doomedIn, hcutoff]
    have hexpire := expire_removes_idle_conversations mb hdays s hs now
    rw [hcutoff] at hexpire
    obtain ⟨s', hstep, hexpired, _⟩ := hexpire
    constructor
    · rintro ⟨_, _, hanswer, _⟩
      by_contra hmany
      obtain ⟨e, he⟩ := expire_raises hrep hdays hdoomed (not_le.mp hmany)
      rw [he] at hanswer
      cases hanswer
    · intro hbound
      obtain ⟨hanswer, hrep'⟩ := expire_alike hrep hdoomed hbound
      rw [hstep] at hanswer hrep'
      exact ⟨s', hexpired, hanswer, hrep'⟩

/-! ## More messages than can be bound -/

/-- As many letters as one likes bear different ids. -/
def letterId (n : ℕ) : String := String.ofList (List.replicate n 'a')

lemma letterId_injective : Function.Injective letterId := by
  intro m n h
  have hlist : List.replicate m 'a' = List.replicate n 'a' := String.ofList_injective h
  simpa using congrArg List.length hlist

/-- Alice writes to bob, who does not read. -/
def numberedLetter (n : ℕ) : Operation :=
  .send "alice" { to_ := .one "bob", body := "hello" } ⟨letterId n, january 2⟩

/-- After so many letters. -/
def filled : ℕ → InMemoryStore
  | 0 => after asciiMailbox .empty [joinAs "alice", joinAs "bob"]
  | n + 1 => ((numberedLetter n).step asciiMailbox (filled n)).2

/-- What sending needs of the directory is there from the beginning. -/
lemma filled_sendable : ∃ actor ctx, asciiMailbox.actorIn (filled 0) "alice" = .ok actor ∧
    asciiMailbox.contextIn (filled 0) = .ok ctx ∧ Mailbox.missingNames ["bob"] ctx = [] :=
  ⟨_, _, rfl, rfl, by decide +kernel⟩

lemma filled_step {n : ℕ} (hactors : (filled n).actors = (filled 0).actors) :
    ∃ obj, obj.id = letterId n ∧ (numberedLetter n).step asciiMailbox (filled n) =
      (.ok (.message obj), (filled n).addObject obj) := by
  obtain ⟨actor, ctx, hactor, hctx, hmissing⟩ := filled_sendable
  have hsent := (asciiMailbox.sendIn_ok_iff (filled n) "alice"
    { to_ := .one "bob", body := "hello" } ⟨letterId n, january 2⟩ _).mpr
    ⟨actor, ["bob"], [], ctx, by rw [asciiMailbox.actorIn_congr hactors, hactor], rfl, rfl,
      by rw [asciiMailbox.contextIn_congr hactors, hctx], hmissing, rfl⟩
  refine ⟨_, ?_, by rw [numberedLetter, Operation.step_send, hsent]; rfl⟩
  rfl

lemma filled_actors (n : ℕ) : (filled n).actors = (filled 0).actors := by
  induction n with
  | zero => rfl
  | succ n ih =>
    obtain ⟨obj, _, hstep⟩ := filled_step ih
    show ((numberedLetter n).step asciiMailbox (filled n)).2.actors = _
    rw [hstep]
    exact ih

lemma mem_filled (n : ℕ) (id : String) :
    id ∈ (filled n).objects ↔ ∃ i < n, letterId i = id := by
  induction n with
  | zero =>
    have hempty : (filled 0).objects = ∅ := by decide +kernel
    simp [hempty, AList.notMem_empty]
  | succ n ih =>
    obtain ⟨obj, hid, hstep⟩ := filled_step (filled_actors n)
    rw [filled, hstep, InMemoryStore.addObject_objects, Dict.mem_set, ih, hid]
    constructor
    · rintro (rfl | ⟨i, hi, rfl⟩)
      · exact ⟨n, Nat.lt_succ_self n, rfl⟩
      · exact ⟨i, hi.trans (Nat.lt_succ_self n), rfl⟩
    · rintro ⟨i, hi, rfl⟩
      rcases (Nat.lt_succ_iff_lt_or_eq.mp hi) with hlt | rfl
      · exact .inr ⟨i, hlt, rfl⟩
      · exact .inl rfl

lemma filled_length (n : ℕ) : (filled n).objectList.length = n := by
  have hkeys : (filled n).objects.keys.toFinset = (Finset.range n).image letterId := by
    ext id
    rw [List.mem_toFinset, ← AList.mem_keys, mem_filled]
    simp
  rw [InMemoryStore.objectList_length, hkeys, Finset.card_image_of_injective _ letterId_injective,
    Finset.card_range]

/-- The letters can be sent over SQLite, up to one more than can be bound. -/
lemma filled_stored (engine : Engine) {n : ℕ} (hn : n ≤ engine.maxVariables + 1) :
    ∃ rows, SqliteReachable engine asciiMailbox rows ∧
      SqliteStore.Represents engine (filled n) rows := by
  induction n with
  | zero =>
    have hjoins : ∀ s rows name, SqliteReachable engine asciiMailbox rows →
        SqliteStore.Represents engine s rows → s.objectList.length ≤ engine.maxVariables →
        ∃ rows', SqliteReachable engine asciiMailbox rows' ∧
          SqliteStore.Represents engine ((joinAs name).step asciiMailbox s).2 rows' := by
      intro s rows name hrows hrep hbound
      exact hrows.smooth hrep rfl (fun _ _ => trivial)
        ⟨⟨fun h => (by cases h), fun h => (by cases h)⟩, hbound⟩
    obtain ⟨rows, hrows, hrep⟩ := hjoins .empty _ "alice" .opened
      (SqliteStore.represents_empty engine) (Nat.zero_le _)
    have hempty : ((joinAs "alice").step asciiMailbox .empty).2.objectList.length = 0 := by
      decide +kernel
    exact hjoins _ rows "bob" hrows hrep (hempty ▸ Nat.zero_le _)
  | succ n ih =>
    obtain ⟨rows, hrows, hrep⟩ := ih (by omega)
    obtain ⟨_, ctx, _, hctx, _⟩ := filled_sendable
    have hlater : asciiMailbox.contextIn (filled n) = .ok ctx := by
      rw [asciiMailbox.contextIn_congr (filled_actors n), hctx]
    have hagree : ComplaintsAgree (filled n) := complaintsAgree_of_context hlater
    have hfresh : letterId n ∉ (filled n).objects := by
      rw [mem_filled]
      rintro ⟨i, hi, heq⟩
      exact absurd (letterId_injective heq) hi.ne
    refine hrows.smooth hrep rfl (fun s hs => ?_) ⟨⟨fun _ => rfl, fun _ => hagree⟩, ?_⟩
    · show letterId n ∉ s.objects
      rwa [represents_mem hs, ← represents_mem hrep]
    · rw [filled_length]
      omega

/-- With one letter stored, bob peeks at it over SQLite. -/
theorem one_letter_peeked : ∃ rows waiting, SqliteReachable plainEngine asciiMailbox rows ∧
    rows.working.objects.keys.length = 1 ∧
    ((Operation.peek "bob").stepSqlite plainEngine asciiMailbox rows).1 =
      .ok (.messages waiting) := by
  obtain ⟨rows, hrows, hrep⟩ := filled_stored plainEngine (n := 1) (by decide)
  have hlength : rows.working.objects.keys.length = 1 := by
    rw [← represents_length hrep, filled_length]
  have hreach : Reachable asciiMailbox (filled 1) :=
    .step (numberedLetter 0) (reachable_after .empty (by decide +kernel)) (by decide +kernel)
  obtain ⟨waiting, hwaiting⟩ : ∃ waiting,
      ((Operation.peek "bob").step asciiMailbox (filled 1)).1 = .ok (.messages waiting) := ⟨_, rfl⟩
  have hworks := (mailbox_works_iff_bound plainEngine asciiMailbox (by decide) rows hrows).2
    (filled 1) hreach hrep
  refine ⟨rows, waiting, hrows, hlength, ((hworks.1 "bob" waiting hwaiting).1).mpr ?_⟩
  rw [hlength]
  decide

/-- When one message more is stored than can be bound, nobody can peek. -/
theorem too_many_letters : ∃ s rows, SqliteReachable plainEngine asciiMailbox rows ∧
    SqliteStore.Represents plainEngine s rows ∧
    rows.working.objects.keys.length = plainEngine.maxVariables + 1 ∧
    (∃ waiting, ((Operation.peek "bob").step asciiMailbox s).1 = .ok (.messages waiting)) ∧
    ∃ e, ((Operation.peek "bob").stepSqlite plainEngine asciiMailbox rows).1 = .error e := by
  set n := plainEngine.maxVariables + 1 with hn
  obtain ⟨rows, hrows, hrep⟩ := filled_stored plainEngine (le_refl n)
  obtain ⟨_, ctx, _, hctx₀, _⟩ := filled_sendable
  have hctx : asciiMailbox.contextIn (filled n) = .ok ctx := by
    rw [asciiMailbox.contextIn_congr (filled_actors n), hctx₀]
  obtain ⟨actor, hactor₀⟩ : ∃ actor, asciiMailbox.actorIn (filled 0) "bob" = .ok actor := ⟨_, rfl⟩
  have hactor : asciiMailbox.actorIn (filled n) "bob" = .ok actor := by
    rw [asciiMailbox.actorIn_congr (filled_actors n), hactor₀]
  have hmany : plainEngine.maxVariables < (filled n).objectList.length := by
    rw [filled_length]
    exact Nat.lt_succ_self _
  refine ⟨filled n, rows, hrows, hrep, ?_, ?_, ?_⟩
  · rw [← represents_length hrep, filled_length]
  · exact ⟨_, by rw [Operation.step_peek, Mailbox.unreadIn, hactor, ok_bind, hctx]; rfl⟩
  · have hdiffers : Differs plainEngine ((Operation.peek "bob").program asciiMailbox) (filled n) :=
      (differs_peek hactor hctx hmany).map _
    obtain ⟨e, he, _⟩ := raises_of_differs hrep hdiffers
    exact ⟨e, he⟩

end AgentMailbox
