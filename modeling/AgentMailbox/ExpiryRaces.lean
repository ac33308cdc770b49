import AgentMailbox.Calls
import AgentMailbox.Invariants
import AgentMailbox.Library.Interleaving

/-!
# Expiry among concurrent sendings

A sending decides from one reading of the store whether it may attach, and stores
its message later. An expiry computes what is doomed from one listing, and removes it
later. Between the two halves other tasks run. Conversations stay whole exactly as
long as no message is on its way to a parent that is on its way out.
-/
namespace AgentMailbox

open Interleaving

/-- A message about to be stored, and the removal of the message it replies to. -/
def Collides : StoreCall → StoreCall → Prop
  | .addObject obj, .removeObjects ids => ∃ parent ∈ ids, obj.inReplyTo = some parent
  | _, _ => False

instance (adding removing : StoreCall) : Decidable (Collides adding removing) :=
  match adding, removing with
  | .addObject obj, .removeObjects ids =>
    List.decidableBEx (fun parent => obj.inReplyTo = some parent) ids
  | .claimName _, _ | .getActor _, _ | .putActor _, _ | .actors, _ | .getObject _, _
  | .objects, _ | .removeObjects _, _ | .markRead _, _ | .readsOf _, _ => isFalse id
  | .addObject _, .claimName _ | .addObject _, .getActor _ | .addObject _, .putActor _
  | .addObject _, .actors | .addObject _, .addObject _ | .addObject _, .getObject _
  | .addObject _, .objects | .addObject _, .markRead _ | .addObject _, .readsOf _ => isFalse id

/-- Two tasks, one of which is about to store a reply to what the other is about to
remove. -/
def Race (p q : StoreProgram Result) : Prop :=
  match next? p, next? q with
  | some c, some d => Collides c d ∨ Collides d c
  | _, _ => False

instance (p q : StoreProgram Result) : Decidable (Race p q) :=
  match p, q with
  | .call c _, .call d _ => inferInstanceAs (Decidable (Collides c d ∨ Collides d c))
  | .ret _, _ | .raise _, _ | .call _ _, .ret _ | .call _ _, .raise _ => isFalse id

section
variable {ι : Type}

/-- The task that moves races with none of the others. -/
def NoRace (cfg : Config messageStore Raised Result ι InMemoryStore) (i : ι) : Prop :=
  ∀ j, j ≠ i → ¬ Race (cfg.tasks i) (cfg.tasks j)

instance {n : ℕ} (cfg : Config messageStore Raised Result (Fin n) InMemoryStore) (i : Fin n) :
    Decidable (NoRace cfg i) :=
  @Nat.decidableForallFin n (fun j => j ≠ i → ¬ Race (cfg.tasks i) (cfg.tasks j)) fun _ =>
    inferInstance

/-- Every task that sends mints an id of its own, one that is not in use at the start. -/
structure FreshIds (ops : ι → Operation) (s₀ : InMemoryStore) : Prop where
  unused : ∀ i id, (ops i).minted = some id → id ∉ s₀.objects
  apart : ∀ i j id, (ops i).minted = some id → (ops j).minted = some id → i = j

/-! ## What a task needs, and what it guarantees -/

/-- What every task may assume between its calls. -/
def Ready (ops : ι → Operation) (i : ι) (s : InMemoryStore) : Prop :=
  s.Forest ∧ ∀ id, (ops i).minted = some id → id ∉ s.objects

/-- What a task owes the others when it writes: a message is stored under the task's own
id, in reply to something stored, and what is removed takes its replies along. -/
def Owed (ops : ι → Operation) (i : ι) (s : InMemoryStore) : StoreCall → Prop
  | .addObject obj => (ops i).minted = some obj.id ∧ obj.id ∉ s.objects ∧
      ∀ parent, obj.inReplyTo = some parent → parent ∈ s.objects
  | .removeObjects ids => ∀ id parent, s.replyTo id = some parent → parent ∈ ids → id ∈ ids
  | _ => True

/-- What the others do while a task waits to make a call spoils neither. -/
def Undisturbed (ops : ι → Operation) (i : ι) (c : StoreCall) (s s' : InMemoryStore) : Prop :=
  (Ready ops i s → Ready ops i s') ∧ (Owed ops i s c → Owed ops i s' c)

lemma LeavesMessages.owed {c : StoreCall} (hc : LeavesMessages c) (ops : ι → Operation) (i : ι)
    (s : InMemoryStore) : Owed ops i s c := by
  cases c with
  | addObject _ => exact absurd hc id
  | removeObjects _ => exact absurd hc id
  | _ => trivial

lemma InMemoryStore.replyTo_congr {s s' : InMemoryStore} (h : s'.objects = s.objects) :
    s'.replyTo = s.replyTo := by
  funext id
  simp only [InMemoryStore.replyTo, h]

lemma InMemoryStore.Forest.congr {s s' : InMemoryStore} (h : s.Forest)
    (hobjects : s'.objects = s.objects) : s'.Forest := by
  have hlinks := InMemoryStore.replyTo_congr hobjects
  refine ⟨fun id parent hlink => ?_, by rw [hlinks]; exact h.ranked⟩
  rw [hobjects]
  exact h.parents id parent (by rw [← hlinks, hlink])

variable {ops : ι → Operation}

lemma Ready.congr {i : ι} {s s' : InMemoryStore} (h : Ready ops i s)
    (hobjects : s'.objects = s.objects) : Ready ops i s' :=
  ⟨h.1.congr hobjects, fun id hid => by rw [hobjects]; exact h.2 id hid⟩

/-! ## Each task keeps its side -/

/-- Safety of a task's program, which leaves the task ready. -/
abbrev SafeFor (ops : ι → Operation) (i : ι) {α : Type} (post : α → InMemoryStore → Prop)
    (p : StoreProgram α) (s : InMemoryStore) : Prop :=
  Safe InMemoryStore.handle (Owed ops i) (Undisturbed ops i) post p s

lemma safe_ready {i : ι} {α : Type} {p : StoreProgram α} (hp : p.Uses LeavesMessages)
    {s : InMemoryStore} (hs : Ready ops i s) :
    SafeFor ops i (fun _ s' => Ready ops i s') p s :=
  safe_of_uses (fun s _ hc => hc.owed ops i s) (fun s _ hc h => h.congr (hc.objects_eq s))
    (fun _ _ _ hrely h => hrely.1 h) hp hs

lemma safe_ask {i : ι} (c : StoreCall) {post : c.Answer → InMemoryStore → Prop}
    {s : InMemoryStore} (hc : ∀ s', Undisturbed ops i c s s' → Owed ops i s' c ∧
      post (InMemoryStore.handle c s').1 (InMemoryStore.handle c s').2) :
    SafeFor ops i post (MessageStore.ask c) s := safe_perform hc

/-- The parent a sending decides on is stored when it decides. -/
lemma safe_attach {i : ι} (ctx : Context) (sender : String) (inReplyTo : Option String)
    {s : InMemoryStore} (hs : Ready ops i s) :
    SafeFor ops i (fun parent s' => Ready ops i s' ∧ ∀ p, parent = some p → p ∈ s'.objects)
      (Mailbox.attach ctx sender inReplyTo) s := by
  cases inReplyTo with
  | none => exact (safe_pure _ s).mpr ⟨hs, fun p hp => by simp at hp⟩
  | some wanted =>
    refine safe_bind (safe_ask .objects fun s' hrely => ⟨trivial, ?_⟩)
    refine (safe_pure _ s').mpr ⟨hrely.1 hs, fun p hp => ?_⟩
    have hattach : Mailbox.attachIn s' ctx sender (some wanted) = some p := hp
    obtain ⟨_, obj, hobj, _⟩ := Mailbox.attachIn_some hattach
    exact (Dict.mem_iff_lookup _ _).mpr ⟨obj, hobj⟩

/-- A sending stores its message in reply to something stored, or to nothing. -/
lemma safe_send (mb : Mailbox) {i : ι} (caller : String) (draft : Draft) (stamp : Stamp)
    (hmint : (ops i).minted = some stamp.id) {s : InMemoryStore} (hs : Ready ops i s) :
    SafeFor ops i (fun _ _ => True) (mb.send caller draft stamp) s := by
  unfold Mailbox.send
  refine safe_bind ((safe_ready (uses_requireActor mb caller) hs).mono fun actor s hs => ?_)
  refine safe_bind ((safe_ready (Program.uses_ofExcept _) hs).mono fun recipients s hs => ?_)
  refine safe_bind ((safe_ready (Program.uses_ofExcept _) hs).mono fun copies s hs => ?_)
  refine safe_bind ((safe_ready (uses_context mb) hs).mono fun ctx s hs => ?_)
  refine safe_bind ((safe_ready (Program.uses_ofExcept _) hs).mono fun _ s hs => ?_)
  refine safe_bind ((safe_attach ctx actor.name draft.inReplyTo hs).mono fun parent s hs => ?_)
  obtain ⟨hready, hparent⟩ := hs
  set obj := Mailbox.compose ctx actor.name recipients copies parent draft stamp
  have howed : Owed ops i s (.addObject obj) := ⟨hmint, hready.2 _ hmint, hparent⟩
  exact safe_bind (safe_ask (.addObject obj) fun s' hrely =>
    ⟨hrely.2 howed, (safe_pure _ _).mpr trivial⟩)

lemma safe_reply (mb : Mailbox) {i : ι} (caller objectId body : String)
    (subject : Option String) (stamp : Stamp) (hmint : (ops i).minted = some stamp.id)
    {s : InMemoryStore} (hs : Ready ops i s) :
    SafeFor ops i (fun _ _ => True) (mb.reply caller objectId body subject stamp) s := by
  unfold Mailbox.reply
  refine safe_bind ((safe_ready (uses_visibleObject mb caller objectId) hs).mono ?_)
  intro original s hs
  exact safe_send mb caller (mb.replyDraft original body subject) stamp hmint hs

/-- An expiry removes whole conversations of the listing it was computed from. -/
lemma safe_expire (mb : Mailbox) {i : ι} (now : DateTime) {s : InMemoryStore}
    (hs : Ready ops i s) : SafeFor ops i (fun _ _ => True) (mb.expire now) s := by
  unfold Mailbox.expire
  split_ifs
  · exact (safe_pure _ s).mpr trivial
  · refine safe_bind ((safe_ready (Program.uses_ofExcept _) hs).mono fun cutoff s hs => ?_)
    refine safe_bind (safe_ask .objects fun s' hrely => ⟨trivial, ?_⟩)
    have hforest : s'.Forest := (hrely.1 hs).1
    set doomed := expiredObjectIds s'.objectList cutoff.isoformat with hdoomed
    change SafeFor ops i (fun _ _ => True) (if doomed = ∅ then pure 0
      else MessageStore.removeObjects (Sorting.sorted doomed)) s'
    split_ifs
    · exact (safe_pure _ s').mpr trivial
    · have howed : Owed ops i s' (.removeObjects (Sorting.sorted doomed)) := by
        intro id parent hlink hparent
        rw [Sorting.mem_sorted] at hparent ⊢
        exact (InMemoryStore.expired_replyTo hforest hlink).mpr hparent
      exact safe_ask (.removeObjects (Sorting.sorted doomed)) fun s'' hrely' =>
        ⟨hrely'.2 howed, trivial⟩

lemma safe_map {i : ι} {α : Type} (f : α → Result) {p : StoreProgram α} {s : InMemoryStore}
    (hp : SafeFor ops i (fun _ _ => True) p s) :
    SafeFor ops i (fun _ _ => True) (f <$> p) s :=
  safe_bind (hp.mono fun a s _ => (safe_pure (f a) s).mpr trivial)

/-- Every operation keeps its side, whatever the others do meanwhile. -/
theorem safe_operation (mb : Mailbox) (ops : ι → Operation) (i : ι) {s : InMemoryStore}
    (hs : Ready ops i s) : SafeFor ops i (fun _ _ => True) ((ops i).program mb) s := by
  cases hop : ops i with
  | send caller draft stamp =>
    have hmint : (ops i).minted = some stamp.id := by
      rw [hop]
      rfl
    exact safe_map _ (safe_send mb caller draft stamp hmint hs)
  | reply caller objectId body subject stamp =>
    have hmint : (ops i).minted = some stamp.id := by
      rw [hop]
      rfl
    exact safe_map _ (safe_reply mb caller objectId body subject stamp hmint hs)
  | expire now => exact safe_map _ (safe_expire mb now hs)
  | join | whois | directory | updateProfile | installResident | peek | unreadCount | read
  | thread | view =>
    have hmint : (ops i).minted = none := by
      rw [hop]
      rfl
    have huses := uses_program mb hmint (by simp [hop])
    rw [hop] at huses
    exact (safe_ready huses hs).mono fun _ _ _ => trivial

/-! ## What the tasks do to each other -/

/-- A call that keeps its side keeps the conversations. -/
lemma Owed.forest {i : ι} {c : StoreCall} {s : InMemoryStore} (hs : s.Forest)
    (hc : Owed ops i s c) : (InMemoryStore.handle c s).2.Forest := by
  rcases writes_or_leaves c with ⟨obj, rfl⟩ | ⟨ids, rfl⟩ | hleaves
  · exact hs.addObject hc.2.1 hc.2.2
  · exact hs.removeObjects hc
  · exact hs.congr (hleaves.objects_eq s)

/-- No other task stores anything under an id that is the task's own. -/
lemma Owed.spares {i j : ι} (hapart : ∀ i j id, (ops i).minted = some id →
      (ops j).minted = some id → i = j) (hij : j ≠ i) {c : StoreCall} {s : InMemoryStore}
    (hc : Owed ops i s c) {id : String} (hid : (ops j).minted = some id)
    (hfree : id ∉ s.objects) : id ∉ (InMemoryStore.handle c s).2.objects := by
  rcases writes_or_leaves c with ⟨obj, rfl⟩ | ⟨ids, rfl⟩ | hleaves
  · change id ∉ s.objects.set obj.id obj
    rw [Dict.mem_set]
    rintro (rfl | hmem)
    · exact hij (hapart j i _ hid hc.1)
    · exact hfree hmem
  · change id ∉ (s.removeObjects ids).2.objects
    rw [InMemoryStore.mem_removeObjects]
    exact fun hmem => hfree hmem.2
  · rw [hleaves.objects_eq s]
    exact hfree

/-- What a task is about to store finds its parent still there. -/
lemma parent_kept {c : StoreCall} {s : InMemoryStore} {obj : ObjectRecord}
    (hrace : ¬ Collides (.addObject obj) c) {parent : String}
    (hparent : obj.inReplyTo = some parent) (hstored : parent ∈ s.objects) :
    parent ∈ (InMemoryStore.handle c s).2.objects := by
  rcases writes_or_leaves c with ⟨other, rfl⟩ | ⟨ids, rfl⟩ | hleaves
  · exact (Dict.mem_set _ _ _ _).mpr (Or.inr hstored)
  · refine (s.mem_removeObjects ids parent).mpr ⟨fun hmem => ?_, hstored⟩
    exact hrace ⟨parent, hmem, hparent⟩
  · rw [hleaves.objects_eq s]
    exact hstored

/-- What a task is about to remove gains no replies. -/
lemma closed_kept {c : StoreCall} {s : InMemoryStore} {ids : List String}
    (hrace : ¬ Collides c (.removeObjects ids))
    (hclosed : ∀ id parent, s.replyTo id = some parent → parent ∈ ids → id ∈ ids)
    (id parent : String) (hlink : (InMemoryStore.handle c s).2.replyTo id = some parent)
    (hparent : parent ∈ ids) : id ∈ ids := by
  rcases writes_or_leaves c with ⟨obj, rfl⟩ | ⟨others, rfl⟩ | hleaves
  · change ((s.objects.set obj.id obj).lookup id).bind ObjectRecord.inReplyTo = _ at hlink
    rw [Dict.lookup_set] at hlink
    split_ifs at hlink with hid
    · exact absurd ⟨parent, hparent, hlink⟩ hrace
    · exact hclosed id parent hlink hparent
  · change ((s.removeObjects others).2.objects.lookup id).bind ObjectRecord.inReplyTo = _ at hlink
    rw [InMemoryStore.lookup_removeObjects] at hlink
    split_ifs at hlink
    · simp at hlink
    · exact hclosed id parent hlink hparent
  · rw [InMemoryStore.replyTo_congr (hleaves.objects_eq s)] at hlink
    exact hclosed id parent hlink hparent

/-- Without a race, a call that keeps its side does not disturb a waiting task. -/
lemma Owed.undisturbed {i j : ι} (hapart : ∀ i j id, (ops i).minted = some id →
      (ops j).minted = some id → i = j) (hij : j ≠ i) {c d : StoreCall} {s : InMemoryStore}
    (hs : s.Forest) (hc : Owed ops i s c) (hrace : ¬ (Collides c d ∨ Collides d c)) :
    Undisturbed ops j d s (InMemoryStore.handle c s).2 := by
  obtain ⟨hcd, hdc⟩ := not_or.mp hrace
  refine ⟨fun hready => ⟨hc.forest hs, fun id hid => ?_⟩, ?_⟩
  · exact hc.spares hapart hij hid (hready.2 id hid)
  intro hd
  cases d with
  | addObject obj =>
    obtain ⟨hmint, hfree, hparent⟩ := hd
    refine ⟨hmint, hc.spares hapart hij hmint hfree, fun parent hp => ?_⟩
    exact parent_kept hdc hp (hparent parent hp)
  | removeObjects ids => exact closed_kept hcd hd
  | _ => trivial

variable [DecidableEq ι]

/-- However the calls of the operations are interleaved: as long as no message is stored
while its parent is on its way out, nor a parent removed while a reply to it is on its way
in, every stored reply's parent is stored. -/
theorem conversations_stay_whole (mb : Mailbox) (ops : ι → Operation) (s₀ : InMemoryStore)
    (hs₀ : Reachable mb s₀) (hfresh : FreshIds ops s₀) (schedule : List ι)
    (hrace : Along InMemoryStore.handle NoRace
      (⟨s₀, fun i => (ops i).program mb⟩ :
        Config messageStore Raised Result ι InMemoryStore) schedule) :
    (run InMemoryStore.handle
      (⟨s₀, fun i => (ops i).program mb⟩ :
        Config messageStore Raised Result ι InMemoryStore) schedule).state.ParentsStored := by
  have hready : ∀ i, Ready ops i s₀ := fun i => ⟨hs₀.consistent.forest, hfresh.unused i⟩
  refine (safe_run (Owed ops) (Undisturbed ops) InMemoryStore.Forest ?_ ?_ ?_ ?_ _ schedule
    hs₀.consistent.forest ?_ hrace).parents
  · exact fun i c s => ⟨id, id⟩
  · exact fun i c s t u hst htu => ⟨htu.1 ∘ hst.1, htu.2 ∘ hst.2⟩
  · exact fun cfg i c _ _ hforest hc => hc.forest hforest
  · intro cfg i j c d hcond hij hi hj hforest hc
    refine hc.undisturbed hfresh.apart hij hforest fun hcollides => hcond j hij ?_
    simpa [Race, hi, hj] using hcollides
  · exact fun i => safe_operation mb ops i (hready i)

/-- Nothing less will do: from a race on, two steps leave a reply without its parent. -/
theorem race_decapitates {cfg : Config messageStore Raised Result ι InMemoryStore} {i j : ι}
    {obj : ObjectRecord} {ids : List String} {parent : String}
    (hi : next? (cfg.tasks i) = some (.addObject obj))
    (hj : next? (cfg.tasks j) = some (.removeObjects ids)) (hparent : obj.inReplyTo = some parent)
    (hdoomed : parent ∈ ids) (hkept : obj.id ∉ ids) :
    ¬ (run InMemoryStore.handle cfg [i, j]).state.ParentsStored ∧
      ¬ (run InMemoryStore.handle cfg [j, i]).state.ParentsStored := by
  have hij : j ≠ i := by
    rintro rfl
    simp [hi] at hj
  have hne : parent ≠ obj.id := fun heq => hkept (heq ▸ hdoomed)
  constructor
  · intro hall
    have hstate : (run InMemoryStore.handle cfg [i, j]).state =
        ((cfg.state.addObject obj).removeObjects ids).2 := by
      rw [run_cons, run_cons, run_nil, advance_state _ (by rw [advance_other cfg hij, hj]),
        advance_state cfg hi]
      rfl
    rw [hstate] at hall
    have hstored := hall obj.id parent (by
      simp [InMemoryStore.replyTo, InMemoryStore.lookup_removeObjects, hkept, hparent])
    exact ((InMemoryStore.mem_removeObjects _ _ _).mp hstored).1 hdoomed
  · intro hall
    have hstate : (run InMemoryStore.handle cfg [j, i]).state =
        (cfg.state.removeObjects ids).2.addObject obj := by
      rw [run_cons, run_cons, run_nil, advance_state _ (by rw [advance_other cfg hij.symm, hi]),
        advance_state cfg hj]
      rfl
    rw [hstate] at hall
    have hstored := hall obj.id parent (by simp [InMemoryStore.replyTo, hparent])
    rw [InMemoryStore.addObject_objects, Dict.mem_set, InMemoryStore.mem_removeObjects] at hstored
    rcases hstored with heq | ⟨hgone, _⟩
    · exact hne heq
    · exact hgone hdoomed

end

/-! ## A reply that arrives too late -/

/-- A note that has been lying there since the beginning of the month. -/
def oldNote : InMemoryStore :=
  after asciiMailbox .empty [joinAs "alice", joinAs "bob",
    .send "alice" { to_ := .one "bob", body := "ping" } ⟨"m1", january 2⟩]

/-- Its answer at the end of the month, and the expiry of that day. -/
def lateReply : Fin 2 → Operation
  | 0 => .reply "bob" "m1" "pong" none ⟨"m2", january 31⟩
  | 1 => .expire (january 31)

lemma lateReply_freshIds : FreshIds lateReply oldNote := by
  have hsender : ∀ i id, (lateReply i).minted = some id → i = 0 ∧ id = "m2" := by
    intro i id hid
    match i with
    | 0 => exact ⟨rfl, (Option.some.inj hid).symm⟩
    | 1 => simp [lateReply, Operation.minted] at hid
  refine ⟨fun i id hid => ?_, fun i j id hi hj => ?_⟩
  · obtain ⟨_, rfl⟩ := hsender i id hid
    decide +kernel
  · rw [(hsender i id hi).1, (hsender j id hj).1]

/-- The expiry does not see the reply that is on its way, and the reply does not see the
expiry: it is stored under a note that is gone. -/
theorem late_reply_decapitated :
    Reachable asciiMailbox oldNote ∧ FreshIds lateReply oldNote ∧
      ¬ (run InMemoryStore.handle
        (⟨oldNote, fun i => (lateReply i).program asciiMailbox⟩ :
          Config messageStore Raised Result (Fin 2) InMemoryStore)
        [0, 0, 0, 0, 0, 0, 1, 1, 0]).state.ParentsStored := by
  refine ⟨reachable_after .empty (by decide +kernel), lateReply_freshIds, fun hall => ?_⟩
  exact absurd (hall "m2" "m1" (by decide +kernel)) (by decide +kernel)

/-- With the reply stored before the expiry takes its listing, the conversation stays. -/
theorem early_reply_stays_whole :
    (run InMemoryStore.handle
      (⟨oldNote, fun i => (lateReply i).program asciiMailbox⟩ :
        Config messageStore Raised Result (Fin 2) InMemoryStore)
      [0, 0, 0, 0, 0, 0, 0, 1]).state.ParentsStored := by
  have hreach : Reachable asciiMailbox oldNote := reachable_after .empty (by decide +kernel)
  refine conversations_stay_whole asciiMailbox lateReply oldNote hreach lateReply_freshIds
    [0, 0, 0, 0, 0, 0, 0, 1] ?_
  decide +kernel

end AgentMailbox
