import AgentMailbox.HouseRuns
import AgentMailbox.Reading
import AgentMailbox.SqliteHouse

/-!
# Only owners change things

The stores file records under keys and ask nobody whose they are, so whose they are is decided
by the keys that operations come up with. An operation adds at most the message it sends, edits
at most its caller's own profile, records at most its caller's own reading, and only an expiry
takes anything away. This holds of the mailbox and of a house around it, over either store.
-/
namespace AgentMailbox

/-- What is stored, whichever store holds it. -/
@[ext] structure Holdings where
  actor : String → Option ActorRecord
  object : String → Option ObjectRecord
  readBy : String → String → Option ReadRecord

def InMemoryStore.holdings (s : InMemoryStore) : Holdings where
  actor name := s.actors.lookup name
  object id := s.objects.lookup id
  readBy := s.readBy

/-- The records that the rows come back as. -/
def RowConnection.holdings (engine : Engine) (rows : RowConnection) : Holdings where
  actor name := (rows.working.actors.lookup name).bind fun row =>
    (Columns.toActor engine row).toOption
  object id := (rows.working.objects.lookup id).bind fun row =>
    (Columns.toObject engine row).toOption
  readBy id reader := rows.working.reads.lookup (id, reader)

/-- A row that spells a record comes back as the record. -/
lemma read_spelled {ρ α : Type} {row : Option ρ} {record : Option α} {spell : α → ρ}
    {read : ρ → Except Raised α} (hrow : row = record.map spell)
    (hread : ∀ a, record = some a → read (spell a) = .ok a) :
    (row.bind fun r => (read r).toOption) = record := by
  subst hrow
  cases record with
  | none => rfl
  | some a =>
    show (read (spell a)).toOption = some a
    rw [hread a rfl]
    rfl

lemma SqliteStore.Represents.holdings {engine : Engine} {s : InMemoryStore}
    {rows : RowConnection} (h : Represents engine s rows) :
    rows.holdings engine = s.holdings := by
  obtain ⟨conn, hmirrors, hspells, -⟩ := h
  have hactor : ∀ name, (rows.holdings engine).actor name = s.actors.lookup name := by
    intro name
    rw [← hmirrors.actors.lookup_eq name]
    exact read_spelled (hspells.actors name) fun _ => hspells.toActor
  have hobject : ∀ id, (rows.holdings engine).object id = s.objects.lookup id := by
    intro id
    rw [← hmirrors.objects.lookup_eq id]
    exact read_spelled (hspells.objects id) fun _ => hspells.toObject
  have hreads : ∀ id reader, (rows.holdings engine).readBy id reader = s.readBy id reader := by
    intro id reader
    have hrow := hspells.reads (id, reader)
    show rows.working.reads.lookup (id, reader) = _
    rw [hrow, ← hmirrors.reads]
    exact Option.map_id_apply
  exact Holdings.ext (funext hactor) (funext hobject) (funext fun id => funext (hreads id))

/-! ## What an operation may change -/

namespace Operation

/-- Who calls, as written. Joining, looking up and expiring have no caller. -/
def caller : Operation → Option String
  | updateProfile caller _ _ | send caller _ _ | reply caller _ _ _ _ | peek caller
  | unreadCount caller | read caller _ _ | thread caller _ | view caller _ => some caller
  | join _ _ _ | whois _ | directory | installResident _ _ _ | expire _ => none

/-- The operation is called by the actor of this name, however it writes its name. -/
def By (mb : Mailbox) (op : Operation) (name : String) : Prop :=
  ∃ caller, op.caller = some caller ∧ mb.local_ caller = .ok name

def Expires (op : Operation) : Prop := ∃ now, op = .expire now

/-- The operation edits the record of this name, which is its caller's own. -/
def Edits (mb : Mailbox) (op : Operation) (name : String) (actor actor' : ActorRecord) : Prop :=
  ∃ caller profile now, op = .updateProfile caller profile now ∧ mb.local_ caller = .ok name ∧
    actor' = { actor with profile := profile, lastSeen := now.isoformat }

/-- The message is what the operation was given to send, from its caller. -/
def Wrote (mb : Mailbox) (obj : ObjectRecord) : Operation → Prop
  | send caller draft stamp => obj.id = stamp.id ∧ mb.local_ caller = .ok obj.attributedTo ∧
    obj.content = draft.body ∧ obj.summary = draft.subject
  | reply caller _ body _ stamp => obj.id = stamp.id ∧ mb.local_ caller = .ok obj.attributedTo ∧
    obj.content = body
  | join _ _ _ | whois _ | directory | updateProfile _ _ _ | installResident _ _ _ | peek _
  | unreadCount _ | read _ _ _ | thread _ _ | view _ _ | expire _ => False

end Operation

/-- The messages that a call shows to whoever made it. -/
def shown : Except Raised Result → List ObjectRecord
  | .ok (.message obj) => [obj]
  | .ok (.messages objects) => objects
  | .ok (.actor _) | .ok (.found _) | .ok (.actors _) | .ok (.count _) | .error _ => []

@[simp] lemma mem_shown_message {x : Except Raised ObjectRecord} {obj : ObjectRecord} :
    obj ∈ shown (x.map .message) ↔ x = .ok obj := by
  cases x with
  | ok sent => simp [Except.map, shown, eq_comm]
  | error e => simp [Except.map, shown]

@[simp] lemma mem_shown_messages {x : Except Raised (List ObjectRecord)} {obj : ObjectRecord} :
    obj ∈ shown (x.map .messages) ↔ ∃ objects, x = .ok objects ∧ obj ∈ objects := by
  cases x with
  | ok objects => simp [Except.map, shown]
  | error e => simp [Except.map, shown]

/-- An operation that returns something else shows no message. -/
lemma shown_nothing {α : Type} {mb : Mailbox} {op : Operation} {f : α → Result}
    {p : StoreProgram α} (hop : op.program mb = f <$> p) (hf : ∀ a, shown (.ok (f a)) = [])
    (s : InMemoryStore) : shown (op.step mb s).1 = [] := by
  rw [Operation.step_eq_runs, hop, runs_map]
  generalize (runs p s).1 = done
  cases done with
  | ok a => exact hf a
  | error e => rfl

/-- What one operation may make of what is stored, given what it answers. -/
structure Frame (mb : Mailbox) (op : Operation) (x : Except Raised Result)
    (before after : Holdings) : Prop where
  /-- A stored message is unchanged, or gone in an expiry. -/
  kept : ∀ id obj, before.object id = some obj →
    after.object id = some obj ∨ (op.Expires ∧ after.object id = none)
  /-- A message that was not there is the one that was sent. -/
  added : ∀ id obj, before.object id = none → after.object id = some obj →
    x = .ok (.message obj) ∧ op.Wrote mb obj
  /-- An actor is unchanged, or was edited by its own update of its profile. -/
  actors : ∀ name actor, before.actor name = some actor →
    ∃ actor', after.actor name = some actor' ∧ (actor' = actor ∨ op.Edits mb name actor actor')
  /-- A reading is recorded by its reader, once, and forgotten with its message. -/
  reads : ∀ id reader, after.readBy id reader = before.readBy id reader ∨
    (op.consumes = true ∧ op.By mb reader ∧ before.readBy id reader = none) ∨
    (op.Expires ∧ after.object id = none)
  /-- A message that is shown is one that is stored. -/
  shown : ∀ obj ∈ shown x, after.object obj.id = some obj

namespace Frame

variable {mb : Mailbox} {op : Operation} {x : Except Raised Result} {before after : Holdings}

/-- Nothing of another actor's is touched by a call. -/
theorem others (h : Frame mb op x before after) {name : String} (hother : ¬ op.By mb name) :
    (∀ actor, before.actor name = some actor → after.actor name = some actor) ∧
      (¬ op.Expires → ∀ id, after.readBy id name = before.readBy id name) := by
  constructor
  · intro actor hactor
    obtain ⟨actor', hafter, rfl | ⟨caller, profile, now, rfl, hname, -⟩⟩ :=
      h.actors name actor hactor
    · exact hafter
    · exact absurd ⟨caller, rfl, hname⟩ hother
  · intro hlasting id
    rcases h.reads id name with hsame | ⟨-, hby, -⟩ | ⟨hexpires, -⟩
    · exact hsame
    · exact absurd hby hother
    · exact absurd hexpires hlasting

end Frame

/-! ## One step over the dictionaries -/

section
variable (mb : Mailbox) (s : InMemoryStore)

lemma stored_visible {caller objectId : String} {obj : ObjectRecord}
    (h : mb.visibleIn s caller objectId = .ok obj) : s.objects.lookup obj.id = some obj := by
  have hobj := Mailbox.visibleIn_stored h
  rw [s.object_key objectId obj hobj]
  exact hobj

/-- A call that shows a message shows one that is stored, and leaves it stored. -/
lemma stored_shown (op : Operation) :
    ∀ obj ∈ shown (op.step mb s).1, (op.step mb s).2.objects.lookup obj.id = some obj := by
  intro obj hobj
  cases op with
  | join | whois | directory | updateProfile | installResident | expire | unreadCount =>
    rw [shown_nothing rfl fun _ => rfl] at hobj
    cases hobj
  | send caller draft stamp =>
    rw [Operation.step_send, mem_shown_message] at hobj
    rw [Operation.step_send, hobj]
    exact Dict.lookup_set_self s.objects obj.id obj
  | reply caller objectId body subject stamp =>
    rw [Operation.step_reply, mem_shown_message] at hobj
    rw [Operation.step_reply, hobj]
    exact Dict.lookup_set_self s.objects obj.id obj
  | peek caller =>
    rw [Operation.step_peek, mem_shown_messages] at hobj
    obtain ⟨waiting, hwaiting, hobj⟩ := hobj
    rw [Operation.step_peek]
    exact Mailbox.unreadIn_stored hwaiting hobj
  | thread caller rootId =>
    rw [Operation.step_thread, mem_shown_messages] at hobj
    obtain ⟨turns, hturns, hobj⟩ := hobj
    rw [Operation.step_thread]
    exact Mailbox.threadIn_stored hturns hobj
  | read caller objectId now =>
    rw [Operation.answer_read, mem_shown_message] at hobj
    obtain ⟨actor, _, hactor, _⟩ := (mb.visibleIn_ok_iff s caller objectId obj).mp hobj
    rw [Operation.step_read mb s now hactor, hobj]
    simp only [InMemoryStore.markRead_objects]
    exact stored_visible mb s hobj
  | view caller objectId =>
    rw [Operation.step_view, mem_shown_message] at hobj
    rw [Operation.step_view]
    exact stored_visible mb s hobj

/-- What is written is what the operation was given. -/
lemma wrote_of_sent {op : Operation} {caller : String} {draft : Draft} {stamp : Stamp}
    {obj : ObjectRecord} (hmint : op.minted = some stamp.id)
    (hdraft : op.drafted mb s = .ok (some (caller, draft)))
    (hobj : mb.sendIn s caller draft stamp = .ok obj) : op.Wrote mb obj := by
  obtain ⟨actor, recipients, copies, ctx, hactor, _, _, _, _, rfl⟩ :=
    (mb.sendIn_ok_iff s caller draft stamp obj).mp hobj
  have hname := ((mb.actorIn_ok_iff s caller actor).mp hactor).1
  cases op with
  | send from_ given stamp' =>
    have hid : stamp'.id = stamp.id := Option.some.inj hmint
    cases hdraft
    exact ⟨hid.symm, hname, rfl, rfl⟩
  | reply from_ objectId body subject stamp' =>
    have hid : stamp'.id = stamp.id := Option.some.inj hmint
    obtain ⟨original, _, hdraft⟩ := map_eq_ok.mp hdraft
    cases hdraft
    exact ⟨hid.symm, hname, rfl⟩
  | join | whois | directory | updateProfile | installResident | peek | unreadCount | read
  | thread | view | expire => cases hmint

variable {mb s}
variable {op : Operation} {x : Except Raised Result}

/-- Nothing has changed. -/
lemma frame_unchanged (hshown : ∀ obj ∈ shown x, s.objects.lookup obj.id = some obj) :
    Frame mb op x s.holdings s.holdings where
  kept _ _ hobj := Or.inl hobj
  added _ _ hnone hobj := by
    rw [hnone] at hobj
    cases hobj
  actors _ actor hactor := ⟨actor, hactor, Or.inl rfl⟩
  reads _ _ := Or.inl rfl
  shown := hshown

/-- An actor has been put in place of one it edits, or of none. -/
lemma frame_putActor {actor : ActorRecord}
    (hedits : ∀ old, s.actors.lookup actor.name = some old → op.Edits mb actor.name old actor)
    (hshown : ∀ obj ∈ shown x, s.objects.lookup obj.id = some obj) :
    Frame mb op x s.holdings (s.putActor actor).holdings where
  kept _ _ hobj := Or.inl hobj
  added _ _ hnone hobj := by
    have hobj : s.holdings.object _ = some _ := hobj
    rw [hnone] at hobj
    cases hobj
  actors name found hfound := by
    have hlookup := Dict.lookup_set s.actors actor.name name actor
    by_cases hname : name = actor.name
    · subst hname
      exact ⟨actor, hlookup.trans (if_pos rfl), Or.inr (hedits found hfound)⟩
    · exact ⟨found, hlookup.trans ((if_neg hname).trans hfound), Or.inl rfl⟩
  reads _ _ := Or.inl rfl
  shown := hshown

/-- A new message has been added. -/
lemma frame_addObject {obj : ObjectRecord} (hfresh : obj.id ∉ s.objects)
    (hwrote : op.Wrote mb obj) :
    Frame mb op (.ok (.message obj)) s.holdings (s.addObject obj).holdings where
  kept id found hfound := by
    have hlookup := Dict.lookup_set s.objects obj.id id obj
    have hid : id ≠ obj.id := by
      intro hid
      have hnone : s.objects.lookup id = none := by
        rw [hid]
        exact AList.lookup_eq_none.mpr hfresh
      have hfound : s.objects.lookup id = some found := hfound
      rw [hnone] at hfound
      cases hfound
    exact Or.inl (hlookup.trans ((if_neg hid).trans hfound))
  added id found hnone hfound := by
    have hlookup := Dict.lookup_set s.objects obj.id id obj
    have hfound : (s.addObject obj).objects.lookup id = some found := hfound
    have hnone : s.objects.lookup id = none := hnone
    rw [InMemoryStore.addObject_objects, hlookup] at hfound
    split_ifs at hfound with hid
    · cases hfound
      exact ⟨rfl, hwrote⟩
    · rw [hnone] at hfound
      cases hfound
  actors _ actor hactor := ⟨actor, hactor, Or.inl rfl⟩
  reads _ _ := Or.inl rfl
  shown found hfound := by
    obtain rfl := List.mem_singleton.mp hfound
    exact Dict.lookup_set_self s.objects found.id found

/-- A reading has been recorded. -/
lemma frame_markRead {read : ReadRecord} (hconsumes : op.consumes = true)
    (hby : op.By mb read.reader)
    (hshown : ∀ obj ∈ shown x, s.objects.lookup obj.id = some obj) :
    Frame mb op x s.holdings (s.markRead read).2.holdings where
  kept id obj hobj := by
    left
    show (s.markRead read).2.objects.lookup id = _
    rw [InMemoryStore.markRead_objects]
    exact hobj
  added id obj hnone hobj := by
    have hobj : (s.markRead read).2.objects.lookup id = some obj := hobj
    have hnone : s.objects.lookup id = none := hnone
    rw [InMemoryStore.markRead_objects, hnone] at hobj
    cases hobj
  actors name actor hactor := by
    refine ⟨actor, ?_, Or.inl rfl⟩
    show (s.markRead read).2.actors.lookup name = _
    rw [InMemoryStore.markRead_actors]
    exact hactor
  reads id reader := by
    show (s.markRead read).2.readBy id reader = s.readBy id reader ∨ _
    rw [InMemoryStore.readBy_markRead]
    split_ifs with hread
    · cases hold : s.readBy id reader with
      | some entry => exact Or.inl rfl
      | none => exact Or.inr (Or.inl ⟨hconsumes, hread.2 ▸ hby, hold⟩)
    · exact Or.inl rfl
  shown obj hobj := by
    show (s.markRead read).2.objects.lookup obj.id = _
    rw [InMemoryStore.markRead_objects]
    exact hshown obj hobj

/-- Messages have been removed. -/
lemma frame_removeObjects {ids : List String} (hexpires : op.Expires) (hshown : shown x = []) :
    Frame mb op x s.holdings (s.removeObjects ids).2.holdings where
  kept id obj hobj := by
    have hlookup := s.lookup_removeObjects ids id
    split_ifs at hlookup
    · exact Or.inr ⟨hexpires, hlookup⟩
    · exact Or.inl (hlookup.trans hobj)
  added id obj hnone hobj := by
    have hlookup := s.lookup_removeObjects ids id
    have hobj : (s.removeObjects ids).2.objects.lookup id = some obj := hobj
    have hnone : s.objects.lookup id = none := hnone
    rw [hlookup, hnone, ite_self] at hobj
    cases hobj
  actors name actor hactor := by
    refine ⟨actor, ?_, Or.inl rfl⟩
    show (s.removeObjects ids).2.actors.lookup name = _
    rw [InMemoryStore.removeObjects_actors]
    exact hactor
  reads id reader := by
    show (s.removeObjects ids).2.readBy id reader = s.readBy id reader ∨ _
    have hlookup := s.lookup_removeObjects ids id
    rw [InMemoryStore.readBy_removeObjects]
    split_ifs at hlookup ⊢
    · exact Or.inr (Or.inr ⟨hexpires, hlookup⟩)
    · exact Or.inl rfl
  shown obj hobj := by
    rw [hshown] at hobj
    cases hobj

lemma frame_installResident (mb : Mailbox) (s : InMemoryStore) (name : String)
    (profile : JsonObject) (now : DateTime) :
    Frame mb (.installResident name profile now)
      ((Operation.installResident name profile now).step mb s).1 s.holdings
      ((Operation.installResident name profile now).step mb s).2.holdings := by
  have hstored : ∀ obj ∈ shown ((Operation.installResident name profile now).step mb s).1,
      s.objects.lookup obj.id = some obj := by
    rw [shown_nothing rfl fun _ => rfl]
    exact fun obj hobj => by cases hobj
  rw [installResident_state]
  unfold InMemoryStore.claimName
  split_ifs with htaken
  · exact frame_unchanged hstored
  · apply frame_putActor _ hstored
    intro old hold
    rw [AList.lookup_eq_none.mpr htaken] at hold
    cases hold

/-- One operation of the mailbox, over the dictionaries. -/
theorem frame_step (mb : Mailbox) {op : Operation} {s : InMemoryStore}
    (hfresh : ∀ id, op.minted = some id → id ∉ s.objects) :
    Frame mb op (op.step mb s).1 s.holdings (op.step mb s).2.holdings := by
  have hshown := stored_shown mb s op
  have hcases : op.StandingOnly ∨ ∃ name profile now, op = .installResident name profile now := by
    cases op with
    | installResident name profile now => exact Or.inr ⟨name, profile, now, rfl⟩
    | _ => exact Or.inl trivial
  rcases hcases with hstanding | ⟨name, profile, now, rfl⟩
  · have hchange := step_change_standing mb s hstanding
    generalize (op.step mb s).1 = answer at hchange hshown ⊢
    generalize (op.step mb s).2 = s' at hchange hshown ⊢
    cases hchange with
    | unchanged => exact frame_unchanged hshown
    | created actor _ hfree =>
      apply frame_putActor
      · intro old hold
        rw [AList.lookup_eq_none.mpr hfree] at hold
        cases hold
      · exact fun obj hobj => by cases hobj
    | profiled caller profile now actor hop hactor =>
      obtain ⟨hname, hstored⟩ := (mb.actorIn_ok_iff s caller actor).mp hactor
      apply frame_putActor
      · intro old hold
        have hsame : some actor = some old := hstored.symm.trans hold
        cases hsame
        exact ⟨caller, profile, now, hop, hname, rfl⟩
      · exact fun obj hobj => by cases hobj
    | sent caller draft stamp obj hmint hdraft hobj =>
      have hwrote := wrote_of_sent mb s hmint hdraft hobj
      have hid : obj.id = stamp.id := by
        obtain ⟨_, _, _, _, _, _, _, _, _, rfl⟩ :=
          (mb.sendIn_ok_iff s caller draft stamp obj).mp hobj
        rfl
      exact frame_addObject (hid ▸ hfresh stamp.id hmint) hwrote
    | consumed caller objectId now actor obj hop hactor hobj =>
      subst hop
      have hname := ((mb.actorIn_ok_iff s caller actor).mp hactor).1
      apply frame_markRead rfl ⟨caller, rfl, hname⟩
      intro found hfound
      obtain rfl := List.mem_singleton.mp hfound
      exact stored_visible mb s hobj
    | expired now doomed hop => exact frame_removeObjects ⟨now, hop⟩ rfl
  · exact frame_installResident mb s name profile now

end

end AgentMailbox
