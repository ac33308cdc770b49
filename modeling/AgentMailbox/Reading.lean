import AgentMailbox.Changes

/-!
# What reading consumes

A copy is consumed by its reader's own `read` and by nothing else: the record of the
consumption is filed under the message and the reader, and everything but the reader's
own listing is computed from what such a record does not touch.
-/
namespace AgentMailbox

/-- The calls that only look. -/
def Operation.looks : Operation → Bool
  | peek _ | unreadCount _ | view _ _ | thread _ _ | whois _ | directory => true
  | join _ _ _ | updateProfile _ _ _ | installResident _ _ _ | send _ _ _ | reply _ _ _ _ _
  | read _ _ _ | expire _ => false

theorem Operation.step_looks (mb : Mailbox) (s : InMemoryStore) {op : Operation}
    (h : op.looks = true) : (op.step mb s).2 = s := by
  cases op with
  | peek caller => rw [step_peek]
  | unreadCount caller => rw [step_unreadCount]
  | view caller objectId => rw [step_view]
  | thread caller rootId => rw [step_thread]
  | whois name => rfl
  | directory => rfl
  | join | updateProfile | installResident | send | reply | read | expire => simp [looks] at h

/-- The call that consumes. -/
def Operation.consumes : Operation → Bool
  | read _ _ _ => true
  | _ => false

/-! ## The record of a reading -/

namespace InMemoryStore

variable (s : InMemoryStore)

theorem objectList_markRead (read : ReadRecord) :
    (s.markRead read).2.objectList = s.objectList := by
  simp only [objectList, markRead_objects]

/-- Recording a reading a second time changes nothing, whatever the time of day. -/
theorem markRead_again {first second : ReadRecord} (hid : second.objectId = first.objectId)
    (hreader : second.reader = first.reader) :
    (s.markRead first).2.markRead second = (false, (s.markRead first).2) := by
  have hsome : ((s.markRead first).2.readBy second.objectId second.reader).isSome = true := by
    rw [readBy_markRead, if_pos ⟨hid, hreader⟩]
    rfl
  generalize (s.markRead first).2 = marked at hsome ⊢
  rw [markRead, if_pos hsome]

theorem readBy_removeObjects (ids : List String) (id reader : String) :
    (s.removeObjects ids).2.readBy id reader = if id ∈ ids then none else s.readBy id reader := by
  simp only [readBy, lookup_reads_removeObjects]
  split_ifs <;> rfl

theorem claimName_reads (actor : ActorRecord) : (s.claimName actor).2.reads = s.reads := by
  unfold claimName
  split_ifs <;> rfl

end InMemoryStore

lemma installResident_reads (mb : Mailbox) (s : InMemoryStore) (name : String)
    (profile : JsonObject) (now : DateTime) :
    ((Operation.installResident name profile now).step mb s).2.reads = s.reads := by
  rw [installResident_state, InMemoryStore.claimName_reads]

/-- No operation but a reading records a reading. -/
theorem step_records_none (mb : Mailbox) (s : InMemoryStore) {op : Operation}
    (h : op.consumes = false) {id reader : String} {entry : ReadRecord}
    (hentry : (op.step mb s).2.readBy id reader = some entry) :
    s.readBy id reader = some entry := by
  have hcases : op.StandingOnly ∨ ∃ name profile now, op = .installResident name profile now := by
    cases op with
    | installResident name profile now => exact Or.inr ⟨name, profile, now, rfl⟩
    | _ => exact Or.inl trivial
  rcases hcases with hstanding | ⟨name, profile, now, rfl⟩
  · have hchange := step_change_standing mb s hstanding
    generalize (op.step mb s).1 = answer at hchange
    generalize (op.step mb s).2 = s' at hchange hentry
    cases hchange with
    | unchanged | created | profiled | sent => exact hentry
    | consumed caller objectId now actor obj hop =>
      subst hop
      simp [Operation.consumes] at h
    | expired now doomed =>
      rw [InMemoryStore.readBy_removeObjects] at hentry
      split_ifs at hentry
      exact hentry
  · rwa [InMemoryStore.readBy, installResident_reads] at hentry

namespace Mailbox

variable (mb : Mailbox) (s : InMemoryStore)

theorem contextIn_markRead (read : ReadRecord) :
    mb.contextIn (s.markRead read).2 = mb.contextIn s := by
  simp only [contextIn, InMemoryStore.markRead_actors]

theorem actorIn_markRead (read : ReadRecord) (caller : String) :
    mb.actorIn (s.markRead read).2 caller = mb.actorIn s caller := by
  simp only [actorIn, InMemoryStore.markRead_actors]

theorem visibleIn_markRead (read : ReadRecord) (caller objectId : String) :
    mb.visibleIn (s.markRead read).2 caller objectId = mb.visibleIn s caller objectId := by
  simp only [visibleIn, actorIn_markRead, contextIn_markRead, InMemoryStore.markRead_objects]

theorem threadIn_markRead (read : ReadRecord) (caller rootId : String) :
    mb.threadIn (s.markRead read).2 caller rootId = mb.threadIn s caller rootId := by
  simp only [threadIn, actorIn_markRead, contextIn_markRead, InMemoryStore.objectList_markRead]

/-- What waits for a reader: delivered to it, and no record of its reading. -/
def waitingIn (ctx : Context) (me : String) : List ObjectRecord :=
  s.objectList.filter fun obj => (s.readBy obj.id me).isNone && deliversTo ctx obj me

theorem unreadIn_eq (caller : String) : mb.unreadIn s caller = (do
    let actor ← mb.actorIn s caller
    let ctx ← mb.contextIn s
    return waitingIn s ctx actor.name) := by
  unfold unreadIn
  cases mb.actorIn s caller with
  | error e => rfl
  | ok actor =>
    cases mb.contextIn s with
    | error e => rfl
    | ok ctx =>
      simp only [ok_bind, except_pure, Except.ok.injEq, unread, waitingIn]
      apply List.filter_congr
      intro obj hobj
      have hlisted : obj.id ∈ s.objectList.map ObjectRecord.id := List.mem_map_of_mem hobj
      have hread : obj.id ∈ readIds actor.name
          (s.readsOf (s.objectList.map ObjectRecord.id)) ↔
            (s.readBy obj.id actor.name).isSome = true := by
        rw [mem_readIds]
        exact and_iff_right hlisted
      simp only [decide_not, hread]
      cases s.readBy obj.id actor.name <;> rfl

/-- A reading takes its message from what waits for its reader, and from nobody else. -/
theorem waitingIn_markRead (ctx : Context) (read : ReadRecord) (me : String) :
    waitingIn (s.markRead read).2 ctx me =
      if me = read.reader then (waitingIn s ctx me).filter (fun obj => obj.id ≠ read.objectId)
      else waitingIn s ctx me := by
  simp only [waitingIn, InMemoryStore.objectList_markRead, InMemoryStore.readBy_markRead]
  split_ifs with hme
  · rw [List.filter_filter]
    apply List.filter_congr
    intro obj _
    by_cases hid : obj.id = read.objectId <;> simp [hid, hme]
  · simp [hme]

/-- What waits for an actor: each message once, oldest first. -/
structure Lists (ctx : Context) (me : String) (waiting : List ObjectRecord) : Prop where
  mem_iff : ∀ obj, obj ∈ waiting ↔ s.objects.lookup obj.id = some obj ∧
    s.readBy obj.id me = none ∧ deliversTo ctx obj me = true
  once : (waiting.map ObjectRecord.id).Nodup
  ordered : waiting.Pairwise fun a b => a.age < b.age

theorem waitingIn_lists (ctx : Context) (me : String) : Lists s ctx me (waitingIn s ctx me) where
  mem_iff obj := by
    simp only [waitingIn, List.mem_filter, InMemoryStore.mem_objectList, Bool.and_eq_true,
      Option.isNone_iff_eq_none]
  once := s.objectIds_nodup.sublist (List.filter_sublist.map _)
  ordered := s.objectList_ordered.sublist List.filter_sublist

end Mailbox

/-! ## One copy, one reader -/

section
variable (mb : Mailbox) (s : InMemoryStore)

/-- What a successful reading by `caller` leads to: its copy is consumed, once and for
all, and nobody sees any other difference. Callers are compared by the name their
address resolves to. -/
structure ConsumesOne (caller objectId : String) (now : DateTime) (obj : ObjectRecord)
    (s' : InMemoryStore) : Prop where
  own : ∀ reader, mb.local_ reader = mb.local_ caller → ∃ waiting,
    ((Operation.peek reader).step mb s).1 = .ok (.messages waiting) ∧
      ((Operation.peek reader).step mb s').1 =
        .ok (.messages (waiting.filter fun other => other.id ≠ objectId))
  others : ∀ reader, mb.local_ reader ≠ mb.local_ caller →
    ((Operation.peek reader).step mb s').1 = ((Operation.peek reader).step mb s).1
  again : ∀ reader later, mb.local_ reader = mb.local_ caller →
    (Operation.read reader objectId later).step mb s' = (.ok (.message obj), s')
  first_time : ∀ me, mb.local_ caller = .ok me →
    s'.readBy objectId me = some ((s.readBy objectId me).getD ⟨objectId, me, now.isoformat⟩)
  views : ∀ reader id,
    ((Operation.view reader id).step mb s').1 = ((Operation.view reader id).step mb s).1
  threads : ∀ reader rootId,
    ((Operation.thread reader rootId).step mb s').1 = ((Operation.thread reader rootId).step mb s).1

/-- A reading either consumes one copy or raises and changes nothing. -/
def ReadsOnce (caller objectId : String) (now : DateTime) : Prop :=
  match (Operation.read caller objectId now).step mb s with
  | (.ok result, s') => ∃ obj, result = .message obj ∧ ConsumesOne mb s caller objectId now obj s'
  | (.error _, s') => s' = s

/-- A successful peek lists each message that waits, once and oldest first. -/
def PeekLists (caller : String) : Prop :=
  ∀ waiting, ((Operation.peek caller).step mb s).1 = .ok (.messages waiting) →
    ∃ actor ctx, mb.actorIn s caller = .ok actor ∧ mb.contextIn s = .ok ctx ∧
      Mailbox.Lists s ctx actor.name waiting

variable {mb s}

lemma actorIn_of_same_name {caller reader : String} (h : mb.local_ reader = mb.local_ caller)
    {actor : ActorRecord} (hactor : mb.actorIn s caller = .ok actor) :
    mb.actorIn s reader = .ok actor := by
  rw [Mailbox.actorIn_ok_iff] at hactor ⊢
  rwa [h]

lemma step_peek_ok {reader : String} {actor : ActorRecord} {ctx : Context}
    (hactor : mb.actorIn s reader = .ok actor) (hctx : mb.contextIn s = .ok ctx) :
    ((Operation.peek reader).step mb s).1 =
      .ok (.messages (Mailbox.waitingIn s ctx actor.name)) := by
  rw [Operation.step_peek, Mailbox.unreadIn_eq, hactor, hctx]
  rfl

/-- What a successful reading has looked up on its way. -/
lemma read_ok {caller objectId : String} {now : DateTime} {result : Result} {s' : InMemoryStore}
    (h : (Operation.read caller objectId now).step mb s = (.ok result, s')) :
    ∃ actor ctx obj, mb.actorIn s caller = .ok actor ∧ mb.contextIn s = .ok ctx ∧
      mb.visibleIn s caller objectId = .ok obj ∧ obj.id = objectId ∧ result = .message obj ∧
      s' = (s.markRead ⟨objectId, actor.name, now.isoformat⟩).2 := by
  cases hobj : mb.visibleIn s caller objectId with
  | error e =>
    have hanswer := Operation.answer_read mb s caller objectId now
    rw [h, hobj] at hanswer
    cases hanswer
  | ok obj =>
    obtain ⟨actor, ctx, hactor, hstored, hctx, _⟩ :=
      (mb.visibleIn_ok_iff s caller objectId obj).mp hobj
    have hid := s.object_key objectId obj hstored
    rw [Operation.step_read mb s now hactor, hobj] at h
    simp only [hid] at h
    cases h
    exact ⟨actor, ctx, obj, hactor, hctx, rfl, hid, rfl, rfl⟩

lemma consumesOne_of_ok {caller objectId : String} {now : DateTime} {result : Result}
    {s' : InMemoryStore} (h : (Operation.read caller objectId now).step mb s = (.ok result, s')) :
    ∃ obj, result = .message obj ∧ ConsumesOne mb s caller objectId now obj s' := by
  obtain ⟨actor, ctx, obj, hactor, hctx, hobj, hid, rfl, rfl⟩ := read_ok h
  set read : ReadRecord := ⟨objectId, actor.name, now.isoformat⟩ with hread
  have hname := ((mb.actorIn_ok_iff s caller actor).mp hactor).1
  refine ⟨obj, rfl, ?_, ?_, ?_, ?_, ?_, ?_⟩
  · intro reader hreader
    have hreader' := actorIn_of_same_name hreader hactor
    refine ⟨_, step_peek_ok hreader' hctx, ?_⟩
    rw [step_peek_ok ((mb.actorIn_markRead s read reader).trans hreader')
      ((mb.contextIn_markRead s read).trans hctx), Mailbox.waitingIn_markRead, if_pos rfl]
  · intro reader hreader
    rw [Operation.step_peek, Operation.step_peek, Mailbox.unreadIn_eq, Mailbox.unreadIn_eq,
      Mailbox.actorIn_markRead, Mailbox.contextIn_markRead]
    cases hother : mb.actorIn s reader with
    | error e => rfl
    | ok other =>
      have hne : other.name ≠ read.reader := by
        intro heq
        have hlocal := ((mb.actorIn_ok_iff s reader other).mp hother).1
        exact hreader (by rw [hlocal, hname, heq])
      simp only [ok_bind, hctx, Mailbox.waitingIn_markRead, if_neg hne]
  · intro reader later hreader
    have hreader' := actorIn_of_same_name hreader hactor
    have hvisible : mb.visibleIn s reader objectId = .ok obj := by
      rw [Mailbox.visibleIn_ok_iff] at hobj ⊢
      obtain ⟨found, hobj⟩ := hobj
      obtain ⟨ctx', hfound, hrest⟩ := hobj
      exact ⟨found, ctx', actorIn_of_same_name hreader hfound, hrest⟩
    rw [Operation.step_read mb _ later ((mb.actorIn_markRead s read reader).trans hreader'),
      Mailbox.visibleIn_markRead, hvisible]
    have hagain : (s.markRead read).2.markRead ⟨objectId, actor.name, later.isoformat⟩ =
        (false, (s.markRead read).2) := s.markRead_again rfl rfl
    simp only [hid, Except.map, hagain]
  · intro me hme
    rw [hname] at hme
    cases hme
    rw [InMemoryStore.readBy_markRead, if_pos ⟨rfl, rfl⟩]
  · intro reader id
    rw [Operation.step_view, Operation.step_view, Mailbox.visibleIn_markRead]
  · intro reader rootId
    rw [Operation.step_thread, Operation.step_thread, Mailbox.threadIn_markRead]

variable (mb s)

/-- Reading consumes exactly one copy for exactly one reader, nothing else consumes, and
a peek lists what is left. -/
theorem reading_consumes_one_copy :
    (∀ caller objectId now, ReadsOnce mb s caller objectId now) ∧
      (∀ op : Operation, op.looks = true → (op.step mb s).2 = s) ∧
      (∀ op : Operation, op.consumes = false → ∀ id reader entry,
        (op.step mb s).2.readBy id reader = some entry → s.readBy id reader = some entry) ∧
      ∀ caller, PeekLists mb s caller := by
  refine ⟨?_, fun op hop => op.step_looks mb s hop,
    fun op hop id reader entry => step_records_none mb s hop, ?_⟩
  · intro caller objectId now
    unfold ReadsOnce
    cases hstep : (Operation.read caller objectId now).step mb s with
    | mk answer s' =>
      cases answer with
      | ok result => exact consumesOne_of_ok hstep
      | error e =>
        have hunchanged := step_error mb (congrArg Prod.fst hstep)
        rwa [hstep] at hunchanged
  · intro caller waiting hwaiting
    rw [Operation.step_peek, Mailbox.unreadIn_eq] at hwaiting
    obtain ⟨found, hfound, hresult⟩ := map_eq_ok.mp hwaiting
    cases hresult
    obtain ⟨actor, hactor, hfound⟩ := bind_eq_ok.mp hfound
    obtain ⟨ctx, hctx, hfound⟩ := bind_eq_ok.mp hfound
    cases hfound
    exact ⟨actor, ctx, hactor, hctx, Mailbox.waitingIn_lists s ctx actor.name⟩

end

end AgentMailbox
