import AgentMailbox.Library.Spool
import AgentMailbox.Parties
import AgentMailbox.Reading

/-!
# Inboxes

What the mailbox is for: a spool, into which a sending delivers a copy for everybody it
is stored for, from which a reader takes its own copy, and which expiry clears. Over any
run that spares the addressees, what an actor sees when it peeks is what waits for it there.
-/
namespace AgentMailbox

/-- Everybody a message is stored for. -/
def ObjectRecord.addressees (obj : ObjectRecord) : Finset String := (obj.to_ ++ obj.cc).toFinset

@[simp] theorem ObjectRecord.mem_addressees (obj : ObjectRecord) (n : String) :
    n ∈ obj.addressees ↔ n ∈ obj.to_ ∨ n ∈ obj.cc := by simp [addressees]

/-- What an operation that answers so does to the spool. -/
def Operation.eventOf (mb : Mailbox) (s : InMemoryStore) :
    Operation → Except Raised Result → Option (SpoolEvent String String)
  | send _ _ _, .ok (.message obj) | reply _ _ _ _ _, .ok (.message obj) =>
    some (.delivered obj.id obj.addressees)
  | read caller _ _, .ok (.message obj) => (mb.local_ caller).toOption.map (.taken obj.id)
  | expire now, .ok _ =>
    if 0 < mb.retentionDays then (mb.doomedIn s now).toOption.map .cleared else none
  | _, _ => none

/-- What an operation does to the spool. -/
def Operation.event (mb : Mailbox) (op : Operation) (s : InMemoryStore) :
    Option (SpoolEvent String String) := op.eventOf mb s (op.step mb s).1

/-- What a run does to the spool. -/
def spooled (mb : Mailbox) : InMemoryStore → List Operation → List (SpoolEvent String String)
  | _, [] => []
  | s, op :: ops => (op.event mb s).toList ++ spooled mb (op.step mb s).2 ops

/-- A stored message bears the reader's name, and the reader has not consumed it. -/
def Waits (s : InMemoryStore) (id reader : String) : Prop :=
  ∃ obj, s.objects.lookup id = some obj ∧ reader ∈ obj.addressees ∧ s.readBy id reader = none

/-- The spool holds the copies that wait in the store. -/
def HoldsCopies (s : InMemoryStore) (copies : Finset (String × String)) : Prop :=
  ∀ id reader, (id, reader) ∈ copies ↔ Waits s id reader

lemma holdsCopies_empty : HoldsCopies .empty (Spool.after []) := by
  intro id reader
  simp [Spool.after, Waits, InMemoryStore.empty]

/-! ## One step -/

section
variable {mb : Mailbox} {s : InMemoryStore} {copies : Finset (String × String)}

lemma HoldsCopies.congr (h : HoldsCopies s copies) {s' : InMemoryStore}
    (hobjects : s'.objects = s.objects) (hreads : s'.reads = s.reads) : HoldsCopies s' copies := by
  intro id reader
  rw [h id reader]
  simp only [Waits, InMemoryStore.readBy, hobjects, hreads]

/-- A message that is new waits for everybody it is stored for. -/
lemma HoldsCopies.delivered (h : HoldsCopies s copies) (hconsistent : Consistent s)
    {obj : ObjectRecord} (hfresh : obj.id ∉ s.objects) :
    HoldsCopies (s.addObject obj) (SpoolEvent.apply copies (.delivered obj.id obj.addressees)) := by
  intro id reader
  have hunread : s.readBy obj.id reader = none := by
    have hnone : s.reads.lookup obj.id = none :=
      AList.lookup_eq_none.mpr fun hmem => hfresh (hconsistent.reads obj.id hmem)
    simp [InMemoryStore.readBy, hnone]
  have hsame : (s.addObject obj).readBy id reader = s.readBy id reader := rfl
  rw [SpoolEvent.mem_apply, h id reader]
  simp only [Waits, InMemoryStore.addObject_objects, Dict.lookup_set, hsame, SpoolEvent.Ends,
    not_false_eq_true, and_true, SpoolEvent.delivered.injEq]
  by_cases hid : id = obj.id
  · subst hid
    have hnew : s.objects.lookup obj.id = none := AList.lookup_eq_none.mpr hfresh
    simp [hnew, hunread]
  · simp [hid, Ne.symm hid]

/-- A reading ends the wait of one copy. -/
lemma HoldsCopies.taken (h : HoldsCopies s copies) (read : ReadRecord) :
    HoldsCopies (s.markRead read).2
      (SpoolEvent.apply copies (.taken read.objectId read.reader)) := by
  intro id reader
  rw [SpoolEvent.mem_apply, h id reader]
  simp only [Waits, InMemoryStore.markRead_objects, InMemoryStore.readBy_markRead, SpoolEvent.Ends,
    reduceCtorEq, false_and, exists_false, or_false]
  by_cases hboth : id = read.objectId ∧ reader = read.reader
  · obtain ⟨rfl, rfl⟩ := hboth
    simp
  · have hother : ¬ (read.objectId = id ∧ read.reader = reader) :=
      fun heq => hboth ⟨heq.1.symm, heq.2.symm⟩
    simp [hboth, hother]

/-- Messages that are removed wait for nobody. -/
lemma HoldsCopies.cleared (h : HoldsCopies s copies) (doomed : Finset String) :
    HoldsCopies (s.removeObjects (Sorting.sorted doomed)).2
      (SpoolEvent.apply copies (.cleared doomed)) := by
  intro id reader
  rw [SpoolEvent.mem_apply, h id reader]
  simp only [Waits, InMemoryStore.lookup_removeObjects, InMemoryStore.readBy_removeObjects,
    Sorting.mem_sorted, SpoolEvent.Ends, reduceCtorEq, false_and, exists_false, or_false]
  by_cases hid : id ∈ doomed <;> simp [hid]

/-- The events of an operation. -/
def Operation.carried (mb : Mailbox) (op : Operation) (s : InMemoryStore)
    (copies : Finset (String × String)) : Finset (String × String) :=
  ((op.event mb s).toList).foldl SpoolEvent.apply copies

lemma event_error {op : Operation} {e : Raised} (hanswer : (op.step mb s).1 = .error e) :
    op.event mb s = none := by
  rw [Operation.event, hanswer]
  cases op <;> rfl

lemma holdsCopies_read (h : HoldsCopies s copies) (caller objectId : String) (now : DateTime) :
    HoldsCopies ((Operation.read caller objectId now).step mb s).2
      ((Operation.read caller objectId now).carried mb s copies) := by
  rcases hstep : (Operation.read caller objectId now).step mb s with ⟨e | result, s'⟩
  · have herror : ((Operation.read caller objectId now).step mb s).1 = .error e := by rw [hstep]
    have hsame : s' = s := by rw [← step_error mb herror, hstep]
    rw [Operation.carried, event_error herror, hsame]
    exact h
  · obtain ⟨actor, ctx, obj, hactor, _, _, hid, rfl, rfl⟩ := read_ok hstep
    have hname := ((mb.actorIn_ok_iff s caller actor).mp hactor).1
    have hevent : (Operation.read caller objectId now).event mb s =
        some (.taken objectId actor.name) := by
      rw [Operation.event, hstep]
      change (mb.local_ caller).toOption.map (SpoolEvent.taken obj.id) = _
      rw [hname, hid]
      rfl
    rw [Operation.carried, hevent]
    exact h.taken ⟨objectId, actor.name, now.isoformat⟩

lemma holdsCopies_expire (h : HoldsCopies s copies) (now : DateTime) :
    HoldsCopies ((Operation.expire now).step mb s).2
      ((Operation.expire now).carried mb s copies) := by
  by_cases hdays : 0 < mb.retentionDays
  · cases hdoomed : mb.doomedIn s now with
    | error e =>
      have hstep : (Operation.expire now).step mb s = (.error e, s) := by
        rw [Operation.step_eq_runs, Operation.program, runs_map, Mailbox.runs_expire mb s now hdays,
          hdoomed]
        rfl
      simp only [Operation.carried, Operation.event, Operation.eventOf, hstep]
      exact h
    | ok doomed =>
      have hstep : (Operation.expire now).step mb s =
          (.ok (.count (s.removeObjects (Sorting.sorted doomed)).1),
            (s.removeObjects (Sorting.sorted doomed)).2) := by
        rw [Operation.step_eq_runs, Operation.program, runs_map, Mailbox.runs_expire mb s now hdays,
          hdoomed]
        rfl
      simp only [Operation.carried, Operation.event, Operation.eventOf, hstep, if_pos hdays,
        hdoomed]
      exact h.cleared doomed
  · have hstep : (Operation.expire now).step mb s = (.ok (.count 0), s) := by
      rw [Operation.step_eq_runs, Operation.program, runs_map, Mailbox.expire,
        if_pos (not_lt.mp hdays)]
      rfl
    simp only [Operation.carried, Operation.event, Operation.eventOf, hstep, if_neg hdays]
    exact h

/-- An operation that is not about messages leaves the spool alone. -/
lemma event_none {op : Operation} (hmint : op.minted = none)
    (hread : ∀ caller objectId now, op ≠ .read caller objectId now)
    (hexpire : ∀ now, op ≠ .expire now) : op.event mb s = none := by
  cases op with
  | send | reply => cases hmint
  | read caller objectId now => exact absurd rfl (hread caller objectId now)
  | expire now => exact absurd rfl (hexpire now)
  | _ => rfl

lemma event_sent {op : Operation} {stamp : Stamp} (hmint : op.minted = some stamp.id)
    {obj : ObjectRecord} (hanswer : (op.step mb s).1 = .ok (.message obj)) :
    op.event mb s = some (.delivered obj.id obj.addressees) := by
  rw [Operation.event, hanswer]
  cases op with
  | send | reply => rfl
  | _ => cases hmint

/-- The spool follows the store, step by step. -/
lemma HoldsCopies.step (h : HoldsCopies s copies) (hconsistent : Consistent s) {op : Operation}
    (hadm : op.Admissible s) : HoldsCopies (op.step mb s).2 (op.carried mb s copies) := by
  by_cases hread : ∃ caller objectId now, op = .read caller objectId now
  · obtain ⟨caller, objectId, now, rfl⟩ := hread
    exact holdsCopies_read h caller objectId now
  by_cases hexpire : ∃ now, op = .expire now
  · obtain ⟨now, rfl⟩ := hexpire
    exact holdsCopies_expire h now
  push Not at hread hexpire
  have hchange := step_change mb hadm
  have hsent : ∀ stamp : Stamp, op.minted = some stamp.id → ∀ obj,
      (op.step mb s).1 = .ok (.message obj) →
        op.event mb s = some (.delivered obj.id obj.addressees) := fun _ hmint _ => event_sent hmint
  have herror : ∀ e, (op.step mb s).1 = .error e → op.event mb s = none := fun _ => event_error
  unfold Operation.carried
  generalize (op.step mb s).1 = answer at hchange hsent herror
  generalize (op.step mb s).2 = s' at hchange ⊢
  cases hchange with
  | unchanged _ hunchanged =>
    have hnone : op.event mb s = none := by
      cases hmint : op.minted with
      | none => exact event_none hmint hread hexpire
      | some id =>
        obtain ⟨e, he⟩ := hunchanged (by simp [hmint])
        exact herror e he
    rw [hnone]
    exact h
  | created actor _ _ _ _ hmint =>
    rw [event_none hmint hread hexpire]
    exact h.congr rfl rfl
  | profiled caller profile now actor hop _ =>
    subst hop
    exact h.congr rfl rfl
  | sent caller draft stamp obj hmint _ hobj =>
    rw [hsent stamp hmint obj rfl]
    refine h.delivered hconsistent ?_
    rw [(mb.sendIn_spec hobj).id_eq]
    exact hadm.fresh hmint
  | consumed caller objectId now _ _ hop => exact absurd hop (hread caller objectId now)
  | expired now _ hop => exact absurd hop (hexpire now)

/-- The spool follows the store over a whole run. -/
lemma HoldsCopies.after (h : HoldsCopies s copies) (hconsistent : Consistent s)
    {ops : List Operation} (hadm : Throughout mb Operation.Admissible s ops) :
    HoldsCopies (after mb s ops) ((spooled mb s ops).foldl SpoolEvent.apply copies) := by
  induction ops generalizing s copies with
  | nil => exact h
  | cons op ops ih =>
    rw [spooled, List.foldl_append]
    exact ih (h.step hconsistent hadm.1) (hconsistent.step mb hadm.1) hadm.2

end

/-! ## What an actor sees -/

/-- In a faithful store what is delivered to an actor is what bears its name. -/
lemma deliversTo_iff_addressee {mb : Mailbox} {s : InMemoryStore} (h : Faithful mb s)
    {ctx : Context} (hctx : mb.contextIn s = .ok ctx) {obj : ObjectRecord}
    (hobj : s.objects.lookup obj.id = some obj) (n : String) :
    deliversTo ctx obj n = true ↔ n ∈ obj.addressees := by
  have hproper := h.consistent.proper obj.id obj hobj
  have hsound : ∀ name, name ∈ obj.to_ ∨ name ∈ obj.cc → Sound ctx name := fun name hname =>
    sound_of_ownName h.consistent hctx (hproper.addressee name hname).1
      (h.own obj.id obj hobj name hname)
  have hparty := isPartyTo_sound hsound n
  simp only [isPartyTo, Bool.or_eq_true, decide_eq_true_eq] at hparty
  rw [ObjectRecord.mem_addressees]
  constructor
  · intro hdelivers
    have hother : n ≠ obj.attributedTo := by
      simp only [deliversTo, decide_eq_true_eq, mem_recipientsOf] at hdelivers
      exact hdelivers.2
    exact (hparty.mp (Or.inr hdelivers)).resolve_left hother
  · intro hnamed
    have hother := (hproper.addressee n hnamed).2
    exact (hparty.mpr (Or.inr hnamed)).resolve_left fun heq => hother heq.symm

/-- In every run that spares the addressees, what a joined actor sees when it peeks, each
message once, are the copies delivered to it that it has not read since and that no expiry has
removed since. -/
theorem inboxes_are_spools (mb : Mailbox) (ops : List Operation)
    (hrun : Throughout mb (fun op s => op.Admissible s ∧ op.Spares mb s) .empty ops) (n : String)
    (hn : n ∈ (after mb .empty ops).actors) :
    ∃ waiting, ((Operation.peek n).step mb (after mb .empty ops)).1 = .ok (.messages waiting) ∧
      (waiting.map ObjectRecord.id).Nodup ∧ ∀ id, id ∈ waiting.map ObjectRecord.id ↔
        ∃ before readers later, spooled mb .empty ops = before ++ .delivered id readers :: later ∧
          n ∈ readers ∧ ∀ event ∈ later, ¬ event.Ends id n := by
  have hfaithful : Faithful mb (after mb .empty ops) := after_invariant
    (fun op s h hop => h.step hop.1 hop.2) (faithful_empty mb) hrun
  have hmirrors := holdsCopies_empty.after consistent_empty (hrun.mono fun _ _ hop => hop.1)
  have hspool : (spooled mb .empty ops).foldl SpoolEvent.apply (Spool.after []) =
      Spool.after (spooled mb .empty ops) := rfl
  rw [hspool] at hmirrors
  generalize after mb .empty ops = s at hfaithful hmirrors hn ⊢
  obtain ⟨ctx, hctx⟩ := (contextIn_ok_iff_usable mb s).mpr hfaithful.usable
  obtain ⟨actor, hactor⟩ := (Dict.mem_iff_lookup _ _).mp hn
  have hname := s.actor_key n actor hactor
  have husable := hfaithful.consistent.usable n hn
  have hlocal : mb.local_ n = .ok n :=
    localName_plain mb.unicode husable.plain husable.nonempty mb.hubName
  have hpeek := step_peek_ok (Mailbox.actorIn_of_local hlocal hactor) hctx
  rw [hname] at hpeek
  have hlists := Mailbox.waitingIn_lists s ctx n
  refine ⟨_, hpeek, hlists.once, fun id => ?_⟩
  rw [← Spool.mem_after_iff, hmirrors id n, List.mem_map]
  constructor
  · rintro ⟨obj, hobj, rfl⟩
    obtain ⟨hstored, hunread, hdelivers⟩ := (hlists.mem_iff obj).mp hobj
    exact ⟨obj, hstored, (deliversTo_iff_addressee hfaithful hctx hstored n).mp hdelivers,
      hunread⟩
  · rintro ⟨obj, hstored, hnamed, hunread⟩
    have hid := s.object_key id obj hstored
    rw [← hid] at hstored hunread
    exact ⟨obj, (hlists.mem_iff obj).mpr ⟨hstored, hunread,
      (deliversTo_iff_addressee hfaithful hctx hstored n).mpr hnamed⟩, hid⟩

/-- A note to two, which one of them reads; the reader's copy is gone, the other's is left. -/
theorem inboxes_after_one_reads :
    ∃ waiting, ((Operation.peek "carol").step asciiMailbox (after asciiMailbox .empty
        [joinAs "alice", joinAs "bob", joinAs "carol",
          .send "alice" { to_ := .many ["bob", "carol"], body := "hi" } ⟨"m1", january 2⟩,
          .read "bob" "m1" (january 3)])).1 = .ok (.messages waiting) ∧
      (waiting.map ObjectRecord.id).Nodup ∧ "m1" ∈ waiting.map ObjectRecord.id := by
  obtain ⟨waiting, hpeek, honce, hwaits⟩ := inboxes_are_spools asciiMailbox
    [joinAs "alice", joinAs "bob", joinAs "carol",
      .send "alice" { to_ := .many ["bob", "carol"], body := "hi" } ⟨"m1", january 2⟩,
      .read "bob" "m1" (january 3)] (by decide +kernel) "carol" (by decide +kernel)
  refine ⟨waiting, hpeek, honce, (hwaits "m1").mpr ⟨[], {"bob", "carol"}, [.taken "m1" "bob"],
    by decide +kernel, by decide, ?_⟩⟩
  intro event hevent
  rw [List.mem_singleton.mp hevent]
  simp [SpoolEvent.Ends]

end AgentMailbox
