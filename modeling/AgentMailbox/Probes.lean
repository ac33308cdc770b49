import AgentMailbox.Observers
import AgentMailbox.Ownership
import AgentMailbox.Renaming

/-!
# What the probe detector counts

The detector counts the failures it is told of that were marked as reaches for the mail of others,
or that are refusals of a message, under the caller's name as it was given. A reading that fails is
always told and always marked; a viewing or a reply that is refused is told to nobody; a sending
whose parent is cleared is a success. So the count is the number of reaches in the runs where all
of these stay away but the readings refused to a caller under its own name.
-/
namespace AgentMailbox

/-! ## Failures that are no refusals of a message -/

/-- The error is the refusal of a message. -/
def Raised.IsDenial (e : Raised) : Prop := ProbeDetector.isDenial (some e) = true

lemma Raised.NamesNoMessage.not_isDenial {e : Raised} (h : e.NamesNoMessage) : ¬ e.IsDenial := by
  intro hdenial
  cases e with
  | mailbox e =>
    cases e with
    | noSuchMessage id =>
      have hrenamed := h fun id => id ++ "'"
      simp [Raised.renamed] at hrenamed
    | _ => simp [Raised.IsDenial, ProbeDetector.isDenial, MailboxError.errorClass] at hdenial
  | _ => simp [Raised.IsDenial, ProbeDetector.isDenial] at hdenial

namespace Mailbox

variable {mb : Mailbox} {s : InMemoryStore}

lemma actorIn_namesNoMessage {caller : String} {e : Raised} (h : mb.actorIn s caller = .error e) :
    e.NamesNoMessage := by
  unfold actorIn at h
  rcases bind_eq_error.mp h with hlocal | ⟨name, _, hfound⟩
  · exact localName_namesNoMessage hlocal
  · cases hactor : s.actors.lookup name with
    | none =>
      rw [hactor] at hfound
      rw [← Except.error.inj hfound]
      exact fun f => rfl
    | some actor =>
      rw [hactor] at hfound
      cases hfound

/-- A sending that fails is never refused a message. -/
theorem sendIn_namesNoMessage {caller : String} {draft : Draft} {stamp : Stamp} {e : Raised}
    (h : mb.sendIn s caller draft stamp = .error e) : e.NamesNoMessage := by
  unfold sendIn at h
  rcases bind_eq_error.mp h with hactor | ⟨actor, _, h⟩
  · exact actorIn_namesNoMessage hactor
  rcases bind_eq_error.mp h with hto | ⟨recipients, _, h⟩
  · exact localAll_namesNoMessage hto
  rcases bind_eq_error.mp h with hcc | ⟨copies, _, h⟩
  · exact localAll_namesNoMessage hcc
  rcases bind_eq_error.mp h with hctx | ⟨ctx, _, h⟩
  · exact contextIn_namesNoMessage hctx
  rcases bind_eq_error.mp h with hknown | ⟨_, _, h⟩
  · exact rejectUnknown_namesNoMessage hknown
  · cases h

lemma joinIssued_namesNoMessage (draw : ℕ → Naming.Draw) (now : DateTime) (remaining attempt : ℕ)
    {s : InMemoryStore} {e : Raised}
    (h : (runs (joinIssued draw now remaining attempt) s).1 = .error e) : e.NamesNoMessage := by
  induction remaining generalizing attempt s with
  | zero =>
    cases h
    exact fun f => rfl
  | succ remaining ih =>
    rw [joinIssued, runs_bind, runs_claimName] at h
    dsimp only at h
    split_ifs at h
    · cases h
    · exact ih (attempt + 1) h

/-- A reading answers with the message, if it is visible. -/
lemma runs_read_answer (mb : Mailbox) (s : InMemoryStore) (caller objectId : String)
    (now : DateTime) :
    (runs (mb.read caller objectId now) s).1 = mb.visibleIn s caller objectId := by
  rw [runs_read]
  cases hactor : mb.actorIn s caller with
  | error e =>
    rw [visibleIn, hactor]
    rfl
  | ok actor => cases mb.visibleIn s caller objectId <;> rfl

/-- Neither is a joining that fails. -/
theorem join_namesNoMessage {requestedName : Option String} {draw : ℕ → Naming.Draw}
    {now : DateTime} {e : Raised} (h : (runs (mb.join requestedName draw now) s).1 = .error e) :
    e.NamesNoMessage := by
  cases requestedName with
  | none => exact joinIssued_namesNoMessage draw now nameAttempts 0 h
  | some requested =>
    rw [join, runs_bind, runs_ofExcept] at h
    cases hvalid : Naming.validate mb.unicode requested with
    | error e' =>
      rw [hvalid] at h
      obtain rfl := Except.error.inj h
      unfold Naming.validate at hvalid
      dsimp only at hvalid
      split_ifs at hvalid <;> cases hvalid <;> exact fun f => rfl
    | ok name =>
      rw [hvalid] at h
      dsimp only at h
      rw [runs_bind, runs_claimName] at h
      dsimp only at h
      split_ifs at h
      · cases h
      · cases h
        exact fun f => rfl

end Mailbox

/-! ## Reaches for the mail of others -/

section
variable (others : InMemoryStore → String → Bool)

namespace Mailbox

/-- The caller is refused a message, or its sending is stored without the parent it names. Which
ids stand for the mail of others is left to `others`: all, or those that a message stands at. -/
def Refuses (mb : Mailbox) (op : Operation) (s : InMemoryStore) : Prop :=
  match op with
  | .read caller objectId _ | .view caller objectId | .reply caller objectId _ _ _ =>
    others s objectId = true ∧
      mb.visibleIn s caller objectId = .error (.mailbox (.noSuchMessage objectId))
  | .send caller draft stamp => draft.inReplyTo.any (others s) = true ∧
      (mb.sendIn s caller draft stamp).map ObjectRecord.inReplyTo = .ok none
  | _ => False

instance (mb : Mailbox) (op : Operation) (s : InMemoryStore) :
    Decidable (mb.Refuses others op s) :=
  match op with
  | .read _ _ _ | .view _ _ | .reply _ _ _ _ _ | .send _ _ _ => inferInstanceAs (Decidable (_ ∧ _))
  | .join _ _ _ | .whois _ | .directory | .updateProfile _ _ _ | .installResident _ _ _
  | .peek _ | .unreadCount _ | .thread _ _ | .expire _ => isFalse id

variable {others} {mb : Mailbox} {s : InMemoryStore}

/-- Whoever is refused something has joined, under some name. -/
lemma Refuses.caller {op : Operation} (h : mb.Refuses others op s) :
    ∃ caller name, op.caller = some caller ∧ mb.local_ caller = .ok name := by
  have hlocal {caller : String} {actor : ActorRecord} (h : mb.actorIn s caller = .ok actor) :
      ∃ caller' name, some caller = some caller' ∧ mb.local_ caller' = .ok name :=
    ⟨caller, _, rfl, ((mb.actorIn_ok_iff s caller actor).mp h).1⟩
  have hrefused {caller objectId : String}
      (h : mb.visibleIn s caller objectId = .error (.mailbox (.noSuchMessage objectId))) :
      ∃ caller' name, some caller = some caller' ∧ mb.local_ caller' = .ok name := by
    rcases bind_eq_error.mp h with hactor | ⟨actor, hactor, _⟩
    · exact absurd rfl (actorIn_namesNoMessage hactor).not_isDenial
    · exact hlocal hactor
  cases op with
  | read caller objectId now => exact hrefused h.2
  | view caller objectId => exact hrefused h.2
  | reply caller objectId body subject stamp => exact hrefused h.2
  | send caller draft stamp =>
    obtain ⟨obj, hobj, _⟩ := map_eq_ok.mp h.2
    obtain ⟨actor, _, _, _, hactor, _⟩ := (mb.sendIn_ok_iff s caller draft stamp obj).mp hobj
    exact hlocal hactor
  | join | whois | directory | updateProfile | installResident | peek | unreadCount | thread |
    expire => exact h.elim

end Mailbox

namespace House

variable {μ : Type}

/-- The actor that the messaging rules refuse something in this step, by its name. -/
def denied (house : House μ) (op : Operation) (s : HouseState μ) : Option String :=
  if house.Passes op s ∧ house.mailbox.Refuses others op s.store then
    op.caller.bind fun caller => (house.mailbox.local_ caller).toOption
  else none

/-- How often in the run the actor is refused something. -/
def denials (house : House μ) (n : String) : HouseState μ → List Operation → ℕ
  | _, [] => 0
  | s, op :: ops => (if house.denied others op s = some n then 1 else 0) +
      house.denials n (house.step op s).2 ops

/-- The rules refuse nothing but readings, and a reading that fails is one that they refuse, of a
caller that gives its own bare name. -/
def Straight (house : House μ) (op : Operation) (s : HouseState μ) : Prop :=
  match op with
  | .read caller objectId _ => house.Passes op s →
      ∀ e, house.mailbox.visibleIn s.store caller objectId = .error e →
        house.mailbox.Refuses others op s.store ∧ house.mailbox.local_ caller = .ok caller
  | _ => house.Passes op s → ¬ house.mailbox.Refuses others op s.store

end House

end

/-! ## What is counted -/

namespace ProbeDetector

lemma looksOn (threshold : ℕ) : (probeDetector threshold).LooksOn := fun _ _ _ => rfl

/-- The actor an outcome is counted under, if it is counted. -/
def suspect (outcome : Outcome) : Option String :=
  if outcome.ok = false ∧
      (((outcome.detail.lookup "not_yours").any Json.truthy) || isDenial outcome.error) = true then
    some outcome.attempt.actor
  else none

lemma refusalsFor_record (threshold : ℕ) (outcome : Outcome) (m : Observations) (n : String) :
    refusalsFor (record threshold outcome m) n =
      refusalsFor m n + if suspect outcome = some n then 1 else 0 := by
  have hset (lines : List LogLine) : refusalsFor
      ⟨lines, m.refusals.set outcome.attempt.actor (refusalsFor m outcome.attempt.actor + 1)⟩ n =
        refusalsFor m n + if some outcome.attempt.actor = some n then 1 else 0 := by
    unfold refusalsFor
    rw [Dict.lookup_set]
    by_cases hactor : n = outcome.attempt.actor
    · rw [if_pos hactor, if_pos (congrArg some hactor.symm), hactor]
      rfl
    · rw [if_neg hactor, if_neg fun h => hactor (Option.some.inj h).symm]
      rfl
  unfold record
  cases hok : outcome.ok with
  | true =>
    have hsuspect : suspect outcome = none := if_neg fun h => by simp [hok] at h
    simp [hsuspect]
  | false =>
    by_cases hcounted :
        (((outcome.detail.lookup "not_yours").any Json.truthy) || isDenial outcome.error) = true
    · have hsuspect : suspect outcome = some outcome.attempt.actor := if_pos ⟨hok, hcounted⟩
      rw [hsuspect, if_neg Bool.false_ne_true, if_pos hcounted]
      dsimp only
      by_cases hmany : threshold ≤ (m.refusals.lookup outcome.attempt.actor).getD 0 + 1
      · rw [if_pos hmany]
        exact hset _
      · rw [if_neg hmany]
        exact hset _
    · have hsuspect : suspect outcome = none := if_neg fun h => hcounted h.2
      rw [hsuspect, if_neg Bool.false_ne_true, if_neg hcounted]
      rfl

/-- What is told to the detector is counted under the actor it suspects. -/
lemma refusalsFor_remembers (threshold : ℕ) (store : InMemoryStore) (m : Observations)
    (told : Option Outcome) (n : String) :
    refusalsFor (House.remembers (probeDetector threshold) store m told) n =
      refusalsFor m n + if told.bind suspect = some n then 1 else 0 := by
  cases told with
  | none => rfl
  | some outcome => exact refusalsFor_record threshold outcome m n

end ProbeDetector

namespace House

variable {μ ν : Type}

/-- The caller of a reading that the checks pass and that fails. -/
def suspected (house : House μ) (op : Operation) (s : HouseState μ) : Option String :=
  match op with
  | .read caller objectId _ =>
    if house.Passes op s ∧ (house.mailbox.visibleIn s.store caller objectId).toOption = none then
      some caller
    else none
  | _ => none

/-- Failures that are no refusals of a message are not counted, unless marked. -/
lemma suspect_toldIf {α : Type} (house : House μ) (s : HouseState μ) (attempt : Attempt)
    (onSuccess : α → JsonObject) {act : StoreProgram α}
    (hact : ∀ e, (runs act s.store).1 = .error e → e.NamesNoMessage) :
    (house.toldIf s attempt ∅ onSuccess act).bind ProbeDetector.suspect = none := by
  unfold toldIf
  split_ifs with haccepted
  · generalize (runs act s.store).1 = result at hact
    cases result with
    | ok a => rfl
    | error e =>
      have hdenial : ProbeDetector.isDenial (some e) = false :=
        Bool.eq_false_iff.mpr (hact e rfl).not_isDenial
      exact if_neg fun h => by simp [Attempt.outcome, hdenial] at h
  · rfl

lemma suspect_toldOfSend (house : House μ) (s : HouseState μ) (caller : String) (draft : Draft)
    (stamp : Stamp) :
    (house.toldOfSend s caller draft stamp).bind ProbeDetector.suspect = none := by
  refine suspect_toldIf house s _ _ fun e he => ?_
  rw [Mailbox.runs_send] at he
  cases hsent : house.mailbox.sendIn s.store caller draft stamp with
  | ok obj =>
    rw [hsent] at he
    cases he
  | error e' =>
    rw [hsent] at he
    cases he
    exact Mailbox.sendIn_namesNoMessage hsent

/-- Only readings are counted, and of these all that fail. -/
theorem suspect_toldOf (house : House μ) (op : Operation) (s : HouseState μ) :
    (house.toldOf op s).bind ProbeDetector.suspect = house.suspected op s := by
  cases op with
  | join requestedName draw now =>
    exact suspect_toldIf house s _ _ fun _ he => Mailbox.join_namesNoMessage he
  | send caller draft stamp => exact house.suspect_toldOfSend s caller draft stamp
  | reply caller objectId body subject stamp =>
    rw [toldOf]
    cases house.mailbox.visibleIn s.store caller objectId with
    | error e => rfl
    | ok original => exact house.suspect_toldOfSend s caller _ stamp
  | view caller objectId =>
    rw [toldOf]
    cases house.mailbox.visibleIn s.store caller objectId with
    | error e => rfl
    | ok obj => rfl
  | read caller objectId now =>
    rw [toldOf, suspected, toldIf]
    by_cases hpassed : Accepted (readAttempt caller objectId) s.store house.policies s.memory
    · rw [if_pos hpassed, house.mailbox.runs_read_answer]
      cases house.mailbox.visibleIn s.store caller objectId with
      | error e => rw [if_pos ⟨hpassed, rfl⟩]; rfl
      | ok obj =>
        have hanswered : ¬ (house.Passes (.read caller objectId now) s ∧
            (Except.ok obj : Except Raised ObjectRecord).toOption = none) := by
          rintro ⟨_, hnone⟩
          cases hnone
        rw [if_neg hanswered]
        rfl
    · rw [if_neg hpassed, if_neg fun h => hpassed h.1]
      rfl
  | whois | directory | updateProfile | installResident | peek | unreadCount | thread | expire =>
    rfl

lemma denied_eq_suspected_iff (others : InMemoryStore → String → Bool) (house : House μ)
    (op : Operation) (s : HouseState μ) :
    house.denied others op s = house.suspected op s ↔ house.Straight others op s := by
  have hdenied : house.denied others op s = none ↔
      (house.Passes op s → ¬ house.mailbox.Refuses others op s.store) := by
    unfold denied
    split_ifs with hrefused
    · obtain ⟨caller, name, hcaller, hname⟩ := hrefused.2.caller
      simp [hcaller, hname, hrefused, Except.toOption]
    · simpa using hrefused
  cases op with
  | read caller objectId now =>
    unfold suspected Straight
    dsimp only
    by_cases hpassed : house.Passes (.read caller objectId now) s
    · cases hvisible : house.mailbox.visibleIn s.store caller objectId with
      | ok obj =>
        have hanswered : ¬ (house.Passes (.read caller objectId now) s ∧
            (Except.ok obj : Except Raised ObjectRecord).toOption = none) := by
          rintro ⟨_, hnone⟩
          cases hnone
        rw [if_neg hanswered]
        refine iff_of_true (hdenied.mpr fun _ hrefuses => ?_) fun _ e he => ?_
        · cases hvisible.symm.trans hrefuses.2
        · cases he
      | error e =>
        rw [if_pos ⟨hpassed, rfl⟩]
        unfold denied
        constructor
        · intro hdenied _ _ _
          split_ifs at hdenied with hrefused
          exact ⟨hrefused.2, toOption_eq_some.mp hdenied⟩
        · intro hstraight
          obtain ⟨hrefused, hlocal⟩ := hstraight hpassed e rfl
          rw [if_pos ⟨hpassed, hrefused⟩]
          exact toOption_eq_some.mpr hlocal
    · rw [if_neg fun h => hpassed h.1]
      exact iff_of_true (hdenied.mpr fun h => absurd h hpassed) fun h => absurd h hpassed
  | join | whois | directory | updateProfile | installResident | send | reply | peek |
    unreadCount | thread | view | expire => exact hdenied

section
variable (threshold : ℕ) (mailbox : Mailbox) (earlier later : List (Policy ν))
  (others : InMemoryStore → String → Bool)

lemma refusalsFor_step (op : Operation) (s : HouseState (Observations × ν)) (n : String) :
    ProbeDetector.refusalsFor
        ((watched mailbox (probeDetector threshold) earlier later).step op s).2.memory.1 n =
      ProbeDetector.refusalsFor s.memory.1 n +
        if (watched mailbox (probeDetector threshold) earlier later).suspected op s = some n then 1
        else 0 := by
  have hremembers :=
    remembers_program mailbox earlier later (ProbeDetector.looksOn threshold) op s
  unfold Remembers at hremembers
  unfold step
  rw [hremembers, ProbeDetector.refusalsFor_remembers, suspect_toldOf]

/-- A step counts what it denies exactly if it is straight. -/
theorem counts_step_iff (op : Operation) (s : HouseState (Observations × ν)) :
    (∀ n, ProbeDetector.refusalsFor
        ((watched mailbox (probeDetector threshold) earlier later).step op s).2.memory.1 n =
      ProbeDetector.refusalsFor s.memory.1 n +
        if (watched mailbox (probeDetector threshold) earlier later).denied others op s = some n
        then 1 else 0) ↔
      (watched mailbox (probeDetector threshold) earlier later).Straight others op s := by
  rw [← denied_eq_suspected_iff]
  simp only [refusalsFor_step]
  constructor
  · intro hall
    refine Option.ext fun n => ?_
    have hn := Nat.add_left_cancel (hall n)
    split_ifs at hn with hsuspected hdenied hdenied
    · exact iff_of_true hdenied hsuspected
    · exact iff_of_false hdenied hsuspected
  · intro hsame n
    rw [hsame]

end

end House

/-- In every state of a run the detector has counted what was refused to each actor, exactly if
every step of the run is straight. -/
theorem probes_counted_iff {ν : Type} (threshold : ℕ) (mailbox : Mailbox)
    (earlier later : List (Policy ν)) (others : InMemoryStore → String → Bool)
    (s : HouseState (Observations × ν)) (ops : List Operation) :
    (∀ k n, ProbeDetector.refusalsFor ((House.watched mailbox (probeDetector threshold) earlier
        later).after s (ops.take k)).memory.1 n = ProbeDetector.refusalsFor s.memory.1 n +
      (House.watched mailbox (probeDetector threshold) earlier later).denials others n s
        (ops.take k)) ↔
      (House.watched mailbox (probeDetector threshold) earlier later).Throughout
        ((House.watched mailbox (probeDetector threshold) earlier later).Straight others)
        s ops := by
  induction ops generalizing s with
  | nil => simp [House.after, House.denials, House.Throughout]
  | cons op ops ih =>
    rw [House.Throughout, ← ih, ← House.counts_step_iff]
    constructor
    · intro hall
      have hstep (n : String) := hall 1 n
      refine ⟨hstep, fun k n => ?_⟩
      have hfirst := hstep n
      have hlater := hall (k + 1) n
      simp only [List.take_succ_cons, House.after, House.denials, List.foldl_cons,
        List.take_zero, List.foldl_nil, Nat.add_zero] at hfirst hlater ⊢
      omega
    · rintro ⟨hstep, hrest⟩ k n
      cases k with
      | zero => rfl
      | succ k =>
        have hfirst := hstep n
        have hlater := hrest k n
        simp only [List.take_succ_cons, House.after, House.denials, List.foldl_cons]
          at hlater ⊢
        omega

/-- A house with a detector and no other policy. -/
def probedHouse : House (Observations × Unit) := .watched asciiMailbox (probeDetector 5) [] []

/-- Carol reaches four times for what alice wrote to bob; dave, who has not joined, reads. -/
def prying : List Operation :=
  [joinAs "alice", joinAs "bob", joinAs "carol",
    .send "alice" { to_ := .one "bob", body := "hello" } ⟨"m1", january 2⟩,
    .read "Carol@local" "m1" (january 3), .view "carol" "m1",
    .reply "carol" "m1" "hello" none ⟨"m2", january 3⟩,
    .send "carol" { to_ := .one "bob", body := "hello", inReplyTo := some "m1" }
      ⟨"m3", january 3⟩,
    .read "dave" "m1" (january 3)]

/-- A message stands at the id. -/
def messageStands (s : InMemoryStore) (id : String) : Bool := decide (id ∈ s.objects)

/-- None of carol's reaches is counted as hers, and dave's reading, which fails for another reason,
is counted. -/
theorem prying_miscounted :
    let refusals := (probedHouse.after ⟨.empty, {}, ()⟩ prying).memory.1
    probedHouse.denials messageStands "carol" ⟨.empty, {}, ()⟩ prying = 4 ∧
      ProbeDetector.refusalsFor refusals "carol" = 0 ∧
      probedHouse.denials messageStands "dave" ⟨.empty, {}, ()⟩ prying = 0 ∧
      ProbeDetector.refusalsFor refusals "dave" = 1 := by
  decide +kernel

end AgentMailbox
