import AgentMailbox.Old.Verbs
import Mathlib.Logic.Relation

/-!
# What a verb can do

A verb makes at most a few writes, one after the other, each of one of three kinds; or it is a
rename, or the file is opened. What each of these preserves, every run preserves.
-/
namespace AgentMailbox.Old

namespace Hub

/-- What a rename has found out before it writes. -/
structure Renames (hub : Hub) (project agent to_ : String) (role : Option String)
    (clock : RenameClock) (t : Tables) (r : Renaming) : Prop where
  old : formatAddress hub.unicode project agent role = .ok r.old
  target : parseAddress hub.unicode to_ = .ok ⟨some r.project, some r.agent, r.role⟩
  new_ : formatAddress hub.unicode r.project r.agent r.role = .ok r.new_
  moves : r.new_ ≠ r.old
  free : ∀ info, hub.whois r.project r.agent r.role clock.seen t = .ok (some info) →
    info.stale = true
  looked : ∃ found, hub.whois r.project r.agent r.role clock.seen t = .ok found
  onward : resolvesTo t r.new_ r.old = false
  expires : clock.now.plusDays hub.renameGraceDays.toNat = some r.expires

theorem checkRename_ok {hub : Hub} {project agent to_ : String} {role : Option String}
    {clock : RenameClock} {t : Tables} {r : Renaming}
    (h : hub.checkRename project agent to_ role clock t = .ok r) :
    Renames hub project agent to_ role clock t r := by
  obtain ⟨old, hold, h⟩ := bind_eq_ok.mp h
  obtain ⟨⟨newProject, newAgent, newRole⟩, htarget, h⟩ := bind_eq_ok.mp h
  cases newProject with
  | none => cases h
  | some newProject =>
  cases newAgent with
  | none => cases h
  | some newAgent =>
    obtain ⟨new_, hnew, h⟩ := bind_eq_ok.mp h
    by_cases hsame : new_ = old
    · rw [if_pos hsame] at h
      cases h
    rw [if_neg hsame] at h
    obtain ⟨occupant, hoccupant, h⟩ := bind_eq_ok.mp h
    split_ifs at h with hheld hback
    cases hexpires : clock.now.daysAfter (max hub.renameGraceDays 0) with
    | error e => simp [hexpires] at h
    | ok expires =>
      simp only [hexpires] at h
      obtain ⟨found, _, h⟩ := bind_eq_ok.mp h
      cases h
      have hgrace : (max hub.renameGraceDays 0).toNat = hub.renameGraceDays.toNat := by omega
      refine ⟨hold, htarget, hnew, hsame, fun info hinfo => ?_, ⟨_, hoccupant⟩,
        Bool.eq_false_iff.mpr hback, hgrace ▸ DateTime.daysAfter_ok hexpires⟩
      dsimp only at hoccupant
      rw [hoccupant] at hinfo
      cases hinfo
      simpa using hheld

/-- What is stored is what was checked: its address names its target. -/
theorem prepare_ok {hub : Hub} {message sent : Message} {now : DateTime} {t : Tables}
    {target : Target} (h : hub.prepare message now t = .ok (sent, target)) :
    parseAddress hub.unicode sent.to_ = .ok target ∧ ∃ followed,
      follow message now t = .ok followed ∧ hub.threadSenderMayJoin followed t = .ok sent := by
  obtain ⟨followed, hfollow, h⟩ := bind_eq_ok.mp h
  obtain ⟨joined, hjoin, h⟩ := bind_eq_ok.mp h
  dsimp only at h
  split_ifs at h
  obtain ⟨found, htarget, h⟩ := bind_eq_ok.mp h
  cases h
  exact ⟨htarget, followed, hfollow, hjoin⟩

/-! ## Writes -/

/-- The tables after a rename. -/
def renamed (project agent : String) (role : Option String) (clock : RenameClock) (r : Renaming)
    (t : Tables) : Tables :=
  { moveEntry project agent role r clock.written t with
    messages := t.messages.update (readdress project agent role r)
      (readdress_id project agent role r)
    reads := moveReads r.old r.new_ t
    forwards := moveForwards r clock.now t }

/-- One write. -/
inductive Write (hub : Hub) (t : Tables) : Tables → Prop
  | posts (message sent : Message) (now : DateTime) (target : Target)
      (messages : Table MessageRow.id) (hprepare : hub.prepare message now t = .ok (sent, target))
      (hinsert : t.messages.insert (rowOf sent target) = some messages) :
      Write hub t { t with messages := messages }
  | consumes (project agent messageId : String) (role : Option String) (reader : Reader)
      (row : MessageRow) (now : DateTime) (hreader : hub.reader project agent role = .ok reader)
      (hrow : routedRow t reader messageId = some row) :
      Write hub t { t with reads := (t.reads.insertOrIgnore ⟨messageId, reader.me, now⟩).2 }
  | lists (agents : Table AgentRow.key) : Write hub t { t with agents := agents }

/-- Some writes, one after the other. -/
abbrev Writes (hub : Hub) (t t' : Tables) : Prop := Relation.ReflTransGen (Write hub) t t'

/-- What opening the file does. -/
inductive Opens (t : Tables) : Tables → Prop
  | stamps (stamped : DateTime) : Opens t (stamp stamped t)
  | purges (stamped cutoff : DateTime) : Opens t (purged cutoff (stamp stamped t))

section
variable {hub : Hub} {t : Tables}

lemma writes_send (message : Message) (now : DateTime) :
    Writes hub t (hub.send message now t).2 := by
  unfold send
  cases hprepare : hub.prepare message now t with
  | error e => exact .refl
  | ok prepared =>
    obtain ⟨sent, target⟩ := prepared
    dsimp only
    cases hinsert : t.messages.insert (rowOf sent target) with
    | none => exact .refl
    | some messages => exact .single (.posts message sent now target messages hprepare hinsert)

lemma writes_read (project agent messageId : String) (role : Option String) (now : DateTime) :
    Writes hub t (hub.read project agent messageId role now t).2 := by
  unfold read
  cases hreader : hub.reader project agent role with
  | error e => exact .refl
  | ok reader =>
    dsimp only
    cases hrow : routedRow t reader messageId with
    | none => exact .refl
    | some row =>
      have hwrite : Write hub t _ :=
        .consumes project agent messageId role reader row now hreader hrow
      dsimp only
      split_ifs <;> exact .single hwrite

lemma writes_answer (project agent : String) (role : Option String) (original : Message)
    (body : String) (subject : Option String) (stamp : Stamp) (now : DateTime) :
    Writes hub t (hub.answer project agent role original body subject stamp now t).2 := by
  unfold answer
  cases formatAddress hub.unicode project agent role with
  | error e => exact .refl
  | ok me => exact writes_send _ now

lemma writes_reply (project agent messageId body : String) (subject role : Option String)
    (readAt : DateTime) (stamp : Stamp) (now : DateTime) :
    Writes hub t
      (hub.reply project agent messageId body subject role readAt stamp now t).2 := by
  have hread : Writes hub t _ := writes_read project agent messageId role readAt
  unfold reply
  generalize hub.read project agent messageId role readAt t = done at hread ⊢
  obtain ⟨e | original, t'⟩ := done
  · dsimp only at hread ⊢
    split_ifs
    · rcases hub.readableMessage project agent messageId role t' with e' | _ | original
      · exact hread
      · exact hread
      · exact hread.trans (writes_answer project agent role original body subject stamp now)
    · exact hread
  · exact hread.trans (writes_answer project agent role original body subject stamp now)

lemma writes_ping (project agent : String) (role : Option String) (stamp : Stamp)
    (now readAt : DateTime) : Writes hub t (hub.ping project agent role stamp now readAt t).2 := by
  unfold ping
  cases formatAddress hub.unicode project agent role with
  | error e => exact .refl
  | ok me =>
    dsimp only
    have hsend : Writes hub t _ := writes_send (probe me stamp) now
    generalize hub.send _ now t = sent at hsend ⊢
    obtain ⟨e | probe, t'⟩ := sent
    · exact hsend
    · exact hsend.trans (writes_read project agent stamp.id role readAt)

lemma writes_supersede (caller : String) (addresses : List (String × DateTime)) :
    Writes hub t (hub.supersede caller addresses t).2 := by
  induction addresses generalizing t with
  | nil => exact .refl
  | cons address addresses ih =>
    unfold supersede
    split
    · exact .refl
    · split_ifs
      · exact ih
      · split
        · exact .refl
        · exact ih
        · split_ifs
          · exact .head (.lists _) ih
          · exact ih
    · exact ih

lemma opens_connect (stamped now : DateTime) : Opens t (hub.connect stamped now t).2 := by
  unfold connect purgeExpired
  split_ifs
  · exact .stamps stamped
  · split
    · exact .stamps stamped
    · exact .purges stamped _

lemma map_ne_renamed {α : Type} {x : Except Failure α} {f : α → Answer}
    (hf : ∀ a old new_ n, f a ≠ .renamed old new_ n) (old new_ : String) (n : ℕ) :
    x.map f ≠ .ok (.renamed old new_ n) := by
  cases x with
  | error e => simp [Except.map]
  | ok a => simpa [Except.map] using hf a old new_ n

/-- A verb makes some writes, or it opens the file, or it is a rename that has passed its
checks. -/
theorem step_cases (hub : Hub) (verb : Verb) (t : Tables) :
    ((Writes hub t (hub.step verb t).2 ∨ Opens t (hub.step verb t).2) ∧
      ∀ old new_ n, (hub.step verb t).1 ≠ .ok (.renamed old new_ n)) ∨
    ∃ project agent to_ role clock r n, verb = .rename project agent to_ role clock ∧
      Renames hub project agent to_ role clock t r ∧
      hub.step verb t = (.ok (.renamed r.old r.new_ n), renamed project agent role clock r t) := by
  cases verb with
  | send message now =>
    exact Or.inl ⟨Or.inl (writes_send message now), map_ne_renamed (by simp)⟩
  | read project agent messageId role now =>
    exact Or.inl ⟨Or.inl (writes_read project agent messageId role now), map_ne_renamed (by simp)⟩
  | reply project agent messageId body subject role readAt stamp now =>
    exact Or.inl ⟨Or.inl (writes_reply project agent messageId body subject role readAt stamp now),
      map_ne_renamed (by simp)⟩
  | ping project agent role stamp now readAt =>
    exact Or.inl ⟨Or.inl (writes_ping project agent role stamp now readAt),
      map_ne_renamed (by simp)⟩
  | touch project agent role now =>
    exact Or.inl ⟨Or.inl (.single (.lists _)), fun _ _ _ => by simp [step]⟩
  | register project agent profile role now seen =>
    exact Or.inl ⟨Or.inl (.single (.lists _)), map_ne_renamed (by simp)⟩
  | updateStatus project agent status role seen now again =>
    refine Or.inl ⟨Or.inl ?_, map_ne_renamed (by simp)⟩
    change Writes hub t (hub.updateStatus project agent status role seen now again t).2
    unfold updateStatus
    cases hub.whois project agent role seen t with
    | error e => exact .refl
    | ok current => exact .single (.lists _)
  | retire project agent role =>
    exact Or.inl ⟨Or.inl (.single (.lists _)), fun _ _ _ => by simp [step]⟩
  | supersede caller addresses =>
    exact Or.inl ⟨Or.inl (writes_supersede caller addresses), map_ne_renamed (by simp)⟩
  | rename project agent to_ role clock =>
    cases hcheck : hub.checkRename project agent to_ role clock t with
    | error e =>
      have hstep : hub.step (.rename project agent to_ role clock) t = (.error e, t) := by
        simp [step, rename, hcheck, Except.map]
      rw [hstep]
      exact Or.inl ⟨Or.inl .refl, fun _ _ _ => by simp⟩
    | ok r =>
      refine Or.inr ⟨project, agent, to_, role, clock, r,
        (t.messages.rows.filter (deliveredTo project agent role)).length, rfl,
        checkRename_ok hcheck, ?_⟩
      simp [step, rename, hcheck, Except.map, renamed]
  | connect stamped now =>
    exact Or.inl ⟨Or.inr (opens_connect stamped now), map_ne_renamed (by simp)⟩

/-- What every write preserves, some writes preserve. -/
lemma Writes.invariant {I : Tables → Prop} (hwrite : ∀ t t', I t → Write hub t t' → I t')
    {t t' : Tables} (h : Writes hub t t') (ht : I t) : I t' := by
  induction h with
  | refl => exact ht
  | tail _ hstep ih => exact hwrite _ _ ih hstep

/-- What every write, every opening and every rename preserves, every run preserves. -/
theorem after_invariant (hub : Hub) {I : Tables → Prop}
    (hwrite : ∀ t t', I t → Write hub t t' → I t')
    (hopen : ∀ t t', I t → Opens t t' → I t')
    (hrename : ∀ t project agent to_ role clock r, I t →
      Renames hub project agent to_ role clock t r → I (renamed project agent role clock r t))
    (ht : I t) (verbs : List Verb) : I (hub.after t verbs) := by
  induction verbs generalizing t with
  | nil => exact ht
  | cons verb verbs ih =>
    refine ih ?_
    change I (hub.step verb t).2
    rcases step_cases hub verb t with ⟨hwrites | hopens, _⟩ |
      ⟨project, agent, to_, role, clock, r, n, _, hchecked, hstep⟩
    · exact hwrites.invariant hwrite ht
    · exact hopen _ _ ht hopens
    · rw [hstep]
      exact hrename t project agent to_ role clock r ht hchecked

/-- Every call of the run satisfies `p` in the state it is made in. -/
def Throughout (hub : Hub) (p : Verb → Tables → Prop) : Tables → List Verb → Prop
  | _, [] => True
  | t, verb :: verbs => p verb t ∧ Throughout hub p (hub.step verb t).2 verbs

/-- When a call leads from `I` to `I` exactly if it satisfies `p`, a run stays in `I` exactly if
every call of it does. -/
theorem along_iff {I : Tables → Prop} {p : Verb → Tables → Prop}
    (hstep : ∀ verb t, I t → (I (hub.step verb t).2 ↔ p verb t)) (ht : I t) (verbs : List Verb) :
    (∀ n, I (hub.after t (verbs.take n))) ↔ Throughout hub p t verbs := by
  induction verbs generalizing t with
  | nil => simp [Throughout, after, ht]
  | cons verb verbs ih =>
    constructor
    · intro hall
      have hnext : I (hub.step verb t).2 := hall 1
      exact ⟨(hstep verb t ht).mp hnext, (ih hnext).mp fun n => hall (n + 1)⟩
    · rintro ⟨hverb, hrest⟩ n
      cases n with
      | zero => exact ht
      | succ n => exact (ih ((hstep verb t ht).mpr hverb)).mpr hrest n

end

end Hub

end AgentMailbox.Old
