import AgentMailbox.Old.Consumption
import AgentMailbox.Old.Delivery

/-!
# Moving

What a rename does to inboxes: to the one of the agent that takes the new name, and to those of
all others.
-/
namespace AgentMailbox.Old

namespace Hub

/-! ## Rows of mail -/

section
variable {project agent : String} {role : Option String} {r : Renaming} {row : MessageRow}

lemma readdress_from : (readdress project agent role r row).from_ =
    if row.from_ = r.old then r.new_ else row.from_ := by
  unfold readdress
  dsimp only
  split_ifs <;> rfl

lemma readdress_kind : (readdress project agent role r row).kind = row.kind := by
  unfold readdress
  dsimp only
  split_ifs <;> rfl

lemma readdress_created : (readdress project agent role r row).created = row.created := by
  unfold readdress
  dsimp only
  split_ifs <;> rfl

/-- What was not delivered to the old address changes its sender at most. -/
lemma readdress_of_not_deliveredTo (h : deliveredTo project agent role row = false) :
    readdress project agent role r row =
      if row.from_ = r.old then { row with from_ := r.new_ } else row := by
  unfold readdress
  simp only [h, Bool.false_eq_true, if_false]

/-- After a rename, mail that had been delivered to the old address is routed to whom the new
one covers, and all other mail as it was. -/
lemma routesTo_readdress (reader : Reader) :
    (readdress project agent role r row).routesTo reader =
      if deliveredTo project agent role row then
        Target.covers ⟨some r.project, some r.agent, r.role⟩ reader
      else row.routesTo reader := by
  cases hdelivered : deliveredTo project agent role row with
  | false =>
    rw [readdress_of_not_deliveredTo hdelivered, if_neg Bool.false_ne_true]
    split_ifs <;> rfl
  | true =>
    unfold readdress
    simp only [hdelivered, if_true]
    split_ifs <;> rfl

/-- The new address covers the agent that takes it. -/
lemma covers_new (r : Renaming) : Target.covers ⟨some r.project, some r.agent, r.role⟩
    ⟨r.project, r.agent, r.role.getD "", r.new_⟩ = true := by
  cases hrole : r.role with
  | none => simp [Target.covers]
  | some role => simp [Target.covers]

/-- What was delivered to the old address was not routed to anybody of another name. -/
lemma not_deliveredTo_of_routesTo {reader : Reader} (h : row.routesTo reader = true)
    (hother : (reader.proj, reader.agent) ≠ (project, agent)) :
    deliveredTo project agent role row = false := by
  by_contra hdelivered
  simp only [Bool.not_eq_false, deliveredTo, MessageRow.routesTo, Bool.and_eq_true,
    Bool.or_eq_true, decide_eq_true_eq] at hdelivered h
  obtain ⟨⟨hproject, hagent⟩, _⟩ := hdelivered
  obtain ⟨⟨hp, ha⟩, _⟩ := h
  rw [hproject] at hp
  rw [hagent] at ha
  simp only [reduceCtorEq, Option.some.injEq, false_or] at hp ha
  exact hother (by rw [hp, ha])

/-- Mail is routed to those of other names as it was. -/
lemma routesTo_readdress_other {reader : Reader}
    (hold : (reader.proj, reader.agent) ≠ (project, agent))
    (hnew : (reader.proj, reader.agent) ≠ (r.project, r.agent)) :
    (readdress project agent role r row).routesTo reader = row.routesTo reader := by
  rw [routesTo_readdress]
  split_ifs with hdelivered
  · have hbefore : row.routesTo reader = false := by
      by_contra hroutes
      rw [not_deliveredTo_of_routesTo (Bool.not_eq_false _ ▸ hroutes) hold] at hdelivered
      cases hdelivered
    have hafter : Target.covers ⟨some r.project, some r.agent, r.role⟩ reader = false := by
      rw [Bool.eq_false_iff]
      intro hcovers
      simp only [Target.covers, Bool.and_eq_true, Bool.or_eq_true, decide_eq_true_eq,
        reduceCtorEq, Option.some.injEq, false_or] at hcovers
      exact hnew (by rw [hcovers.1.1, hcovers.1.2])
    rw [hbefore, hafter]
  · rfl

end

/-! ## Inboxes -/

section
variable {hub : Hub} {t : Tables} {project agent to_ : String} {role : Option String}
  {clock : RenameClock} {r : Renaming}

/-- What waits for an agent that has taken a new name: what had been delivered to the old
address, and what was routed to the new one, from others, that neither name has consumed. -/
def carried (t : Tables) (project agent : String) (role : Option String) (r : Renaming)
    (row : MessageRow) : Bool :=
  (deliveredTo project agent role row ||
      row.routesTo ⟨r.project, r.agent, r.role.getD "", r.new_⟩) &&
    !(row.from_ = r.old || row.from_ = r.new_) &&
    !(t.hasRead r.old row.id || t.hasRead r.new_ row.id)

lemma waits_renamed_new {row : MessageRow} (hkind : row.kind = "fanout") :
    (renamed project agent role clock r t).waits ⟨r.project, r.agent, r.role.getD "", r.new_⟩
      (readdress project agent role r row) = carried t project agent role r row := by
  have hread : (renamed project agent role clock r t).hasRead r.new_ row.id =
      (t.hasRead r.old row.id || t.hasRead r.new_ row.id) := by
    rw [Bool.eq_iff_iff, hasRead_renamed_new, Bool.or_eq_true]
  have hfrom : decide ((if row.from_ = r.old then r.new_ else row.from_) = r.new_) =
      (decide (row.from_ = r.old) || decide (row.from_ = r.new_)) := by
    split_ifs with hold
    · simp [hold]
    · simp [hold]
  have hroutes : (readdress project agent role r row).routesTo
      ⟨r.project, r.agent, r.role.getD "", r.new_⟩ = (deliveredTo project agent role row ||
        row.routesTo ⟨r.project, r.agent, r.role.getD "", r.new_⟩) := by
    rw [routesTo_readdress, covers_new]
    cases deliveredTo project agent role row <;> rfl
  simp only [Tables.waits, MessageRow.notMyOwnFanout, carried, hroutes, readdress_from,
    readdress_kind, readdress_id, hread, hkind, decide_true, Bool.true_and, hfrom]

/-- What waits for a reader of a third address after a rename: of what had been delivered to the
old address, what the new one sends its way; and all other mail as before. -/
def bypassing (t : Tables) (project agent : String) (role : Option String) (r : Renaming)
    (reader : Reader) (row : MessageRow) : Bool :=
  (if deliveredTo project agent role row then
      Target.covers ⟨some r.project, some r.agent, r.role⟩ reader
    else row.routesTo reader) &&
    !(row.from_ = reader.me) && !t.hasRead reader.me row.id

lemma waits_renamed_third {row : MessageRow} {reader : Reader} (hkind : row.kind = "fanout")
    (hmeold : reader.me ≠ r.old) (hmenew : reader.me ≠ r.new_) :
    (renamed project agent role clock r t).waits reader (readdress project agent role r row) =
      bypassing t project agent role r reader row := by
  have hfrom : (if row.from_ = r.old then r.new_ else row.from_) = reader.me ↔
      row.from_ = reader.me := by
    split_ifs with h
    · simp [h, hmeold.symm, hmenew.symm]
    · rfl
  simp only [Tables.waits, MessageRow.notMyOwnFanout, bypassing, routesTo_readdress,
    readdress_from, readdress_kind, readdress_id, hasRead_renamed_other hmeold hmenew, hfrom,
    hkind, decide_true, Bool.true_and]

/-- For a reader of another name the same mail waits as before. -/
lemma bypassing_other {row : MessageRow} {reader : Reader} (hkind : row.kind = "fanout")
    (hold : (reader.proj, reader.agent) ≠ (project, agent))
    (hnew : (reader.proj, reader.agent) ≠ (r.project, r.agent)) :
    bypassing t project agent role r reader row = t.waits reader row := by
  simp only [bypassing, ← routesTo_readdress, routesTo_readdress_other hold hnew, Tables.waits,
    MessageRow.notMyOwnFanout, hkind, decide_true, Bool.true_and]

/-- What is shown after a rename is what the rename makes of some of the mail. -/
lemma peek_renamed {reader : Reader} {p : MessageRow → Bool} {project' agent' : String}
    {role' : Option String} (hreader : hub.reader project' agent' role' = .ok reader)
    (hp : ∀ row ∈ t.messages.rows, (renamed project agent role clock r t).waits reader
      (readdress project agent role r row) = p row) :
    hub.peek project' agent' role' (renamed project agent role clock r t) =
      .ok ((oldestFirst (t.messages.rows.filter p)).map fun row =>
        (readdress project agent role r row).toMessage) := by
  have hrows : ((renamed project agent role clock r t).messages.rows.filter
      ((renamed project agent role clock r t).waits reader)) =
        (t.messages.rows.filter p).map (readdress project agent role r) := by
    change (t.messages.rows.map (readdress project agent role r)).filter _ = _
    rw [List.filter_map]
    congr 1
    exact List.filter_congr hp
  have hsort : oldestFirst ((t.messages.rows.filter p).map (readdress project agent role r)) =
      (oldestFirst (t.messages.rows.filter p)).map (readdress project agent role r) :=
    Sorting.sortBy_map (fun a b => by simp only [readdress_created]) _
  simp only [peek, hreader, ok_bind, hrows, hsort, List.map_map]
  rfl

/-- An agent moves with its mail. What it is shown under the new name, from any state that is
reached, is what had been delivered to the old address and what was addressed to the new one,
less what it sent and what it has consumed under either name. A reader of any third address is
shown what it was, except for the mail that had been delivered to the old address: of that, it
is shown what the new address sends its way. So everybody of another project or agent name is
shown the same messages in the same order, from the sender's name of today. -/
theorem moves_with_its_mail (hub : Hub) (verbs : List Verb) (project agent to_ : String)
    (role : Option String) (clock : RenameClock) (old new_ : String) (n : ℕ)
    (h : (hub.step (.rename project agent to_ role clock) (hub.after .empty verbs)).1 =
      .ok (.renamed old new_ n)) :
    let t := hub.after .empty verbs
    let t' := (hub.step (.rename project agent to_ role clock) t).2
    ∃ r, r.old = old ∧ r.new_ = new_ ∧
      parseAddress hub.unicode to_ = .ok ⟨some r.project, some r.agent, r.role⟩ ∧
      hub.peek r.project r.agent r.role t' =
        .ok ((oldestFirst (t.messages.rows.filter (carried t project agent role r))).map
          fun row => (readdress project agent role r row).toMessage) ∧
      (∀ project' agent' role' reader, hub.reader project' agent' role' = .ok reader →
        reader.me ≠ old → reader.me ≠ new_ → hub.peek project' agent' role' t' =
          .ok ((oldestFirst (t.messages.rows.filter
            (bypassing t project agent role r reader))).map
              fun row => (readdress project agent role r row).toMessage)) ∧
      ∀ project' agent' role' messages, hub.peek project' agent' role' t = .ok messages →
        (project', agent') ≠ (project, agent) → (project', agent') ≠ (r.project, r.agent) →
        hub.peek project' agent' role' t' = .ok (messages.map fun message =>
          if message.from_ = old then { message with from_ := new_ } else message) := by
  intro t t'
  have hproper : Proper hub t := proper_after hub verbs
  obtain ⟨r, hchecked, hold, hnew, ht'⟩ : ∃ r, Renames hub project agent to_ role clock t r ∧
      r.old = old ∧ r.new_ = new_ ∧ t' = renamed project agent role clock r t := by
    rcases step_cases hub (.rename project agent to_ role clock) t with ⟨_, hanswer⟩ |
      ⟨_, _, _, _, clock', r, _, hverb, hchecked, hstep⟩
    · exact absurd h (hanswer old new_ n)
    · cases hverb
      rw [show hub.after .empty verbs = t from rfl, hstep] at h
      cases h
      exact ⟨r, hchecked, rfl, rfl, congrArg Prod.snd hstep⟩
  subst hold hnew
  rw [ht']
  refine ⟨r, rfl, rfl, hchecked.target, ?_,
    fun project' agent' role' reader hreader hmeold hmenew => ?_,
    fun project' agent' role' messages hmessages hother hothernew => ?_⟩
  · exact peek_renamed (reader_ok hchecked.new_) fun row hrow =>
      waits_renamed_new (hproper row hrow).fanout
  · exact peek_renamed hreader fun row hrow =>
      waits_renamed_third (hproper row hrow).fanout hmeold hmenew
  · obtain ⟨reader, hreader, hlisted⟩ := bind_eq_ok.mp hmessages
    cases hlisted
    obtain ⟨me, hme, hfields⟩ := bind_eq_ok.mp hreader
    cases hfields
    have hmeold : me ≠ r.old := by
      rintro rfl
      exact hother (names_of_address hme hchecked.old)
    have hmenew : me ≠ r.new_ := by
      rintro rfl
      exact hothernew (names_of_address hme hchecked.new_)
    rw [peek_renamed (reader_ok hme) fun row hrow =>
      (waits_renamed_third (hproper row hrow).fanout hmeold hmenew).trans
        (bypassing_other (hproper row hrow).fanout hother hothernew), List.map_map]
    refine congrArg Except.ok (List.map_congr_left fun row hrow => ?_)
    have hroutes : row.routesTo ⟨project', agent', role'.getD "", me⟩ = true := by
      have hwaits := (List.mem_filter.mp ((oldestFirst_perm _).mem_iff.mp hrow)).2
      simp only [Tables.waits, Bool.and_eq_true] at hwaits
      exact hwaits.1.1
    rw [readdress_of_not_deliveredTo (not_deliveredTo_of_routesTo hroutes hother)]
    have hfrom : row.toMessage.from_ = row.from_ := rfl
    rw [Function.comp_apply, hfrom]
    split_ifs <;> rfl

end

/-- Carol is shown the note under the name its author has taken since. -/
theorem carol_is_shown_alicias_note :
    let t := plainHub.after .empty [.send noteByAlice (january 11)]
    let t' := (plainHub.step (renameOn 12 "alice" "p/alicia") t).2
    ∃ r, r.old = "p/alice" ∧ r.new_ = "p/alicia" ∧
      parseAddress plainHub.unicode "p/alicia" = .ok ⟨some r.project, some r.agent, r.role⟩ ∧
      plainHub.peek r.project r.agent r.role t' =
        .ok ((oldestFirst (t.messages.rows.filter (carried t "p" "alice" none r))).map
          fun row => (readdress "p" "alice" none r row).toMessage) ∧
      plainHub.peek "p" "carol" none t' =
        .ok [{ noteByAlice with from_ := "p/alicia", reach := some "project" }] := by
  obtain ⟨r, hold, hnew, hparse, hmine, _, hothers⟩ := moves_with_its_mail plainHub
    [.send noteByAlice (january 11)] "p" "alice" "p/alicia" none
    ⟨january 12, january 12, january 12⟩ "p/alice" "p/alicia" 0 (by decide +kernel)
  have htarget : parseAddress plainHub.unicode "p/alicia" =
      .ok ⟨some "p", some "alicia", none⟩ := by decide +kernel
  have hnames := htarget.symm.trans hparse
  simp only [Except.ok.injEq, Target.mk.injEq, Option.some.injEq] at hnames
  refine ⟨r, hold, hnew, hparse, hmine, hothers "p" "carol" none
    [{ noteByAlice with reach := some "project" }] (by decide +kernel) (by decide) ?_⟩
  rw [← hnames.1, ← hnames.2.1]
  decide

end Hub

end AgentMailbox.Old
