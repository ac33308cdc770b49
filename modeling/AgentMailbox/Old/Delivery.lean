import AgentMailbox.Old.Steps

/-!
# What reaches whom

The columns that mail is routed by are written down beside the address, and a rename rewrites
both. They never come apart: what an agent is shown is what was addressed to it, by the text of
the address.
-/
namespace AgentMailbox.Old

/-- Every position names the reader's value or is left open. -/
def Target.covers (target : Target) (reader : Reader) : Bool :=
  (target.project = none || target.project = some reader.proj) &&
    (target.agent = none || target.agent = some reader.agent) &&
    (target.role = none || target.role = some reader.role)

/-- The destination that a row of mail is routed by. -/
def MessageRow.target (row : MessageRow) : Target := ⟨row.toProject, row.toAgent, row.toRole⟩

/-- A row of mail that is routed by what its address says, and that is on a thread. -/
structure MessageRow.Proper (u : Unicode) (row : MessageRow) : Prop where
  routed : parseAddress u row.to_ = .ok row.target
  fanout : row.kind = "fanout"
  threaded : row.thread ≠ none

lemma oldestFirst_perm (rows : List MessageRow) : (oldestFirst rows).Perm rows :=
  Sorting.sortBy_perm _ rows

lemma oldestFirst_pairwise (rows : List MessageRow) : (oldestFirst rows).Pairwise
    (fun earlier later => earlier.created.isoformat ≤ later.created.isoformat) :=
  Sorting.sortBy_pairwise _ rows

namespace Hub

variable {hub : Hub}

/-- All the mail is proper. -/
def Proper (hub : Hub) (t : Tables) : Prop :=
  ∀ row ∈ t.messages.rows, row.Proper hub.unicode

lemma Write.proper {t t' : Tables} (ht : Proper hub t) (h : Write hub t t') : Proper hub t' := by
  cases h with
  | posts message sent now target messages hprepare hinsert =>
    obtain ⟨htarget, _⟩ := prepare_ok hprepare
    intro row hrow
    rw [(Table.insert_eq_some hinsert).2, List.mem_append, List.mem_singleton] at hrow
    rcases hrow with hold | rfl
    · exact ht row hold
    · exact ⟨htarget, rfl, Option.some_ne_none _⟩
  | consumes => exact ht
  | lists => exact ht

lemma Opens.proper {t t' : Tables} (ht : Proper hub t) (h : Opens t t') : Proper hub t' := by
  cases h with
  | stamps => exact ht
  | purges stamped cutoff => exact fun row hrow => ht row ((Table.mem_delete _ _ _).mp hrow).1

/-- The new address of a rename names what the mail is routed to from then on. -/
lemma Renames.parse_new {project agent to_ : String} {role : Option String} {clock : RenameClock}
    {t : Tables} {r : Renaming} (h : Renames hub project agent to_ role clock t r) :
    parseAddress hub.unicode r.new_ = .ok ⟨some r.project, some r.agent, r.role⟩ := by
  obtain ⟨address, hformat, hparse⟩ := format_of_specific h.target rfl rfl
  have hnew : r.new_ = address := by
    have hboth := h.new_.symm.trans hformat
    exact Except.ok.inj hboth
  rw [hnew, hparse]

/-- A rename rewrites the address and the routing together. -/
lemma readdress_proper {project agent : String} {role : Option String} {r : Renaming}
    {row : MessageRow} (hrow : row.Proper hub.unicode)
    (hnew : parseAddress hub.unicode r.new_ = .ok ⟨some r.project, some r.agent, r.role⟩) :
    (readdress project agent role r row).Proper hub.unicode := by
  obtain ⟨hrouted, hfanout, hthreaded⟩ := hrow
  unfold readdress
  dsimp only
  split_ifs
  · exact ⟨hnew, hfanout, hthreaded⟩
  · exact ⟨hnew, hfanout, hthreaded⟩
  · exact ⟨hrouted, hfanout, hthreaded⟩
  · exact ⟨hrouted, hfanout, hthreaded⟩

/-- In every state that is reached, all the mail is proper. -/
theorem proper_after (hub : Hub) (verbs : List Verb) : Proper hub (hub.after .empty verbs) := by
  refine after_invariant hub (I := Proper hub) (fun _ _ ht h => h.proper ht)
    (fun _ _ ht h => h.proper ht) ?_ (fun row hrow => by cases hrow) verbs
  intro t project agent to_ role clock r ht hrename row hrow
  obtain ⟨old, hold, rfl⟩ := List.mem_map.mp hrow
  exact readdress_proper (ht old hold) hrename.parse_new

/-- What waits for a reader, by the text of the address it was sent to. -/
def Waiting (hub : Hub) (t : Tables) (reader : Reader) (row : MessageRow) : Prop :=
  row ∈ t.messages.rows ∧
    (∃ target, parseAddress hub.unicode row.to_ = .ok target ∧ target.covers reader = true) ∧
    row.from_ ≠ reader.me ∧ t.hasRead reader.me row.id = false

lemma waiting_iff {t : Tables} (ht : Proper hub t) (reader : Reader) (row : MessageRow) :
    Waiting hub t reader row ↔ row ∈ t.messages.rows.filter (t.waits reader) := by
  rw [List.mem_filter, Waiting]
  refine and_congr_right fun hrow => ?_
  obtain ⟨hrouted, hfanout, _⟩ := ht row hrow
  have hcovers : row.routesTo reader = row.target.covers reader := rfl
  simp only [hrouted, Except.ok.injEq, exists_eq_left', Tables.waits, hcovers,
    MessageRow.notMyOwnFanout, hfanout, decide_true, Bool.true_and, Bool.and_eq_true,
    Bool.not_eq_true', decide_eq_false_iff_not, and_assoc]

/-- In every state that is reached, what an agent is shown is what was addressed to it: each
message once, the oldest first, and a message exactly if the text of its address covers the
agent, the agent did not send it, and it has not consumed it. -/
theorem shown_what_is_addressed (hub : Hub) (verbs : List Verb) (project agent : String)
    (role : Option String) (reader : Reader) (h : hub.reader project agent role = .ok reader) :
    let t := hub.after .empty verbs
    ∃ messages, hub.peek project agent role t = .ok messages ∧
      (messages.map Message.id).Nodup ∧
      messages.Pairwise (fun earlier later =>
        earlier.created.isoformat ≤ later.created.isoformat) ∧
      ∀ message, message ∈ messages ↔
        ∃ row, Waiting hub t reader row ∧ row.toMessage = message := by
  intro t
  have hpeek : hub.peek project agent role t =
      .ok ((oldestFirst (t.messages.rows.filter (t.waits reader))).map MessageRow.toMessage) := by
    simp only [peek, h]
    rfl
  refine ⟨_, hpeek, ?_, ?_, fun message => ?_⟩
  · rw [List.map_map]
    have hids : Message.id ∘ MessageRow.toMessage = MessageRow.id := rfl
    rw [hids, ((oldestFirst_perm _).map MessageRow.id).nodup_iff]
    exact t.messages.unique.sublist (List.filter_sublist.map _)
  · exact List.pairwise_map.mpr (oldestFirst_pairwise _)
  · rw [List.mem_map]
    refine exists_congr fun row => and_congr_left fun _ => ?_
    rw [(oldestFirst_perm _).mem_iff, waiting_iff (proper_after hub verbs)]

/-- Under her new name alice is shown her letter. -/
theorem alicia_is_shown_her_letter :
    let t := plainHub.after .empty
      [.send letterToAlice (january 10), renameOn 11 "alice" "p/alicia"]
    ∃ messages, plainHub.peek "p" "alicia" none t = .ok messages ∧
      (messages.map Message.id).Nodup ∧
      { letterToAlice with to_ := "p/alicia", reach := some "direct" } ∈ messages := by
  obtain ⟨messages, hpeek, honce, _, hshown⟩ := shown_what_is_addressed plainHub
    [.send letterToAlice (january 10), renameOn 11 "alice" "p/alicia"] "p" "alicia" none
    ⟨"p", "alicia", "", "p/alicia"⟩ (by decide +kernel)
  refine ⟨messages, hpeek, honce, (hshown _).mpr ?_⟩
  refine ⟨{ rowOf letterToAlice ⟨some "p", some "alicia", none⟩ with to_ := "p/alicia" },
    ⟨by decide +kernel, ⟨⟨some "p", some "alicia", none⟩, by decide +kernel, by decide⟩, by decide,
      by decide +kernel⟩, by decide +kernel⟩

end Hub

end AgentMailbox.Old
