import AgentMailbox.Old.ViewLaws

/-!
# What outsiders see

An agent is a party to what it sent and to what is routed to it. Everything an agent is shown
is made from what it is a party to; so whatever others write to each other, on whatever thread,
leaves everything it is shown as it was.
-/
namespace AgentMailbox.Old

/-- The same mail for a reader: what it is a party to, and who has consumed that. -/
structure Tables.SameFor (reader : Reader) (t t' : Tables) : Prop where
  rows : (t'.messages.rows.filter fun row => row.isParty reader) =
    t.messages.rows.filter fun row => row.isParty reader
  reads : ∀ row ∈ t.messages.rows, row.isParty reader = true →
    (t'.reads.rows.filter fun read => read.messageId = row.id) =
      t.reads.rows.filter fun read => read.messageId = row.id

namespace Tables.SameFor

variable {reader : Reader} {t t' : Tables}

lemma refl (reader : Reader) (t : Tables) : SameFor reader t t := ⟨rfl, fun _ _ _ => rfl⟩

/-- Being a party to a stored message is the same. -/
lemma mem_iff (h : SameFor reader t t') (row : MessageRow) :
    row ∈ t'.messages.rows ∧ row.isParty reader = true ↔
      row ∈ t.messages.rows ∧ row.isParty reader = true := by
  have hmem : row ∈ (t'.messages.rows.filter fun row => row.isParty reader) ↔
      row ∈ t.messages.rows.filter fun row => row.isParty reader := by rw [h.rows]
  simpa only [List.mem_filter] using hmem

lemma trans {t'' : Tables} (h : SameFor reader t t') (h' : SameFor reader t' t'') :
    SameFor reader t t'' :=
  ⟨h'.rows.trans h.rows, fun row hrow hparty =>
    (h'.reads row ((h.mem_iff row).mpr ⟨hrow, hparty⟩).1 hparty).trans (h.reads row hrow hparty)⟩

/-- What is selected among what the reader is a party to is the same. -/
lemma filter_eq (h : SameFor reader t t') {p p' : MessageRow → Bool}
    (hp : ∀ row, p row = true → row.isParty reader = true)
    (hp' : ∀ row ∈ t.messages.rows, row.isParty reader = true → p' row = p row)
    (hparty : ∀ row, p' row = true → row.isParty reader = true) :
    t'.messages.rows.filter p' = t.messages.rows.filter p := by
  have hall : ∀ {q : MessageRow → Bool}, (∀ row, q row = true → row.isParty reader = true) →
      ∀ rows : List MessageRow, rows.filter q =
        (rows.filter fun row => row.isParty reader).filter q := by
    intro q hq rows
    rw [List.filter_filter]
    refine List.filter_congr fun row _ => ?_
    cases hrow : q row with
    | false => rfl
    | true => simp [hq row hrow]
  rw [hall hparty, hall hp, h.rows]
  refine List.filter_congr fun row hrow => ?_
  obtain ⟨hin, hpar⟩ := List.mem_filter.mp hrow
  exact hp' row hin hpar

lemma hasRead_eq (h : SameFor reader t t') {row : MessageRow} (hrow : row ∈ t.messages.rows)
    (hparty : row.isParty reader = true) (me : String) :
    t'.hasRead me row.id = t.hasRead me row.id := by
  have hreads : ∀ t : Tables, t.hasRead me row.id =
      (t.reads.rows.filter fun read => read.messageId = row.id).any
        fun read => read.reader = me := by
    intro t
    simp [Tables.hasRead, List.any_filter, Bool.and_comm]
  rw [hreads, hreads, h.reads row hrow hparty]

lemma firstRead_eq (h : SameFor reader t t') {row : MessageRow} (hrow : row ∈ t.messages.rows)
    (hparty : row.isParty reader = true) : t'.firstRead row.id = t.firstRead row.id := by
  rw [Tables.firstRead, h.reads row hrow hparty, Tables.firstRead]

end Tables.SameFor

lemma MessageRow.isParty_of_routesTo {row : MessageRow} {reader : Reader}
    (h : row.routesTo reader = true) : row.isParty reader = true := by
  simp [MessageRow.isParty, h]

namespace Hub

/-! ## What is shown -/

section
variable {hub : Hub} {t t' : Tables} {project agent me : String} {role : Option String}

lemma filter_waits_eq {reader : Reader} (h : Tables.SameFor reader t t') :
    t'.messages.rows.filter (t'.waits reader) = t.messages.rows.filter (t.waits reader) := by
  have hroutes : ∀ (t : Tables) row, t.waits reader row = true → row.isParty reader = true := by
    intro t row hwaits
    simp only [Tables.waits, Bool.and_eq_true] at hwaits
    exact MessageRow.isParty_of_routesTo hwaits.1.1
  refine h.filter_eq (hroutes t) (fun row hrow hparty => ?_) (hroutes t')
  simp only [Tables.waits, h.hasRead_eq hrow hparty]

lemma parties_eq {reader : Reader} (h : Tables.SameFor reader t t') :
    parties t' reader = parties t reader := by
  rw [parties, parties, h.rows]

lemma routedRow_eq {reader : Reader} (h : Tables.SameFor reader t t') (messageId : String) :
    routedRow t' reader messageId = routedRow t reader messageId := by
  have hiff : ∀ (t : Tables) row, routedRow t reader messageId = some row ↔
      (row ∈ t.messages.rows ∧ row.isParty reader = true) ∧ row.id = messageId ∧
        row.routesTo reader = true := by
    intro t row
    rw [routedRow, Option.filter_eq_some_iff, Table.find?_eq_some]
    constructor
    · rintro ⟨⟨hrow, hid⟩, hroutes⟩
      exact ⟨⟨hrow, MessageRow.isParty_of_routesTo hroutes⟩, hid, hroutes⟩
    · rintro ⟨⟨hrow, _⟩, hid, hroutes⟩
      exact ⟨⟨hrow, hid⟩, hroutes⟩
  refine Option.ext fun row => ?_
  rw [hiff, hiff, h.mem_iff]

/-- The first readings of what the reader is a party to are the same. -/
lemma readState_eq {reader : Reader} (h : Tables.SameFor reader t t') {rows : List MessageRow}
    (hrows : ∀ row ∈ rows, row ∈ parties t reader) :
    hub.readState (rows.map MessageRow.id) t' = hub.readState (rows.map MessageRow.id) t := by
  unfold readState
  split_ifs
  · rfl
  · refine congrArg Except.ok (funext fun id => ?_)
    split_ifs with hid
    · obtain ⟨row, hrow, rfl⟩ := List.mem_map.mp hid
      obtain ⟨hin, hparty⟩ := mem_parties.mp (hrows row hrow)
      exact h.firstRead_eq hin hparty
    · rfl

/-- Everything an agent is shown. -/
structure SameViews (hub : Hub) (project agent : String) (role : Option String)
    (t t' : Tables) : Prop where
  peek : hub.peek project agent role t' = hub.peek project agent role t
  count : hub.unreadCount project agent role t' = hub.unreadCount project agent role t
  browse : hub.browse project agent role t' = hub.browse project agent role t
  threads : ∀ limit, hub.listThreads project agent limit role t' =
    hub.listThreads project agent limit role t
  thread : ∀ threadId, hub.readThread project agent threadId role t' =
    hub.readThread project agent threadId role t
  readable : ∀ messageId, hub.readableMessage project agent messageId role t' =
    hub.readableMessage project agent messageId role t
  read : ∀ messageId now, (hub.read project agent messageId role now t').1 =
    (hub.read project agent messageId role now t).1

/-- What an agent is shown is made from what it is a party to. -/
theorem sameViews (hme : formatAddress hub.unicode project agent role = .ok me)
    (h : Tables.SameFor ⟨project, agent, role.getD "", me⟩ t t') :
    SameViews hub project agent role t t' where
  peek := by rw [peek_ok hme, peek_ok hme, filter_waits_eq h]
  count := by simp only [unreadCount, reader_ok hme, ok_bind, filter_waits_eq h]
  browse := by
    have hroutes := h.filter_eq (p := fun row => row.routesTo ⟨project, agent, role.getD "", me⟩)
      (fun _ => MessageRow.isParty_of_routesTo) (fun _ _ _ => rfl)
      fun _ => MessageRow.isParty_of_routesTo
    simp only [browse, reader_ok hme, ok_bind, hroutes]
    refine congrArg Except.ok (List.map_congr_left fun row hrow => ?_)
    obtain ⟨hin, hroute⟩ := List.mem_filter.mp ((newestFirst_perm _).mem_iff.mp hrow)
    rw [h.hasRead_eq hin (MessageRow.isParty_of_routesTo hroute)]
  threads := fun limit => by
    rw [listThreads_eq hme, listThreads_eq hme, parties_eq h]
    dsimp only
    rw [readState_eq h fun _ hrow => hrow]
  thread := fun threadId => by
    rw [readThread_eq hme, readThread_eq hme, parties_eq h]
    dsimp only
    rw [readState_eq h fun _ hrow => (List.mem_filter.mp hrow).1]
  readable := fun messageId => by
    simp only [readableMessage, reader_ok hme, ok_bind, routedRow_eq h]
  read := fun messageId now => by
    simp only [Hub.read, reader_ok hme, routedRow_eq h]
    cases hrow : routedRow t ⟨project, agent, role.getD "", me⟩ messageId with
    | none => rfl
    | some row =>
      obtain ⟨hfind, hroutes⟩ := Option.filter_eq_some_iff.mp hrow
      obtain ⟨hin, hid⟩ := (t.messages.find?_eq_some _ _).mp hfind
      have hsame := h.hasRead_eq hin (MessageRow.isParty_of_routesTo hroutes) me
      rw [hid] at hsame
      simp only [insertOrIgnore_eq_one_iff, hsame]
      split_ifs <;> rfl

end

/-! ## What others do -/

/-- A message that is neither from a reader nor to it. -/
def Passes (hub : Hub) (reader : Reader) (sent : Message) : Prop :=
  sent.from_ ≠ reader.me ∧
    ∀ target, parseAddress hub.unicode sent.to_ = .ok target → target.covers reader = false

/-- The reader is no party to what is stored under an id. -/
def Concealed (reader : Reader) (messageId : String) (t : Tables) : Prop :=
  ∀ row ∈ t.messages.rows, row.id = messageId → row.isParty reader = false

/-- A call that is no business of a reader's: what it sends passes the reader by, and what it
consumes is concealed from it. -/
def Foreign (hub : Hub) (reader : Reader) (verb : Verb) (t : Tables) : Prop :=
  match verb with
  | .send message now => ∀ sent, (hub.send message now t).1 = .ok sent → Passes hub reader sent
  | .read _ _ messageId _ _ => Concealed reader messageId t
  | .reply project agent messageId body subject role readAt stamp now =>
    Concealed reader messageId t ∧ ∀ sent,
      (hub.reply project agent messageId body subject role readAt stamp now t).1 = .ok sent →
        Passes hub reader sent
  | .ping project agent role stamp now _ => ∀ me,
      formatAddress hub.unicode project agent role = .ok me → ∀ sent,
        (hub.send (probe me stamp) now t).1 = .ok sent → Passes hub reader sent
  | .touch .. | .register .. | .updateStatus .. | .retire .. | .supersede .. => True
  | .rename .. | .connect .. => False

section
variable {hub : Hub} {reader : Reader} {t : Tables}

/-- A row of a message that passes the reader by. -/
lemma Passes.not_isParty {sent : Message} (h : Passes hub reader sent) {target : Target}
    (htarget : parseAddress hub.unicode sent.to_ = .ok target) :
    (rowOf sent target).isParty reader = false := by
  have hroutes : (rowOf sent target).routesTo reader = target.covers reader := rfl
  have hsender : (rowOf sent target).from_ = sent.from_ := rfl
  simp [MessageRow.isParty, hroutes, h.2 target htarget, hsender, h.1]

lemma sameFor_send {message : Message} {now : DateTime}
    (h : ∀ sent, (hub.send message now t).1 = .ok sent → Passes hub reader sent) :
    Tables.SameFor reader t (hub.send message now t).2 := by
  generalize hsend : hub.send message now t = outcome at h ⊢
  obtain ⟨answer, t'⟩ := outcome
  cases answer with
  | error e =>
    rw [send_error hsend]
    exact .refl reader t
  | ok sent =>
    obtain ⟨target, messages, hprepare, hinsert, rfl⟩ := send_ok hsend
    have hpasses := (h sent rfl).not_isParty (prepare_ok hprepare).1
    refine ⟨?_, fun _ _ _ => rfl⟩
    dsimp only
    rw [(Table.insert_eq_some hinsert).2, List.filter_append, List.filter_singleton, hpasses]
    simp

/-- What is sent on a fresh id and passes the reader by is concealed from it. -/
lemma concealed_send {message sent : Message} {now : DateTime} {t' : Tables}
    (hsend : hub.send message now t = (.ok sent, t')) (h : Passes hub reader sent) :
    Concealed reader message.id t' := by
  obtain ⟨target, messages, hprepare, hinsert, rfl⟩ := send_ok hsend
  obtain ⟨htarget, followed, hfollow, hjoin⟩ := prepare_ok hprepare
  obtain ⟨hfresh, hrows⟩ := Table.insert_eq_some hinsert
  have hid : sent.id = message.id := by
    have hfollowed : followed.id = message.id := follow_id hfollow
    rw [threadSenderMayJoin_ok hjoin, hfollowed]
  intro row hrow hrowid
  rw [hrows, List.mem_append, List.mem_singleton] at hrow
  rcases hrow with hold | rfl
  · exact absurd (hrowid.trans hid.symm) ((t.messages.find?_eq_none _).mp hfresh row hold)
  · exact h.not_isParty htarget

lemma sameFor_read {project agent messageId : String} {role : Option String} {now : DateTime}
    (h : Concealed reader messageId t) :
    Tables.SameFor reader t (hub.read project agent messageId role now t).2 := by
  have hconsumed : ∀ me, Tables.SameFor reader t
      { t with reads := (t.reads.insertOrIgnore ⟨messageId, me, now⟩).2 } := by
    intro me
    refine ⟨rfl, fun row hrow hparty => ?_⟩
    have hother : messageId ≠ row.id := by
      rintro rfl
      rw [h row hrow rfl] at hparty
      cases hparty
    rcases t.reads.rows_insertOrIgnore ⟨messageId, me, now⟩ with hsame | hadded
    · dsimp only
      rw [hsame]
    · dsimp only
      rw [hadded, List.filter_append, List.filter_singleton]
      simp [hother]
  unfold Hub.read
  cases hub.reader project agent role with
  | error e => exact .refl reader t
  | ok other =>
    dsimp only
    cases routedRow t other messageId with
    | none => exact .refl reader t
    | some row =>
      dsimp only
      split_ifs
      · exact hconsumed other.me
      · exact hconsumed other.me

lemma sameFor_answer {project agent body : String} {role subject : Option String}
    {original : Message} {stamp : Stamp} {now : DateTime}
    (h : ∀ sent, (hub.answer project agent role original body subject stamp now t).1 = .ok sent →
      Passes hub reader sent) :
    Tables.SameFor reader t
      (hub.answer project agent role original body subject stamp now t).2 := by
  unfold answer at h ⊢
  cases hme : formatAddress hub.unicode project agent role with
  | error e => exact .refl reader t
  | ok me =>
    rw [hme] at h
    exact sameFor_send h

lemma sameFor_reply {project agent messageId body : String} {subject role : Option String}
    {readAt : DateTime} {stamp : Stamp} {now : DateTime} (hconcealed : Concealed reader messageId t)
    (hsent : ∀ sent,
      (hub.reply project agent messageId body subject role readAt stamp now t).1 = .ok sent →
        Passes hub reader sent) :
    Tables.SameFor reader t
      (hub.reply project agent messageId body subject role readAt stamp now t).2 := by
  have hread : Tables.SameFor reader t (hub.read project agent messageId role readAt t).2 :=
    sameFor_read hconcealed
  unfold reply at hsent ⊢
  generalize hub.read project agent messageId role readAt t = done at hread hsent ⊢
  obtain ⟨e | original, t'⟩ := done
  · dsimp only at hread hsent ⊢
    split_ifs at hsent ⊢ with hclass
    · generalize hub.readableMessage project agent messageId role t' = readable at hsent ⊢
      obtain e' | _ | original := readable
      · exact hread
      · exact hread
      · exact hread.trans (sameFor_answer hsent)
    · exact hread
  · exact hread.trans (sameFor_answer hsent)

lemma sameFor_ping {project agent : String} {role : Option String} {stamp : Stamp}
    {now readAt : DateTime} (h : ∀ me, formatAddress hub.unicode project agent role = .ok me →
      ∀ sent, (hub.send (probe me stamp) now t).1 = .ok sent → Passes hub reader sent) :
    Tables.SameFor reader t (hub.ping project agent role stamp now readAt t).2 := by
  unfold ping
  cases hme : formatAddress hub.unicode project agent role with
  | error e => exact .refl reader t
  | ok me =>
    have hsent := h me hme
    have hsame := sameFor_send hsent
    dsimp only
    generalize hsend : hub.send (probe me stamp) now t = outcome at hsent hsame ⊢
    obtain ⟨e | sent, t'⟩ := outcome
    · exact hsame
    · exact hsame.trans (sameFor_read (concealed_send hsend (hsent sent rfl)))

/-- Directory calls write to the directory only. -/
lemma sameFor_of_lists {t' : Tables} (hmessages : t'.messages = t.messages)
    (hreads : t'.reads = t.reads) : Tables.SameFor reader t t' :=
  ⟨by rw [hmessages], fun _ _ _ => by rw [hreads]⟩

lemma supersede_lists (caller : String) (addresses : List (String × DateTime)) :
    (hub.supersede caller addresses t).2.messages = t.messages ∧
      (hub.supersede caller addresses t).2.reads = t.reads := by
  induction addresses generalizing t with
  | nil => exact ⟨rfl, rfl⟩
  | cons address addresses ih =>
    unfold supersede
    split
    · exact ⟨rfl, rfl⟩
    · split_ifs
      · exact ih
      · split
        · exact ⟨rfl, rfl⟩
        · exact ih
        · split_ifs
          · exact ih
          · exact ih
    · exact ih

/-- A foreign call leaves the same mail for the reader. -/
lemma sameFor_step {verb : Verb} (h : Foreign hub reader verb t) :
    Tables.SameFor reader t (hub.step verb t).2 := by
  cases verb with
  | send message now => exact sameFor_send h
  | read project agent messageId role now => exact sameFor_read h
  | reply project agent messageId body subject role readAt stamp now =>
    exact sameFor_reply h.1 h.2
  | ping project agent role stamp now readAt => exact sameFor_ping h
  | touch project agent role now => exact sameFor_of_lists rfl rfl
  | register project agent profile role now seen => exact sameFor_of_lists rfl rfl
  | updateStatus project agent status role seen now again =>
    change Tables.SameFor reader t
      (hub.updateStatus project agent status role seen now again t).2
    unfold updateStatus
    cases hub.whois project agent role seen t with
    | error e => exact .refl reader t
    | ok current => exact sameFor_of_lists rfl rfl
  | retire project agent role => exact sameFor_of_lists rfl rfl
  | supersede caller addresses =>
    exact sameFor_of_lists (supersede_lists caller addresses).1
      (supersede_lists caller addresses).2
  | rename => exact h.elim
  | connect => exact h.elim

end

/-- Whatever others write to each other, on whatever thread, and consume of it, shows an
outsider nothing: after any number of calls that pass an agent by, everything it is shown is
what it was, and it can read what it could, and nothing else. -/
theorem outsiders_see_nothing (hub : Hub) (t : Tables) (later : List Verb)
    (project agent me : String) (role : Option String)
    (hme : formatAddress hub.unicode project agent role = .ok me)
    (hforeign : Throughout hub (Foreign hub ⟨project, agent, role.getD "", me⟩) t later) :
    SameViews hub project agent role t (hub.after t later) := by
  refine sameViews hme ?_
  induction later generalizing t with
  | nil => exact .refl _ t
  | cons verb later ih => exact (sameFor_step hforeign.1).trans (ih _ hforeign.2)

/-- Alice and bob go on between themselves, of which carol sees nothing. -/
theorem carol_sees_no_answer :
    SameViews plainHub "p" "carol" none (plainHub.after .empty someMail)
      (plainHub.after (plainHub.after .empty someMail) [.send answerToAlice (january 12)]) := by
  refine outsiders_see_nothing plainHub _ _ "p" "carol" "p/carol" none (by decide +kernel)
    ⟨fun sent hsent => ?_, trivial⟩
  have hstored : (plainHub.send answerToAlice (january 12) (plainHub.after .empty someMail)).1 =
      .ok answerToAlice := by decide +kernel
  rw [hstored] at hsent
  cases hsent
  refine ⟨by decide, fun target htarget => ?_⟩
  have hparse : parseAddress plainHub.unicode "p/alice" = .ok ⟨some "p", some "alice", none⟩ := by
    decide +kernel
  cases hparse.symm.trans htarget
  decide

end Hub

end AgentMailbox.Old
