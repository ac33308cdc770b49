import AgentMailbox.Old.Views

/-!
# The views agree

What is counted, what is browsed, what can be read and what is shown as waiting are the same
mail; what flows between agents adds up; and the conversations that are listed are those that
can be read.
-/
namespace AgentMailbox.Old

lemma newestFirst_perm (rows : List MessageRow) : (newestFirst rows).Perm rows :=
  Sorting.sortBy_perm _ rows

namespace Hub

section
variable {hub : Hub} {t : Tables} {project agent me : String} {role : Option String}

lemma peek_ok (hme : formatAddress hub.unicode project agent role = .ok me) :
    hub.peek project agent role t = .ok ((oldestFirst (t.messages.rows.filter
      (t.waits ⟨project, agent, role.getD "", me⟩))).map MessageRow.toMessage) := by
  simp only [peek, reader_ok hme, ok_bind]
  rfl

/-! ## Mailboxes -/

/-- The count is that of what is shown, and the senders are those of what is shown. -/
lemma unreadCount_counts (hme : formatAddress hub.unicode project agent role = .ok me)
    {messages : List Message} (hpeek : hub.peek project agent role t = .ok messages) :
    ∃ senders, hub.unreadCount project agent role t = .ok (messages.length, senders) ∧
      senders.Nodup ∧ ∀ sender, sender ∈ senders ↔ ∃ message ∈ messages,
        message.from_ = sender := by
  rw [peek_ok hme] at hpeek
  cases hpeek
  generalize hrows : t.messages.rows.filter (t.waits ⟨project, agent, role.getD "", me⟩) = rows
  have hperm := Sorting.sortBy_perm (fun group => OrderDual.toDual group.2.length)
    (Grouping.groups MessageRow.from_ rows)
  have htotal : Grouping.total ((Sorting.sortBy (fun group => OrderDual.toDual group.2.length)
      (Grouping.groups MessageRow.from_ rows)).map fun group => group.2.length) = rows.length := by
    rw [Grouping.total_eq_of_perm (hperm.map _), Grouping.total_groups]
  have hfirsts := hperm.map Prod.fst
  rw [Grouping.map_fst_groups] at hfirsts
  refine ⟨(Sorting.sortBy (fun group => OrderDual.toDual group.2.length)
    (Grouping.groups MessageRow.from_ rows)).map Prod.fst, ?_, ?_, fun sender => ?_⟩
  · simp only [unreadCount, reader_ok hme, ok_bind, hrows, htotal, List.length_map,
      (oldestFirst_perm rows).length_eq]
    rfl
  · exact hfirsts.nodup_iff.mpr (Grouping.nodup_firsts _)
  · rw [hfirsts.mem_iff, Grouping.mem_firsts]
    simp only [List.mem_map, (oldestFirst_perm rows).mem_iff]
    constructor
    · rintro ⟨row, hrow, rfl⟩
      exact ⟨row.toMessage, ⟨row, hrow, rfl⟩, rfl⟩
    · rintro ⟨message, ⟨row, hrow, rfl⟩, rfl⟩
      exact ⟨row, hrow, rfl⟩

/-- What is unread in the whole mailbox, and from others, is what is shown. -/
lemma browse_unread (hme : formatAddress hub.unicode project agent role = .ok me)
    (hproper : Proper hub t) {messages : List Message}
    (hpeek : hub.peek project agent role t = .ok messages) :
    ∃ items, hub.browse project agent role t = .ok items ∧
      ((items.filter fun item => item.2 && item.1.from_ ≠ me).map Prod.fst).Perm messages := by
  rw [peek_ok hme] at hpeek
  cases hpeek
  refine ⟨_, by simp only [browse, reader_ok hme, ok_bind]; rfl, ?_⟩
  rw [List.filter_map, List.map_map]
  refine ((((newestFirst_perm _).filter _).trans ?_).map MessageRow.toMessage).trans
    ((oldestFirst_perm _).map _).symm
  rw [List.filter_filter]
  refine List.Perm.of_eq (List.filter_congr fun row hrow => ?_)
  have hfrom : row.toMessage.from_ = row.from_ := rfl
  simp only [Function.comp_apply, hfrom, Tables.waits, MessageRow.notMyOwnFanout,
    (hproper row hrow).fanout, decide_true, Bool.true_and, decide_not]
  cases row.routesTo ⟨project, agent, role.getD "", me⟩ <;>
    cases decide (row.from_ = me) <;> simp

/-- What is shown can be read, which takes it, and nothing else, from what is shown. -/
lemma read_shown (hme : formatAddress hub.unicode project agent role = .ok me)
    {messages : List Message} (hpeek : hub.peek project agent role t = .ok messages)
    {message : Message} (hmessage : message ∈ messages) (now : DateTime) :
    ∃ t', hub.read project agent message.id role now t = (.ok message, t') ∧
      hub.peek project agent role t' =
        .ok (messages.filter fun other => other.id ≠ message.id) ∧
      ∀ project' agent' role' me', formatAddress hub.unicode project' agent' role' = .ok me' →
        me' ≠ me → hub.peek project' agent' role' t' = hub.peek project' agent' role' t := by
  rw [peek_ok hme] at hpeek
  cases hpeek
  obtain ⟨row, hrow, rfl⟩ := List.mem_map.mp hmessage
  obtain ⟨hin, hwaits⟩ := List.mem_filter.mp ((oldestFirst_perm _).mem_iff.mp hrow)
  simp only [Tables.waits, Bool.and_eq_true, Bool.not_eq_true'] at hwaits
  obtain ⟨⟨hroutes, _⟩, hunread⟩ := hwaits
  have hid : row.toMessage.id = row.id := rfl
  have hfound : routedRow t ⟨project, agent, role.getD "", me⟩ row.id = some row := by
    rw [routedRow, (t.messages.find?_eq_some row.id row).mpr ⟨hin, rfl⟩]
    simp [hroutes]
  have hinserted : (t.reads.insertOrIgnore ⟨row.id, me, now⟩).1 = 1 :=
    (insertOrIgnore_eq_one_iff t me row.id now).mpr hunread
  refine ⟨{ t with reads := (t.reads.insertOrIgnore ⟨row.id, me, now⟩).2 }, ?_, ?_, ?_⟩
  · simp only [Hub.read, reader_ok hme, hid, hfound, hinserted, if_true]
  · rw [peek_ok hme, List.filter_map, oldestFirst, oldestFirst, Sorting.filter_sortBy,
      List.filter_filter]
    congr 3
    refine List.filter_congr fun other _ => ?_
    have hother : other.toMessage.id = other.id := rfl
    simp only [Tables.waits, hasRead_insertOrIgnore, decide_true, Bool.true_and,
      Function.comp_apply, hother, hid, Bool.not_or, decide_not]
    ac_rfl
  · intro project' agent' role' me' hme' hother
    rw [peek_ok hme', peek_ok hme']
    congr 3
    refine List.filter_congr fun other _ => ?_
    simp only [Tables.waits, hasRead_insertOrIgnore, hother, decide_false, Bool.false_and,
      Bool.or_false]

end

/-- The views of a mailbox agree, in every state that is reached. What is waiting is counted
as it is shown, under the senders it is shown from; it is what is unread, and from others, in
the whole mailbox; and each message that is shown can be read, as it is shown, after which it,
and nothing else, is shown no longer, to its reader and to no one else. -/
theorem mailbox_views_agree (hub : Hub) (verbs : List Verb) (project agent me : String)
    (role : Option String) (hme : formatAddress hub.unicode project agent role = .ok me) :
    let t := hub.after .empty verbs
    ∃ messages senders items, hub.peek project agent role t = .ok messages ∧
      hub.unreadCount project agent role t = .ok (messages.length, senders) ∧ senders.Nodup ∧
      (∀ sender, sender ∈ senders ↔ ∃ message ∈ messages, message.from_ = sender) ∧
      hub.browse project agent role t = .ok items ∧
      ((items.filter fun item => item.2 && item.1.from_ ≠ me).map Prod.fst).Perm messages ∧
      ∀ message ∈ messages, ∀ now, ∃ t',
        hub.read project agent message.id role now t = (.ok message, t') ∧
        hub.peek project agent role t' =
          .ok (messages.filter fun other => other.id ≠ message.id) ∧
        ∀ project' agent' role' me', formatAddress hub.unicode project' agent' role' = .ok me' →
          me' ≠ me → hub.peek project' agent' role' t' = hub.peek project' agent' role' t := by
  intro t
  have hpeek : hub.peek project agent role t = _ := peek_ok hme
  obtain ⟨senders, hcount, honce, hsenders⟩ := unreadCount_counts hme hpeek
  obtain ⟨items, hbrowse, hunread⟩ := browse_unread hme (proper_after hub verbs) hpeek
  exact ⟨_, senders, items, hpeek, hcount, honce, hsenders, hbrowse, hunread,
    fun message hmessage now => read_shown hme hpeek hmessage now⟩

/-- Carol is shown one note, which is what is counted, and she can read it. -/
theorem one_waits_for_carol :
    let t := plainHub.after .empty someMail
    ∃ messages senders, plainHub.peek "p" "carol" none t = .ok messages ∧
      plainHub.unreadCount "p" "carol" none t = .ok (messages.length, senders) ∧
      { noteByAlice with reach := some "project" } ∈ messages ∧
      ∀ message ∈ messages, ∃ t',
        plainHub.read "p" "carol" message.id none (january 12) t = (.ok message, t') := by
  obtain ⟨messages, senders, _, hpeek, hcount, _, _, _, _, hread⟩ := mailbox_views_agree plainHub
    someMail "p" "carol" "p/carol" none (by decide +kernel)
  refine ⟨messages, senders, hpeek, hcount, ?_, fun message hmessage => ?_⟩
  · have hshown : plainHub.peek "p" "carol" none (plainHub.after .empty someMail) =
          .ok [{ noteByAlice with reach := some "project" }] := by decide +kernel
    rw [hpeek] at hshown
    cases hshown
    exact List.mem_singleton_self _
  · obtain ⟨t', ht', _⟩ := hread message hmessage (january 12)
    exact ⟨t', ht'⟩

/-! ## The flow of mail -/

section
variable {hub : Hub} {t : Tables}

/-- Mail to one text of an address goes to one destination. -/
lemma Proper.target_eq (h : Proper hub t) {row other : MessageRow} (hrow : row ∈ t.messages.rows)
    (hother : other ∈ t.messages.rows) (hto : other.to_ = row.to_) : other.target = row.target := by
  have hboth := (h other hother).routed
  rw [hto, (h row hrow).routed] at hboth
  exact (Except.ok.inj hboth).symm

/-- What an edge counts are the messages between its ends. -/
lemma edge_rows (h : Proper hub t) {since : Option String} {row : MessageRow}
    (hrow : row ∈ t.messages.rows) (hdirect : row.isDirect = true) :
    ((t.messages.rows.filter fun other => other.isDirect && other.inWindow since).filter
        fun other => (other.from_, other.to_) = (row.from_, row.to_)) =
      t.messages.rows.filter fun other => other.toAgent.isSome && other.from_ = row.from_ &&
        other.to_ = row.to_ && other.inWindow since := by
  rw [List.filter_filter]
  refine List.filter_congr fun other hother => ?_
  by_cases hto : other.to_ = row.to_
  · have htarget := h.target_eq hrow hother hto
    simp only [MessageRow.target, Target.mk.injEq] at htarget
    have hboth : other.isDirect = true := by
      rw [MessageRow.isDirect, htarget.1, htarget.2.1]
      exact hdirect
    have hagent : other.toAgent.isSome = true := (Bool.and_eq_true_iff.mp hboth).2
    simp [hto, hboth, hagent]
  · simp [hto]

lemma newestFirst_head {rows : List MessageRow} (h : rows ≠ []) : ∃ newest,
    (newestFirst rows).head? = some newest ∧ newest.created.isoformat = latest rows := by
  cases hrows : newestFirst rows with
  | nil => exact absurd (List.perm_nil.mp (hrows ▸ newestFirst_perm rows).symm) h
  | cons newest rest =>
    have hsorted : (newestFirst rows).Pairwise fun a b =>
        b.created.isoformat ≤ a.created.isoformat :=
      Sorting.sortBy_pairwise (fun row => OrderDual.toDual row.created.isoformat) rows
    rw [hrows] at hsorted
    have hmax : (rows.map fun row => row.created.isoformat).max? =
        some newest.created.isoformat := by
      rw [List.max?_eq_some_iff]
      have hmem : ∀ row, row ∈ rows ↔ row ∈ newest :: rest := fun row => by
        rw [← hrows, (newestFirst_perm rows).mem_iff]
      refine ⟨List.mem_map_of_mem ((hmem newest).mpr List.mem_cons_self), fun text htext => ?_⟩
      obtain ⟨row, hrow, rfl⟩ := List.mem_map.mp htext
      rcases List.mem_cons.mp ((hmem row).mp hrow) with rfl | hrest
      · exact le_rfl
      · exact (List.pairwise_cons.mp hsorted).1 row hrest
    exact ⟨newest, rfl, by rw [latest, hmax]; rfl⟩

/-- An edge counts the mail between its ends, and knows the time of the newest. -/
lemma mem_flowEdges (h : Proper hub t) {since : Option String} {edge : FlowEdge}
    (hedge : edge ∈ flowEdges since t) :
    edge.count = (messagesBetween edge.frm edge.to_ since t).length ∧
      ∃ newest, (messagesBetween edge.frm edge.to_ since t).head? = some newest ∧
        newest.created.isoformat = edge.last := by
  obtain ⟨group, hgroup, rfl⟩ := List.mem_map.mp ((Sorting.mem_sortBy _ _ _).mp hedge)
  have hnonempty := Grouping.ne_nil_of_mem_groups hgroup
  obtain ⟨⟨row, hrow, hkey⟩, hmembers⟩ := Grouping.mem_groups.mp hgroup
  obtain ⟨key, members⟩ := group
  dsimp only at hkey hmembers hnonempty ⊢
  subst hkey
  obtain ⟨hin, hdirect⟩ := List.mem_filter.mp hrow
  rw [edge_rows h hin (Bool.and_eq_true_iff.mp hdirect).1] at hmembers
  dsimp only
  rw [messagesBetween, ← hmembers, List.length_map, (newestFirst_perm members).length_eq]
  obtain ⟨newest, hhead, hlast⟩ := newestFirst_head hnonempty
  refine ⟨rfl, newest.toMessage, ?_, hlast⟩
  rw [List.head?_map, hhead, Option.map_some]

lemma flowEdges_perm (since : Option String) (t : Tables) : (flowEdges since t).Perm
    ((Grouping.groups (fun row => (row.from_, row.to_))
      (t.messages.rows.filter fun row => row.isDirect && row.inWindow since)).map
        fun group => ⟨group.1.1, group.1.2, group.2.length, latest group.2⟩) :=
  Sorting.sortBy_perm _ _

end

/-- The graph of the flow of mail accounts for every message of its window: each is counted on
one edge, or among those that are not drawn. An edge counts the messages between its ends, and
gives the time of the newest of them; and both its ends are nodes. -/
theorem flow_adds_up (hub : Hub) (verbs : List Verb) (since : Option String) (now : DateTime)
    (graph : FlowGraph) (h : hub.flowGraph since now (hub.after .empty verbs) = .ok graph) :
    let t := hub.after .empty verbs
    Grouping.total (graph.edges.map FlowEdge.count) + graph.broadcastCount =
        (t.messages.rows.filter (MessageRow.inWindow since)).length ∧
      (graph.edges.map fun edge => (edge.frm, edge.to_)).Nodup ∧
      ∀ edge ∈ graph.edges, edge.frm ∈ graph.nodes ∧ edge.to_ ∈ graph.nodes ∧
        edge.count = (messagesBetween edge.frm edge.to_ since t).length ∧
        ∃ newest, (messagesBetween edge.frm edge.to_ since t).head? = some newest ∧
          newest.created.isoformat = edge.last := by
  intro t
  obtain ⟨agents, _, hgraph⟩ := bind_eq_ok.mp h
  cases hgraph
  dsimp only
  have hperm := flowEdges_perm since t
  refine ⟨?_, ?_, fun edge hedge => ⟨?_, ?_, mem_flowEdges (proper_after hub verbs) hedge⟩⟩
  · rw [Grouping.total_eq_of_perm (hperm.map FlowEdge.count), List.map_map]
    have hcounts : Grouping.total ((Grouping.groups (fun row => (row.from_, row.to_))
        (t.messages.rows.filter fun row => row.isDirect && row.inWindow since)).map
          fun group => group.2.length) = _ := Grouping.total_groups
    have hcomp : (FlowEdge.count ∘ fun group : (String × String) × List MessageRow =>
        FlowEdge.mk group.1.1 group.1.2 group.2.length (latest group.2)) =
          fun group => group.2.length := rfl
    have hdrawn := List.filter_filter (p := MessageRow.isDirect) (q := MessageRow.inWindow since)
      (l := t.messages.rows)
    have hothers := List.filter_filter (p := fun row => !row.isDirect)
      (q := MessageRow.inWindow since) (l := t.messages.rows)
    rw [hcomp, hcounts, ← hdrawn, ← hothers, ← List.length_append]
    exact (List.filter_append_perm _ _).length_eq
  · rw [(hperm.map _).nodup_iff, List.map_map]
    have hcomp : ((fun edge : FlowEdge => (edge.frm, edge.to_)) ∘
        fun group : (String × String) × List MessageRow =>
          FlowEdge.mk group.1.1 group.1.2 group.2.length (latest group.2)) = Prod.fst := rfl
    rw [hcomp, Grouping.map_fst_groups]
    exact Grouping.nodup_firsts _
  · rw [Grouping.mem_firsts, List.mem_flatMap]
    exact ⟨edge, hedge, by simp⟩
  · rw [Grouping.mem_firsts, List.mem_flatMap]
    exact ⟨edge, hedge, by simp⟩

/-- A letter is on an edge, and a note to a project is not. -/
theorem letter_is_on_an_edge :
    let t := plainHub.after .empty someMail
    Grouping.total ([⟨"p/bob", "p/alice", 1, (january 10).isoformat⟩].map FlowEdge.count) + 1 =
        (t.messages.rows.filter (MessageRow.inWindow none)).length ∧
      (messagesBetween "p/bob" "p/alice" none t).length = 1 := by
  intro t
  have hgraph : plainHub.flowGraph none (january 12) t =
      .ok ⟨[⟨"p/bob", "p/alice", 1, (january 10).isoformat⟩], ["p/bob", "p/alice"], [], 1⟩ := by
    decide +kernel
  obtain ⟨htotal, _, hedges⟩ := flow_adds_up plainHub someMail none
    (january 12) _ hgraph
  exact ⟨htotal, (hedges _ (List.mem_singleton_self _)).2.2.1.symm⟩

/-! ## Threads -/

/-- The mail an agent is a party to, oldest first. -/
def parties (t : Tables) (reader : Reader) : List MessageRow :=
  oldestFirst (t.messages.rows.filter fun row => row.isParty reader)

/-- A summary says what there is to be read. -/
def Describes (summary : ThreadSummary) (turns : List ThreadTurn) : Prop :=
  summary.turns = turns.length ∧ ∃ last, turns.getLast? = some last ∧
    summary.lastAt = last.message.created.isoformat ∧ summary.lastFrom = last.message.from_ ∧
    (summary.awaitingThem = true ↔ last.mine = true ∧ last.readAt.bind Text.orNone = none)

/-- The turns of a thread, of all the mail an agent is a party to. -/
def turnsOf (t : Tables) (me threadId : String) (rows : List MessageRow) : List ThreadTurn :=
  (rows.filter fun row => row.thread = some threadId).map fun row =>
    ⟨row.toMessage, t.firstRead row.id, row.from_ = me⟩

/-- The threads that some mail is on, summed up. -/
def summaries (t : Tables) (me : String) (rows : List MessageRow) : List ThreadSummary :=
  (Grouping.groups threadOf rows).filterMap fun group =>
    summary t.firstRead me group.1 group.2

section
variable {hub : Hub} {t : Tables} {project agent me : String} {role : Option String}

lemma sliceTo_of_le {α : Type} {limit : ℤ} {xs : List α} (h : xs.length ≤ limit) :
    sliceTo limit xs = xs := by
  unfold sliceTo
  rw [if_neg (by omega), List.take_of_length_le (by omega)]

lemma mem_parties {reader : Reader} {row : MessageRow} :
    row ∈ parties t reader ↔ row ∈ t.messages.rows ∧ row.isParty reader = true := by
  rw [parties, (oldestFirst_perm _).mem_iff, List.mem_filter]

/-- What is read of a thread is what the agent is a party to. -/
lemma readThread_eq (hme : formatAddress hub.unicode project agent role = .ok me)
    (threadId : String) : hub.readThread project agent threadId role t =
      let rows := (parties t ⟨project, agent, role.getD "", me⟩).filter fun row =>
        row.thread = some threadId
      if rows.isEmpty then .ok none
      else (hub.readState (rows.map MessageRow.id) t).map fun readState =>
        some (rows.map fun row => ⟨row.toMessage, readState row.id, row.from_ = me⟩) := by
  have hrows : oldestFirst (t.messages.rows.filter fun row => row.thread = some threadId &&
      row.isParty ⟨project, agent, role.getD "", me⟩) =
        (parties t ⟨project, agent, role.getD "", me⟩).filter fun row =>
          row.thread = some threadId := by
    rw [parties, oldestFirst, oldestFirst, Sorting.filter_sortBy, List.filter_filter]
  simp only [readThread, reader_ok hme, ok_bind, hrows]
  split_ifs
  · rfl
  · cases hub.readState _ t <;> rfl

/-- What is listed is made from what the agent is a party to. -/
lemma listThreads_eq (hme : formatAddress hub.unicode project agent role = .ok me) (limit : ℤ) :
    hub.listThreads project agent limit role t =
      let rows := parties t ⟨project, agent, role.getD "", me⟩
      (hub.readState (rows.map MessageRow.id) t).map fun readState =>
        sliceTo limit (Sorting.sortBy (fun summary => OrderDual.toDual summary.lastAt)
          ((Grouping.groups threadOf rows).filterMap fun group =>
            summary readState me group.1 group.2)) := by
  simp only [listThreads, reader_ok hme, ok_bind, parties]
  cases hub.readState _ t <;> rfl

/-- As many messages as can be bound have their first readings looked up. -/
lemma readState_ok {messageIds : List String} (h : messageIds.length ≤ hub.maxVariables) :
    hub.readState messageIds t =
      .ok fun id => if id ∈ messageIds then t.firstRead id else none := by
  rw [readState, if_neg (not_lt.mpr h)]

/-- A summary asks about nothing but the turns. -/
lemma summary_congr {state state' : String → Option String} {turns : List MessageRow}
    (h : ∀ row ∈ turns, state row.id = state' row.id) (threadId : String) :
    summary state me threadId turns = summary state' me threadId turns := by
  unfold summary
  cases hlast : turns.getLast? with
  | none => rfl
  | some last =>
    have hin := List.mem_of_getLast? hlast
    simp only [Option.map_some, h last hin]

lemma ite_mem_ids {rows : List MessageRow} {row : MessageRow} (h : row ∈ rows) :
    (if row.id ∈ rows.map MessageRow.id then t.firstRead row.id else none) =
      t.firstRead row.id := if_pos (List.mem_map_of_mem h)

/-- What can be read of a thread, as long as what the agent is a party to can be bound. -/
lemma readThread_some_iff (hme : formatAddress hub.unicode project agent role = .ok me)
    (hfits : (parties t ⟨project, agent, role.getD "", me⟩).length ≤ hub.maxVariables)
    (threadId : String) (turns : List ThreadTurn) :
    hub.readThread project agent threadId role t = .ok (some turns) ↔
      turnsOf t me threadId (parties t ⟨project, agent, role.getD "", me⟩) ≠ [] ∧
        turns = turnsOf t me threadId (parties t ⟨project, agent, role.getD "", me⟩) := by
  rw [readThread_eq hme, turnsOf]
  have hless := List.length_filter_le (fun row : MessageRow => row.thread = some threadId)
    (parties t ⟨project, agent, role.getD "", me⟩)
  generalize (parties t ⟨project, agent, role.getD "", me⟩).filter _ = rows at hless ⊢
  dsimp only
  split_ifs with hempty
  · simp [List.isEmpty_iff.mp hempty]
  · have hbound : (rows.map MessageRow.id).length ≤ hub.maxVariables := by
      rw [List.length_map]
      exact hless.trans hfits
    have hturns : (rows.map fun row => ThreadTurn.mk row.toMessage
        (if row.id ∈ rows.map MessageRow.id then t.firstRead row.id else none)
          (row.from_ = me)) =
        rows.map fun row => ⟨row.toMessage, t.firstRead row.id, row.from_ = me⟩ :=
      List.map_congr_left fun row hrow => by rw [ite_mem_ids hrow]
    rw [readState_ok hbound, Except.map, hturns, Except.ok.injEq, Option.some.injEq,
      and_iff_right (mt List.map_eq_nil_iff.mp (mt List.isEmpty_iff.mpr hempty)), eq_comm]

/-- Every thread that has a turn is summed up, as long as what the agent is a party to can be
bound. -/
lemma listThreads_ok (hme : formatAddress hub.unicode project agent role = .ok me) {limit : ℤ}
    (hlimit : t.messages.rows.length ≤ limit)
    (hfits : (parties t ⟨project, agent, role.getD "", me⟩).length ≤ hub.maxVariables) :
    ∃ listed, hub.listThreads project agent limit role t = .ok listed ∧
      listed.Perm (summaries t me (parties t ⟨project, agent, role.getD "", me⟩)) := by
  have hparties : (parties t ⟨project, agent, role.getD "", me⟩).length ≤
      t.messages.rows.length := by
    rw [parties, (oldestFirst_perm _).length_eq]
    exact List.length_filter_le _ _
  rw [listThreads_eq hme]
  generalize parties t ⟨project, agent, role.getD "", me⟩ = rows at hfits hparties ⊢
  have hbound : (rows.map MessageRow.id).length ≤ hub.maxVariables := by
    rwa [List.length_map]
  have hsame : ((Grouping.groups threadOf rows).filterMap fun group =>
      summary (fun id => if id ∈ rows.map MessageRow.id then t.firstRead id else none) me
        group.1 group.2) = summaries t me rows := by
    refine List.filterMap_congr fun group hgroup => summary_congr (fun row hrow => ?_) group.1
    rw [(Grouping.mem_groups.mp hgroup).2] at hrow
    exact ite_mem_ids (List.mem_filter.mp hrow).1
  dsimp only
  rw [readState_ok hbound, Except.map, hsame]
  have hlength : ((summaries t me rows).length : ℤ) ≤ limit := by
    have hsome : (summaries t me rows).length ≤ _ := List.length_filterMap_le _ _
    have hgroups : ((Grouping.groups threadOf rows).map Prod.fst).length =
        (Grouping.firsts (rows.map threadOf)).length := by rw [Grouping.map_fst_groups]
    have hfirsts := Grouping.length_firsts_le (rows.map threadOf)
    rw [List.length_map] at hgroups hfirsts
    omega
  have hperm := Sorting.sortBy_perm (fun summary => OrderDual.toDual summary.lastAt)
    (summaries t me rows)
  rw [← hperm.length_eq] at hlength
  exact ⟨_, congrArg Except.ok (sliceTo_of_le hlength), hperm⟩

/-- The summary of a thread, when its turns are what can be read of it. -/
lemma summary_describes {threadId : String} {turns : List MessageRow} {s : ThreadSummary}
    (h : summary t.firstRead me threadId turns = some s) : s.thread = threadId ∧ turns ≠ [] ∧
      Describes s (turns.map fun row => ⟨row.toMessage, t.firstRead row.id, row.from_ = me⟩) := by
  obtain ⟨last, hlast, rfl⟩ := Option.map_eq_some_iff.mp h
  have hturn : (turns.map fun row => ThreadTurn.mk row.toMessage (t.firstRead row.id)
      (row.from_ = me)).getLast? = some ⟨last.toMessage, t.firstRead last.id, last.from_ = me⟩ := by
    rw [List.getLast?_map, hlast, Option.map_some]
  have hlength : turns.length = (turns.map fun row => ThreadTurn.mk row.toMessage
      (t.firstRead row.id) (row.from_ = me)).length := by rw [List.length_map]
  refine ⟨rfl, ?_, hlength, _, hturn, rfl, rfl, by simp⟩
  rintro rfl
  cases hlast

lemma summary_isSome (state : String → Option String) (me threadId : String)
    {turns : List MessageRow} (h : turns ≠ []) : ∃ s, summary state me threadId turns = some s := by
  rw [summary, List.getLast?_eq_some_getLast h]
  exact ⟨_, rfl⟩

end

lemma threadOf_eq_iff {row : MessageRow} (h : row.thread ≠ none) :
    row.thread = some (threadOf row) ∨ row.thread = some "" ∧ threadOf row = row.id := by
  obtain ⟨thread, hthread⟩ := Option.ne_none_iff_exists'.mp h
  by_cases hempty : thread = ""
  · right
    simp [threadOf, hthread, hempty, Text.orNone]
  · left
    simp [threadOf, hthread, hempty, Text.orNone]

lemma map_filterMap_sublist {α β γ : Type} {f : α → Option β} {g : β → γ} {key : α → γ}
    (h : ∀ a b, f a = some b → g b = key a) (xs : List α) :
    ((xs.filterMap f).map g).Sublist (xs.map key) := by
  induction xs with
  | nil => exact List.Sublist.slnil
  | cons a xs ih =>
    cases hf : f a with
    | none =>
      rw [List.filterMap_cons_none hf]
      exact ih.cons _
    | some b =>
      rw [List.filterMap_cons_some hf, List.map_cons, List.map_cons, h a b hf]
      exact ih.cons_cons _

section
variable {t : Tables} {me : String} {rows : List MessageRow}

/-- No thread is listed twice. -/
lemma summaries_nodup (t : Tables) (me : String) (rows : List MessageRow) :
    ((summaries t me rows).map ThreadSummary.thread).Nodup := by
  have hkeys : ((Grouping.groups threadOf rows).map Prod.fst).Nodup := by
    rw [Grouping.map_fst_groups]
    exact Grouping.nodup_firsts _
  exact hkeys.sublist (map_filterMap_sublist (fun _ _ h => (summary_describes h).1) _)

/-- When every message is on the thread it is listed under, a summary says what can be read. -/
lemma describes_turnsOf (hall : ∀ row ∈ rows, row.thread = some (threadOf row))
    {s : ThreadSummary} (hs : s ∈ summaries t me rows) :
    turnsOf t me s.thread rows ≠ [] ∧ Describes s (turnsOf t me s.thread rows) := by
  obtain ⟨group, hgroup, hsummary⟩ := List.mem_filterMap.mp hs
  obtain ⟨hthread, hnonempty, hdescribes⟩ := summary_describes hsummary
  have hmembers : group.2 = rows.filter fun row => row.thread = some s.thread := by
    rw [(Grouping.mem_groups.mp hgroup).2, hthread]
    refine List.filter_congr fun row hrow => ?_
    rw [hall row hrow]
    simp
  rw [hmembers] at hnonempty hdescribes
  exact ⟨mt List.map_eq_nil_iff.mp hnonempty, hdescribes⟩

/-- A message on the empty thread is listed under its own id, with one turn more than can be
read there. -/
lemma threaded_of_describes (hthreaded : ∀ row ∈ rows, row.thread ≠ none)
    (hall : ∀ s ∈ summaries t me rows, Describes s (turnsOf t me s.thread rows)) :
    ∀ row ∈ rows, row.thread = some (threadOf row) := by
  intro row hrow
  by_contra hne
  obtain ⟨hempty, hkey⟩ := (threadOf_eq_iff (hthreaded row hrow)).resolve_left hne
  -- its group has what can be read under its id, and the message itself
  have hgroup : (row.id, rows.filter fun other => threadOf other = row.id) ∈
      Grouping.groups threadOf rows := Grouping.mem_groups.mpr ⟨⟨row, hrow, hkey⟩, rfl⟩
  obtain ⟨s, hs⟩ := summary_isSome t.firstRead me row.id (Grouping.ne_nil_of_mem_groups hgroup)
  obtain ⟨hthread, _, hturns, _⟩ := summary_describes hs
  obtain ⟨hcount, _⟩ := hall s (List.mem_filterMap.mpr ⟨_, hgroup, hs⟩)
  rw [hturns, hthread, turnsOf, List.length_map, List.length_map] at hcount
  have hid : row.id ≠ "" := by
    intro hid
    exact hne (by rw [hempty, hkey, hid])
  have hless : (rows.filter fun other => other.thread = some row.id) =
      (rows.filter fun other => threadOf other = row.id).filter
        fun other => other.thread = some row.id := by
    rw [List.filter_filter]
    refine List.filter_congr fun other _ => ?_
    by_cases hother : other.thread = some row.id
    · simp [hother, threadOf, Text.orNone, hid]
    · simp [hother]
  have hlt : ((rows.filter fun other => threadOf other = row.id).filter
      fun other => other.thread = some row.id).length <
        (rows.filter fun other => threadOf other = row.id).length := by
    refine List.length_filter_lt_length_iff_exists.mpr ⟨row, ?_, ?_⟩
    · exact List.mem_filter.mpr ⟨hrow, decide_eq_true hkey⟩
    · simp [hempty, hid.symm]
  rw [← hless] at hlt
  dsimp only at hcount
  omega

end

/-- The conversations that are listed are those that can be read: each has the turns, the last
turn and the answer to wait for that the list says. This holds exactly as long as the agent is
a party to no message whose thread is the empty text: such a message is listed under its own
id, where it is not to be read. An agent that is a party to more messages than can be bound is
shown no list at all. -/
theorem listed_threads_can_be_read_iff (hub : Hub) (verbs : List Verb)
    (project agent me : String) (role : Option String) (limit : ℤ)
    (hme : formatAddress hub.unicode project agent role = .ok me)
    (hlimit : (hub.after .empty verbs).messages.rows.length ≤ limit) :
    let t := hub.after .empty verbs
    let rows := parties t ⟨project, agent, role.getD "", me⟩
    (hub.maxVariables < rows.length → hub.listThreads project agent limit role t =
      .error (.operationalError "too many SQL variables")) ∧
    (rows.length ≤ hub.maxVariables →
      ∃ listed, hub.listThreads project agent limit role t = .ok listed ∧
        (listed.map ThreadSummary.thread).Nodup ∧
        ((∀ s ∈ listed, ∃ turns,
            hub.readThread project agent s.thread role t = .ok (some turns) ∧
              Describes s turns) ↔
          ∀ row ∈ rows, row.thread = some (threadOf row))) := by
  intro t rows
  refine ⟨fun hmany => ?_, fun hfits => ?_⟩
  · have hbound : hub.maxVariables < (rows.map MessageRow.id).length := by
      rwa [List.length_map]
    rw [listThreads_eq hme]
    dsimp only
    rw [readState, if_pos hbound]
    rfl
  obtain ⟨listed, hlist, hperm⟩ := listThreads_ok hme hlimit hfits
  have hthreaded : ∀ row ∈ rows, row.thread ≠ none := fun row hrow =>
    (proper_after hub verbs row (mem_parties.mp hrow).1).threaded
  refine ⟨listed, hlist, ?_, fun hall => ?_, fun hall s hs => ?_⟩
  · rw [(hperm.map _).nodup_iff]
    exact summaries_nodup t me rows
  · have hread : ∀ s ∈ summaries t me rows, Describes s (turnsOf t me s.thread rows) := by
      intro s hs
      obtain ⟨turns, hread, hdescribes⟩ := hall s (hperm.mem_iff.mpr hs)
      rwa [((readThread_some_iff hme hfits s.thread turns).mp hread).2] at hdescribes
    exact threaded_of_describes hthreaded hread
  · obtain ⟨hnonempty, hdescribes⟩ := describes_turnsOf hall (hperm.mem_iff.mp hs)
    exact ⟨_, (readThread_some_iff hme hfits s.thread _).mpr ⟨hnonempty, rfl⟩, hdescribes⟩

/-- Bob's letter and alice's note are each on a thread that can be read. -/
theorem alice_can_read_her_threads :
    let t := plainHub.after .empty someMail
    ∃ summaries, plainHub.listThreads "p" "alice" 50 none t = .ok summaries ∧
      ∀ s ∈ summaries, ∃ turns,
        plainHub.readThread "p" "alice" s.thread none t = .ok (some turns) ∧ Describes s turns := by
  obtain ⟨_, hfits⟩ := listed_threads_can_be_read_iff plainHub someMail "p" "alice" "p/alice"
    none 50 (by decide +kernel) (by decide +kernel)
  obtain ⟨summaries, hlist, _, hread⟩ := hfits (by decide +kernel)
  exact ⟨summaries, hlist, hread.mpr (by decide +kernel)⟩

end Hub

end AgentMailbox.Old
