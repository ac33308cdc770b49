import AgentMailbox.Old.Forwarding

/-!
# Who may join a thread

The thread of a message is the sender's to name, so it is checked against the threads there
are: only a party to one may add to it. Expired threads go as a whole, so that the check is
never undone by housekeeping.
-/
namespace AgentMailbox.Old

/-- A call that gives nobody another name. -/
def Verb.KeepsNames : Verb → Prop
  | .rename .. => False
  | _ => True

namespace Hub

/-- A row of mail that is on a thread by right, given the mail before it: it is the root of the
thread, or there was no such thread, or its sender was a party to what there was of it. -/
def MayJoin (hub : Hub) (before : List MessageRow) (row : MessageRow) : Prop :=
  row.thread = some row.id ∨ (∀ other ∈ before, other.thread ≠ row.thread) ∨
    ∃ project agent role reader, parseAddress hub.unicode row.from_ =
        .ok ⟨some project, some agent, role⟩ ∧
      hub.reader project agent role = .ok reader ∧
      ∃ other ∈ before, other.thread = row.thread ∧ other.isParty reader = true

/-- Every row of mail is on its thread by right. -/
def Joined (hub : Hub) (rows : List MessageRow) : Prop :=
  ∀ before row after, rows = before ++ row :: after → MayJoin hub before row

variable {hub : Hub}

/-- What is sent has the right to be on its thread. -/
lemma mayJoin_of_prepare {message sent : Message} {now : DateTime} {t : Tables} {target : Target}
    (h : hub.prepare message now t = .ok (sent, target)) :
    MayJoin hub t.messages.rows (rowOf sent target) := by
  obtain ⟨_, followed, _, hjoin⟩ := prepare_ok h
  unfold threadSenderMayJoin at hjoin
  split_ifs at hjoin with hroot hnew
  · cases hjoin
    exact Or.inl (congrArg some hroot)
  · cases hjoin
    refine Or.inr (Or.inl fun other hother => ?_)
    exact of_decide_eq_true (List.all_eq_true.mp hnew other hother)
  · obtain ⟨⟨project, agent, role⟩, hsender, hjoin⟩ := bind_eq_ok.mp hjoin
    split at hjoin
    · rename_i project' agent' hproject hagent
      cases hproject
      cases hagent
      obtain ⟨reader, hreader, hjoin⟩ := bind_eq_ok.mp hjoin
      split_ifs at hjoin with hparty
      · cases hjoin
        obtain ⟨other, hother, hsame⟩ := List.any_eq_true.mp hparty
        simp only [Bool.and_eq_true, decide_eq_true_eq] at hsame
        exact Or.inr (Or.inr ⟨project', agent', role, reader, hsender, hreader, other, hother,
          hsame.1, hsame.2⟩)
      · cases hjoin
        exact Or.inl rfl
    · cases hjoin
      exact Or.inl rfl

/-- A row that has the right to its thread may be added at the end. -/
lemma Joined.append {rows : List MessageRow} {row : MessageRow} (h : Joined hub rows)
    (hrow : MayJoin hub rows row) : Joined hub (rows ++ [row]) := by
  intro before row' after hsplit
  rcases List.eq_nil_or_concat' after with rfl | ⟨init, last, rfl⟩
  · obtain ⟨rfl, hsame⟩ := List.append_inj' hsplit rfl
    cases hsame
    exact hrow
  · have hinner : rows ++ [row] = (before ++ row' :: init) ++ [last] := by
      rw [hsplit]
      simp
    exact h before row' init (List.append_inj' hinner rfl).1

/-- Whole threads may go. -/
lemma Joined.filter {rows : List MessageRow} (h : Joined hub rows) {p : MessageRow → Bool}
    (hp : ∀ row other, row.thread = other.thread → p row = p other) :
    Joined hub (rows.filter p) := by
  intro before row after hsplit
  obtain ⟨first, rest, rfl, hfirst, hrest⟩ := List.filter_eq_append_iff.mp hsplit
  obtain ⟨gone, tail, rfl, hgone, hkept, _⟩ := List.filter_eq_cons_iff.mp hrest
  have hbefore : before = (first ++ gone).filter p := by
    rw [List.filter_append, hfirst, List.filter_eq_nil_iff.mpr hgone, List.append_nil]
  rw [hbefore]
  rcases h (first ++ gone) row tail (by simp) with hroot | hnew |
    ⟨project, agent, role, reader, hsender, hreader, other, hother, hthread, hparty⟩
  · exact Or.inl hroot
  · exact Or.inr (Or.inl fun other hother => hnew other (List.mem_filter.mp hother).1)
  · refine Or.inr (Or.inr ⟨project, agent, role, reader, hsender, hreader, other,
      List.mem_filter.mpr ⟨hother, ?_⟩, hthread, hparty⟩)
    rw [hp other row hthread, hkept]

lemma Write.joined {t t' : Tables} (ht : Joined hub t.messages.rows) (h : Write hub t t') :
    Joined hub t'.messages.rows := by
  cases h with
  | posts message sent now target messages hprepare hinsert =>
    dsimp only
    rw [(Table.insert_eq_some hinsert).2]
    exact ht.append (mayJoin_of_prepare hprepare)
  | consumes => exact ht
  | lists => exact ht

lemma Opens.joined {t t' : Tables} (ht : Joined hub t.messages.rows) (h : Opens t t') :
    Joined hub t'.messages.rows := by
  cases h with
  | stamps => exact ht
  | purges stamped cutoff =>
    refine Joined.filter ht fun row other hthread => ?_
    simp only [expired, hthread]

/-- Outsiders never join a thread. In every run in which agents keep their names, whoever has
a message on a thread was a party to it before: the message is the root of the thread, or the
thread began with it, or its sender had sent, or was sent, one of the messages that were there
first. -/
theorem outsiders_never_join (hub : Hub) (verbs : List Verb)
    (hnames : ∀ verb ∈ verbs, verb.KeepsNames) (before after : List MessageRow) (row : MessageRow)
    (h : (hub.after .empty verbs).messages.rows = before ++ row :: after) :
    MayJoin hub before row := by
  have hjoined : ∀ t : Tables, Joined hub t.messages.rows → ∀ verbs : List Verb,
      (∀ verb ∈ verbs, verb.KeepsNames) → Joined hub (hub.after t verbs).messages.rows := by
    intro t ht verbs hnames
    induction verbs generalizing t with
    | nil => exact ht
    | cons verb verbs ih =>
      obtain ⟨hverb, hrest⟩ := List.forall_mem_cons.mp hnames
      refine ih _ ?_ hrest
      rcases step_cases hub verb t with ⟨hwrites | hopens, _⟩ |
        ⟨project, agent, to_, role, clock, r, n, rfl, _, _⟩
      · exact hwrites.invariant (I := fun t => Joined hub t.messages.rows)
          (fun _ _ ht hwrite => hwrite.joined ht) ht
      · exact hopens.joined ht
      · exact hverb.elim
  have hempty : Joined hub Tables.empty.messages.rows := by
    intro before row after hsplit
    cases before <;> cases hsplit
  exact hjoined .empty hempty verbs hnames before row after h

/-- Bob may answer on the thread of alice's note, which was to him too. -/
theorem bob_may_answer : MayJoin plainHub
    [rowOf letterToAlice ⟨some "p", some "alice", none⟩, rowOf noteByAlice ⟨some "p", none, none⟩]
    (rowOf answerToAlice ⟨some "p", some "alice", none⟩) :=
  outsiders_never_join plainHub (someMail ++ [.send answerToAlice (january 12)])
    (by simp [someMail, Verb.KeepsNames]) _ [] _ (by decide +kernel)

end Hub

end AgentMailbox.Old
