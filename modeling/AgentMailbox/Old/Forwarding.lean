import AgentMailbox.Old.Delivery

/-!
# Where mail follows

Forwards lead from a name an agent has given up to the one it has taken. They never lead in
circles; and the forward at a name an agent has left names the agent's name of today, through
however many further renames.
-/
namespace AgentMailbox.Old

namespace Hub

open ParentPointers

/-- The forward at an address after a rename. -/
lemma find?_moveForwards (r : Renaming) (now : DateTime) (t : Tables) (address : String) :
    (moveForwards r now t).find? address =
      if address = r.old then some ⟨r.old, r.new_, now, r.expires⟩
      else (t.forwards.find? address).map fun row =>
        if row.newAddress = r.old then { row with newAddress := r.new_ } else row := by
  simp only [moveForwards, Table.find?_update, Table.find?_insertOrReplace]
  split_ifs with hold
  · simp only [Option.map_some, Option.some.injEq]
    split_ifs <;> rfl
  · rfl

/-- A rename redirects the forwards. -/
lemma forwardOf_of_moveForwards {r : Renaming} {now : DateTime} {t t' : Tables}
    (h : t'.forwards = moveForwards r now t) :
    t'.forwardOf = redirect t.forwardOf r.old r.new_ := by
  funext address
  simp only [Tables.forwardOf, h, find?_moveForwards, redirect]
  split_ifs with hold
  · rfl
  · rw [Option.map_map, Option.map_map]
    congr 1
    funext row
    simp only [Function.comp_apply]
    split_ifs <;> rfl

lemma Write.forwards {hub : Hub} {t t' : Tables} (h : Write hub t t') :
    t'.forwards = t.forwards := by
  cases h <;> rfl

lemma forwardOf_congr {t t' : Tables} (h : t'.forwards = t.forwards) :
    t'.forwardOf = t.forwardOf := by
  funext address
  simp only [Tables.forwardOf, h]

lemma Opens.forwards {t t' : Tables} (h : Opens t t') : t'.forwards = t.forwards := by
  cases h <;> rfl

lemma Writes.forwards {hub : Hub} {t t' : Tables} (h : Writes hub t t') :
    t'.forwards = t.forwards :=
  h.invariant (I := fun t' => t'.forwards = t.forwards)
    (fun _ _ hsame hwrite => hwrite.forwards.trans hsame) rfl

/-! ## No circles -/

/-- What has a forward is among the old addresses on file. -/
lemma mem_of_forwardOf {t : Tables} {address next : String} (h : t.forwardOf address = some next) :
    address ∈ (t.forwards.rows.map ForwardRow.oldAddress).toFinset := by
  obtain ⟨row, hrow, _⟩ := Option.map_eq_some_iff.mp h
  obtain ⟨hin, hkey⟩ := (t.forwards.find?_eq_some address row).mp hrow
  exact List.mem_toFinset.mpr (List.mem_map.mpr ⟨row, hin, hkey⟩)

/-- Following forwards is decided, as long as they do not lead in circles. -/
lemma resolvesTo_iff {t : Tables} (h : Ranked t.forwardOf) (start target : String) :
    resolvesTo t start target = true ↔ LeadsTo t.forwardOf start target := by
  refine leads_iff h (fun _ _ => mem_of_forwardOf) ?_ start target
  have hcard := List.toFinset_card_le (t.forwards.rows.map ForwardRow.oldAddress)
  rw [List.length_map] at hcard
  omega

theorem ranked_after (hub : Hub) (verbs : List Verb) :
    Ranked (hub.after .empty verbs).forwardOf := by
  refine after_invariant hub (I := fun t => Ranked t.forwardOf) ?_ ?_ ?_ ?_ verbs
  · intro t t' h hwrite
    rwa [forwardOf_congr hwrite.forwards]
  · intro t t' h hopens
    rwa [forwardOf_congr hopens.forwards]
  · intro t project agent to_ role clock r h hrename
    have hmoved : (renamed project agent role clock r t).forwardOf = _ :=
      forwardOf_of_moveForwards rfl
    rw [hmoved]
    refine h.redirect hrename.moves fun hleads => ?_
    have honward := hrename.onward
    rw [(resolvesTo_iff h r.new_ r.old).mpr hleads] at honward
    cases honward
  · refine ⟨fun _ => 0, fun x y h => ?_⟩
    simp [Tables.forwardOf, Tables.empty, Table.find?] at h

/-- After any sequence of calls forwards lead from no address back to itself, and the walk that
looks for a circle finds out exactly where they lead. -/
theorem forwards_never_circle (hub : Hub) (verbs : List Verb) (start target : String) :
    ¬ LeadsTo (hub.after .empty verbs).forwardOf start start ∧
      (resolvesTo (hub.after .empty verbs) start target = true ↔
        LeadsTo (hub.after .empty verbs).forwardOf start target) := by
  have hranked := ranked_after hub verbs
  exact ⟨hranked.not_leadsTo_self start, resolvesTo_iff hranked start target⟩

/-! ## The name of today -/

/-- The rename an answer reports, from which address to which. -/
def movedBy : Except Failure Answer → List (String × String)
  | .ok (.renamed old new_ _) => [(old, new_)]
  | _ => []

/-- The renames carried out in a run. -/
def renamings (hub : Hub) : Tables → List Verb → List (String × String)
  | _, [] => []
  | t, verb :: verbs => movedBy (hub.step verb t).1 ++ renamings hub (hub.step verb t).2 verbs

/-- The name of today of the agent that had a name before some renames. -/
def nameToday (name : String) (renamings : List (String × String)) : String :=
  renamings.foldl (fun name moved => if name = moved.1 then moved.2 else name) name

lemma movedBy_of_ne {answer : Except Failure Answer}
    (h : ∀ old new_ n, answer ≠ .ok (.renamed old new_ n)) : movedBy answer = [] := by
  unfold movedBy
  split
  · exact absurd rfl (h _ _ _)
  · rfl

/-- A verb leaves the forwards alone, or it is a rename and moves them. -/
lemma forwards_step (hub : Hub) (verb : Verb) (t : Tables) :
    (movedBy (hub.step verb t).1 = [] ∧ (hub.step verb t).2.forwards = t.forwards) ∨
    ∃ project agent to_ role clock r, verb = .rename project agent to_ role clock ∧
      Renames hub project agent to_ role clock t r ∧
      movedBy (hub.step verb t).1 = [(r.old, r.new_)] ∧
      (hub.step verb t).2.forwards = moveForwards r clock.now t := by
  rcases step_cases hub verb t with ⟨hwrites | hopens, hanswer⟩ |
    ⟨project, agent, to_, role, clock, r, n, hverb, hchecked, hstep⟩
  · exact Or.inl ⟨movedBy_of_ne hanswer, hwrites.forwards⟩
  · exact Or.inl ⟨movedBy_of_ne hanswer, hopens.forwards⟩
  · refine Or.inr ⟨project, agent, to_, role, clock, r, hverb, hchecked, ?_, ?_⟩
    · rw [hstep]
      rfl
    · rw [hstep]
      rfl

/-- A forward keeps naming the name of today and keeps its date, as long as nobody leaves its
address again. -/
lemma find?_forwards_after {hub : Hub} {t : Tables} {address : String} {row : ForwardRow}
    (verbs : List Verb) (h : t.forwards.find? address = some row)
    (hstays : ∀ moved ∈ renamings hub t verbs, moved.1 ≠ address) :
    (hub.after t verbs).forwards.find? address =
      some { row with newAddress := nameToday row.newAddress (renamings hub t verbs) } := by
  induction verbs generalizing t row with
  | nil => exact h
  | cons verb verbs ih =>
    rw [after_cons]
    rcases forwards_step hub verb t with ⟨hnone, hsame⟩ | ⟨_, _, _, _, clock, r, _, _, hone, hmove⟩
    · rw [renamings, hnone] at hstays ⊢
      exact ih (by rw [hsame, h]) hstays
    · rw [renamings, hone] at hstays ⊢
      obtain ⟨hleaves, hrest⟩ := List.forall_mem_cons.mp hstays
      have hnext := find?_moveForwards r clock.now t address
      rw [← hmove, if_neg (Ne.symm hleaves), h, Option.map_some] at hnext
      rw [ih hnext hrest]
      simp only [nameToday, List.singleton_append, List.foldl_cons]
      split_ifs <;> rfl

/-- What becomes of a message to an address that was left. -/
lemma follow_forward {t : Tables} {message : Message} {row : ForwardRow}
    (h : t.forwards.find? (Text.strip message.to_) = some row) (now : DateTime) :
    follow message now t =
      if row.expiresAt.isoformat ≤ now.isoformat then
        .error (.forwardEnded message.to_ row.newAddress)
      else .ok { message with to_ := row.newAddress, forwardedTo := some row.newAddress } := by
  unfold follow Tables.resolveForward
  rw [h, Option.map_some]
  split_ifs with hexpired
  · simp [hexpired]
  · simp [hexpired]

lemma follow_id {t : Tables} {message followed : Message} {now : DateTime}
    (h : follow message now t = .ok followed) : followed.id = message.id := by
  unfold follow at h
  split at h
  · cases h
    rfl
  · cases h
  · cases h
    rfl

/-- Joining a thread changes a message's thread and nothing else about it. -/
lemma threadSenderMayJoin_ok {hub : Hub} {message joined : Message} {t : Tables}
    (h : hub.threadSenderMayJoin message t = .ok joined) :
    joined = { message with thread := joined.thread } := by
  unfold threadSenderMayJoin at h
  split_ifs at h
  · cases h
    rfl
  · cases h
    rfl
  · obtain ⟨sender, _, h⟩ := bind_eq_ok.mp h
    split at h
    · obtain ⟨reader, _, h⟩ := bind_eq_ok.mp h
      split_ifs at h
      all_goals
        cases h
        rfl
    · cases h
      rfl

/-- What a sending stores. -/
lemma send_ok {hub : Hub} {message sent : Message} {now : DateTime} {t t' : Tables}
    (h : hub.send message now t = (.ok sent, t')) : ∃ target messages,
    hub.prepare message now t = .ok (sent, target) ∧
      t.messages.insert (rowOf sent target) = some messages ∧
      t' = { t with messages := messages } := by
  unfold send at h
  cases hprepare : hub.prepare message now t with
  | error e => simp [hprepare] at h
  | ok prepared =>
    obtain ⟨sent', target⟩ := prepared
    rw [hprepare] at h
    dsimp only at h
    cases hinsert : t.messages.insert (rowOf sent' target) with
    | none => simp [hinsert] at h
    | some messages =>
      simp only [hinsert, Prod.mk.injEq, Except.ok.injEq] at h
      obtain ⟨rfl, rfl⟩ := h
      exact ⟨target, messages, rfl, hinsert, rfl⟩

/-- A sending that is refused leaves the tables as they were. -/
lemma send_error {hub : Hub} {message : Message} {now : DateTime} {t t' : Tables} {e : Failure}
    (h : hub.send message now t = (.error e, t')) : t' = t := by
  unfold send at h
  cases hprepare : hub.prepare message now t with
  | error e' =>
    rw [hprepare] at h
    cases h
    rfl
  | ok prepared =>
    obtain ⟨sent, target⟩ := prepared
    rw [hprepare] at h
    dsimp only at h
    cases hinsert : t.messages.insert (rowOf sent target) with
    | none =>
      rw [hinsert] at h
      cases h
      rfl
    | some messages =>
      rw [hinsert] at h
      cases h

/-- Every forward leads to what can be parsed. -/
def ForwardsParse (hub : Hub) (t : Tables) : Prop :=
  ∀ row ∈ t.forwards.rows, ∃ target, parseAddress hub.unicode row.newAddress = .ok target

/-- After any sequence of calls every forward leads to what can be parsed. -/
lemma forwardsParse_after (hub : Hub) (verbs : List Verb) :
    ForwardsParse hub (hub.after .empty verbs) := by
  refine after_invariant hub (I := ForwardsParse hub) ?_ ?_ ?_ (fun row hrow => by cases hrow) verbs
  · intro t t' h hwrite
    rwa [ForwardsParse, hwrite.forwards]
  · intro t t' h hopens
    rwa [ForwardsParse, hopens.forwards]
  · intro t project agent to_ role clock r h hrename row hrow
    have hforwards : (renamed project agent role clock r t).forwards.find? row.oldAddress =
        some row := (Table.find?_eq_some _ _ _).mpr ⟨hrow, rfl⟩
    have hmoved := find?_moveForwards r clock.now t row.oldAddress
    rw [show moveForwards r clock.now t = (renamed project agent role clock r t).forwards from rfl,
      hforwards] at hmoved
    split_ifs at hmoved with hold
    · cases hmoved
      exact ⟨_, hrename.parse_new⟩
    · obtain ⟨before, hbefore, hrow⟩ := Option.map_eq_some_iff.mp hmoved.symm
      split_ifs at hrow
      · rw [← hrow]
        exact ⟨_, hrename.parse_new⟩
      · rw [← hrow]
        exact h before ((Table.find?_eq_some _ _ _).mp hbefore).1

/-- The thread of a message is settled whenever its sender's address can be parsed. -/
lemma threadSenderMayJoin_of_sender (hub : Hub) {message : Message} {sender : Target}
    (h : parseAddress hub.unicode message.from_ = .ok sender) (t : Tables) :
    ∃ thread, (thread = message.thread ∨ thread = message.id) ∧
      hub.threadSenderMayJoin message t = .ok { message with thread := thread } := by
  unfold threadSenderMayJoin
  split_ifs with hown hfresh
  · exact ⟨message.thread, Or.inl rfl, rfl⟩
  · exact ⟨message.thread, Or.inl rfl, rfl⟩
  · rw [h, ok_bind]
    split
    · rename_i project agent hproject hagent
      obtain ⟨me, hme, _⟩ := format_of_specific h hproject hagent
      simp only [reader, hme, ok_bind, except_pure]
      split_ifs
      · exact ⟨message.thread, Or.inl rfl, rfl⟩
      · exact ⟨message.id, Or.inr rfl, rfl⟩
    · exact ⟨message.id, Or.inr rfl, rfl⟩

/-- A message sent on to another address, which it says. -/
def forwarded (message : Message) (address : String) : Message :=
  { message with to_ := address, forwardedTo := some address }

/-- What is within the limit, on the thread it names or on its own. -/
def WithinLimit (hub : Hub) (message : Message) : Prop :=
  ∀ thread ∈ [message.thread, message.id], hub.maxMessageBytes ≠ 0 →
    hub.jsonBytes { message with thread := thread } ≤ hub.maxMessageBytes

instance (hub : Hub) (message : Message) : Decidable (WithinLimit hub message) :=
  inferInstanceAs (Decidable (∀ thread ∈ [message.thread, message.id], _ → _))

/-- A message that is followed to an address that can be parsed is sent, when its sender's can
be, when it is within the limit, and when its id is new. -/
lemma send_followed {hub : Hub} {message followed : Message} {now : DateTime} {t : Tables}
    {target sender : Target} (hfollow : follow message now t = .ok followed)
    (htarget : parseAddress hub.unicode followed.to_ = .ok target)
    (hsender : parseAddress hub.unicode followed.from_ = .ok sender)
    (hlimit : WithinLimit hub followed) (hnew : ∀ row ∈ t.messages.rows, row.id ≠ followed.id) :
    ∃ sent t', hub.send message now t = (.ok sent, t') := by
  obtain ⟨thread, hthread, hjoin⟩ := threadSenderMayJoin_of_sender hub hsender t
  have hsize : ¬ (hub.maxMessageBytes ≠ 0 ∧
      hub.maxMessageBytes < hub.jsonBytes { followed with thread := thread }) := by
    rintro ⟨hcap, hlarge⟩
    refine absurd (hlimit thread ?_ hcap) (not_le.mpr hlarge)
    rcases hthread with rfl | rfl
    · simp
    · simp
  have hprepare : hub.prepare message now t =
      .ok ({ followed with thread := thread }, target) := by
    simp only [prepare, hfollow, hjoin, ok_bind, if_neg hsize, htarget]
    rfl
  cases hinsert : t.messages.insert (rowOf { followed with thread := thread } target) with
  | none =>
    obtain ⟨row, hrow, hid⟩ := (Table.insert_eq_none _ _).mp hinsert
    exact absurd hid (hnew row hrow)
  | some messages =>
    exact ⟨{ followed with thread := thread }, { t with messages := messages },
      by simp only [send, hprepare, hinsert]⟩

/-- What is not followed is not sent. -/
lemma send_follow_error {hub : Hub} {message : Message} {now : DateTime} {t : Tables} {e : Failure}
    (h : follow message now t = .error e) : hub.send message now t = (.error e, t) := by
  simp only [send, prepare, h, error_bind]

/-- What a sending that was sent on has stored. -/
lemma send_followed_ok {hub : Hub} {message followed sent : Message} {now : DateTime}
    {t t' : Tables} (hfollow : follow message now t = .ok followed)
    (hsend : hub.send message now t = (.ok sent, t')) :
    sent.to_ = followed.to_ ∧ sent.forwardedTo = followed.forwardedTo ∧
      ∃ row ∈ t'.messages.rows, row.id = followed.id ∧ row.to_ = followed.to_ := by
  obtain ⟨target, messages, hprepare, hinsert, rfl⟩ := send_ok hsend
  obtain ⟨_, followed', hfollowed, hjoin⟩ := prepare_ok hprepare
  rw [hfollow] at hfollowed
  cases hfollowed
  have hsent := threadSenderMayJoin_ok hjoin
  refine ⟨by rw [hsent], by rw [hsent], rowOf sent target, ?_, by rw [hsent]; rfl,
    by rw [hsent]; rfl⟩
  rw [(Table.insert_eq_some hinsert).2]
  simp

/-- The forward that a rename leaves, however often the agent is renamed since. -/
lemma forward_after_rename {hub : Hub} {t : Tables} {project agent to_ : String}
    {role : Option String} {clock : RenameClock} {old new_ : String} {n : ℕ}
    (hrename : (hub.step (.rename project agent to_ role clock) t).1 =
      .ok (.renamed old new_ n)) {left : Tables}
    (hleft : left = (hub.step (.rename project agent to_ role clock) t).2) {later : List Verb}
    (hstays : ∀ moved ∈ renamings hub left later, moved.1 ≠ old) :
    ∃ expires, clock.now.plusDays hub.renameGraceDays.toNat = some expires ∧
      (hub.after left later).forwards.find? old =
        some ⟨old, nameToday new_ (renamings hub left later), clock.now, expires⟩ := by
  rcases forwards_step hub (.rename project agent to_ role clock) t with
    ⟨hnone, _⟩ | ⟨_, _, _, _, clock', r, hverb, hchecked, hone, hmove⟩
  · rw [hrename] at hnone
    cases hnone
  rw [hrename] at hone
  cases hone
  cases hverb
  have hforward := find?_moveForwards r clock.now t r.old
  rw [← hmove, ← hleft, if_pos rfl] at hforward
  exact ⟨r.expires, hchecked.expires, find?_forwards_after later hforward hstays⟩

/-- Mail follows an agent. Once an agent has left an address, and until that address is left
again, a message sent to the very text of the address is stored for the agent's name of today
and says so, however often the agent has been renamed since; and it is stored, if its sender's
address can be parsed, it is within the limit under its new address, and its id is new. From
the day that was set when the address was left, it is refused, and the refusal names the name
of today. -/
theorem mail_follows (hub : Hub) (before later : List Verb) (project agent to_ : String)
    (role : Option String) (clock : RenameClock) (old new_ : String) (n : ℕ)
    (hrename : (hub.step (.rename project agent to_ role clock) (hub.after .empty before)).1 =
      .ok (.renamed old new_ n))
    (hstays : ∀ moved ∈ renamings hub
      (hub.after .empty (before ++ [.rename project agent to_ role clock])) later, moved.1 ≠ old)
    (message : Message) (haddressed : Text.strip message.to_ = old) (now : DateTime) :
    let left := hub.after .empty (before ++ [.rename project agent to_ role clock])
    let t := hub.after left later
    let today := nameToday new_ (renamings hub left later)
    ∃ expires, clock.now.plusDays hub.renameGraceDays.toNat = some expires ∧
      (expires.isoformat ≤ now.isoformat →
        hub.send message now t = (.error (.forwardEnded message.to_ today), t)) ∧
      (now.isoformat < expires.isoformat →
        (∀ sent t', hub.send message now t = (.ok sent, t') →
          sent.to_ = today ∧ sent.forwardedTo = some today ∧
            ∃ row ∈ t'.messages.rows, row.id = message.id ∧ row.to_ = today) ∧
        ((∃ sender, parseAddress hub.unicode message.from_ = .ok sender) →
          WithinLimit hub (forwarded message today) →
          (∀ row ∈ t.messages.rows, row.id ≠ message.id) →
            ∃ sent t', hub.send message now t = (.ok sent, t'))) := by
  intro left t today
  obtain ⟨expires, hexpires, hforward⟩ :=
    forward_after_rename hrename (after_append hub .empty before _) hstays
  have hparse : ForwardsParse hub t := by
    have hrun := forwardsParse_after hub
      ((before ++ [.rename project agent to_ role clock]) ++ later)
    rwa [after_append] at hrun
  obtain ⟨target, htarget⟩ := hparse _ ((Table.find?_eq_some _ _ _).mp hforward).1
  rw [← haddressed] at hforward
  have hfollow := follow_forward hforward now
  refine ⟨expires, hexpires, fun hexpired => ?_, fun hvalid => ?_⟩
  · rw [if_pos hexpired] at hfollow
    exact send_follow_error hfollow
  · rw [if_neg (not_le.mpr hvalid)] at hfollow
    refine ⟨fun sent t' hsend => send_followed_ok hfollow hsend, ?_⟩
    rintro ⟨sender, hsender⟩ hlimit hnew
    exact send_followed hfollow htarget hsender hlimit hnew

/-- Two renames later, the letter finds its way. -/
theorem letter_follows_alice : ∃ sent t', plainHub.send letterToAlice (january 10)
      (plainHub.after (plainHub.after .empty [renameOn 2 "alice" "p/alicia"])
        [renameOn 3 "alicia" "p/allie"]) = (.ok sent, t') ∧
    sent.to_ = "p/allie" ∧ sent.forwardedTo = some "p/allie" ∧
      ∃ row ∈ t'.messages.rows, row.id = "m1" ∧ row.to_ = "p/allie" := by
  have htoday : nameToday "p/alicia" (renamings plainHub
      (plainHub.after .empty [renameOn 2 "alice" "p/alicia"])
      [renameOn 3 "alicia" "p/allie"]) = "p/allie" := by decide +kernel
  have hmail := mail_follows plainHub [] [renameOn 3 "alicia" "p/allie"] "p" "alice" "p/alicia"
    none ⟨january 2, january 2, january 2⟩ "p/alice" "p/alicia" 0 (by decide +kernel)
    (by decide +kernel) letterToAlice (by decide +kernel) (january 10)
  rw [List.nil_append] at hmail
  change nameToday "p/alicia" (renamings plainHub
    (plainHub.after .empty [.rename "p" "alice" "p/alicia" none _]) _) = "p/allie" at htoday
  dsimp only at hmail
  rw [htoday] at hmail
  obtain ⟨expires, hexpires, _, hfollows⟩ := hmail
  have hvalid : (january 10).isoformat < expires.isoformat := by
    have hmonth : ((january 2).plusDays 30).all
        fun day => (january 10).isoformat < day.isoformat := by decide +kernel
    rw [show (january 2).plusDays 30 = some expires from hexpires, Option.all_some,
      decide_eq_true_eq] at hmonth
    exact hmonth
  obtain ⟨hstored, hsends⟩ := hfollows hvalid
  obtain ⟨sent, t', hsend⟩ := hsends ⟨⟨some "p", some "bob", none⟩, by decide +kernel⟩
    (by decide +kernel) (by decide +kernel)
  exact ⟨sent, t', hsend, hstored sent t' hsend⟩

/-! ## One hop -/

/-- A rename is not to a name that has itself been left. -/
def TakesFreshName (hub : Hub) (verb : Verb) (t : Tables) : Prop :=
  ∀ moved ∈ movedBy (hub.step verb t).1, t.forwardOf moved.2 = none

/-- A chain of renames stays one hop, in every state of a run, exactly as long as no agent is
renamed to a name that another has left: whoever takes such a name is sent no mail under it,
since the forward leads on. -/
theorem one_hop_iff (hub : Hub) (verbs : List Verb) :
    (∀ n, OneHop (hub.after .empty (verbs.take n)).forwardOf) ↔
      Throughout hub (TakesFreshName hub) .empty verbs := by
  refine along_iff (I := fun t => OneHop t.forwardOf) (fun verb t h => ?_) ?_ verbs
  · rcases forwards_step hub verb t with ⟨hnone, hsame⟩ |
      ⟨_, _, _, _, clock, r, _, hchecked, hone, hmove⟩
    · have hforward : (hub.step verb t).2.forwardOf = t.forwardOf := by
        funext address
        simp only [Tables.forwardOf, hsame]
      rw [hforward]
      simp [TakesFreshName, hnone, h]
    · rw [forwardOf_of_moveForwards hmove, h.redirect_iff hchecked.moves]
      simp [TakesFreshName, hone]
  · intro x y hxy
    simp [Tables.forwardOf, Tables.empty, Table.find?] at hxy

/-- Mail to an address that was left is never stored for that address. -/
theorem left_address_gets_no_mail (hub : Hub) (verbs : List Verb) (message sent : Message)
    (now : DateTime) (t' : Tables)
    (hleft : (hub.after .empty verbs).forwardOf (Text.strip message.to_) ≠ none)
    (h : hub.send message now (hub.after .empty verbs) = (.ok sent, t')) :
    sent.to_ ≠ Text.strip message.to_ := by
  obtain ⟨target, messages, hprepare, _, _⟩ := send_ok h
  obtain ⟨_, followed, hfollowed, hjoin⟩ := prepare_ok hprepare
  obtain ⟨next, hnext⟩ := Option.ne_none_iff_exists'.mp hleft
  obtain ⟨row, hrow, hrownext⟩ := Option.map_eq_some_iff.mp hnext
  rw [follow_forward hrow now] at hfollowed
  split_ifs at hfollowed
  cases hfollowed
  have hto : sent.to_ = next := by rw [threadSenderMayJoin_ok hjoin, ← hrownext]
  rw [hto]
  rintro rfl
  exact (ranked_after hub verbs).not_leadsTo_self _ (.single hnext)

end Hub

end AgentMailbox.Old
