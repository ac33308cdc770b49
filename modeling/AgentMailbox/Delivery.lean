import AgentMailbox.HouseRuns
import AgentMailbox.Parties

/-!
# Mail to one actor

Mail addressed to one actor's own name reaches that actor and nobody else, unless
the name is also the name of a group that somebody else has declared: the group
then takes the mail.
-/
namespace AgentMailbox

/-- The actors declaring a group called `n` do not stand between `sender` and `n`. -/
def NotCaptured (u : Unicode) (s : InMemoryStore) (n sender : String) : Prop :=
  (∀ actor ∈ s.actors.values, ¬ Declares u actor n) ∨
    ((∃ actor ∈ s.actors.values, actor.name = n ∧ Declares u actor n) ∧
      ∀ actor ∈ s.actors.values, Declares u actor n → actor.name = n ∨ actor.name = sender)

instance (u : Unicode) (s : InMemoryStore) (n sender : String) :
    Decidable (NotCaptured u s n sender) := inferInstanceAs (Decidable (_ ∨ _))

/-- The message is stored for `n` alone, waits for `n`, and waits for nobody else. -/
structure ReachesOnly {μ : Type} (house : House μ) (s : HouseState μ) (obj : ObjectRecord)
    (n : String) : Prop where
  stored : s.store.objects.lookup obj.id = some obj ∧ obj.to_ = [n]
  waiting : ∀ reader ∈ s.store.actors, ∃ waiting,
    (house.step (.peek reader) s).1 = .ok (.messages waiting) ∧ (obj ∈ waiting ↔ reader = n)

/-- Not being captured says that the name resolves, the sender apart, to its owner. -/
lemma expand_eq_iff_notCaptured {mb : Mailbox} {s : InMemoryStore} (h : Consistent s)
    {ctx : Context} (hctx : mb.contextIn s = .ok ctx) {n sender : String} (hn : n ∈ s.actors)
    (hother : n ≠ sender) :
    expand ctx n \ {sender} = {n} ↔ NotCaptured mb.unicode s n sender := by
  have hexpand := mem_expand_actor h hctx hn
  constructor
  · intro heq
    have hmem : ∀ x, (x ∈ expand ctx n ∧ x ≠ sender) ↔ x = n := by
      intro x
      rw [← Finset.mem_singleton, ← heq]
      simp
    rcases (hexpand n).mp ((hmem n).mpr rfl).1 with hself | ⟨_, hnobody⟩
    · refine Or.inr ⟨hself, fun actor hactor hdeclares => ?_⟩
      by_cases hsender : actor.name = sender
      · exact Or.inr hsender
      · have hin := (hexpand actor.name).mpr (Or.inl ⟨actor, hactor, rfl, hdeclares⟩)
        exact Or.inl ((hmem actor.name).mp ⟨hin, hsender⟩)
    · exact Or.inl hnobody
  · intro hcaptured
    ext x
    simp only [Finset.mem_sdiff, Finset.mem_singleton, hexpand]
    rcases hcaptured with hnobody | ⟨hself, honly⟩
    · constructor
      · rintro ⟨⟨actor, hactor, _, hdeclares⟩ | ⟨hx, _⟩, _⟩
        · exact absurd hdeclares (hnobody actor hactor)
        · exact hx
      · rintro rfl
        exact ⟨Or.inr ⟨rfl, hnobody⟩, hother⟩
    · constructor
      · rintro ⟨⟨actor, hactor, rfl, hdeclares⟩ | ⟨hx, _⟩, hsender⟩
        · exact (honly actor hactor hdeclares).resolve_right hsender
        · exact hx
      · rintro rfl
        exact ⟨Or.inl hself, hother⟩

lemma resolveAudience_of_forall {ctx : Context} {names : List String} {n : String}
    (hne : names ≠ []) (hall : ∀ name ∈ names, name = n) :
    resolveAudience ctx names = expand ctx n := by
  ext x
  rw [mem_resolveAudience]
  constructor
  · rintro ⟨name, hname, hx⟩
    rwa [hall name hname] at hx
  · intro hx
    obtain ⟨name, hname⟩ := List.exists_mem_of_ne_nil names hne
    exact ⟨name, hname, by rwa [hall name hname]⟩

/-- Addresses that all resolve to one name. -/
lemma localAll_of_forall {mb : Mailbox} {texts names : List String} {n : String}
    (htexts : ∀ text ∈ texts, mb.local_ text = .ok n) (h : mb.localAll texts = .ok names) :
    names.length = texts.length ∧ ∀ name ∈ names, name = n := by
  unfold Mailbox.localAll at h
  induction texts generalizing names with
  | nil =>
    cases h
    simp
  | cons text texts ih =>
    rw [List.mapM_cons, htexts text (List.mem_cons_self), ok_bind] at h
    cases hrest : texts.mapM mb.local_ with
    | error e => simp [hrest] at h
    | ok rest =>
      simp only [hrest, ok_bind, except_pure, Except.ok.injEq] at h
      obtain ⟨hlength, hnames⟩ := ih (fun text ht => htexts text (List.mem_cons_of_mem _ ht)) hrest
      subst h
      exact ⟨by simp [hlength], by simpa using hnames⟩

/-- What a sending to one name stores, and when it stores the name itself. -/
lemma sent_to_one {mb : Mailbox} {s : InMemoryStore} (h : Consistent s) {caller : String}
    {draft : Draft} {stamp : Stamp} {obj : ObjectRecord} {n : String} (hn : n ∈ s.actors)
    (htexts : ∀ text ∈ draft.to_.toList, mb.local_ text = .ok n) (hto : draft.to_.toList ≠ [])
    (hcc : draft.cc = []) (hother : mb.local_ caller ≠ .ok n)
    (hsent : mb.sendIn s caller draft stamp = .ok obj) :
    ∃ ctx, mb.contextIn s = .ok ctx ∧
      obj.to_ = Sorting.sorted (expand ctx n \ {obj.attributedTo}) ∧ obj.cc = [] ∧
      (expand ctx n \ {obj.attributedTo} = {n} ↔
        NotCaptured mb.unicode s n obj.attributedTo) := by
  obtain ⟨actor, recipients, copies, ctx, hactor, hrecipients, hcopies, hctx, _, rfl⟩ :=
    (mb.sendIn_ok_iff s caller draft stamp obj).mp hsent
  obtain ⟨hlength, hnames⟩ := localAll_of_forall htexts hrecipients
  have hne : recipients ≠ [] := by
    intro hnil
    rw [hnil, List.length_nil, eq_comm, List.length_eq_zero_iff] at hlength
    exact hto hlength
  have hnone : copies = [] := by
    rw [hcc] at hcopies
    exact (Except.ok.inj hcopies).symm
  have hsender : n ≠ actor.name := by
    rintro rfl
    exact hother ((mb.actorIn_ok_iff s caller actor).mp hactor).1
  refine ⟨ctx, hctx, ?_, ?_, expand_eq_iff_notCaptured h hctx hn hsender⟩
  · simp only [Mailbox.compose, resolveAudience_of_forall hne hnames]
  · rw [hnone]
    simp only [Mailbox.compose, resolveAudience, List.foldl_nil, Finset.empty_sdiff]
    rfl

/-- A message stored for one name waits exactly for that name. -/
lemma waiting_for_one {mb : Mailbox} {s : InMemoryStore} (h : Consistent s) {ctx : Context}
    (hctx : mb.contextIn s = .ok ctx) {obj : ObjectRecord} {n : String}
    (hfresh : obj.id ∉ s.objects) (hto : obj.to_ = [n]) (hcc : obj.cc = [])
    (hexpand : expand ctx n \ {obj.attributedTo} = {n}) {reader : String}
    (hreader : reader ∈ s.actors) :
    ∃ waiting, mb.unreadIn (s.addObject obj) reader = .ok waiting ∧
      (obj ∈ waiting ↔ reader = n) := by
  have husable := h.usable reader hreader
  obtain ⟨actor, hactor⟩ := (Dict.mem_iff_lookup _ _).mp hreader
  have hname := s.actor_key reader actor hactor
  have hfound : mb.actorIn (s.addObject obj) reader = .ok actor := by
    refine (mb.actorIn_ok_iff _ reader actor).mpr ⟨?_, by rw [hname]; exact hactor⟩
    rw [hname]
    exact localName_plain mb.unicode husable.plain husable.nonempty mb.hubName
  have hctx' : mb.contextIn (s.addObject obj) = .ok ctx := hctx
  have hunread : (s.addObject obj).readBy obj.id reader = none := by
    have hnone : s.reads.lookup obj.id = none :=
      AList.lookup_eq_none.mpr fun hmem => hfresh (h.reads obj.id hmem)
    simp [InMemoryStore.readBy, hnone]
  have hlisted : obj ∈ (s.addObject obj).objectList := by
    rw [InMemoryStore.mem_objectList]
    simp
  have hdelivers : deliversTo ctx obj reader = true ↔ reader = n := by
    simp only [deliversTo, decide_eq_true_eq, mem_recipientsOf, hto, hcc]
    rw [← Finset.mem_singleton, ← hexpand]
    simp
  rw [Mailbox.unreadIn, hfound, ok_bind, hctx']
  refine ⟨_, rfl, ?_⟩
  simp only [unread, List.mem_filter, hlisted, true_and, Bool.and_eq_true, decide_eq_true_eq,
    Mailbox.mem_readIds, hname, hunread, hdelivers]
  simp

/-- A successful sending to one actor, by another, reaches exactly that actor if and only
if its name is not captured by a group. -/
theorem reaches_only_iff_not_captured {μ : Type} (house : House μ) (horderly : house.Orderly)
    (s s' : HouseState μ) (hopened : house.Opened s) (n caller : String) (draft : Draft)
    (stamp : Stamp) (obj : ObjectRecord) (hn : n ∈ s.store.actors)
    (htexts : ∀ text ∈ draft.to_.toList, house.mailbox.local_ text = .ok n)
    (hto : draft.to_.toList ≠ []) (hcc : draft.cc = [])
    (hother : house.mailbox.local_ caller ≠ .ok n) (hfresh : stamp.id ∉ s.store.objects)
    (hsent : house.step (.send caller draft stamp) s = (.ok (.message obj), s')) :
    ReachesOnly house s' obj n ↔
      NotCaptured house.mailbox.unicode s.store n obj.attributedTo := by
  have hconsistent := (hopened.reachable horderly).consistent
  obtain ⟨hobj, hstore⟩ := House.step_send_ok hsent
  obtain ⟨ctx, hctx, hstored, hnone, hiff⟩ :=
    sent_to_one hconsistent hn htexts hto hcc hother hobj
  rw [← hiff]
  constructor
  · intro hreaches
    have hsorted := hreaches.stored.2
    rw [hstored] at hsorted
    have hset := Sorting.toFinset_sorted (expand ctx n \ {obj.attributedTo})
    rw [hsorted] at hset
    exact hset.symm
  · intro hexpand
    have hone : obj.to_ = [n] := by
      rw [hstored, hexpand]
      rfl
    refine ⟨⟨by rw [hstore]; simp, hone⟩, fun reader hreader => ?_⟩
    have hid : obj.id ∉ s.store.objects := by
      rw [(house.mailbox.sendIn_spec hobj).id_eq]
      exact hfresh
    rw [hstore] at hreader
    obtain ⟨waiting, hunread, hwaiting⟩ :=
      waiting_for_one hconsistent hctx hid hone hnone hexpand hreader
    refine ⟨waiting, ?_, hwaiting⟩
    rw [House.step_peek, hstore, hunread]
    rfl

/-- A house with the default policies. -/
def defaultHouse : House Observations := ⟨asciiMailbox, defaultPolicies asciiUnicode⟩

/-- Opened on an empty store; two actors join, and the second declares a group. -/
def houseWhereBobDeclares (group : String) : HouseState Observations :=
  let opened := ((defaultHouse.open_ fun _ => january 1).run House.handle ⟨.empty, {}⟩).2
  let declared : Operation :=
    .updateProfile "bob" (Dict.ofList [("groups", Json.strings [group])]) (january 2)
  [joinAs "alice", joinAs "bob", declared].foldl (fun s op => (defaultHouse.step op s).2) opened

lemma houseWhereBobDeclares_opened (group : String) :
    defaultHouse.Opened (houseWhereBobDeclares group) :=
  .step _ (.step _ (.step _ (.first _ _ _ .empty) trivial) trivial) trivial

/-- A report to the drop box. -/
def reportToAdmin : Operation :=
  .send "alice" { to_ := .one "admin", body := "broken" } ⟨"m1", january 3⟩

/-- The record of the report, stored for `reader`. -/
def reportFor (reader : String) : ObjectRecord where
  id := "m1"
  attributedTo := "alice"
  to_ := [reader]
  content := "broken"
  published := (january 3).isoformat
  document := Mailbox.documentOf ["admin"] none

/-- A group of another name leaves the report on its way. -/
theorem report_reaches_admin :
    ReachesOnly defaultHouse (defaultHouse.step reportToAdmin (houseWhereBobDeclares "tools")).2
      (reportFor "admin") "admin" := by
  have horderly : defaultHouse.Orderly := by
    intro policy hpolicy
    simp only [defaultHouse, defaultPolicies, List.mem_cons, List.not_mem_nil, or_false] at hpolicy
    rcases hpolicy with rfl | rfl | rfl
    · exact Or.inl rfl
    · exact Or.inr rfl
    · exact Or.inr rfl
  have hsent : (defaultHouse.step reportToAdmin (houseWhereBobDeclares "tools")).1 =
      .ok (.message (reportFor "admin")) := by decide +kernel
  refine (reaches_only_iff_not_captured defaultHouse horderly (houseWhereBobDeclares "tools") _
    (houseWhereBobDeclares_opened "tools") "admin" "alice" { to_ := .one "admin", body := "broken" }
    ⟨"m1", january 3⟩ (reportFor "admin") (by decide +kernel) (by decide +kernel)
    (by decide +kernel) rfl (by decide +kernel) (by decide +kernel)
    (Prod.ext hsent rfl)).mpr ?_
  decide +kernel

/-- Declaring a group called `admin` takes the report away from the drop box. -/
theorem report_to_admin_diverted :
    defaultHouse.Opened (houseWhereBobDeclares "admin") ∧
      (defaultHouse.step reportToAdmin (houseWhereBobDeclares "admin")).1 =
        .ok (.message (reportFor "bob")) ∧
      (defaultHouse.step (.peek "admin")
        (defaultHouse.step reportToAdmin (houseWhereBobDeclares "admin")).2).1 =
        .ok (.messages []) ∧
      (defaultHouse.step (.peek "bob")
        (defaultHouse.step reportToAdmin (houseWhereBobDeclares "admin")).2).1 =
        .ok (.messages [reportFor "bob"]) := by
  refine ⟨houseWhereBobDeclares_opened "admin", ?_, ?_, ?_⟩ <;> decide +kernel

end AgentMailbox
