import AgentMailbox.Sending
import AgentMailbox.Availability

/-!
# Addressing a declared group

A profile's groups are kept as they were written, and an address is trimmed, cut at its
`@` and lower-cased before it is looked up among them. So a group can be addressed by the
text it was declared with when that text, read as an address, is a group of the same
actor again.
-/
namespace AgentMailbox

/-- The group is in the list of an actor's profile, and is not everyone. -/
structure DeclaredGroup (s : InMemoryStore) (actor : ActorRecord) (groups : List String)
    (group : String) : Prop where
  joined : s.actors.lookup actor.name = some actor
  listed : actor.profile.lookup "groups" = some (Json.strings groups)
  nonempty : ∀ other ∈ groups, other ≠ ""
  mem : group ∈ groups
  not_everyone : group ≠ everyone

/-- Somebody is a group of that name, or declares one. -/
def Grouped (u : Unicode) (s : InMemoryStore) (name : String) : Prop :=
  ∃ key other, s.actors.lookup key = some other ∧
    ((other.isGroup = true ∧ name = other.name) ∨ Declares u other name)

/-- What is addressed to the name comes to the actor too: it is a group of the actor's, or
the actor's own name and no group's. -/
def MailReaches (u : Unicode) (s : InMemoryStore) (actor : ActorRecord) (groups : List String)
    (name : String) : Prop :=
  name = everyone ∨ name ∈ groups ∨ (name = actor.name ∧ ¬ Grouped u s name)

lemma declaredGroups_strings {u : Unicode} {profile : JsonObject} {groups : List String}
    (h : profile.lookup "groups" = some (Json.strings groups)) :
    declaredGroups u profile = .ok groups := by
  unfold declaredGroups
  rw [h]
  cases groups with
  | nil => rfl
  | cons group groups =>
    have hall : ((group :: groups).map Json.str).all Json.hasText = true := by
      simp [Json.hasText]
    have hmap : (group :: groups).map (Json.shown u ∘ Json.str) = group :: groups := by
      simp [Function.comp_def, Json.shown]
    simp only [Json.strings, Json.truthy, Json.iter, Json.mapM_toStr, hall, if_true, List.map_map,
      hmap]
    simp

section
variable {mb : Mailbox} {s : InMemoryStore} {actor : ActorRecord} {groups : List String}
  {group : String}

lemma DeclaredGroup.declares_iff (h : DeclaredGroup s actor groups group) (u : Unicode)
    (name : String) : Declares u actor name ↔ name ∈ groups := by
  simp [DeclaredIn, declaredGroups_strings h.listed]

/-- The keys of the memberships are the groups of the directory. -/
lemma mem_memberships_iff {ctx : Context} (hctx : mb.contextIn s = .ok ctx) (name : String) :
    name ∈ ctx.memberships ↔ Grouped mb.unicode s name := by
  rw [mem_groupMemberships ((mb.contextIn_ok_iff s ctx).mp hctx).2]
  simp only [Grouped, Dict.mem_values]
  constructor
  · rintro (⟨other, ⟨key, hkey⟩, hgroup⟩ | ⟨other, ⟨key, hkey⟩, hdeclares⟩)
    · exact ⟨key, other, hkey, Or.inl hgroup⟩
    · exact ⟨key, other, hkey, Or.inr hdeclares⟩
  · rintro ⟨key, other, hkey, hgroup | hdeclares⟩
    · exact Or.inl ⟨other, ⟨key, hkey⟩, hgroup⟩
    · exact Or.inr ⟨other, ⟨key, hkey⟩, hdeclares⟩

lemma DeclaredGroup.mem_membersOf_iff (h : DeclaredGroup s actor groups group) {ctx : Context}
    (hctx : mb.contextIn s = .ok ctx) (name : String) :
    actor.name ∈ membersOf ctx.memberships name ↔ name ∈ groups := by
  rw [mem_membersOf ((mb.contextIn_ok_iff s ctx).mp hctx).2, ← h.declares_iff mb.unicode]
  constructor
  · rintro ⟨other, hother, heq, hdeclares⟩
    obtain ⟨key, hkey⟩ := (Dict.mem_values _ _).mp hother
    have hname := s.actor_key key other hkey
    rw [← hname, ← heq, h.joined, Option.some.injEq] at hkey
    exact hkey ▸ hdeclares
  · exact fun hdeclares =>
      ⟨actor, (Dict.mem_values _ _).mpr ⟨actor.name, h.joined⟩, rfl, hdeclares⟩

/-- Whom a name resolves to, for an actor that lists its groups as strings. -/
lemma DeclaredGroup.mem_expand_iff (h : DeclaredGroup s actor groups group) {ctx : Context}
    (hctx : mb.contextIn s = .ok ctx) (name : String) :
    actor.name ∈ expand ctx name ↔ MailReaches mb.unicode s actor groups name := by
  have hlisted : actor.name ∈ ctx.allActors := by
    rw [((mb.contextIn_ok_iff s ctx).mp hctx).1, s.mem_actorNames]
    exact (Dict.mem_iff_lookup _ _).mpr ⟨actor, h.joined⟩
  have hgrouped := mem_memberships_iff hctx name
  have hmember := h.mem_membersOf_iff hctx name
  unfold expand MailReaches
  by_cases heveryone : name = everyone
  · simp [heveryone, hlisted]
  · simp only [heveryone, if_false, false_or]
    by_cases hgroup : name ∈ ctx.memberships
    · obtain ⟨members, hlookup⟩ := (Dict.mem_iff_lookup _ _).mp hgroup
      have hmembers' : membersOf ctx.memberships name = members := by simp [membersOf, hlookup]
      simp only [hlookup, ← hmembers', hmember, hgrouped.mp hgroup, not_true, and_false, or_false]
    · have hnot : name ∉ groups := by
        intro hmem
        exact hgroup (hgrouped.mpr ⟨actor.name, actor, h.joined,
          Or.inr ((h.declares_iff mb.unicode name).mpr hmem)⟩)
      simp only [AList.lookup_eq_none.mpr hgroup, hnot, mt hgrouped.mpr hgroup, not_false_eq_true,
        and_true, false_or]
      split_ifs with hactor
      · rw [Finset.mem_singleton, eq_comm]
      · constructor
        · exact fun hmem => absurd hmem (Finset.notMem_empty _)
        · rintro rfl
          exact absurd hlisted hactor

/-- A name that comes to somebody is nobody's mistake. -/
lemma not_missing {ctx : Context} {name n : String} (h : n ∈ expand ctx name) :
    Mailbox.missingNames ([name] ++ []) ctx = [] := by
  have hknown : name ∈ ctx.allActors ∨ name ∈ ctx.memberships ∨ name = everyone := by
    by_contra hnot
    push Not at hnot
    obtain ⟨hactor, hgroup, heveryone⟩ := hnot
    simp [expand, heveryone, AList.lookup_eq_none.mpr hgroup, hactor] at h
  have hfound : (name ∈ ctx.allActors || name ∈ ctx.memberships || name = everyone : Bool) =
      true := by
    simpa only [Bool.or_eq_true, decide_eq_true_eq, or_assoc] using hknown
  simp only [Mailbox.missingNames, List.append_nil, List.filter_cons, hfound, Bool.not_true,
    Bool.false_eq_true, if_false, List.filter_nil]

/-- A sending to one text alone, and to whom it comes. -/
lemma sendIn_one_iff {caller me : String} (hme : mb.AddressOf caller me) (hjoined : me ∈ s.actors)
    (text body : String) (stamp : Stamp) (n : String) (hother : me ≠ n) :
    (∃ obj, mb.sendIn s caller { to_ := .one text, body } stamp = .ok obj ∧ n ∈ obj.to_) ↔
      ∃ ctx name, mb.contextIn s = .ok ctx ∧ mb.local_ text = .ok name ∧ n ∈ expand ctx name := by
  have hcopies : mb.localAll [] = .ok [] := rfl
  have hone : ∀ names, mb.localAll [text] = .ok names ↔
      ∃ name, mb.local_ text = .ok name ∧ names = [name] := by
    intro names
    cases hname : mb.local_ text with
    | error e => simp [Mailbox.localAll, hname]
    | ok name => simp [Mailbox.localAll, hname, eq_comm]
  constructor
  · rintro ⟨obj, hobj, hn⟩
    obtain ⟨actor, recipients, copies, ctx, hactor, hto, hcc, hctx, -, rfl⟩ :=
      (mb.sendIn_ok_iff s caller _ stamp obj).mp hobj
    obtain ⟨name, hname, rfl⟩ := (hone recipients).mp hto
    obtain rfl := Except.ok.inj (hcc.symm.trans hcopies)
    refine ⟨ctx, name, hctx, hname, ?_⟩
    have hreached := ((mem_compose ctx actor.name [name] [] _ _ stamp n).mp (Or.inl hn)).1
    simpa [mem_resolveAudience] using hreached
  · rintro ⟨ctx, name, hctx, hname, hn⟩
    have hlocal := (mb.local_ok_iff caller me).mpr hme
    obtain ⟨actor, hactor⟩ := (Dict.mem_iff_lookup _ _).mp hjoined
    have hme' := s.actor_key me actor hactor
    subst hme'
    have hin := (mb.actorIn_ok_iff s caller actor).mpr ⟨hlocal, hactor⟩
    refine ⟨_, (mb.sendIn_ok_iff s caller _ stamp _).mpr ⟨actor, [name], [], ctx, hin,
      (hone _).mpr ⟨name, hname, rfl⟩, hcopies, hctx, not_missing hn, rfl⟩, ?_⟩
    simp only [Mailbox.compose, Sorting.mem_sorted, Finset.mem_sdiff, Finset.mem_singleton,
      mem_resolveAudience, List.mem_singleton, exists_eq_left]
    exact ⟨hn, fun heq => hother heq.symm⟩

end

/-- A group an actor declares can be addressed by every other actor, and its mail comes to
the actor, exactly when no profile keeps the context from being built and the text of the
group, read as an address, is a name whose mail comes to the actor. -/
theorem group_addressable_iff (mb : Mailbox) (s : InMemoryStore) {actor : ActorRecord}
    {groups : List String} {group : String} (h : DeclaredGroup s actor groups group)
    {caller me : String} (hme : mb.AddressOf caller me) (hjoined : me ∈ s.actors)
    (hother : me ≠ actor.name) (body : String) (stamp : Stamp) :
    (∃ obj, (Operation.send caller { to_ := .one group, body } stamp).step mb s =
        (.ok (.message obj), s.addObject obj) ∧ actor.name ∈ obj.to_) ↔
      AllUsable s ∧ ∃ name, ReadAs mb.unicode mb.hubName group name ∧
        MailReaches mb.unicode s actor groups name := by
  have hsend : ∀ obj, (Operation.send caller { to_ := .one group, body } stamp).step mb s =
      (.ok (.message obj), s.addObject obj) ↔
        mb.sendIn s caller { to_ := .one group, body } stamp = .ok obj := by
    intro obj
    rw [Operation.step_send]
    cases mb.sendIn s caller { to_ := .one group, body } stamp with
    | error e => simp [Except.map]
    | ok sent =>
      simp only [Except.map, Prod.mk.injEq, Except.ok.injEq, Result.message.injEq]
      exact ⟨fun heq => heq.1, fun heq => ⟨heq, by rw [heq]⟩⟩
  simp only [hsend]
  rw [sendIn_one_iff hme hjoined group body stamp actor.name hother,
    ← contextIn_ok_iff_usable mb s]
  constructor
  · rintro ⟨ctx, name, hctx, hname, hn⟩
    exact ⟨⟨ctx, hctx⟩, name, (localName_iff _ _ _ _).mp hname, (h.mem_expand_iff hctx name).mp hn⟩
  · rintro ⟨⟨ctx, hctx⟩, name, hname, hcomes⟩
    exact ⟨ctx, name, hctx, (localName_iff _ _ _ _).mpr hname,
      (h.mem_expand_iff hctx name).mpr hcomes⟩

/-- The profile with which bob declares a group. -/
def bobDeclaring (group : String) : ActorRecord :=
  { Mailbox.newActor "bob" (january 1) with
    profile := Dict.ofList [("groups", Json.strings [group])]
    lastSeen := (january 2).isoformat }

/-- Mail to the group of the tools comes to bob. -/
theorem tools_addressable : ∃ obj,
    (Operation.send "alice" { to_ := .one "tools", body := "hi" } ⟨"m1", january 3⟩).step
        asciiMailbox bobInTools = (.ok (.message obj), bobInTools.addObject obj) ∧
      (bobDeclaring "tools").name ∈ obj.to_ := by
  have hdeclared : DeclaredGroup bobInTools (bobDeclaring "tools") ["tools"] "tools" :=
    ⟨by decide +kernel, by decide +kernel, by decide, by decide, by decide⟩
  have halice : asciiMailbox.AddressOf "alice" "alice" :=
    (asciiMailbox.local_ok_iff "alice" "alice").mp (by decide +kernel)
  refine (group_addressable_iff asciiMailbox bobInTools hdeclared halice (by decide +kernel)
    (by decide) "hi" ⟨"m1", january 3⟩).mpr ⟨bobInTools_listsGroups.usable, "tools", ?_, ?_⟩
  · exact Or.inl ⟨by decide, by decide, by decide⟩
  · exact Or.inr (Or.inl (by decide))

/-- Where bob has declared a group in capitals. -/
def bobInCapitals : InMemoryStore :=
  after asciiMailbox .empty (bobDeclares (Json.strings ["Tools"]))

/-- Bob's group is declared as `Tools`, and nobody can write to `Tools`. -/
theorem capitals_unaddressable :
    Throughout asciiMailbox Operation.Admissible .empty (bobDeclares (Json.strings ["Tools"])) ∧
      DeclaredGroup bobInCapitals (bobDeclaring "Tools") ["Tools"] "Tools" ∧
      (Operation.send "alice" { to_ := .one "Tools", body := "hi" } ⟨"m1", january 3⟩).step
        asciiMailbox bobInCapitals =
          (.error (.mailbox (.unknownRecipient ["tools"])), bobInCapitals) := by
  refine ⟨by decide +kernel, ?_, ?_⟩
  · exact ⟨by decide +kernel, by decide +kernel, by decide, by decide, by decide⟩
  · have hrefused : asciiMailbox.sendIn bobInCapitals "alice" { to_ := .one "Tools", body := "hi" }
        ⟨"m1", january 3⟩ = .error (.mailbox (.unknownRecipient ["tools"])) := by decide +kernel
    rw [Operation.step_send, hrefused]
    rfl

end AgentMailbox
