import AgentMailbox.Rules

/-!
# Who is in which group

`groupMemberships` folds over all profiles. What it computes is a relation: a name
belongs to a group when some actor of that name declares it. It fails exactly when
some actor declares something that cannot be listed as strings.
-/
namespace AgentMailbox

/-- The members recorded for a group, none when it is not a key. -/
def membersOf (members : Dict String (Finset String)) (group : String) : Finset String :=
  (members.lookup group).getD ∅

/-- The profile names the group. -/
def DeclaredIn (u : Unicode) (profile : JsonObject) (group : String) : Prop :=
  ∃ groups, declaredGroups u profile = .ok groups ∧ group ∈ groups

instance (u : Unicode) (profile : JsonObject) (group : String) :
    Decidable (DeclaredIn u profile group) :=
  match h : declaredGroups u profile with
  | .ok groups => decidable_of_iff (group ∈ groups) (by simp [DeclaredIn, h])
  | .error e => isFalse (by simp [DeclaredIn, h])

/-- The actor declares the group. -/
abbrev Declares (u : Unicode) (actor : ActorRecord) (group : String) : Prop :=
  DeclaredIn u actor.profile group

/-- The actor's groups can be listed. -/
def Listable (u : Unicode) (actor : ActorRecord) : Prop :=
  ∃ groups, declaredGroups u actor.profile = .ok groups

/-- What a profile carries under `groups` can be listed as strings, or is ignored. -/
def usableGroups (profile : JsonObject) : Bool :=
  match profile.lookup "groups" with
  | none => true
  | some v => !v.truthy || v.listable

/-- The error of iterating over a value of this type. -/
abbrev notIterable (type : String) : Raised :=
  .typeError ("'" ++ type ++ "' object is not iterable")

/-- What is raised over a profile whose groups cannot be listed: they cannot be iterated over,
or one of them is, or holds, an integer of too many digits to be written. -/
def complaint (profile : JsonObject) : Option Raised :=
  match profile.lookup "groups" with
  | none => none
  | some v =>
    if !v.truthy || v.listable then none
    else if v.iterable then some Json.tooManyDigits
    else some (notIterable v.typeName)

theorem complaint_eq_none (profile : JsonObject) :
    complaint profile = none ↔ usableGroups profile = true := by
  unfold complaint usableGroups
  cases profile.lookup "groups" with
  | none => simp
  | some v =>
    dsimp only
    split_ifs with husable hiter
    · exact iff_of_true rfl husable
    · exact iff_of_false id husable
    · exact iff_of_false id husable

/-- The groups are listed, or there is a complaint. -/
theorem declaredGroups_complaint (u : Unicode) (profile : JsonObject) :
    (∃ groups, declaredGroups u profile = .ok groups ∧ complaint profile = none) ∨
      ∃ e, complaint profile = some e ∧ declaredGroups u profile = .error e := by
  unfold declaredGroups complaint
  cases profile.lookup "groups" with
  | none => exact Or.inl ⟨[], rfl, rfl⟩
  | some v =>
    cases htruthy : v.truthy with
    | false => simp [htruthy]
    | true =>
      cases hiter : v.iterable with
      | false =>
        have hlist : v.listable = false := by
          rw [Bool.eq_false_iff]
          exact fun hlist => Bool.eq_false_iff.mp hiter (Json.listable_iterable hlist)
        simp [htruthy, hiter, hlist, Json.iter_error v hiter]
      | true =>
        obtain ⟨items, hitems⟩ := (Json.iter_ok_iff v).mpr hiter
        have hlist : v.listable = items.all Json.hasText := by rw [Json.listable, hitems]
        cases hall : items.all Json.hasText <;>
          simp [htruthy, hiter, hitems, hlist, hall, Json.mapM_toStr]

theorem listable_iff (u : Unicode) (actor : ActorRecord) :
    Listable u actor ↔ usableGroups actor.profile = true := by
  rw [← complaint_eq_none, Listable]
  rcases declaredGroups_complaint u actor.profile with ⟨groups, hgroups, hnone⟩ | ⟨e, he, herror⟩
  · simp [hgroups, hnone]
  · simp [herror, he]

/-- An actor whose groups cannot be listed makes the listing raise what no rule raises. -/
theorem declaredGroups_error {u : Unicode} {actor : ActorRecord} (h : ¬ Listable u actor) :
    ∃ e, declaredGroups u actor.profile = .error e ∧ complaint actor.profile = some e := by
  rcases declaredGroups_complaint u actor.profile with ⟨groups, hgroups, _⟩ | ⟨e, he, herror⟩
  · exact absurd ⟨groups, hgroups⟩ h
  · exact ⟨e, herror, he⟩

/-- A complaint is of the interpreter, and its text mentions nothing but a type. -/
theorem complaint_cases {profile : JsonObject} {e : Raised} (h : complaint profile = some e) :
    e = Json.tooManyDigits ∨ ∃ type, e = notIterable type := by
  unfold complaint at h
  cases hv : profile.lookup "groups" with
  | none => simp [hv] at h
  | some v =>
    simp only [hv] at h
    split_ifs at h
    · exact Or.inl (Option.some.inj h).symm
    · exact Or.inr ⟨v.typeName, (Option.some.inj h).symm⟩

lemma lookup_addMember (members : Dict String (Finset String)) (group name g : String) :
    (addMember members group name).lookup g =
      if g = group then some (insert name (membersOf members group)) else members.lookup g :=
  Dict.lookup_set members group g _

lemma mem_foldl_addMember (groups : List String) (name : String)
    (members : Dict String (Finset String)) (g : String) :
    (g ∈ groups.foldl (fun acc group => addMember acc group name) members ↔
      g ∈ members ∨ g ∈ groups) ∧
    ∀ n, n ∈ membersOf (groups.foldl (fun acc group => addMember acc group name) members) g ↔
      n ∈ membersOf members g ∨ (n = name ∧ g ∈ groups) := by
  induction groups generalizing members with
  | nil => simp
  | cons group groups ih =>
    obtain ⟨hkeys, hmembers⟩ := ih (addMember members group name)
    refine ⟨?_, fun n => ?_⟩
    · rw [List.foldl_cons, hkeys, addMember, Dict.mem_set, List.mem_cons]
      tauto
    · rw [List.foldl_cons, hmembers n, membersOf, lookup_addMember]
      by_cases hg : g = group
      · subst hg
        simp only [if_true, Option.getD_some, Finset.mem_insert, List.mem_cons, true_or, and_true]
        tauto
      · simp only [List.mem_cons, hg, false_or]
        rfl

/-- One turn of the loop: the keys and the members it adds. -/
lemma addActor_spec {u : Unicode} {members result : Dict String (Finset String)}
    {actor : ActorRecord} (h : addActor u members actor = .ok result) (g : String) :
    (g ∈ result ↔ g ∈ members ∨ (actor.isGroup = true ∧ g = actor.name) ∨
      Declares u actor g) ∧
    ∀ n, n ∈ membersOf result g ↔
      n ∈ membersOf members g ∨ (n = actor.name ∧ Declares u actor g) := by
  unfold addActor at h
  cases hgroups : declaredGroups u actor.profile with
  | error e => simp [hgroups] at h
  | ok groups =>
    have hdeclares : Declares u actor g ↔ g ∈ groups := by simp [DeclaredIn, hgroups]
    simp only [hgroups, Except.ok.injEq] at h
    subst h
    set start := if actor.isGroup = true then members.setDefault actor.name ∅ else members
      with hstart
    obtain ⟨hkeys, hmembers⟩ := mem_foldl_addMember groups actor.name start g
    have hstartKeys : g ∈ start ↔ g ∈ members ∨ (actor.isGroup = true ∧ g = actor.name) := by
      rw [hstart]
      split_ifs with hgroup
      · rw [Dict.mem_iff_lookup, Dict.lookup_setDefault, Dict.mem_iff_lookup]
        split_ifs with hname <;> simp [hname, hgroup]
      · simp [hgroup]
    have hstartMembers : membersOf start g = membersOf members g := by
      rw [hstart]
      split_ifs with hgroup
      · rw [membersOf, Dict.lookup_setDefault]
        split_ifs with hname
        · subst hname; rfl
        · rfl
      · rfl
    refine ⟨?_, fun n => ?_⟩
    · rw [hkeys, hstartKeys, hdeclares, or_assoc]
    · rw [hmembers, hstartMembers, hdeclares]

/-- The whole loop, from any dictionary built so far. -/
lemma foldlM_addActor_spec {u : Unicode} (actors : List ActorRecord)
    {members result : Dict String (Finset String)}
    (h : actors.foldlM (addActor u) members = .ok result) (g : String) :
    (g ∈ result ↔ g ∈ members ∨ (∃ a ∈ actors, a.isGroup = true ∧ g = a.name) ∨
      ∃ a ∈ actors, Declares u a g) ∧
    ∀ n, n ∈ membersOf result g ↔
      n ∈ membersOf members g ∨ ∃ a ∈ actors, n = a.name ∧ Declares u a g := by
  induction actors generalizing members with
  | nil =>
    simp only [List.foldlM_nil, except_pure, Except.ok.injEq] at h
    simp [h]
  | cons actor actors ih =>
    rw [List.foldlM_cons] at h
    cases hstep : addActor u members actor with
    | error e => simp [hstep] at h
    | ok next =>
      simp only [hstep, ok_bind] at h
      obtain ⟨hkeys, hmembers⟩ := ih h
      obtain ⟨hkeys', hmembers'⟩ := addActor_spec hstep g
      refine ⟨?_, fun n => ?_⟩
      · simp only [hkeys, hkeys', List.mem_cons, exists_eq_or_imp, or_assoc]
        rw [or_left_comm (a := Declares u actor g)]
      · simp only [hmembers, hmembers', List.mem_cons, exists_eq_or_imp, or_assoc]

/-- The keys of the memberships: group actors, and whatever a profile declares. -/
theorem mem_groupMemberships {u : Unicode} {actors : List ActorRecord}
    {memberships : Dict String (Finset String)} (h : groupMemberships u actors = .ok memberships)
    (g : String) : g ∈ memberships ↔
      (∃ a ∈ actors, a.isGroup = true ∧ g = a.name) ∨ ∃ a ∈ actors, Declares u a g := by
  have hnone : g ∉ (∅ : Dict String (Finset String)) := AList.notMem_empty g
  simpa [hnone] using (foldlM_addActor_spec actors h g).1

/-- The members of a group are the actors that declare it. -/
theorem mem_membersOf {u : Unicode} {actors : List ActorRecord}
    {memberships : Dict String (Finset String)} (h : groupMemberships u actors = .ok memberships)
    (g n : String) :
    n ∈ membersOf memberships g ↔ ∃ a ∈ actors, n = a.name ∧ Declares u a g := by
  simpa [membersOf] using (foldlM_addActor_spec actors h g).2 n

/-- Building the memberships succeeds exactly when every actor's groups can be listed. -/
theorem groupMemberships_ok_iff (u : Unicode) (actors : List ActorRecord) :
    (∃ memberships, groupMemberships u actors = .ok memberships) ↔
      ∀ a ∈ actors, Listable u a := by
  unfold groupMemberships
  generalize (∅ : Dict String (Finset String)) = members
  induction actors generalizing members with
  | nil => simp
  | cons actor actors ih =>
    rw [List.foldlM_cons]
    simp only [List.mem_cons, forall_eq_or_imp]
    by_cases hlist : Listable u actor
    · obtain ⟨groups, hgroups⟩ := hlist
      simp only [addActor, hgroups, ok_bind, ih, Listable, Except.ok.injEq]
      simp
    · obtain ⟨e, he, _⟩ := declaredGroups_error hlist
      simp [addActor, he, hlist]

/-- When it fails, some profile is complained of. -/
theorem groupMemberships_error {u : Unicode} {actors : List ActorRecord} {e : Raised}
    (h : groupMemberships u actors = .error e) :
    e = Json.tooManyDigits ∨ ∃ type, e = notIterable type := by
  unfold groupMemberships at h
  generalize (∅ : Dict String (Finset String)) = members at h
  induction actors generalizing members with
  | nil => simp at h
  | cons actor actors ih =>
    rw [List.foldlM_cons] at h
    by_cases hlist : Listable u actor
    · obtain ⟨groups, hgroups⟩ := hlist
      simp only [addActor, hgroups, ok_bind] at h
      exact ih _ h
    · obtain ⟨e', he', hcomplaint⟩ := declaredGroups_error hlist
      simp only [addActor, he', error_bind, Except.error.injEq] at h
      exact h ▸ complaint_cases hcomplaint

/-! ## Audiences -/

theorem mem_resolveAudience (ctx : Context) (names : List String) (n : String) :
    n ∈ resolveAudience ctx names ↔ ∃ name ∈ names, n ∈ expand ctx name := by
  unfold resolveAudience
  have hgeneral : ∀ resolved : Finset String,
      n ∈ names.foldl (fun resolved name => resolved ∪ expand ctx name) resolved ↔
        n ∈ resolved ∨ ∃ name ∈ names, n ∈ expand ctx name := by
    induction names with
    | nil => simp
    | cons name names ih =>
      intro resolved
      rw [List.foldl_cons, ih]
      simp only [Finset.mem_union, List.mem_cons, exists_eq_or_imp]
      tauto
  simpa using hgeneral ∅

theorem mem_recipientsOf (ctx : Context) (obj : ObjectRecord) (n : String) :
    n ∈ recipientsOf ctx obj ↔
      (∃ name, (name ∈ obj.to_ ∨ name ∈ obj.cc) ∧ n ∈ expand ctx name) ∧
        n ≠ obj.attributedTo := by
  simp [recipientsOf, mem_resolveAudience, ObjectRecord.audience]

/-- The names that resolving an actor's own name gives back unchanged. -/
def Sound (ctx : Context) (name : String) : Prop := expand ctx name = {name}

/-- A message whose names all resolve to themselves reaches exactly those names. -/
theorem isPartyTo_sound {ctx : Context} {obj : ObjectRecord}
    (hsound : ∀ name, name ∈ obj.to_ ∨ name ∈ obj.cc → Sound ctx name) (n : String) :
    isPartyTo ctx obj n = true ↔ n = obj.attributedTo ∨ n ∈ obj.to_ ∨ n ∈ obj.cc := by
  have hexpand : (∃ name, (name ∈ obj.to_ ∨ name ∈ obj.cc) ∧ n ∈ expand ctx name) ↔
      n ∈ obj.to_ ∨ n ∈ obj.cc := by
    constructor
    · rintro ⟨name, hname, hn⟩
      rw [hsound name hname, Finset.mem_singleton] at hn
      exact hn ▸ hname
    · intro hn
      exact ⟨n, hn, by rw [hsound n hn]; exact Finset.mem_singleton_self n⟩
  simp only [isPartyTo, deliversTo, Bool.or_eq_true, decide_eq_true_eq, mem_recipientsOf, hexpand]
  by_cases hsender : n = obj.attributedTo <;> simp [hsender, eq_comm]

end AgentMailbox
