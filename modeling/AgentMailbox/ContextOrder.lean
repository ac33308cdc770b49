import AgentMailbox.Semantics
import AgentMailbox.Membership

/-!
# The order of the directory

Two stores may list the same actors in different orders. The rules ask of a context who is
there and who belongs to what, so they answer alike; only which unusable profile
is met first depends on the order.
-/
namespace AgentMailbox

/-- The same names, and the same members of the same groups. -/
structure Context.Alike (ctx ctx' : Context) : Prop where
  allActors : ∀ name, name ∈ ctx.allActors ↔ name ∈ ctx'.allActors
  memberships : ∀ group, ctx.memberships.lookup group = ctx'.memberships.lookup group

namespace Context.Alike

section
variable {ctx ctx' : Context} (h : ctx.Alike ctx')
include h

lemma expand_eq (name : String) : expand ctx name = expand ctx' name := by
  have hall : ctx.allActors.toFinset = ctx'.allActors.toFinset := by
    ext actor
    simp only [List.mem_toFinset, h.allActors]
  unfold expand
  rw [hall, h.memberships]
  simp only [h.allActors]

lemma resolveAudience_eq (names : List String) :
    resolveAudience ctx names = resolveAudience ctx' names := by
  unfold resolveAudience
  simp only [h.expand_eq]

lemma deliversTo_eq (obj : ObjectRecord) (reader : String) :
    deliversTo ctx obj reader = deliversTo ctx' obj reader := by
  unfold deliversTo recipientsOf
  rw [h.resolveAudience_eq]

lemma isPartyTo_eq (obj : ObjectRecord) (actor : String) :
    isPartyTo ctx obj actor = isPartyTo ctx' obj actor := by
  unfold isPartyTo
  rw [h.deliversTo_eq]

lemma unread_eq (objects : List ObjectRecord) (reader : String) (read : Finset String) :
    unread ctx objects reader read = unread ctx' objects reader read := by
  unfold unread
  simp only [h.deliversTo_eq]

lemma visibleTurns_eq (objects : List ObjectRecord) (rootId viewer : String) :
    visibleTurns ctx objects rootId viewer = visibleTurns ctx' objects rootId viewer := by
  unfold visibleTurns
  simp only [h.isPartyTo_eq]

lemma mayAttachTo_eq (objects : List ObjectRecord) (sender : String) (parent : Option String) :
    mayAttachTo ctx objects sender parent = mayAttachTo ctx' objects sender parent := by
  unfold mayAttachTo
  simp only [h.isPartyTo_eq]

lemma missingNames_eq (names : List String) :
    Mailbox.missingNames names ctx = Mailbox.missingNames names ctx' := by
  have hmem : ∀ name, name ∈ ctx.memberships ↔ name ∈ ctx'.memberships := by
    intro name
    rw [← AList.lookup_isSome, ← AList.lookup_isSome, h.memberships]
  unfold Mailbox.missingNames
  simp only [h.allActors, hmem]

lemma rejectUnknownRecipients_eq (names : List String) :
    Mailbox.rejectUnknownRecipients names ctx = Mailbox.rejectUnknownRecipients names ctx' := by
  unfold Mailbox.rejectUnknownRecipients
  rw [h.missingNames_eq]

lemma compose_eq (sender : String) (recipients copies : List String) (parent : Option String)
    (draft : Draft) (stamp : Stamp) :
    Mailbox.compose ctx sender recipients copies parent draft stamp =
      Mailbox.compose ctx' sender recipients copies parent draft stamp := by
  unfold Mailbox.compose
  rw [h.resolveAudience_eq, h.resolveAudience_eq]

end

end Context.Alike

/-- Listing the actors in another order gives the same memberships. -/
theorem groupMemberships_perm {u : Unicode} {actors actors' : List ActorRecord}
    {memberships : Dict String (Finset String)} (hperm : actors.Perm actors')
    (h : groupMemberships u actors = .ok memberships) :
    ∃ memberships', groupMemberships u actors' = .ok memberships' ∧
      ∀ group, memberships.lookup group = memberships'.lookup group := by
  have hlist : ∀ actor ∈ actors', Listable u actor := fun actor hactor =>
    (groupMemberships_ok_iff u actors).mp ⟨_, h⟩ actor (hperm.mem_iff.mpr hactor)
  obtain ⟨memberships', h'⟩ := (groupMemberships_ok_iff u actors').mpr hlist
  refine ⟨memberships', h', fun group => ?_⟩
  have hmem : group ∈ memberships ↔ group ∈ memberships' := by
    rw [mem_groupMemberships h, mem_groupMemberships h']
    simp only [hperm.mem_iff]
  have hmembers : membersOf memberships group = membersOf memberships' group := by
    ext name
    rw [mem_membersOf h, mem_membersOf h']
    simp only [hperm.mem_iff]
  by_cases hgroup : group ∈ memberships
  · obtain ⟨members, hlookup⟩ := (Dict.mem_iff_lookup _ _).mp hgroup
    obtain ⟨members', hlookup'⟩ := (Dict.mem_iff_lookup _ _).mp (hmem.mp hgroup)
    simp only [membersOf, hlookup, hlookup', Option.getD_some] at hmembers
    rw [hlookup, hlookup', hmembers]
  · rw [AList.lookup_eq_none.mpr hgroup, AList.lookup_eq_none.mpr fun hin => hgroup (hmem.mpr hin)]

/-! ## The profile that is met first -/

/-- What is raised over the first profile whose groups cannot be listed. -/
def firstComplaint (actors : List ActorRecord) : Option Raised :=
  actors.findSome? fun actor => complaint actor.profile

/-- The memberships cannot be built when some profile is unusable, and the first one in the
order of the listing is complained of. -/
theorem groupMemberships_error_iff (u : Unicode) (actors : List ActorRecord) (e : Raised) :
    groupMemberships u actors = .error e ↔ firstComplaint actors = some e := by
  unfold groupMemberships firstComplaint
  generalize (∅ : Dict String (Finset String)) = members
  induction actors generalizing members with
  | nil => simp
  | cons actor actors ih =>
    rw [List.foldlM_cons, List.findSome?_cons]
    rcases declaredGroups_complaint u actor.profile with
      ⟨groups, hgroups, hnone⟩ | ⟨e', he', herror⟩
    · simp only [addActor, hgroups, ok_bind, hnone, ih]
    · simp only [addActor, herror, error_bind, he', Except.error.injEq, Option.some.injEq]

/-- The first unusable profile in order of joining and the first in order of names, if there
are any, are complained of in the same words. -/
def ComplaintsAgree (s : InMemoryStore) : Prop :=
  firstComplaint s.actors.values =
    firstComplaint (Sorting.sortBy ActorRecord.name s.actors.values)

instance (s : InMemoryStore) : Decidable (ComplaintsAgree s) := inferInstanceAs (Decidable (_ = _))

/-- Where they do not agree there are some. -/
lemma firstComplaint_of_not_agree {s : InMemoryStore} (h : ¬ ComplaintsAgree s) :
    ∃ e, firstComplaint s.actors.values = some e := by
  by_contra hnone
  have hall : firstComplaint s.actors.values = none := by
    apply Option.eq_none_iff_forall_ne_some.mpr
    exact fun e he => hnone ⟨e, he⟩
  apply h
  rw [ComplaintsAgree, hall]
  symm
  unfold firstComplaint at hall ⊢
  rw [List.findSome?_eq_none_iff] at hall ⊢
  exact fun actor hactor => hall actor ((Sorting.sortBy_perm _ _).mem_iff.mp hactor)

end AgentMailbox
