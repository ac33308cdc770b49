import AgentMailbox.Addressing
import AgentMailbox.Naming

/-!
# The two names of a hub

An address reaches this mailbox under `local` or under the hub's own name. What stands
after the `@` is lower-cased before it is compared and the configured name is not.
-/
namespace AgentMailbox

/-- What can stand after the `@` of an address, and what a hub can be configured to be
called. -/
structure HubPart (hub : String) : Prop where
  nonempty : hub ≠ ""
  no_at : '@' ∉ hub.toList
  trimmed : Text.strip hub = hub

lemma localHub_hubPart : HubPart localHub :=
  ⟨by decide, localHub_plain.at_notMem, strip_plain localHub_plain⟩

/-- A name at a hub: kept when the hub is this one, refused as remote otherwise. -/
theorem localName_at (u : Unicode) {name hub : String} (hplain : Plain name) (hne : name ≠ "")
    (hhub : HubPart hub) (hubName : String) :
    localName u (name ++ "@" ++ hub) hubName =
      if u.lower hub = localHub ∨ u.lower hub = hubName then .ok name
      else .error (.mailbox (.remoteMailbox (name ++ "@" ++ u.lower hub) hubName)) := by
  unfold localName
  rw [parse_at u hplain.at_notMem hhub.no_at, strip_plain hplain, hhub.trimmed, if_neg hne,
    if_neg hhub.nonempty, u.lower_plain name hplain]
  simp only [Address.isLocalTo, Address.toStr, Bool.or_eq_true, decide_eq_true_eq]

/-- A name is reached under the bare name, `local` and the hub's own name, and an address
at any other hub is refused as remote. -/
structure AnswersTo (u : Unicode) (hubName name : String) : Prop where
  bare : localName u name hubName = .ok name
  atLocal : localName u (name ++ "@" ++ localHub) hubName = .ok name
  own : localName u (name ++ "@" ++ hubName) hubName = .ok name
  others : ∀ hub, HubPart hub → u.lower hub ≠ u.lower localHub → u.lower hub ≠ u.lower hubName →
    ∃ address, localName u (name ++ "@" ++ hub) hubName =
      .error (.mailbox (.remoteMailbox address hubName))

/-- A hub answers to its own name when that name is written as addresses are read: in
lower case, or as some spelling of `local`. -/
theorem answersTo_iff (u : Unicode) (hidem : ∀ s, u.lower (u.lower s) = u.lower s)
    {hubName raw name : String} (hhub : HubPart hubName)
    (hname : Naming.validate u raw = .ok name) :
    AnswersTo u hubName name ↔ u.lower hubName = hubName ∨ u.lower hubName = localHub := by
  have hcanonical := Naming.validate_canonical hname
  have hat := fun hub (h : HubPart hub) =>
    localName_at u hcanonical.plain hcanonical.nonempty h hubName
  constructor
  · intro h
    have hown := h.own
    rw [hat hubName hhub] at hown
    split_ifs at hown with hheld
    exact hheld.symm
  · intro hspelled
    refine ⟨localName_plain u hcanonical.plain hcanonical.nonempty hubName, ?_, ?_, ?_⟩
    · rw [hat localHub localHub_hubPart, if_pos (Or.inl (u.lower_plain _ localHub_plain))]
    · rw [hat hubName hhub, if_pos hspelled.symm]
    · intro hub hpart hlocal hother
      rw [u.lower_plain _ localHub_plain] at hlocal
      -- An address that is read as the configured name is that name in another case.
      have hnamed : u.lower hub ≠ hubName := by
        intro heq
        apply hother
        rw [← heq, hidem]
      rw [hat hub hpart, if_neg (by simp [hlocal, hnamed])]
      exact ⟨_, rfl⟩

theorem workshop_answers : AnswersTo asciiUnicode "workshop" "trevor_mahmood" := by
  have hname : Naming.validate asciiUnicode "Trevor Mahmood" = .ok "trevor_mahmood" := by decide
  exact (answersTo_iff asciiUnicode asciiUnicode_lower_lower
    ⟨by decide, by decide, by decide⟩ hname).mpr (Or.inl (by decide))

/-- A hub configured as `Workshop` refuses its own name. -/
theorem capital_workshop_refuses :
    HubPart "Workshop" ∧ Naming.validate asciiUnicode "trevor_mahmood" = .ok "trevor_mahmood" ∧
      ¬ AnswersTo asciiUnicode "Workshop" "trevor_mahmood" := by
  have hpart : HubPart "Workshop" := ⟨by decide, by decide, by decide⟩
  refine ⟨hpart, by decide, ?_⟩
  intro h
  have hown := h.own
  rw [localName_at asciiUnicode (by decide) (by decide) hpart] at hown
  exact absurd hown (by decide)

end AgentMailbox
