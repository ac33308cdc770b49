import AgentMailbox.Exceptions

/-!
# Addresses

`name@hub`, where a bare name means this mailbox and `local` is every mailbox's
own alias. Above `localName` the engine speaks addresses, below it names.
-/
namespace AgentMailbox

/-- `LOCAL`, which is also `DEFAULT_HUB`. -/
def localHub : String := "local"

structure Address where
  name : String
  hub : String := localHub
  deriving DecidableEq, Repr

namespace Address

/-- `str(address)`. -/
def toStr (address : Address) : String := address.name ++ "@" ++ address.hub

def isLocalTo (address : Address) (hubName : String) : Bool :=
  address.hub = localHub || address.hub = hubName

end Address

/-- Parse `name@hub`, or a bare `name` meaning this mailbox. -/
def parse (u : Unicode) (text : String) : Except Raised Address :=
  let raw := Text.strip text
  if raw = "" then .error (.mailbox .addressEmpty)
  else if 1 < raw.toList.count '@' then .error (.mailbox (.addressManyAts text))
  else
    let parts := Text.partition '@' raw
    let name := Text.strip parts.1
    let hub := Text.strip parts.2.2
    if name = "" then .error (.mailbox (.addressNoName text))
    else if parts.2.1 && hub = "" then .error (.mailbox (.addressNoHub text))
    else .ok ⟨u.lower name, u.lower (if hub = "" then localHub else hub)⟩

/-- The local actor name an address refers to, refusing anything out of reach. -/
def localName (u : Unicode) (text hubName : String) : Except Raised String :=
  match parse u text with
  | .error e => .error e
  | .ok address =>
    if address.isLocalTo hubName then .ok address.name
    else .error (.mailbox (.remoteMailbox address.toStr hubName))

lemma localHub_plain : Plain localHub := by decide

/-- An address with one `@`: what stands before it and what stands after it, trimmed. -/
theorem parse_at (u : Unicode) {name hub : String} (hname : '@' ∉ name.toList)
    (hhub : '@' ∉ hub.toList) :
    parse u (name ++ "@" ++ hub) =
      if Text.strip name = "" then .error (.mailbox (.addressNoName (name ++ "@" ++ hub)))
      else if Text.strip hub = "" then .error (.mailbox (.addressNoHub (name ++ "@" ++ hub)))
      else .ok ⟨u.lower (Text.strip name), u.lower (Text.strip hub)⟩ := by
  set text := name ++ "@" ++ hub with htext
  have htoList : text.toList = name.toList ++ '@' :: hub.toList := by simp [htext]
  have hstrip : (Text.strip text).toList = name.toList.dropWhile isSpace ++
      '@' :: (hub.toList.reverse.dropWhile isSpace).reverse := by
    rw [Text.strip_toList, htoList, Text.stripList_append_cons Text.isSpace_at]
  have hnot : ∀ c ∈ name.toList.dropWhile isSpace, (c ≠ '@' : Bool) = true := by
    intro c hc
    have hmem := (List.dropWhile_sublist isSpace).subset hc
    exact decide_eq_true fun heq => hname (heq ▸ hmem)
  have hpartition : Text.partition '@' (Text.strip text) =
      (String.ofList (name.toList.dropWhile isSpace), true,
        String.ofList (hub.toList.reverse.dropWhile isSpace).reverse) := by
    unfold Text.partition
    rw [hstrip, List.takeWhile_append_of_pos hnot, List.dropWhile_append_of_pos hnot]
    simp
  have hcount : (Text.strip text).toList.count '@' = 1 := by
    rw [Text.count_strip Text.isSpace_at, htoList, List.count_append, List.count_cons_self,
      List.count_eq_zero_of_not_mem hname, List.count_eq_zero_of_not_mem hhub]
  have hne : Text.strip text ≠ "" := by
    intro hempty
    rw [hempty] at hcount
    simp at hcount
  have hbefore : Text.strip (String.ofList (name.toList.dropWhile isSpace)) = Text.strip name := by
    unfold Text.strip
    rw [String.toList_ofList, Text.stripList_dropWhile]
  have hafter : Text.strip (String.ofList (hub.toList.reverse.dropWhile isSpace).reverse) =
      Text.strip hub := by
    unfold Text.strip
    rw [String.toList_ofList, Text.stripList_dropWhile_reverse]
  simp only [parse, if_neg hne, hcount, lt_irrefl, if_false, hpartition, hbefore, hafter,
    Bool.true_and, decide_eq_true_eq]
  split_ifs <;> rfl

/-- An address without `@` is a name of this mailbox. -/
theorem parse_bare (u : Unicode) {text : String} (hat : '@' ∉ text.toList) :
    parse u text = if Text.strip text = "" then .error (.mailbox .addressEmpty)
      else .ok ⟨u.lower (Text.strip text), localHub⟩ := by
  have hraw : '@' ∉ (Text.strip text).toList := by
    rw [← List.count_eq_zero, Text.count_strip Text.isSpace_at]
    exact List.count_eq_zero.mpr hat
  have hempty : Text.strip "" = "" := rfl
  simp only [parse, List.count_eq_zero.mpr hraw, Text.partition_of_notMem hraw, Text.strip_strip,
    hempty, if_true, u.lower_plain localHub localHub_plain, Nat.not_lt_zero, if_false,
    Bool.false_and, Bool.false_eq_true]
  split_ifs <;> rfl

theorem parse_many (u : Unicode) {text : String} (hat : 1 < text.toList.count '@') :
    parse u text = .error (.mailbox (.addressManyAts text)) := by
  have hcount := Text.count_strip Text.isSpace_at text
  have hne : Text.strip text ≠ "" := by
    intro hempty
    rw [hempty] at hcount
    simp only [String.toList_empty, List.count_nil] at hcount
    omega
  simp only [parse, if_neg hne, hcount, hat, if_true]

/-- A canonical name is its own address. -/
theorem parse_plain (u : Unicode) {name : String} (h : Plain name) (hne : name ≠ "") :
    parse u name = .ok ⟨name, localHub⟩ := by
  rw [parse_bare u h.at_notMem, strip_plain h, if_neg hne, u.lower_plain name h]

@[simp] theorem localName_plain (u : Unicode) {name : String} (h : Plain name) (hne : name ≠ "")
    (hubName : String) : localName u name hubName = .ok name := by
  simp [localName, parse_plain u h hne, Address.isLocalTo]

/-- Resolution fails only with an addressing error. -/
theorem localName_error {u : Unicode} {text hubName : String} {e : Raised}
    (h : localName u text hubName = .error e) : e.isMailboxError = true := by
  unfold localName at h
  split at h
  · next e' hparse =>
    simp only [parse] at hparse
    split_ifs at hparse <;> cases hparse <;> cases h <;> rfl
  · split_ifs at h
    cases h
    rfl

/-! ## What an address resolves to -/

/-- A text holds no `@`, or one, or more than an address may. -/
lemma at_cases (text : String) : '@' ∉ text.toList ∨
    (∃ name hub : String, '@' ∉ name.toList ∧ '@' ∉ hub.toList ∧ text = name ++ "@" ++ hub) ∨
      1 < text.toList.count '@' := by
  by_cases hmem : '@' ∈ text.toList
  · obtain ⟨before, after, htext⟩ := List.append_of_mem hmem
    by_cases hcount : 1 < text.toList.count '@'
    · exact Or.inr (Or.inr hcount)
    · rw [htext, List.count_append, List.count_cons_self] at hcount
      have hbefore : '@' ∉ before := List.count_eq_zero.mp (by omega)
      have hafter : '@' ∉ after := List.count_eq_zero.mp (by omega)
      refine Or.inr (Or.inl ⟨String.ofList before, String.ofList after, by simpa using hbefore,
        by simpa using hafter, ?_⟩)
      apply String.toList_inj.mp
      simp [htext]
  · exact Or.inl hmem

theorem localName_at_iff (u : Unicode) {name hub : String} (hname : '@' ∉ name.toList)
    (hhub : '@' ∉ hub.toList) (hubName resolved : String) :
    localName u (name ++ "@" ++ hub) hubName = .ok resolved ↔
      Text.strip name ≠ "" ∧ Text.strip hub ≠ "" ∧
        (u.lower (Text.strip hub) = localHub ∨ u.lower (Text.strip hub) = hubName) ∧
        resolved = u.lower (Text.strip name) := by
  unfold localName
  rw [parse_at u hname hhub]
  by_cases hnone : Text.strip name = ""
  · simp [hnone]
  · by_cases hnowhere : Text.strip hub = ""
    · simp [hnone, hnowhere]
    · simp only [hnone, hnowhere, if_false, Address.isLocalTo, Bool.or_eq_true, decide_eq_true_eq]
      split_ifs with hlocal
      · simp only [Except.ok.injEq, ne_eq, hnone, hnowhere, not_false_eq_true, hlocal, true_and]
        exact eq_comm
      · simp [hlocal]

theorem localName_bare_iff (u : Unicode) {text : String} (hat : '@' ∉ text.toList)
    (hubName resolved : String) : localName u text hubName = .ok resolved ↔
      Text.strip text ≠ "" ∧ resolved = u.lower (Text.strip text) := by
  unfold localName
  rw [parse_bare u hat]
  by_cases hnone : Text.strip text = ""
  · simp [hnone]
  · simp only [hnone, if_false, Address.isLocalTo, decide_true, Bool.true_or, if_true,
      Except.ok.injEq, ne_eq, not_false_eq_true, true_and]
    exact eq_comm

theorem localName_many (u : Unicode) {text : String} (hat : 1 < text.toList.count '@')
    (hubName : String) :
    localName u text hubName = .error (.mailbox (.addressManyAts text)) := by
  unfold localName
  rw [parse_many u hat]

section
variable (u : Unicode) (hubName : String)

/-- Somebody is named, at a hub that goes by one of this hub's names. -/
structure HeldHere (name hub : String) : Prop where
  name_at : '@' ∉ name.toList
  hub_at : '@' ∉ hub.toList
  named : Text.strip name ≠ ""
  somewhere : Text.strip hub ≠ ""
  here : u.lower (Text.strip hub) = localHub ∨ u.lower (Text.strip hub) = hubName

/-- What a text means as an address: a bare name, or a name held here. -/
def ReadAs (text resolved : String) : Prop :=
  ('@' ∉ text.toList ∧ Text.strip text ≠ "" ∧ resolved = u.lower (Text.strip text)) ∨
    ∃ name hub, text = name ++ "@" ++ hub ∧ HeldHere u hubName name hub ∧
      resolved = u.lower (Text.strip name)

lemma localName_joined_iff (name hub : String) :
    (∃ resolved, localName u (name ++ "@" ++ hub) hubName = .ok resolved) ↔
      HeldHere u hubName name hub := by
  by_cases hat : '@' ∉ name.toList ∧ '@' ∉ hub.toList
  · constructor
    · rintro ⟨resolved, h⟩
      obtain ⟨hnamed, hsomewhere, hhere, -⟩ := (localName_at_iff u hat.1 hat.2 hubName _).mp h
      exact ⟨hat.1, hat.2, hnamed, hsomewhere, hhere⟩
    · intro h
      exact ⟨_, (localName_at_iff u hat.1 hat.2 hubName _).mpr
        ⟨h.named, h.somewhere, h.here, rfl⟩⟩
  · constructor
    · rintro ⟨resolved, h⟩
      have hcount : 1 < (name ++ "@" ++ hub).toList.count '@' := by
        have hsplit : (name ++ "@" ++ hub).toList = name.toList ++ '@' :: hub.toList := by simp
        rw [hsplit, List.count_append, List.count_cons_self]
        have hone : 0 < name.toList.count '@' ∨ 0 < hub.toList.count '@' := by
          rw [List.count_pos_iff, List.count_pos_iff]
          tauto
        omega
      rw [localName_many u hcount] at h
      cases h
    · exact fun h => absurd ⟨h.name_at, h.hub_at⟩ hat

/-- A text resolves to what it means, and to nothing when it means nothing here. -/
theorem localName_iff (text resolved : String) :
    localName u text hubName = .ok resolved ↔ ReadAs u hubName text resolved := by
  constructor
  · intro h
    obtain hat | ⟨name, hub, hname, hhub, rfl⟩ | hmany := at_cases text
    · exact Or.inl ⟨hat, (localName_bare_iff u hat hubName _).mp h⟩
    · have hheld := (localName_joined_iff u hubName name hub).mp ⟨resolved, h⟩
      obtain ⟨-, -, -, hresolved⟩ := (localName_at_iff u hname hhub hubName _).mp h
      exact Or.inr ⟨name, hub, rfl, hheld, hresolved⟩
    · rw [localName_many u hmany] at h
      cases h
  · rintro (⟨hat, h⟩ | ⟨name, hub, rfl, hheld, hresolved⟩)
    · exact (localName_bare_iff u hat hubName _).mpr h
    · exact (localName_at_iff u hheld.name_at hheld.hub_at hubName _).mpr
        ⟨hheld.named, hheld.somewhere, hheld.here, hresolved⟩

end

/-- White space around an address is immaterial to what it resolves to. -/
theorem localName_padded (u : Unicode) {before after : String}
    (hbefore : ∀ c ∈ before.toList, isSpace c = true)
    (hafter : ∀ c ∈ after.toList, isSpace c = true) (text hubName resolved : String) :
    localName u (before ++ text ++ after) hubName = .ok resolved ↔
      localName u text hubName = .ok resolved := by
  have hstrip := Text.strip_padded hbefore hafter text
  simp only [localName, parse, hstrip]
  split_ifs <;> simp

end AgentMailbox
