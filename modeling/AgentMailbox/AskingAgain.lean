import AgentMailbox.NormalForms
import AgentMailbox.Registration

/-!
# Asking again

A name that is held is refused to whoever asks for it, provided asking for it asks for
it: the hub looks up the normal form of the request. A granted name that is not its own
normal form is held, and asking for it asks for another.
-/
namespace AgentMailbox

namespace Naming

/-- Two words with an underscore between them are in normal form. -/
lemma words_fixed {u : Unicode} (hfixed : PlainFixed u) {given family : List Char}
    (hgiven : '_' ∉ given) (hgiven' : given ≠ []) (hfamily : '_' ∉ family) (hfamily' : family ≠ [])
    (hplain : Plain (String.ofList (given ++ '_' :: family))) :
    normalize u (String.ofList (given ++ '_' :: family)) =
      String.ofList (given ++ '_' :: family) := by
  have hkept : ∀ {cs : List Char}, '_' ∉ cs → ∀ c ∈ cs, decide (c = '_') = false :=
    fun h c hc => decide_eq_false fun heq => h (heq ▸ hc)
  have hends : endsInRun (· = '_') false given = false := by
    obtain rfl | ⟨init, last, rfl⟩ := given.eq_nil_or_concat'
    · exact absurd rfl hgiven'
    · rw [endsInRun_concat]
      exact hkept hgiven last (by simp)
  have hcollapsed : collapseRuns (· = '_') false (given ++ '_' :: family) =
      given ++ '_' :: family := by
    rw [collapseRuns_append, collapseRuns_of_kept _ (hkept hgiven), hends]
    simp [collapseRuns, collapseRuns_of_kept _ (hkept hfamily)]
  rw [normalize_second hfixed hplain, String.toList_ofList, hcollapsed]
  congr 1
  apply Text.stripList_eq_self
  · intro c hc
    rw [List.head?_append_of_ne_nil _ hgiven'] at hc
    exact hkept hgiven c (List.mem_of_mem_head? hc)
  · intro c hc
    have hsplit : given ++ '_' :: family = (given ++ ['_']) ++ family := by simp
    rw [hsplit, List.getLast?_append_of_ne_nil _ hfamily'] at hc
    exact hkept hfamily c (List.mem_of_mem_getLast? hc)

/-- An issued name asked for by name is that name. -/
theorem validate_generate {u : Unicode} (hfixed : PlainFixed u) (draw : Draw) :
    validate u (generate draw) = .ok (generate draw) := by
  have hcanonical := generate_canonical draw
  obtain ⟨hgiven, hgiven', hgiven_le⟩ :=
    namePool_words _ (List.mem_append_left _ (List.get_mem _ draw.given))
  obtain ⟨hfamily, hfamily', hfamily_le⟩ :=
    namePool_words _ (List.mem_append_right _ (List.get_mem _ draw.family))
  have hwords : generate draw = String.ofList ((givenNames.get draw.given).toList ++
      '_' :: (familyNames.get draw.family).toList) := by
    apply String.toList_inj.mp
    simp [generate]
  have hnormal : normalize u (generate draw) = generate draw := by
    have hplain := hcanonical.plain
    rw [hwords] at hplain ⊢
    exact words_fixed hfixed hgiven hgiven' hfamily hfamily' hplain
  have hlength : (generate draw).length = (givenNames.get draw.given).toList.length +
      ((familyNames.get draw.family).toList.length + 1) := by
    rw [hwords, String.length_ofList, List.length_append, List.length_cons]
  rw [validate_ok_iff, hnormal]
  exact ⟨rfl, by omega, by omega, hcanonical.unreserved⟩

end Naming

/-- Nobody gets past a name that is held: asking for it is refused as taken, and no two
held names have one normal form. Reserved names are refused before anybody looks. -/
structure NamesHeld (mb : Mailbox) (s : InMemoryStore) : Prop where
  refused : ∀ name ∈ s.actors, name ∉ reservedNames → ∀ draw now,
    (Operation.join (some name) draw now).step mb s = (.error (.mailbox (.nameTaken name)), s)
  apart : ∀ name ∈ s.actors, name ∉ reservedNames → ∀ other ∈ s.actors, other ∉ reservedNames →
    Naming.normalize mb.unicode name = Naming.normalize mb.unicode other → name = other

/-- A request that is granted is granted a name in normal form. -/
def Operation.KeepsSpelling (mb : Mailbox) (op : Operation) (s : InMemoryStore) : Prop :=
  ∀ requested draw now name, op = .join (some requested) draw now →
    Naming.validate mb.unicode requested = .ok name → name ∉ s.actors →
      ¬ Naming.Reopens (Naming.folded mb.unicode requested)

/-- Normalisation knows nothing of who holds what. -/
lemma validate_ne_taken (u : Unicode) (raw name : String) :
    Naming.validate u raw ≠ .error (.mailbox (.nameTaken name)) := by
  unfold Naming.validate
  dsimp only
  split_ifs <;> simp

/-- Held names are those that are granted when asked for. -/
lemma namesHeld_iff (mb : Mailbox) (s : InMemoryStore) :
    NamesHeld mb s ↔ ∀ name ∈ s.actors, name ∉ reservedNames →
      Naming.validate mb.unicode name = .ok name := by
  constructor
  · intro h name hname hres
    have hstep := congrArg Prod.fst (h.refused name hname hres firstDraw (january 1))
    rw [step_join_chosen] at hstep
    cases hvalid : Naming.validate mb.unicode name with
    | error e =>
      simp only [hvalid, Except.error.injEq] at hstep
      rw [hstep] at hvalid
      exact absurd hvalid (validate_ne_taken mb.unicode name name)
    | ok granted =>
      simp only [hvalid] at hstep
      split_ifs at hstep
      simp only [Except.error.injEq, Raised.mailbox.injEq, MailboxError.nameTaken.injEq] at hstep
      rw [hstep]
  · intro h
    have hnormal : ∀ name ∈ s.actors, name ∉ reservedNames →
        Naming.normalize mb.unicode name = name := by
      intro name hname hres
      exact ((Naming.validate_ok_iff _ _ _).mp (h name hname hres)).1.symm
    constructor
    · intro name hname hres draw now
      rw [step_join_chosen, h name hname hres]
      exact if_pos hname
    · intro name hname hres other hother hother_res heq
      rw [← hnormal name hname hres, heq, hnormal other hother hother_res]

section
variable {mb : Mailbox} (hfixed : Naming.PlainFixed mb.unicode)
include hfixed

/-- A granted name is its own normal form when nothing in the request reopens. -/
lemma validate_again_iff {raw name : String} (h : Naming.validate mb.unicode raw = .ok name) :
    Naming.validate mb.unicode name = .ok name ↔
      ¬ Naming.Reopens (Naming.folded mb.unicode raw) := by
  rw [Naming.validate_granted_iff h, ← Naming.normalize_normalize_iff hfixed,
    ← ((Naming.validate_ok_iff _ _ _).mp h).1]

/-- One operation: names stay held unless it grants one that is not in normal form. -/
lemma namesHeld_step (op : Operation) (s : InMemoryStore) (hadm : op.Admissible s)
    (h : NamesHeld mb s) : NamesHeld mb (op.step mb s).2 ↔ op.KeepsSpelling mb s := by
  rw [namesHeld_iff] at h ⊢
  constructor
  · rintro hnext requested draw now name rfl hvalid hfree
    have hmem : name ∈ ((Operation.join (some requested) draw now).step mb s).2.actors := by
      simp [step_join_chosen, hvalid, hfree, Mailbox.newActor]
    exact (validate_again_iff hfixed hvalid).mp
      (hnext name hmem (Naming.validate_canonical hvalid).unreserved)
  · intro hkeeps name hname hres
    by_cases hheld : name ∈ s.actors
    · exact h name hheld hres
    · obtain ⟨actor, rfl, hcreates, -⟩ := mem_actors_step mb s op hname hheld
      cases op with
      | join requestedName draw now =>
        cases requestedName with
        | none =>
          obtain ⟨attempt, rfl⟩ := hcreates
          exact Naming.validate_generate hfixed (draw attempt)
        | some requested =>
          obtain ⟨name, hvalid, rfl⟩ := hcreates
          exact (validate_again_iff hfixed hvalid).mpr
            (hkeeps requested draw now name rfl hvalid hheld)
      | installResident resident profile now =>
        have hstanding : ∀ n ∈ residentNames, n ∈ reservedNames := by decide
        have hname : actor.name = resident := by rw [hcreates]; rfl
        exact absurd (hstanding _ (hname ▸ hadm.1)) hres
      | _ => exact absurd hcreates id

/-- A granted name is a fixed point exactly when nothing in the request reopens; two
requests in which nothing does are granted one name for one normal form; and names stay
held throughout a run exactly when it grants names in normal form only. -/
theorem granted_names_held :
    (∀ raw name, Naming.validate mb.unicode raw = .ok name →
      (Naming.normalize mb.unicode name = name ∧ Naming.validate mb.unicode name = .ok name ↔
        ¬ Naming.Reopens (Naming.folded mb.unicode raw))) ∧
    (∀ a b name other, Naming.validate mb.unicode a = .ok name →
      Naming.validate mb.unicode b = .ok other → ¬ Naming.Reopens (Naming.folded mb.unicode a) →
      ¬ Naming.Reopens (Naming.folded mb.unicode b) →
      Naming.normalize mb.unicode name = Naming.normalize mb.unicode other → name = other) ∧
    ∀ ops, Throughout mb Operation.Admissible .empty ops →
      ((∀ n, NamesHeld mb (after mb .empty (ops.take n))) ↔
        Throughout mb (Operation.KeepsSpelling mb) .empty ops) := by
  have hfixpoint : ∀ raw name, Naming.validate mb.unicode raw = .ok name →
      (Naming.normalize mb.unicode name = name ↔
        ¬ Naming.Reopens (Naming.folded mb.unicode raw)) := by
    intro raw name hname
    rw [← Naming.validate_granted_iff hname, validate_again_iff hfixed hname]
  refine ⟨?_, ?_, ?_⟩
  · intro raw name hname
    rw [validate_again_iff hfixed hname, hfixpoint raw name hname, and_self]
  · intro a b name other hname hother ha hb heq
    rw [← (hfixpoint a name hname).mpr ha, heq, (hfixpoint b other hother).mpr hb]
  · intro ops hadm
    rw [along_iff (namesHeld_step hfixed) hadm]
    exact and_iff_right ((namesHeld_iff mb .empty).mpr fun name hname => by
      simp [InMemoryStore.empty] at hname)

end

lemma asciiUnicode_fixed : Naming.PlainFixed asciiUnicode := ⟨fun _ _ => rfl, fun _ _ => rfl⟩

/-- Nothing reopens where nothing is deleted. -/
lemma not_reopens_of_kept {cs : List Char} (h : cs.any Naming.isDeleted = false) :
    ¬ Naming.Reopens cs := by
  rintro ⟨before, gap, deleted, gap', after, rfl, -, -, hne, hdeleted, -⟩
  obtain ⟨c, rest, rfl⟩ := List.exists_cons_of_ne_nil hne
  exact List.any_eq_false.mp h c (by simp) (hdeleted c List.mem_cons_self)

/-- Asked for in either spelling, the name is granted once. -/
theorem zoe_held :
    NamesHeld asciiMailbox (after asciiMailbox .empty [joinAs "Zoe Muller", joinAs "zoe__muller"]) ∧
      (after asciiMailbox .empty [joinAs "Zoe Muller", joinAs "zoe__muller"]).actors.keys =
        ["zoe_muller"] := by
  have hfixed : Naming.PlainFixed asciiMailbox.unicode := asciiUnicode_fixed
  refine ⟨((granted_names_held hfixed).2.2 [joinAs "Zoe Muller", joinAs "zoe__muller"]
    (by decide +kernel)).mpr ⟨?_, ?_, trivial⟩ 2, by decide +kernel⟩
  · rintro requested draw now name hop - -
    cases hop
    exact not_reopens_of_kept (by decide)
  · rintro requested draw now name hop - -
    cases hop
    exact not_reopens_of_kept (by decide)

/-- `a-!-b` is granted as `a__b`, and asking for `a__b` grants another name. -/
theorem reopened_name_escapes :
    Naming.validate asciiUnicode "a-!-b" = .ok "a__b" ∧
      Naming.normalize asciiUnicode "a__b" = "a_b" ∧
      (observed asciiMailbox .empty [joinAs "a-!-b", joinAs "a__b"]).map
          (Except.map fun result => match result with
            | .actor actor => actor.name
            | _ => "") = [.ok "a__b", .ok "a_b"] := by
  refine ⟨by decide, by decide, by decide +kernel⟩

end AgentMailbox
