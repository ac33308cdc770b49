import AgentMailbox.Addressing
import AgentMailbox.Naming
import AgentMailbox.Wire

/-!
# Granted names

Three modules have an idea of what a name is: the one that grants it, the one that
parses addresses and the one that writes URIs. The canonical form is inside all three,
so a granted name comes back unchanged from each.
-/
namespace AgentMailbox

namespace Naming

/-- `[a-z0-9]([a-z0-9_]*[a-z0-9])?`. -/
def Grammar (cs : List Char) : Prop :=
  ∃ first, isAlnum first = true ∧ (cs = [first] ∨
    ∃ middle last, (∀ c ∈ middle, isPlain c = true) ∧ isAlnum last = true ∧
      cs = first :: (middle ++ [last]))

lemma valid_concat (first last : Char) (middle : List Char) :
    valid (first :: (middle ++ [last])) = true ↔
      isAlnum first = true ∧ middle.length ≤ 62 ∧ (∀ c ∈ middle, isPlain c = true) ∧
        isAlnum last = true := by
  simp [valid, and_assoc]

/-- The pattern is the grammar with its repetition bounded: a bound on the length. -/
theorem valid_iff_grammar (cs : List Char) :
    valid cs = true ↔ Grammar cs ∧ cs.length ≤ 64 := by
  cases cs with
  | nil => simp [valid, Grammar]
  | cons first rest =>
    obtain rfl | ⟨middle, last, rfl⟩ := rest.eq_nil_or_concat'
    · simp [valid, Grammar]
    · rw [valid_concat]
      constructor
      · rintro ⟨hfirst, hlength, hmiddle, hlast⟩
        refine ⟨⟨first, hfirst, Or.inr ⟨middle, last, hmiddle, hlast, rfl⟩⟩, ?_⟩
        simp only [List.length_cons, List.length_append, List.length_nil]
        omega
      · rintro ⟨⟨first', hfirst, hcs⟩, hlength⟩
        simp only [List.length_cons, List.length_append, List.length_nil] at hlength
        obtain hcs | ⟨middle', last', hmiddle, hlast, hcs⟩ := hcs
        · simp at hcs
        · obtain ⟨rfl, htail⟩ := List.cons.inj hcs
          obtain ⟨rfl, hlast'⟩ := List.append_inj' htail rfl
          obtain rfl := List.singleton_inj.mp hlast'
          exact ⟨hfirst, by omega, hmiddle, hlast⟩

/-- What `strip("_")` leaves of canonical characters matches the grammar, if anything. -/
lemma grammar_stripped {cs : List Char} (hplain : ∀ c ∈ cs, isPlain c = true)
    (hne : Text.stripList (· = '_') cs ≠ []) : Grammar (Text.stripList (· = '_') cs) := by
  set stripped := Text.stripList (· = '_') cs with hstripped
  have hmem : ∀ c ∈ stripped, isPlain c = true := fun c hc => hplain c (mem_of_mem_stripList hc)
  have halnum : ∀ c ∈ stripped, decide (c = '_') = false → isAlnum c = true := by
    intro c hc hnot
    simp only [isAlnum, hmem c hc, decide_eq_false_iff_not.mp hnot, ne_eq, not_false_eq_true,
      decide_true, Bool.and_self]
  have hhead : ∀ c, stripped.head? = some c → isAlnum c = true := by
    intro c hc
    exact halnum c (List.mem_of_mem_head? hc) (Text.head_stripList (p := (· = '_')) hc)
  have hlast : ∀ c, stripped.getLast? = some c → isAlnum c = true := by
    intro c hc
    exact halnum c (List.mem_of_mem_getLast? hc) (Text.getLast_stripList (p := (· = '_')) hc)
  cases hcs : stripped with
  | nil => exact absurd hcs hne
  | cons first rest =>
    refine ⟨first, hhead first (by rw [hcs]; rfl), ?_⟩
    obtain rfl | ⟨middle, last, rfl⟩ := rest.eq_nil_or_concat'
    · exact Or.inl rfl
    · have hend : stripped.getLast? = some last := by
        rw [hcs, ← List.cons_append, List.getLast?_concat]
      refine Or.inr ⟨middle, last, ?_, hlast last hend, rfl⟩
      intro c hc
      exact hmem c (by simp [hcs, hc])

lemma normalize_grammar {u : Unicode} {raw : String} (hne : normalize u raw ≠ "") :
    Grammar (normalize u raw).toList := by
  unfold normalize at hne ⊢
  simp only [String.toList_ofList] at hne ⊢
  apply grammar_stripped
  · exact fun c hc => (List.mem_filter.mp hc).2
  · exact fun hnil => hne (by rw [hnil])

/-- A name is granted for its normal form, refused only for being empty, reserved or
too long. -/
theorem validate_ok_iff (u : Unicode) (raw name : String) :
    validate u raw = .ok name ↔ name = normalize u raw ∧ 1 ≤ (normalize u raw).length ∧
      (normalize u raw).length ≤ 64 ∧ normalize u raw ∉ reservedNames := by
  have hsize : (normalize u raw).length = (normalize u raw).toList.length :=
    String.length_toList.symm
  by_cases hne : normalize u raw = ""
  · simp [validate, hne]
  · have hpos : 1 ≤ (normalize u raw).length := by
      rw [hsize]
      exact List.length_pos_iff.mpr fun hnil => hne (String.toList_eq_nil_iff.mp hnil)
    have hvalid : valid (normalize u raw).toList = true ↔ (normalize u raw).length ≤ 64 := by
      rw [valid_iff_grammar, hsize]
      exact and_iff_right (normalize_grammar hne)
    simp only [validate, hne, if_false, Bool.not_eq_true', ← Bool.not_eq_true, hvalid]
    split_ifs with hreserved hlong
    · simp [hreserved]
    · simp only [Except.ok.injEq, hpos, hlong, hreserved, not_false_eq_true, and_true]
      exact eq_comm
    · simp [hlong]

end Naming

/-! ## What carries a name -/

lemma startsWith_append (start s : String) : Text.startsWith (start ++ s) start = true := by
  simp [Text.startsWith]

lemma drop_append (start s : String) : Text.drop start.length (start ++ s) = s := by
  have hlength : start.length = start.toList.length := String.length_toList.symm
  simp [Text.drop, hlength]

/-- A text that begins with no white space. -/
def OpensPlainly (s : String) : Prop := ∀ c ∈ s.toList.head?, isSpace c = false

lemma opensPlainly_of_strip {s : String} (h : Text.strip s = s) : OpensPlainly s := by
  intro c hc
  rw [← h, Text.strip_toList] at hc
  exact Text.head_stripList hc

/-- A URI of ours has no white space at its ends when the base does not begin with any. -/
lemma strip_uri {base : String} (hbase : OpensPlainly base) {path name : String}
    (hpath : path.toList.head? = some '/') (hplain : Plain name) (hne : name ≠ "") :
    Text.strip (base ++ path ++ name) = base ++ path ++ name := by
  have htoList : (base ++ path ++ name).toList = base.toList ++ (path.toList ++ name.toList) := by
    simp
  apply String.toList_inj.mp
  rw [Text.strip_toList, htoList]
  apply Text.stripList_eq_self
  · intro c hc
    rw [List.head?_append, List.head?_append, hpath] at hc
    cases hlist : base.toList.head? with
    | none =>
      rw [hlist] at hc
      have hslash : c = '/' := (Option.mem_some_iff.mp hc).symm
      rw [hslash]
      decide
    | some d =>
      rw [hlist] at hc
      have hd : c = d := (Option.mem_some_iff.mp hc).symm
      exact hbase c (by rw [hd, hlist, Option.mem_some_iff])
  · intro c hc
    have hne' : name.toList ≠ [] := fun hnil => hne (String.toList_eq_nil_iff.mp hnil)
    rw [← List.append_assoc, List.getLast?_append_of_ne_nil _ hne'] at hc
    exact isSpace_of_isPlain (hplain c (List.mem_of_mem_getLast? hc))

/-- What stands behind the path of a URI of ours is read back as it was written. -/
lemma stripChar_plain {name : String} (hplain : Plain name) : Text.stripChar '/' name = name := by
  unfold Text.stripChar
  rw [Text.stripList_of_forall, String.ofList_toList]
  intro c hc
  exact decide_eq_false fun heq => absurd (heq ▸ hplain c hc) (by decide)

/-- Our own URI of a name is read back as the name. -/
lemma nameFrom_actorUri {wire : Renderer} (hbase : OpensPlainly wire.base)
    {name : String} (hplain : Plain name) (hne : name ≠ "") :
    wire.nameFrom (wire.actorUri name) = .ok name := by
  have hstrip : Text.strip (wire.actorUri name) = wire.actorUri name :=
    strip_uri hbase rfl hplain hne
  unfold Renderer.nameFrom
  rw [hstrip]
  simp only [Renderer.actorUri, startsWith_append, if_true, drop_append, stripChar_plain hplain]

/-- A name each module that carries it gives back unchanged. -/
structure Serviceable (u : Unicode) (name : String) : Prop where
  grammar : Naming.Grammar name.toList
  unreserved : name ∉ reservedNames
  resolved : ∀ hubName, localName u name hubName = .ok name
  parsed : parse u ({ name } : Address).toStr = .ok { name }
  linked : ∀ wire : Renderer, Text.strip wire.base = wire.base →
    wire.nameFrom (wire.actorUri name) = .ok name

lemma Naming.Canonical.serviceable (u : Unicode) {name : String} (h : Naming.Canonical name)
    (hgrammar : Naming.Grammar name.toList) : Serviceable u name := by
  refine ⟨hgrammar, h.unreserved, localName_plain u h.plain h.nonempty, ?_, ?_⟩
  · simp only [Address.toStr]
    rw [parse_at u h.plain.at_notMem localHub_plain.at_notMem, strip_plain h.plain,
      strip_plain localHub_plain, if_neg h.nonempty, if_neg (by decide),
      u.lower_plain _ h.plain, u.lower_plain _ localHub_plain]
  · exact fun wire hbase => nameFrom_actorUri (opensPlainly_of_strip hbase) h.plain h.nonempty

/-- A requested name is granted unless its normal form is empty, too long or reserved,
and every granted name is serviceable. -/
theorem granted_serviceable (u : Unicode) (raw : String) :
    ((∃ name, Naming.validate u raw = .ok name) ↔ 1 ≤ (Naming.normalize u raw).length ∧
      (Naming.normalize u raw).length ≤ 64 ∧ Naming.normalize u raw ∉ reservedNames) ∧
    ∀ name, Naming.validate u raw = .ok name → Serviceable u name := by
  constructor
  · constructor
    · rintro ⟨name, hname⟩
      exact ((Naming.validate_ok_iff u raw name).mp hname).2
    · exact fun h => ⟨_, (Naming.validate_ok_iff u raw _).mpr ⟨rfl, h⟩⟩
  · intro name hname
    have hcanonical := Naming.validate_canonical hname
    obtain ⟨rfl, -⟩ := (Naming.validate_ok_iff u raw name).mp hname
    exact hcanonical.serviceable u (Naming.normalize_grammar hcanonical.nonempty)

theorem zoe_serviceable : Serviceable asciiUnicode "zoe_o_malley" :=
  (granted_serviceable asciiUnicode " Zoe O'Malley").2 "zoe_o_malley" (by decide)

end AgentMailbox
