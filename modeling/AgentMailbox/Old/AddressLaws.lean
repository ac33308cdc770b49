import AgentMailbox.Old.Addresses

/-!
# What addresses are read back as

An address that was written from tokens names them again, exactly when none of them ends in a
newline; and what a destination names can be written as an address.
-/
namespace AgentMailbox.Old

/-! ## What a token is -/

lemma isTokenChar_range {c : Char} (h : isTokenChar c = true) :
    45 ≤ c.toNat ∧ c.toNat ≤ 122 ∧ c.toNat ≠ 47 := by
  simp only [isTokenChar, isAlphanumeric, Bool.or_eq_true, Bool.and_eq_true, decide_eq_true_eq,
    Char.le_def, UInt32.le_iff_toNat_le] at h
  change 45 ≤ c.val.toNat ∧ c.val.toNat ≤ 122 ∧ c.val.toNat ≠ 47
  rcases h with (((⟨hlow, hhigh⟩ | ⟨hlow, hhigh⟩) | ⟨hlow, hhigh⟩) | rfl) | rfl
  · change 65 ≤ _ at hlow
    change _ ≤ 90 at hhigh
    omega
  · change 97 ≤ _ at hlow
    change _ ≤ 122 at hhigh
    omega
  · change 48 ≤ _ at hlow
    change _ ≤ 57 at hhigh
    omega
  · decide
  · decide

lemma isSpace_of_isTokenChar {c : Char} (h : isTokenChar c = true) : isSpace c = false := by
  obtain ⟨hlow, hhigh, _⟩ := isTokenChar_range h
  simp only [isSpace, Bool.or_eq_false_iff, Bool.and_eq_false_iff, decide_eq_false_iff_not]
  omega

lemma isTokenChar_of_mem {cs : List Char} (h : isToken cs = true) {c : Char} (hc : c ∈ cs) :
    isTokenChar c = true := by
  cases cs with
  | nil => cases hc
  | cons first rest =>
    simp only [isToken, Bool.and_eq_true] at h
    rcases List.mem_cons.mp hc with rfl | hrest
    · simp [isTokenChar, h.1.1]
    · exact List.all_eq_true.mp h.1.2 c hrest

/-- A token that stands for itself in an address. -/
structure Token (u : Unicode) (token : String) : Prop where
  shape : isToken token.toList = true
  free : u.lower token ∉ reservedTokens

theorem validateToken_ok_iff (u : Unicode) (value kind result : String) :
    validateToken u value kind = .ok result ↔
      result = value ∧ validToken value = true ∧ u.lower value ∉ reservedTokens := by
  unfold validateToken
  cases validToken value with
  | false => simp
  | true =>
    simp only [Bool.not_true, Bool.false_eq_true, if_false, true_and]
    split_ifs with hreserved
    · simp [hreserved]
    · simp [hreserved, eq_comm]

namespace Token

variable {u : Unicode} {token : String}

lemma notMem (h : Token u token) {c : Char} (hc : isTokenChar c = false) : c ∉ token.toList := by
  intro hmem
  rw [isTokenChar_of_mem h.shape hmem] at hc
  cases hc

lemma nonempty (h : Token u token) : token ≠ "" := by
  rintro rfl
  have hshape := h.shape
  simp [isToken] at hshape

lemma strip_eq (h : Token u token) : Text.strip token = token := by
  have hnone : ∀ c ∈ token.toList, isSpace c = false := fun c hc =>
    isSpace_of_isTokenChar (isTokenChar_of_mem h.shape hc)
  rw [Text.strip, Text.stripList_of_forall hnone, String.ofList_toList]

lemma no_newline (h : Token u token) : token.toList.getLast? ≠ some '\n' := fun hlast =>
  h.notMem (by decide) (List.mem_of_getLast? hlast)

lemma valid (h : Token u token) : validToken token = true := by
  rw [validToken, if_neg h.no_newline]
  exact h.shape

lemma validated (h : Token u token) (kind : String) : validateToken u token kind = .ok token :=
  (validateToken_ok_iff u token kind token).mpr ⟨rfl, h.valid, h.free⟩

/-- A token in a position of an address is a literal. -/
lemma parsePart_eq (h : Token u token) (raw : String) :
    parsePart u token raw = .ok (some token) := by
  have hstar : Text.replaceChar '*' "all" token = token :=
    Text.replaceChar_of_notMem (h.notMem (by decide)) _
  have hfree := h.free
  simp only [reservedTokens, List.mem_cons, List.not_mem_nil, or_false, not_or] at hfree
  simp only [parsePart, h.strip_eq, hstar, if_neg h.nonempty, if_neg hfree.1, retiredTokens,
    List.mem_singleton, if_neg hfree.2]

end Token

/-- What is accepted as a token is one, or it is one followed by a newline. -/
theorem validToken_cases {value : String} (h : validToken value = true) :
    isToken value.toList = true ∨
      ∃ body : String, value = body ++ "\n" ∧ isToken body.toList = true := by
  unfold validToken at h
  split_ifs at h with hlast
  · refine Or.inr ⟨String.ofList value.toList.dropLast, ?_, by rwa [String.toList_ofList]⟩
    have hvalue := List.dropLast_append_getLast? '\n' hlast
    apply String.toList_injective
    rw [String.toList_append, String.toList_ofList]
    exact hvalue.symm
  · exact Or.inl h

/-! ## Writing an address, and reading it back -/

section
variable (u : Unicode)

lemma parsePart_all (raw : String) : parsePart u "all" raw = .ok none := by
  have hlower : u.lower "all" = "all" := u.lower_plain "all" (by decide)
  have hstrip : Text.strip "all" = "all" := by decide
  have hstar : Text.replaceChar '*' "all" "all" = "all" := by decide
  simp only [parsePart, hstrip, hstar, if_neg (by decide : ¬ "all" = ""), hlower, if_true]

/-- White space around a position does not matter. -/
lemma parsePart_congr {part part' : String} (h : Text.strip part = Text.strip part')
    (raw : String) : parsePart u part raw = parsePart u part' raw := by
  simp only [parsePart, h]

lemma parseParts_congr {p p' a a' r r' : String} (hp : Text.strip p = Text.strip p')
    (ha : Text.strip a = Text.strip a') (hr : Text.strip r = Text.strip r') (raw : String) :
    parseParts u p a r raw = parseParts u p' a' r' raw := by
  simp only [parseParts, parsePart_congr u hp, parsePart_congr u ha, parsePart_congr u hr]

lemma isSpace_slash : isSpace '/' = false := by decide

lemma dropWhile_subset {cs : List Char} {c : Char} (hc : c ∉ cs) : c ∉ cs.dropWhile isSpace :=
  fun hmem => hc ((List.dropWhile_sublist isSpace).subset hmem)

lemma dropWhile_reverse_subset {cs : List Char} {c : Char} (hc : c ∉ cs) :
    c ∉ (cs.reverse.dropWhile isSpace).reverse := by
  rw [List.mem_reverse]
  exact dropWhile_subset fun hmem => hc (List.mem_reverse.mp hmem)

/-- An address of two positions. -/
lemma parseAddress_two {p a : String} (hp : '/' ∉ p.toList) (ha : '/' ∉ a.toList) :
    ∃ raw, parseAddress u (p ++ "/" ++ a) = parseParts u p a "all" raw := by
  have htoList : (p ++ "/" ++ a).toList = p.toList ++ '/' :: a.toList := by simp
  have hsplit : Text.split '/' (Text.strip (p ++ "/" ++ a)) =
      [String.ofList (p.toList.dropWhile isSpace),
        String.ofList (a.toList.reverse.dropWhile isSpace).reverse] := by
    rw [Text.split, Text.strip_toList, htoList, Text.stripList_append_cons isSpace_slash,
      Text.splitList_append (dropWhile_subset hp),
      Text.splitList_of_notMem (dropWhile_reverse_subset ha)]
    rfl
  refine ⟨Text.strip (p ++ "/" ++ a), ?_⟩
  simp only [parseAddress, hsplit, List.length_cons, List.length_nil]
  rw [if_neg (by omega)]
  refine parseParts_congr u ?_ ?_ rfl _
  · simp only [Text.strip, List.getD_cons_zero, String.toList_ofList, Text.stripList_dropWhile]
  · simp only [Text.strip, List.getD_cons_succ, List.getD_cons_zero, String.toList_ofList,
      Text.stripList_dropWhile_reverse]

/-- An address of three positions. -/
lemma parseAddress_three {p a r : String} (hp : '/' ∉ p.toList) (ha : '/' ∉ a.toList)
    (hr : '/' ∉ r.toList) :
    ∃ raw, parseAddress u (p ++ "/" ++ a ++ "/" ++ r) = parseParts u p a r raw := by
  have htoList : (p ++ "/" ++ a ++ "/" ++ r).toList =
      (p.toList ++ '/' :: a.toList) ++ '/' :: r.toList := by simp
  have hsplit : Text.split '/' (Text.strip (p ++ "/" ++ a ++ "/" ++ r)) =
      [String.ofList (p.toList.dropWhile isSpace), a,
        String.ofList (r.toList.reverse.dropWhile isSpace).reverse] := by
    rw [Text.split, Text.strip_toList, htoList, Text.stripList_append_cons isSpace_slash,
      Text.dropWhile_append_cons isSpace_slash, List.append_assoc, List.cons_append,
      Text.splitList_append (dropWhile_subset hp), Text.splitList_append ha,
      Text.splitList_of_notMem (dropWhile_reverse_subset hr)]
    simp
  refine ⟨Text.strip (p ++ "/" ++ a ++ "/" ++ r), ?_⟩
  simp only [parseAddress, hsplit, List.length_cons, List.length_nil]
  rw [if_neg (by omega)]
  refine parseParts_congr u ?_ rfl ?_ _
  · simp only [Text.strip, List.getD_cons_zero, String.toList_ofList, Text.stripList_dropWhile]
  · simp only [Text.strip, List.getD_cons_succ, List.getD_cons_zero, String.toList_ofList,
      Text.stripList_dropWhile_reverse]

end

section
variable {u : Unicode}

/-- What stands in a position is a token, or a newline follows it. -/
lemma validToken_iff {value : String} (hfree : u.lower value ∉ reservedTokens)
    (hvalid : validToken value = true) :
    Token u value ↔ value.toList.getLast? ≠ some '\n' := by
  constructor
  · exact Token.no_newline
  · intro hlast
    rw [validToken, if_neg hlast] at hvalid
    exact ⟨hvalid, hfree⟩

lemma slash_notMem {value : String} (hvalid : validToken value = true) : '/' ∉ value.toList := by
  intro hmem
  rcases validToken_cases hvalid with hshape | ⟨body, rfl, hshape⟩
  · have hchar := isTokenChar_of_mem hshape hmem
    cases hchar
  · rw [String.toList_append, List.mem_append] at hmem
    rcases hmem with hmem | hmem
    · have hchar := isTokenChar_of_mem hshape hmem
      cases hchar
    · simp at hmem

/-- A position that reads back as it was written has no white space around it. -/
lemma strip_of_parsePart {value raw : String} (hvalid : validToken value = true)
    (h : parsePart u value raw = .ok (some value)) : Text.strip value = value := by
  have hstar : '*' ∉ (Text.strip value).toList := by
    intro hmem
    obtain ⟨before, after, _, _, hvalue⟩ := Text.exists_stripList isSpace value.toList
    have hin : '*' ∈ value.toList := by
      rw [hvalue, ← Text.strip_toList]
      exact List.mem_append_left _ (List.mem_append_right _ hmem)
    rcases validToken_cases hvalid with hshape | ⟨body, rfl, hshape⟩
    · have hchar := isTokenChar_of_mem hshape hin
      cases hchar
    · rw [String.toList_append, List.mem_append] at hin
      rcases hin with hin | hin
      · have hchar := isTokenChar_of_mem hshape hin
        cases hchar
      · simp at hin
  have hall : u.lower "all" = "all" := u.lower_plain "all" (by decide)
  have hsame := Text.replaceChar_of_notMem hstar "all"
  unfold parsePart at h
  dsimp only at h
  rw [hsame] at h
  by_cases hempty : Text.strip value = ""
  · rw [if_pos hempty, hall, if_pos rfl] at h
    cases h
  · rw [if_neg hempty] at h
    split_ifs at h
    · cases h
    · exact Option.some.inj (Except.ok.inj h)

lemma strip_ne_of_newline {value : String} (hlast : value.toList.getLast? = some '\n') :
    Text.strip value ≠ value := by
  intro hstrip
  have hspace : isSpace '\n' = true := by decide
  have hlast' : (Text.stripList isSpace value.toList).getLast? = some '\n' := by
    rw [← Text.strip_toList, hstrip]
    exact hlast
  have hkept := Text.getLast_stripList hlast'
  rw [hspace] at hkept
  cases hkept

lemma parsePart_self_iff {value raw : String} (hfree : u.lower value ∉ reservedTokens)
    (hvalid : validToken value = true) :
    parsePart u value raw = .ok (some value) ↔ value.toList.getLast? ≠ some '\n' := by
  constructor
  · exact fun h hlast => strip_ne_of_newline hlast (strip_of_parsePart hvalid h)
  · exact fun hlast => ((validToken_iff hfree hvalid).mpr hlast).parsePart_eq raw

/-- A position that is a literal comes out as that literal. -/
lemma checkPart_eq_some {kind value : String} {part : Option String}
    (h : checkPart (fun token => validateToken u token kind) part = .ok (some value)) :
    part = some value := by
  cases part with
  | none => cases h
  | some token =>
    cases htoken : validateToken u token kind with
    | error e => simp [checkPart, htoken, Except.map] at h
    | ok result =>
      obtain ⟨rfl, _⟩ := (validateToken_ok_iff u token kind result).mp htoken
      simpa [checkPart, htoken, Except.map] using h

/-- The three positions come out as the literals they were written with exactly if none of
them is followed by a newline. -/
lemma parseParts_self_iff {p a r raw : String} {role : Option String}
    (hp : validToken p = true ∧ u.lower p ∉ reservedTokens)
    (ha : validToken a = true ∧ u.lower a ∉ reservedTokens)
    (hr : role = none ∧ r = "all" ∨
      role = some r ∧ validToken r = true ∧ u.lower r ∉ reservedTokens) :
    parseParts u p a r raw = .ok ⟨some p, some a, role⟩ ↔
      ∀ token ∈ p :: a :: role.toList, token.toList.getLast? ≠ some '\n' := by
  have hrole : parsePart u r raw = .ok role ↔ ∀ token ∈ role.toList,
      token.toList.getLast? ≠ some '\n' := by
    rcases hr with ⟨rfl, rfl⟩ | ⟨rfl, hvalid, hfree⟩
    · simp [parsePart_all]
    · rw [parsePart_self_iff hfree hvalid]
      simp
  have hproject : parsePart u p raw = .ok (some p) ↔ _ := parsePart_self_iff hp.2 hp.1
  have hagent : parsePart u a raw = .ok (some a) ↔ _ := parsePart_self_iff ha.2 ha.1
  rw [List.forall_mem_cons, List.forall_mem_cons, ← hrole, ← hproject, ← hagent]
  clear hproject hagent
  constructor
  · intro h
    obtain ⟨project, hproject, h⟩ := bind_eq_ok.mp h
    obtain ⟨agent, hagent, h⟩ := bind_eq_ok.mp h
    obtain ⟨given, hgiven, h⟩ := bind_eq_ok.mp h
    obtain ⟨project', hproject', h⟩ := bind_eq_ok.mp h
    obtain ⟨agent', hagent', h⟩ := bind_eq_ok.mp h
    obtain ⟨given', hgiven', h⟩ := bind_eq_ok.mp h
    cases h
    refine ⟨?_, ?_, ?_⟩
    · rw [hproject, checkPart_eq_some hproject']
    · rw [hagent, checkPart_eq_some hagent']
    · rw [hgiven]
      cases hcase : role with
      | none =>
        subst hcase
        cases given with
        | none => rfl
        | some token =>
          cases htoken : validateRole u token <;>
            simp [checkPart, htoken, Except.map] at hgiven'
      | some value =>
        subst hcase
        rw [checkPart_eq_some hgiven']
  · rintro ⟨hproject, hagent, hgiven⟩
    have hcheck : checkPart (validateRole u) role = .ok role := by
      rcases hr with ⟨rfl, _⟩ | ⟨rfl, hvalid, hfree⟩
      · rfl
      · have hself := (validateToken_ok_iff u r "role" r).mpr ⟨rfl, hvalid, hfree⟩
        simp [checkPart, validateRole, hself, Except.map]
    have hpself := (validateToken_ok_iff u p "project" p).mpr ⟨rfl, hp⟩
    have haself := (validateToken_ok_iff u a "agent id" a).mpr ⟨rfl, ha⟩
    have hpcheck : checkPart (validateProject u) (some p) = .ok (some p) := by
      simp [checkPart, validateProject, hpself, Except.map]
    have hacheck : checkPart (validateAgentId u) (some a) = .ok (some a) := by
      simp [checkPart, validateAgentId, haself, Except.map]
    simp only [parseParts, hproject, hagent, hgiven, ok_bind, hpcheck, hacheck, hcheck, except_pure]

/-- What a written address is made of. -/
lemma formatAddress_ok {project agent text : String} {role : Option String}
    (h : formatAddress u project agent role = .ok text) :
    (validToken project = true ∧ u.lower project ∉ reservedTokens) ∧
      (validToken agent = true ∧ u.lower agent ∉ reservedTokens) ∧
      (givenRole role = none ∧ text = project ++ "/" ++ agent ∨ ∃ given,
        givenRole role = some given ∧ validToken given = true ∧ u.lower given ∉ reservedTokens ∧
          text = project ++ "/" ++ agent ++ "/" ++ given) := by
  obtain ⟨p, hp, hrest⟩ := bind_eq_ok.mp h
  obtain ⟨a, ha, htext⟩ := bind_eq_ok.mp hrest
  obtain ⟨rfl, hp⟩ := (validateToken_ok_iff u _ _ _).mp hp
  obtain ⟨rfl, ha⟩ := (validateToken_ok_iff u _ _ _).mp ha
  refine ⟨hp, ha, ?_⟩
  cases hgiven : givenRole role with
  | none =>
    rw [hgiven] at htext
    cases htext
    exact Or.inl ⟨rfl, rfl⟩
  | some given =>
    rw [hgiven] at htext
    obtain ⟨r, hr, hwritten⟩ := bind_eq_ok.mp htext
    obtain ⟨rfl, hvalid, hfree⟩ := (validateToken_ok_iff u _ _ _).mp hr
    exact Or.inr ⟨_, rfl, hvalid, hfree, (Except.ok.inj hwritten).symm⟩

/-- An address, taken apart at its slashes, begins with the project and the agent. -/
lemma split_formatAddress {project agent text : String} {role : Option String}
    (h : formatAddress u project agent role = .ok text) :
    ∃ rest, Text.split '/' text = project :: agent :: rest := by
  obtain ⟨hp, ha, hrole⟩ := formatAddress_ok h
  have hslash : "/".toList = ['/'] := rfl
  rcases hrole with ⟨_, rfl⟩ | ⟨given, _, _, _, rfl⟩
  · refine ⟨[], ?_⟩
    rw [Text.split, String.toList_append, String.toList_append, hslash, List.append_assoc,
      List.singleton_append, Text.splitList_append (slash_notMem hp.1),
      Text.splitList_of_notMem (slash_notMem ha.1)]
    simp
  · refine ⟨(Text.splitList '/' given.toList).map String.ofList, ?_⟩
    rw [Text.split]
    simp only [String.toList_append, hslash, List.append_assoc, List.cons_append, List.nil_append]
    rw [Text.splitList_append (slash_notMem hp.1), Text.splitList_append (slash_notMem ha.1)]
    simp

/-- Addresses that read alike name the same project and the same agent. -/
theorem names_of_address {p p' a a' text : String} {role role' : Option String}
    (h : formatAddress u p a role = .ok text) (h' : formatAddress u p' a' role' = .ok text) :
    (p, a) = (p', a') := by
  obtain ⟨rest, hrest⟩ := split_formatAddress h
  obtain ⟨rest', hrest'⟩ := split_formatAddress h'
  rw [hrest] at hrest'
  simp only [List.cons.injEq] at hrest'
  rw [hrest'.1, hrest'.2.1]

end

/-- An address that was written for an agent is read back as that agent's exactly if none of
its parts is followed by a newline, which the check on tokens lets pass. -/
theorem address_round_trip_iff (u : Unicode) (project agent text : String) (role : Option String)
    (h : formatAddress u project agent role = .ok text) :
    parseAddress u text = .ok ⟨some project, some agent, givenRole role⟩ ↔
      ∀ token ∈ project :: agent :: (givenRole role).toList,
        token.toList.getLast? ≠ some '\n' := by
  obtain ⟨hp, ha, hrole⟩ := formatAddress_ok h
  rcases hrole with ⟨hnone, rfl⟩ | ⟨given, hgiven, hvalid, hfree, rfl⟩
  · obtain ⟨raw, hparse⟩ := parseAddress_two u (slash_notMem hp.1) (slash_notMem ha.1)
    rw [hparse]
    exact parseParts_self_iff hp ha (Or.inl ⟨hnone, rfl⟩)
  · obtain ⟨raw, hparse⟩ := parseAddress_three u (slash_notMem hp.1) (slash_notMem ha.1)
      (slash_notMem hvalid)
    rw [hparse]
    exact parseParts_self_iff hp ha (Or.inr ⟨hgiven, hvalid, hfree⟩)

/-- An agent with a role. -/
theorem address_round_trip_plain :
    parseAddress asciiUnicode "goldberg/claude/host" =
      .ok ⟨some "goldberg", some "claude", some "host"⟩ :=
  (address_round_trip_iff asciiUnicode "goldberg" "claude" "goldberg/claude/host" (some "host")
    (by decide +kernel)).mpr (by decide +kernel)

/-! ## What a destination names -/

section
variable {u : Unicode}

/-- What a position is read as does not end in white space. -/
lemma last_of_parsePart {part raw value : String}
    (h : parsePart u part raw = .ok (some value)) : value.toList.getLast? ≠ some '\n' := by
  have hreplaced : (Text.replaceChar '*' "all" (Text.strip part)).toList.getLast? ≠ some '\n' := by
    intro hlast
    rw [Text.replaceChar, String.toList_ofList, Text.strip_toList] at hlast
    rcases List.eq_nil_or_concat' (Text.stripList isSpace part.toList) with hnil | ⟨init, d, hd⟩
    · simp [hnil] at hlast
    · have hlast' : (Text.stripList isSpace part.toList).getLast? = some d := by
        rw [hd]
        simp
      have hspace := Text.getLast_stripList hlast'
      rw [hd, List.flatMap_append, List.flatMap_singleton] at hlast
      split_ifs at hlast with hstar
      · simp at hlast
      · simp only [List.getLast?_append, List.getLast?_singleton, Option.some_or,
          Option.some.injEq] at hlast
        rw [hlast] at hspace
        exact absurd hspace (by decide)
  unfold parsePart at h
  dsimp only at h
  generalize Text.replaceChar '*' "all" (Text.strip part) = replaced at h hreplaced
  have hall : u.lower "all" = "all" := u.lower_plain "all" (by decide)
  by_cases hempty : replaced = ""
  · rw [if_pos hempty, hall, if_pos rfl] at h
    cases h
  · rw [if_neg hempty] at h
    split_ifs at h
    · cases h
    · rw [← Option.some.inj (Except.ok.inj h)]
      exact hreplaced

/-- A position of a destination is left open or holds a token. -/
lemma token_of_checkPart {part raw kind value : String} {parsed : Option String}
    (hpart : parsePart u part raw = .ok parsed)
    (hcheck : checkPart (fun token => validateToken u token kind) parsed = .ok (some value)) :
    Token u value := by
  obtain rfl := checkPart_eq_some hcheck
  have hvalid : validToken value = true ∧ u.lower value ∉ reservedTokens := by
    cases hvalue : validateToken u value kind with
    | error e => simp [checkPart, hvalue, Except.map] at hcheck
    | ok result => exact ((validateToken_ok_iff u value kind result).mp hvalue).2
  exact (validToken_iff hvalid.2 hvalid.1).mpr (last_of_parsePart hpart)

/-- What a destination names are tokens. -/
theorem parseAddress_tokens {text : String} {target : Target}
    (h : parseAddress u text = .ok target) : ∀ value,
    (target.project = some value ∨ target.agent = some value ∨ target.role = some value) →
      Token u value := by
  unfold parseAddress at h
  dsimp only at h
  split_ifs at h
  obtain ⟨project, hproject, h⟩ := bind_eq_ok.mp h
  obtain ⟨agent, hagent, h⟩ := bind_eq_ok.mp h
  obtain ⟨role, hrole, h⟩ := bind_eq_ok.mp h
  obtain ⟨project', hproject', h⟩ := bind_eq_ok.mp h
  obtain ⟨agent', hagent', h⟩ := bind_eq_ok.mp h
  obtain ⟨role', hrole', h⟩ := bind_eq_ok.mp h
  cases h
  rintro value (rfl | rfl | rfl)
  · exact token_of_checkPart hproject hproject'
  · exact token_of_checkPart hagent hagent'
  · exact token_of_checkPart hrole hrole'

/-- A destination that names one agent can be written out, and reads back as itself. -/
theorem format_of_specific {text p a : String} {target : Target}
    (h : parseAddress u text = .ok target) (hp : target.project = some p)
    (ha : target.agent = some a) : ∃ address,
    formatAddress u p a target.role = .ok address ∧ parseAddress u address = .ok target := by
  have htokens := parseAddress_tokens h
  have hptoken := htokens p (Or.inl hp)
  have hatoken := htokens a (Or.inr (Or.inl ha))
  obtain ⟨project, agent, role⟩ := target
  cases hp
  cases ha
  have hformat : ∃ address, formatAddress u p a role = .ok address := by
    cases role with
    | none =>
      exact ⟨p ++ "/" ++ a, by
        simp [formatAddress, validateProject, validateAgentId, hptoken.validated,
          hatoken.validated, givenRole]⟩
    | some r =>
      have hrtoken := htokens r (Or.inr (Or.inr rfl))
      exact ⟨p ++ "/" ++ a ++ "/" ++ r, by
        simp [formatAddress, validateProject, validateAgentId, validateRole, hptoken.validated,
          hatoken.validated, hrtoken.validated, givenRole, Text.orNone, hrtoken.nonempty]⟩
  have hgiven : givenRole role = role := by
    cases role with
    | none => rfl
    | some r =>
      have hrtoken := htokens r (Or.inr (Or.inr rfl))
      simp [givenRole, Text.orNone, hrtoken.nonempty]
  obtain ⟨address, haddress⟩ := hformat
  have hiff := address_round_trip_iff u p a address role haddress
  rw [hgiven] at hiff
  refine ⟨address, haddress, hiff.mpr ?_⟩
  intro token htoken
  simp only [List.mem_cons, Option.mem_toList] at htoken
  rcases htoken with rfl | rfl | hrole
  · exact hptoken.no_newline
  · exact hatoken.no_newline
  · exact (htokens token (Or.inr (Or.inr hrole))).no_newline

end

end AgentMailbox.Old
