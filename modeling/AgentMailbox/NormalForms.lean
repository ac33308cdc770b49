import AgentMailbox.GrantedNames

/-!
# Normal forms

Runs of separators and underscores become one underscore before other characters are
deleted. A deletion between two underscores brings them together, and nothing looks
at them again: the name that is granted is then not its own normal form.
-/
namespace AgentMailbox

namespace Naming

/-- The lower-cased text, without marks. -/
def folded (u : Unicode) (raw : String) : List Char :=
  (u.lower (String.ofList ((u.nfkd (Text.strip raw)).toList.filter
    (fun c => !u.combining c)))).toList

/-- A character that becomes an underscore, or is one. -/
def isGap (c : Char) : Bool := isSeparator c || c = '_'

/-- A character that normalisation deletes. -/
def isDeleted (c : Char) : Bool := !isGap c && !isPlain c

/-- Somewhere inside, nothing but deleted characters stands between two gaps. -/
def Reopens (cs : List Char) : Prop :=
  ∃ before gap deleted gap' after, cs = before ++ gap :: (deleted ++ gap' :: after) ∧
    isGap gap = true ∧ isGap gap' = true ∧ deleted ≠ [] ∧ (∀ c ∈ deleted, isDeleted c = true) ∧
    (∃ c ∈ before, isAlnum c = true) ∧ ∃ c ∈ after, isAlnum c = true

/-- Two underscores in a row, with a letter or digit somewhere on either side. -/
def Doubled (cs : List Char) : Prop :=
  ∃ before after, cs = before ++ '_' :: '_' :: after ∧
    (∃ c ∈ before, isAlnum c = true) ∧ ∃ c ∈ after, isAlnum c = true

/-! ## Collapsing runs -/

/-- Whether the last character seen satisfies `p`. -/
def endsInRun (p : Char → Bool) (inRun : Bool) (cs : List Char) : Bool :=
  (cs.getLast?.map p).getD inRun

section
variable (p : Char → Bool)

lemma endsInRun_cons (inRun : Bool) (c : Char) (cs : List Char) :
    endsInRun p inRun (c :: cs) = endsInRun p (p c) cs := by
  cases cs with
  | nil => rfl
  | cons d ds =>
    unfold endsInRun
    rw [List.getLast?_cons_cons, List.getLast?_eq_some_getLast (List.cons_ne_nil d ds)]
    rfl

@[simp] lemma endsInRun_concat (inRun : Bool) (cs : List Char) (c : Char) :
    endsInRun p inRun (cs ++ [c]) = p c := by simp [endsInRun]

theorem collapseRuns_append (inRun : Bool) (xs ys : List Char) :
    collapseRuns p inRun (xs ++ ys) =
      collapseRuns p inRun xs ++ collapseRuns p (endsInRun p inRun xs) ys := by
  induction xs generalizing inRun with
  | nil => rfl
  | cons c xs ih =>
    rw [endsInRun_cons, List.cons_append]
    cases hc : p c with
    | true => cases inRun <;> simp [collapseRuns, hc, ih]
    | false => simp [collapseRuns, hc, ih]

/-- What is collapsed to a list in two parts is itself in two parts. -/
theorem collapseRuns_eq_append {inRun : Bool} {cs front back : List Char}
    (h : collapseRuns p inRun cs = front ++ back) :
    ∃ xs ys, cs = xs ++ ys ∧ collapseRuns p inRun xs = front ∧
      collapseRuns p (endsInRun p inRun xs) ys = back := by
  induction cs generalizing inRun front with
  | nil =>
    obtain ⟨rfl, rfl⟩ := List.append_eq_nil_iff.mp h.symm
    exact ⟨[], [], rfl, rfl, rfl⟩
  | cons c cs ih =>
    cases front with
    | nil => exact ⟨[], c :: cs, rfl, rfl, h⟩
    | cons f front =>
      cases hc : p c with
      | true =>
        cases inRun with
        | true =>
          simp only [collapseRuns, hc, if_true] at h
          obtain ⟨xs, ys, rfl, hxs, hys⟩ := ih h
          exact ⟨c :: xs, ys, rfl, by simpa [collapseRuns, hc] using hxs,
            by simpa [endsInRun_cons, hc] using hys⟩
        | false =>
          simp only [collapseRuns, hc, if_true, Bool.false_eq_true, if_false, List.cons_append,
            List.cons.injEq] at h
          obtain ⟨rfl, h⟩ := h
          obtain ⟨xs, ys, rfl, hxs, hys⟩ := ih h
          exact ⟨c :: xs, ys, rfl, by simpa [collapseRuns, hc] using hxs,
            by simpa [endsInRun_cons, hc] using hys⟩
      | false =>
        simp only [collapseRuns, hc, Bool.false_eq_true, if_false, List.cons_append,
          List.cons.injEq] at h
        obtain ⟨rfl, h⟩ := h
        obtain ⟨xs, ys, rfl, hxs, hys⟩ := ih h
        exact ⟨c :: xs, ys, rfl, by simpa [collapseRuns, hc] using hxs,
          by simpa [endsInRun_cons, hc] using hys⟩

/-- A character other than the underscore is in the result when it was kept. -/
lemma mem_collapseRuns {inRun : Bool} {cs : List Char} {c : Char} (hc : c ≠ '_') :
    c ∈ collapseRuns p inRun cs ↔ c ∈ cs ∧ p c = false := by
  induction cs generalizing inRun with
  | nil => simp [collapseRuns]
  | cons d cs ih =>
    cases hd : p d with
    | true =>
      cases inRun <;> simp only [collapseRuns, hd, if_true, Bool.false_eq_true, if_false,
        List.mem_cons, hc, false_or, ih]
      all_goals
        constructor
        · exact fun h => ⟨Or.inr h.1, h.2⟩
        · rintro ⟨rfl | hmem, hp⟩
          · simp [hd] at hp
          · exact ⟨hmem, hp⟩
    | false =>
      simp only [collapseRuns, hd, Bool.false_eq_true, if_false, List.mem_cons, ih]
      constructor
      · rintro (rfl | h)
        · exact ⟨Or.inl rfl, hd⟩
        · exact ⟨Or.inr h.1, h.2⟩
      · rintro ⟨rfl | hmem, hp⟩
        · exact Or.inl rfl
        · exact Or.inr ⟨hmem, hp⟩

/-- Characters outside every run are kept as they are. -/
lemma collapseRuns_of_kept {inRun : Bool} {cs : List Char} (h : ∀ c ∈ cs, p c = false) :
    collapseRuns p inRun cs = cs := by
  induction cs generalizing inRun with
  | nil => rfl
  | cons c cs ih =>
    have hc := h c List.mem_cons_self
    simp only [collapseRuns, hc, Bool.false_eq_true, if_false]
    rw [ih fun d hd => h d (List.mem_cons_of_mem _ hd)]

/-- Without an underscore in the result there was no run. -/
lemma kept_of_collapseRuns {cs : List Char} (h : '_' ∉ collapseRuns p false cs) :
    ∀ c ∈ cs, p c = false := by
  induction cs with
  | nil => exact fun c hc => by cases hc
  | cons d cs ih =>
    cases hd : p d with
    | true => simp [collapseRuns, hd] at h
    | false =>
      simp only [collapseRuns, hd, Bool.false_eq_true, if_false, List.mem_cons, not_or] at h
      intro c hc
      obtain rfl | hc := List.mem_cons.mp hc
      · exact hd
      · exact ih h.2 c hc

variable {p} (hp : p '_' = true)
include hp

/-- Within a run nothing is written until the run ends. -/
lemma head_collapseRuns {cs : List Char} {c : Char} {rest : List Char}
    (h : collapseRuns p true cs = c :: rest) : c ≠ '_' := by
  induction cs with
  | nil => cases h
  | cons d cs ih =>
    cases hd : p d with
    | true =>
      simp only [collapseRuns, hd, if_true] at h
      exact ih h
    | false =>
      simp only [collapseRuns, hd, Bool.false_eq_true, if_false, List.cons.injEq] at h
      rintro rfl
      simp [h.1, hp] at hd

/-- What ends in an underscore came from a text that ends in a run. -/
lemma ends_in_run {inRun : Bool} {cs kept : List Char}
    (h : collapseRuns p inRun cs = kept ++ ['_']) :
    ∃ front gap, cs = front ++ [gap] ∧ p gap = true := by
  obtain rfl | ⟨front, gap, rfl⟩ := cs.eq_nil_or_concat'
  · simp [collapseRuns] at h
  · refine ⟨front, gap, rfl, ?_⟩
    by_contra hgap
    rw [Bool.not_eq_true] at hgap
    rw [collapseRuns_append] at h
    simp only [collapseRuns, hgap, Bool.false_eq_true, if_false] at h
    have hlast := (List.append_inj' h rfl).2
    rw [List.singleton_inj] at hlast
    rw [hlast, hp] at hgap
    cases hgap

omit hp in
/-- After a run, text without an underscore was kept as it was. -/
lemma kept_after_run {cs kept : List Char} (h : collapseRuns p true cs = kept)
    (hkept : '_' ∉ kept) :
    ∃ run, cs = run ++ kept ∧ (∀ c ∈ run, p c = true) ∧ ∀ c ∈ kept, p c = false := by
  induction cs with
  | nil => exact ⟨[], by simpa [collapseRuns] using h, by simp, by simp [← h, collapseRuns]⟩
  | cons d cs ih =>
    cases hd : p d with
    | true =>
      simp only [collapseRuns, hd, if_true] at h
      obtain ⟨run, rfl, hrun, hrest⟩ := ih h
      refine ⟨d :: run, rfl, ?_, hrest⟩
      intro c hc
      obtain rfl | hc := List.mem_cons.mp hc
      · exact hd
      · exact hrun c hc
    | false =>
      simp only [collapseRuns, hd, Bool.false_eq_true, if_false] at h
      subst h
      have hnone := kept_of_collapseRuns p fun hmem => hkept (List.mem_cons_of_mem _ hmem)
      refine ⟨[], ?_, by simp, ?_⟩
      · rw [collapseRuns_of_kept p hnone, List.nil_append]
      · intro c hc
        rw [collapseRuns_of_kept p hnone] at hc
        obtain rfl | hc := List.mem_cons.mp hc
        · exact hd
        · exact hnone c hc

omit hp in
/-- Text outside every run ends no run. -/
lemma endsInRun_of_kept {inRun : Bool} {cs : List Char} (hne : cs ≠ []) (front : List Char)
    (h : ∀ c ∈ cs, p c = false) : endsInRun p inRun (front ++ cs) = false := by
  obtain rfl | ⟨most, last, rfl⟩ := cs.eq_nil_or_concat'
  · exact absurd rfl hne
  · rw [← List.append_assoc, endsInRun_concat]
    exact h last (by simp)

/-- What starts with an underscore came from a text that starts with a run. -/
lemma starts_in_run {cs rest : List Char} (h : collapseRuns p false cs = '_' :: rest) :
    ∃ gap after, cs = gap :: after ∧ p gap = true := by
  cases cs with
  | nil => cases h
  | cons c cs =>
    refine ⟨c, cs, rfl, ?_⟩
    by_contra hc
    rw [Bool.not_eq_true] at hc
    simp only [collapseRuns, hc, Bool.false_eq_true, if_false, List.cons.injEq] at h
    rw [h.1, hp] at hc
    cases hc

/-- Two underscores with text between them that has none came from two runs, with the same
text between them. -/
lemma runs_around {cs front deleted back : List Char} (hnone : '_' ∉ deleted)
    (h : collapseRuns p false cs = (front ++ ['_']) ++ (deleted ++ '_' :: back)) :
    ∃ init gap run gap' after, cs = (init ++ [gap]) ++ (run ++ deleted ++ gap' :: after) ∧
      p gap = true ∧ (∀ c ∈ run, p c = true) ∧ p gap' = true ∧ deleted ≠ [] ∧
      (∀ c ∈ deleted, p c = false) ∧ collapseRuns p false (init ++ [gap]) = front ++ ['_'] ∧
      collapseRuns p false (gap' :: after) = '_' :: back := by
  obtain ⟨xs, ys, rfl, hxs, hys⟩ := collapseRuns_eq_append p h
  obtain ⟨init, gap, rfl, hgap⟩ := ends_in_run hp hxs
  rw [endsInRun_concat, hgap] at hys
  have hne : deleted ≠ [] := by
    rintro rfl
    exact head_collapseRuns hp hys rfl
  obtain ⟨middle, zs, rfl, hmiddle, hzs⟩ := collapseRuns_eq_append p hys
  obtain ⟨run, rfl, hrun, hkept⟩ := kept_after_run hmiddle hnone
  rw [endsInRun_of_kept hne run hkept] at hzs
  obtain ⟨gap', after, rfl, hgap'⟩ := starts_in_run hp hzs
  exact ⟨init, gap, run, gap', after, rfl, hgap, hrun, hgap', hne, hkept, hxs, hzs⟩

omit hp in
/-- A text that ends in a run collapses to one that ends in an underscore. -/
lemma collapseRuns_concat {gap : Char} (hgap : p gap = true) (front : List Char) :
    ∃ kept, collapseRuns p false (front ++ [gap]) = kept ++ ['_'] := by
  induction front using List.reverseRecOn generalizing gap with
  | nil => exact ⟨[], by simp [collapseRuns, hgap]⟩
  | append_singleton front c ih =>
    rw [collapseRuns_append, endsInRun_concat]
    cases hc : p c with
    | true =>
      obtain ⟨kept, hkept⟩ := ih hc
      exact ⟨kept, by simp [collapseRuns, hgap, hkept]⟩
    | false => exact ⟨collapseRuns p false (front ++ [c]), by simp [collapseRuns, hgap]⟩

end

/-! ## What a deletion brings together -/

lemma isGap_underscore : isGap '_' = true := by decide

lemma isAlnum_ne {c : Char} (h : isAlnum c = true) : c ≠ '_' := by
  rintro rfl
  exact absurd h (by decide)

lemma isAlnum_plain {c : Char} (h : isAlnum c = true) : isPlain c = true := by
  simp only [isAlnum, Bool.and_eq_true] at h
  exact h.1

lemma isPlain_not_separator {c : Char} (h : isPlain c = true) : isSeparator c = false := by
  have hspace := isSpace_of_isPlain h
  simp only [isSeparator, hspace, Bool.false_or, Bool.or_eq_false_iff, decide_eq_false_iff_not]
  refine ⟨⟨?_, ?_⟩, ?_⟩
  all_goals
    rintro rfl
    exact absurd h (by decide)

lemma isAlnum_not_gap {c : Char} (h : isAlnum c = true) : isGap c = false := by
  simp only [isGap, isPlain_not_separator (isAlnum_plain h), isAlnum_ne h, decide_false,
    Bool.or_self]

/-- Collapsing separators and then underscores collapses gaps. -/
lemma collapseRuns_collapseRuns {inSeparator inRun : Bool}
    (h : inSeparator = true → inRun = true) (cs : List Char) :
    collapseRuns (· = '_') inRun (collapseRuns isSeparator inSeparator cs) =
      collapseRuns isGap inRun cs := by
  induction cs generalizing inSeparator inRun with
  | nil => rfl
  | cons c cs ih =>
    cases hsep : isSeparator c with
    | true =>
      have hgap : isGap c = true := by simp [isGap, hsep]
      cases inSeparator with
      | true =>
        obtain rfl := h rfl
        simp only [collapseRuns, hsep, hgap, if_true]
        exact ih fun _ => rfl
      | false =>
        simp only [collapseRuns, hsep, hgap, if_true, Bool.false_eq_true, if_false, decide_true]
        rw [ih fun _ => rfl]
    | false =>
      by_cases hc : c = '_'
      · subst hc
        simp only [collapseRuns, hsep, isGap_underscore, decide_true, if_true, Bool.false_eq_true,
          if_false]
        rw [@ih false true (by simp)]
      · have hgap : isGap c = false := by simp [isGap, hsep, hc]
        simp only [collapseRuns, hsep, hgap, hc, decide_false, Bool.false_eq_true, if_false]
        rw [@ih false false (by simp)]

lemma normalize_eq (u : Unicode) (raw : String) :
    normalize u raw = String.ofList (Text.stripList (· = '_')
      ((collapseRuns isGap false (folded u raw)).filter isPlain)) := by
  simp only [normalize, folded, @collapseRuns_collapseRuns false false (by simp)]

lemma notMem_underscore {cs : List Char} (h : ∀ c ∈ cs, ¬ isPlain c = true) : '_' ∉ cs :=
  fun hmem => h '_' hmem (by decide)

/-- The last of the gaps in a row; before it is everything that is not a gap. -/
lemma last_gap {gap : Char} {run : List Char} (hgap : isGap gap = true)
    (hrun : ∀ c ∈ run, isGap c = true) (init : List Char) :
    ∃ init' gap', (init ++ [gap]) ++ run = init' ++ [gap'] ∧ isGap gap' = true ∧
      ∀ c ∈ init ++ [gap], isGap c = false → c ∈ init' := by
  obtain rfl | ⟨run', last, rfl⟩ := run.eq_nil_or_concat'
  · refine ⟨init, gap, by simp, hgap, fun c hc hkept => ?_⟩
    rcases List.mem_append.mp hc with hc | hc
    · exact hc
    · rw [List.mem_singleton.mp hc, hgap] at hkept
      cases hkept
  · exact ⟨init ++ [gap] ++ run', last, by simp, hrun last (by simp),
      fun c hc _ => List.mem_append_left _ hc⟩

/-- Two underscores that come together were two gaps with only deleted characters between. -/
lemma reopens_of_doubled {cs : List Char}
    (h : Doubled ((collapseRuns isGap false cs).filter isPlain)) : Reopens cs := by
  obtain ⟨before, after, heq, ⟨a, ha, hbefore⟩, ⟨b, hb, hafter⟩⟩ := h
  -- Where the two underscores, and what was deleted between them, are in the collapsed text.
  obtain ⟨front, rest, hcollapsed, rfl, hrest⟩ := List.filter_eq_append_iff.mp heq
  obtain ⟨lost, rest', rfl, -, -, hrest'⟩ := List.filter_eq_cons_iff.mp hrest
  obtain ⟨deleted, back, rfl, hdeleted, -, rfl⟩ := List.filter_eq_cons_iff.mp hrest'
  have hsplit : collapseRuns isGap false cs =
      (front ++ lost ++ ['_']) ++ (deleted ++ '_' :: back) := by simp [hcollapsed]
  -- Where they are in the text itself.
  obtain ⟨init, gap, run, gap', after, rfl, hgap, hrun, hgap', hne, hkept, hfront, hback⟩ :=
    runs_around isGap_underscore (notMem_underscore hdeleted) hsplit
  obtain ⟨init', gap'', hinit, hgap'', hsub⟩ := last_gap hgap hrun init
  refine ⟨init', gap'', deleted, gap', after, ?_, hgap'', hgap', hne, ?_, ⟨a, ?_, hbefore⟩,
    ⟨b, ?_, hafter⟩⟩
  · rw [List.append_assoc run, ← List.append_assoc _ run, hinit]
    simp
  · intro c hc
    simp [isDeleted, hkept c hc, hdeleted c hc]
  · have hmem : a ∈ collapseRuns isGap false (init ++ [gap]) := by
      rw [hfront]
      simp [(List.mem_filter.mp ha).1]
    exact hsub a ((mem_collapseRuns isGap (isAlnum_ne hbefore)).mp hmem).1
      (isAlnum_not_gap hbefore)
  · have hmem : b ∈ collapseRuns isGap false (gap' :: after) := by
      rw [hback]
      simp [(List.mem_filter.mp hb).1]
    have hmem' := ((mem_collapseRuns isGap (isAlnum_ne hafter)).mp hmem).1
    obtain rfl | hmem' := List.mem_cons.mp hmem'
    · rw [isAlnum_not_gap hafter] at hgap'
      cases hgap'
    · exact hmem'

lemma doubled_of_reopens {cs : List Char} (h : Reopens cs) :
    Doubled ((collapseRuns isGap false cs).filter isPlain) := by
  obtain ⟨before, gap, deleted, gap', after, rfl, hgap, hgap', hne, hdeleted, ⟨a, ha, hbefore⟩,
    ⟨b, hb, hafter⟩⟩ := h
  have hnot : ∀ c ∈ deleted, isGap c = false ∧ isPlain c = false := by
    intro c hc
    simpa [isDeleted] using hdeleted c hc
  have hends : endsInRun isGap true deleted = false :=
    endsInRun_of_kept hne [] fun c hc => (hnot c hc).1
  have hlost : deleted.filter isPlain = [] := by
    rw [List.filter_eq_nil_iff]
    intro c hc
    simp [(hnot c hc).2]
  obtain ⟨kept, hkept⟩ := collapseRuns_concat hgap before
  have hcollapsed : collapseRuns isGap false (before ++ gap :: (deleted ++ gap' :: after)) =
      kept ++ ['_'] ++ (deleted ++ '_' :: collapseRuns isGap true after) := by
    have hsplit : before ++ gap :: (deleted ++ gap' :: after) =
        (before ++ [gap]) ++ (deleted ++ gap' :: after) := by simp
    rw [hsplit, collapseRuns_append, hkept, endsInRun_concat, hgap, collapseRuns_append, hends,
      collapseRuns_of_kept isGap fun c hc => (hnot c hc).1]
    simp [collapseRuns, hgap']
  refine ⟨kept.filter isPlain, (collapseRuns isGap true after).filter isPlain, ?_,
    ⟨a, ?_, hbefore⟩, ⟨b, ?_, hafter⟩⟩
  · have hunderscore : isPlain '_' = true := by decide
    rw [hcollapsed]
    simp [hlost, hunderscore]
  · have hmem : a ∈ kept ++ ['_'] := by
      rw [← hkept]
      exact (mem_collapseRuns isGap (isAlnum_ne hbefore)).mpr
        ⟨List.mem_append_left _ ha, isAlnum_not_gap hbefore⟩
    rcases List.mem_append.mp hmem with hmem | hmem
    · exact List.mem_filter.mpr ⟨hmem, isAlnum_plain hbefore⟩
    · exact absurd (List.mem_singleton.mp hmem) (isAlnum_ne hbefore)
  · apply List.mem_filter.mpr
    exact ⟨(mem_collapseRuns isGap (isAlnum_ne hafter)).mpr ⟨hb, isAlnum_not_gap hafter⟩,
      isAlnum_plain hafter⟩

/-! ## The second pass -/

lemma length_collapseRuns_le (p : Char → Bool) (inRun : Bool) (cs : List Char) :
    (collapseRuns p inRun cs).length ≤ cs.length := by
  induction cs generalizing inRun with
  | nil => exact le_rfl
  | cons c cs ih =>
    have htrue := ih true
    have hfalse := ih false
    cases hc : p c with
    | true => cases inRun <;> simp only [collapseRuns, hc, if_true, Bool.false_eq_true, if_false,
        List.length_cons] <;> omega
    | false =>
      simp only [collapseRuns, hc, Bool.false_eq_true, if_false, List.length_cons]
      omega

/-- Collapsing underscores changes a text when two of them stand in a row. -/
lemma collapseRuns_eq_self_iff (cs : List Char) :
    collapseRuns (· = '_') false cs = cs ↔
      ¬ ∃ before after, cs = before ++ '_' :: '_' :: after := by
  constructor
  · rintro h ⟨before, after, rfl⟩
    have hlength := congrArg List.length h
    rw [collapseRuns_append, List.length_append, List.length_append] at hlength
    have hbefore := length_collapseRuns_le (· = '_') false before
    have hafter := length_collapseRuns_le (· = '_') true after
    cases hends : endsInRun (· = '_') false before <;>
      simp only [hends, collapseRuns, decide_true, if_true, Bool.false_eq_true, if_false,
        List.length_cons] at hlength <;> omega
  · intro h
    induction cs with
    | nil => rfl
    | cons c cs ih =>
      have hrest := ih fun ⟨before, after, hcs⟩ => h ⟨c :: before, after, by rw [hcs]; rfl⟩
      by_cases hc : c = '_'
      · subst hc
        cases cs with
        | nil => rfl
        | cons d ds =>
          have hd : d ≠ '_' := fun heq => h ⟨[], ds, by rw [heq]; rfl⟩
          simp only [collapseRuns, hd, decide_false, Bool.false_eq_true, if_false] at hrest
          simp only [collapseRuns, hd, decide_true, decide_false, if_true, Bool.false_eq_true,
            if_false, hrest]
      · simp only [collapseRuns, hc, decide_false, Bool.false_eq_true, if_false, hrest]

/-- What is left of a stripped text around two characters that are stripped at the ends
starts and ends with others. -/
lemma kept_around {p : Char → Bool} {cs before after : List Char} {x y : Char} (hx : p x = true)
    (hy : p y = true) (h : Text.stripList p cs = before ++ x :: y :: after) :
    (∃ a before', before = a :: before' ∧ p a = false) ∧
      ∃ after' b, after = after' ++ [b] ∧ p b = false := by
  have hhead : ∀ c, (before ++ x :: y :: after).head? = some c → p c = false :=
    fun c hc => Text.head_stripList (h ▸ hc)
  have hlast : ∀ c, (before ++ x :: y :: after).getLast? = some c → p c = false :=
    fun c hc => Text.getLast_stripList (h ▸ hc)
  constructor
  · cases before with
    | nil =>
      rw [hhead x rfl] at hx
      cases hx
    | cons a before' => exact ⟨a, before', rfl, hhead a rfl⟩
  · obtain rfl | ⟨after', b, rfl⟩ := after.eq_nil_or_concat'
    · rw [hlast y (by simp)] at hy
      cases hy
    · have hend : before ++ x :: y :: (after' ++ [b]) = (before ++ x :: y :: after') ++ [b] := by
        simp
      exact ⟨after', b, rfl, hlast b (by rw [hend, List.getLast?_concat])⟩

/-- Stripping underscores leaves two in a row when there are letters or digits around. -/
lemma doubled_iff_stripped {cs : List Char} (hplain : ∀ c ∈ cs, isPlain c = true) :
    Doubled cs ↔
      ∃ before after, Text.stripList (· = '_') cs = before ++ '_' :: '_' :: after := by
  constructor
  · rintro ⟨before, after, rfl, ⟨a, ha, hbefore⟩, ⟨b, hb, hafter⟩⟩
    obtain ⟨xs, ys, rfl⟩ := List.append_of_mem ha
    obtain ⟨zs, ws, rfl⟩ := List.append_of_mem hb
    have ha' : decide (a = '_') = false := decide_eq_false (isAlnum_ne hbefore)
    have hb' : decide (b = '_') = false := decide_eq_false (isAlnum_ne hafter)
    have hassoc : xs ++ a :: ys ++ '_' :: '_' :: (zs ++ b :: ws) =
        xs ++ a :: ((ys ++ '_' :: '_' :: zs) ++ b :: ws) := by simp
    refine ⟨xs.dropWhile (· = '_') ++ a :: ys,
      zs ++ b :: (ws.reverse.dropWhile (· = '_')).reverse, ?_⟩
    rw [hassoc, Text.stripList_append_cons ha', List.reverse_append, List.reverse_cons,
      List.append_assoc, List.singleton_append, Text.dropWhile_append_cons hb']
    simp
  · rintro ⟨before, after, hstripped⟩
    obtain ⟨pad, pad', -, -, hcs⟩ := Text.exists_stripList (· = '_') cs
    have halnum : ∀ c ∈ Text.stripList (· = '_') cs, c ≠ '_' → isAlnum c = true := by
      intro c hc hne
      simp [isAlnum, hplain c (mem_of_mem_stripList hc), hne]
    obtain ⟨⟨a, before', rfl, ha⟩, after', b, rfl, hb⟩ :=
      kept_around (decide_eq_true rfl) (decide_eq_true rfl) hstripped
    refine ⟨pad ++ a :: before', after' ++ [b] ++ pad', ?_, ⟨a, by simp, ?_⟩, ⟨b, by simp, ?_⟩⟩
    · rw [hstripped] at hcs
      rw [hcs]
      simp
    · exact halnum a (by simp [hstripped]) (of_decide_eq_false ha)
    · exact halnum b (by simp [hstripped]) (of_decide_eq_false hb)

/-- What decomposition and the test for marks do with text that is canonical already. -/
structure PlainFixed (u : Unicode) : Prop where
  nfkd : ∀ s, Plain s → u.nfkd s = s
  combining : ∀ c, isPlain c = true → u.combining c = false

lemma folded_plain {u : Unicode} (hfixed : PlainFixed u) {name : String} (h : Plain name) :
    folded u name = name.toList := by
  have hkept : name.toList.filter (fun c => !u.combining c) = name.toList := by
    rw [List.filter_eq_self]
    intro c hc
    rw [hfixed.combining c (h c hc)]
    rfl
  rw [folded, strip_plain h, hfixed.nfkd name h, hkept, String.ofList_toList, u.lower_plain name h]

/-- Canonical text has no gaps but underscores. -/
lemma isGap_plain {c : Char} (h : isPlain c = true) : isGap c = decide (c = '_') := by
  simp [isGap, isPlain_not_separator h]

lemma collapseRuns_plain {inRun : Bool} {cs : List Char} (h : ∀ c ∈ cs, isPlain c = true) :
    collapseRuns isGap inRun cs = collapseRuns (· = '_') inRun cs := by
  induction cs generalizing inRun with
  | nil => rfl
  | cons c cs ih =>
    have hrest := fun inRun => @ih inRun fun d hd => h d (List.mem_cons_of_mem _ hd)
    simp only [collapseRuns, isGap_plain (h c List.mem_cons_self), hrest]

lemma plain_collapseRuns {p : Char → Bool} {inRun : Bool} {cs : List Char}
    (h : ∀ c ∈ cs, isPlain c = true) : ∀ c ∈ collapseRuns p inRun cs, isPlain c = true := by
  intro c hc
  by_cases hunderscore : c = '_'
  · subst hunderscore
    decide
  · exact h c ((mem_collapseRuns p hunderscore).mp hc).1

/-- On canonical characters the second pass collapses underscores and strips them. -/
lemma normalize_second {u : Unicode} (hfixed : PlainFixed u) {name : String} (h : Plain name) :
    normalize u name =
      String.ofList (Text.stripList (· = '_') (collapseRuns (· = '_') false name.toList)) := by
  have hkept : (collapseRuns (· = '_') false name.toList).filter isPlain =
      collapseRuns (· = '_') false name.toList :=
    List.filter_eq_self.mpr (plain_collapseRuns h)
  rw [normalize_eq, folded_plain hfixed h, collapseRuns_plain h, hkept]

/-- A list that does not grow and is stripped to another of its length is that other. -/
lemma stripped_collapseRuns_iff {p : Char → Bool} {cs : List Char}
    (hstripped : Text.stripList (· = '_') cs = cs) :
    Text.stripList (· = '_') (collapseRuns p false cs) = cs ↔ collapseRuns p false cs = cs := by
  constructor
  · intro h
    have hle := length_collapseRuns_le p false cs
    obtain ⟨pad, pad', -, -, hsplit⟩ :=
      Text.exists_stripList (· = '_') (collapseRuns p false cs)
    rw [h] at hsplit
    have hlength := congrArg List.length hsplit
    rw [List.length_append, List.length_append] at hlength
    obtain rfl := List.eq_nil_of_length_eq_zero (by omega : pad.length = 0)
    obtain rfl := List.eq_nil_of_length_eq_zero (by omega : pad'.length = 0)
    simpa using hsplit
  · intro h
    rw [h, hstripped]

lemma stripList_stripList (p : Char → Bool) (cs : List Char) :
    Text.stripList p (Text.stripList p cs) = Text.stripList p cs :=
  Text.stripList_eq_self (fun _ => Text.head_stripList) fun _ => Text.getLast_stripList

/-- A normal form is its own when nothing inside the text reopens. -/
theorem normalize_normalize_iff {u : Unicode} (hfixed : PlainFixed u) (raw : String) :
    normalize u (normalize u raw) = normalize u raw ↔ ¬ Reopens (folded u raw) := by
  have hnormal : (normalize u raw).toList = Text.stripList (· = '_')
      ((collapseRuns isGap false (folded u raw)).filter isPlain) := by
    rw [normalize_eq, String.toList_ofList]
  have hplain : ∀ c ∈ (collapseRuns isGap false (folded u raw)).filter isPlain,
      isPlain c = true := fun c hc => (List.mem_filter.mp hc).2
  have hdoubled : Reopens (folded u raw) ↔ ∃ before after,
      (normalize u raw).toList = before ++ '_' :: '_' :: after := by
    rw [hnormal, ← doubled_iff_stripped hplain]
    exact ⟨doubled_of_reopens, reopens_of_doubled⟩
  have hstripped : Text.stripList (· = '_') (normalize u raw).toList =
      (normalize u raw).toList := by
    rw [hnormal, stripList_stripList]
  rw [hdoubled, ← collapseRuns_eq_self_iff, ← stripped_collapseRuns_iff hstripped,
    normalize_second hfixed (normalize_plain u raw), ← String.toList_inj, String.toList_ofList]

/-- A granted name is granted again under itself when it is its own normal form. -/
lemma validate_granted_iff {u : Unicode} {raw name : String} (h : validate u raw = .ok name) :
    validate u name = .ok name ↔ normalize u name = name := by
  obtain ⟨rfl, hbounds⟩ := (validate_ok_iff u raw name).mp h
  rw [validate_ok_iff]
  constructor
  · exact fun hname => hname.1.symm
  · intro hfixed
    rw [hfixed]
    exact ⟨rfl, hbounds⟩

end Naming

end AgentMailbox
