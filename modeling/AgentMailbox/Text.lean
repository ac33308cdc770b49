import Mathlib.Data.String.Basic
import Mathlib.Data.List.TakeWhile
import Mathlib.Data.List.Basic

/-!
# Text

The string operations the engine uses, on sequences of Unicode code points.
Trimming and splitting depend on finitely many characters and are written out.
Case, decomposition and printability depend on the Unicode character database,
which enters as a structure: the only property any proof uses is that lower-casing
fixes text that is already plain lower-case ASCII.
-/
namespace AgentMailbox

/-- Lower-case ASCII letters, digits and the underscore. -/
def isPlain (c : Char) : Bool :=
  ('a' ≤ c && c ≤ 'z') || ('0' ≤ c && c ≤ '9') || c = '_'

/-- Text over `isPlain` only. -/
def Plain (s : String) : Prop := ∀ c ∈ s.toList, isPlain c = true

instance (s : String) : Decidable (Plain s) := List.decidableBAll _ s.toList

/-- What the interpreter takes from the Unicode character database. -/
structure Unicode where
  lower : String → String
  nfkd : String → String
  combining : Char → Bool
  printable : Char → Bool
  lower_plain : ∀ s, Plain s → lower s = s

/-- The code points for which `str.isspace` holds. -/
def isSpace (c : Char) : Bool :=
  (9 ≤ c.toNat && c.toNat ≤ 13) || (28 ≤ c.toNat && c.toNat ≤ 32) || c.toNat = 0x85 ||
    c.toNat = 0xa0 || c.toNat = 0x1680 || (0x2000 ≤ c.toNat && c.toNat ≤ 0x200a) ||
    c.toNat = 0x2028 || c.toNat = 0x2029 || c.toNat = 0x202f || c.toNat = 0x205f ||
    c.toNat = 0x3000

namespace Text

/-- Drop the characters satisfying `p` from both ends. -/
def stripList (p : Char → Bool) (cs : List Char) : List Char :=
  ((cs.dropWhile p).reverse.dropWhile p).reverse

/-- `s.strip()`. -/
def strip (s : String) : String := String.ofList (stripList isSpace s.toList)

/-- `s.strip(c)` for a single character. -/
def stripChar (c : Char) (s : String) : String := String.ofList (stripList (· = c) s.toList)

/-- `s.rstrip(c)` for a single character. -/
def rstripChar (c : Char) (s : String) : String :=
  String.ofList (s.toList.reverse.dropWhile (· = c)).reverse

/-- `s.partition(c)` for a single character: before, whether it occurs, after. -/
def partition (c : Char) (s : String) : String × Bool × String :=
  (String.ofList (s.toList.takeWhile (· ≠ c)), s.toList.contains c,
    String.ofList (s.toList.dropWhile (· ≠ c)).tail)

def startsWith (s start : String) : Bool := start.toList.isPrefixOf s.toList

/-- `part in s`. -/
def isIn (part s : String) : Bool := s.toList.tails.any part.toList.isPrefixOf

/-- `s[n:]`. -/
def drop (n : ℕ) (s : String) : String := String.ofList (s.toList.drop n)

/-- `s or None`. -/
def orNone (s : String) : Option String := if s = "" then none else some s

/-- `separator.join(parts)`. -/
def join (separator : String) : List String → String
  | [] => ""
  | [s] => s
  | s :: rest => s ++ separator ++ join separator rest

/-- `n` in lower-case hexadecimal, padded with zeros to `width`. -/
def hex (width n : ℕ) : String :=
  let digits := Nat.toDigits 16 n
  String.ofList (List.replicate (width - digits.length) '0' ++ digits)

def escapeChar (u : Unicode) (quote c : Char) : String :=
  if c = quote || c = '\\' then String.ofList ['\\', c]
  else if c = '\t' then "\\t"
  else if c = '\n' then "\\n"
  else if c = '\r' then "\\r"
  else if c.toNat < 32 || c.toNat = 127 then "\\x" ++ hex 2 c.toNat
  else if c.toNat < 127 || u.printable c then String.ofList [c]
  else if c.toNat < 0x100 then "\\x" ++ hex 2 c.toNat
  else if c.toNat < 0x10000 then "\\u" ++ hex 4 c.toNat
  else "\\U" ++ hex 8 c.toNat

/-- `repr(s)`: single quotes, unless the text has those and no double quotes. -/
def repr (u : Unicode) (s : String) : String :=
  let quote := if s.toList.contains '\'' && !s.toList.contains '"' then '"' else '\''
  String.ofList [quote] ++ String.join (s.toList.map (escapeChar u quote)) ++
    String.ofList [quote]

lemma dropWhile_of_head {p : Char → Bool} {cs : List Char} (h : ∀ c ∈ cs, p c = false) :
    cs.dropWhile p = cs := by
  cases cs with
  | nil => rfl
  | cons c cs => simp [h c (by simp)]

lemma stripList_of_forall {p : Char → Bool} {cs : List Char} (h : ∀ c ∈ cs, p c = false) :
    stripList p cs = cs := by
  unfold stripList
  rw [dropWhile_of_head h, dropWhile_of_head (by simpa using h), List.reverse_reverse]

lemma dropWhile_append_of_all {p : Char → Bool} {pad cs : List Char} (h : ∀ c ∈ pad, p c = true) :
    (pad ++ cs).dropWhile p = cs.dropWhile p := by
  induction pad with
  | nil => rfl
  | cons c pad ih =>
    rw [List.cons_append, List.dropWhile_cons_of_pos (h c List.mem_cons_self)]
    exact ih fun c hc => h c (List.mem_cons_of_mem _ hc)

lemma dropWhile_append_cons {p : Char → Bool} {c : Char} (hc : p c = false) (xs ys : List Char) :
    (xs ++ c :: ys).dropWhile p = xs.dropWhile p ++ c :: ys := by
  induction xs with
  | nil => simp [hc]
  | cons x xs ih =>
    by_cases hx : p x = true
    · rw [List.cons_append, List.dropWhile_cons_of_pos hx, List.dropWhile_cons_of_pos hx, ih]
    · rw [List.cons_append, List.dropWhile_cons_of_neg hx, List.dropWhile_cons_of_neg hx]
      rfl

lemma stripList_append_left {p : Char → Bool} {pad cs : List Char} (h : ∀ c ∈ pad, p c = true) :
    stripList p (pad ++ cs) = stripList p cs := by
  unfold stripList
  rw [dropWhile_append_of_all h]

lemma stripList_append_right {p : Char → Bool} {pad cs : List Char} (h : ∀ c ∈ pad, p c = true) :
    stripList p (cs ++ pad) = stripList p cs := by
  have hpad : pad.dropWhile p = [] := List.dropWhile_eq_nil_iff.mpr h
  unfold stripList
  rw [List.dropWhile_append]
  split_ifs with hempty
  · rw [List.isEmpty_iff.mp hempty, hpad]
  · rw [List.reverse_append, dropWhile_append_of_all (by simpa using h)]

/-- What is stripped away: the padding at both ends. -/
lemma exists_stripList (p : Char → Bool) (cs : List Char) :
    ∃ before after, (∀ c ∈ before, p c = true) ∧ (∀ c ∈ after, p c = true) ∧
      cs = before ++ stripList p cs ++ after := by
  refine ⟨cs.takeWhile p, ((cs.dropWhile p).reverse.takeWhile p).reverse, ?_, ?_, ?_⟩
  · exact fun c hc => List.mem_takeWhile_imp hc
  · exact fun c hc => List.mem_takeWhile_imp (List.mem_reverse.mp hc)
  · unfold stripList
    rw [List.append_assoc, ← List.reverse_append, List.takeWhile_append_dropWhile,
      List.reverse_reverse, List.takeWhile_append_dropWhile]

/-- Stripping around a character that is kept. -/
lemma stripList_append_cons {p : Char → Bool} {c : Char} (hc : p c = false) (xs ys : List Char) :
    stripList p (xs ++ c :: ys) =
      xs.dropWhile p ++ c :: (ys.reverse.dropWhile p).reverse := by
  unfold stripList
  rw [dropWhile_append_cons hc, List.reverse_append, List.reverse_cons, List.append_assoc,
    List.singleton_append, dropWhile_append_cons hc, List.reverse_append, List.reverse_cons,
    List.reverse_reverse, List.append_assoc, List.singleton_append]

lemma stripList_dropWhile (p : Char → Bool) (cs : List Char) :
    stripList p (cs.dropWhile p) = stripList p cs := by
  conv_rhs => rw [← List.takeWhile_append_dropWhile (p := p) (l := cs)]
  exact (stripList_append_left fun c hc => List.mem_takeWhile_imp hc).symm

lemma stripList_dropWhile_reverse (p : Char → Bool) (cs : List Char) :
    stripList p (cs.reverse.dropWhile p).reverse = stripList p cs := by
  have hsplit : cs = (cs.reverse.dropWhile p).reverse ++ (cs.reverse.takeWhile p).reverse := by
    rw [← List.reverse_append, List.takeWhile_append_dropWhile, List.reverse_reverse]
  conv_rhs => rw [hsplit]
  exact (stripList_append_right fun c hc => List.mem_takeWhile_imp (List.mem_reverse.mp hc)).symm

lemma dropWhile_eq_self {p : Char → Bool} {cs : List Char} (h : ∀ c ∈ cs.head?, p c = false) :
    cs.dropWhile p = cs := by
  cases cs with
  | nil => rfl
  | cons c cs => exact List.dropWhile_cons_of_neg (by simp [h c rfl])

/-- Text is stripped when it neither starts nor ends with what is stripped. -/
lemma stripList_eq_self {p : Char → Bool} {cs : List Char} (hhead : ∀ c ∈ cs.head?, p c = false)
    (hlast : ∀ c ∈ cs.getLast?, p c = false) : stripList p cs = cs := by
  unfold stripList
  rw [dropWhile_eq_self hhead, dropWhile_eq_self (by simpa using hlast), List.reverse_reverse]

lemma head_dropWhile {p : Char → Bool} {cs : List Char} {c : Char}
    (h : (cs.dropWhile p).head? = some c) : p c = false := by
  have hne : cs.dropWhile p ≠ [] := fun hnil => by simp [hnil] at h
  have hnot := List.head_dropWhile_not p hne
  rw [List.head?_eq_some_head hne, Option.some.injEq] at h
  rwa [← h]

lemma head_stripList {p : Char → Bool} {cs : List Char} {c : Char}
    (h : (stripList p cs).head? = some c) : p c = false := by
  have hsplit : cs.dropWhile p = stripList p cs ++
      ((cs.dropWhile p).reverse.takeWhile p).reverse := by
    unfold stripList
    rw [← List.reverse_append, List.takeWhile_append_dropWhile, List.reverse_reverse]
  have hhead : (cs.dropWhile p).head? = some c := by
    rw [hsplit, List.head?_append, h]
    rfl
  exact head_dropWhile hhead

lemma getLast_stripList {p : Char → Bool} {cs : List Char} {c : Char}
    (h : (stripList p cs).getLast? = some c) : p c = false := by
  unfold stripList at h
  rw [List.getLast?_reverse] at h
  exact head_dropWhile h

/-- `'@'` is not white space. -/
lemma isSpace_at : isSpace '@' = false := by decide

lemma strip_toList (s : String) : (strip s).toList = stripList isSpace s.toList :=
  String.toList_ofList

lemma strip_strip (s : String) : strip (strip s) = strip s := by
  unfold strip
  rw [String.toList_ofList, stripList_eq_self (fun _ => head_stripList) fun _ => getLast_stripList]

/-- White space around a text is stripped. -/
lemma strip_padded {before after : String} (hbefore : ∀ c ∈ before.toList, isSpace c = true)
    (hafter : ∀ c ∈ after.toList, isSpace c = true) (s : String) :
    strip (before ++ s ++ after) = strip s := by
  unfold strip
  rw [String.toList_append, String.toList_append, stripList_append_right hafter,
    stripList_append_left hbefore]

lemma count_strip {c : Char} (hc : isSpace c = false) (s : String) :
    (strip s).toList.count c = s.toList.count c := by
  obtain ⟨before, after, hbefore, hafter, hs⟩ := exists_stripList isSpace s.toList
  have hnone : ∀ pad : List Char, (∀ d ∈ pad, isSpace d = true) → pad.count c = 0 := by
    intro pad hpad
    apply List.count_eq_zero_of_not_mem
    intro hmem
    simp [hpad c hmem] at hc
  rw [strip_toList]
  conv_rhs => rw [hs]
  rw [List.count_append, List.count_append, hnone before hbefore, hnone after hafter]
  omega

lemma partition_of_notMem {c : Char} {s : String} (h : c ∉ s.toList) :
    partition c s = (s, false, "") := by
  have hne : ∀ d ∈ s.toList, (d ≠ c : Bool) = true := by
    intro d hd
    exact decide_eq_true fun heq => h (heq ▸ hd)
  have htake : s.toList.takeWhile (· ≠ c) = s.toList := List.takeWhile_eq_self_iff.mpr hne
  have hdrop : s.toList.dropWhile (· ≠ c) = [] := List.dropWhile_eq_nil_iff.mpr hne
  simp only [partition, htake, hdrop, String.ofList_toList]
  simp [h]

end Text

lemma isPlain_range {c : Char} (h : isPlain c = true) :
    (97 ≤ c.toNat ∧ c.toNat ≤ 122) ∨ (48 ≤ c.toNat ∧ c.toNat ≤ 57) ∨ c.toNat = 95 := by
  have hle : ∀ a b : Char, a ≤ b ↔ a.toNat ≤ b.toNat := fun a b => Iff.rfl
  simp only [isPlain, Bool.or_eq_true, Bool.and_eq_true, decide_eq_true_eq, hle] at h
  rcases h with (h | h) | rfl
  · exact Or.inl h
  · exact Or.inr (Or.inl h)
  · exact Or.inr (Or.inr rfl)

/-- A character whose bytes are all plain is one byte long, and plain. -/
lemma isPlain_of_bytes {c : Char}
    (h : ∀ b ∈ String.utf8EncodeChar c, isPlain (Char.ofUInt8 b) = true) : isPlain c = true := by
  have hcode : ∀ n : ℕ, n < 256 → (Char.ofUInt8 (UInt8.ofNat n)).toNat = n := by
    intro n hn
    show (UInt8.ofNat n).toUInt32.toNat = n
    simp only [UInt8.toNat_toUInt32, UInt8.toNat_ofNat']
    omega
  simp only [String.utf8EncodeChar] at h
  have hsize : c.toNat = c.val.toNat := rfl
  split_ifs at h with hone htwo hthree
  · have hc : Char.ofUInt8 (UInt8.ofNat c.val.toNat) = c := by
      apply Char.ext
      apply UInt32.toNat_inj.mp
      exact hcode _ (by omega)
    rw [← hc]
    exact h _ List.mem_cons_self
  -- a longer encoding leads with a byte past the plain range
  all_goals
    have hlead := isPlain_range (h _ List.mem_cons_self)
    rw [hcode _ (by omega)] at hlead
    omega

/-- A text's bytes are those of its characters, one after the other. -/
lemma bytes_eq (s : String) :
    s.toByteArray.data.toList = s.toList.flatMap String.utf8EncodeChar := by
  rw [← String.utf8Encode_toList, List.utf8Encode, List.toList_data_toByteArray]

/-- Text is plain if its bytes are. -/
theorem plain_of_bytes {s : String}
    (h : ∀ b ∈ s.toByteArray.data.toList, isPlain (Char.ofUInt8 b) = true) : Plain s := by
  intro c hc
  apply isPlain_of_bytes
  intro b hb
  apply h
  rw [bytes_eq]
  exact List.mem_flatMap.mpr ⟨c, hc, hb⟩

theorem isSpace_of_isPlain {c : Char} (h : isPlain c = true) : isSpace c = false := by
  have hrange := isPlain_range h
  unfold isSpace
  simp only [Bool.or_eq_false_iff, Bool.and_eq_false_iff, decide_eq_false_iff_not]
  omega

theorem strip_plain {s : String} (h : Plain s) : Text.strip s = s := by
  unfold Text.strip
  rw [Text.stripList_of_forall (fun c hc => isSpace_of_isPlain (h c hc)), String.ofList_toList]

theorem Plain.at_notMem {s : String} (h : Plain s) : '@' ∉ s.toList := by
  intro hmem
  exact absurd (h '@' hmem) (by decide)

lemma toLower_plain {c : Char} (h : isPlain c = true) : c.toLower = c := by
  have hrange := isPlain_range h
  have hupper : ¬ (c.val ≥ 'A'.val ∧ c.val ≤ 'Z'.val) := by
    rintro ⟨hA, hZ⟩
    have hA' : 65 ≤ c.toNat := hA
    have hZ' : c.toNat ≤ 90 := hZ
    omega
  exact dif_neg hupper

lemma toLower_toLower (c : Char) : c.toLower.toLower = c.toLower := by
  by_cases hupper : c.val ≥ 'A'.val ∧ c.val ≤ 'Z'.val
  · have hA : 65 ≤ c.toNat := hupper.1
    have hZ : c.toNat ≤ 90 := hupper.2
    have hlower : c.toLower.toNat = c.toNat + 32 := by
      unfold Char.toLower
      rw [dif_pos hupper]
      show (c.val + 32).toNat = c.val.toNat + 32
      have hsize : c.val.toNat ≤ 90 := hZ
      have hoffset : (32 : UInt32).toNat = 32 := rfl
      rw [UInt32.toNat_add, hoffset]
      exact Nat.mod_eq_of_lt (by omega)
    apply dif_neg
    rintro ⟨_, hle⟩
    have hZ' : c.toLower.toNat ≤ 90 := hle
    omega
  · have hsame : c.toLower = c := dif_neg hupper
    rw [hsame, hsame]

/-- The character database restricted to ASCII, enough to run the engine on
ASCII input. -/
def asciiUnicode : Unicode where
  lower s := String.ofList (s.toList.map Char.toLower)
  nfkd s := s
  combining _ := false
  printable c := 32 ≤ c.toNat && c.toNat < 127
  lower_plain s h := by
    have hmap : s.toList.map Char.toLower = s.toList := by
      refine (List.map_congr_left fun c hc => toLower_plain (h c hc)).trans (List.map_id _)
    rw [hmap, String.ofList_toList]

lemma asciiUnicode_lower_lower (s : String) :
    asciiUnicode.lower (asciiUnicode.lower s) = asciiUnicode.lower s := by
  simp only [asciiUnicode, String.toList_ofList, List.map_map]
  congr 1
  apply List.map_congr_left
  intro c _
  exact toLower_toLower c

end AgentMailbox
