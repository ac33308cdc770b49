import Mathlib.Data.List.Basic
import Mathlib.Data.String.Basic

/-!
# Strings and digits as JSON text

A string is written between quotes in printable ASCII, everything else escaped, beyond
the basic plane by a pair of surrogates; a natural number is written in decimal. Each
is read back from the front of a longer text, and what follows is left alone. A string is
read as code points, since an escape may spell a surrogate without its partner.
-/
namespace JsonLexemes

/-! ## Four hexadecimal digits -/

def hexDigit (n : ℕ) : Char := Nat.digitChar (n % 16)

/-- `'{:04x}'.format(n)`, for `n` of at most four digits. -/
def hex4 (n : ℕ) : List Char :=
  [hexDigit (n / 4096), hexDigit (n / 256), hexDigit (n / 16), hexDigit n]

def hexValue (c : Char) : Option ℕ :=
  if '0' ≤ c ∧ c ≤ '9' then some (c.toNat - 48)
  else if 'a' ≤ c ∧ c ≤ 'f' then some (c.toNat - 87)
  else if 'A' ≤ c ∧ c ≤ 'F' then some (c.toNat - 55)
  else none

def readHex4 : List Char → Option (ℕ × List Char)
  | a :: b :: c :: d :: rest => do
    let a ← hexValue a
    let b ← hexValue b
    let c ← hexValue c
    let d ← hexValue d
    return (a * 4096 + b * 256 + c * 16 + d, rest)
  | _ => none

lemma hexValue_hexDigit (n : ℕ) : hexValue (hexDigit n) = some (n % 16) := by
  have hsmall : ∀ m < 16, hexValue (Nat.digitChar m) = some m := by decide
  exact hsmall (n % 16) (Nat.mod_lt n (by decide))

lemma readHex4_hex4 {n : ℕ} (h : n < 0x10000) (rest : List Char) :
    readHex4 (hex4 n ++ rest) = some (n, rest) := by
  show readHex4 (hexDigit (n / 4096) :: hexDigit (n / 256) :: hexDigit (n / 16) :: hexDigit n ::
    rest) = _
  have hvalue : n / 4096 % 16 * 4096 + n / 256 % 16 * 256 + n / 16 % 16 * 16 + n % 16 = n := by
    omega
  simp only [readHex4, hexValue_hexDigit, Option.bind_eq_bind, Option.bind_some, hvalue]
  rfl

/-! ## One character -/

/-- The letter that stands for a character after a backslash. -/
def shortEscape (c : Char) : Option Char :=
  if c = '\\' then some '\\'
  else if c = '"' then some '"'
  else if c = '\x08' then some 'b'
  else if c = '\x0c' then some 'f'
  else if c = '\n' then some 'n'
  else if c = '\r' then some 'r'
  else if c = '\t' then some 't'
  else none

/-- The character that a letter stands for after a backslash. -/
def unescape (e : Char) : Option Char :=
  if e = '"' then some '"'
  else if e = '\\' then some '\\'
  else if e = '/' then some '/'
  else if e = 'b' then some '\x08'
  else if e = 'f' then some '\x0c'
  else if e = 'n' then some '\n'
  else if e = 'r' then some '\r'
  else if e = 't' then some '\t'
  else none

/-- A character, as it is written in a string. -/
def escape (c : Char) : List Char :=
  match shortEscape c with
  | some e => ['\\', e]
  | none =>
    if 0x20 ≤ c.toNat ∧ c.toNat ≤ 0x7e then [c]
    else if c.toNat < 0x10000 then '\\' :: 'u' :: hex4 c.toNat
    else '\\' :: 'u' :: hex4 (0xd800 + (c.toNat - 0x10000) / 0x400) ++
      '\\' :: 'u' :: hex4 (0xdc00 + (c.toNat - 0x10000) % 0x400)

/-- The code point written at the front of the rest of a string. A high surrogate and a low
one after it are one code point; a surrogate without its partner is one by itself. -/
def readChar : List Char → Option (ℕ × List Char)
  | '\\' :: 'u' :: rest => do
    let (n, rest) ← readHex4 rest
    if 0xd800 ≤ n ∧ n ≤ 0xdbff then
      match rest with
      | '\\' :: 'u' :: second => do
        let (m, after) ← readHex4 second
        if 0xdc00 ≤ m ∧ m ≤ 0xdfff then
          return (0x10000 + (n - 0xd800) * 0x400 + (m - 0xdc00), after)
        else return (n, rest)
      | _ => return (n, rest)
    else return (n, rest)
  | '\\' :: e :: rest => (unescape e).map fun c => (c.toNat, rest)
  | c :: rest => if c.toNat < 0x20 then none else some (c.toNat, rest)
  | [] => none

lemma unescape_shortEscape {c e : Char} (h : shortEscape c = some e) :
    unescape e = some c ∧ e ≠ 'u' := by
  unfold shortEscape at h
  split_ifs at h with h1 h2 h3 h4 h5 h6 h7
  all_goals
    cases h
    subst c
    exact ⟨by decide, by decide⟩

lemma readChar_unicode {n : ℕ} (h : n < 0x10000) (hlow : n < 0xd800 ∨ 0xdfff < n)
    (rest : List Char) :
    readChar ('\\' :: 'u' :: (hex4 n ++ rest)) = some (n, rest) := by
  have hhigh : ¬ (0xd800 ≤ n ∧ n ≤ 0xdbff) := by omega
  simp only [readChar, readHex4_hex4 h, Option.bind_eq_bind, Option.bind_some, if_neg hhigh]
  rfl

lemma readChar_pair {v : ℕ} (h : v < 0x100000) (rest : List Char) :
    readChar ('\\' :: 'u' :: (hex4 (0xd800 + v / 0x400) ++
      '\\' :: 'u' :: (hex4 (0xdc00 + v % 0x400) ++ rest))) =
      some (0x10000 + v, rest) := by
  have hn : 0xd800 + v / 0x400 < 0x10000 := by omega
  have hm : 0xdc00 + v % 0x400 < 0x10000 := by omega
  have hhigh : 0xd800 ≤ 0xd800 + v / 0x400 ∧ 0xd800 + v / 0x400 ≤ 0xdbff := by omega
  have hlow : 0xdc00 ≤ 0xdc00 + v % 0x400 ∧ 0xdc00 + v % 0x400 ≤ 0xdfff := by omega
  have hvalue : 0x10000 + (0xd800 + v / 0x400 - 0xd800) * 0x400 +
      (0xdc00 + v % 0x400 - 0xdc00) = 0x10000 + v := by omega
  simp only [readChar, readHex4_hex4 hn, readHex4_hex4 hm, Option.bind_eq_bind, Option.bind_some,
    if_pos hhigh, if_pos hlow, hvalue]
  rfl

lemma readChar_short {e : Char} (h : e ≠ 'u') (rest : List Char) :
    readChar ('\\' :: e :: rest) = (unescape e).map fun c => (c.toNat, rest) := by
  rw [readChar]
  exact h

lemma readChar_plain {c : Char} (h : c ≠ '\\') (rest : List Char) :
    readChar (c :: rest) = if c.toNat < 0x20 then none else some (c.toNat, rest) := by
  unfold readChar
  split <;> simp_all

/-- A written character is read back. -/
theorem readChar_escape (c : Char) (rest : List Char) :
    readChar (escape c ++ rest) = some (c.toNat, rest) := by
  have hvalid : c.toNat < 0xd800 ∨ 0xdfff < c.toNat ∧ c.toNat < 0x110000 := c.valid
  unfold escape
  cases hshort : shortEscape c with
  | some e =>
    obtain ⟨hunescape, hu⟩ := unescape_shortEscape hshort
    show readChar ('\\' :: e :: rest) = _
    rw [readChar_short hu, hunescape]
    rfl
  | none =>
    dsimp only
    split_ifs with hprintable hbasic
    · have hplain : c ≠ '\\' := by
        rintro rfl
        simp [shortEscape] at hshort
      show readChar (c :: rest) = _
      rw [readChar_plain hplain, if_neg (by omega)]
    · exact readChar_unicode hbasic (by omega) rest
    · have hread := readChar_pair (v := c.toNat - 0x10000) (by omega) rest
      rw [Nat.add_sub_cancel' (by omega)] at hread
      rw [List.append_assoc]
      exact hread

/-- A written character does not end the string. -/
lemma escape_head (c : Char) : ∃ d rest, escape c = d :: rest ∧ d ≠ '"' := by
  unfold escape
  cases hshort : shortEscape c with
  | some e => exact ⟨'\\', [e], rfl, by decide⟩
  | none =>
    have hquote : c ≠ '"' := by
      rintro rfl
      simp [shortEscape] at hshort
    dsimp only
    split_ifs
    · exact ⟨c, [], rfl, hquote⟩
    · exact ⟨'\\', _, rfl, by decide⟩
    · exact ⟨'\\', _, rfl, by decide⟩

lemma length_le_escaped (cs : List Char) : cs.length ≤ (cs.flatMap escape).length := by
  induction cs with
  | nil => exact Nat.le_refl _
  | cons c cs ih =>
    obtain ⟨d, rest, hescape, _⟩ := escape_head c
    simp only [List.flatMap_cons, hescape, List.length_append, List.length_cons]
    omega

/-! ## Strings -/

/-- A string in quotes. -/
def quote (cs : List Char) : List Char := '"' :: cs.flatMap escape ++ ['"']

/-- The code points up to the closing quote, at most `fuel` of them, and what follows it. -/
def readString : ℕ → List Char → Option (List ℕ × List Char)
  | _, '"' :: rest => some ([], rest)
  | 0, _ => none
  | fuel + 1, cs => do
    let (n, rest) ← readChar cs
    let (points, rest) ← readString fuel rest
    return (n :: points, rest)

lemma readString_cons {d : Char} {n : ℕ} {tail rest : List Char} (hd : d ≠ '"') (fuel : ℕ)
    (h : readChar (d :: tail) = some (n, rest)) : readString (fuel + 1) (d :: tail) =
      (readString fuel rest).map fun read => (n :: read.1, read.2) := by
  rw [readString, h, Option.bind_eq_bind, Option.bind_some]
  · show (readString fuel rest).bind _ = _
    cases readString fuel rest <;> rfl
  · intro rest' heq
    exact hd (List.cons.inj heq).1

/-- A written string is read back. -/
theorem readString_quote {fuel : ℕ} (cs rest : List Char) (h : cs.length ≤ fuel) :
    readString fuel (cs.flatMap escape ++ '"' :: rest) = some (cs.map Char.toNat, rest) := by
  induction cs generalizing fuel with
  | nil => cases fuel <;> rfl
  | cons c cs ih =>
    obtain ⟨fuel, rfl⟩ : ∃ n, fuel = n + 1 := ⟨fuel - 1, by simp at h; omega⟩
    have hlength : cs.length ≤ fuel := by simpa using h
    obtain ⟨d, tail, hescape, hd⟩ := escape_head c
    have hread := readChar_escape c (cs.flatMap escape ++ '"' :: rest)
    rw [List.flatMap_cons, List.append_assoc]
    rw [hescape] at hread ⊢
    rw [List.cons_append] at hread ⊢
    rw [readString_cons hd fuel hread, ih hlength]
    rfl

/-! ## Digits -/

/-- The digits at the front, and what follows them. -/
def spanDigits (cs : List Char) : List Char × List Char :=
  (cs.takeWhile Char.isDigit, cs.dropWhile Char.isDigit)

/-- What follows a number does not go on with it. -/
def Apart (rest : List Char) : Prop :=
  ∀ c ∈ rest.head?, c.isDigit = false ∧ c ≠ '.' ∧ c ≠ 'e' ∧ c ≠ 'E'

lemma spanDigits_append {ds rest : List Char} (hds : ∀ c ∈ ds, c.isDigit = true)
    (hrest : ∀ c ∈ rest.head?, c.isDigit = false) : spanDigits (ds ++ rest) = (ds, rest) := by
  unfold spanDigits
  rw [List.takeWhile_append_of_pos hds, List.dropWhile_append_of_pos hds]
  cases rest with
  | nil => simp
  | cons c rest =>
    have hc : c.isDigit = false := hrest c rfl
    simp [hc]

lemma toDigits_digits (n : ℕ) : ∀ c ∈ Nat.toDigits 10 n, c.isDigit = true :=
  fun _ hc => Nat.isDigit_of_mem_toDigits (by decide) (by decide) hc

/-- A number other than zero does not start with the digit zero. -/
lemma toDigits_head {n : ℕ} (h : n ≠ 0) : (Nat.toDigits 10 n).head? ≠ some '0' := by
  induction n using Nat.strong_induction_on with
  | _ n ih =>
    by_cases hsmall : n < 10
    · rw [Nat.toDigits_of_lt_base hsmall]
      have hdigit : ∀ m < 10, m ≠ 0 → [Nat.digitChar m].head? ≠ some '0' := by decide
      exact hdigit n hsmall h
    · rw [Nat.toDigits_of_base_le (by decide) (by omega),
        List.head?_append_of_ne_nil _ Nat.toDigits_ne_nil]
      exact ih (n / 10) (by omega) (by omega)

/-! ## Numbers -/

/-- The parts of a number, as they are written. -/
structure NumberText where
  sign : List Char := []
  whole : List Char := []
  fraction : List Char := []
  exponent : List Char := []

namespace NumberText

def text (n : NumberText) : List Char := n.sign ++ n.whole ++ n.fraction ++ n.exponent

/-- Digits, and some. -/
def Digits (cs : List Char) : Prop := cs ≠ [] ∧ ∀ c ∈ cs, c.isDigit = true

/-- A minus sign or none; a zero, or digits that do not start with one; a point with
digits, or nothing; an exponent with a sign and digits, or nothing. -/
structure WellFormed (n : NumberText) : Prop where
  sign : n.sign = [] ∨ n.sign = ['-']
  whole : n.whole = ['0'] ∨ Digits n.whole ∧ n.whole.head? ≠ some '0'
  fraction : n.fraction = [] ∨ ∃ ds, n.fraction = '.' :: ds ∧ Digits ds
  exponent : n.exponent = [] ∨
    ∃ s ds, n.exponent = 'e' :: s :: ds ∧ (s = '+' ∨ s = '-') ∧ Digits ds

/-- A number with neither fraction nor exponent. -/
def IsInt (n : NumberText) : Prop := n.fraction = [] ∧ n.exponent = []

instance (n : NumberText) : Decidable n.IsInt := inferInstanceAs (Decidable (_ ∧ _))

end NumberText

/-- A minus sign, if there is one. -/
def scanSign : List Char → List Char × List Char
  | '-' :: rest => (['-'], rest)
  | rest => ([], rest)

/-- A zero, or digits. -/
def scanWhole : List Char → List Char × List Char
  | '0' :: rest => (['0'], rest)
  | rest => spanDigits rest

/-- A point with digits, or nothing. -/
def scanFraction : List Char → List Char × List Char
  | '.' :: rest =>
    let (ds, after) := spanDigits rest
    if ds = [] then ([], '.' :: rest) else ('.' :: ds, after)
  | rest => ([], rest)

/-- The sign of an exponent, if there is one. -/
def scanExponentSign : List Char → List Char × List Char
  | '+' :: rest => (['+'], rest)
  | '-' :: rest => (['-'], rest)
  | rest => ([], rest)

/-- An exponent with digits, or nothing. -/
def scanExponent : List Char → List Char × List Char
  | e :: rest =>
    let (sign, digits) := scanExponentSign rest
    let (ds, after) := spanDigits digits
    if (e = 'e' ∨ e = 'E') ∧ ds ≠ [] then (e :: sign ++ ds, after) else ([], e :: rest)
  | [] => ([], [])

/-- The longest number at the front, and what follows it. -/
def scanNumber (cs : List Char) : NumberText × List Char :=
  let (sign, rest) := scanSign cs
  let (whole, rest) := scanWhole rest
  let (fraction, rest) := scanFraction rest
  let (exponent, rest) := scanExponent rest
  (⟨sign, whole, fraction, exponent⟩, rest)

section
variable {ds rest : List Char}

lemma scanSign_of_digit {c : Char} (hc : c.isDigit = true) (rest : List Char) :
    scanSign (c :: rest) = ([], c :: rest) := by
  unfold scanSign
  split
  · rename_i heq
    have hminus : c = '-' := (List.cons.inj heq).1
    subst hminus
    simp at hc
  · rfl

lemma scanWhole_of_digits (hds : NumberText.Digits ds) (hhead : ds.head? ≠ some '0')
    (hrest : ∀ c ∈ rest.head?, c.isDigit = false) : scanWhole (ds ++ rest) = (ds, rest) := by
  obtain ⟨d, tail, rfl⟩ := List.exists_cons_of_ne_nil hds.1
  have hzero : d ≠ '0' := fun heq => hhead (congrArg some heq)
  rw [← spanDigits_append hds.2 hrest]
  show scanWhole (d :: (tail ++ rest)) = _
  unfold scanWhole
  split
  · rename_i heq
    exact absurd (List.cons.inj heq).1 hzero
  · rfl

lemma scanFraction_digits (hds : NumberText.Digits ds)
    (hrest : ∀ c ∈ rest.head?, c.isDigit = false) :
    scanFraction ('.' :: (ds ++ rest)) = ('.' :: ds, rest) := by
  simp only [scanFraction, spanDigits_append hds.2 hrest, if_neg hds.1]

lemma scanFraction_none (hrest : ∀ c ∈ rest.head?, c ≠ '.') : scanFraction rest = ([], rest) := by
  unfold scanFraction
  split
  · exact absurd rfl (hrest '.' rfl)
  · rfl

lemma scanExponent_digits {s : Char} (hs : s = '+' ∨ s = '-') (hds : NumberText.Digits ds)
    (hrest : ∀ c ∈ rest.head?, c.isDigit = false) :
    scanExponent ('e' :: s :: (ds ++ rest)) = ('e' :: s :: ds, rest) := by
  have hsign : scanExponentSign (s :: (ds ++ rest)) = ([s], ds ++ rest) := by
    rcases hs with rfl | rfl <;> rfl
  simp only [scanExponent, hsign, spanDigits_append hds.2 hrest]
  exact if_pos ⟨Or.inl trivial, hds.1⟩

lemma scanExponent_none (hrest : ∀ c ∈ rest.head?, c ≠ 'e' ∧ c ≠ 'E') :
    scanExponent rest = ([], rest) := by
  cases rest with
  | nil => rfl
  | cons c rest =>
    obtain ⟨he, hE⟩ := hrest c rfl
    simp only [scanExponent]
    exact if_neg fun h => h.1.elim he hE

end

namespace NumberText.WellFormed

variable {n : NumberText} {rest : List Char}

lemma scanExponent (h : n.WellFormed) (hrest : Apart rest) :
    scanExponent (n.exponent ++ rest) = (n.exponent, rest) := by
  rcases h.exponent with hnone | ⟨s, ds, hexponent, hs, hds⟩
  · rw [hnone]
    exact scanExponent_none fun c hc => (hrest c hc).2.2
  · rw [hexponent]
    exact scanExponent_digits hs hds fun c hc => (hrest c hc).1

lemma apart_exponent (h : n.WellFormed) (hrest : Apart rest) :
    ∀ c ∈ (n.exponent ++ rest).head?, c.isDigit = false ∧ c ≠ '.' := by
  rcases h.exponent with hnone | ⟨s, ds, hexponent, _, _⟩
  · rw [hnone]
    exact fun c hc => ⟨(hrest c hc).1, (hrest c hc).2.1⟩
  · rw [hexponent]
    rintro c hc
    have hc : 'e' = c := Option.some.inj hc
    subst hc
    decide

lemma scanFraction (h : n.WellFormed) (hrest : Apart rest) :
    scanFraction (n.fraction ++ (n.exponent ++ rest)) = (n.fraction, n.exponent ++ rest) := by
  have hhead := h.apart_exponent hrest
  rcases h.fraction with hnone | ⟨ds, hfraction, hds⟩
  · rw [hnone]
    exact scanFraction_none fun c hc => (hhead c hc).2
  · rw [hfraction]
    exact scanFraction_digits hds fun c hc => (hhead c hc).1

lemma apart_fraction (h : n.WellFormed) (hrest : Apart rest) :
    ∀ c ∈ (n.fraction ++ (n.exponent ++ rest)).head?, c.isDigit = false := by
  rcases h.fraction with hnone | ⟨ds, hfraction, _⟩
  · rw [hnone]
    exact fun c hc => (h.apart_exponent hrest c hc).1
  · rw [hfraction]
    rintro c hc
    have hc : '.' = c := Option.some.inj hc
    subst hc
    decide

lemma scanWhole (h : n.WellFormed) (hrest : Apart rest) :
    scanWhole (n.whole ++ (n.fraction ++ (n.exponent ++ rest))) =
      (n.whole, n.fraction ++ (n.exponent ++ rest)) := by
  rcases h.whole with hzero | ⟨hdigits, hhead⟩
  · rw [hzero]
    rfl
  · exact scanWhole_of_digits hdigits hhead (h.apart_fraction hrest)

lemma whole_head (h : n.WellFormed) : ∃ c tail, n.whole = c :: tail ∧ c.isDigit = true := by
  rcases h.whole with hzero | ⟨⟨hne, hdigits⟩, _⟩
  · exact ⟨'0', [], hzero, by decide⟩
  · obtain ⟨c, tail, hwhole⟩ := List.exists_cons_of_ne_nil hne
    exact ⟨c, tail, hwhole, hdigits c (by rw [hwhole]; exact List.mem_cons_self)⟩

lemma scanSign (h : n.WellFormed) (tail : List Char) :
    scanSign (n.sign ++ (n.whole ++ tail)) = (n.sign, n.whole ++ tail) := by
  rcases h.sign with hnone | hminus
  · obtain ⟨c, whole, hwhole, hc⟩ := h.whole_head
    rw [hnone, hwhole]
    exact scanSign_of_digit hc (whole ++ tail)
  · rw [hminus]
    rfl

end NumberText.WellFormed

/-- A written number is read back, when what follows is apart from it. -/
theorem scanNumber_text {n : NumberText} (h : n.WellFormed) {rest : List Char}
    (hrest : Apart rest) : scanNumber (n.text ++ rest) = (n, rest) := by
  have htext : n.text ++ rest =
      n.sign ++ (n.whole ++ (n.fraction ++ (n.exponent ++ rest))) := by
    simp only [NumberText.text, List.append_assoc]
  simp only [htext, scanNumber, h.scanSign, h.scanWhole hrest, h.scanFraction hrest,
    h.scanExponent hrest]

/-- A written number starts with a digit, possibly after a minus sign. -/
lemma NumberText.WellFormed.text_head {n : NumberText} (h : n.WellFormed) :
    ∃ c tail, c.isDigit = true ∧ (n.text = c :: tail ∨ n.text = '-' :: c :: tail) := by
  obtain ⟨c, tail, hwhole, hc⟩ := h.whole_head
  refine ⟨c, tail ++ n.fraction ++ n.exponent, hc, ?_⟩
  rcases h.sign with hnone | hminus
  · left
    simp [text, hnone, hwhole]
  · right
    simp [text, hminus, hwhole]

/-- A natural number in decimal, with a sign or not, is such a number. -/
lemma wellFormed_toDigits (n : ℕ) {sign : List Char} (hsign : sign = [] ∨ sign = ['-']) :
    NumberText.WellFormed { sign, whole := Nat.toDigits 10 n } := by
  refine ⟨hsign, ?_, Or.inl rfl, Or.inl rfl⟩
  by_cases hzero : n = 0
  · left
    subst hzero
    exact Nat.toDigits_zero 10
  · exact Or.inr ⟨⟨Nat.toDigits_ne_nil, toDigits_digits n⟩, toDigits_head hzero⟩

end JsonLexemes
