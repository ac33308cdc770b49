import AgentMailbox.Json
import AgentMailbox.Library.JsonLexemes

/-!
# JSON text

`json.dumps` and `json.loads`, as the columns of a table use them: what is written of a
value is read back as the same value. How a float is written and read is a parameter.
-/
namespace AgentMailbox

open JsonLexemes

/-- The text of a number that has a fraction or an exponent. -/
def FloatShape (cs : List Char) : Prop :=
  ∃ n : NumberText, n.WellFormed ∧ ¬ n.IsInt ∧ cs = n.text

/-- What the interpreter takes for floats: which texts are the `repr` of a finite one, and
the `repr` of `float(text)`. Reading the `repr` of a float gives that float. -/
structure Floats where
  isRepr : String → Bool
  ofText : String → String
  shape : ∀ r, isRepr r = true → FloatShape r.toList
  ofText_repr : ∀ r, isRepr r = true → ofText r = r

namespace Json

/-! ## What a JSON value is -/

mutual
/-- Floats are finite ones, and no object has a key twice. -/
def isValue (floats : Floats) : Json → Bool
  | float r => floats.isRepr r
  | arr items => areValues floats items
  | obj fields => decide (fields.map Prod.fst).Nodup && areFieldValues floats fields
  | null | bool _ | int _ | str _ => true

def areValues (floats : Floats) : List Json → Bool
  | [] => true
  | v :: rest => isValue floats v && areValues floats rest

def areFieldValues (floats : Floats) : List (String × Json) → Bool
  | [] => true
  | (_, v) :: rest => isValue floats v && areFieldValues floats rest
end

/-! ## Writing -/

def writeInt (n : ℤ) : List Char :=
  if n < 0 then '-' :: Nat.toDigits 10 n.natAbs else Nat.toDigits 10 n.natAbs

def writeString (s : String) : List Char := quote s.toList

mutual
def write : Json → List Char
  | null => "null".toList
  | bool true => "true".toList
  | bool false => "false".toList
  | int n => writeInt n
  | float r => r.toList
  | str s => writeString s
  | arr [] => ['[', ']']
  | arr (v :: rest) => '[' :: write v ++ writeItems rest
  | obj [] => ['\x7b', '\x7d']
  | obj ((k, v) :: rest) =>
    '\x7b' :: writeString k ++ ':' :: ' ' :: write v ++ writeFields rest

/-- The items after the first, and the closing bracket. -/
def writeItems : List Json → List Char
  | [] => [']']
  | v :: rest => ',' :: ' ' :: write v ++ writeItems rest

/-- The fields after the first, and the closing brace. -/
def writeFields : List (String × Json) → List Char
  | [] => ['\x7d']
  | (k, v) :: rest => ',' :: ' ' :: writeString k ++ ':' :: ' ' :: write v ++ writeFields rest
end

/-- `json.dumps(v)`. -/
def dumps (v : Json) : Except Raised String :=
  if v.isWritable then .ok (String.ofList v.write)
  else .error tooManyDigits

/-! ## Reading -/

/-- What `json.loads` raises: `JSONDecodeError`, or a `ValueError` about an integer of too
many digits. -/
inductive LoadsError
  | decode
  | digits (n : ℕ)
  deriving DecidableEq, Repr

def isJsonSpace (c : Char) : Bool := c = ' ' || c = '\t' || c = '\n' || c = '\r'

def skipSpace (cs : List Char) : List Char := cs.dropWhile isJsonSpace

/-- `int(text)`. -/
def readInt (n : NumberText) : Except LoadsError Json :=
  if intMaxStrDigits < n.whole.length then .error (.digits n.whole.length)
  else
    let value : ℤ := Nat.ofDigitChars 10 n.whole 0
    .ok (int (if n.sign = [] then value else -value))

/-- A number, which is an integer unless it has a fraction or an exponent. -/
def scanValue (floats : Floats) (cs : List Char) : Except LoadsError (Json × List Char) :=
  let (n, rest) := scanNumber cs
  if n.whole = [] then .error .decode
  else if n.IsInt then do return (← readInt n, rest)
  else .ok (float (floats.ofText (String.ofList n.text)), rest)

/-- A code point as a character. A surrogate is none: it is kept as the replacement
character, so that a string has its length and no more of it is lost. -/
def charOf (n : ℕ) : Char := if n.isValidChar then Char.ofNat n else '\ufffd'

lemma charOf_toNat (c : Char) : charOf c.toNat = c := by
  have hvalid : c.toNat.isValidChar := c.valid
  rw [charOf, if_pos hvalid, Char.ofNat_toNat]

/-- The rest of a string, after its opening quote. -/
def scanString (cs : List Char) : Except LoadsError (String × List Char) :=
  match readString cs.length cs with
  | some (points, rest) => .ok (String.ofList (points.map charOf), rest)
  | none => .error .decode

/-- `dict(pairs)`. -/
def objOf (pairs : List (String × Json)) : Json :=
  obj ((Dict.ofList pairs).entries.map fun entry => (entry.1, entry.2))

mutual
/-- `scan_once`: the value at the front. Among the numbers are `NaN` and the infinities. -/
def scanOnce (floats : Floats) : ℕ → List Char → Except LoadsError (Json × List Char)
  | 0, _ => .error .decode
  | fuel + 1, cs => match cs with
    | '"' :: rest => do
      let (s, rest) ← scanString rest
      return (str s, rest)
    | '\x7b' :: rest => match skipSpace rest with
      | '\x7d' :: rest => .ok (obj [], rest)
      | '"' :: rest => do
        let (pairs, rest) ← scanFields floats fuel rest
        return (objOf pairs, rest)
      | _ => .error .decode
    | '[' :: rest => match skipSpace rest with
      | ']' :: rest => .ok (arr [], rest)
      | rest => do
        let (items, rest) ← scanItems floats fuel rest
        return (arr items, rest)
    | 'n' :: 'u' :: 'l' :: 'l' :: rest => .ok (null, rest)
    | 't' :: 'r' :: 'u' :: 'e' :: rest => .ok (bool true, rest)
    | 'f' :: 'a' :: 'l' :: 's' :: 'e' :: rest => .ok (bool false, rest)
    | 'N' :: 'a' :: 'N' :: rest => .ok (float "nan", rest)
    | 'I' :: 'n' :: 'f' :: 'i' :: 'n' :: 'i' :: 't' :: 'y' :: rest => .ok (float "inf", rest)
    | '-' :: 'I' :: 'n' :: 'f' :: 'i' :: 'n' :: 'i' :: 't' :: 'y' :: rest =>
      .ok (float "-inf", rest)
    | cs => scanValue floats cs

/-- The items of an array up to its closing bracket. -/
def scanItems (floats : Floats) : ℕ → List Char → Except LoadsError (List Json × List Char)
  | 0, _ => .error .decode
  | fuel + 1, cs => do
    let (v, rest) ← scanOnce floats fuel cs
    match skipSpace rest with
    | ']' :: rest => return ([v], rest)
    | ',' :: rest => do
      let (items, rest) ← scanItems floats fuel (skipSpace rest)
      return (v :: items, rest)
    | _ => .error .decode

/-- The fields of an object up to its closing brace, after the first opening quote. -/
def scanFields (floats : Floats) :
    ℕ → List Char → Except LoadsError (List (String × Json) × List Char)
  | 0, _ => .error .decode
  | fuel + 1, cs => do
    let (k, rest) ← scanString cs
    match skipSpace rest with
    | ':' :: rest => do
      let (v, rest) ← scanOnce floats fuel (skipSpace rest)
      match skipSpace rest with
      | '\x7d' :: rest => return ([(k, v)], rest)
      | ',' :: rest => match skipSpace rest with
        | '"' :: rest => do
          let (pairs, rest) ← scanFields floats fuel rest
          return ((k, v) :: pairs, rest)
        | _ => .error .decode
      | _ => .error .decode
    | _ => .error .decode
end

/-- `json.loads(raw)`. Of two steps down at least one passes a character, which bounds the
steps. -/
def loads (floats : Floats) (raw : String) : Except LoadsError Json := do
  let (v, rest) ← scanOnce floats (2 * raw.toList.length + 1) (skipSpace raw.toList)
  if skipSpace rest = [] then return v else .error .decode

/-! ## What is written is read back -/

section
variable (floats : Floats) {rest : List Char}

lemma writeInt_eq (n : ℤ) : ∃ m : NumberText, m.WellFormed ∧ m.IsInt ∧ writeInt n = m.text ∧
    m.whole = Nat.toDigits 10 n.natAbs ∧ (m.sign = [] ↔ ¬ n < 0) := by
  by_cases hneg : n < 0
  · refine ⟨{ sign := ['-'], whole := Nat.toDigits 10 n.natAbs },
      wellFormed_toDigits _ (Or.inr rfl), ⟨rfl, rfl⟩, ?_, rfl, ?_⟩
    · simp [writeInt, hneg, NumberText.text]
    · simp [hneg]
  · refine ⟨{ whole := Nat.toDigits 10 n.natAbs }, wellFormed_toDigits _ (Or.inl rfl),
      ⟨rfl, rfl⟩, ?_, rfl, ?_⟩
    · simp [writeInt, hneg, NumberText.text]
    · simp [hneg]

lemma scanValue_int {n : ℤ} (hwritable : isWritable (int n) = true) (hrest : Apart rest) :
    scanValue floats (writeInt n ++ rest) = .ok (int n, rest) := by
  obtain ⟨m, hm, hint, hwrite, hwhole, hsign⟩ := writeInt_eq n
  have hdigits : ¬ intMaxStrDigits < (Nat.toDigits 10 n.natAbs).length := by
    simpa [isWritable] using hwritable
  have hvalue : (if m.sign = [] then (n.natAbs : ℤ) else -(n.natAbs : ℤ)) = n := by
    by_cases hneg : n < 0
    · rw [if_neg (by rw [hsign]; simpa using hneg)]
      omega
    · rw [if_pos (hsign.mpr hneg)]
      omega
  have hread : readInt m = .ok (int n) := by
    simp only [readInt, hwhole, if_neg hdigits, Nat.ofDigitChars_ten_toDigits, hvalue]
  have hne : ¬ m.whole = [] := by
    rw [hwhole]
    exact Nat.toDigits_ne_nil
  simp only [scanValue, hwrite, scanNumber_text hm hrest, if_neg hne, if_pos hint, hread]
  rfl

lemma scanValue_float {r : String} (hr : floats.isRepr r = true) (hrest : Apart rest) :
    scanValue floats (r.toList ++ rest) = .ok (float r, rest) := by
  obtain ⟨m, hm, hint, htext⟩ := floats.shape r hr
  have hne : ¬ m.whole = [] := by
    obtain ⟨c, tail, hwhole, _⟩ := hm.whole_head
    rw [hwhole]
    exact List.cons_ne_nil _ _
  have hread : floats.ofText (String.ofList m.text) = r := by
    rw [← htext, String.ofList_toList, floats.ofText_repr r hr]
  simp only [scanValue, htext, scanNumber_text hm hrest, if_neg hne, if_neg hint, hread]

variable (rest) in
lemma scanString_write (s : String) :
    scanString (s.toList.flatMap escape ++ '"' :: rest) = .ok (s, rest) := by
  unfold scanString
  have hlength : s.toList.length ≤ (s.toList.flatMap escape ++ '"' :: rest).length := by
    rw [List.length_append]
    exact (length_le_escaped s.toList).trans (Nat.le_add_right _ _)
  have hchars : (s.toList.map Char.toNat).map charOf = s.toList := by
    rw [List.map_map]
    exact (List.map_congr_left fun c _ => charOf_toNat c).trans (List.map_id _)
  rw [readString_quote s.toList rest hlength]
  show Except.ok (String.ofList ((s.toList.map Char.toNat).map charOf), rest) = _
  rw [hchars, String.ofList_toList]

variable (rest) in
lemma scanOnce_number {n : NumberText} (h : n.WellFormed) (fuel : ℕ) :
    scanOnce floats (fuel + 1) (n.text ++ rest) = scanValue floats (n.text ++ rest) := by
  obtain ⟨c, tail, hc, htext | htext⟩ := h.text_head
  · rw [htext, List.cons_append, scanOnce]
    all_goals
      intros
      rename_i heq
      obtain rfl := (List.cons.inj heq).1
      simp at hc
  · rw [htext, List.cons_append, List.cons_append, scanOnce]
    all_goals
      intros
      rename_i heq
      simp_all

lemma skipSpace_of_head {c : Char} (hc : isJsonSpace c = false) (tail : List Char) :
    skipSpace (c :: tail) = c :: tail := by
  simp [skipSpace, hc]

lemma isDigit_not_space {c : Char} (hc : c.isDigit = true) : isJsonSpace c = false ∧ c ≠ ']' := by
  refine ⟨?_, ?_⟩
  · simp only [isJsonSpace, Bool.or_eq_false_iff, decide_eq_false_iff_not]
    refine ⟨⟨⟨?_, ?_⟩, ?_⟩, ?_⟩ <;>
      · rintro rfl
        simp at hc
  · rintro rfl
    simp at hc

variable {floats} in
/-- A written value starts with a character that is neither space nor a closing bracket. -/
lemma write_head {v : Json} (hv : v.isValue floats = true) :
    ∃ c tail, v.write = c :: tail ∧ isJsonSpace c = false ∧ c ≠ ']' := by
  have hnumber : ∀ n : NumberText, n.WellFormed →
      ∃ c tail, n.text = c :: tail ∧ isJsonSpace c = false ∧ c ≠ ']' := by
    intro n hn
    obtain ⟨c, tail, hc, htext | htext⟩ := hn.text_head
    · exact ⟨c, tail, htext, isDigit_not_space hc⟩
    · exact ⟨'-', c :: tail, htext, by decide, by decide⟩
  cases v with
  | null => exact ⟨'n', _, rfl, by decide, by decide⟩
  | bool b => cases b with
    | true => exact ⟨'t', _, rfl, by decide, by decide⟩
    | false => exact ⟨'f', _, rfl, by decide, by decide⟩
  | int n =>
    obtain ⟨m, hm, _, hwrite, _⟩ := writeInt_eq n
    rw [write, hwrite]
    exact hnumber m hm
  | float r =>
    obtain ⟨m, hm, _, htext⟩ := floats.shape r (by simpa [isValue] using hv)
    rw [write, htext]
    exact hnumber m hm
  | str s => exact ⟨'"', _, rfl, by decide, by decide⟩
  | arr items => cases items with
    | nil => exact ⟨'[', _, rfl, by decide, by decide⟩
    | cons v rest => exact ⟨'[', _, rfl, by decide, by decide⟩
  | obj fields => cases fields with
    | nil => exact ⟨'\x7b', _, rfl, by decide, by decide⟩
    | cons field rest => exact ⟨'\x7b', _, rfl, by decide, by decide⟩

lemma apart_of_head {c : Char} (tail : List Char) (hc : c = ',' ∨ c = ']' ∨ c = '\x7d') :
    Apart (c :: tail) := by
  rintro d hd
  obtain rfl : c = d := Option.some.inj hd
  rcases hc with rfl | rfl | rfl <;> decide

lemma objOf_of_nodup {fields : List (String × Json)} (h : (fields.map Prod.fst).Nodup) :
    objOf fields = obj fields := by
  rw [objOf, Dict.entries_ofList h, List.map_map]
  exact congrArg obj (List.map_id fields)

/-! The steps of reading, each with what the parts of it have read. -/

variable {floats} {fuel : ℕ} {cs cs' tail : List Char} {c : Char}

lemma scanOnce_array {items : List Json} (hspace : isJsonSpace c = false) (hclose : c ≠ ']')
    (h : scanItems floats fuel (c :: tail) = .ok (items, rest)) :
    scanOnce floats (fuel + 1) ('[' :: c :: tail) = .ok (arr items, rest) := by
  rw [scanOnce, skipSpace_of_head hspace]
  split
  · rename_i heq
    exact absurd (List.cons.inj heq).1 hclose
  · rw [h]
    rfl

lemma scanItems_last {v : Json} (h : scanOnce floats fuel cs = .ok (v, ']' :: rest)) :
    scanItems floats (fuel + 1) cs = .ok ([v], rest) := by
  rw [scanItems, h]
  rfl

lemma scanItems_more {v : Json} {items : List Json} (hspace : isJsonSpace c = false)
    (h : scanOnce floats fuel cs = .ok (v, ',' :: ' ' :: c :: tail))
    (hitems : scanItems floats fuel (c :: tail) = .ok (items, rest)) :
    scanItems floats (fuel + 1) cs = .ok (v :: items, rest) := by
  have hskip : skipSpace (' ' :: c :: tail) = c :: tail := skipSpace_of_head hspace tail
  rw [scanItems, h]
  show (scanItems floats fuel (skipSpace (' ' :: c :: tail)) >>= _) = _
  rw [hskip, hitems]
  rfl

lemma scanOnce_object {pairs : List (String × Json)}
    (h : scanFields floats fuel cs = .ok (pairs, rest)) :
    scanOnce floats (fuel + 1) ('\x7b' :: '"' :: cs) = .ok (objOf pairs, rest) := by
  rw [scanOnce]
  show (scanFields floats fuel cs >>= _) = _
  rw [h]
  rfl

lemma scanFields_last {k : String} {v : Json} (hspace : isJsonSpace c = false)
    (hkey : scanString cs = .ok (k, ':' :: ' ' :: c :: tail))
    (h : scanOnce floats fuel (c :: tail) = .ok (v, '\x7d' :: rest)) :
    scanFields floats (fuel + 1) cs = .ok ([(k, v)], rest) := by
  have hskip : skipSpace (' ' :: c :: tail) = c :: tail := skipSpace_of_head hspace tail
  rw [scanFields, hkey]
  show (scanOnce floats fuel (skipSpace (' ' :: c :: tail)) >>= _) = _
  rw [hskip, h]
  rfl

lemma scanFields_more {k : String} {v : Json} {pairs : List (String × Json)}
    (hspace : isJsonSpace c = false) (hkey : scanString cs = .ok (k, ':' :: ' ' :: c :: tail))
    (h : scanOnce floats fuel (c :: tail) = .ok (v, ',' :: ' ' :: '"' :: cs'))
    (hfields : scanFields floats fuel cs' = .ok (pairs, rest)) :
    scanFields floats (fuel + 1) cs = .ok ((k, v) :: pairs, rest) := by
  have hskip : skipSpace (' ' :: c :: tail) = c :: tail := skipSpace_of_head hspace tail
  rw [scanFields, hkey]
  show (scanOnce floats fuel (skipSpace (' ' :: c :: tail)) >>= _) = _
  rw [hskip, h]
  show (scanFields floats fuel cs' >>= _) = _
  rw [hfields]
  rfl

mutual
/-- A written value is read back, when what follows it is apart from it. -/
theorem scanOnce_write (v : Json) (fuel : ℕ) (rest : List Char) (hv : v.isValue floats = true)
    (hwritable : v.isWritable = true) (hrest : Apart rest) (hfuel : 2 * v.write.length < fuel) :
    scanOnce floats fuel (v.write ++ rest) = .ok (v, rest) := by
  obtain ⟨fuel, rfl⟩ : ∃ n, fuel = n + 1 := ⟨fuel - 1, by omega⟩
  match v with
  | null => rfl
  | bool true => rfl
  | bool false => rfl
  | int n =>
    obtain ⟨m, hm, _, hwrite, _⟩ := writeInt_eq n
    have hnumber := scanOnce_number floats rest hm fuel
    rw [← hwrite, scanValue_int floats hwritable hrest] at hnumber
    exact hnumber
  | float r =>
    have hr : floats.isRepr r = true := by simpa [isValue] using hv
    obtain ⟨m, hm, _, htext⟩ := floats.shape r hr
    have hnumber := scanOnce_number floats rest hm fuel
    rw [← htext, scanValue_float floats hr hrest] at hnumber
    exact hnumber
  | str s =>
    have hread := scanString_write rest s
    have htext : write (str s) ++ rest = '"' :: (s.toList.flatMap escape ++ '"' :: rest) := by
      simp [write, writeString, quote]
    rw [htext, scanOnce, hread]
    rfl
  | arr [] => rfl
  | arr (w :: ws) =>
    have hvalues : areValues floats (w :: ws) = true := by simpa [isValue] using hv
    have hsmall : areWritable (w :: ws) = true := by simpa [isWritable] using hwritable
    have hw : w.isValue floats = true := by
      simp only [areValues, Bool.and_eq_true] at hvalues
      exact hvalues.1
    obtain ⟨c, tail, hhead, hspace, hclose⟩ := write_head hw
    have hitems := scanItems_write w ws fuel rest hvalues hsmall (by simp [write] at hfuel; omega)
    have htext : write (arr (w :: ws)) ++ rest = '[' :: (w.write ++ writeItems ws ++ rest) := by
      simp [write]
    rw [htext]
    rw [hhead, List.cons_append, List.cons_append] at hitems ⊢
    exact scanOnce_array hspace hclose hitems
  | obj [] => rfl
  | obj ((k, w) :: ws) =>
    have hboth : (((k, w) :: ws).map Prod.fst).Nodup ∧
        areFieldValues floats ((k, w) :: ws) = true := by simpa [isValue] using hv
    have hsmall : areFieldsWritable ((k, w) :: ws) = true := by simpa [isWritable] using hwritable
    have hfields := scanFields_write k w ws fuel rest hboth.2 hsmall
      (by simp [write] at hfuel; omega)
    have htext : write (obj ((k, w) :: ws)) ++ rest = '\x7b' :: '"' ::
        (k.toList.flatMap escape ++
          '"' :: ':' :: ' ' :: (w.write ++ (writeFields ws ++ rest))) := by
      simp [write, writeString, quote]
    rw [htext, scanOnce_object hfields, objOf_of_nodup hboth.1]
termination_by fuel

theorem scanItems_write (v : Json) (items : List Json) (fuel : ℕ) (rest : List Char)
    (hv : areValues floats (v :: items) = true) (hwritable : areWritable (v :: items) = true)
    (hfuel : 2 * (v.write.length + (writeItems items).length) + 2 ≤ fuel) :
    scanItems floats fuel (v.write ++ writeItems items ++ rest) = .ok (v :: items, rest) := by
  obtain ⟨fuel, rfl⟩ : ∃ n, fuel = n + 1 := ⟨fuel - 1, by omega⟩
  simp only [areValues, areWritable, Bool.and_eq_true] at hv hwritable
  rw [List.append_assoc]
  match items with
  | [] =>
    have hread := scanOnce_write v fuel (']' :: rest) hv.1 hwritable.1
      (apart_of_head rest (by simp)) (by omega)
    exact scanItems_last hread
  | w :: ws =>
    have hw : w.isValue floats = true := by
      simp only [areValues, Bool.and_eq_true] at hv
      exact hv.2.1
    obtain ⟨c, tail, hhead, hspace, _⟩ := write_head hw
    have hread := scanOnce_write v fuel (writeItems (w :: ws) ++ rest) hv.1 hwritable.1
      (apart_of_head _ (by simp)) (by omega)
    have hrest := scanItems_write w ws fuel rest hv.2 hwritable.2
      (by simp [writeItems] at hfuel; omega)
    have htext : writeItems (w :: ws) ++ rest =
        ',' :: ' ' :: (w.write ++ writeItems ws ++ rest) := by
      simp [writeItems]
    rw [htext] at hread ⊢
    rw [hhead, List.cons_append, List.cons_append] at hread hrest ⊢
    exact scanItems_more hspace hread hrest
termination_by fuel

theorem scanFields_write (k : String) (v : Json) (fields : List (String × Json)) (fuel : ℕ)
    (rest : List Char) (hv : areFieldValues floats ((k, v) :: fields) = true)
    (hwritable : areFieldsWritable ((k, v) :: fields) = true)
    (hfuel : 2 * (v.write.length + (writeFields fields).length) + 2 ≤ fuel) :
    scanFields floats fuel (k.toList.flatMap escape ++
      '"' :: ':' :: ' ' :: (v.write ++ (writeFields fields ++ rest))) =
        .ok ((k, v) :: fields, rest) := by
  obtain ⟨fuel, rfl⟩ : ∃ n, fuel = n + 1 := ⟨fuel - 1, by omega⟩
  simp only [areFieldValues, areFieldsWritable, Bool.and_eq_true] at hv hwritable
  obtain ⟨c, tail, hhead, hspace, _⟩ := write_head hv.1
  have hkey := scanString_write (':' :: ' ' :: (v.write ++ (writeFields fields ++ rest))) k
  match fields with
  | [] =>
    have hread := scanOnce_write v fuel ('\x7d' :: rest) hv.1 hwritable.1
      (apart_of_head rest (by simp)) (by omega)
    rw [hhead, List.cons_append] at hread
    simp only [writeFields, hhead, List.cons_append, List.nil_append] at hkey ⊢
    exact scanFields_last hspace hkey hread
  | (l, w) :: ws =>
    have hread := scanOnce_write v fuel (writeFields ((l, w) :: ws) ++ rest) hv.1 hwritable.1
      (apart_of_head _ (by simp)) (by omega)
    have hrest := scanFields_write l w ws fuel rest hv.2 hwritable.2
      (by simp [writeFields] at hfuel; omega)
    have htext : writeFields ((l, w) :: ws) ++ rest = ',' :: ' ' :: '"' ::
        (l.toList.flatMap escape ++
          '"' :: ':' :: ' ' :: (w.write ++ (writeFields ws ++ rest))) := by
      simp [writeFields, writeString, quote]
    rw [htext] at hread hkey ⊢
    rw [hhead, List.cons_append] at hread hkey ⊢
    exact scanFields_more hspace hkey hread hrest
termination_by fuel
end

/-- `json.loads` reads back what `json.dumps` has written. -/
theorem loads_dumps {v : Json} (hv : v.isValue floats = true) (hwritable : v.isWritable = true) :
    loads floats (String.ofList v.write) = .ok v := by
  have hread := scanOnce_write v (2 * v.write.length + 1) [] hv hwritable
    (by rintro c hc; cases hc) (Nat.lt_succ_self _)
  obtain ⟨c, tail, hhead, hspace, _⟩ := write_head hv
  have hskip : skipSpace v.write = v.write := by
    rw [hhead]
    exact skipSpace_of_head hspace tail
  rw [List.append_nil] at hread
  unfold loads
  rw [String.toList_ofList, hskip, hread]
  rfl

lemma write_ne_nil {v : Json} (hv : v.isValue floats = true) : String.ofList v.write ≠ "" := by
  obtain ⟨c, tail, hhead, _⟩ := write_head hv
  intro hempty
  have hnil : v.write = [] := by
    rw [← String.toList_ofList (l := v.write), hempty]
    rfl
  rw [hhead] at hnil
  cases hnil

end

end Json

end AgentMailbox
