import AgentMailbox.Exceptions
import AgentMailbox.Library.Dict

/-!
# JSON values

The values `json.loads` returns, with the questions the engine asks of a value whose
type it has not checked: is it true, what does iterating over it give, how is it
written as a string, and which dictionary does it make. A float is represented by its
`repr`, which determines it.
-/
namespace AgentMailbox

/-- The digits `int` and `str` convert at most, without a sign. -/
def intMaxStrDigits : ℕ := 4300

inductive Json
  | null
  | bool (b : Bool)
  | int (n : ℤ)
  | float (repr : String)
  | str (s : String)
  | arr (items : List Json)
  | obj (fields : List (String × Json))
  deriving Repr

/-- A JSON object as the interpreter holds it. -/
abbrev JsonObject := Dict String Json

namespace Json

mutual
def decEq : (a b : Json) → Decidable (a = b)
  | .null, .null => isTrue rfl
  | .bool a, .bool b => decidable_of_iff (a = b) (by simp)
  | .int a, .int b => decidable_of_iff (a = b) (by simp)
  | .float a, .float b => decidable_of_iff (a = b) (by simp)
  | .str a, .str b => decidable_of_iff (a = b) (by simp)
  | .arr a, .arr b => @decidable_of_iff _ (a = b) (by simp) (decEqItems a b)
  | .obj a, .obj b => @decidable_of_iff _ (a = b) (by simp) (decEqFields a b)
  | .null, .bool _ | .null, .int _ | .null, .float _ | .null, .str _ | .null, .arr _
  | .null, .obj _ | .bool _, .null | .bool _, .int _ | .bool _, .float _ | .bool _, .str _
  | .bool _, .arr _ | .bool _, .obj _ | .int _, .null | .int _, .bool _ | .int _, .float _
  | .int _, .str _ | .int _, .arr _ | .int _, .obj _ | .float _, .null | .float _, .bool _
  | .float _, .int _ | .float _, .str _ | .float _, .arr _ | .float _, .obj _ | .str _, .null
  | .str _, .bool _ | .str _, .int _ | .str _, .float _ | .str _, .arr _ | .str _, .obj _
  | .arr _, .null | .arr _, .bool _ | .arr _, .int _ | .arr _, .float _ | .arr _, .str _
  | .arr _, .obj _ | .obj _, .null | .obj _, .bool _ | .obj _, .int _ | .obj _, .float _
  | .obj _, .str _ | .obj _, .arr _ => isFalse (by simp)

def decEqItems : (a b : List Json) → Decidable (a = b)
  | [], [] => isTrue rfl
  | [], _ :: _ | _ :: _, [] => isFalse (by simp)
  | x :: xs, y :: ys =>
    @decidable_of_iff _ (x = y ∧ xs = ys) (by simp)
      (@instDecidableAnd _ _ (decEq x y) (decEqItems xs ys))

def decEqFields : (a b : List (String × Json)) → Decidable (a = b)
  | [], [] => isTrue rfl
  | [], _ :: _ | _ :: _, [] => isFalse (by simp)
  | (k, x) :: xs, (l, y) :: ys =>
    @decidable_of_iff _ (k = l ∧ x = y ∧ xs = ys) (by simp [and_assoc])
      (@instDecidableAnd _ _ _ (@instDecidableAnd _ _ (decEq x y) (decEqFields xs ys)))
end

instance : DecidableEq Json := decEq

/-- `bool(v)`. -/
def truthy : Json → Bool
  | null => false
  | bool b => b
  | int n => n ≠ 0
  | float r => r ≠ "0.0" && r ≠ "-0.0"
  | str s => s ≠ ""
  | arr items => !items.isEmpty
  | obj fields => !fields.isEmpty

/-- `type(v).__name__`. -/
def typeName : Json → String
  | null => "NoneType"
  | bool _ => "bool"
  | int _ => "int"
  | float _ => "float"
  | str _ => "str"
  | arr _ => "list"
  | obj _ => "dict"

/-- `list(v)`: the elements of a list, the characters of a string, the keys of an
object. Everything else is not iterable. -/
def iter : Json → Except Raised (List Json)
  | arr items => .ok items
  | str s => .ok (s.toList.map fun c => str (String.ofList [c]))
  | obj fields => .ok (fields.map fun field => str field.1)
  | v => .error (.typeError ("'" ++ v.typeName ++ "' object is not iterable"))

mutual
/-- `repr(v)`. -/
def repr (u : Unicode) : Json → String
  | null => "None"
  | bool b => if b then "True" else "False"
  | int n => toString n
  | float r => r
  | str s => Text.repr u s
  | arr items => "[" ++ Text.join ", " (reprItems u items) ++ "]"
  | obj fields => "\x7b" ++ Text.join ", " (reprFields u fields) ++ "\x7d"

def reprItems (u : Unicode) : List Json → List String
  | [] => []
  | v :: rest => repr u v :: reprItems u rest

def reprFields (u : Unicode) : List (String × Json) → List String
  | [] => []
  | (k, v) :: rest => (Text.repr u k ++ ": " ++ repr u v) :: reprFields u rest
end

/-! ### The limit on digits -/

mutual
/-- Every integer in the value has few enough digits to be written. -/
def isWritable : Json → Bool
  | int n => decide ((Nat.toDigits 10 n.natAbs).length ≤ intMaxStrDigits)
  | arr items => areWritable items
  | obj fields => areFieldsWritable fields
  | null | bool _ | float _ | str _ => true

def areWritable : List Json → Bool
  | [] => true
  | v :: rest => isWritable v && areWritable rest

def areFieldsWritable : List (String × Json) → Bool
  | [] => true
  | (_, v) :: rest => isWritable v && areFieldsWritable rest
end

/-- What writing an integer of more digits raises. -/
abbrev tooManyDigits : Raised :=
  .valueError ("Exceeds the limit (4300 digits) for integer string conversion; " ++
    "use sys.set_int_max_str_digits() to increase the limit")

/-- A value as text: as `repr`, except that a string is itself. -/
def shown (u : Unicode) : Json → String
  | str s => s
  | v => repr u v

/-- Whether `str(v)` returns: a string is itself, and is not written. -/
def hasText : Json → Bool
  | str _ => true
  | v => v.isWritable

/-- `str(v)`. -/
def toStr (u : Unicode) (v : Json) : Except Raised String :=
  if v.hasText then .ok (v.shown u) else .error tooManyDigits

/-- A decoded body, for code that goes on to call `get` on it. -/
def asObject : Json → Except Raised JsonObject
  | obj fields => .ok (Dict.ofList fields)
  | v => .error (.foreign ("AttributeError: '" ++ v.typeName ++ "' object has no attribute 'get'"))

/-- A value as the key of a dictionary. A key that is not a string is kept under the
text it is written with in JSON. -/
def asKey : Json → Except Raised String
  | null => .ok "null"
  | bool b => .ok (if b then "true" else "false")
  | int n => .ok (toString n)
  | float r => .ok r
  | str s => .ok s
  | v => .error (.typeError ("unhashable type: '" ++ v.typeName ++ "'"))

/-- An element of the sequence a dictionary is made from, as a key and a value. -/
def asPair (index : ℕ) (v : Json) : Except Raised (String × Json) :=
  match v.iter with
  | .error _ => .error (.typeError ("cannot convert dictionary update sequence element #" ++
      toString index ++ " to a sequence"))
  | .ok [key, value] => do return (← key.asKey, value)
  | .ok items => .error (.valueError ("dictionary update sequence element #" ++
      toString index ++ " has length " ++ toString items.length ++ "; 2 is required"))

/-- `dict(v)`. -/
def toDict : Json → Except Raised JsonObject
  | obj fields => .ok (Dict.ofList fields)
  | v => do
    let items ← v.iter
    let pairs ← items.zipIdx.mapM fun item => asPair item.2 item.1
    return Dict.ofList pairs

/-- A list of strings. -/
def strings (items : List String) : Json := arr (items.map str)

/-- Whether a value can be iterated over. -/
def iterable : Json → Bool
  | arr _ | str _ | obj _ => true
  | _ => false

/-- Whether what iterating over a value gives can all be written as strings. -/
def listable (v : Json) : Bool :=
  match v.iter with
  | .ok items => items.all hasText
  | .error _ => false

@[simp] theorem toStr_str (u : Unicode) (s : String) : (str s).toStr u = .ok s := rfl

theorem iter_ok_iff (v : Json) : (∃ items, v.iter = .ok items) ↔ v.iterable = true := by
  cases v <;> simp [iter, iterable]

theorem iter_error (v : Json) (h : v.iterable = false) :
    v.iter = .error (.typeError ("'" ++ v.typeName ++ "' object is not iterable")) := by
  cases v <;> simp_all [iter, iterable]

/-- What iterating gives is written item by item, up to one that cannot be. -/
theorem mapM_toStr (u : Unicode) (items : List Json) :
    items.mapM (toStr u) =
      if items.all hasText then .ok (items.map (shown u)) else .error tooManyDigits := by
  induction items with
  | nil => rfl
  | cons v items ih =>
    rw [List.mapM_cons, ih, List.all_cons, List.map_cons, toStr]
    cases hv : v.hasText <;> cases hitems : items.all hasText <;> rfl

/-- A list of strings can be listed. -/
theorem listable_strings (items : List String) : (strings items).listable = true := by
  simp [strings, listable, iter, hasText]

theorem listable_iterable {v : Json} (h : v.listable = true) : v.iterable = true := by
  rw [← iter_ok_iff]
  unfold listable at h
  cases hiter : v.iter with
  | ok items => exact ⟨items, rfl⟩
  | error e => simp [hiter] at h

/-- An object as a value. -/
def ofDict (d : JsonObject) : Json := obj (d.entries.map fun entry => (entry.1, entry.2))

@[simp] theorem asObject_ofDict (d : JsonObject) : (ofDict d).asObject = .ok d := by
  have hkeys : ((d.entries.map fun entry => (entry.1, entry.2)).map Prod.fst).Nodup := by
    rw [List.map_map]
    exact d.nodupKeys
  have hentries := Dict.entries_ofList hkeys
  rw [List.map_map] at hentries
  show Except.ok (Dict.ofList _) = _
  exact congrArg Except.ok (AList.ext (hentries.trans (List.map_id d.entries)))

end Json

end AgentMailbox
