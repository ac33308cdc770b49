import AgentMailbox.Old.Failures

/-!
# Addresses of the older hub

`<project>/<agent>/<role>`: each position holds a literal, or stands for every value. An
agent's own address is written with literals; a destination may leave positions open.
-/
namespace AgentMailbox

namespace Text

/-- `s.split(c)` for a single character, on the characters. -/
def splitList (c : Char) : List Char → List (List Char)
  | [] => [[]]
  | d :: ds =>
    if d = c then [] :: splitList c ds
    else match splitList c ds with
      | [] => [[d]]
      | first :: rest => (d :: first) :: rest

def split (c : Char) (s : String) : List String := (splitList c s.toList).map String.ofList

/-- `s.replace(c, part)` for a single character. -/
def replaceChar (c : Char) (part s : String) : String :=
  String.ofList (s.toList.flatMap fun d => if d = c then part.toList else [d])

lemma splitList_of_notMem {c : Char} {cs : List Char} (h : c ∉ cs) : splitList c cs = [cs] := by
  induction cs with
  | nil => rfl
  | cons d ds ih =>
    obtain ⟨hd, hds⟩ := not_or.mp (mt List.mem_cons.mpr h)
    rw [splitList, if_neg (Ne.symm hd), ih hds]

lemma splitList_append {c : Char} {before : List Char} (h : c ∉ before) (after : List Char) :
    splitList c (before ++ c :: after) = before :: splitList c after := by
  induction before with
  | nil => rw [List.nil_append, splitList, if_pos rfl]
  | cons d ds ih =>
    obtain ⟨hd, hds⟩ := not_or.mp (mt List.mem_cons.mpr h)
    rw [List.cons_append, splitList, if_neg (Ne.symm hd), ih hds]

lemma replaceChar_of_notMem {c : Char} {s : String} (h : c ∉ s.toList) (part : String) :
    replaceChar c part s = s := by
  have hsame : s.toList.flatMap (fun d => if d = c then part.toList else [d]) =
      s.toList.flatMap fun d => [d] := by
    refine List.flatMap_congr fun d hd => ?_
    have hne : d ≠ c := by
      rintro rfl
      exact h hd
    rw [if_neg hne]
  unfold replaceChar
  rw [hsame, List.flatMap_singleton', String.ofList_toList]

end Text

namespace Old

/-! ## Tokens -/

/-- `RESERVED_TOKENS`, in the order of their spelling. -/
def reservedTokens : List String := ["all", "any"]

/-- `RETIRED_TOKENS`. -/
def retiredTokens : List String := ["any"]

/-- `[A-Za-z0-9]`. -/
def isAlphanumeric (c : Char) : Bool :=
  ('A' ≤ c && c ≤ 'Z') || ('a' ≤ c && c ≤ 'z') || ('0' ≤ c && c ≤ '9')

/-- `[A-Za-z0-9_-]`. -/
def isTokenChar (c : Char) : Bool := isAlphanumeric c || c = '_' || c = '-'

/-- `[A-Za-z0-9][A-Za-z0-9_-]{0,63}`. -/
def isToken : List Char → Bool
  | [] => false
  | c :: cs => isAlphanumeric c && cs.all isTokenChar && cs.length ≤ 63

/-- `_VALID_TOKEN.match`: the `$` at the end of the pattern also matches before a newline
that ends the text. -/
def validToken (value : String) : Bool :=
  isToken (if value.toList.getLast? = some '\n' then value.toList.dropLast else value.toList)

def validateToken (u : Unicode) (value kind : String) : Except Failure String :=
  if !validToken value then .error (.invalidToken kind value)
  else if u.lower value ∈ reservedTokens then .error (.reservedToken kind value)
  else .ok value

def validateAgentId (u : Unicode) (agentId : String) : Except Failure String :=
  validateToken u agentId "agent id"

def validateProject (u : Unicode) (project : String) : Except Failure String :=
  validateToken u project "project"

def validateRole (u : Unicode) (role : String) : Except Failure String :=
  validateToken u role "role"

/-- A role that is left out, or empty. -/
def givenRole (role : Option String) : Option String := role.bind Text.orNone

/-- The canonical `<project>/<agent>[/<role>]`. -/
def formatAddress (u : Unicode) (project agent : String) (role : Option String) :
    Except Failure String := do
  let project ← validateProject u project
  let agent ← validateAgentId u agent
  let base := project ++ "/" ++ agent
  match givenRole role with
  | none => return base
  | some role => do
    let role ← validateRole u role
    return base ++ "/" ++ role

/-! ## Destinations -/

/-- A parsed destination; nothing in a position stands for every value. -/
structure Target where
  project : Option String
  agent : Option String
  role : Option String
  deriving DecidableEq, Repr

def Target.kind (_ : Target) : String := "fanout"

/-- One position of an address: a literal, or nothing for every value. -/
def parsePart (u : Unicode) (part address : String) : Except Failure (Option String) :=
  let replaced := Text.replaceChar '*' "all" (Text.strip part)
  let token := if replaced = "" then "all" else replaced
  let lowered := u.lower token
  if lowered = "all" then .ok none
  else if lowered ∈ retiredTokens then .error (.retiredKeyword lowered address)
  else .ok (some token)

/-- A position that is a literal is checked. -/
def checkPart (check : String → Except Failure String) :
    Option String → Except Failure (Option String)
  | none => .ok none
  | some token => (check token).map some

/-- The three positions of an address. -/
def parseParts (u : Unicode) (project agent role raw : String) : Except Failure Target := do
  let project ← parsePart u project raw
  let agent ← parsePart u agent raw
  let role ← parsePart u role raw
  let project ← checkPart (validateProject u) project
  let agent ← checkPart (validateAgentId u) agent
  let role ← checkPart (validateRole u) role
  return ⟨project, agent, role⟩

/-- Parse `<project>[/<agent>[/<role>]]`; positions left out at the end are `all`. -/
def parseAddress (u : Unicode) (to_ : String) : Except Failure Target :=
  let raw := Text.strip to_
  let parts := Text.split '/' raw
  if 3 < parts.length then .error (.tooManyParts to_)
  else parseParts u (parts.getD 0 "all") (parts.getD 1 "all") (parts.getD 2 "all") raw

/-- The kinds of destination `parse_target` tells apart. -/
inductive TargetKind
  | public_ | globalAny | broadcast | any | direct
  deriving DecidableEq, Repr

/-- Resolve an address to `(kind, project, agent)`: two positions, of which the first may not
be left open when the second is a literal. -/
def parseTarget (u : Unicode) (to_ : String) :
    Except Failure (TargetKind × Option String × Option String) :=
  let parts := Text.partition '/' (Text.strip to_)
  let agentPart :=
    if parts.2.1 then parts.2.2
    else if u.lower (Text.strip parts.1) = "any" then "any" else "all"
  let orAll := fun part : String => if Text.strip part = "" then "all" else Text.strip part
  let projPart := Text.replaceChar '*' "all" (orAll parts.1)
  let agentPart := Text.replaceChar '*' "all" (orAll agentPart)
  let proj := u.lower projPart
  let agent := u.lower agentPart
  if proj = "all" || proj = "any" then
    if agent = "all" then .ok (.public_, none, none)
    else if agent = "any" then .ok (.globalAny, none, none)
    else .error (.acrossProjects to_)
  else do
    let project ← validateProject u projPart
    if agent = "all" then return (.broadcast, some project, none)
    else if agent = "any" then return (.any, some project, none)
    else do
      let agentId ← validateAgentId u agentPart
      return (.direct, some project, some agentId)

end Old

end AgentMailbox
