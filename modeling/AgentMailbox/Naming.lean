import AgentMailbox.NamePool
import AgentMailbox.Exceptions
import Mathlib.Data.List.Infix

/-!
# Names

Requested by the agent and adjudicated by the hub, or issued from the pool. The
hub grants a name only in its canonical form, which `validate` computes.
-/
namespace AgentMailbox

namespace Naming

/-- The separators `re.sub` turns into underscores: white space, `-`, `.`, `'`. -/
def isSeparator (c : Char) : Bool := isSpace c || c = '-' || c = '.' || c = '\''

/-- Replace each maximal run of characters satisfying `p` by one underscore;
`inRun` says that the run has already been replaced. -/
def collapseRuns (p : Char → Bool) : Bool → List Char → List Char
  | _, [] => []
  | inRun, c :: cs =>
    if p c then (if inRun then collapseRuns p true cs else '_' :: collapseRuns p true cs)
    else c :: collapseRuns p false cs

/-- Reduce a proposed name to its canonical form. -/
def normalize (u : Unicode) (raw : String) : String :=
  let decomposed := u.nfkd (Text.strip raw)
  let folded := decomposed.toList.filter (fun c => !u.combining c)
  let underscored := collapseRuns isSeparator false (u.lower (String.ofList folded)).toList
  -- A single underscore is not a run of two, but replacing it by itself is harmless.
  let collapsed := collapseRuns (· = '_') false underscored
  String.ofList (Text.stripList (· = '_') (collapsed.filter isPlain))

def isAlnum (c : Char) : Bool := isPlain c && c ≠ '_'

/-- `_VALID.match`: `^[a-z0-9](?:[a-z0-9_]{0,62}[a-z0-9])?$`. -/
def valid (cs : List Char) : Bool :=
  match cs with
  | [] => false
  | first :: rest => isAlnum first &&
    (rest.isEmpty || (rest.dropLast.length ≤ 62 && rest.dropLast.all isPlain &&
      rest.getLast?.any isAlnum))

/-- Validate a proposed name, or explain why it cannot be used. -/
def validate (u : Unicode) (raw : String) : Except Raised String :=
  let candidate := normalize u raw
  if candidate = "" then .error (.mailbox (.nameEmpty raw))
  else if candidate ∈ reservedNames then .error (.mailbox (.nameReserved candidate))
  else if !valid candidate.toList then .error (.mailbox (.nameUnusable candidate))
  else .ok candidate

/-- What `rng.choice` picks from the two lists. -/
structure Draw where
  given : Fin givenNames.length
  family : Fin familyNames.length

/-- `generate()`, for the given outcome of the two choices. -/
def generate (draw : Draw) : String :=
  givenNames.get draw.given ++ "_" ++ familyNames.get draw.family

/-- What every granted or issued name satisfies: canonical text that is not an
addressing keyword. -/
structure Canonical (name : String) : Prop where
  plain : Plain name
  nonempty : name ≠ ""
  unreserved : name ∉ reservedNames

lemma plain_filter (p : List Char → List Char) (hp : ∀ cs, ∀ c ∈ p cs, c ∈ cs)
    (cs : List Char) : Plain (String.ofList (p (cs.filter isPlain))) := by
  intro c hc
  rw [String.toList_ofList] at hc
  exact (List.mem_filter.mp (hp _ c hc)).2

lemma mem_of_mem_stripList {p : Char → Bool} {cs : List Char} {c : Char}
    (h : c ∈ Text.stripList p cs) : c ∈ cs := by
  unfold Text.stripList at h
  have hsub := (List.dropWhile_sublist p).subset (List.mem_reverse.mp h)
  exact (List.dropWhile_sublist p).subset (List.mem_reverse.mp hsub)

theorem normalize_plain (u : Unicode) (raw : String) : Plain (normalize u raw) :=
  plain_filter (Text.stripList (· = '_')) (fun _ _ h => mem_of_mem_stripList h) _

theorem validate_canonical {u : Unicode} {raw name : String}
    (h : validate u raw = .ok name) : Canonical name := by
  simp only [validate] at h
  split_ifs at h with hne hres hvalid
  cases h
  exact ⟨normalize_plain u raw, hne, hres⟩

/-- Refusals of `validate` are mailbox errors. -/
theorem validate_error {u : Unicode} {raw : String} {e : Raised}
    (h : validate u raw = .error e) : ∃ m : MailboxError, e = .mailbox m ∧
      m.errorClass = .nameUnavailable := by
  simp only [validate] at h
  split_ifs at h <;> cases h <;> exact ⟨_, rfl, rfl⟩

lemma underscore_notMem_reserved : ∀ name ∈ reservedNames, '_' ∉ name.toList := by decide

theorem generate_canonical (draw : Draw) : Canonical (generate draw) := by
  have hmem : '_' ∈ (generate draw).toList := by simp [generate]
  refine ⟨?_, ?_, ?_⟩
  · intro c hc
    simp only [generate, String.toList_append, List.mem_append] at hc
    rcases hc with (hc | hc) | hc
    · exact namePool_plain _ (List.mem_append_left _ (List.get_mem _ _)) c hc
    · exact (by decide : Plain "_") c hc
    · exact namePool_plain _ (List.mem_append_right _ (List.get_mem _ _)) c hc
  · intro h
    rw [h] at hmem
    exact absurd hmem (by decide)
  · intro h
    exact underscore_notMem_reserved _ h hmem

end Naming

end AgentMailbox
