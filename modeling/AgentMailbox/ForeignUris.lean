import AgentMailbox.Sending
import AgentMailbox.Wire

/-!
# URIs of other hosts

A URI that is not one of ours is rebuilt as an address: the last segment of its path at
whatever stands before the first colon of its network location. The address is refused
as remote unless what was taken for the host is a name of this hub.
-/
namespace AgentMailbox

/-- Whether it is an instance of `AddressError`. -/
def Raised.isAddressError : Raised → Bool
  | .mailbox e => e.errorClass = .malformedAddress || e.errorClass = .unknownRecipient ||
    e.errorClass = .remoteMailbox
  | _ => false

/-- Resolving a value of the wire as a recipient. -/
def resolveRecipient (wire : Renderer) (u : Unicode) (hubName value : String) :
    Except Raised String := do
  let text ← wire.nameFrom value
  localName u text hubName

/-- The last segment of a parsed path, less the slashes after it. -/
def ParseResult.leaf (parsed : ParseResult) : String :=
  String.ofList (Url.leaf (Text.rstripChar '/' parsed.path).toList)

/-- What stands before the first colon of a network location, if anything. -/
def ParseResult.host (parsed : ParseResult) : String :=
  let host := (Text.partition ':' parsed.netloc).1
  if host = "" then "elsewhere" else host

/-- Refusing to resolve a text is an addressing error. -/
lemma localName_addressError {u : Unicode} {text hubName : String} {e : Raised}
    (h : localName u text hubName = .error e) : e.isAddressError = true := by
  unfold localName at h
  cases hparse : parse u text with
  | error e' =>
    obtain ⟨m, rfl, hclass⟩ := Mailbox.parse_error hparse
    simp only [hparse, Except.error.injEq] at h
    subst h
    simp [Raised.isAddressError, hclass]
  | ok address =>
    simp only [hparse] at h
    split_ifs at h
    simp only [Except.error.injEq] at h
    subst h
    rfl

lemma isIn_iff (part s : String) :
    Text.isIn part s = true ↔ ∃ before after, s.toList = before ++ (part.toList ++ after) := by
  simp only [Text.isIn, List.any_eq_true, List.mem_tails, List.isPrefixOf_iff_prefix]
  constructor
  · rintro ⟨rest, ⟨before, hbefore⟩, ⟨after, rfl⟩⟩
    exact ⟨before, after, hbefore.symm⟩
  · rintro ⟨before, after, hs⟩
    exact ⟨part.toList ++ after, ⟨before, hs.symm⟩, ⟨after, rfl⟩⟩

/-- What follows a scheme is still there when white space is trimmed. -/
lemma isIn_strip {s : String} (h : Text.isIn "://" s = true) :
    Text.isIn "://" (Text.strip s) = true := by
  obtain ⟨before, after, hs⟩ := (isIn_iff _ _).mp h
  have hpart : "://".toList ++ after = ':' :: '/' :: '/' :: after := rfl
  have hend : (('/' :: '/' :: after).reverse.dropWhile isSpace).reverse =
      '/' :: '/' :: (after.reverse.dropWhile isSpace).reverse := by
    have hreverse : ('/' :: '/' :: after).reverse = after.reverse ++ '/' :: ['/'] := by simp
    rw [hreverse, Text.dropWhile_append_cons (by decide)]
    simp
  rw [isIn_iff]
  refine ⟨before.dropWhile isSpace, (after.reverse.dropWhile isSpace).reverse, ?_⟩
  rw [Text.strip_toList, hs, hpart, Text.stripList_append_cons (by decide), hend]
  rfl

section
variable (wire : Renderer) (u : Unicode) (hubName value : String)

/-- A URI that is taken for a local address: one of ours after trimming, or one whose path
and network location give a name held here. -/
def TakenForLocal : Prop :=
  let text := Text.strip value
  let start := wire.base ++ "/actors/"
  if Text.startsWith text start = true then
    ∃ name, ReadAs u hubName (Text.stripChar '/' (Text.drop start.length text)) name
  else ∃ parsed, Url.urlparse wire.rules text = .ok parsed ∧
    HeldHere u hubName parsed.leaf parsed.host

/-- A URI that is not one of ours and cannot be split. -/
def Unsplittable : Prop :=
  let text := Text.strip value
  Text.startsWith text (wire.base ++ "/actors/") = false ∧
    ∃ e, Url.urlparse wire.rules text = .error e

end

/-- What splitting a URL raises is not about addresses. -/
lemma urlparse_error {rules : UrlRules}
    (hrules : ∀ netloc e, rules.checkBracketed netloc = .error e → e.isAddressError = false)
    {url : String} {e : Raised} (h : Url.urlparse rules url = .error e) :
    e.isAddressError = false := by
  unfold Url.urlparse at h
  dsimp only at h
  generalize (Url.splitScheme (Url.cleaned url.toList)).2 = rest at h
  generalize hnetloc : (Url.splitNetloc rest).1 = netloc at h
  cases hbrackets : Url.checkBrackets rules netloc with
  | error e' =>
    rw [hbrackets] at h
    cases h
    unfold Url.checkBrackets at hbrackets
    split_ifs at hbrackets
    · cases hbrackets
      rfl
    · exact hrules _ _ hbrackets
  | ok _ =>
    rw [hbrackets, ok_bind] at h
    cases hnormal : Url.checkNetloc rules netloc with
    | error e' =>
      rw [hnormal] at h
      cases h
      unfold Url.checkNetloc at hnormal
      dsimp only at hnormal
      split_ifs at hnormal
      cases hnormal
      rfl
    | ok _ =>
      rw [hnormal] at h
      cases h

/-- A URI is refused as an address unless it is taken for a local one, or cannot be split;
it is accepted as mail to somebody here exactly when it is taken for a local one. -/
theorem foreign_uri_refused_iff (wire : Renderer) (u : Unicode) (hubName value : String)
    (hrules : ∀ netloc e, wire.rules.checkBracketed netloc = .error e → e.isAddressError = false)
    (huri : Text.isIn "://" value = true) :
    ((∃ e, resolveRecipient wire u hubName value = .error e ∧ e.isAddressError = true) ↔
      ¬ TakenForLocal wire u hubName value ∧ ¬ Unsplittable wire value) ∧
    ((∃ name, resolveRecipient wire u hubName value = .ok name) ↔
      TakenForLocal wire u hubName value) := by
  have hresolved : ∀ text, (∃ e, localName u text hubName = .error e ∧ e.isAddressError = true) ↔
      ¬ ∃ name, localName u text hubName = .ok name := by
    intro text
    cases h : localName u text hubName with
    | error e => simp [localName_addressError h]
    | ok name => simp
  unfold resolveRecipient Renderer.nameFrom TakenForLocal Unsplittable
  dsimp only
  cases hown : Text.startsWith (Text.strip value) (wire.base ++ "/actors/") with
  | true =>
    simp only [if_true, ok_bind, hresolved, localName_iff, Bool.true_eq_false, false_and,
      not_false_eq_true, and_true, and_self]
  | false =>
    simp only [Bool.false_eq_true, if_false, isIn_strip huri, if_true, true_and]
    cases hparsed : Url.urlparse wire.rules (Text.strip value) with
    | error e => simp [urlparse_error hrules hparsed]
    | ok parsed =>
      have haddress := localName_joined_iff u hubName parsed.leaf parsed.host
      have hleaf : String.ofList (Url.leaf (Text.rstripChar '/' parsed.path).toList) =
          parsed.leaf := rfl
      have hhost : (if (Text.partition ':' parsed.netloc).1 = "" then "elsewhere"
          else (Text.partition ':' parsed.netloc).1) = parsed.host := rfl
      simp only [ok_bind, except_pure, hleaf, hhost, hresolved, haddress, Except.ok.injEq,
        exists_eq_left', reduceCtorEq, exists_false, not_false_eq_true, and_true, and_self]

/-- The rules without bracketed addresses, over ASCII. -/
def asciiRules : UrlRules :=
  { unicode := asciiUnicode, nfkc := id, checkBracketed := fun _ => .ok () }

/-- A peer's broadcast address is refused. -/
theorem remote_everyone_refused : ∃ e, resolveRecipient ⟨"https://hub.example", asciiRules⟩
    asciiUnicode "workshop" "https://remote.example/actors/everyone" = .error e ∧
      e.isAddressError = true := by
  have hparsed : Url.urlparse asciiRules (Text.strip "https://remote.example/actors/everyone") =
      .ok ⟨"https", "remote.example", "/actors/everyone"⟩ := by decide +kernel
  have hown : Text.startsWith (Text.strip "https://remote.example/actors/everyone")
      ("https://hub.example" ++ "/actors/") = false := by decide
  refine ((foreign_uri_refused_iff ⟨"https://hub.example", asciiRules⟩ asciiUnicode "workshop"
    "https://remote.example/actors/everyone" (fun _ _ h => by cases h) (by decide)).1).mpr ?_
  constructor
  · intro htaken
    simp only [TakenForLocal, hown, Bool.false_eq_true, if_false, hparsed, Except.ok.injEq,
      exists_eq_left'] at htaken
    exact absurd htaken.here (by decide)
  · rintro ⟨-, e, he⟩
    simp [hparsed] at he

/-- A URI that is not the hub's own reaches everyone at a hub of that name. -/
def ReachesEveryone (hubName uri : String) : Prop :=
  Text.isIn "://" uri = true ∧
    Text.startsWith uri ("https://hub.example" ++ "/actors/") = false ∧
    resolveRecipient ⟨"https://hub.example", asciiRules⟩ asciiUnicode hubName uri =
      .ok "everyone"

/-- A URI at a host called `local`, one with `local` as its user, any URI without a host
at a hub called `elsewhere`: mail to each is accepted as mail to everyone here. -/
theorem foreign_uris_accepted : ReachesEveryone "workshop" "https://local/actors/everyone" ∧
    ReachesEveryone "workshop" "https://local:x@evil.example/actors/everyone" ∧
      ReachesEveryone "elsewhere" "file:///actors/everyone" := by
  unfold ReachesEveryone
  decide +kernel

end AgentMailbox
