import Mathlib.Data.List.Lex
import Mathlib.Data.String.Basic

/-!
# The order of encoded text

Where the words of two letters part, let the smaller letter's go on with the smaller
symbol: then encoding letter by letter keeps the lexicographic order. UTF-8 is such an
encoding, so texts compare byte by byte as they compare character by character.
-/
namespace Utf8Order

section
variable {α β : Type*} [LinearOrder α] [LinearOrder β]

/-- Two words part, and the first goes on with the smaller symbol. -/
def Parts (l m : List β) : Prop :=
  ∃ shared x y u v, x < y ∧ l = shared ++ x :: u ∧ m = shared ++ y :: v

/-- The words of different letters part, and the smaller letter's goes on with the smaller
symbol. -/
def Branches (enc : α → List β) : Prop := ∀ a b, a < b → Parts (enc a) (enc b)

lemma Parts.head {x y : β} (h : x < y) (u v : List β) : Parts (x :: u) (y :: v) :=
  ⟨[], x, y, u, v, h, rfl, rfl⟩

lemma Parts.cons {x y : β} {l m : List β} (hle : x ≤ y) (h : x = y → Parts l m) :
    Parts (x :: l) (y :: m) := by
  rcases hle.lt_or_eq with hlt | heq
  · exact .head hlt l m
  · obtain ⟨shared, a, b, u, v, hab, hl, hm⟩ := h heq
    exact ⟨x :: shared, a, b, u, v, hab, by rw [hl]; rfl, by rw [hm, heq]; rfl⟩

lemma Parts.append {l m : List β} (h : Parts l m) (u v : List β) : Parts (l ++ u) (m ++ v) := by
  obtain ⟨shared, x, y, l', m', hxy, rfl, rfl⟩ := h
  exact ⟨shared, x, y, l' ++ u, m' ++ v, hxy, by simp, by simp⟩

lemma Parts.append_left {l m : List β} (h : Parts l m) (u : List β) :
    Parts (u ++ l) (u ++ m) := by
  obtain ⟨shared, x, y, l', m', hxy, rfl, rfl⟩ := h
  exact ⟨u ++ shared, x, y, l', m', hxy, by simp, by simp⟩

lemma Parts.lt {l m : List β} (h : Parts l m) : l < m := by
  obtain ⟨shared, x, y, u, v, hxy, rfl, rfl⟩ := h
  show List.Lex (· < ·) (shared ++ x :: u) (shared ++ y :: v)
  exact List.Lex.append_left _ (.rel hxy) shared

theorem flatMap_strictMono {enc : α → List β} (h : Branches enc) (hne : ∀ a, enc a ≠ []) :
    StrictMono fun xs : List α => xs.flatMap enc := by
  intro xs ys hlt
  show List.Lex (· < ·) (xs.flatMap enc) (ys.flatMap enc)
  induction hlt with
  | @nil b ys =>
    obtain ⟨x, word, hword⟩ := List.exists_cons_of_ne_nil (hne b)
    rw [List.flatMap_nil, List.flatMap_cons, hword]
    exact .nil
  | @cons a xs ys _ ih =>
    rw [List.flatMap_cons, List.flatMap_cons]
    exact List.Lex.append_left _ ih (enc a)
  | @rel a xs b ys hab =>
    obtain ⟨shared, x, y, u, v, hxy, ha, hb⟩ := h a b hab
    rw [List.flatMap_cons, List.flatMap_cons, ha, hb, List.append_assoc, List.append_assoc]
    apply List.Lex.append_left
    exact .rel hxy

end

/-! ## UTF-8 -/

/-- The bytes of a code point. -/
def word (v : ℕ) : List ℕ :=
  if v ≤ 0x7f then [v]
  else if v ≤ 0x7ff then [v / 64 % 32 + 0xc0, v % 64 + 0x80]
  else if v ≤ 0xffff then [v / 4096 % 16 + 0xe0, v / 64 % 64 + 0x80, v % 64 + 0x80]
  else [v / 262144 % 8 + 0xf0, v / 4096 % 64 + 0x80, v / 64 % 64 + 0x80, v % 64 + 0x80]

/-- The bytes of a character. -/
def bytesOf (c : Char) : List ℕ := (String.utf8EncodeChar c).map UInt8.toNat

/-- The bytes of a text. -/
def bytes (s : String) : List ℕ := s.toList.flatMap bytesOf

lemma bytesOf_eq (c : Char) : bytesOf c = word c.toNat := by
  show (String.utf8EncodeChar c).map UInt8.toNat = word c.val.toNat
  unfold String.utf8EncodeChar word
  generalize c.val.toNat = v
  dsimp only
  split_ifs <;> simp only [List.map_cons, List.map_nil, UInt8.toNat_ofNat', List.cons.injEq,
    and_true]
  all_goals omega

/-- The bytes of two code points part in the first one that differs. -/
lemma word_parts {v w : ℕ} (hvw : v < w) (hw : w ≤ 0x10ffff) : Parts (word v) (word w) := by
  unfold word
  split_ifs with hv1 hw1 hw2 hw3 hv2 hw1 hw2 hw3 hv3 hw1 hw2 hw3
  · exact .head hvw _ _
  · exact .head (by omega) _ _
  · exact .head (by omega) _ _
  · exact .head (by omega) _ _
  · omega
  · exact .cons (by omega) fun _ => .head (by omega) _ _
  · exact .head (by omega) _ _
  · exact .head (by omega) _ _
  · omega
  · omega
  · exact .cons (by omega) fun _ => .cons (by omega) fun _ => .head (by omega) _ _
  · exact .head (by omega) _ _
  · omega
  · omega
  · omega
  · exact .cons (by omega) fun _ => .cons (by omega) fun _ => .cons (by omega) fun _ =>
      .head (by omega) _ _

lemma bytesOf_branches : Branches bytesOf := by
  intro a b hab
  have hb : b.toNat ≤ 0x10ffff := by
    have hvalid := b.valid
    simp only [UInt32.isValidChar, Nat.isValidChar] at hvalid
    show b.val.toNat ≤ _
    omega
  rw [bytesOf_eq, bytesOf_eq]
  exact word_parts hab hb

lemma bytesOf_ne_nil (c : Char) : bytesOf c ≠ [] := by
  rw [bytesOf_eq]
  unfold word
  split_ifs <;> exact List.cons_ne_nil _ _

/-- Comparing texts byte by byte is comparing them character by character. -/
theorem bytes_strictMono : StrictMono bytes := by
  intro s t hst
  exact flatMap_strictMono bytesOf_branches bytesOf_ne_nil (String.lt_iff_toList_lt.mp hst)

theorem bytes_le_iff (s t : String) : bytes s ≤ bytes t ↔ s ≤ t := bytes_strictMono.le_iff_le

end Utf8Order
