import AgentMailbox.Invariants
import AgentMailbox.SqliteRows
import Mathlib.Algebra.BigOperators.Intervals
import Mathlib.Algebra.Order.BigOperators.Group.Finset

/-!
# Timestamps and instants

A timestamp is compared as text: the fraction is there or not, and every field has leading
zeros. A datetime is compared field by field, and an instant is a count of microseconds.
The three orders are the same, so the latest activity, the cutoff and the listing of either
store go by the instants.
-/
namespace AgentMailbox

/-! ## Digits -/

lemma digit_lt_digit {i j : ℕ} (hij : i < j) (hj : j < 10) :
    Char.ofNat (48 + i) < Char.ofNat (48 + j) := by
  have hall : ∀ m n : Fin 10, m < n → Char.ofNat (48 + m) < Char.ofNat (48 + n) := by decide
  exact hall ⟨i, by omega⟩ ⟨j, hj⟩ hij

/-- Numbers of one width part where the first digit differs. -/
lemma pad_parts (width : ℕ) {m n : ℕ} (h : m % 10 ^ width < n % 10 ^ width) :
    Utf8Order.Parts (pad width m) (pad width n) := by
  induction width with
  | zero => simp [Nat.mod_one] at h
  | succ width ih =>
    rw [Nat.mod_pow_succ, Nat.mod_pow_succ] at h
    have hm : m % 10 ^ width < 10 ^ width := Nat.mod_lt _ (Nat.pow_pos (by omega))
    have hn : n % 10 ^ width < 10 ^ width := Nat.mod_lt _ (Nat.pow_pos (by omega))
    set i := m / 10 ^ width % 10 with hi
    set j := n / 10 ^ width % 10 with hj
    have hj10 : j < 10 := Nat.mod_lt _ (by omega)
    rcases Nat.lt_trichotomy i j with hlt | heq | hgt
    · exact .head (digit_lt_digit hlt hj10) _ _
    · simp only [pad, ← hi, ← hj, heq]
      exact .cons le_rfl fun _ => ih (by rw [heq] at h; omega)
    · have hle : 10 ^ width * (j + 1) ≤ 10 ^ width * i := Nat.mul_le_mul_left _ hgt
      rw [Nat.mul_succ] at hle
      omega

/-- A field of a timestamp: either it decides, or what follows does. -/
lemma field_parts {width m n : ℕ} (hm : m < 10 ^ width) (hn : n < 10 ^ width)
    {rest rest' : List Char} (h : m < n ∨ m = n ∧ Utf8Order.Parts rest rest') :
    Utf8Order.Parts (pad width m ++ rest) (pad width n ++ rest') := by
  rcases h with hlt | ⟨rfl, hrest⟩
  · exact (pad_parts width (by rwa [Nat.mod_eq_of_lt hm, Nat.mod_eq_of_lt hn])).append _ _
  · exact hrest.append_left _

/-! ## Days -/

/-- Stretches laid end to end: a place in an earlier one comes before a place in a later. -/
lemma sum_Ico_add_lt {length : ℕ → ℕ} {p q x y : ℕ} (hp : 1 ≤ p) (hpq : p < q)
    (hx : x ≤ length p) (hy : 0 < y) :
    ∑ i ∈ Finset.Ico 1 p, length i + x < ∑ i ∈ Finset.Ico 1 q, length i + y := by
  have hstretch :
      ∑ i ∈ Finset.Ico 1 (p + 1), length i = ∑ i ∈ Finset.Ico 1 p, length i + length p :=
    Finset.sum_Ico_succ_top hp length
  have hsub : ∑ i ∈ Finset.Ico 1 (p + 1), length i ≤ ∑ i ∈ Finset.Ico 1 q, length i :=
    Finset.sum_le_sum_of_subset (Finset.Ico_subset_Ico_right hpq)
  omega

def daysInYear (year : ℕ) : ℕ := ∑ month ∈ Finset.Ico 1 13, daysInMonth year month

namespace DateTime

/-- The day's number in its year, from 1. -/
def dayOfYear (t : DateTime) : ℕ := ∑ month ∈ Finset.Ico 1 t.month, daysInMonth t.year month + t.day

/-- `toordinal()`: the day's number in the calendar, where 1 January of year 1 has number 1. -/
def toordinal (t : DateTime) : ℕ := ∑ year ∈ Finset.Ico 1 t.year, daysInYear year + t.dayOfYear

/-- Microseconds, counted from the midnight before 1 January of year 1 less a day. -/
def instant (t : DateTime) : ℕ :=
  (((t.toordinal * 24 + t.hour) * 60 + t.minute) * 60 + t.second) * 1000000 + t.microsecond

lemma dayOfYear_pos (t : DateTime) : 0 < t.dayOfYear := by
  have hday := t.day_bounds.1
  unfold dayOfYear
  omega

lemma dayOfYear_le (t : DateTime) : t.dayOfYear ≤ daysInYear t.year := by
  have hstretch : ∑ month ∈ Finset.Ico 1 (t.month + 1), daysInMonth t.year month =
      ∑ month ∈ Finset.Ico 1 t.month, daysInMonth t.year month + daysInMonth t.year t.month :=
    Finset.sum_Ico_succ_top t.month_bounds.1 _
  have hsub : ∑ month ∈ Finset.Ico 1 (t.month + 1), daysInMonth t.year month ≤
      daysInYear t.year :=
    Finset.sum_le_sum_of_subset (Finset.Ico_subset_Ico_right (Nat.succ_le_succ t.month_bounds.2))
  have hday := t.day_bounds.2
  unfold dayOfYear
  omega

/-- Going back a day goes back one number in the calendar, and keeps the time of day. -/
lemma previousDay_instant {t earlier : DateTime} (h : t.previousDay = some earlier) :
    earlier.instant + 86400000000 = t.instant := by
  have hordinal : earlier.toordinal + 1 = t.toordinal ∧ earlier.hour = t.hour ∧
      earlier.minute = t.minute ∧ earlier.second = t.second ∧
      earlier.microsecond = t.microsecond := by
    have hday := t.day_bounds.1
    have hmonth := t.month_bounds.1
    have hyear := t.year_bounds.1
    unfold previousDay at h
    split_ifs at h with h1 h2 h3
    · cases h
      refine ⟨?_, rfl, rfl, rfl, rfl⟩
      simp only [toordinal, dayOfYear]
      omega
    · cases h
      refine ⟨?_, rfl, rfl, rfl, rfl⟩
      obtain ⟨month, hsucc⟩ : ∃ month, t.month = month + 1 := ⟨t.month - 1, by omega⟩
      simp only [toordinal, dayOfYear, hsucc, Nat.add_sub_cancel]
      rw [Finset.sum_Ico_succ_top (by omega : 1 ≤ month)]
      omega
    · cases h
      refine ⟨?_, rfl, rfl, rfl, rfl⟩
      obtain ⟨year, hsucc⟩ : ∃ year, t.year = year + 1 := ⟨t.year - 1, by omega⟩
      have hmonth1 : t.month = 1 := by omega
      have hyears := Finset.sum_Ico_succ_top (by omega : 1 ≤ year) daysInYear
      have hmonths : daysInYear year = ∑ month ∈ Finset.Ico 1 12, daysInMonth year month + 31 :=
        Finset.sum_Ico_succ_top (by omega : 1 ≤ 12) (daysInMonth year)
      simp only [toordinal, dayOfYear, hsucc, hmonth1, Nat.add_sub_cancel, Finset.Ico_self,
        Finset.sum_empty]
      omega
  obtain ⟨hday, hhour, hminute, hsecond, hmicro⟩ := hordinal
  unfold instant
  rw [← hday, hhour, hminute, hsecond, hmicro]
  omega

/-- `t - timedelta(days=days)` is that many days before `t`. -/
theorem minusDays_instant {days : ℕ} {t earlier : DateTime} (h : minusDays days t = .ok earlier) :
    earlier.instant + days * 86400000000 = t.instant := by
  induction days generalizing t with
  | zero =>
    cases h
    simp
  | succ days ih =>
    rw [minusDays] at h
    cases hprev : t.previousDay with
    | none => simp [hprev] at h
    | some yesterday =>
      rw [hprev] at h
      rw [Nat.succ_mul, ← Nat.add_assoc, ih h]
      exact previousDay_instant hprev

/-! ## The order -/

/-- What two datetimes of one time zone are compared by. -/
def fields (t : DateTime) : List ℕ :=
  [t.year, t.month, t.day, t.hour, t.minute, t.second, t.microsecond]

instance : LT DateTime := ⟨fun a b => a.fields < b.fields⟩

lemma fields_injective : Function.Injective fields := by
  intro a b h
  cases a
  cases b
  simpa [fields] using h

lemma lt_def (a b : DateTime) : a < b ↔ a.fields < b.fields := Iff.rfl

lemma trichotomy (a b : DateTime) : a < b ∨ a = b ∨ b < a := by
  rcases lt_trichotomy a.fields b.fields with hlt | heq | hlt
  · exact .inl hlt
  · exact .inr (.inl (fields_injective heq))
  · exact .inr (.inr hlt)

lemma instant_lt {a b : DateTime} (h : a < b) : a.instant < b.instant := by
  simp only [lt_def, fields, List.cons_lt_cons_iff, lt_self_iff_false, and_false, or_false] at h
  have hdays : a.toordinal < b.toordinal ∨ a.toordinal = b.toordinal ∧
      (a.hour < b.hour ∨ a.hour = b.hour ∧ (a.minute < b.minute ∨ a.minute = b.minute ∧
        (a.second < b.second ∨ a.second = b.second ∧ a.microsecond < b.microsecond))) := by
    unfold toordinal
    rcases h with hyear | ⟨hyear, h⟩
    · exact .inl (sum_Ico_add_lt a.year_bounds.1 hyear a.dayOfYear_le b.dayOfYear_pos)
    rw [hyear]
    unfold dayOfYear
    rw [hyear]
    rcases h with hmonth | ⟨hmonth, h⟩
    · have hlast := a.day_bounds.2
      rw [hyear] at hlast
      exact .inl (Nat.add_lt_add_left
        (sum_Ico_add_lt a.month_bounds.1 hmonth hlast b.day_bounds.1) _)
    rw [hmonth]
    rcases h with hday | ⟨hday, h⟩
    · exact .inl (by omega)
    exact .inr ⟨by omega, h⟩
  have ha := And.intro a.hour_lt (And.intro a.minute_lt (And.intro a.second_lt a.microsecond_lt))
  unfold instant
  omega

/-- The order of two datetimes is that of their instants. -/
theorem lt_iff_instant_lt (a b : DateTime) : a < b ↔ a.instant < b.instant := by
  refine ⟨instant_lt, fun h => ?_⟩
  rcases trichotomy a b with hlt | rfl | hlt
  · exact hlt
  · exact absurd h (lt_irrefl _)
  · exact absurd h (instant_lt hlt).not_gt

/-! ## The text -/

/-- The end of a timestamp: a fraction goes on with a point, none with the offset's plus,
which is the smaller character. -/
lemma fraction_parts {m n : ℕ} (hn : n < 1000000) (h : m < n) :
    Utf8Order.Parts ((if m = 0 then [] else '.' :: pad 6 m) ++ "+00:00".toList)
      ((if n = 0 then [] else '.' :: pad 6 n) ++ "+00:00".toList) := by
  rw [if_neg (by omega : n ≠ 0)]
  split_ifs with hm
  · exact .head (by decide) _ _
  · exact .cons le_rfl fun _ => (field_parts (by omega) (by omega) (.inl h))

lemma isoformat_lt {a b : DateTime} (h : a < b) : a.isoformat < b.isoformat := by
  simp only [lt_def, fields, List.cons_lt_cons_iff, lt_self_iff_false, and_false, or_false] at h
  rw [String.lt_iff_toList_lt]
  unfold isoformat
  simp only [String.toList_ofList, List.append_assoc, List.cons_append]
  have hyear := And.intro a.year_bounds.2 b.year_bounds.2
  have hmonth := And.intro a.month_bounds.2 b.month_bounds.2
  have hlong : ∀ year month, daysInMonth year month ≤ 31 := by
    intro year month
    unfold daysInMonth
    split_ifs <;> omega
  have hday := And.intro (a.day_bounds.2.trans (hlong _ _)) (b.day_bounds.2.trans (hlong _ _))
  have hhour := And.intro a.hour_lt b.hour_lt
  have hminute := And.intro a.minute_lt b.minute_lt
  have hsecond := And.intro a.second_lt b.second_lt
  apply Utf8Order.Parts.lt
  refine field_parts (by omega) (by omega) (h.imp_right fun h => ⟨h.1, .cons le_rfl fun _ => ?_⟩)
  refine field_parts (by omega) (by omega) (h.2.imp_right fun h => ⟨h.1, .cons le_rfl fun _ => ?_⟩)
  refine field_parts (by omega) (by omega) (h.2.imp_right fun h => ⟨h.1, .cons le_rfl fun _ => ?_⟩)
  refine field_parts (by omega) (by omega) (h.2.imp_right fun h => ⟨h.1, .cons le_rfl fun _ => ?_⟩)
  refine field_parts (by omega) (by omega) (h.2.imp_right fun h => ⟨h.1, .cons le_rfl fun _ => ?_⟩)
  refine field_parts (by omega) (by omega) (h.2.imp_right fun h => ⟨h.1, ?_⟩)
  exact fraction_parts b.microsecond_lt h.2

theorem isoformat_lt_iff (a b : DateTime) : a.isoformat < b.isoformat ↔ a < b := by
  refine ⟨fun h => ?_, isoformat_lt⟩
  rcases trichotomy a b with hlt | rfl | hlt
  · exact hlt
  · exact absurd h (lt_irrefl _)
  · exact absurd h (isoformat_lt hlt).not_gt

theorem isoformat_inj (a b : DateTime) : a.isoformat = b.isoformat ↔ a = b := by
  refine ⟨fun h => ?_, congrArg isoformat⟩
  rcases trichotomy a b with hlt | heq | hlt
  · exact absurd h (isoformat_lt hlt).ne
  · exact heq
  · exact absurd h (isoformat_lt hlt).ne'

lemma isoformat_le_iff (a b : DateTime) : a.isoformat ≤ b.isoformat ↔ a.instant ≤ b.instant := by
  rw [← not_lt, ← not_lt, isoformat_lt_iff, lt_iff_instant_lt]

end DateTime

/-! ## Expiry and the stores -/

/-- The messages bear the timestamps of these times. -/
def Stamped (objects : List ObjectRecord) (time : ObjectRecord → DateTime) : Prop :=
  ∀ obj ∈ objects, obj.published = (time obj).isoformat

/-- The latest activity of a conversation is the latest instant at which one of its messages
was published. -/
theorem latestActivity_instant {objects : List ObjectRecord} {time : ObjectRecord → DateTime}
    (h : Stamped objects time) {root last : String}
    (hlast : (latestActivity objects).lookup root = some last) :
    ∃ obj ∈ objects, threadRoot objects obj.id = root ∧ last = (time obj).isoformat ∧
      ∀ other ∈ objects, threadRoot objects other.id = root →
        (time other).instant ≤ (time obj).instant := by
  obtain ⟨⟨obj, hobj, hroot, hvalue⟩, hle⟩ := Dict.lookup_largest empty_le hlast
  refine ⟨obj, hobj, hroot, by rw [← hvalue, h obj hobj], fun other hother hsame => ?_⟩
  rw [← DateTime.isoformat_le_iff, ← h other hother, ← h obj hobj, hvalue]
  exact hle other hother hsame

/-- What is expired: the conversations of which nothing was published from the cutoff on. -/
theorem expired_iff_instant {objects : List ObjectRecord} {time : ObjectRecord → DateTime}
    (h : Stamped objects time) (cutoff : DateTime) (id : String) :
    id ∈ expiredObjectIds objects cutoff.isoformat ↔ (∃ obj ∈ objects, obj.id = id) ∧
      ∀ other ∈ objects, threadRoot objects other.id = threadRoot objects id →
        (time other).instant < cutoff.instant := by
  rw [mem_expiredObjectIds]
  refine and_congr_right fun _ => forall_congr' fun other => forall_congr' fun hother => ?_
  rw [h other hother, DateTime.isoformat_lt_iff, DateTime.lt_iff_instant_lt]

lemma toLex_isoformat_le (a b : DateTime) (x y : String) :
    toLex (a.isoformat, x) ≤ toLex (b.isoformat, y) ↔
      toLex (a.instant, x) ≤ toLex (b.instant, y) := by
  have heq : a.isoformat = b.isoformat ↔ a.instant = b.instant := by
    rw [le_antisymm_iff, le_antisymm_iff, DateTime.isoformat_le_iff, DateTime.isoformat_le_iff]
  rw [Prod.Lex.toLex_le_toLex, Prod.Lex.toLex_le_toLex, DateTime.isoformat_lt_iff,
    DateTime.lt_iff_instant_lt, heq]

lemma toLex_bytes_le (a b x y : String) :
    toLex (Utf8Order.bytes a, Utf8Order.bytes x) ≤ toLex (Utf8Order.bytes b, Utf8Order.bytes y) ↔
      toLex (a, x) ≤ toLex (b, y) := by
  rw [Prod.Lex.toLex_le_toLex, Prod.Lex.toLex_le_toLex, Utf8Order.bytes_strictMono.lt_iff_lt,
    Utf8Order.bytes_strictMono.injective.eq_iff, Utf8Order.bytes_le_iff]

/-- The listing in memory is by instant, then by id. -/
theorem objectList_by_instant (s : InMemoryStore) {time : ObjectRecord → DateTime}
    (h : Stamped s.objects.values time) :
    s.objectList = Sorting.sortBy (fun obj => toLex ((time obj).instant, obj.id))
      s.objects.values := by
  refine Sorting.sortBy_congr fun a ha b hb => ?_
  simp only [ObjectRecord.age]
  rw [h a ha, h b hb, toLex_isoformat_le]

/-- The rows are selected by instant, then by id. -/
theorem selectObjects_by_instant (t : RowTables) {time : ObjectRow → DateTime}
    (h : ∀ row ∈ t.objects.values, row.published = (time row).isoformat) :
    t.selectObjects = Sorting.sortBy (fun row => toLex ((time row).instant, row.id))
      t.objects.values := by
  refine Sorting.sortBy_congr fun a ha b hb => ?_
  simp only [RowTables.ageBytes]
  rw [toLex_bytes_le, h a ha, h b hb, toLex_isoformat_le]

/-- Every message a run stores bears a timestamp. -/
theorem Reachable.stamped {mb : Mailbox} {s : InMemoryStore} (h : Reachable mb s) :
    ∃ time, Stamped s.objects.values time := by
  have hsome : ∀ obj ∈ s.objects.values, ∃ t : DateTime, obj.published = t.isoformat := by
    intro obj hobj
    obtain ⟨id, hid⟩ := (Dict.mem_values _ _).mp hobj
    refine h.stored (P := fun obj => ∃ t : DateTime, obj.published = t.isoformat) ?_ hid
    intro s _ caller draft stamp sent _ _ _ _ hsent
    obtain ⟨_, _, _, _, _, _, _, _, _, rfl⟩ := (mb.sendIn_ok_iff s caller draft stamp sent).mp hsent
    exact ⟨stamp.now, rfl⟩
  have : Nonempty DateTime := ⟨january 1⟩
  choose! time htime using hsome
  exact ⟨time, htime⟩

/-- The cutoff of an expiry is the retention before it. -/
lemma Mailbox.cutoff_instant {mb : Mailbox} {now cutoff : DateTime}
    (h : mb.cutoff now = .ok cutoff) :
    cutoff.instant + mb.retentionDays.toNat * 86400000000 = now.instant := by
  exact DateTime.minusDays_instant (DateTime.daysBefore_ok h)

/-- What an expiry takes: the conversations idle for longer than the retention. -/
theorem doomed_iff_idle_for {mb : Mailbox} {s : InMemoryStore} {time : ObjectRecord → DateTime}
    (h : Stamped s.objectList time) {now : DateTime} {doomed : Finset String}
    (hdoomed : mb.doomedIn s now = .ok doomed) (id : String) :
    id ∈ doomed ↔ (∃ obj ∈ s.objectList, obj.id = id) ∧
      ∀ other ∈ s.objectList, threadRoot s.objectList other.id = threadRoot s.objectList id →
        (time other).instant + mb.retentionDays.toNat * 86400000000 < now.instant := by
  unfold Mailbox.doomedIn at hdoomed
  cases hcutoff : mb.cutoff now with
  | error e => simp [hcutoff] at hdoomed
  | ok cutoff =>
    simp only [hcutoff, ok_bind, except_pure, Except.ok.injEq] at hdoomed
    subst hdoomed
    rw [expired_iff_instant h]
    have hago := mb.cutoff_instant hcutoff
    refine and_congr_right fun _ => forall_congr' fun other => forall₂_congr fun _ _ => ?_
    omega

/-- Timestamps order as time: so the latest activity, what expires, and the listings of both
stores go by the instants. -/
theorem timestamps_order_as_time :
    (∀ a b : DateTime, (a.isoformat < b.isoformat ↔ a < b) ∧
      (a.isoformat = b.isoformat ↔ a = b) ∧ (a < b ↔ a.instant < b.instant)) ∧
    (∀ objects time, Stamped objects time →
      (∀ root last, (latestActivity objects).lookup root = some last →
        ∃ obj ∈ objects, threadRoot objects obj.id = root ∧ last = (time obj).isoformat ∧
          ∀ other ∈ objects, threadRoot objects other.id = root →
            (time other).instant ≤ (time obj).instant) ∧
      ∀ (cutoff : DateTime) (id : String),
        id ∈ expiredObjectIds objects cutoff.isoformat ↔ (∃ obj ∈ objects, obj.id = id) ∧
          ∀ other ∈ objects, threadRoot objects other.id = threadRoot objects id →
            (time other).instant < cutoff.instant) ∧
    (∀ (s : InMemoryStore) (time : ObjectRecord → DateTime), Stamped s.objects.values time →
      s.objectList = Sorting.sortBy (fun obj => toLex ((time obj).instant, obj.id))
        s.objects.values) ∧
    (∀ (t : RowTables) (time : ObjectRow → DateTime),
      (∀ row ∈ t.objects.values, row.published = (time row).isoformat) →
      t.selectObjects = Sorting.sortBy (fun row => toLex ((time row).instant, row.id))
        t.objects.values) ∧
    ∀ (mb : Mailbox) (s : InMemoryStore), Reachable mb s →
      ∃ time, Stamped s.objects.values time :=
  ⟨fun a b => ⟨a.isoformat_lt_iff b, a.isoformat_inj b, a.lt_iff_instant_lt b⟩,
    fun _ _ h => ⟨fun _ _ hlast => latestActivity_instant h hlast, expired_iff_instant h⟩,
    fun s _ h => objectList_by_instant s h, fun t _ h => selectObjects_by_instant t h,
    fun _ _ h => h.stamped⟩

/-- Half a second into the afternoon of 2 January. -/
def halfPast : DateTime := { january 2 with microsecond := 500000, microsecond_lt := by decide }

/-- On the whole second, and on the half second after it. -/
def twoNotes : List ObjectRecord :=
  [{ id := "m1", attributedTo := "alice", to_ := ["bob"], content := "one",
     published := (january 2).isoformat },
    { id := "m2", attributedTo := "alice", to_ := ["bob"], content := "two",
      published := halfPast.isoformat }]

/-- With the cutoff on the half second, the note of the whole second alone expires. -/
theorem whole_second_expires :
    (january 2).isoformat < halfPast.isoformat ∧
      "m1" ∈ expiredObjectIds twoNotes halfPast.isoformat ∧
      "m2" ∉ expiredObjectIds twoNotes halfPast.isoformat := by
  set time : ObjectRecord → DateTime := fun obj => if obj.id = "m1" then january 2 else halfPast
    with htime
  have hstamped : Stamped twoNotes time := by
    intro obj hobj
    simp only [twoNotes, List.mem_cons, List.not_mem_nil, or_false] at hobj
    rcases hobj with rfl | rfl <;> simp [htime]
  have hroots : threadRoot twoNotes "m1" = "m1" ∧ threadRoot twoNotes "m2" = "m2" := by decide
  have hlater : january 2 < halfPast := by decide
  obtain ⟨hpair, hexpired, _⟩ := timestamps_order_as_time
  have hinstant := (hpair (january 2) halfPast).2.2.mp hlater
  refine ⟨(hpair _ _).1.mpr hlater, ((hexpired _ _ hstamped).2 halfPast "m1").mpr ?_, fun h => ?_⟩
  · refine ⟨⟨_, List.mem_cons_self, rfl⟩, ?_⟩
    intro other hother hsame
    have hcases : other.id = "m1" ∨ other.id = "m2" := by
      simp only [twoNotes, List.mem_cons, List.not_mem_nil, or_false] at hother
      rcases hother with rfl | rfl <;> simp
    rcases hcases with hid | hid
    · simpa [htime, hid] using hinstant
    · rw [hid, hroots.1, hroots.2] at hsame
      exact absurd hsame (by decide)
  · obtain ⟨_, hall⟩ := ((hexpired _ _ hstamped).2 halfPast "m2").mp h
    have hself := hall _ (List.mem_cons_of_mem _ List.mem_cons_self) rfl
    simp [htime] at hself

end AgentMailbox
