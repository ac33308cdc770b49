import AgentMailbox.Exceptions
import Mathlib.Tactic.SplitIfs

/-!
# The clock

Timezone-aware UTC datetimes of years 1 to 9999, with the two operations the
engine applies to a clock reading: `isoformat`, and subtracting whole days. The
calendar's bounds are fields, so only dates that exist can be built.
-/
namespace AgentMailbox

def isLeap (year : ℕ) : Bool :=
  year % 4 = 0 && (year % 100 ≠ 0 || year % 400 = 0)

def daysInMonth (year month : ℕ) : ℕ :=
  if month = 2 then (if isLeap year then 29 else 28)
  else if month = 4 || month = 6 || month = 9 || month = 11 then 30
  else 31

/-- `datetime(..., tzinfo=UTC)`. -/
structure DateTime where
  year : ℕ
  month : ℕ
  day : ℕ
  hour : ℕ
  minute : ℕ
  second : ℕ
  microsecond : ℕ
  year_bounds : 1 ≤ year ∧ year ≤ 9999
  month_bounds : 1 ≤ month ∧ month ≤ 12
  day_bounds : 1 ≤ day ∧ day ≤ daysInMonth year month
  hour_lt : hour < 24
  minute_lt : minute < 60
  second_lt : second < 60
  microsecond_lt : microsecond < 1000000
  deriving DecidableEq, Repr

/-- The last `width` decimal digits of `n`, most significant first. -/
def pad : ℕ → ℕ → List Char
  | 0, _ => []
  | width + 1, n => Char.ofNat (48 + n / 10 ^ width % 10) :: pad width n

namespace DateTime

/-- `isoformat()`: the fraction is left out when it is zero. -/
def isoformat (t : DateTime) : String :=
  String.ofList (pad 4 t.year ++ '-' :: pad 2 t.month ++ '-' :: pad 2 t.day ++
    'T' :: pad 2 t.hour ++ ':' :: pad 2 t.minute ++ ':' :: pad 2 t.second ++
    (if t.microsecond = 0 then [] else '.' :: pad 6 t.microsecond) ++ "+00:00".toList)

lemma daysInMonth_pos (year month : ℕ) : 1 ≤ daysInMonth year month := by
  unfold daysInMonth
  split_ifs <;> omega

/-- The same time on the day before, if there is one. -/
def previousDay (t : DateTime) : Option DateTime :=
  if hday : 1 < t.day then
    some { t with
      day := t.day - 1
      day_bounds := ⟨by omega, (Nat.sub_le _ _).trans t.day_bounds.2⟩ }
  else if hmonth : 1 < t.month then
    some { t with
      month := t.month - 1
      day := daysInMonth t.year (t.month - 1)
      month_bounds := ⟨by omega, (Nat.sub_le _ _).trans t.month_bounds.2⟩
      day_bounds := ⟨daysInMonth_pos _ _, le_rfl⟩ }
  else if hyear : 1 < t.year then
    some { t with
      year := t.year - 1
      month := 12
      day := 31
      year_bounds := ⟨by omega, (Nat.sub_le _ _).trans t.year_bounds.2⟩
      month_bounds := ⟨by omega, le_rfl⟩
      day_bounds := ⟨by omega, by simp [daysInMonth]⟩ }
  else none

/-- `t - timedelta(days=days)`, for a number of days that is not negative. -/
def minusDays : ℕ → DateTime → Except Raised DateTime
  | 0, t => .ok t
  | days + 1, t => match t.previousDay with
    | some earlier => minusDays days earlier
    | none => .error (.overflowError "date value out of range")

/-- `timedelta(days=days)`, as a number of days. -/
def timedeltaDays (days : ℤ) : Except Raised ℤ :=
  if days < -2147483648 ∨ 2147483647 < days then
    .error (.overflowError "Python int too large to convert to C int")
  else if days < -999999999 ∨ 999999999 < days then
    .error (.overflowError ("days=" ++ toString days ++ "; must have magnitude <= 999999999"))
  else .ok days

lemma timedeltaDays_ok {days delta : ℤ} (h : timedeltaDays days = .ok delta) : delta = days := by
  unfold timedeltaDays at h
  split_ifs at h
  cases h
  rfl

/-- `t - timedelta(days=days)`, for a number of days that is not negative, whatever its size. -/
def daysBefore (days : ℤ) (t : DateTime) : Except Raised DateTime :=
  match timedeltaDays days with
  | .error e => .error e
  | .ok delta => t.minusDays delta.toNat

lemma daysBefore_ok {days : ℤ} {t earlier : DateTime} (h : t.daysBefore days = .ok earlier) :
    t.minusDays days.toNat = .ok earlier := by
  unfold daysBefore at h
  cases hdelta : timedeltaDays days with
  | error e => simp [hdelta] at h
  | ok delta =>
    rw [hdelta, timedeltaDays_ok hdelta] at h
    exact h

/-- Noon of a day in 2026, for runs on concrete data. -/
def noon (month day : ℕ) (hmonth : 1 ≤ month ∧ month ≤ 12)
    (hday : 1 ≤ day ∧ day ≤ daysInMonth 2026 month) : DateTime :=
  ⟨2026, month, day, 12, 0, 0, 0, by omega, hmonth, hday, by omega, by omega, by omega, by omega⟩

end DateTime

end AgentMailbox
