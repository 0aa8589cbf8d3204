import Mathlib.Data.Prod.Lex
import Mathlib.Order.Lattice

/-!
# Calendar — UTC moments and calendar months (`services/data_lifecycle.py`)

A moment is the number of its month (counted from year 0), its day and its microsecond of
the day; years outside 1..9999, which `datetime` refuses, are not excluded here.
-/

namespace Mobility
namespace Retention

/-- `calendar.monthrange(year, month)[1]` of the month with this number. -/
def daysInMonth (monthIndex : Int) : Nat :=
  let year := monthIndex / 12
  let month := monthIndex % 12 + 1
  if month = 2 then
    if year % 4 = 0 ∧ (year % 100 ≠ 0 ∨ year % 400 = 0) then 29 else 28
  else if month = 4 ∨ month = 6 ∨ month = 9 ∨ month = 11 then 30
  else 31

theorem daysInMonth_pos (monthIndex : Int) : 1 ≤ daysInMonth monthIndex := by
  unfold daysInMonth
  dsimp only
  split_ifs
  all_goals decide

def microsPerDay : Nat := 24 * 60 * 60 * 1000000

theorem microsPerDay_pos : 0 < microsPerDay := by decide

structure Moment where
  monthIndex : Int
  day : Nat
  micros : Nat
  one_le_day : 1 ≤ day
  day_le : day ≤ daysInMonth monthIndex
  micros_lt : micros < microsPerDay
  deriving DecidableEq, Repr

namespace Moment

def key (moment : Moment) : Int ×ₗ Nat ×ₗ Nat :=
  toLex (moment.monthIndex, toLex (moment.day, moment.micros))

theorem key_injective : Function.Injective key := by
  rintro ⟨monthIndex, day, micros, _, _, _⟩ ⟨monthIndex', day', micros', _, _, _⟩ h
  simp only [key, EmbeddingLike.apply_eq_iff_eq, Prod.mk.injEq] at h
  rcases h with ⟨rfl, rfl, rfl⟩
  rfl

instance instLinearOrder : LinearOrder Moment :=
  LinearOrder.lift' key key_injective

theorem le_iff {a b : Moment} :
    a ≤ b ↔ a.monthIndex < b.monthIndex
      ∨ a.monthIndex = b.monthIndex ∧ (a.day < b.day ∨ a.day = b.day ∧ a.micros ≤ b.micros) := by
  have hkey : a ≤ b ↔ a.key ≤ b.key := Iff.rfl
  rw [hkey, key, key, Prod.Lex.toLex_le_toLex, Prod.Lex.toLex_le_toLex]

end Moment

/-- `month_start`. -/
def monthStart (moment : Moment) : Moment :=
  { monthIndex := moment.monthIndex
    day := 1
    micros := 0
    one_le_day := Nat.one_pos
    day_le := daysInMonth_pos _
    micros_lt := microsPerDay_pos }

/-- `subtract_calendar_months`: the same day and time, or the last day of a shorter month. -/
def subtractCalendarMonths (moment : Moment) (months : Nat) : Moment :=
  { monthIndex := moment.monthIndex - months
    day := min moment.day (daysInMonth (moment.monthIndex - months))
    micros := moment.micros
    one_le_day := le_min moment.one_le_day (daysInMonth_pos _)
    day_le := min_le_right _ _
    micros_lt := moment.micros_lt }

/-- The bound is the start of a month. -/
def Moment.Aligned (moment : Moment) : Prop :=
  moment = monthStart moment

instance (moment : Moment) : Decidable moment.Aligned :=
  inferInstanceAs (Decidable (_ = _))

/-- A month's start is compared by its month alone. -/
theorem Moment.Aligned.le_iff {bound moment : Moment} (h : bound.Aligned) :
    bound ≤ moment ↔ bound.monthIndex ≤ moment.monthIndex := by
  have hday : bound.day = 1 := congrArg Moment.day h
  have hmicros : bound.micros = 0 := congrArg Moment.micros h
  rw [Moment.le_iff, hday, hmicros]
  constructor
  · rintro (hlt | ⟨heq, _⟩)
    · exact hlt.le
    · exact heq.le
  · intro hle
    rcases hle.lt_or_eq with hlt | heq
    · exact .inl hlt
    · refine .inr ⟨heq, ?_⟩
      rcases (moment.one_le_day).lt_or_eq with hlater | hfirst
      · exact .inl hlater
      · exact .inr ⟨hfirst, Nat.zero_le _⟩

/-- What is expired stays expired: the cutoff of a later moment keeps every month's start
that is at most the cutoff of an earlier one. -/
theorem Moment.Aligned.le_cutoff_of_le {bound now later : Moment} {months : Nat}
    (h : bound.Aligned) (hle : bound ≤ subtractCalendarMonths now months) (hnow : now ≤ later) :
    bound ≤ subtractCalendarMonths later months := by
  have hmonths : now.monthIndex ≤ later.monthIndex := by
    rcases Moment.le_iff.mp hnow with hlt | ⟨heq, _⟩
    · exact hlt.le
    · exact heq.le
  refine h.le_iff.mpr ((h.le_iff.mp hle).trans ?_)
  exact Int.sub_le_sub_right hmonths _

end Retention
end Mobility
