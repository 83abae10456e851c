import Mathlib.Algebra.Group.Nat.Defs
import Mathlib.Order.Monotone.Basic
import Stockroom.Time.Moment

namespace Stockroom

/- Digits -/

theorem append_lt_append {xs ys : List Char} (us vs : List Char) (same : xs.length = ys.length)
    (less : xs < ys) : xs ++ us < ys ++ vs := by
  induction xs generalizing ys with
  | nil =>
    cases ys with
    | nil => exact (List.lt_irrefl _ less).elim
    | cons y ys => cases same
  | cons x xs ih =>
    cases ys with
    | nil => cases same
    | cons y ys =>
      rw [List.cons_append, List.cons_append, List.cons_lt_cons_iff]
      rcases List.cons_lt_cons_iff.mp less with first | ⟨rfl, rest⟩
      · exact .inl first
      · exact .inr ⟨rfl, ih (Nat.succ.inj same) rest⟩

namespace Moment

theorem fixedDigits_length (width n : Nat) : (fixedDigits width n).length = width := by
  induction width generalizing n with
  | zero => rfl
  | succ width ih => rw [fixedDigits, List.length_append, ih, List.length_singleton]

theorem digitChar_lt {a b : Nat} (less : a < b) (small : b < 10) :
    Nat.digitChar a < Nat.digitChar b := by
  have all : ∀ b : Fin 10, ∀ a : Fin b.val, Nat.digitChar a < Nat.digitChar b := by decide
  exact all ⟨b, small⟩ ⟨a, less⟩

theorem fixedDigits_lt {width n m : Nat} (less : n < m) (fits : m < 10 ^ width) :
    fixedDigits width n < fixedDigits width m := by
  induction width generalizing n m with
  | zero => omega
  | succ width ih =>
    rw [Nat.pow_succ] at fits
    rw [fixedDigits, fixedDigits]
    rcases Nat.lt_or_ge (n / 10) (m / 10) with front | front
    · refine append_lt_append _ _ ?_ (ih front (by omega))
      rw [fixedDigits_length, fixedDigits_length]
    · have same : n / 10 = m / 10 := by omega
      rw [same]
      apply List.append_left_lt
      exact List.cons_lt_cons_iff.mpr (.inl (digitChar_lt (by omega) (by omega)))

theorem digits_lt {width n m : Nat} {us vs : List Char} (fits : m < 10 ^ width)
    (less : n < m ∨ n = m ∧ us < vs) : fixedDigits width n ++ us < fixedDigits width m ++ vs := by
  rcases less with first | ⟨rfl, rest⟩
  · refine append_lt_append _ _ ?_ (fixedDigits_lt first fits)
    rw [fixedDigits_length, fixedDigits_length]
  · exact List.append_left_lt rest

end Moment

/- Dates -/

namespace Date

theorem daysBeforeYear_succ {y : Nat} (first : 1 ≤ y) :
    daysBeforeYear y + 365 ≤ daysBeforeYear (y + 1) ∧
      daysBeforeYear (y + 1) ≤ daysBeforeYear y + 366 := by
  unfold daysBeforeYear
  dsimp only
  omega

theorem daysBeforeYear_mono {y z : Nat} (h : y ≤ z) : daysBeforeYear y ≤ daysBeforeYear z := by
  refine monotone_nat_of_le_succ (fun n => ?_) h
  cases n with
  | zero => decide
  | succ n =>
    have := daysBeforeYear_succ (y := n + 1) (by omega)
    omega

theorem yearOf_bounds (days : Nat) :
    daysBeforeYear (yearOf days) ≤ days ∧ days < daysBeforeYear (yearOf days + 1) := by
  unfold yearOf
  dsimp only
  split
  · rename_i early
    unfold daysBeforeYear at early ⊢
    dsimp only at early ⊢
    omega
  · split
    · rename_i early late
      unfold daysBeforeYear at early late ⊢
      dsimp only at early late ⊢
      omega
    · omega

theorem yearOf_mono {a b : Nat} (h : a ≤ b) : yearOf a ≤ yearOf b := by
  by_contra less
  have later := daysBeforeYear_mono (y := yearOf b + 1) (z := yearOf a) (by omega)
  have begun := (yearOf_bounds a).1
  have ended := (yearOf_bounds b).2
  omega

theorem monthOf_bounds (year day month : Nat) :
    daysBeforeMonth year (monthOf year day month) ≤ day ∧
      (1 ≤ monthOf year day month ∧ monthOf year day month ≤ max month 1) ∧
      ∀ k, monthOf year day month < k → k ≤ month → day < daysBeforeMonth year k := by
  induction month with
  | zero =>
    refine ⟨Nat.zero_le _, ⟨Nat.le_refl 1, Nat.le_refl 1⟩, fun k above most => ?_⟩
    omega
  | succ month ih =>
    unfold monthOf
    split
    · rename_i begun
      refine ⟨begun, ⟨by omega, by omega⟩, fun k above most => ?_⟩
      omega
    · rename_i early
      obtain ⟨begun, ⟨least, most⟩, later⟩ := ih
      refine ⟨begun, ⟨least, by omega⟩, fun k above below => ?_⟩
      rcases Nat.lt_or_ge month k with last | inner
      · obtain rfl : k = month + 1 := by omega
        omega
      · exact later k above inner

theorem monthOf_mono (year : Nat) {a b : Nat} (h : a ≤ b) :
    monthOf year a 12 ≤ monthOf year b 12 := by
  by_contra less
  obtain ⟨begun, ⟨_, most⟩, _⟩ := monthOf_bounds year a 12
  obtain ⟨_, _, later⟩ := monthOf_bounds year b 12
  have after := later (monthOf year a 12) (by omega) (by omega)
  omega

theorem daysInMonth_le (year month : Nat) : daysInMonth year month ≤ 31 := by
  unfold daysInMonth
  repeat' split
  all_goals decide

theorem daysBeforeMonth_succ {month : Nat} (first : 1 ≤ month) (year : Nat) :
    daysBeforeMonth year (month + 1) = daysBeforeMonth year month + daysInMonth year month := by
  obtain ⟨m, rfl⟩ : ∃ m, month = m + 1 := ⟨month - 1, by omega⟩
  rfl

theorem daysBeforeMonth_mono (year : Nat) : Monotone (daysBeforeMonth year) := by
  refine monotone_nat_of_le_succ fun month => ?_
  cases month with
  | zero => exact Nat.le_refl 0
  | succ month => exact Nat.le_add_right _ _

theorem daysBeforeMonth_end (year : Nat) :
    daysBeforeMonth year 13 = if isLeap year then 366 else 365 := by
  cases leap : isLeap year <;> simp [daysBeforeMonth, daysInMonth, leap]

theorem daysBeforeYear_next {y : Nat} (first : 1 ≤ y) :
    daysBeforeYear (y + 1) = daysBeforeYear y + daysBeforeMonth y 13 := by
  obtain ⟨past, rfl⟩ : ∃ past, y = past + 1 := ⟨y - 1, by omega⟩
  have leaps : past / 100 ≤ past / 4 := by omega
  have fourth : (past + 1) % 100 = 0 → (past + 1) % 4 = 0 := by omega
  have hundredth : (past + 1) % 400 = 0 → (past + 1) % 100 = 0 := by omega
  rw [daysBeforeMonth_end]
  unfold daysBeforeYear isLeap
  simp only [Nat.add_sub_cancel, Nat.succ_div, Nat.dvd_iff_mod_eq_zero, Bool.and_eq_true,
    Bool.or_eq_true, beq_iff_eq, bne_iff_ne]
  -- What is left depends on the three remainders only.
  generalize past / 4 = a at *
  generalize past / 100 = b at *
  generalize (past + 1) % 4 = i at *
  generalize (past + 1) % 100 = j at *
  generalize (past + 1) % 400 = k at *
  split_ifs <;> omega

theorem yearOf_pos (days : Nat) : 1 ≤ yearOf days := by
  by_contra early
  have next := (yearOf_bounds days).2
  obtain first_year : yearOf days = 0 := by omega
  rw [first_year] at next
  exact absurd next (Nat.not_lt_zero days)

theorem monthOf_before (days : Nat) :
    days - daysBeforeYear (yearOf days) < daysBeforeMonth (yearOf days)
      (monthOf (yearOf days) (days - daysBeforeYear (yearOf days)) 12 + 1) := by
  obtain ⟨begun, ended⟩ := yearOf_bounds days
  obtain ⟨_, ⟨_, most⟩, later⟩ :=
    monthOf_bounds (yearOf days) (days - daysBeforeYear (yearOf days)) 12
  rcases Nat.lt_or_ge (monthOf (yearOf days) (days - daysBeforeYear (yearOf days)) 12) 12
    with inner | last
  · exact later _ (Nat.lt_succ_self _) inner
  · have twelve : monthOf (yearOf days) (days - daysBeforeYear (yearOf days)) 12 = 12 := by omega
    rw [daysBeforeYear_next (yearOf_pos days)] at ended
    rw [twelve]
    change _ < daysBeforeMonth (yearOf days) 13
    omega

theorem day_bounds (days : Nat) : 1 ≤ (ofDays days).day ∧
    (ofDays days).day ≤ daysInMonth (ofDays days).year (ofDays days).month := by
  obtain ⟨_, ⟨least, _⟩, _⟩ :=
    monthOf_bounds (yearOf days) (days - daysBeforeYear (yearOf days)) 12
  have before := monthOf_before days
  rw [daysBeforeMonth_succ least] at before
  unfold ofDays
  dsimp only
  omega

theorem day_small (days : Nat) : (ofDays days).day < 100 := by
  have most := (day_bounds days).2
  have short := daysInMonth_le (ofDays days).year (ofDays days).month
  omega

theorem month_small (days : Nat) : (ofDays days).month < 100 := by
  obtain ⟨_, ⟨_, most⟩, _⟩ :=
    monthOf_bounds (yearOf days) (days - daysBeforeYear (yearOf days)) 12
  unfold ofDays
  dsimp only
  omega

theorem year_small {days : Nat} (h : days < 3652059) : (ofDays days).year < 10000 := by
  have begun := (yearOf_bounds days).1
  change yearOf days < 10000
  by_contra late
  have last := daysBeforeYear_mono (y := 10000) (z := yearOf days) (by omega)
  have total : daysBeforeYear 10000 = 3652059 := rfl
  omega

/-- A later day has a larger part at the first place where its date differs. -/
theorem ofDays_lt {a b : Nat} (less : a < b) :
    (ofDays a).year < (ofDays b).year ∨ (ofDays a).year = (ofDays b).year ∧
      ((ofDays a).month < (ofDays b).month ∨ (ofDays a).month = (ofDays b).month ∧
        (ofDays a).day < (ofDays b).day) := by
  have years := yearOf_mono (Nat.le_of_lt less)
  have begun := (yearOf_bounds a).1
  unfold ofDays
  dsimp only
  rcases Nat.lt_or_eq_of_le years with earlier | same
  · exact .inl earlier
  refine .inr ⟨same, ?_⟩
  rw [← same]
  have within : a - daysBeforeYear (yearOf a) < b - daysBeforeYear (yearOf a) := by omega
  rcases Nat.lt_or_eq_of_le (monthOf_mono (yearOf a) (Nat.le_of_lt within)) with earlier | equal
  · exact .inl earlier
  refine .inr ⟨equal, ?_⟩
  have start := (monthOf_bounds (yearOf a) (a - daysBeforeYear (yearOf a)) 12).1
  rw [← equal]
  omega

/- Dates that are valid -/

theorem isValid_iff {d : Date} : d.isValid = true ↔ (1 ≤ d.year ∧ d.year ≤ 9999) ∧
    (1 ≤ d.month ∧ d.month ≤ 12) ∧ 1 ≤ d.day ∧ d.day ≤ daysInMonth d.year d.month := by
  simp [isValid, and_assoc]

theorem yearOf_within {y days : Nat} (begun : daysBeforeYear y ≤ days)
    (before : days < daysBeforeYear (y + 1)) : yearOf days = y := by
  have bounds := yearOf_bounds days
  apply Nat.le_antisymm
  · by_contra late
    have := daysBeforeYear_mono (y := y + 1) (z := yearOf days) (by omega)
    omega
  · by_contra early
    have := daysBeforeYear_mono (y := yearOf days + 1) (z := y) (by omega)
    omega

theorem monthOf_within {year day month : Nat} (last : month ≤ 12)
    (begun : daysBeforeMonth year month ≤ day) (before : day < daysBeforeMonth year (month + 1)) :
    monthOf year day 12 = month := by
  obtain ⟨start, _, later⟩ := monthOf_bounds year day 12
  apply Nat.le_antisymm
  · by_contra late
    have := daysBeforeMonth_mono year (a := month + 1) (b := monthOf year day 12) (by omega)
    omega
  · by_contra early
    have := later month (by omega) last
    omega

theorem dayOfYear_lt {d : Date} (valid : d.isValid = true) :
    daysBeforeMonth d.year d.month + (d.day - 1) < daysBeforeMonth d.year (d.month + 1) := by
  obtain ⟨_, ⟨first, _⟩, least, most⟩ := isValid_iff.mp valid
  rw [daysBeforeMonth_succ first]
  omega

theorem toDays_bounds {d : Date} (valid : d.isValid = true) :
    daysBeforeYear d.year ≤ d.toDays ∧ d.toDays < daysBeforeYear (d.year + 1) := by
  obtain ⟨⟨first, _⟩, ⟨_, last⟩, _⟩ := isValid_iff.mp valid
  have day := dayOfYear_lt valid
  have months := daysBeforeMonth_mono d.year (a := d.month + 1) (b := 13) (by omega)
  rw [daysBeforeYear_next first]
  unfold toDays
  omega

theorem toDays_lt {d : Date} (valid : d.isValid = true) : d.toDays < 3652059 := by
  obtain ⟨⟨_, last⟩, _⟩ := isValid_iff.mp valid
  have ended := daysBeforeYear_mono (y := d.year + 1) (z := 10000) (by omega)
  have total : daysBeforeYear 10000 = 3652059 := rfl
  have within := (toDays_bounds valid).2
  omega

theorem ofDays_toDays {d : Date} (valid : d.isValid = true) : ofDays d.toDays = d := by
  obtain ⟨_, ⟨_, last⟩, least, _⟩ := isValid_iff.mp valid
  have bounds := toDays_bounds valid
  have year := yearOf_within bounds.1 bounds.2
  have day : d.toDays - daysBeforeYear d.year = daysBeforeMonth d.year d.month + (d.day - 1) := by
    unfold toDays
    omega
  have month := monthOf_within last (Nat.le_add_right _ _) (dayOfYear_lt valid)
  have rest : daysBeforeMonth d.year d.month + (d.day - 1) - daysBeforeMonth d.year d.month + 1 =
      d.day := by
    omega
  unfold ofDays
  dsimp only
  rw [year, day, month, rest]

theorem toDays_ofDays (days : Nat) : (ofDays days).toDays = days := by
  have begun := (yearOf_bounds days).1
  have start := (monthOf_bounds (yearOf days) (days - daysBeforeYear (yearOf days)) 12).1
  unfold toDays ofDays
  dsimp only
  omega

theorem isValid_ofDays {days : Nat} (early : days < 3652059) : (ofDays days).isValid = true := by
  have first : 1 ≤ (ofDays days).year := yearOf_pos days
  have last := year_small early
  have month : 1 ≤ (ofDays days).month ∧ (ofDays days).month ≤ 12 :=
    (monthOf_bounds (yearOf days) (days - daysBeforeYear (yearOf days)) 12).2.1
  exact isValid_iff.mpr ⟨⟨first, by omega⟩, month, day_bounds days⟩

end Date

/- Moments -/

namespace Moment

theorem days_lt (m : Moment) : m.micros / microsPerDay < 3652059 := by
  have inRange := m.inRange
  unfold limit at inRange
  unfold microsPerDay microsPerSecond
  omega

theorem clock_bounds (m : Moment) : m.secondOfDay < 86400 ∧ m.fraction < 1000000 :=
  ⟨Nat.mod_lt _ (by decide), Nat.mod_lt _ (by decide)⟩

theorem clock_lt {a b : Moment} (less : a < b)
    (same : a.micros / microsPerDay = b.micros / microsPerDay) :
    a.secondOfDay < b.secondOfDay ∨ a.secondOfDay = b.secondOfDay ∧ a.fraction < b.fraction := by
  have order : a.micros < b.micros := less
  unfold microsPerDay microsPerSecond at same
  unfold secondOfDay fraction microsPerSecond
  omega

theorem dateChars_lt {a b : Moment} (us vs : List Char)
    (less : a.micros / microsPerDay < b.micros / microsPerDay) :
    a.dateChars ++ us < b.dateChars ++ vs := by
  have year := Date.year_small b.days_lt
  unfold dateChars
  simp only [List.append_assoc, List.cons_append]
  refine digits_lt year ((Date.ofDays_lt less).imp_right fun ⟨sameYear, rest⟩ => ⟨sameYear, ?_⟩)
  refine List.cons_lt_cons_iff.mpr (.inr ⟨rfl, ?_⟩)
  refine digits_lt (Date.month_small _) (rest.imp_right fun ⟨sameMonth, day⟩ => ⟨sameMonth, ?_⟩)
  refine List.cons_lt_cons_iff.mpr (.inr ⟨rfl, ?_⟩)
  exact digits_lt (Date.day_small _) (.inl day)

theorem clockChars_lt {a b : Moment} (us vs : List Char)
    (less : a.secondOfDay < b.secondOfDay ∨ a.secondOfDay = b.secondOfDay ∧ us < vs) :
    a.clockChars ++ us < b.clockChars ++ vs := by
  have within := b.clock_bounds.1
  rcases less with earlier | ⟨same, rest⟩
  · unfold clockChars
    simp only [List.append_assoc, List.cons_append]
    generalize a.secondOfDay = s at *
    generalize b.secondOfDay = s' at *
    refine digits_lt (by omega) ?_
    rcases Nat.lt_or_ge (s / 3600) (s' / 3600) with hour | hour
    · exact .inl hour
    refine .inr ⟨by omega, List.cons_lt_cons_iff.mpr (.inr ⟨rfl, digits_lt (by omega) ?_⟩)⟩
    rcases Nat.lt_or_ge (s / 60 % 60) (s' / 60 % 60) with minute | minute
    · exact .inl minute
    refine .inr ⟨by omega, List.cons_lt_cons_iff.mpr (.inr ⟨rfl, digits_lt (by omega) ?_⟩)⟩
    exact .inl (by omega)
  · unfold clockChars
    rw [same]
    exact List.append_left_lt rest

theorem storedChars_lt {a b : Moment} (less : a < b) : a.storedChars < b.storedChars := by
  have order : a.micros < b.micros := less
  unfold storedChars
  by_cases same : a.micros / microsPerDay = b.micros / microsPerDay
  · have dates : a.dateChars = b.dateChars := by
      unfold dateChars date
      rw [same]
    rw [dates]
    refine List.append_left_lt (List.cons_lt_cons_iff.mpr (.inr ⟨rfl, clockChars_lt _ _ ?_⟩))
    refine (clock_lt less same).imp_right fun ⟨second, fraction⟩ => ⟨second, ?_⟩
    exact List.cons_lt_cons_iff.mpr (.inr ⟨rfl, fixedDigits_lt fraction b.clock_bounds.2⟩)
  · refine dateChars_lt _ _ ?_
    unfold microsPerDay microsPerSecond at same ⊢
    omega

/-- Stored moments compare as the moments do. -/
theorem toStored_le {a b : Moment} : a.toStored ≤ b.toStored ↔ a ≤ b := by
  have stored (x y : Moment) : x.toStored < y.toStored ↔ x.storedChars < y.storedChars := by
    unfold toStored
    rw [String.lt_iff, String.toList_ofList, String.toList_ofList]
  rw [← String.not_lt, stored]
  constructor
  · intro notLess
    by_contra above
    exact notLess (storedChars_lt (Nat.lt_of_not_ge above))
  · intro atMost less
    rcases Nat.lt_or_eq_of_le atMost with below | same
    · exact List.lt_asymm less (storedChars_lt below)
    · obtain ⟨micros, _⟩ := a
      obtain ⟨micros', _⟩ := b
      cases same
      exact List.lt_irrefl _ less

end Moment

/- Dates with a time of day -/

/-- A date of the years 1 to 9999 and a time of day, to the microsecond. -/
structure DateTime where
  date : Date
  hour : Nat
  minute : Nat
  second : Nat
  micro : Nat
  inCalendar : date.isValid = true
  onClock : hour < 24 ∧ minute < 60 ∧ second < 60 ∧ micro < 1000000

namespace DateTime

open Moment (fixedDigits microsPerDay microsPerSecond)

/-- The microseconds from the start of year 1. -/
def instant (d : DateTime) : Nat :=
  d.date.toDays * microsPerDay + (d.hour * 3600 + d.minute * 60 + d.second) * microsPerSecond +
    d.micro

/-- Every part with its number of digits, zeros in front, and six digits of fraction. -/
def text (d : DateTime) : String :=
  String.ofList (fixedDigits 4 d.date.year ++ '-' :: (fixedDigits 2 d.date.month ++ '-' ::
    (fixedDigits 2 d.date.day ++ ' ' :: (fixedDigits 2 d.hour ++ ':' ::
      (fixedDigits 2 d.minute ++ ':' :: (fixedDigits 2 d.second ++ '.' :: fixedDigits 6 d.micro))))))

theorem instant_lt (d : DateTime) : d.instant < Moment.limit := by
  obtain ⟨hour, minute, second, micro⟩ := d.onClock
  have day := Date.toDays_lt d.inCalendar
  unfold instant microsPerDay microsPerSecond Moment.limit
  omega

def moment (d : DateTime) : Moment := ⟨d.instant, d.instant_lt⟩

theorem moment_parts (d : DateTime) : d.moment.date = d.date ∧
    d.moment.secondOfDay = d.hour * 3600 + d.minute * 60 + d.second ∧
    d.moment.fraction = d.micro := by
  obtain ⟨hour, minute, second, micro⟩ := d.onClock
  have day : d.instant / microsPerDay = d.date.toDays := by
    unfold instant microsPerDay microsPerSecond
    omega
  refine ⟨?_, ?_, ?_⟩
  · unfold Moment.date moment
    rw [day, Date.ofDays_toDays d.inCalendar]
  · unfold Moment.secondOfDay moment instant microsPerDay microsPerSecond
    dsimp only
    omega
  · unfold Moment.fraction moment instant microsPerDay microsPerSecond
    dsimp only
    omega

theorem moment_toStored (d : DateTime) : d.moment.toStored = d.text := by
  obtain ⟨_, minute, second, _⟩ := d.onClock
  obtain ⟨date, clock, fraction⟩ := d.moment_parts
  have hours : (d.hour * 3600 + d.minute * 60 + d.second) / 3600 = d.hour := by omega
  have minutes : (d.hour * 3600 + d.minute * 60 + d.second) / 60 % 60 = d.minute := by omega
  have seconds : (d.hour * 3600 + d.minute * 60 + d.second) % 60 = d.second := by omega
  unfold Moment.toStored Moment.storedChars Moment.dateChars Moment.clockChars text
  simp only [date, clock, fraction, hours, minutes, seconds, List.append_assoc, List.cons_append]

theorem text_le {a b : DateTime} : a.text ≤ b.text ↔ a.instant ≤ b.instant := by
  rw [← moment_toStored, ← moment_toStored]
  exact Moment.toStored_le

end DateTime

namespace Moment

def dateTime (m : Moment) : DateTime where
  date := m.date
  hour := m.secondOfDay / 3600
  minute := m.secondOfDay / 60 % 60
  second := m.secondOfDay % 60
  micro := m.fraction
  inCalendar := Date.isValid_ofDays m.days_lt
  onClock := by
    have bounds := m.clock_bounds
    omega

theorem dateTime_instant (m : Moment) : m.dateTime.instant = m.micros := by
  unfold DateTime.instant dateTime date
  dsimp only
  rw [Date.toDays_ofDays]
  unfold secondOfDay fraction microsPerDay microsPerSecond
  omega

theorem dateTime_moment (m : Moment) : m.dateTime.moment = m := by
  have same := m.dateTime_instant
  obtain ⟨micros, _⟩ := m
  unfold DateTime.moment
  simp only [same]

end Moment
end Stockroom
