import CentLedger.Time.Instant

/-!
# Days and dates

Every day is a date that exists (`Calendar.valid_dateOfDays`), and the days before that date are the day again
(`Calendar.daysOfDate_dateOfDays`). An instant is the day, the time of day and the fraction that it shows
(`Instant.seconds_eq`).
-/

namespace CentLedger

namespace Calendar

/-! ## Years -/

/-- The year of a day begins on the day or before, and the next one after it. -/
theorem yearOfDay_bounds (n : Int) :
    daysBeforeYear (yearOfDay n) ≤ n ∧ n < daysBeforeYear (yearOfDay n + 1) := by
  -- the days before a year are the mean length of its years, but for less than two days
  have hbefore : daysBeforeYear (n * 400 / 146097 - 1) ≤ n := by
    unfold daysBeforeYear
    omega
  have hafter : n < daysBeforeYear (n * 400 / 146097 + 2) := by
    unfold daysBeforeYear
    omega
  simp only [yearOfDay]
  generalize n * 400 / 146097 = y at hbefore hafter
  split
  · rename_i hless
    exact ⟨hbefore, by rwa [Int.sub_add_cancel]⟩
  · rename_i hge
    split
    · rename_i hmore
      exact ⟨hmore, by rwa [Int.add_assoc]⟩
    · rename_i hlt
      exact ⟨Int.not_lt.1 hge, Int.not_le.1 hlt⟩

theorem isLeap_iff (year : Int) : isLeap year = true ↔ year % 4 = 0 ∧ (year % 100 ≠ 0 ∨ year % 400 = 0) := by
  simp [isLeap]

/-- The months of a year fill it. -/
theorem daysBeforeMonth_year (year : Int) :
    daysBeforeYear (year + 1) = daysBeforeYear year + (daysBeforeMonth year 12 + monthLength year 12 : Nat) := by
  have hdays : daysBeforeMonth year 12 + monthLength year 12 = 365 + if isLeap year = true then 1 else 0 := by
    simp only [daysBeforeMonth, monthLength]
    split <;> rfl
  rw [hdays]
  unfold daysBeforeYear
  by_cases hleap : isLeap year = true
  · rw [if_pos hleap]
    rw [isLeap_iff] at hleap
    omega
  · rw [if_neg hleap]
    rw [isLeap_iff] at hleap
    omega

/-! ## Months -/

/-- A day of a year, counted from the first day of a month, is found in that month or a later one. -/
theorem monthOfDay_spec (year : Int) (months month n : Nat) (hmonth : 1 ≤ month) (hlast : month + months = 12)
    (hn : daysBeforeMonth year month + n < daysBeforeMonth year 12 + monthLength year 12) :
    Valid ⟨year, (monthOfDay year months month n).1, (monthOfDay year months month n).2⟩ ∧
      daysBeforeMonth year (monthOfDay year months month n).1 + (monthOfDay year months month n).2 =
        daysBeforeMonth year month + n + 1 := by
  induction months generalizing month n with
  | zero =>
    obtain rfl : month = 12 := hlast
    refine ⟨⟨hmonth, Nat.le_refl 12, Nat.le_add_left 1 n, ?_⟩, rfl⟩
    show n + 1 ≤ monthLength year 12
    omega
  | succ months ih =>
    simp only [monthOfDay]
    split
    · rename_i hin
      exact ⟨⟨hmonth, by show month ≤ 12; omega, Nat.le_add_left 1 n, hin⟩, rfl⟩
    · rename_i hout
      have hnext : daysBeforeMonth year (month + 1) = daysBeforeMonth year month + monthLength year month := by
        cases month with
        | zero => cases hmonth
        | succ m => rfl
      have hrest := ih (month + 1) (n - monthLength year month) (Nat.le_add_left 1 month) (by omega) (by omega)
      refine ⟨hrest.1, hrest.2.trans ?_⟩
      omega

/-! ## Dates -/

/-- The day of a date is found again, and the date exists. -/
theorem dateOfDays_spec (days : Int) : Valid (dateOfDays days) ∧ daysOfDate (dateOfDays days) = days := by
  obtain ⟨hfrom, hto⟩ := yearOfDay_bounds (days + epochOffset)
  simp only [dateOfDays]
  generalize yearOfDay (days + epochOffset) = year at hfrom hto
  rw [daysBeforeMonth_year] at hto
  obtain ⟨hvalid, hdays⟩ := monthOfDay_spec year 11 1 (days + epochOffset - daysBeforeYear year).toNat (by decide)
    (by decide) (by show 0 + _ < _; omega)
  refine ⟨hvalid, ?_⟩
  have hfirst : daysBeforeMonth year 1 = 0 := rfl
  simp only [daysOfDate]
  omega

/-- Every day is a date that exists. -/
theorem valid_dateOfDays (days : Int) : Valid (dateOfDays days) :=
  (dateOfDays_spec days).1

/-- The days before the date of a day are the day. -/
theorem daysOfDate_dateOfDays (days : Int) : daysOfDate (dateOfDays days) = days :=
  (dateOfDays_spec days).2

theorem monthLength_le (year : Int) (month : Nat) : monthLength year month ≤ 31 := by
  unfold monthLength
  split
  · split <;> decide
  · decide
  · decide
  · decide
  · decide
  · decide

end Calendar

namespace Instant

/-- The hour, minute and second that an instant shows exist. -/
theorem timeOfDay_bounds (t : Instant) : t.timeOfDay.hour < 24 ∧ t.timeOfDay.minute < 60 ∧ t.timeOfDay.second < 60 := by
  simp only [timeOfDay]
  omega

/-- An instant is the day and the time of day that it shows. -/
theorem seconds_eq (t : Instant) :
    t.seconds = Calendar.daysOfDate t.date * 86400 +
      ((t.timeOfDay.hour * 3600 + t.timeOfDay.minute * 60 + t.timeOfDay.second : Nat) : Int) := by
  rw [date, Calendar.daysOfDate_dateOfDays]
  simp only [days, timeOfDay]
  omega

/-- A leap second continues the last second of a minute. -/
theorem second_of_leap {t : Instant} (h : 1_000_000_000 ≤ t.nanos) : t.timeOfDay.second = 59 := by
  have hlast : t.seconds % 60 = 59 := (t.valid.resolve_left (by omega)).2
  simp only [timeOfDay]
  omega

end Instant

end CentLedger
