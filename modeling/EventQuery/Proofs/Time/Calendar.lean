import EventQuery.Time.Calendar

/-!
The calendar counts days correctly: the date of a day is the one whose year and month enclose it. A
year and a month are determined by the days that they enclose.
-/

namespace EventQuery.Time

/-! ### Years -/

theorem daysBeforeMonth_twelve (year : Int) :
    daysBeforeMonth year 12 = if isLeapYear year then 366 else 365 := by
  simp only [daysBeforeMonth, monthLength]
  split <;> rfl

theorem daysBeforeYear_succ (year : Int) :
    daysBeforeYear (year + 1) = daysBeforeYear year + daysBeforeMonth year 12 := by
  rw [daysBeforeMonth_twelve]
  simp only [daysBeforeYear, isLeapYear, Bool.and_eq_true, Bool.or_eq_true, decide_eq_true_eq,
    ne_eq]
  split <;> omega

theorem daysBeforeYear_mono {a b : Int} (h : a ≤ b) : daysBeforeYear a ≤ daysBeforeYear b := by
  simp only [daysBeforeYear]
  omega

/-- The estimate of the year is corrected to the year that encloses the day. -/
theorem yearOfDay_spec (n : Int) :
    daysBeforeYear (yearOfDay n) ≤ n ∧ n < daysBeforeYear (yearOfDay n + 1) := by
  unfold yearOfDay
  dsimp only
  -- The estimate is too late by a year, too early by a year, or right.
  split
  · rename_i h
    simp only [daysBeforeYear] at h ⊢
    omega
  · split
    · rename_i _ h
      simp only [daysBeforeYear] at h ⊢
      omega
    · omega

theorem yearOfDay_eq {n year : Int} (h : daysBeforeYear year ≤ n)
    (h' : n < daysBeforeYear (year + 1)) :
    yearOfDay n = year := by
  obtain ⟨hlow, hhigh⟩ := yearOfDay_spec n
  rcases Int.lt_trichotomy (yearOfDay n) year with hlt | heq | hgt
  · have hmono := daysBeforeYear_mono (show yearOfDay n + 1 ≤ year by omega)
    omega
  · exact heq
  · have hmono := daysBeforeYear_mono (show year + 1 ≤ yearOfDay n by omega)
    omega

/-! ### Months -/

theorem daysBeforeMonth_mono (year : Int) {a b : Nat} (h : a ≤ b) :
    daysBeforeMonth year a ≤ daysBeforeMonth year b := by
  induction h with
  | refl => exact Nat.le_refl _
  | step _ ih =>
      rw [daysBeforeMonth]
      omega

/-- Counting months from the `k + 1`st on finds the month that encloses a day of the year, and the
place of the day in it. -/
theorem monthOfDay_spec (year : Int) {months k n : Nat} (hmonths : k + months = 11)
    (hn : daysBeforeMonth year k + n < daysBeforeMonth year 12) :
    ∃ m < 12, monthOfDay year (k + 1) n months =
        (m + 1, daysBeforeMonth year k + n - daysBeforeMonth year m + 1) ∧
      daysBeforeMonth year m ≤ daysBeforeMonth year k + n ∧
      daysBeforeMonth year k + n < daysBeforeMonth year (m + 1) := by
  induction months generalizing k n with
  | zero =>
      -- Only December is left.
      obtain rfl : k = 11 := by omega
      exact ⟨11, by omega, by rw [monthOfDay, Nat.add_sub_cancel_left], by omega, hn⟩
  | succ months ih =>
      rw [monthOfDay]
      split
      · exact ⟨k, by omega, by rw [Nat.add_sub_cancel_left], by omega,
          by rw [daysBeforeMonth]; omega⟩
      · have hstep : daysBeforeMonth year (k + 1) + (n - monthLength year (k + 1)) =
            daysBeforeMonth year k + n := by
          rw [daysBeforeMonth]
          omega
        obtain ⟨m, hm, hmonth, hlow, hhigh⟩ :=
          ih (show k + 1 + months = 11 by omega) (by rw [hstep]; exact hn)
        rw [hstep] at hmonth hlow hhigh
        exact ⟨m, hm, hmonth, hlow, hhigh⟩

/-! ### Dates -/

/-- A month, counted from zero, of a year encloses a day. -/
structure Encloses (year : Int) (month : Nat) (day : Int) : Prop where
  isMonth : month < 12
  low : daysBeforeYear year + daysBeforeMonth year month ≤ day + epochOffset
  high : day + epochOffset < daysBeforeYear year + daysBeforeMonth year (month + 1)

theorem Encloses.year_low {year : Int} {month : Nat} {day : Int} (h : Encloses year month day) :
    daysBeforeYear year ≤ day + epochOffset := by
  have := h.low
  omega

theorem Encloses.year_high {year : Int} {month : Nat} {day : Int} (h : Encloses year month day) :
    day + epochOffset < daysBeforeYear (year + 1) := by
  have hlt := h.high
  have hmono := daysBeforeMonth_mono year (show month + 1 ≤ 12 from h.isMonth)
  rw [daysBeforeYear_succ]
  omega

/-- Every day has a date: its year and month enclose it, and it counts the days from the first of
the month. -/
theorem ofDays_spec (day : Int) :
    ∃ month, (Date.ofDays day).month = month + 1 ∧ Encloses (Date.ofDays day).year month day ∧
      ((Date.ofDays day).day : Int) = day + epochOffset -
        (daysBeforeYear (Date.ofDays day).year + daysBeforeMonth (Date.ofDays day).year month) +
          1 := by
  obtain ⟨hlow, hhigh⟩ := yearOfDay_spec (day + epochOffset)
  generalize hyear : yearOfDay (day + epochOffset) = year at hlow hhigh
  generalize hn : (day + epochOffset - daysBeforeYear year).toNat = n
  rw [daysBeforeYear_succ] at hhigh
  have hzero : daysBeforeMonth year 0 = 0 := rfl
  obtain ⟨m, hm, hmonth, hmlow, hmhigh⟩ := monthOfDay_spec year (n := n)
    (show 0 + 11 = 11 from rfl) (by omega)
  simp only [hzero, Nat.zero_add] at hmonth hmlow hmhigh
  have hdate : Date.ofDays day = ⟨year, m + 1, n - daysBeforeMonth year m + 1⟩ := by
    simp only [Date.ofDays, hyear, hn, hmonth]
  rw [hdate]
  exact ⟨m, rfl, ⟨hm, by dsimp only; omega, by dsimp only; omega⟩, by dsimp only; omega⟩

theorem encloses_ofDays (day : Int) :
    ∃ month, (Date.ofDays day).month = month + 1 ∧ Encloses (Date.ofDays day).year month day := by
  obtain ⟨month, hmonth, henclosed, -⟩ := ofDays_spec day
  exact ⟨month, hmonth, henclosed⟩

/-- Only the year and the month of its date enclose a day. -/
theorem Encloses.unique {year year' : Int} {month month' : Nat} {day : Int}
    (h : Encloses year month day) (h' : Encloses year' month' day) :
    year = year' ∧ month = month' := by
  obtain rfl : year = year' := by
    rw [← yearOfDay_eq h.year_low h.year_high, yearOfDay_eq h'.year_low h'.year_high]
  refine ⟨rfl, ?_⟩
  have hlow := h.low
  have hhigh := h.high
  have hlow' := h'.low
  have hhigh' := h'.high
  rcases Nat.lt_trichotomy month month' with hlt | heq | hgt
  · have hmono := daysBeforeMonth_mono year (show month + 1 ≤ month' from hlt)
    omega
  · exact heq
  · have hmono := daysBeforeMonth_mono year (show month' + 1 ≤ month from hgt)
    omega

end EventQuery.Time
