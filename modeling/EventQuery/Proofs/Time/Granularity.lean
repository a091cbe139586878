import EventQuery.Proofs.Time.Calendar
import EventQuery.Time.Granularity

/-!
Buckets partition time. `Granularity.floor` is the start of the bucket of an instant, without regard
to the range of timestamps: it is not after the instant and the same for all instants from there on,
and that of a coarser granularity is not after that of a finer one. What `startTime` gives is this
start, so buckets start in their own bucket, keep the order of time and nest.
-/

namespace EventQuery.Granularity

open Time

/-- The first day of the bucket of a day, for granularities that follow the calendar. -/
def firstDay (g : Granularity) (day : Int) : Int := (g.firstDate (Date.ofDays day)).toDays

/-- The start of the bucket that holds an instant. -/
def floor (g : Granularity) (millis : Int) : Int :=
  match g.fixedWidth with
  | some width => millis - millis % width
  | none => g.firstDay (millis / millisPerDay) * millisPerDay

/-! ### Days -/

section Days

variable {g : Granularity} {day other : Int}

theorem firstDay_eq {year : Int} {month : Nat} (h : Encloses year month day) :
    g.firstDay day = daysBeforeYear year +
      (if g = .years then 0 else (daysBeforeMonth year month : Int)) - epochOffset := by
  obtain ⟨month', hmonth', henclosed⟩ := encloses_ofDays day
  obtain ⟨rfl, rfl⟩ := henclosed.unique h
  cases g <;> simp [firstDay, firstDate, Date.toDays, hmonth', daysBeforeMonth]

theorem firstDay_le (g : Granularity) (day : Int) : g.firstDay day ≤ day := by
  obtain ⟨month, -, h⟩ := encloses_ofDays day
  have hlow := h.low
  rw [firstDay_eq h]
  split <;> omega

theorem firstDay_months_le (day : Int) : firstDay .years day ≤ firstDay .months day := by
  obtain ⟨month, -, h⟩ := encloses_ofDays day
  rw [firstDay_eq h, firstDay_eq h, if_pos rfl, if_neg (by decide)]
  omega

/-- The days from the first of a bucket on have its year. -/
theorem year_eq_of_firstDay_le (hlow : g.firstDay day ≤ other) (hhigh : other ≤ day) :
    (Date.ofDays other).year = (Date.ofDays day).year := by
  obtain ⟨month, -, h⟩ := encloses_ofDays day
  rw [firstDay_eq h] at hlow
  have hyear := h.year_high
  refine yearOfDay_eq ?_ (by omega)
  split at hlow <;> omega

/-- The days from the first of a bucket on have the same first day, as far as the year or the month
that the bucket follows encloses them. -/
theorem firstDay_eq_of_enclosed {year : Int} {month : Nat} (h : Encloses year month day)
    (hlow : g.firstDay day ≤ other)
    (hhigh : other + epochOffset < daysBeforeYear year +
      (if g = .years then (daysBeforeMonth year 12 : Int) else daysBeforeMonth year (month + 1))) :
    g.firstDay other = g.firstDay day := by
  rw [firstDay_eq h] at hlow ⊢
  split at hlow
  · rename_i hg
    rw [if_pos hg] at hhigh ⊢
    obtain ⟨month', -, h'⟩ := encloses_ofDays other
    have hyear : (Date.ofDays other).year = year :=
      yearOfDay_eq (by omega) (by rw [daysBeforeYear_succ]; omega)
    rw [firstDay_eq h', if_pos hg, hyear]
  · rename_i hg
    rw [if_neg hg] at hhigh ⊢
    -- The month of the one day encloses the other day too.
    have hother : Encloses year month other := ⟨h.isMonth, by omega, by omega⟩
    rw [firstDay_eq hother, if_neg hg]

theorem firstDay_eq_of_le (hlow : g.firstDay day ≤ other) (hhigh : other ≤ day) :
    g.firstDay other = g.firstDay day := by
  obtain ⟨month, -, h⟩ := encloses_ofDays day
  have hyear := h.year_high
  have hmonth := h.high
  rw [daysBeforeYear_succ] at hyear
  exact firstDay_eq_of_enclosed h hlow (by split <;> omega)

end Days

/-! ### Instants -/

section Instants

variable {f g : Granularity} {x y : Int}

theorem floor_le (g : Granularity) (x : Int) : g.floor x ≤ x := by
  have hday := firstDay_le g (x / millisPerDay)
  cases g <;> simp only [floor, fixedWidth, millisPerDay, millisPerHour, millisPerMinute,
    millisPerSecond] at * <;> omega

/-- All instants from the start of a bucket to an instant in it have the same start. -/
theorem floor_eq_of_le (hlow : g.floor x ≤ y) (hhigh : y ≤ x) : g.floor y = g.floor x := by
  -- Fixed widths divide time evenly, and the other granularities are decided by the day.
  have hday := @firstDay_eq_of_le g (x / millisPerDay) (y / millisPerDay)
  cases g <;>
    simp only [floor, fixedWidth, millisPerDay, millisPerHour, millisPerMinute,
      millisPerSecond] at * <;> grind

theorem floor_mono (h : x ≤ y) : g.floor x ≤ g.floor y := by
  rcases Int.lt_or_le (g.floor y) (g.floor x) with hlt | hle
  · have hx := floor_le g x
    have heq := floor_eq_of_le (show g.floor y ≤ x by omega) h
    omega
  · exact hle

/-- The bucket of a coarser granularity starts no later. -/
theorem floor_anti (h : f.rank ≤ g.rank) (x : Int) : g.floor x ≤ f.floor x := by
  -- Every fixed width divides the next, and a day lies in a month that lies in a year.
  have hmonth := firstDay_le .months (x / millisPerDay)
  have hyear := firstDay_months_le (x / millisPerDay)
  cases f <;> cases g <;>
    simp only [floor, fixedWidth, rank, millisPerDay, millisPerHour, millisPerMinute,
      millisPerSecond] at * <;> omega

/-- Buckets nest. -/
theorem floor_floor (h : f.rank ≤ g.rank) (x : Int) : g.floor (f.floor x) = g.floor x :=
  floor_eq_of_le (floor_anti h x) (floor_le f x)

end Instants

/-! ### Timestamps -/

/-- The bucket of an instant starts within the range of timestamps, or lies in a supported year. -/
def InRange (g : Granularity) (millis : Int) : Prop :=
  match g.fixedWidth with
  | some _ => Int64.minValue.toInt ≤ g.floor millis
  | none =>
    minYear ≤ (Date.ofDays (millis / millisPerDay)).year ∧
      (Date.ofDays (millis / millisPerDay)).year ≤ maxYear

section Timestamps

variable {f g : Granularity} {s t b ts : Int64}

theorem inRange_iff_of_le {x y : Int} (hlow : g.floor x ≤ y) (hhigh : y ≤ x) :
    g.InRange y ↔ g.InRange x := by
  have hfloor := floor_eq_of_le hlow hhigh
  unfold InRange
  cases hwidth : g.fixedWidth with
  | some width => rw [hfloor]
  | none =>
      have hyear : (Date.ofDays (y / millisPerDay)).year =
          (Date.ofDays (x / millisPerDay)).year := by
        refine year_eq_of_firstDay_le (g := g) ?_ ?_
        · simp only [floor, hwidth, millisPerDay, millisPerHour, millisPerMinute,
            millisPerSecond] at hlow ⊢
          omega
        · simp only [millisPerDay, millisPerHour, millisPerMinute, millisPerSecond]
          omega
      rw [hyear]

/-- The first day of a supported year is far within the range of timestamps. -/
theorem minValue_le_firstDay {day : Int} (h : minYear ≤ (Date.ofDays day).year) :
    Int64.minValue.toInt ≤ g.firstDay day * millisPerDay := by
  obtain ⟨month, -, henclosed⟩ := encloses_ofDays day
  have hmono := daysBeforeYear_mono h
  rw [firstDay_eq henclosed]
  have hstart : daysBeforeYear minYear = -95746130 := by decide
  have hmin : Int64.minValue.toInt = -9223372036854775808 := by decide
  rw [hstart] at hmono
  simp only [hmin, epochOffset, millisPerDay, millisPerHour, millisPerMinute, millisPerSecond]
  split <;> omega

theorem startTime_eq_ok :
    g.startTime ts = .ok s ↔ g.InRange ts.toInt ∧ s.toInt = g.floor ts.toInt := by
  have hmax : g.floor ts.toInt ≤ Int64.maxValue.toInt := Int.le_trans (floor_le g _) ts.toInt_le
  have htoInt {x : Int} (hlow : Int64.minValue.toInt ≤ x) (hhigh : x ≤ Int64.maxValue.toInt) :
      Int64.ofInt x = s ↔ s.toInt = x := by
    rw [← Int64.toInt_inj, Int64.toInt_ofInt_of_le hlow (Int.lt_add_one_of_le hhigh)]
    exact eq_comm
  unfold startTime InRange
  cases hwidth : g.fixedWidth with
  | some width =>
      have hfloor : g.floor ts.toInt = ts.toInt - ts.toInt % width := by rw [floor, hwidth]
      rw [hfloor] at hmax ⊢
      simp only [timestampFrom]
      split
      · rename_i hrange
        rw [Except.ok.injEq, htoInt hrange.1 hrange.2]
        exact (and_iff_right hrange.1).symm
      · rename_i hrange
        exact iff_of_false nofun fun h => hrange ⟨h.1, hmax⟩
  | none =>
      have hfloor : g.floor ts.toInt = g.firstDay (ts.toInt / millisPerDay) * millisPerDay := by
        rw [floor, hwidth]
      rw [hfloor] at hmax ⊢
      simp only [Date.ofMillis?]
      by_cases hyear : minYear ≤ (Date.ofDays (ts.toInt / millisPerDay)).year ∧
          (Date.ofDays (ts.toInt / millisPerDay)).year ≤ maxYear
      · rw [if_pos hyear, and_iff_right hyear, ← htoInt (minValue_le_firstDay hyear.1) hmax]
        exact ⟨Except.ok.inj, congrArg Except.ok⟩
      · rw [if_neg hyear]
        exact iff_of_false nofun fun h => hyear h.1

/-- A bucket starts no later than any instant in it. -/
theorem startTime_le (h : g.startTime ts = .ok s) : s ≤ ts := by
  rw [Int64.le_iff_toInt_le, (startTime_eq_ok.1 h).2]
  exact floor_le g _

/-- A bucket starts in itself, and so does every timestamp between its start and one of its
timestamps. -/
theorem startTime_of_between (h : g.startTime ts = .ok s) (hlow : s ≤ t) (hhigh : t ≤ ts) :
    g.startTime t = .ok s := by
  obtain ⟨hrange, hs⟩ := startTime_eq_ok.1 h
  rw [Int64.le_iff_toInt_le] at hlow hhigh
  rw [hs] at hlow
  exact startTime_eq_ok.2 ⟨(inRange_iff_of_le hlow hhigh).2 hrange,
    hs.trans (floor_eq_of_le hlow hhigh).symm⟩

theorem startTime_self (h : g.startTime ts = .ok s) : g.startTime s = .ok s :=
  startTime_of_between h (Int64.le_refl s) (startTime_le h)

theorem startTime_mono (hs : g.startTime s = .ok t) (hb : g.startTime ts = .ok b) (h : s ≤ ts) :
    t ≤ b := by
  rw [Int64.le_iff_toInt_le, (startTime_eq_ok.1 hs).2, (startTime_eq_ok.1 hb).2]
  exact floor_mono (Int64.le_iff_toInt_le.1 h)

/-- The bucket of a coarser granularity is found from the start of a finer bucket. -/
theorem startTime_startTime (h : f.rank ≤ g.rank) (hs : f.startTime ts = .ok s) :
    g.startTime s = .ok b ↔ g.startTime ts = .ok b := by
  have hfloor := (startTime_eq_ok.1 hs).2
  rw [startTime_eq_ok, startTime_eq_ok, hfloor, floor_floor h,
    inRange_iff_of_le (floor_anti h ts.toInt) (floor_le f ts.toInt)]

end Timestamps

end EventQuery.Granularity
