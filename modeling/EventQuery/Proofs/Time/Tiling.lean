import EventQuery.Proofs.Time.Civil
import EventQuery.Proofs.Time.Granularity

/-!
Buckets tile time, and granularities nest. `Granularity.ceil` is the start of the bucket after that
of an instant, without regard to the range of timestamps: the instants of a bucket are those from
its start on and before this one, which starts a bucket itself. What `nextStartTime` gives is
`ceil`, so the half-open intervals between starts are the buckets, and a finer bucket ends within
the coarser bucket that it starts in.
-/

namespace EventQuery

open Time

/-! ### Dates -/

namespace Time

theorem monthLength_pos (year : Int) (month : Nat) : 1 ≤ monthLength year month := by
  unfold monthLength
  split
  · split <;> decide
  all_goals decide

theorem Date.isCivil_addMonths {d : Date} (h : 1 ≤ d.day) (months : Nat) :
    (d.addMonths months).IsCivil where
  month_pos := by simp only [addMonths]; omega
  month_le := by simp only [addMonths]; omega
  day_pos := Nat.le_min.2 ⟨h, monthLength_pos _ _⟩
  day_le := Nat.min_le_right _ _

/-- The days of the supported years. -/
theorem supported_iff {day : Int} :
    (minYear ≤ (Date.ofDays day).year ∧ (Date.ofDays day).year ≤ maxYear) ↔
      daysBeforeYear minYear ≤ day + epochOffset ∧
        day + epochOffset < daysBeforeYear (maxYear + 1) := by
  obtain ⟨month, -, h⟩ := encloses_ofDays day
  have hlow := h.year_low
  have hhigh := h.year_high
  generalize (Date.ofDays day).year = year at hlow hhigh
  constructor
  · rintro ⟨hmin, hmax⟩
    have hmono := daysBeforeYear_mono hmin
    have hmono' := daysBeforeYear_mono (Int.add_le_add_right hmax 1)
    omega
  · rintro ⟨hmin, hmax⟩
    constructor
    · refine Int.not_lt.1 fun hlt => ?_
      have hmono := daysBeforeYear_mono (show year + 1 ≤ minYear from hlt)
      omega
    · refine Int.not_lt.1 fun hlt => ?_
      have hmono := daysBeforeYear_mono (show maxYear + 1 ≤ year from hlt)
      omega

end Time

namespace Granularity

/-- The first day of the month or year after the one that holds a date. -/
def nextDate (g : Granularity) (d : Date) : Date := (g.firstDate d).addMonths g.monthCount

/-- The first day of the bucket after that of a day, for granularities that follow the calendar. -/
def nextDay (g : Granularity) (day : Int) : Int := (g.nextDate (Date.ofDays day)).toDays

/-- The start of the bucket after the one that holds an instant. -/
def ceil (g : Granularity) (millis : Int) : Int :=
  match g.fixedWidth with
  | some width => g.floor millis + width
  | none => g.nextDay (millis / millisPerDay) * millisPerDay

section Days

variable {g : Granularity} {d : Date} {day other : Int}

theorem isCivil_firstDate (h : d.IsCivil) : (g.firstDate d).IsCivil := by
  have hday (year : Int) (month : Nat) : 1 ≤ monthLength year month := monthLength_pos year month
  cases g with
  | years => exact ⟨Nat.le_refl 1, Nat.le_add_left 1 11, Nat.le_refl 1, hday _ _⟩
  | _ => exact ⟨h.month_pos, h.month_le, Nat.le_refl 1, hday _ _⟩

theorem nextDate_years (d : Date) : nextDate .years d = ⟨d.year + 1, 1, 1⟩ := by
  have hyear : (d.year * 12 + (1 - 1 : Nat) + (12 : Nat)) / 12 = d.year + 1 := by omega
  have hmonth : ((d.year * 12 + (1 - 1 : Nat) + (12 : Nat)) % 12).toNat + 1 = 1 := by omega
  simp only [nextDate, firstDate, monthCount, Date.addMonths, hyear, hmonth]
  rfl

theorem isCivil_nextDate (h : d.IsCivil) : (g.nextDate d).IsCivil :=
  Date.isCivil_addMonths (isCivil_firstDate h).day_pos g.monthCount

/-- The month after December is in the next year. -/
theorem nextDate_of_ne_years (hg : g ≠ .years) (h : d.IsCivil) :
    g.nextDate d = if d.month = 12 then ⟨d.year + 1, 1, 1⟩ else ⟨d.year, d.month + 1, 1⟩ := by
  have hpos := h.month_pos
  have hle := h.month_le
  have hnext : g.nextDate d = (⟨d.year, d.month, 1⟩ : Date).addMonths 1 := by cases g <;> trivial
  have hlength (year : Int) (month : Nat) : min 1 (monthLength year month) = 1 :=
    Nat.min_eq_left (monthLength_pos year month)
  rw [hnext, Date.addMonths]
  dsimp only
  rw [hlength]
  split <;> (rw [Date.mk.injEq]; omega)

theorem nextDay_eq {year : Int} {month : Nat} (h : Encloses year month day) :
    g.nextDay day = daysBeforeYear year +
      (if g = .years then (daysBeforeMonth year 12 : Int) else daysBeforeMonth year (month + 1)) -
        epochOffset := by
  obtain ⟨month', hmonth', henclosed⟩ := encloses_ofDays day
  obtain ⟨rfl, rfl⟩ := henclosed.unique h
  split
  · rename_i hg
    rw [nextDay, hg, nextDate_years, Date.toDays, daysBeforeYear_succ]
    simp [daysBeforeMonth]
  · rename_i hg
    rw [nextDay, nextDate_of_ne_years hg (Date.isCivil_ofDays day), hmonth']
    split
    · rename_i hdecember
      obtain rfl : month' = 11 := by omega
      rw [Date.toDays, daysBeforeYear_succ]
      simp [daysBeforeMonth]
    · simp [Date.toDays]

theorem lt_nextDay (g : Granularity) (day : Int) : day < g.nextDay day := by
  obtain ⟨month, -, h⟩ := encloses_ofDays day
  have hhigh := h.high
  have hmono := daysBeforeMonth_mono (Date.ofDays day).year
    (show month + 1 ≤ 12 from h.isMonth)
  rw [nextDay_eq h]
  split <;> omega

/-- The days from the first of a bucket on and before the first of the next one have the same first
day. -/
theorem firstDay_eq_of_lt (hlow : g.firstDay day ≤ other) (hhigh : other < g.nextDay day) :
    g.firstDay other = g.firstDay day := by
  obtain ⟨month, -, h⟩ := encloses_ofDays day
  rw [nextDay_eq h] at hhigh
  exact firstDay_eq_of_enclosed h hlow (by omega)

/-- The next bucket starts on its first day. -/
theorem firstDay_nextDay (g : Granularity) (day : Int) :
    g.firstDay (g.nextDay day) = g.nextDay day := by
  rw [firstDay, nextDay, (isCivil_nextDate (Date.isCivil_ofDays day)).ofDays_toDays]
  congr 1
  by_cases hg : g = .years
  · rw [hg, nextDate_years]
    rfl
  · rw [nextDate_of_ne_years hg (Date.isCivil_ofDays day)]
    split <;> cases g <;> trivial

end Days

/-! ### Instants -/

section Instants

variable {f g : Granularity} {x y : Int}

theorem lt_ceil (g : Granularity) (x : Int) : x < g.ceil x := by
  have hday := lt_nextDay g (x / millisPerDay)
  cases g <;> simp only [ceil, floor, fixedWidth, millisPerDay, millisPerHour, millisPerMinute,
    millisPerSecond] at * <;> omega

/-- The next bucket starts in itself. -/
theorem floor_ceil (g : Granularity) (x : Int) : g.floor (g.ceil x) = g.ceil x := by
  have hday := firstDay_nextDay g (x / millisPerDay)
  have hdays (n : Int) : n * millisPerDay / millisPerDay = n :=
    Int.mul_ediv_cancel n (by decide)
  cases g <;> simp only [ceil, floor, fixedWidth, hdays, hday] <;>
    simp only [millisPerDay, millisPerHour, millisPerMinute, millisPerSecond] <;> omega

/-- The instants of a bucket are those from its start on and before the next one. -/
theorem floor_eq_iff : g.floor y = g.floor x ↔ g.floor x ≤ y ∧ y < g.ceil x := by
  constructor
  · intro h
    refine ⟨h ▸ floor_le g y, Int.not_le.1 fun hle => ?_⟩
    -- Otherwise the bucket of `y` starts no earlier than the next one.
    have hmono := floor_mono (g := g) hle
    rw [floor_ceil, h] at hmono
    have hfloor := floor_le g x
    have hlt := lt_ceil g x
    omega
  · rintro ⟨hlow, hhigh⟩
    have hday := @firstDay_eq_of_lt g (x / millisPerDay) (y / millisPerDay)
    cases g <;>
      simp only [ceil, floor, fixedWidth, millisPerDay, millisPerHour, millisPerMinute,
        millisPerSecond] at * <;> grind

/-- A finer bucket ends within the coarser one. -/
theorem ceil_mono_rank (h : f.rank ≤ g.rank) (x : Int) : f.ceil x ≤ g.ceil x := by
  refine Int.not_lt.1 fun hlt => ?_
  have hfloor := floor_le f x
  have hfloor' := floor_le g x
  have hceil := lt_ceil g x
  -- Otherwise the next coarser bucket starts inside the finer one, so it has the start of `x`.
  have hfine : f.floor (g.ceil x) = f.floor x := floor_eq_iff.2 ⟨by omega, hlt⟩
  have hcoarse : g.ceil x = g.floor x := by
    rw [← floor_floor h x, ← hfine, floor_floor h, floor_ceil]
  omega

end Instants

/-! ### Timestamps -/

/-- The next bucket starts within the range of timestamps, or on a supported date. -/
def NextInRange (g : Granularity) (millis : Int) : Prop :=
  match g.fixedWidth with
  | some _ => g.ceil millis ≤ Int64.maxValue.toInt
  | none => (g.nextDate (Date.ofDays (millis / millisPerDay))).isValid = true

section Timestamps

variable {f g : Granularity} {s t b n ts : Int64}

/-- The days of the supported years are far within the range of timestamps. -/
theorem toInt_ofInt_toMillis {d : Date} (h : d.isValid = true) :
    (Int64.ofInt d.toMillis).toInt = d.toMillis := by
  obtain ⟨hmin, hmax, hcivil⟩ := Date.isValid_iff.1 h
  rw [← hcivil.ofDays_toDays] at hmin hmax
  have hdays := supported_iff.1 ⟨hmin, hmax⟩
  have hfirst : daysBeforeYear minYear = -95746130 := by decide
  have hlast : daysBeforeYear (maxYear + 1) = 95745399 := by decide
  rw [hfirst, hlast] at hdays
  refine Int64.toInt_ofInt_of_le ?_ ?_ <;>
    simp only [Date.toMillis, epochOffset, millisPerDay, millisPerHour, millisPerMinute,
      millisPerSecond] at * <;> omega

theorem timestampFrom_eq_ok {millis : Int} (hlow : Int64.minValue.toInt ≤ millis) :
    timestampFrom ts millis = .ok n ↔ millis ≤ Int64.maxValue.toInt ∧ n.toInt = millis := by
  rw [timestampFrom]
  split
  · rename_i hrange
    have htoInt : (Int64.ofInt millis).toInt = millis :=
      Int64.toInt_ofInt_of_le hlow (Int.lt_add_one_of_le hrange.2)
    rw [Except.ok.injEq, ← Int64.toInt_inj, htoInt, and_iff_right hrange.2]
    exact eq_comm
  · rename_i hrange
    refine iff_of_false ?_ ?_
    · intro h
      cases h
    · intro h
      exact hrange ⟨hlow, h.1⟩

theorem nextStartTime_eq_ok (hs : g.startTime ts = .ok s) :
    g.nextStartTime ts = .ok n ↔ g.NextInRange ts.toInt ∧ n.toInt = g.ceil ts.toInt := by
  obtain ⟨hrange, hstart⟩ := startTime_eq_ok.1 hs
  have hceil := lt_ceil g ts.toInt
  have hmin := ts.minValue_le_toInt
  rw [nextStartTime, hs]
  unfold InRange at hrange
  unfold NextInRange
  cases hwidth : g.fixedWidth with
  | some width =>
      have hnext : s.toInt + width = g.ceil ts.toInt := by simp only [ceil, hwidth, hstart]
      change timestampFrom ts (s.toInt + width) = .ok n ↔ _
      rw [hnext]
      exact timestampFrom_eq_ok (by omega)
  | none =>
      have hcivil := Date.isCivil_ofDays (ts.toInt / millisPerDay)
      generalize hdate : Date.ofDays (ts.toInt / millisPerDay) = date at hcivil
      simp only [hwidth, hdate] at hrange
      have hfirst : Date.ofMillis? s.toInt = some (g.firstDate date) := by
        have hyear : (g.firstDate date).year = date.year := by cases g <;> rfl
        have hday : s.toInt / millisPerDay = (g.firstDate date).toDays := by
          simp only [hstart, floor, hwidth, firstDay, hdate]
          exact Int.mul_ediv_cancel _ (by decide)
        rw [Date.ofMillis?, hday, (isCivil_firstDate hcivil).ofDays_toDays]
        exact if_pos (hyear ▸ hrange)
      have hnext : g.ceil ts.toInt = (g.nextDate date).toMillis := by
        simp only [ceil, hwidth, nextDay, hdate, Date.toMillis]
      simp only [hnext, bind, Except.bind, hfirst]
      change (if (g.nextDate date).isValid = true then
        Except.ok (Int64.ofInt (g.nextDate date).toMillis) else
          .error (TimeError.outOfRange ts)) = _ ↔ _
      split
      · rename_i hvalid
        rw [Except.ok.injEq, ← Int64.toInt_inj, toInt_ofInt_toMillis hvalid, and_iff_right hvalid]
        exact eq_comm
      · rename_i hvalid
        refine iff_of_false ?_ ?_
        · intro h
          cases h
        · intro h
          exact hvalid h.1

theorem inRange_congr {x y : Int} (h : g.floor y = g.floor x) : g.InRange y ↔ g.InRange x := by
  have hx := floor_le g x
  have hy := floor_le g y
  rcases Int.le_total y x with hle | hle
  · exact inRange_iff_of_le (by omega) hle
  · exact (inRange_iff_of_le (by omega) hle).symm

/-- The timestamps with the start of a bucket are those from it on and before the next start. -/
theorem startTime_eq_iff (hs : g.startTime ts = .ok s) (hn : g.nextStartTime ts = .ok n)
    (u : Int64) :
    g.startTime u = .ok s ↔ s ≤ u ∧ u < n := by
  obtain ⟨hrange, hstart⟩ := startTime_eq_ok.1 hs
  obtain ⟨-, hnext⟩ := (nextStartTime_eq_ok hs).1 hn
  rw [Int64.le_iff_toInt_le, Int64.lt_iff_toInt_lt, hstart, hnext, ← floor_eq_iff,
    startTime_eq_ok, hstart]
  exact ⟨fun h => h.2.symm, fun h => ⟨(inRange_congr h).2 hrange, h.symm⟩⟩

theorem lt_nextStartTime (hs : g.startTime ts = .ok s) (hn : g.nextStartTime ts = .ok n) :
    ts < n := by
  rw [Int64.lt_iff_toInt_lt, ((nextStartTime_eq_ok hs).1 hn).2]
  exact lt_ceil g _

/-- The next bucket starts at a timestamp that has a bucket. -/
theorem inRange_ceil (h : g.NextInRange ts.toInt) : g.InRange (g.ceil ts.toInt) := by
  have hceil := lt_ceil g ts.toInt
  have hmin := ts.minValue_le_toInt
  unfold NextInRange at h
  unfold InRange
  cases hwidth : g.fixedWidth with
  | some width =>
      dsimp only
      rw [floor_ceil]
      omega
  | none =>
      simp only [hwidth] at h
      obtain ⟨hfirst, hlast, hcivil⟩ := Date.isValid_iff.1 h
      have hday : g.ceil ts.toInt / millisPerDay =
          (g.nextDate (Date.ofDays (ts.toInt / millisPerDay))).toDays := by
        simp only [ceil, hwidth, nextDay]
        exact Int.mul_ediv_cancel _ (by decide)
      dsimp only
      rw [hday, hcivil.ofDays_toDays]
      exact ⟨hfirst, hlast⟩

theorem startTime_nextStartTime (hs : g.startTime ts = .ok s) (hn : g.nextStartTime ts = .ok n) :
    g.startTime n = .ok n := by
  obtain ⟨hrange, hnext⟩ := (nextStartTime_eq_ok hs).1 hn
  rw [startTime_eq_ok, hnext, floor_ceil]
  exact ⟨inRange_ceil hrange, rfl⟩

/-- The buckets of a granularity partition time: a bucket holds the timestamps from its start on and
before the next start, at which the next bucket starts; and starts lie in their own buckets and keep
the order of time. -/
theorem startTime_partitions (g : Granularity) :
    (∀ ts s n, g.startTime ts = .ok s → g.nextStartTime ts = .ok n →
      (s ≤ ts ∧ ts < n) ∧ (∀ u, g.startTime u = .ok s ↔ s ≤ u ∧ u < n) ∧
        g.startTime n = .ok n) ∧
    (∀ ts s, g.startTime ts = .ok s → g.startTime s = .ok s) ∧
    ∀ ts u s t, ts ≤ u → g.startTime ts = .ok s → g.startTime u = .ok t → s ≤ t := by
  refine ⟨fun ts s n hs hn => ⟨⟨startTime_le hs, lt_nextStartTime hs hn⟩, startTime_eq_iff hs hn,
    startTime_nextStartTime hs hn⟩, fun ts s => startTime_self, ?_⟩
  exact fun ts u s t hle hs ht => startTime_mono hs ht hle

/-- The month of the last millisecond of a February with 29 days ends with it. -/
theorem startTime_partitions_february :
    months.startTime 1456790399999 = .ok 1454284800000 ∧
      months.nextStartTime 1456790399999 = .ok 1456790400000 ∧
      (∀ u, months.startTime u = .ok 1454284800000 ↔ 1454284800000 ≤ u ∧ u < 1456790400000) ∧
      months.startTime 1456790400000 = .ok 1456790400000 := by
  have hs : months.startTime 1456790399999 = .ok 1454284800000 := rfl
  have hn : months.nextStartTime 1456790399999 = .ok 1456790400000 := rfl
  obtain ⟨-, hmem, hnext⟩ := (startTime_partitions .months).1 _ _ _ hs hn
  exact ⟨hs, hn, hmem, hnext⟩

/-- Granularities nest: the start of a finer bucket has the coarser bucket of its timestamps, and
the finer bucket ends no later than the coarser one. -/
theorem startTime_nests (h : f.rank ≤ g.rank) (hs : f.startTime ts = .ok s)
    (hb : g.startTime ts = .ok b) :
    g.startTime s = .ok b ∧
      ∀ n m, f.nextStartTime ts = .ok n → g.nextStartTime ts = .ok m → n ≤ m := by
  refine ⟨(startTime_startTime h hs).2 hb, fun n m hn hm => ?_⟩
  rw [Int64.le_iff_toInt_le, ((nextStartTime_eq_ok hs).1 hn).2, ((nextStartTime_eq_ok hb).1 hm).2]
  exact ceil_mono_rank h _

/-- The last millisecond before 1970 is in the last day of the last year before it. -/
theorem startTime_nests_before_epoch :
    rank .days ≤ rank .years ∧ days.startTime (-1) = .ok (-86400000) ∧
      years.startTime (-1) = .ok (-31536000000) ∧ years.startTime (-86400000) = .ok (-31536000000) ∧
      days.nextStartTime (-1) = .ok 0 ∧ years.nextStartTime (-1) = .ok 0 ∧ (0 : Int64) ≤ 0 := by
  have hday : days.startTime (-1) = .ok (-86400000) := rfl
  have hyear : years.startTime (-1) = .ok (-31536000000) := rfl
  have hday' : days.nextStartTime (-1) = .ok 0 := rfl
  have hyear' : years.nextStartTime (-1) = .ok 0 := rfl
  obtain ⟨hstart, hnext⟩ := startTime_nests (f := .days) (g := .years) (by decide) hday hyear
  exact ⟨by decide, hday, hyear, hstart, hday', hyear', hnext 0 0 hday' hyear'⟩

end Timestamps

end Granularity

/-! ### Truncation -/

namespace Time.DateTime

variable {t : DateTime}

/-- A date and time with the fields finer than a granularity reset to their first values. -/
def truncate (g : Granularity) (t : DateTime) : DateTime :=
  match g with
  | .seconds => t
  | .minutes => { t with second := 0 }
  | .hours => { t with minute := 0, second := 0 }
  | .days => { t with hour := 0, minute := 0, second := 0 }
  | .months => ⟨⟨t.date.year, t.date.month, 1⟩, 0, 0, 0⟩
  | .years => ⟨⟨t.date.year, 1, 1⟩, 0, 0, 0⟩

theorem isCivil_truncate (h : t.IsCivil) (g : Granularity) : (t.truncate g).IsCivil := by
  have hmonth := Granularity.isCivil_firstDate (g := .months) h.date
  have hyear := Granularity.isCivil_firstDate (g := .years) h.date
  have hhour : 0 < 24 := by decide
  have hminute : 0 < 60 := by decide
  cases g with
  | seconds => exact h
  | minutes => exact ⟨h.date, h.hour_lt, h.minute_lt, hminute⟩
  | hours => exact ⟨h.date, h.hour_lt, hminute, hminute⟩
  | days => exact ⟨h.date, hhour, hminute, hminute⟩
  | months => exact ⟨hmonth, hhour, hminute, hminute⟩
  | years => exact ⟨hyear, hhour, hminute, hminute⟩

/-- The truncated date and time names the start of the bucket. -/
theorem IsCivil.toMillis_truncate (h : t.IsCivil) (g : Granularity) :
    (t.truncate g).toMillis = g.floor t.toMillis := by
  have hday := h.toMillis_ediv
  obtain ⟨hdate, hhour, hminute, hsecond⟩ := h
  cases g <;>
    simp only [truncate, Granularity.floor, Granularity.fixedWidth, hday, Granularity.firstDay,
      hdate.ofDays_toDays, Granularity.firstDate] <;>
    simp only [toMillis, Date.toMillis, millisPerDay, millisPerHour, millisPerMinute,
      millisPerSecond] <;>
    omega

/-- Two instants are in one bucket if their dates and times agree down to its granularity. -/
theorem floor_eq_floor_iff {g : Granularity} {x y : Int} :
    g.floor x = g.floor y ↔ (ofMillis x).truncate g = (ofMillis y).truncate g := by
  have hfloor (z : Int) : ((ofMillis z).truncate g).toMillis = g.floor z := by
    rw [(isCivil_ofMillis z).toMillis_truncate, toMillis_ofMillis]
    exact Granularity.floor_floor (f := .seconds) (Nat.zero_le _) z
  rw [← hfloor x, ← hfloor y]
  exact (isCivil_truncate (isCivil_ofMillis x) g).toMillis_inj
    (isCivil_truncate (isCivil_ofMillis y) g)

end Time.DateTime

end EventQuery
