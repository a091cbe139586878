import EventQuery.Proofs.Time.Calendar

/-!
Civil dates and times name instants. Every day has one date of the calendar and every date one day,
so a date and a time of day are those of exactly one second, and their order is that of the seconds.
-/

namespace EventQuery.Time

/-! ### Dates -/

/-- A date that the calendar has, in a year of any size. -/
structure Date.IsCivil (d : Date) : Prop where
  month_pos : 1 ≤ d.month
  month_le : d.month ≤ 12
  day_pos : 1 ≤ d.day
  day_le : d.day ≤ monthLength d.year d.month

instance (d : Date) : Decidable d.IsCivil :=
  decidable_of_iff
    (1 ≤ d.month ∧ d.month ≤ 12 ∧ 1 ≤ d.day ∧ d.day ≤ monthLength d.year d.month)
    ⟨fun ⟨hm, hm', hd, hd'⟩ => ⟨hm, hm', hd, hd'⟩,
      fun h => ⟨h.month_pos, h.month_le, h.day_pos, h.day_le⟩⟩

namespace Date

variable {d e : Date}

theorem isValid_iff :
    d.isValid = true ↔ minYear ≤ d.year ∧ d.year ≤ maxYear ∧ d.IsCivil := by
  simp only [isValid, Bool.and_eq_true, decide_eq_true_eq, and_assoc]
  exact ⟨fun ⟨hmin, hmax, hm, hm', hd, hd'⟩ => ⟨hmin, hmax, hm, hm', hd, hd'⟩,
    fun ⟨hmin, hmax, h⟩ => ⟨hmin, hmax, h.month_pos, h.month_le, h.day_pos, h.day_le⟩⟩

/-- The day of a date lies in its month. -/
theorem IsCivil.encloses (h : d.IsCivil) : Encloses d.year (d.month - 1) d.toDays := by
  obtain ⟨hmonth, hmonth', hday, hday'⟩ := h
  have hnext : daysBeforeMonth d.year (d.month - 1 + 1) =
      daysBeforeMonth d.year (d.month - 1) + monthLength d.year d.month := by
    rw [daysBeforeMonth, Nat.sub_add_cancel hmonth]
  exact ⟨by omega, by rw [toDays]; omega, by rw [hnext, toDays]; omega⟩

theorem isCivil_ofDays (day : Int) : (ofDays day).IsCivil := by
  obtain ⟨month, hmonth, henclosed, hday⟩ := ofDays_spec day
  have hmonths := henclosed.isMonth
  have hlow := henclosed.low
  have hhigh := henclosed.high
  rw [daysBeforeMonth] at hhigh
  exact ⟨by omega, by omega, by omega, by rw [hmonth]; omega⟩

@[simp] theorem toDays_ofDays (day : Int) : (ofDays day).toDays = day := by
  obtain ⟨month, hmonth, henclosed, hday⟩ := ofDays_spec day
  have hlow := henclosed.low
  rw [toDays, hmonth, Nat.add_sub_cancel]
  omega

theorem IsCivil.ofDays_toDays (h : d.IsCivil) : ofDays d.toDays = d := by
  obtain ⟨month, hmonth, henclosed, hday⟩ := ofDays_spec d.toDays
  obtain ⟨hyear, heq⟩ := henclosed.unique h.encloses
  have hpos := h.month_pos
  have hpos' := h.day_pos
  obtain ⟨year, m, n⟩ := d
  rw [hyear, heq] at hday
  rw [mk.injEq]
  refine ⟨hyear, ?_, ?_⟩
  · rw [hmonth, heq]
    exact Nat.sub_add_cancel hpos
  · simp only [toDays] at hday hpos' ⊢
    omega

/-- A date before another in the order of years, months and days is an earlier day. -/
theorem IsCivil.toDays_lt (hd : d.IsCivil) (he : e.IsCivil)
    (h : d.year < e.year ∨ d.year = e.year ∧
      (d.month < e.month ∨ d.month = e.month ∧ d.day < e.day)) :
    d.toDays < e.toDays := by
  rcases h with hyear | ⟨hyear, hmonth | ⟨hmonth, hday⟩⟩
  · have hhigh := hd.encloses.year_high
    have hlow := he.encloses.year_low
    have hmono := daysBeforeYear_mono (show d.year + 1 ≤ e.year from hyear)
    omega
  · have hhigh := hd.encloses.high
    have hlow := he.encloses.low
    have hpos := hd.month_pos
    have hmono := daysBeforeMonth_mono e.year (show d.month - 1 + 1 ≤ e.month - 1 by omega)
    rw [hyear] at hhigh
    omega
  · have hpos := hd.day_pos
    rw [toDays, toDays, hyear, hmonth]
    omega

end Date

/-! ### Dates and times -/

/-- A date and time that the calendar and the clock have. -/
structure DateTime.IsCivil (t : DateTime) : Prop where
  date : t.date.IsCivil
  hour_lt : t.hour < 24
  minute_lt : t.minute < 60
  second_lt : t.second < 60

instance (t : DateTime) : Decidable t.IsCivil :=
  decidable_of_iff (t.date.IsCivil ∧ t.hour < 24 ∧ t.minute < 60 ∧ t.second < 60)
    ⟨fun ⟨hdate, hhour, hminute, hsecond⟩ => ⟨hdate, hhour, hminute, hsecond⟩,
      fun h => ⟨h.date, h.hour_lt, h.minute_lt, h.second_lt⟩⟩

namespace DateTime

variable {t u : DateTime}

/-- The civil date and time of an instant in UTC. -/
def ofMillis (millis : Int) : DateTime where
  date := Date.ofDays (millis / millisPerDay)
  hour := (millis % millisPerDay / millisPerHour).toNat
  minute := (millis % millisPerHour / millisPerMinute).toNat
  second := (millis % millisPerMinute / millisPerSecond).toNat

/-- The fields below the year, coarsest first. -/
def fields (t : DateTime) : List Nat := [t.date.month, t.date.day, t.hour, t.minute, t.second]

/-- The civil order: by year, then by the other fields in turn. -/
def Before (t u : DateTime) : Prop :=
  t.date.year < u.date.year ∨ t.date.year = u.date.year ∧ t.fields < u.fields

theorem isCivil_ofMillis (millis : Int) : (ofMillis millis).IsCivil where
  date := Date.isCivil_ofDays _
  hour_lt := by
    simp only [ofMillis, millisPerDay, millisPerHour, millisPerMinute, millisPerSecond]
    omega
  minute_lt := by
    simp only [ofMillis, millisPerHour, millisPerMinute, millisPerSecond]
    omega
  second_lt := by
    simp only [ofMillis, millisPerMinute, millisPerSecond]
    omega

theorem toMillis_ofMillis (millis : Int) :
    (ofMillis millis).toMillis = millis - millis % millisPerSecond := by
  simp only [toMillis, ofMillis, Date.toMillis, Date.toDays_ofDays, millisPerDay, millisPerHour,
    millisPerMinute, millisPerSecond]
  omega

/-- The time of day does not reach the next day. -/
theorem IsCivil.toMillis_ediv (h : t.IsCivil) : t.toMillis / millisPerDay = t.date.toDays := by
  have hhour := h.hour_lt
  have hminute := h.minute_lt
  have hsecond := h.second_lt
  simp only [toMillis, Date.toMillis, millisPerDay, millisPerHour, millisPerMinute,
    millisPerSecond]
  omega

/-- A date and time is that of the instant that it names. -/
theorem IsCivil.ofMillis_toMillis (h : t.IsCivil) : ofMillis t.toMillis = t := by
  have hday := h.toMillis_ediv
  obtain ⟨hdate, hhour, hminute, hsecond⟩ := h
  obtain ⟨date, hour, minute, second⟩ := t
  simp only [ofMillis, hday, hdate.ofDays_toDays]
  simp only [toMillis, Date.toMillis, millisPerDay, millisPerHour, millisPerMinute,
    millisPerSecond] at *
  rw [mk.injEq]
  exact ⟨rfl, by omega, by omega, by omega⟩

theorem IsCivil.toMillis_inj (ht : t.IsCivil) (hu : u.IsCivil) :
    t.toMillis = u.toMillis ↔ t = u :=
  ⟨fun h => by rw [← ht.ofMillis_toMillis, h, hu.ofMillis_toMillis], congrArg toMillis⟩

/-- Dates and times in civil order name instants in the order of time. -/
theorem IsCivil.toMillis_lt (ht : t.IsCivil) (hu : u.IsCivil) (h : t.Before u) :
    t.toMillis < u.toMillis := by
  have hearlier (hlt : t.date.toDays < u.date.toDays) : t.toMillis < u.toMillis := by
    have hhour := ht.hour_lt
    have hminute := ht.minute_lt
    have hsecond := ht.second_lt
    simp only [toMillis, Date.toMillis, millisPerDay, millisPerHour, millisPerMinute,
      millisPerSecond]
    omega
  simp only [Before, fields, List.cons_lt_cons_iff, List.not_lt_nil, and_false, or_false] at h
  rcases h with hyear | ⟨hyear, hmonth | ⟨hmonth, hday | ⟨hday, htime⟩⟩⟩
  · exact hearlier (ht.date.toDays_lt hu.date (.inl hyear))
  · exact hearlier (ht.date.toDays_lt hu.date (.inr ⟨hyear, .inl hmonth⟩))
  · exact hearlier (ht.date.toDays_lt hu.date (.inr ⟨hyear, .inr ⟨hmonth, hday⟩⟩))
  · -- On one day the times decide, of which minutes and seconds stay below the next coarser field.
    have hdate : t.date = u.date := by
      have hdays : t.date.toDays = u.date.toDays := by
        rw [Date.toDays, Date.toDays, hyear, hmonth, hday]
      rw [← ht.date.ofDays_toDays, hdays, hu.date.ofDays_toDays]
    have hminute := ht.minute_lt
    have hsecond := ht.second_lt
    simp only [toMillis, hdate, millisPerHour, millisPerMinute, millisPerSecond]
    omega

end DateTime

end EventQuery.Time
