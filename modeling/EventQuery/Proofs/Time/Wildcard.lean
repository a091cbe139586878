import EventQuery.Proofs.Time.Columns
import EventQuery.Time.Wildcard

/-!
A wildcard pattern denotes the instants that match it. The fields of a pattern in its columns are
fixed down to some granularity; filled with first values it is the canonical text of the first
date and time that agrees with it. The range of the pattern is the bucket of this granularity that
starts there, taken in the local time of the offset, so an instant is in the range exactly if its
date and time at the offset agrees with the fixed fields.
-/

namespace EventQuery.Time

open Text

/-! ### Patterns -/

/-- A pattern in its columns: a year of four digits and fields of two digits from the month down to
that of a granularity. All finer fields, of which there is one at least, are wildcards. -/
structure Pattern where
  year : Nat
  fixed : List Nat
  unit : Granularity
  year_lt : year < 10000
  fixed_lt : ∀ n ∈ fixed, n < 100
  length_fixed : fixed.length + unit.rank = 5
  unit_ne : unit ≠ .seconds

/-- The text of an optional offset in seconds: nothing, or white space and the columns of an
offset. -/
inductive OffsetText : List Char → Int → Prop
  | absent : OffsetText [] 0
  | present (gap : List Char) (hgap : ∀ c ∈ gap, isBlank c = true) (z : Offset) (colon : Bool) :
    OffsetText (gap ++ z.columns colon) z.seconds

/-- The first values of the fields below the year. -/
def firstValues : List Nat := [1, 1, 0, 0, 0]

namespace Pattern

/-- The text of a pattern and an offset behind it. -/
def text (p : Pattern) (offsetText : List Char) : String :=
  String.ofList (columns p.year p.fixed ++ offsetText)

/-- The fixed fields agree with a date and time. -/
def Agrees (p : Pattern) (t : DateTime) : Prop := t.date.year = p.year ∧ p.fixed <+: t.fields

/-- The fixed fields are those that some civil date and time begins with. -/
def IsValid (p : Pattern) : Prop := ∃ t : DateTime, t.IsCivil ∧ p.Agrees t

/-- A date and time has the fixed fields and the first values of the others. -/
structure IsFirst (p : Pattern) (t : DateTime) : Prop where
  year : t.date.year = p.year
  fields : t.fields = p.fixed ++ firstValues.drop p.fixed.length

end Pattern

theorem DateTime.fields_truncate (g : Granularity) (t : DateTime) :
    (t.truncate g).fields = t.fields.take (5 - g.rank) ++ firstValues.drop (5 - g.rank) := by
  cases g <;> rfl

/-! ### Filling the columns -/

section Filling

variable {first column : Nat} {cs : List Char}

/-- The columns of some fields come before those of the others. -/
theorem fieldColumns_append {front : List Char} {fields : List Nat}
    (h : fields.length = front.length) (back : List Char) (others : List Nat) :
    fieldColumns (front ++ back) (fields ++ others) =
      fieldColumns front fields ++ fieldColumns back others := by
  induction front generalizing fields with
  | nil =>
      obtain rfl : fields = [] := List.length_eq_zero_iff.1 h
      rfl
  | cons c front ih =>
      cases fields with
      | nil => cases h
      | cons n fields =>
          have hlength : fields.length = front.length := Nat.succ.inj h
          simp only [List.cons_append, fieldColumns, ih hlength, List.append_assoc]

/-- The fixed columns are kept as they are. -/
theorem fillWildcards_append (hnarrow : IsNarrow cs) (hcs : ∀ c ∈ cs, c ≠ '*')
    (hfirst : column + cs.length ≤ first) (rest : List Char) :
    fillWildcards first column (cs ++ rest) =
      (fillWildcards first (column + cs.length) rest).map (cs ++ ·) := by
  induction cs generalizing column with
  | nil => simp
  | cons c cs ih =>
      rw [List.length_cons] at hfirst
      have hsize := hnarrow c (List.mem_cons_self ..)
      have htail : fillWildcards first (column + 1) (cs ++ rest) =
          (fillWildcards first (column + 1 + cs.length) rest).map (cs ++ ·) := by
        apply ih
        · intro d hd
          exact hnarrow d (List.mem_cons_of_mem c hd)
        · intro d hd
          exact hcs d (List.mem_cons_of_mem c hd)
        · omega
      rw [List.cons_append, fillWildcards, if_pos (by omega),
        if_neg (hcs c (List.mem_cons_self ..)), hsize, htail, List.length_cons,
        show column + (cs.length + 1) = column + 1 + cs.length by omega]
      cases fillWildcards first (column + 1 + cs.length) rest <;> rfl

end Filling

namespace Pattern

variable {p : Pattern} {t u : DateTime}

/-- The columns of the fixed fields. -/
def front (p : Pattern) : List Char :=
  padded 4 p.year ++ fieldColumns (separators.take p.fixed.length) p.fixed

theorem length_fixed_lt (p : Pattern) : p.fixed.length < 5 := by
  have hlength := p.length_fixed
  have hrank : 0 < p.unit.rank := by
    have hunit := p.unit_ne
    cases h : p.unit <;> simp_all [Granularity.rank]
  omega

theorem columns_eq (p : Pattern) (others : List Nat) :
    columns p.year (p.fixed ++ others) =
      p.front ++ fieldColumns (separators.drop p.fixed.length) others := by
  have hlength := p.length_fixed_lt
  have htake : p.fixed.length = (separators.take p.fixed.length).length := by
    rw [List.length_take]
    exact (Nat.min_eq_left (Nat.le_of_lt hlength)).symm
  rw [columns, front, List.append_assoc, ← fieldColumns_append htake, List.take_append_drop]

theorem length_front (p : Pattern) : p.front.length = 4 + 3 * p.fixed.length := by
  have hlength : p.fixed.length ≤ separators.length := Nat.le_of_lt p.length_fixed_lt
  rw [front, List.length_append, length_padded, length_fieldColumns, List.length_take,
    Nat.min_eq_left hlength]

theorem isNarrow_front (p : Pattern) : IsNarrow p.front := by
  intro c hc
  refine isNarrow_columns p.year (p.fixed ++ []) c ?_
  rw [columns_eq]
  exact List.mem_append_left _ hc

theorem ne_of_mem_front {c : Char} (h : c ∈ p.front) : c ≠ '*' := by
  rintro rfl
  rcases List.mem_append.1 h with h | h
  · cases isDigit_of_mem_padded h
  · rcases mem_fieldColumns h with h | h | ⟨-, h⟩
    · exact absurd (List.mem_of_mem_take h) (by decide)
    · cases h
    · rw [List.length_take] at h
      omega

/-- The first wildcard stands behind the fixed fields and the separator after them. -/
theorem byteLength_fixed (p : Pattern) :
    byteLength ((columns p.year p.fixed).takeWhile (· ≠ '*')) = 5 + 3 * p.fixed.length := by
  have hwildcards : ∀ k < 5,
      byteLength ((fieldColumns (separators.drop k) []).takeWhile (· ≠ '*')) = 1 := by decide
  have hfront : ∀ c ∈ p.front, decide (c ≠ '*') = true := fun c hc =>
    decide_eq_true (ne_of_mem_front hc)
  have hcolumns := p.columns_eq []
  rw [List.append_nil] at hcolumns
  rw [hcolumns, List.takeWhile_append_of_pos hfront, p.isNarrow_front.byteLength_append,
    hwildcards _ p.length_fixed_lt, length_front]
  omega

theorem wildcardUnit_fixed (p : Pattern) :
    wildcardUnit (5 + 3 * p.fixed.length) = some p.unit := by
  have hlength := p.length_fixed
  have hunit := p.unit_ne
  cases h : p.unit with
  | seconds => exact absurd h hunit
  | _ =>
      rw [h] at hlength
      obtain hlength : p.fixed.length = _ := Nat.eq_sub_of_add_eq hlength
      rw [hlength]
      rfl

/-- Filled, a pattern has the columns of its first date and time. -/
theorem fillWildcards_columns (h : p.IsFirst t) :
    fillWildcards (5 + 3 * p.fixed.length) 0 (columns p.year p.fixed) =
      some (columns p.year t.fields) := by
  have hwildcards : ∀ k < 5,
      fillWildcards (5 + 3 * k) (4 + 3 * k) (fieldColumns (separators.drop k) []) =
        some (fieldColumns (separators.drop k) (firstValues.drop k)) := by decide
  have hcolumns := p.columns_eq []
  have hlength := p.length_front
  rw [List.append_nil] at hcolumns
  rw [hcolumns, fillWildcards_append p.isNarrow_front (fun _ => ne_of_mem_front) (by omega),
    Nat.zero_add, hlength, hwildcards _ p.length_fixed_lt, h.fields, columns_eq]
  rfl

/-! ### The first date and time -/

theorem exists_isFirst (p : Pattern) : ∃ t, p.IsFirst t := by
  have hlength := p.length_fixed_lt
  have hfields : (p.fixed ++ firstValues.drop p.fixed.length).length = 5 := by
    rw [List.length_append, List.length_drop, show firstValues.length = 5 from rfl]
    omega
  match hlist : p.fixed ++ firstValues.drop p.fixed.length, hfields with
  | [month, day, hour, minute, second], _ =>
      exact ⟨⟨⟨p.year, month, day⟩, hour, minute, second⟩, rfl, hlist.symm⟩

/-- A date and time agrees with a pattern if the finer fields reset make it the first one. -/
theorem IsFirst.agrees_iff (h : p.IsFirst t) : p.Agrees u ↔ u.truncate p.unit = t := by
  have hunit : 5 - p.unit.rank = p.fixed.length := (Nat.eq_sub_of_add_eq p.length_fixed).symm
  have hyear : (u.truncate p.unit).date.year = u.date.year := by cases p.unit <;> rfl
  have hfields := DateTime.fields_truncate p.unit u
  rw [hunit] at hfields
  rw [Agrees, List.prefix_iff_eq_take]
  constructor
  · rintro ⟨hagrees, htake⟩
    exact DateTime.eq_of_fields (by rw [hyear, hagrees, h.year])
      (by rw [hfields, h.fields, ← htake])
  · intro heq
    rw [heq, h.fields] at hfields
    rw [heq, h.year] at hyear
    exact ⟨hyear.symm, List.append_cancel_right hfields⟩

theorem IsFirst.truncate (h : p.IsFirst t) : t.truncate p.unit = t :=
  h.agrees_iff.1 ⟨h.year, ⟨_, h.fields.symm⟩⟩

/-- The fixed fields are valid if the first date and time is one of the calendar and the clock. -/
theorem IsFirst.isValid_iff (h : p.IsFirst t) : p.IsValid ↔ t.IsCivil := by
  constructor
  · rintro ⟨u, hu, hagrees⟩
    rw [← h.agrees_iff.1 hagrees]
    exact DateTime.isCivil_truncate hu p.unit
  · exact fun ht => ⟨t, ht, h.agrees_iff.2 h.truncate⟩

theorem IsFirst.fields_lt (h : p.IsFirst t) : ∀ n ∈ t.fields, n < 100 := by
  intro n hn
  rw [h.fields, List.mem_append] at hn
  rcases hn with hn | hn
  · exact p.fixed_lt n hn
  · have hvalues : ∀ n ∈ firstValues, n < 100 := by decide
    exact hvalues n (List.mem_of_mem_drop hn)

theorem IsFirst.isCanonical (h : p.IsFirst t) (ht : t.IsCivil) : t.IsCanonical where
  toIsCivil := ht
  year_nonneg := by rw [h.year]; omega
  year_lt := by
    have hyear := p.year_lt
    rw [h.year]
    omega

theorem IsFirst.second_eq (h : p.IsFirst t) : t.second = 0 := by
  have hunit := p.unit_ne
  rw [← h.truncate]
  cases hg : p.unit <;> trivial

theorem IsFirst.isReadable_iff (h : p.IsFirst t) : t.IsReadable ↔ t.IsCivil := by
  constructor
  · rintro ⟨hdate, hhour, hminute, -⟩
    obtain ⟨-, -, hcivil⟩ := Date.isValid_iff.1 hdate
    have hsecond := h.second_eq
    exact ⟨hcivil, by omega, by omega, by omega⟩
  · exact fun ht => (h.isCanonical ht).isReadable

end Pattern

/-! ### The end of the range -/

section Ends

variable {g : Granularity} {t : DateTime} {millis : Int}

theorem IsNear.shift? (h : IsNear millis) : shift? millis = some millis := by
  rw [Time.shift?, h.ofMillis?]
  rfl

theorem IsNear.isValid {d : Date} (h : IsNear d.toMillis) (hd : d.IsCivil) : d.isValid = true := by
  have hday : d.toMillis / millisPerDay = d.toDays := Int.mul_ediv_cancel _ (by decide)
  have hyear := h.supported
  rw [hday, hd.ofDays_toDays] at hyear
  exact Date.isValid_iff.2 ⟨hyear.1, hyear.2, hd⟩

/-- A bucket that follows the calendar ends at the start of its next date. -/
theorem DateTime.IsCivil.ceil_toMillis (h : t.IsCivil) (hg : g.fixedWidth = none) :
    g.ceil t.toMillis = (g.nextDate t.date).toMillis := by
  rw [Granularity.ceil, hg]
  simp only [Granularity.nextDay, h.toMillis_ediv, h.date.ofDays_toDays]
  rfl

/-- No bucket of a year of four digits ends after the last such year. -/
theorem DateTime.IsCanonical.ceil_bounds (h : t.IsCanonical) (g : Granularity) :
    -62167219200000 < g.ceil t.toMillis ∧ g.ceil t.toMillis ≤ 253402300800000 := by
  have hrank : g.rank ≤ Granularity.years.rank := by cases g <;> decide
  have hmono := Granularity.ceil_mono_rank hrank t.toMillis
  have hlast := daysBeforeYear_mono (show t.date.year + 1 ≤ 10000 from h.year_lt)
  have hlow := h.toMillis_bounds.1
  have hlt := Granularity.lt_ceil g t.toMillis
  rw [h.ceil_toMillis (g := .years) rfl, Granularity.nextDate_years] at hmono
  rw [show daysBeforeYear 10000 = 3652059 from rfl] at hlast
  have hfirst : (⟨t.date.year + 1, 1, 1⟩ : Date).toDays =
      daysBeforeYear (t.date.year + 1) - epochOffset := by simp [Date.toDays, daysBeforeMonth]
  simp only [Date.toMillis, hfirst, epochOffset, millisPerDay, millisPerHour, millisPerMinute,
    millisPerSecond] at hmono
  omega

/-- The range of a first date and time ends where its bucket does. -/
theorem DateTime.IsCanonical.rangeEnd (h : t.IsCanonical) (hfirst : t.truncate g = t)
    (hg : g ≠ .seconds) : rangeEnd g t = some (g.ceil t.toMillis) := by
  have hbounds := h.ceil_bounds g
  have hnear : IsNear (g.ceil t.toMillis) := ⟨by omega, by omega⟩
  have hfloor : g.floor t.toMillis = t.toMillis := by rw [← h.toMillis_truncate, hfirst]
  have hnext := Granularity.isCivil_nextDate (g := g) h.date
  cases g with
  | seconds => exact absurd rfl hg
  | minutes | hours | days =>
      simp only [Granularity.ceil, Granularity.fixedWidth, hfloor] at hnear ⊢
      unfold Time.rangeEnd
      exact hnear.shift?
  | months =>
      have hdate : Granularity.nextDate .months t.date = t.date.addMonths 1 :=
        congrArg (fun t : DateTime => t.date.addMonths 1) hfirst
      rw [h.ceil_toMillis rfl, hdate] at hnear ⊢
      rw [hdate] at hnext
      have hmidnight : ({ t with date := t.date.addMonths 1 } : DateTime).toMillis =
          (t.date.addMonths 1).toMillis := by
        rw [← hfirst]
        simp [toMillis, DateTime.truncate]
      unfold Time.rangeEnd
      simp only [hmidnight]
      exact if_pos (hnear.isValid hnext)
  | years =>
      rw [h.ceil_toMillis rfl, Granularity.nextDate_years] at hnear ⊢
      rw [Granularity.nextDate_years] at hnext
      unfold Time.rangeEnd
      exact if_pos (hnear.isValid hnext)

/-- The bucket after that of a date with a year of four digits starts at a timestamp. -/
theorem DateTime.IsCanonical.nextInRange (h : t.IsCanonical) (g : Granularity) :
    g.NextInRange t.toMillis := by
  have hbounds := h.ceil_bounds g
  have hnear : IsNear (g.ceil t.toMillis) := ⟨by omega, by omega⟩
  unfold Granularity.NextInRange
  cases hg : g.fixedWidth with
  | some width =>
      have hmax : Int64.maxValue.toInt = 9223372036854775807 := by decide
      dsimp only
      omega
  | none =>
      dsimp only
      rw [h.toMillis_ediv, h.date.ofDays_toDays]
      exact (h.ceil_toMillis hg ▸ hnear).isValid (Granularity.isCivil_nextDate h.date)

end Ends

/-! ### Offsets -/

theorem patternOffset_columns (z : Offset) (colon : Bool) :
    patternOffset (z.columns colon) = some z.seconds := by
  have htrim : trim (z.columns colon) = z.columns colon :=
    trim_eq_self (z.visible_head?_columns colon) (z.visible_getLast?_columns colon)
  have hdigit {n : Nat} : ∀ c ∈ padded 2 n, decide (c ≠ ':') = true := fun c hc =>
    decide_eq_true fun heq => by cases heq ▸ isDigit_of_mem_padded hc
  have hdigits : (padded 2 z.hours ++ ((if colon then [':'] else []) ++ padded 2 z.minutes)).filter
      (fun c => decide (c ≠ ':')) = padded 2 z.hours ++ padded 2 z.minutes := by
    have hcolon : (if colon then [':'] else []).filter (fun c => decide (c ≠ ':')) = [] := by
      cases colon <;> decide
    rw [List.filter_append, List.filter_append, hcolon, List.filter_eq_self.2 hdigit,
      List.filter_eq_self.2 hdigit, List.nil_append]
  have hall : (padded 2 z.hours ++ padded 2 z.minutes).all Char.isDigit = true := by
    rw [List.all_append, Bool.and_eq_true, List.all_eq_true, List.all_eq_true]
    exact ⟨fun _ => isDigit_of_mem_padded, fun _ => isDigit_of_mem_padded⟩
  have hhours : digitsValue ((padded 2 z.hours ++ padded 2 z.minutes).take 2) = z.hours := by
    have hlt := z.hours_lt
    rw [List.take_left' (length_padded 2 _), digitsValue_padded (by omega)]
  have hminutes : digitsValue ((padded 2 z.hours ++ padded 2 z.minutes).drop 2) = z.minutes := by
    rw [List.drop_left' (length_padded 2 _), digitsValue_padded z.minutes_lt]
  have hday : z.hours * 3600 + z.minutes * 60 < 86400 := by
    have hlt := z.lt_day
    omega
  have hlength : (padded 2 z.hours ++ padded 2 z.minutes).length = 4 := by
    rw [List.length_append, length_padded, length_padded]
  rw [patternOffset, htrim, Offset.columns, Offset.seconds]
  cases z.east <;>
    simp only [Bool.false_eq_true, if_true, if_false, hdigits, hlength, hall, hhours, hminutes,
      hday, and_self]

theorem OffsetText.patternOffset {offsetText : List Char} {offset : Int}
    (h : OffsetText offsetText offset) : patternOffset offsetText = some offset := by
  cases h with
  | absent => rfl
  | present gap hgap z colon =>
      rw [← patternOffset_columns z colon, Time.patternOffset, Time.patternOffset,
        trim_blanks_append hgap]

theorem OffsetText.bounds {offsetText : List Char} {offset : Int}
    (h : OffsetText offsetText offset) : -86400 < offset ∧ offset < 86400 := by
  cases h with
  | absent => decide
  | present _ _ z _ => exact z.seconds_bounds

theorem OffsetText.trim_columns {offsetText : List Char} {offset : Int}
    (h : OffsetText offsetText offset) (year : Nat) (fields : List Nat) :
    trim (columns year fields ++ offsetText) = columns year fields ++ offsetText := by
  refine trim_eq_self visible_head?_columns ?_
  cases h with
  | absent =>
      rw [List.append_nil]
      exact visible_getLast?_columns year fields
  | present gap _ z colon =>
      exact ((z.visible_getLast?_columns colon).getLast?_append gap).getLast?_append _

/-! ### Ranges -/

namespace Pattern

variable {p : Pattern} {t : DateTime} {offsetText : List Char} {offset : Int}

/-- A pattern is read by reading the columns of its first date and time. -/
theorem readPattern_columns (hoffset : OffsetText offsetText offset) (h : p.IsFirst t) :
    readPattern (columns p.year p.fixed ++ offsetText) =
      (readDateTime (columns p.year t.fields)).bind fun (u, rest) =>
        if rest.isEmpty then
          (rangeEnd p.unit u).bind fun stop =>
            (shift? (u.toMillis - offset * millisPerSecond)).bind fun start =>
              (shift? (stop - offset * millisPerSecond)).bind fun stop =>
                some ⟨.ofInt start, .ofInt stop⟩
        else none := by
  have hsplit := (isNarrow_columns p.year p.fixed).splitAtByte_append offsetText
  rw [length_columns] at hsplit
  unfold readPattern
  simp only [Option.bind_eq_bind, hsplit, Option.bind_some, hoffset.patternOffset, byteLength_fixed,
    wildcardUnit_fixed, fillWildcards_columns h]

/-- The ends of a range are near the epoch, whatever the offset. -/
theorem IsFirst.isNear (h : p.IsFirst t) (ht : t.IsCivil) (hoffset : OffsetText offsetText offset) :
    IsNear (t.toMillis - offset * millisPerSecond) ∧
      IsNear (p.unit.ceil t.toMillis - offset * millisPerSecond) := by
  obtain ⟨hlow, hhigh⟩ := (h.isCanonical ht).toMillis_bounds
  obtain ⟨hlow', hhigh'⟩ := (h.isCanonical ht).ceil_bounds p.unit
  obtain ⟨hwest, heast⟩ := hoffset.bounds
  rw [millisPerSecond]
  exact ⟨⟨by omega, by omega⟩, ⟨by omega, by omega⟩⟩

/-- The range of a valid pattern is the bucket that its first date and time starts, moved by the
offset. -/
theorem expandPattern_of_isCivil (hoffset : OffsetText offsetText offset) (h : p.IsFirst t)
    (ht : t.IsCivil) :
    expandPattern (p.text offsetText) =
      .ok ⟨.ofInt (t.toMillis - offset * millisPerSecond),
        .ofInt (p.unit.ceil t.toMillis - offset * millisPerSecond)⟩ := by
  have hcanonical := h.isCanonical ht
  obtain ⟨hstart, hstop⟩ := h.isNear ht hoffset
  have hread : readDateTime (columns p.year t.fields) = some (t, []) := by
    have hyear := p.year_lt
    have hcolumns := hcanonical.readDateTime_columns []
    rwa [List.append_nil, h.year, Int.toNat_natCast] at hcolumns
  rw [expandPattern, text, String.toList_ofList, hoffset.trim_columns,
    readPattern_columns hoffset h, hread]
  simp only [Option.bind_some, List.isEmpty_nil, if_true,
    hcanonical.rangeEnd h.truncate p.unit_ne, hstart.shift?, hstop.shift?]

theorem expandPattern_of_not_isCivil (hoffset : OffsetText offsetText offset) (h : p.IsFirst t)
    (ht : ¬ t.IsCivil) :
    expandPattern (p.text offsetText) = .error (.invalidPattern (p.text offsetText)) := by
  have hread : readDateTime (columns p.year t.fields) = none := by
    refine Option.eq_none_iff_forall_ne_some.2 fun ⟨u, rest⟩ hread => ht ?_
    rw [← List.append_nil (columns p.year t.fields),
      readDateTime_columns h.year p.year_lt h.fields_lt] at hread
    exact h.isReadable_iff.1 hread.1
  rw [expandPattern, text, String.toList_ofList, hoffset.trim_columns,
    readPattern_columns hoffset h, hread]
  rfl

/-- The first date and time starts a bucket. -/
theorem IsFirst.floor_toMillis (h : p.IsFirst t) (ht : t.IsCivil) :
    p.unit.floor t.toMillis = t.toMillis := by
  rw [← ht.toMillis_truncate, h.truncate]

/-- The bucket that the first date and time starts holds the instants that agree. -/
theorem IsFirst.agrees_ofMillis_iff (h : p.IsFirst t) (ht : t.IsCivil) (x : Int) :
    p.Agrees (DateTime.ofMillis x) ↔ t.toMillis ≤ x ∧ x < p.unit.ceil t.toMillis := by
  have hsame : p.Agrees (DateTime.ofMillis x) ↔ p.unit.floor x = p.unit.floor t.toMillis := by
    rw [h.agrees_iff, DateTime.floor_eq_floor_iff, ht.ofMillis_toMillis, h.truncate]
  rw [hsame, Granularity.floor_eq_iff, h.floor_toMillis ht]

/-- A wildcard pattern denotes the instants that match it. Fixed fields that begin a civil date and
time are expanded to a range, which holds the instants whose dates and times at the offset agree
with the fields, and which without an offset ends at the next start of its bucket; other fields are
refused. -/
theorem expandPattern_denotes (p : Pattern) (hoffset : OffsetText offsetText offset) :
    (p.IsValid → ∃ range, expandPattern (p.text offsetText) = .ok range ∧
      range.start < range.stop ∧
      (∀ x : Int, range.start.toInt ≤ x ∧ x < range.stop.toInt ↔
        p.Agrees (DateTime.ofMillis (x + offset * millisPerSecond))) ∧
      (offset = 0 → p.unit.nextStartTime range.start = .ok range.stop)) ∧
    (¬ p.IsValid →
      expandPattern (p.text offsetText) = .error (.invalidPattern (p.text offsetText))) := by
  obtain ⟨t, h⟩ := p.exists_isFirst
  rw [h.isValid_iff]
  refine ⟨fun ht => ⟨_, expandPattern_of_isCivil hoffset h ht, ?_, fun x => ?_, ?_⟩,
    expandPattern_of_not_isCivil hoffset h⟩
  all_goals
    obtain ⟨hstart, hstop⟩ := h.isNear ht hoffset
    have hceil := Granularity.lt_ceil p.unit t.toMillis
  · rw [Int64.lt_iff_toInt_lt, hstart.toInt_ofInt, hstop.toInt_ofInt]
    omega
  · rw [hstart.toInt_ofInt, hstop.toInt_ofInt, h.agrees_ofMillis_iff ht]
    omega
  · rintro rfl
    rw [Int.zero_mul, Int.sub_zero] at hstart hstop
    have hself : p.unit.startTime (.ofInt t.toMillis) = .ok (.ofInt t.toMillis) := by
      rw [Granularity.startTime_eq_ok, hstart.toInt_ofInt, h.floor_toMillis ht]
      exact ⟨hstart.inRange p.unit, rfl⟩
    simp only [Int.zero_mul, Int.sub_zero]
    rw [Granularity.nextStartTime_eq_ok hself, hstart.toInt_ofInt, hstop.toInt_ofInt]
    exact ⟨(h.isCanonical ht).nextInRange p.unit, rfl⟩

/-- A February with 29 days, in the local time of an offset. -/
theorem expandPattern_denotes_february :
    OffsetText [' ', '+', '0', '5', ':', '3', '0'] 19800 ∧
      expandPattern "2016-02-** **:**:** +05:30" = .ok ⟨1454265000000, 1456770600000⟩ ∧
      ∀ x : Int, 1454265000000 ≤ x ∧ x < 1456770600000 ↔
        (DateTime.ofMillis (x + 19800 * millisPerSecond)).date.year = 2016 ∧
          [2] <+: (DateTime.ofMillis (x + 19800 * millisPerSecond)).fields := by
  let february : Pattern := ⟨2016, [2], .months, by decide, by decide, by decide, by decide⟩
  let ahead : Offset := ⟨true, 5, 30, by decide, by decide⟩
  have hoffset := OffsetText.present [' '] (List.forall_mem_singleton.2 rfl) ahead true
  rw [show [' '] ++ ahead.columns true = [' ', '+', '0', '5', ':', '3', '0'] by decide,
    show ahead.seconds = 19800 by decide] at hoffset
  have htext : february.text [' ', '+', '0', '5', ':', '3', '0'] =
      "2016-02-** **:**:** +05:30" := by decide
  have hfirst : february.IsFirst ⟨⟨2016, 2, 1⟩, 0, 0, 0⟩ := ⟨rfl, rfl⟩
  have hcivil : (⟨⟨2016, 2, 1⟩, 0, 0, 0⟩ : DateTime).IsCivil := by decide
  have hbounds : expandPattern (february.text [' ', '+', '0', '5', ':', '3', '0']) =
      .ok ⟨1454265000000, 1456770600000⟩ := by
    rw [expandPattern_of_isCivil hoffset hfirst hcivil]
    exact congrArg Except.ok (by decide)
  obtain ⟨range, hrange, -, hmem, -⟩ :=
    (expandPattern_denotes february hoffset).1 (hfirst.isValid_iff.2 hcivil)
  obtain rfl : range = ⟨1454265000000, 1456770600000⟩ := Except.ok.inj (hrange.symm.trans hbounds)
  exact ⟨hoffset, htext ▸ hbounds, hmem⟩

end Pattern

end EventQuery.Time
