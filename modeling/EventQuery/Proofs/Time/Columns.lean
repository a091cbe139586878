import EventQuery.Proofs.Time.Tiling
import EventQuery.Time.Timestamp
import Mathlib.Algebra.Ring.Int.Defs
import Mathlib.Algebra.Ring.Nat

/-!
The canonical text of a date and time, `yyyy-MM-dd HH:mm:ss`, and of an offset. Reading such a text
gives back the date and time that it was written from, so parsing and truncation follow one
calendar: the start of a bucket is the instant of the text with all finer fields reset.
-/

namespace EventQuery

/-! ### Texts without white space around them -/

namespace Text

variable {c : Char} {cs ds : List Char}

/-- A character that stands at an end of a text and is not blank. -/
def Visible (end? : Option Char) : Prop := ∃ c, end? = some c ∧ isBlank c = false

theorem isBlank_of_isDigit (h : c.isDigit = true) : isBlank c = false := by
  have hbounds : 48 ≤ c.toNat ∧ c.toNat ≤ 57 := Char.isDigit_iff_toNat.1 h
  simp [isBlank]
  omega

theorem trimStart_eq_self (h : Visible cs.head?) : trimStart cs = cs := by
  obtain ⟨c, hc, hblank⟩ := h
  cases cs with
  | nil => cases hc
  | cons d ds =>
      obtain rfl := Option.some.inj hc
      rw [trimStart, List.dropWhile_cons, if_neg (by rw [hblank]; decide)]

theorem trim_eq_self (hfirst : Visible cs.head?) (hlast : Visible cs.getLast?) : trim cs = cs := by
  rw [trim, trimStart_eq_self hfirst, trimStart_eq_self (List.head?_reverse ▸ hlast),
    List.reverse_reverse]

theorem trim_blanks_append (h : ∀ c ∈ cs, isBlank c = true) : trim (cs ++ ds) = trim ds := by
  have hstart : trimStart (cs ++ ds) = trimStart ds := List.dropWhile_append_of_pos h
  rw [trim, trim, hstart]

theorem Visible.getLast?_append (h : Visible ds.getLast?) (cs : List Char) :
    Visible (cs ++ ds).getLast? := by
  obtain ⟨c, hc, hblank⟩ := h
  exact ⟨c, by rw [List.getLast?_append, hc, Option.some_or], hblank⟩

/-- The characters of a text take one byte each. -/
def IsNarrow (cs : List Char) : Prop := ∀ c ∈ cs, c.utf8Size = 1

theorem utf8Size_of_isDigit (h : c.isDigit = true) : c.utf8Size = 1 := by
  have hbounds : 48 ≤ c.toNat ∧ c.toNat ≤ 57 := Char.isDigit_iff_toNat.1 h
  refine Char.utf8Size_eq_one_iff.2 (UInt32.le_iff_toNat_le.2 ?_)
  exact Nat.le_trans hbounds.2 (by decide)

theorem IsNarrow.byteLength_append (h : IsNarrow cs) (ds : List Char) :
    byteLength (cs ++ ds) = cs.length + byteLength ds := by
  induction cs with
  | nil => simp
  | cons c cs ih =>
      rw [List.cons_append, byteLength, h c (List.mem_cons_self ..),
        ih fun d hd => h d (List.mem_cons_of_mem c hd), List.length_cons]
      omega

theorem IsNarrow.splitAtByte_append (h : IsNarrow cs) (ds : List Char) :
    splitAtByte cs.length (cs ++ ds) = some (cs, ds) := by
  induction cs with
  | nil => simp [splitAtByte]
  | cons c cs ih =>
      have hsize := h c (List.mem_cons_self ..)
      rw [List.length_cons, List.cons_append, splitAtByte, hsize, if_neg (by omega),
        Nat.add_sub_cancel, ih fun d hd => h d (List.mem_cons_of_mem c hd)]
      rfl

end Text

namespace Time

open Text

/-! ### Padded numbers -/

/-- A number in a fixed count of decimal digits, leading zeros included. -/
def padded : Nat → Nat → List Char
  | 0, _ => []
  | width + 1, n => padded width (n / 10) ++ [Nat.digitChar (n % 10)]

section Padded

variable {width n : Nat} {rest : List Char}

@[simp] theorem length_padded (width n : Nat) : (padded width n).length = width := by
  induction width generalizing n with
  | zero => rfl
  | succ width ih => rw [padded, List.length_append, ih, List.length_singleton]

theorem isDigit_of_mem_padded {c : Char} (h : c ∈ padded width n) : c.isDigit = true := by
  induction width generalizing n with
  | zero => cases h
  | succ width ih =>
      rw [padded, List.mem_append, List.mem_singleton] at h
      rcases h with h | rfl
      · exact ih h
      · rw [Nat.isDigit_digitChar]
        exact decide_eq_true (Nat.mod_lt n (by decide))

theorem digitsValue_concat (cs : List Char) (c : Char) :
    digitsValue (cs ++ [c]) = 10 * digitsValue cs + (c.toNat - 48) := by
  rw [digitsValue, digitsValue, List.foldl_append]
  rfl

/-- The value of the digits of a number is the number, where it fits. -/
theorem digitsValue_padded (h : n < 10 ^ width) : digitsValue (padded width n) = n := by
  induction width generalizing n with
  | zero =>
      have hzero : n = 0 := Nat.lt_one_iff.1 h
      rw [hzero]
      rfl
  | succ width ih =>
      rw [Nat.pow_succ] at h
      rw [padded, digitsValue_concat, ih (by omega),
        Nat.toNat_digitChar_of_lt_ten (Nat.mod_lt n (by decide))]
      omega

theorem readDigits_padded (hwidth : 0 < width) (h : n < 10 ^ width) :
    readDigits width (padded width n ++ rest) = some (n, rest) := by
  have htake : (padded width n ++ rest).take width = padded width n :=
    List.take_left' (length_padded width n)
  have hdigits : (padded width n).takeWhile Char.isDigit = padded width n := by
    have hall : (padded width n ++ []).takeWhile Char.isDigit = padded width n ++ [] :=
      List.takeWhile_append_of_pos fun c hc => isDigit_of_mem_padded hc
    rwa [List.append_nil] at hall
  have hnonempty : (padded width n).isEmpty = false := by
    rw [List.isEmpty_eq_false_iff, ← List.length_pos_iff, length_padded]
    exact hwidth
  have hdrop : (padded width n ++ rest).drop width = rest :=
    List.drop_left' (length_padded width n)
  rw [readDigits, htake]
  simp only [hdigits, hnonempty, Bool.false_eq_true, if_false, digitsValue_padded h, length_padded,
    hdrop]

/-- A padded number starts with a digit. -/
theorem padded_eq_cons (hwidth : 0 < width) (n : Nat) :
    ∃ c cs, padded width n = c :: cs ∧ c.isDigit = true := by
  cases h : padded width n with
  | nil =>
      have hlength := length_padded width n
      rw [h, List.length_nil] at hlength
      omega
  | cons c cs => exact ⟨c, cs, rfl, isDigit_of_mem_padded (h ▸ List.mem_cons_self ..)⟩

theorem visible_head?_padded (hwidth : 0 < width) : Visible (padded width n ++ rest).head? := by
  obtain ⟨c, cs, hcons, hdigit⟩ := padded_eq_cons hwidth n
  exact ⟨c, by rw [hcons]; rfl, isBlank_of_isDigit hdigit⟩

theorem visible_getLast?_padded (width n : Nat) : Visible (padded (width + 1) n).getLast? := by
  refine ⟨Nat.digitChar (n % 10), by rw [padded, List.getLast?_concat], isBlank_of_isDigit ?_⟩
  rw [Nat.isDigit_digitChar]
  exact decide_eq_true (Nat.mod_lt n (by decide))

/-- Nothing but digits can be dropped from the start of a padded number. -/
theorem dropWhile_padded (hwidth : 0 < width) {p : Char → Bool}
    (hp : ∀ c : Char, c.isDigit = true → p c = false) :
    (padded width n ++ rest).dropWhile p = padded width n ++ rest := by
  obtain ⟨c, cs, hcons, hdigit⟩ := padded_eq_cons hwidth n
  rw [hcons, List.cons_append, List.dropWhile_cons, if_neg (by rw [hp c hdigit]; decide)]

theorem isNarrow_padded (width n : Nat) : IsNarrow (padded width n) :=
  fun _ hc => utf8Size_of_isDigit (isDigit_of_mem_padded hc)

end Padded

/-! ### Reading -/

section Reading

variable {least greatest n : Nat} {rest : List Char}

theorem readField_padded_eq_some (h : n < 100) {m : Nat} {cs : List Char} :
    readField least greatest (padded 2 n ++ rest) = some (m, cs) ↔
      (least ≤ n ∧ n ≤ greatest) ∧ n = m ∧ rest = cs := by
  rw [readField, trimStart_eq_self (visible_head?_padded (by decide)),
    readDigits_padded (by decide) h]
  change (if least ≤ n ∧ n ≤ greatest then some (n, rest) else none) = _ ↔ _
  split
  · rename_i hbounds
    rw [Option.some.injEq, Prod.mk.injEq, and_iff_right hbounds]
  · rename_i hbounds
    exact iff_of_false nofun fun hread => hbounds hread.1

theorem readField_space (cs : List Char) :
    readField least greatest (' ' :: cs) = readField least greatest cs := by
  rfl

theorem readYear_padded (h : n < 10000) :
    readYear (padded 4 n ++ rest) = some ((n : Int), rest) := by
  obtain ⟨c, cs, hcons, hdigit⟩ := padded_eq_cons (show 0 < 4 by decide) n
  rw [readYear, trimStart_eq_self (visible_head?_padded (by decide))]
  -- A digit is no sign.
  split
  · rename_i heq
    rw [hcons] at heq
    obtain ⟨rfl, -⟩ := List.cons.inj heq
    cases hdigit
  · rename_i heq
    rw [hcons] at heq
    obtain ⟨rfl, -⟩ := List.cons.inj heq
    cases hdigit
  · rw [readDigits_padded (by decide) h]
    rfl

theorem readChar_self (c : Char) (cs : List Char) : readChar c (c :: cs) = some cs := if_pos rfl

end Reading

/-! ### Columns -/

/-- The separators of the fields below the year. -/
def separators : List Char := ['-', '-', ' ', ':', ':']

/-- The columns of fields behind their separators. The fields that are not given are wildcards. -/
def fieldColumns : List Char → List Nat → List Char
  | [], _ => []
  | separator :: separators, n :: ns =>
    separator :: (padded 2 n ++ fieldColumns separators ns)
  | separator :: separators, [] => separator :: '*' :: '*' :: fieldColumns separators []

/-- The columns of a year and the fields below it, coarsest first. -/
def columns (year : Nat) (fields : List Nat) : List Char :=
  padded 4 year ++ fieldColumns separators fields

section Columns

variable {year : Nat} {fields : List Nat} {rest : List Char}

theorem length_fieldColumns (separators : List Char) (fields : List Nat) :
    (fieldColumns separators fields).length = 3 * separators.length := by
  fun_induction fieldColumns with
  | case1 => rfl
  | case2 _ _ _ _ ih => simp only [List.length_cons, List.length_append, length_padded, ih]; omega
  | case3 _ _ ih => simp only [List.length_cons, ih]; omega

theorem length_columns (year : Nat) (fields : List Nat) :
    (columns year fields).length = dateTimeLength := by
  rw [columns, List.length_append, length_padded, length_fieldColumns]
  rfl

/-- Columns hold separators and digits, and wildcards where fields are not given. -/
theorem mem_fieldColumns {separators : List Char} {c : Char}
    (h : c ∈ fieldColumns separators fields) :
    c ∈ separators ∨ c.isDigit = true ∨ c = '*' ∧ fields.length < separators.length := by
  fun_induction fieldColumns with
  | case1 => cases h
  | case2 separator separators n ns ih =>
      rw [List.mem_cons, List.mem_append] at h
      rw [List.mem_cons, List.length_cons, List.length_cons]
      rcases h with rfl | h | h
      · exact .inl (.inl rfl)
      · exact .inr (.inl (isDigit_of_mem_padded h))
      · rcases ih h with h | h | ⟨h, hlength⟩
        · exact .inl (.inr h)
        · exact .inr (.inl h)
        · exact .inr (.inr ⟨h, by omega⟩)
  | case3 separator separators ih =>
      rw [List.mem_cons, List.mem_cons, List.mem_cons] at h
      rw [List.mem_cons, List.length_cons, List.length_nil]
      rcases h with rfl | rfl | rfl | h
      · exact .inl (.inl rfl)
      · exact .inr (.inr ⟨rfl, by omega⟩)
      · exact .inr (.inr ⟨rfl, by omega⟩)
      · rcases ih h with h | h | ⟨h, -⟩
        · exact .inl (.inr h)
        · exact .inr (.inl h)
        · exact .inr (.inr ⟨h, by omega⟩)

theorem isNarrow_columns (year : Nat) (fields : List Nat) : IsNarrow (columns year fields) := by
  intro c hc
  rcases List.mem_append.1 hc with hc | hc
  · exact isNarrow_padded 4 year c hc
  · rcases mem_fieldColumns hc with hc | hc | ⟨rfl, -⟩
    · have hseparators : separators.all (·.utf8Size == 1) = true := rfl
      exact beq_iff_eq.1 (List.all_eq_true.1 hseparators c hc)
    · exact utf8Size_of_isDigit hc
    · rfl

theorem visible_head?_columns : Visible (columns year fields ++ rest).head? := by
  rw [columns, List.append_assoc]
  exact visible_head?_padded (by decide)

theorem visible_getLast?_fieldColumns (separators : List Char) (fields : List Nat)
    (h : separators ≠ []) : Visible (fieldColumns separators fields).getLast? := by
  fun_induction fieldColumns with
  | case1 => exact absurd rfl h
  | case2 separator separators n ns ih =>
      rw [← List.singleton_append, ← List.append_assoc]
      cases separators with
      | nil =>
          rw [fieldColumns, List.append_nil]
          exact (visible_getLast?_padded 1 n).getLast?_append _
      | cons s ss => exact (ih (List.cons_ne_nil s ss)).getLast?_append _
  | case3 separator separators ih =>
      cases separators with
      | nil => exact ⟨'*', rfl, rfl⟩
      | cons s ss => exact (ih (List.cons_ne_nil s ss)).getLast?_append [separator, '*', '*']

theorem visible_getLast?_columns (year : Nat) (fields : List Nat) :
    Visible (columns year fields).getLast? :=
  (visible_getLast?_fieldColumns separators fields (by decide)).getLast?_append _

end Columns

/-- A date and time that can be read from its columns. The second may be the sixtieth. -/
def DateTime.IsReadable (t : DateTime) : Prop :=
  t.date.isValid = true ∧ t.hour ≤ 23 ∧ t.minute ≤ 59 ∧ t.second ≤ 60

theorem DateTime.eq_of_fields {t u : DateTime} (hyear : t.date.year = u.date.year)
    (hfields : t.fields = u.fields) :
    t = u := by
  obtain ⟨⟨year, month, day⟩, hour, minute, second⟩ := t
  obtain ⟨⟨year', month', day'⟩, hour', minute', second'⟩ := u
  simp only [fields, List.cons.injEq, and_true] at hyear hfields
  obtain ⟨rfl, rfl, rfl, rfl, rfl⟩ := hfields
  rw [show year = year' from hyear]

theorem monthLength_le (year : Int) (month : Nat) : monthLength year month ≤ 31 := by
  unfold monthLength
  split
  · split <;> decide
  all_goals decide

/-- What is read from columns is what they were written from, if it is a date and time at all. -/
theorem readDateTime_columns {t u : DateTime} {year : Nat} (hyear : t.date.year = year)
    (hcolumns : year < 10000) (hfields : ∀ n ∈ t.fields, n < 100) {rest cs : List Char} :
    readDateTime (columns year t.fields ++ rest) = some (u, cs) ↔
      t.IsReadable ∧ t = u ∧ rest = cs := by
  obtain ⟨⟨_, month, day⟩, hour, minute, second⟩ := t
  obtain rfl := hyear
  simp only [DateTime.fields, List.forall_mem_cons] at hfields
  obtain ⟨hmonth, hday, hhour, hminute, hsecond, -⟩ := hfields
  simp only [columns, DateTime.fields, separators, fieldColumns, List.append_assoc,
    List.cons_append, List.append_nil, readDateTime, Option.bind_eq_bind, Option.bind_eq_some_iff,
    Prod.exists, Option.some.injEq, Prod.mk.injEq, and_assoc, exists_and_left, exists_eq_left',
    readYear_padded hcolumns, readChar_self, readField_space, readField_padded_eq_some hmonth,
    readField_padded_eq_some hday, readField_padded_eq_some hhour,
    readField_padded_eq_some hminute, readField_padded_eq_some hsecond,
    Option.ite_none_right_eq_some]
  constructor
  · rintro ⟨-, -, -, -, -, hhour', -, hminute', -, hsecond', hdate, heq⟩
    exact ⟨⟨hdate, hhour', hminute', hsecond'⟩, heq⟩
  · rintro ⟨⟨hdate, hhour', hminute', hsecond'⟩, heq⟩
    obtain ⟨-, -, hcivil⟩ := Date.isValid_iff.1 hdate
    exact ⟨hcivil.month_pos, hcivil.month_le, hcivil.day_pos,
      Nat.le_trans hcivil.day_le (monthLength_le _ _), Nat.zero_le _, hhour', Nat.zero_le _,
      hminute', Nat.zero_le _, hsecond', hdate, heq⟩

/-! ### Offsets -/

/-- An offset from UTC of less than a day, whose minutes have two digits as its hours have. -/
structure Offset where
  east : Bool
  hours : Nat
  minutes : Nat
  minutes_lt : minutes < 100
  lt_day : hours * 60 + minutes < 24 * 60

namespace Offset

/-- The offset in seconds. -/
def seconds (z : Offset) : Int :=
  (if z.east then 1 else -1) * (z.hours * 3600 + z.minutes * 60 : Nat)

/-- An offset in its columns, with or without a colon: `+hh:mm` or `-hhmm`. -/
def columns (z : Offset) (colon : Bool) : List Char :=
  (if z.east then '+' else '-') ::
    (padded 2 z.hours ++ ((if colon then [':'] else []) ++ padded 2 z.minutes))

def text (z : Offset) (colon : Bool) : String := String.ofList (z.columns colon)

theorem hours_lt (z : Offset) : z.hours < 24 := by
  have hday := z.lt_day
  omega

theorem seconds_bounds (z : Offset) : -86400 < z.seconds ∧ z.seconds < 86400 := by
  have hday := z.lt_day
  rw [seconds]
  split <;> omega

theorem visible_head?_columns (z : Offset) (colon : Bool) : Visible (z.columns colon).head? := by
  rw [columns]
  cases z.east <;> exact ⟨_, rfl, by decide⟩

theorem visible_getLast?_columns (z : Offset) (colon : Bool) :
    Visible (z.columns colon).getLast? := by
  have hminutes := visible_getLast?_padded 1 z.minutes
  have hpair := hminutes.getLast?_append (if colon then [':'] else [])
  exact (hpair.getLast?_append (padded 2 z.hours)).getLast?_append [_]

end Offset

theorem readPair_padded {n : Nat} (h : n < 100) (rest : List Char) :
    readPair (padded 2 n ++ rest) = some (n, rest) := by
  obtain ⟨a, b, hpair⟩ : ∃ a b, padded 2 n = [a, b] := ⟨_, _, rfl⟩
  have ha : a.isDigit = true := isDigit_of_mem_padded (hpair ▸ List.mem_cons_self ..)
  have hb : b.isDigit = true :=
    isDigit_of_mem_padded (hpair ▸ List.mem_cons_of_mem a (List.mem_cons_self ..))
  have hvalue : digitsValue [a, b] = n := hpair ▸ digitsValue_padded h
  rw [hpair, List.cons_append, List.cons_append, List.nil_append, readPair, ha, hb, hvalue]
  rfl

/-- An offset with minutes of a clock is read back, one with more minutes is refused. -/
theorem readOffset_columns (z : Offset) (colon : Bool) :
    readOffset (' ' :: z.columns colon) =
      if z.minutes < 60 then some (z.seconds, []) else none := by
  have hsign : readSign (trimStart (' ' :: z.columns colon)) =
      some (if z.east then 1 else -1,
        padded 2 z.hours ++ ((if colon then [':'] else []) ++ padded 2 z.minutes)) := by
    rw [← List.singleton_append, trimStart,
      List.dropWhile_append_of_pos (List.forall_mem_singleton.2 rfl)]
    rw [Offset.columns]
    cases z.east <;> rfl
  have hskip : ((if colon then [':'] else []) ++ padded 2 z.minutes).dropWhile
      (fun c => decide (c = ':') || isBlank c) = padded 2 z.minutes := by
    have hcolon : ∀ c ∈ if colon then [':'] else [], (decide (c = ':') || isBlank c) = true := by
      cases colon <;> simp
    rw [List.dropWhile_append_of_pos hcolon, ← List.append_nil (padded 2 z.minutes)]
    refine dropWhile_padded (by decide) fun c hc => ?_
    rw [isBlank_of_isDigit hc, Bool.or_false]
    exact decide_eq_false fun heq => by rw [heq] at hc; cases hc
  have hhours := z.hours_lt
  rw [readOffset, hsign]
  simp only [Option.bind_eq_bind, Option.bind_some]
  rw [readPair_padded (by omega)]
  simp only [Option.bind_some]
  rw [hskip, ← List.append_nil (padded 2 z.minutes), readPair_padded z.minutes_lt]
  simp only [Option.bind_some, hhours, and_true]
  rfl

/-! ### Instants near the epoch -/

/-- An instant within some thirty thousand years of the epoch. -/
def IsNear (millis : Int) : Prop := -10 ^ 15 ≤ millis ∧ millis ≤ 10 ^ 15

theorem IsNear.toInt_ofInt {millis : Int} (h : IsNear millis) :
    (Int64.ofInt millis).toInt = millis := by
  obtain ⟨hlow, hhigh⟩ := h
  have hmin : Int64.minValue.toInt = -9223372036854775808 := by decide
  have hmax : Int64.maxValue.toInt = 9223372036854775807 := by decide
  exact Int64.toInt_ofInt_of_le (by omega) (by omega)

/-- The dates of instants near the epoch are supported. -/
theorem IsNear.supported {millis : Int} (h : IsNear millis) :
    minYear ≤ (Date.ofDays (millis / millisPerDay)).year ∧
      (Date.ofDays (millis / millisPerDay)).year ≤ maxYear := by
  obtain ⟨hlow, hhigh⟩ := h
  have hfirst : daysBeforeYear minYear = -95746130 := by decide
  have hlast : daysBeforeYear (maxYear + 1) = 95745399 := by decide
  rw [supported_iff, hfirst, hlast]
  simp only [epochOffset, millisPerDay, millisPerHour, millisPerMinute, millisPerSecond]
  omega

theorem IsNear.ofMillis? {millis : Int} (h : IsNear millis) :
    Date.ofMillis? millis = some (Date.ofDays (millis / millisPerDay)) := if_pos h.supported

theorem IsNear.inRange {millis : Int} (h : IsNear millis) (g : Granularity) :
    g.InRange millis := by
  unfold Granularity.InRange
  cases g.fixedWidth with
  | some _ =>
      -- No bucket starts before the year of the instant.
      have hyear := Granularity.minValue_le_firstDay (g := .years) h.supported.1
      have hrank : g.rank ≤ Granularity.years.rank := by cases g <;> decide
      exact Int.le_trans hyear (Granularity.floor_anti hrank millis)
  | none => exact h.supported

/-! ### Canonical texts -/

/-- A date and time with a year of four digits. -/
structure DateTime.IsCanonical (t : DateTime) : Prop extends t.IsCivil where
  year_nonneg : 0 ≤ t.date.year
  year_lt : t.date.year < 10000

instance (t : DateTime) : Decidable t.IsCanonical :=
  decidable_of_iff (t.IsCivil ∧ 0 ≤ t.date.year ∧ t.date.year < 10000)
    ⟨fun ⟨hcivil, hyear, hyear'⟩ => ⟨hcivil, hyear, hyear'⟩,
      fun h => ⟨h.toIsCivil, h.year_nonneg, h.year_lt⟩⟩

namespace DateTime

variable {t u : DateTime}

/-- The text of a date and time, such as `2017-06-01 04:05:00`. -/
def text (t : DateTime) : String := String.ofList (columns t.date.year.toNat t.fields)

theorem IsCivil.fields_lt (h : t.IsCivil) : ∀ n ∈ t.fields, n < 100 := by
  have hmonth := h.date.month_le
  have hday := Nat.le_trans h.date.day_le (monthLength_le _ _)
  have hhour := h.hour_lt
  have hminute := h.minute_lt
  have hsecond := h.second_lt
  simp only [fields, List.forall_mem_cons]
  refine ⟨?_, ?_, ?_, ?_, ?_, List.forall_mem_nil _⟩ <;> omega

theorem IsCanonical.isReadable (h : t.IsCanonical) : t.IsReadable := by
  have hyear := h.year_nonneg
  have hyear' := h.year_lt
  refine ⟨Date.isValid_iff.2 ⟨?_, ?_, h.date⟩, Nat.le_of_lt_succ h.hour_lt,
    Nat.le_of_lt_succ h.minute_lt, Nat.le_of_lt h.second_lt⟩
  · rw [minYear]
    omega
  · rw [maxYear]
    omega

theorem IsCanonical.readDateTime_columns (h : t.IsCanonical) (rest : List Char) :
    readDateTime (columns t.date.year.toNat t.fields ++ rest) = some (t, rest) := by
  have hyear := h.year_nonneg
  have hyear' := h.year_lt
  exact (Time.readDateTime_columns (by omega) (by omega) h.fields_lt).2 ⟨h.isReadable, rfl, rfl⟩

theorem IsCanonical.toMillis_bounds (h : t.IsCanonical) :
    -62167219200000 ≤ t.toMillis ∧ t.toMillis < 253402300800000 := by
  have hlow := h.date.encloses.year_low
  have hhigh := h.date.encloses.year_high
  have hfirst := daysBeforeYear_mono h.year_nonneg
  have hlast := daysBeforeYear_mono (show t.date.year + 1 ≤ 10000 from h.year_lt)
  have hhour := h.hour_lt
  have hminute := h.minute_lt
  have hsecond := h.second_lt
  rw [show daysBeforeYear 0 = -366 from rfl] at hfirst
  rw [show daysBeforeYear 10000 = 3652059 from rfl] at hlast
  simp only [toMillis, Date.toMillis, epochOffset, millisPerDay, millisPerHour, millisPerMinute,
    millisPerSecond] at *
  omega

theorem IsCanonical.isNear (h : t.IsCanonical) : IsNear t.toMillis := by
  have hbounds := h.toMillis_bounds
  exact ⟨by omega, by omega⟩

theorem IsCanonical.isNear_sub (h : t.IsCanonical) (z : Offset) :
    IsNear (t.toMillis - z.seconds * millisPerSecond) := by
  have hbounds := h.toMillis_bounds
  have hoffset := z.seconds_bounds
  rw [millisPerSecond]
  exact ⟨by omega, by omega⟩

theorem IsCanonical.truncate (h : t.IsCanonical) (g : Granularity) :
    (t.truncate g).IsCanonical where
  toIsCivil := isCivil_truncate h.toIsCivil g
  year_nonneg := by cases g <;> exact h.year_nonneg
  year_lt := by cases g <;> exact h.year_lt

theorem IsCanonical.parseTimestamp_text (h : t.IsCanonical) :
    parseTimestamp t.text = .ok (.ofInt t.toMillis) := by
  have hread := h.readDateTime_columns []
  have hlength := (isNarrow_columns t.date.year.toNat t.fields).byteLength_append []
  rw [List.append_nil] at hread hlength
  rw [length_columns, byteLength, Nat.add_zero] at hlength
  have htrim : trim (columns t.date.year.toNat t.fields) = columns t.date.year.toNat t.fields :=
    trim_eq_self (List.append_nil (columns _ _) ▸ visible_head?_columns)
      (visible_getLast?_columns _ _)
  have htimestamp : readTimestamp (columns t.date.year.toNat t.fields) = some t.toMillis := by
    rw [readTimestamp, hread]
    simp only [Option.bind_eq_bind, Option.bind_some]
    rw [if_pos hlength]
    rfl
  simp only [parseTimestamp, text, String.toList_ofList, htrim, htimestamp]

/-- An offset behind a text is taken off the instant that the text names, if its minutes are those
of a clock. -/
theorem IsCanonical.parseTimestamp_offset (h : t.IsCanonical) (z : Offset) (colon : Bool) :
    parseTimestamp (t.text ++ " " ++ z.text colon) =
      if z.minutes < 60 then .ok (.ofInt (t.toMillis - z.seconds * millisPerSecond))
      else .error (.invalidTimestamp (t.text ++ " " ++ z.text colon)) := by
  generalize hcs : columns t.date.year.toNat t.fields ++ ' ' :: z.columns colon = cs
  have hlist : (t.text ++ " " ++ z.text colon).toList = cs := by
    rw [← hcs, String.toList_append, String.toList_append, text, String.toList_ofList,
      String.toList_ofList, Offset.text, String.toList_ofList, List.append_assoc,
      List.singleton_append]
  have htrim : trim cs = cs := by
    rw [← hcs]
    exact trim_eq_self visible_head?_columns
      (((z.visible_getLast?_columns colon).getLast?_append [' ']).getLast?_append _)
  have hlength : byteLength cs ≠ dateTimeLength := by
    rw [← hcs, (isNarrow_columns _ _).byteLength_append, length_columns, byteLength]
    have hspace : ' '.utf8Size = 1 := rfl
    omega
  have hat : t.toMillisAt? z.seconds = some (t.toMillis - z.seconds * millisPerSecond) := by
    have hnear : IsNear ((t.truncate .minutes).toMillis - z.seconds * millisPerSecond) :=
      (h.truncate .minutes).isNear_sub z
    exact congrArg (Option.map _) hnear.ofMillis?
  have htimestamp : readTimestamp cs =
      if z.minutes < 60 then some (t.toMillis - z.seconds * millisPerSecond) else none := by
    rw [readTimestamp, ← hcs, h.readDateTime_columns]
    simp only [Option.bind_eq_bind, Option.bind_some]
    rw [hcs, if_neg hlength, readOffset_columns]
    split
    · exact hat
    · rfl
  have htext : String.ofList cs = t.text ++ " " ++ z.text colon := by
    rw [← hlist, String.ofList_toList]
  simp only [parseTimestamp, hlist, htrim, htimestamp, htext]
  by_cases hz : z.minutes < 60
  · rw [if_pos hz, if_pos hz]
  · rw [if_neg hz, if_neg hz]

/-- Parsing and truncation follow one calendar: a canonical text is parsed; the start of every
bucket is parsed from the text with the finer fields reset; texts in civil order are parsed to
instants in the order of time; an offset behind a text is taken off its instant; and an offset whose
minutes are not those of a clock is refused. -/
theorem IsCanonical.parseTimestamp_follows (h : t.IsCanonical) :
    ∃ ts, parseTimestamp t.text = .ok ts ∧
      (∀ g : Granularity, ∃ s, g.startTime ts = .ok s ∧
        parseTimestamp (t.truncate g).text = .ok s) ∧
      (∀ u : DateTime, u.IsCanonical → t.Before u →
        ∃ ts', parseTimestamp u.text = .ok ts' ∧ ts < ts') ∧
      (∀ (z : Offset) (colon : Bool), z.minutes < 60 →
        ∃ ts', parseTimestamp (t.text ++ " " ++ z.text colon) = .ok ts' ∧
          ts'.toInt = ts.toInt - z.seconds * millisPerSecond) ∧
      ∀ (z : Offset) (colon : Bool), 60 ≤ z.minutes →
        parseTimestamp (t.text ++ " " ++ z.text colon) =
          .error (.invalidTimestamp (t.text ++ " " ++ z.text colon)) := by
  have hts := h.isNear.toInt_ofInt
  refine ⟨.ofInt t.toMillis, h.parseTimestamp_text, fun g => ?_, fun u hu hbefore => ?_,
    fun z colon hz => ?_, fun z colon hz => ?_⟩
  · have hstart := (h.truncate g).isNear.toInt_ofInt
    refine ⟨.ofInt (t.truncate g).toMillis, Granularity.startTime_eq_ok.2 ?_,
      (h.truncate g).parseTimestamp_text⟩
    rw [hts, hstart, h.toMillis_truncate]
    exact ⟨h.isNear.inRange g, rfl⟩
  · refine ⟨.ofInt u.toMillis, hu.parseTimestamp_text, ?_⟩
    rw [Int64.lt_iff_toInt_lt, hts, hu.isNear.toInt_ofInt]
    exact h.toMillis_lt hu.toIsCivil hbefore
  · refine ⟨_, (h.parseTimestamp_offset z colon).trans (if_pos hz), ?_⟩
    rw [hts, (h.isNear_sub z).toInt_ofInt]
  · rw [h.parseTimestamp_offset z colon, if_neg (Nat.not_lt.2 hz)]

/-- A leap day before 1970 is parsed, its month starts where its text with the day and the time
reset is parsed, it lies before the next day, and it can be written in the local time of an
offset, though not of one with 75 minutes. -/
theorem parseTimestamp_follows_leap_day :
    (⟨⟨1968, 2, 29⟩, 8, 30, 15⟩ : DateTime).IsCanonical ∧
      parseTimestamp "1968-02-29 08:30:15" = .ok (-58030185000) ∧
      (∃ s, Granularity.months.startTime (-58030185000) = .ok s ∧
        parseTimestamp "1968-02-01 00:00:00" = .ok s) ∧
      (∃ ts, parseTimestamp "1968-03-01 00:00:00" = .ok ts ∧ -58030185000 < ts) ∧
      (∃ ts, parseTimestamp ("1968-02-29 08:30:15" ++ " " ++ "+05:30") = .ok ts ∧
        ts.toInt = -58030185000 - 19800 * 1000) ∧
      parseTimestamp ("1968-02-29 08:30:15" ++ " " ++ "+05:75") =
        .error (.invalidTimestamp "1968-02-29 08:30:15 +05:75") := by
  have hday : (⟨⟨1968, 2, 29⟩, 8, 30, 15⟩ : DateTime).IsCanonical := by decide
  have hnext : (⟨⟨1968, 3, 1⟩, 0, 0, 0⟩ : DateTime).IsCanonical := by decide
  have htext : (⟨⟨1968, 2, 29⟩, 8, 30, 15⟩ : DateTime).text = "1968-02-29 08:30:15" := by decide
  have hreset : ((⟨⟨1968, 2, 29⟩, 8, 30, 15⟩ : DateTime).truncate .months).text =
      "1968-02-01 00:00:00" := by decide
  have hlater : (⟨⟨1968, 3, 1⟩, 0, 0, 0⟩ : DateTime).text = "1968-03-01 00:00:00" := by decide
  obtain ⟨ts, hparse, hstart, horder, hoffset, hrefused⟩ := hday.parseTimestamp_follows
  have hmonth := hstart .months
  have hbefore := horder _ hnext (.inr ⟨rfl, by decide⟩)
  have hlocal := hoffset ⟨true, 5, 30, by decide, by decide⟩ true (by decide)
  have hminutes := hrefused ⟨true, 5, 75, by decide, by decide⟩ true (by decide)
  rw [htext] at hparse hlocal hminutes
  rw [hreset] at hmonth
  rw [hlater] at hbefore
  have hts : parseTimestamp "1968-02-29 08:30:15" = .ok (-58030185000) := by
    rw [← htext, hday.parseTimestamp_text]
    exact congrArg Except.ok (by decide)
  obtain rfl : ts = -58030185000 := Except.ok.inj (hparse.symm.trans hts)
  exact ⟨hday, hparse, hmonth, hbefore, hlocal, hminutes⟩

end DateTime

end Time

end EventQuery
