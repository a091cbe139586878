import EventQuery.Number.Decimal
import EventQuery.Proofs.Number.Format

/-!
Decimal text tells numbers apart. The search for the shortest decimal comes to one that reads back,
as seventeen digits after the leading one leave an error that rounding removes. A positional text
determines the ratio that its decimal stands for, and the ratio determines the number.
-/

namespace EventQuery.Number

theorem pow10_eq (n : Nat) : pow10 n = 10 ^ n := rfl

/-! ### Decimals that read back -/

theorem lt_pow_digitCount (n : Nat) : n < 10 ^ digitCount n :=
  (Nat.length_toDigits_le_iff (by decide) Nat.length_toDigits_pos).1 le_rfl

theorem pow_digitCount_le {n : Nat} (h : 0 < n) : 10 ^ (digitCount n - 1) ≤ n := by
  rcases Nat.eq_zero_or_pos (digitCount n - 1) with hone | hpos
  · rw [hone]
    exact h
  · refine Nat.le_of_not_lt fun hlt => ?_
    have hle : digitCount n ≤ digitCount n - 1 :=
      (Nat.length_toDigits_le_iff (by decide) hpos).2 hlt
    omega

/-- The leading exponent does not exceed the ratio. -/
theorem pow_leadingExponent_le {num : Nat} (hnum : 0 < num) (den : Nat) :
    den * 10 ^ (leadingExponent num den).toNat ≤ num * 10 ^ (-leadingExponent num den).toNat := by
  have hpos : 0 < digitCount num := Nat.length_toDigits_pos
  unfold leadingExponent
  dsimp only
  generalize hguess : (digitCount num : Int) - digitCount den = guess
  by_cases hlt : num * pow10 (-guess).toNat < den * pow10 guess.toNat
  · -- One less than the difference of the numbers of digits is always enough.
    rw [if_pos hlt]
    have hpower : digitCount den + (guess - 1).toNat =
        digitCount num - 1 + (-(guess - 1)).toNat := by omega
    calc den * 10 ^ (guess - 1).toNat
        ≤ 10 ^ digitCount den * 10 ^ (guess - 1).toNat :=
          Nat.mul_le_mul_right _ (lt_pow_digitCount den).le
      _ = 10 ^ (digitCount num - 1) * 10 ^ (-(guess - 1)).toNat := by
        rw [← Nat.pow_add, hpower, Nat.pow_add]
      _ ≤ _ := Nat.mul_le_mul_right _ (pow_digitCount_le hnum)
  · rw [if_neg hlt]
    exact Nat.not_lt.1 hlt

namespace Format

variable {f : Format} {m num den : Nat} {exponent : Int} {d : Decimal}

theorem readDecimal_of_readBackAt (h : f.readBackAt m num den exponent = some d) :
    f.readDecimal d = m := by
  unfold readBackAt at h
  dsimp only at h
  split at h
  · rename_i hlow
    obtain rfl := Option.some.inj h
    exact hlow.1
  split at h
  · rename_i hhigh
    obtain rfl := Option.some.inj h
    exact hhigh
  · cases h

/-- A grid whose lower neighbour reads back is not passed over. -/
theorem exists_readBackAt
    (h : f.readDecimal ⟨num * pow10 (-exponent).toNat / (den * pow10 exponent.toNat), exponent⟩ =
      m) :
    ∃ d, f.readBackAt m num den exponent = some d := by
  unfold readBackAt
  dsimp only
  split
  · exact ⟨_, rfl⟩
  · rename_i hlow
    rw [if_pos (by_contra fun hhigh => hlow ⟨h, .inl hhigh⟩)]
    exact ⟨_, rfl⟩

theorem readDecimal_shortestFrom {grids k : Nat} (hk : k < grids)
    (h : ∃ d, f.readBackAt m num den (exponent - k) = some d) :
    f.readDecimal (f.shortestFrom m num den exponent grids) = m := by
  induction grids generalizing exponent k with
  | zero => omega
  | succ grids ih =>
      unfold shortestFrom
      split
      · exact readDecimal_of_readBackAt ‹_›
      · rename_i hnone
        cases k with
        | zero =>
            rw [Int.natCast_zero, Int.sub_zero, hnone] at h
            simp at h
        | succ k =>
            refine ih (k := k) (by omega) ?_
            rwa [show exponent - 1 - (k : Int) = exponent - (k + 1 : Nat) by omega]

/-- On the last grid that is tried, the lower neighbour of a magnitude reads back. -/
theorem readDecimal_below (hdigits : 2 ^ (f.fractionBits + 2) ≤ 10 ^ 17) (hm : m < f.infinity)
    (hunits : 0 < f.units m)
    (hexponent : exponent = leadingExponent (f.units m) (pow2 f.unitShift) - 17) :
    f.readDecimal ⟨f.units m * pow10 (-exponent).toNat / (pow2 f.unitShift * pow10 exponent.toNat),
      exponent⟩ = m := by
  have hlead := pow_leadingExponent_le hunits (pow2 f.unitShift)
  generalize leadingExponent (f.units m) (pow2 f.unitShift) = lead at hlead hexponent
  simp only [readDecimal, Decimal.ratio, pow10_eq, pow2_eq] at hlead ⊢
  have hscale : 0 < 10 ^ (-exponent).toNat := Nat.pow_pos (by decide)
  have hstepPos : 0 < 10 ^ exponent.toNat := Nat.pow_pos (by decide)
  -- A step of the grid is less than the magnitude by seventeen digits.
  have hstep : 2 ^ f.unitShift * 10 ^ exponent.toNat * 10 ^ 17 ≤
      f.units m * 10 ^ (-exponent).toNat := by
    have hpower : exponent.toNat + 17 + (-lead).toNat = lead.toNat + (-exponent).toNat := by omega
    refine Nat.le_of_mul_le_mul_right ?_ (Nat.pow_pos (n := (-lead).toNat) (by decide : 0 < 10))
    calc 2 ^ f.unitShift * 10 ^ exponent.toNat * 10 ^ 17 * 10 ^ (-lead).toNat
        = 2 ^ f.unitShift * 10 ^ (exponent.toNat + 17 + (-lead).toNat) := by ring
      _ = 2 ^ f.unitShift * 10 ^ lead.toNat * 10 ^ (-exponent).toNat := by rw [hpower]; ring
      _ ≤ f.units m * 10 ^ (-lead).toNat * 10 ^ (-exponent).toNat := Nat.mul_le_mul_right _ hlead
      _ = _ := by ring
  generalize 10 ^ (-exponent).toNat = scale, 10 ^ exponent.toNat = step at hstep hscale hstepPos ⊢
  have hgrid : 0 < 2 ^ f.unitShift * step := Nat.mul_pos (Nat.two_pow_pos _) hstepPos
  refine nearest_of_close (f.units m * scale % (2 ^ f.unitShift * step)) hm hscale ?_ ?_
  · rw [Nat.mul_assoc, Nat.mul_comm step]
    exact Nat.div_add_mod' _ _
  · calc f.units m * scale % (2 ^ f.unitShift * step) * 2 ^ (f.fractionBits + 2)
        ≤ f.units m * scale % (2 ^ f.unitShift * step) * 10 ^ 17 := Nat.mul_le_mul_left _ hdigits
      _ < 2 ^ f.unitShift * step * 10 ^ 17 :=
          Nat.mul_lt_mul_of_pos_right (Nat.mod_lt _ hgrid) (by decide)
      _ ≤ _ := hstep

/-- The shortest decimal of a magnitude above zero reads back. -/
theorem readDecimal_shortest (hdigits : 2 ^ (f.fractionBits + 2) ≤ 10 ^ 17) (hm : m < f.infinity)
    (hpos : 0 < m) : f.readDecimal (f.shortest m) = m :=
  readDecimal_shortestFrom (k := 17) (by decide)
    (exists_readBackAt (readDecimal_below hdigits hm
      (Nat.pos_of_ne_zero fun hzero => Nat.ne_of_gt hpos (eq_zero_of_units hzero)) rfl))

end Format

/-! ### Positional text -/

/-- The ratio that a positional text stands for. -/
def readRatio (cs : List Char) : Nat × Nat :=
  let whole := cs.takeWhile (· != '.')
  let fraction := (cs.dropWhile (· != '.')).tail
  (Nat.ofDigitChars 10 (whole ++ fraction) 0, 10 ^ fraction.length)

/-- Digits with a point in front of the fraction, where there is one. -/
def positional (whole fraction : List Char) : List Char :=
  if fraction.isEmpty then whole else whole ++ '.' :: fraction

theorem readRatio_positional {whole fraction : List Char} (h : '.' ∉ whole) :
    readRatio (positional whole fraction) =
      (Nat.ofDigitChars 10 (whole ++ fraction) 0, 10 ^ fraction.length) := by
  have hwhole : ∀ c ∈ whole, (c != '.') = true := fun c hc =>
    bne_iff_ne.2 fun heq => h (heq ▸ hc)
  have htake (rest : List Char) :
      (whole ++ rest).takeWhile (· != '.') = whole ++ rest.takeWhile (· != '.') :=
    List.takeWhile_append_of_pos hwhole
  have hdrop (rest : List Char) :
      (whole ++ rest).dropWhile (· != '.') = rest.dropWhile (· != '.') :=
    List.dropWhile_append_of_pos hwhole
  unfold readRatio positional
  cases fraction with
  | nil =>
      have htake := htake []
      have hdrop := hdrop []
      rw [List.append_nil, List.takeWhile_nil, List.append_nil] at htake
      rw [List.append_nil, List.dropWhile_nil] at hdrop
      simp [htake, hdrop]
  | cons c cs => simp [htake, hdrop]

theorem mem_positional {whole fraction : List Char} {c : Char}
    (h : c ∈ positional whole fraction) : c ∈ whole ++ fraction ∨ c = '.' := by
  unfold positional at h
  split at h
  · exact .inl (List.mem_append_left _ h)
  · simp only [List.mem_append, List.mem_cons] at h ⊢
    tauto

theorem exists_stripZeros (fuel : Nat) (cs : List Char) :
    ∃ k, cs = stripZeros fuel cs ++ List.replicate k '0' := by
  induction fuel generalizing cs with
  | zero => exact ⟨0, by simp [stripZeros]⟩
  | succ fuel ih =>
      unfold stripZeros
      split
      · rename_i hlast
        obtain ⟨init, rfl⟩ := List.getLast?_eq_some_iff.1 hlast
        obtain ⟨k, hk⟩ := ih init
        refine ⟨k + 1, ?_⟩
        rw [List.dropLast_concat, List.replicate_succ', ← List.append_assoc, ← hk]
      · exact ⟨0, by simp⟩

theorem isDigit_of_mem_zeros {c : Char} {k : Nat} (h : c ∈ List.replicate k '0') :
    c.isDigit = true := by
  rw [List.eq_of_mem_replicate h]
  rfl

namespace Decimal

theorem isDigit_of_mem_digits {d : Decimal} {c : Char} (h : c ∈ Nat.toDigits 10 d.digits) :
    c.isDigit = true :=
  Nat.isDigit_of_mem_toDigits (by decide) (by decide) h

/-- The text of a decimal is positional, and stands for the ratio of the decimal. -/
theorem exists_positional (d : Decimal) : ∃ whole fraction,
    d.text.toList = positional whole fraction ∧ (∀ c ∈ whole ++ fraction, c.isDigit = true) ∧
      Nat.ofDigitChars 10 (whole ++ fraction) 0 * d.ratio.2 = d.ratio.1 * 10 ^ fraction.length := by
  by_cases hexponent : 0 ≤ d.exponent
  · refine ⟨Nat.toDigits 10 d.digits ++ List.replicate d.exponent.toNat '0', [], ?_, ?_, ?_⟩
    · rw [text]
      dsimp only
      rw [if_pos hexponent, String.toList_ofList]
      rfl
    · intro c hc
      rw [List.append_nil] at hc
      exact (List.mem_append.1 hc).elim isDigit_of_mem_digits isDigit_of_mem_zeros
    · have hplaces : (-d.exponent).toNat = 0 := by omega
      rw [List.append_nil, Nat.ofDigitChars_append, Nat.ofDigitChars_ten_toDigits,
        Nat.ofDigitChars_replicate_zero, ratio, hplaces, pow10_eq, pow10_eq]
      simp [Nat.mul_comm]
  · -- The fraction has as many digits as the exponent says, up to zeros at its end.
    generalize hplaces : (-d.exponent).toNat = places
    generalize hpadded : List.replicate (places + 1 - (Nat.toDigits 10 d.digits).length) '0' ++
      Nat.toDigits 10 d.digits = padded
    obtain ⟨k, hk⟩ := exists_stripZeros (padded.drop (padded.length - places)).length
      (padded.drop (padded.length - places))
    generalize hfraction : stripZeros (padded.drop (padded.length - places)).length
      (padded.drop (padded.length - places)) = fraction at hk
    have hsplit : padded = padded.take (padded.length - places) ++ fraction ++
        List.replicate k '0' := by
      rw [List.append_assoc, ← hk, List.take_append_drop]
    have hlength : fraction.length + k = places := by
      have hdrop := congrArg List.length hk
      have hlong : places ≤ padded.length := by
        rw [← hpadded, List.length_append, List.length_replicate]
        omega
      rw [List.length_append, List.length_replicate, List.length_drop] at hdrop
      omega
    have hdigits : ∀ c ∈ padded, c.isDigit = true := fun c hc =>
      (List.mem_append.1 (hpadded ▸ hc)).elim isDigit_of_mem_zeros isDigit_of_mem_digits
    have hvalue : Nat.ofDigitChars 10 (padded.take (padded.length - places) ++ fraction) 0 *
        10 ^ k = d.digits := by
      rw [Nat.mul_comm, ← Nat.ofDigitChars_replicate_zero, ← Nat.ofDigitChars_append, ← hsplit,
        ← hpadded, Nat.ofDigitChars_append, Nat.ofDigitChars_replicate_zero, Nat.mul_zero,
        Nat.ofDigitChars_ten_toDigits]
    refine ⟨padded.take (padded.length - places), fraction, ?_, fun c hc => hdigits c ?_, ?_⟩
    · rw [text]
      dsimp only
      rw [if_neg hexponent, hplaces, hpadded, hfraction, positional]
      split <;> rw [String.toList_ofList]
    · rw [hsplit]
      exact List.mem_append_left _ hc
    · have hwhole : d.exponent.toNat = 0 := by omega
      rw [ratio, hwhole, hplaces, ← hvalue]
      simp only [pow10_eq]
      rw [← hlength, Nat.pow_add, Nat.pow_zero]
      ring

theorem point_notMem {whole fraction : List Char} (h : ∀ c ∈ whole ++ fraction, c.isDigit = true) :
    '.' ∉ whole := fun hpoint => by
  have hdigit := h '.' (List.mem_append_left _ hpoint)
  simp at hdigit

/-- A decimal is read back from its text. -/
theorem readRatio_text (d : Decimal) :
    (readRatio d.text.toList).1 * d.ratio.2 = d.ratio.1 * (readRatio d.text.toList).2 := by
  obtain ⟨whole, fraction, htext, hdigits, hratio⟩ := d.exists_positional
  rw [htext, readRatio_positional (point_notMem hdigits)]
  exact hratio

theorem mem_text {d : Decimal} {c : Char} (h : c ∈ d.text.toList) :
    c.isDigit = true ∨ c = '.' := by
  obtain ⟨whole, fraction, htext, hdigits, -⟩ := d.exists_positional
  rw [htext] at h
  exact (mem_positional h).imp_left (hdigits c)

theorem text_ne_inf (d : Decimal) : d.text.toList ≠ "inf".toList := fun h => by
  have hmem : 'i' ∈ d.text.toList := by
    rw [h]
    decide
  have hchar := mem_text hmem
  simp at hchar

end Decimal

/-! ### Words -/

/-- The characters of the texts of numbers. -/
def Numeral (c : Char) : Prop := c.isDigit = true ∨ c ∈ ['.', '-', 'i', 'n', 'f', 'N', 'a']

namespace Format

variable {f : Format} {m w w' : Nat}

/-- The text of a magnitude that is a number. -/
def magnitudeText (f : Format) (m : Nat) : String :=
  if m = f.infinity then "inf" else if f.units m = 0 then "0" else (f.shortest m).text

/-- The magnitude that a text stands for. -/
def readMagnitude (f : Format) (cs : List Char) : Nat :=
  if cs = "inf".toList then f.infinity
  else f.nearest ((readRatio cs).1 * pow2 f.unitShift) (readRatio cs).2

theorem readRatio_pos (cs : List Char) : 0 < (readRatio cs).2 := Nat.pow_pos (by decide)

/-- A decimal and its text stand for the same magnitude. -/
theorem nearest_readRatio (d : Decimal) :
    f.nearest ((readRatio d.text.toList).1 * pow2 f.unitShift) (readRatio d.text.toList).2 =
      f.readDecimal d := by
  have hden : 0 < d.ratio.2 := Nat.pow_pos (by decide)
  have hratio := d.readRatio_text
  rw [readDecimal]
  generalize d.ratio = ratio at hden hratio ⊢
  obtain ⟨num, den⟩ := ratio
  exact nearest_congr (readRatio_pos _) hden
    (by rw [Nat.mul_right_comm, hratio, Nat.mul_right_comm])

/-- A magnitude is read back from its text. -/
theorem readMagnitude_magnitudeText (hdigits : 2 ^ (f.fractionBits + 2) ≤ 10 ^ 17)
    (hm : m ≤ f.infinity) : f.readMagnitude (f.magnitudeText m).toList = m := by
  unfold magnitudeText
  split_ifs with hinfinite hzero
  · rw [readMagnitude, if_pos rfl, hinfinite]
  · rw [eq_zero_of_units hzero, readMagnitude, if_neg (by decide)]
    rw [show readRatio "0".toList = (0, 1) from rfl, Nat.zero_mul, nearest_zero]
  · have hlt : m < f.infinity := Nat.lt_of_le_of_ne hm hinfinite
    have hpos : 0 < m := Nat.pos_of_ne_zero fun h => hzero (by rw [h]; simp [units])
    rw [readMagnitude, if_neg (f.shortest m).text_ne_inf, nearest_readRatio,
      readDecimal_shortest hdigits hlt hpos]

theorem mem_magnitudeText {c : Char} (h : c ∈ (f.magnitudeText m).toList) :
    Numeral c ∧ c ≠ '-' ∧ c ≠ 'N' := by
  unfold magnitudeText at h
  split_ifs at h
  · have hword : c = 'i' ∨ c = 'n' ∨ c = 'f' := by simpa using h
    rcases hword with rfl | rfl | rfl <;> simp [Numeral]
  · have hword : c = '0' := by simpa using h
    subst hword
    simp [Numeral]
  · rcases Decimal.mem_text h with hdigit | rfl
    · refine ⟨.inl hdigit, ?_, ?_⟩ <;> rintro rfl <;> simp at hdigit
    · simp [Numeral]

/-- A word is shown as not a number, or by its sign and its magnitude. -/
theorem text_eq (f : Format) (w : Nat) :
    (f.decode w).isNaN = true ∧ f.text w = "NaN" ∨
      (f.decode w).isNaN = false ∧ w % f.signWeight ≤ f.infinity ∧
        f.text w =
          (if f.signWeight ≤ w then "-" else "") ++ f.magnitudeText (w % f.signWeight) := by
  unfold text decode magnitudeText
  dsimp only
  split_ifs <;> simp_all [Datum.isNaN]

theorem mem_text {c : Char} (h : c ∈ (f.text w).toList) : Numeral c := by
  rcases f.text_eq w with ⟨-, htext⟩ | ⟨-, -, htext⟩
  · rw [htext] at h
    have hword : c = 'N' ∨ c = 'a' ∨ c = 'N' := by simpa using h
    rcases hword with rfl | rfl | rfl <;> simp [Numeral]
  · rw [htext, String.toList_append, List.mem_append] at h
    rcases h with h | h
    · split at h <;> simp_all [Numeral]
    · exact (mem_magnitudeText h).1

/-- The sign in front of a magnitude can be told from it. -/
theorem signed_text_inj (negative negative' : Bool) {m' : Nat}
    (h : (if negative then "-" else "") ++ f.magnitudeText m =
      (if negative' then "-" else "") ++ f.magnitudeText m') :
    negative = negative' ∧ f.magnitudeText m = f.magnitudeText m' := by
  have hminus {n n' : Nat} (h : "-" ++ f.magnitudeText n = "" ++ f.magnitudeText n') : False := by
    have hmem : '-' ∈ (f.magnitudeText n').toList := by
      rw [String.empty_append] at h
      rw [← h, String.toList_append]
      exact List.mem_append_left _ (by decide)
    exact (mem_magnitudeText hmem).2.1 rfl
  cases negative <;> cases negative'
  · exact ⟨rfl, by simpa using h⟩
  · exact (hminus h.symm).elim
  · exact (hminus h).elim
  · refine ⟨rfl, String.toList_inj.1 ?_⟩
    simpa using congrArg String.toList h

/-- The text of a word tells it apart, unless it is not a number. -/
theorem text_inj (hdigits : 2 ^ (f.fractionBits + 2) ≤ 10 ^ 17) (hw : w < 2 * f.signWeight)
    (hw' : w' < 2 * f.signWeight) (h : f.text w = f.text w') :
    w = w' ∨ (f.decode w).isNaN = true ∧ (f.decode w').isNaN = true := by
  have hword {m : Nat} {sign : String} (hsign : sign = "-" ∨ sign = "")
      (h : sign ++ f.magnitudeText m = "NaN") : False := by
    have hmem : 'N' ∈ (sign ++ f.magnitudeText m).toList := by
      rw [h]
      decide
    rw [String.toList_append, List.mem_append] at hmem
    rcases hmem with hmem | hmem
    · rcases hsign with rfl | rfl <;> simp at hmem
    · exact (mem_magnitudeText hmem).2.2 rfl
  have hsign (w : Nat) : (if f.signWeight ≤ w then "-" else "") = "-" ∨
      (if f.signWeight ≤ w then "-" else "") = "" := by
    split <;> simp
  rcases f.text_eq w with ⟨hnan, htext⟩ | ⟨-, hm, htext⟩ <;>
    rcases f.text_eq w' with ⟨hnan', htext'⟩ | ⟨-, hm', htext'⟩ <;> rw [htext, htext'] at h
  · exact .inr ⟨hnan, hnan'⟩
  · exact (hword (hsign w') h.symm).elim
  · exact (hword (hsign w) h).elim
  · left
    obtain ⟨hnegative, hbody⟩ := signed_text_inj (decide (f.signWeight ≤ w))
      (decide (f.signWeight ≤ w')) (by simpa using h)
    have hmagnitude : w % f.signWeight = w' % f.signWeight := by
      rw [← readMagnitude_magnitudeText hdigits hm, hbody, readMagnitude_magnitudeText hdigits hm']
    rw [← pack_decide hw, ← pack_decide hw', hnegative, hmagnitude]

end Format

/-- Text tells doubles apart, except those that are not numbers. -/
theorem Double.text_inj {x y : Double} (h : x.text = y.text) :
    x = y ∨ x.datum.isNaN = true ∧ y.datum.isNaN = true :=
  (Format.text_inj (f := .double) (by decide) x.toNat_lt y.toNat_lt h).imp_left eq_of_toNat

/-- Text tells singles apart, except those that are not numbers. -/
theorem Single.text_inj {x y : Single} (h : x.text = y.text) :
    x = y ∨ x.datum.isNaN = true ∧ y.datum.isNaN = true :=
  (Format.text_inj (f := .single) (by decide) x.toNat_lt y.toNat_lt h).imp_left eq_of_toNat

end EventQuery.Number
