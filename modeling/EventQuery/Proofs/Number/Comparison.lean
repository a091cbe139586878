import EventQuery.Proofs.Number.Format
import EventQuery.Value.Order

/-!
Comparison of numbers with the operations of their machine types. Doubles are compared as numbers
where both are numbers, and by their words elsewhere. A 64-bit integer is compared with the whole
part of a double first and then by the sign of what the whole part leaves, so that the integer is
never rounded. `compareDoubles_eq` and `compareLongDouble_eq` say that both are comparisons of the
exact numbers, although the difference to the whole part is computed in doubles.
-/

namespace EventQuery.Number

open Value (compareRanks)

namespace Double

/-- The place of a word among all words: those with a sign descend from minus one. -/
def key (x : Double) : Int :=
  if x.word.toNat < 2 ^ 63 then x.word.toNat else 2 ^ 63 - 1 - x.word.toNat

/-- The total order of the words of doubles. -/
def totalOrder (x y : Double) : Ordering := compare x.key y.key

/-- The order of doubles as numbers. A not-a-number has no place in it, and the two zeros share
one. -/
def order? (x y : Double) : Option Ordering :=
  if x.datum.isNaN || y.datum.isNaN then none else some (compareRanks x.rank y.rank)

/-- The whole part of a double, as a double. -/
def trunc (x : Double) : Double :=
  match x.datum with
  | .finite negative units =>
    .ofNatWord (Format.double.ofUnits negative
      (signed negative (units / pow2 Format.double.unitShift * pow2 Format.double.unitShift)))
  | _ => x

end Double

/-- Compare doubles as numbers where both are numbers, and by their words elsewhere. -/
def compareDoubles (x y : Double) : Ordering := (x.order? y).getD (x.totalOrder y)

/-- The least double beyond the 64-bit integers. -/
def twoPow63 : Double := .ofInt (2 ^ 63)

/-- The least 64-bit integer as a double. -/
def minusTwoPow63 : Double := .ofInt (-2 ^ 63)

/-- Compare an integer with a double without rounding the integer, unless the double is no
number. -/
def compareLongDouble (l : Int64) (y : Double) : Ordering :=
  if y.datum.isNaN then (Double.ofInt l.toInt).totalOrder y
  else if (y.order? twoPow63).any (·.isGE) then .lt
  else if (y.order? minusTwoPow63).any (· == .lt) then .gt
  else
    (compare l.toInt y.trunc.toInt64.toInt).then
      ((Double.zero.order? (y.sub y.trunc)).getD .eq)

/-- Comparisons of whole numbers that hold alike give the same answer. -/
theorem compare_congr {a b c d : Int} (hlt : a < b ↔ c < d) (heq : a = b ↔ c = d) :
    compare a b = compare c d := by
  simp only [compare, compareOfLessAndEq, hlt, heq]

theorem compareRanks_of_lt {a b : Int × Int} (h : a.1 < b.1) : compareRanks a b = .lt := by
  rw [compareRanks, Int.compare_eq_lt.2 h]
  rfl

theorem compareRanks_of_gt {a b : Int × Int} (h : b.1 < a.1) : compareRanks a b = .gt := by
  rw [compareRanks, Int.compare_eq_gt.2 h]
  rfl

theorem compareRanks_swap (a b : Int × Int) : (compareRanks a b).swap = compareRanks b a := by
  rw [compareRanks, compareRanks, Ordering.swap_then, Int.compare_swap, Int.compare_swap]

theorem compareRanks_same (c m n : Int) : compareRanks (c, m) (c, n) = compare m n := by
  simp [compareRanks]

namespace Double

/-- Words of numbers lie between those of the not-a-numbers of either sign. -/
theorem key_cases (x : Double) :
    (∃ p : Int, 0 < p ∧ x.key = -1 - Format.double.infinity - p ∧ x.rank = (-2, -p)) ∨
      (x.datum.isNaN = false ∧ -1 - Format.double.infinity ≤ x.key ∧
        x.key ≤ Format.double.infinity ∧ -2 < x.rank.1 ∧ x.rank.1 < 2) ∨
      ∃ p : Int, 0 < p ∧ x.key = Format.double.infinity + p ∧ x.rank = (2, p) := by
  have hlt := x.toNat_lt
  have hweight : Format.double.signWeight = 2 ^ 63 := by decide
  have hkey : x.key = if Format.double.signWeight ≤ x.word.toNat
      then -1 - ((x.word.toNat % Format.double.signWeight : Nat) : Int)
      else ((x.word.toNat % Format.double.signWeight : Nat) : Int) := by
    rw [hweight] at hlt ⊢
    unfold key
    split <;> split <;> omega
  rw [hkey, rank, datum, Format.decode]
  generalize x.word.toNat % Format.double.signWeight = m
  generalize Format.double.infinity = top
  by_cases hsign : Format.double.signWeight ≤ x.word.toNat <;>
    simp only [hsign, decide_true, decide_false, if_true, if_false] <;>
    split_ifs with hnan hinfinite
  · exact .inl ⟨m - top, by omega, by omega, by simp [Datum.rank]; omega⟩
  · exact .inr (.inl ⟨rfl, by omega, by omega, by decide, by decide⟩)
  · exact .inr (.inl ⟨rfl, by omega, by omega, by simp [Datum.rank], by simp [Datum.rank]⟩)
  · exact .inr (.inr ⟨m - top, by omega, by omega, by simp [Datum.rank]; omega⟩)
  · exact .inr (.inl ⟨rfl, by omega, by omega, by decide, by decide⟩)
  · exact .inr (.inl ⟨rfl, by omega, by omega, by simp [Datum.rank], by simp [Datum.rank]⟩)

/-- Where one of two doubles is no number, their words are in the order of their ranks. -/
theorem totalOrder_of_isNaN {x y : Double} (h : (x.datum.isNaN || y.datum.isNaN) = true) :
    x.totalOrder y = compareRanks x.rank y.rank := by
  have hlt (hkey : x.key < y.key) (hrank : x.rank.1 < y.rank.1) :
      x.totalOrder y = compareRanks x.rank y.rank := by
    rw [totalOrder, compareRanks_of_lt hrank, Int.compare_eq_lt.2 hkey]
  have hgt (hkey : y.key < x.key) (hrank : y.rank.1 < x.rank.1) :
      x.totalOrder y = compareRanks x.rank y.rank := by
    rw [totalOrder, compareRanks_of_gt hrank, Int.compare_eq_gt.2 hkey]
  rcases x.key_cases with ⟨p, hp, hx, hxr⟩ | ⟨hxn, hx, hx', hxr, hxr'⟩ | ⟨p, hp, hx, hxr⟩ <;>
    rcases y.key_cases with ⟨q, hq, hy, hyr⟩ | ⟨hyn, hy, hy', hyr, hyr'⟩ | ⟨q, hq, hy, hyr⟩
  · rw [totalOrder, hx, hy, hxr, hyr, compareRanks_same]
    exact compare_congr (by omega) (by omega)
  · exact hlt (by omega) (by rw [hxr]; exact hyr)
  · exact hlt (by omega) (by simp [hxr, hyr])
  · exact hgt (by omega) (by rw [hyr]; exact hxr)
  · simp [hxn, hyn] at h
  · exact hlt (by omega) (by rw [hyr]; exact hxr')
  · exact hgt (by omega) (by simp [hxr, hyr])
  · exact hgt (by omega) (by rw [hxr]; exact hyr')
  · rw [totalOrder, hx, hy, hxr, hyr, compareRanks_same]
    exact compare_congr (by omega) (by omega)

end Double

/-- Comparing doubles by number or by word is comparing their ranks. -/
theorem compareDoubles_eq (x y : Double) : compareDoubles x y = compareRanks x.rank y.rank := by
  unfold compareDoubles Double.order?
  split
  · exact Double.totalOrder_of_isNaN ‹_›
  · rfl

/-! ### An integer and a double -/

theorem Format.nearest_pos {f : Format} {num : Nat} (hinfinity : 0 < f.infinity) (h : 0 < num) :
    0 < f.nearest num 1 := by
  refine Nat.lt_min.2 ⟨?_, hinfinity⟩
  rcases Nat.eq_zero_or_pos ((num / 1).log2 - f.fractionBits) with hzero | hpos
  · have hexact : roundHalfEven num 1 = num := roundHalfEven_of_near (by omega) (by omega)
    rw [hzero, show pow2 0 = 1 from rfl, Nat.one_mul, hexact]
    omega
  · exact Nat.add_pos_left (Nat.mul_pos hpos (Nat.two_pow_pos _)) _

namespace Double

/-- The whole part of a double is a double. -/
theorem exists_units_whole {x : Double} {negative : Bool} {units : Nat}
    (h : x.datum = .finite negative units) (k : Nat) (hlow : 52 ≤ k) (hhigh : k ≤ 2000) :
    ∃ m, m < Format.double.infinity ∧
      Format.double.units m = units / 2 ^ k * 2 ^ k := by
  obtain ⟨hm, hunits⟩ := Format.decode_finite h
  obtain ⟨d, s, hsplit, hvalue, hs, -⟩ := Format.exists_significand Format.double
    (x.word.toNat % Format.double.signWeight)
  rw [hunits] at hvalue
  rcases Nat.lt_or_ge d k with hlt | hge
  · have hwhole : units / 2 ^ k < 2 ^ 53 := by
      refine Nat.lt_of_le_of_lt ?_ hs
      rw [hvalue]
      exact Nat.div_le_of_le_mul (Nat.mul_comm _ _ ▸
        Nat.mul_le_mul_right _ (Nat.pow_le_pow_right Nat.two_pos hlt.le))
    exact exists_units_shift k hwhole hlow hhigh
  · refine ⟨_, hm, ?_⟩
    have hdvd : 2 ^ k ∣ units := by
      rw [hvalue]
      exact Nat.dvd_mul_left_of_dvd (Nat.pow_dvd_pow 2 hge) s
    rw [hunits, Nat.div_mul_cancel hdvd]

theorem ofUnits_signed (f : Format) (negative : Bool) (units : Nat) :
    f.ofUnits negative (signed negative units) = f.pack negative (f.nearest units 1) := by
  have hsign : (if signed negative units = 0 then negative
      else decide (signed negative units < 0)) = negative := by
    unfold signed
    cases negative
    · simp
    · rcases Nat.eq_zero_or_pos units with rfl | hpos
      · rfl
      · simp [Nat.ne_of_gt hpos, hpos]
  have hmagnitude : (signed negative units).natAbs = units := by
    unfold signed
    split <;> omega
  rw [Format.ofUnits, hsign, hmagnitude]

theorem datum_trunc {x : Double} {negative : Bool} {units : Nat}
    (h : x.datum = .finite negative units) :
    x.trunc.datum = .finite negative
      (units / 2 ^ Format.double.unitShift * 2 ^ Format.double.unitShift) := by
  obtain ⟨m, hm, hunits⟩ := exists_units_whole h Format.double.unitShift (by decide) (by decide)
  have hnearest := Format.nearest_units hm Nat.one_pos
  rw [hunits, Nat.mul_one] at hnearest
  rw [trunc, h]
  dsimp only
  rw [pow2_eq, ofUnits_signed, hnearest, datum_ofNatWord (Format.pack_lt hm.le _),
    Format.decode_pack hm, hunits]

/-- The whole part of a double within the 64-bit integers. -/
theorem toInt64_trunc {x : Double} {negative : Bool} {units : Nat}
    (h : x.datum = .finite negative units)
    (hlow : -2 ^ 63 ≤ signed negative (units / 2 ^ Format.double.unitShift))
    (hhigh : signed negative (units / 2 ^ Format.double.unitShift) < 2 ^ 63) :
    x.trunc.toInt64.toInt = signed negative (units / 2 ^ Format.double.unitShift) := by
  rw [toInt64, datum_trunc h, Format.truncateWithin, pow2_eq,
    Nat.mul_div_cancel _ (Nat.two_pow_pos _)]
  generalize signed negative (units / 2 ^ Format.double.unitShift) = whole at hlow hhigh
  have hmin : Int64.minValue.toInt = -2 ^ 63 := by decide
  have hmax : Int64.maxValue.toInt = 2 ^ 63 - 1 := by decide
  rw [hmin, hmax, Int.min_eq_right (by omega), Int.max_eq_right hlow,
    Int64.toInt_ofInt_of_le hlow hhigh]

/-- What the whole part leaves. -/
theorem sub_trunc {x : Double} {negative : Bool} {units : Nat}
    (h : x.datum = .finite negative units) :
    x.sub x.trunc = .ofNatWord (Format.double.ofUnits false
      (signed negative (units % 2 ^ Format.double.unitShift))) := by
  have hleft : signed negative units + signed (!negative)
      (units / 2 ^ Format.double.unitShift * 2 ^ Format.double.unitShift) =
        signed negative (units % 2 ^ Format.double.unitShift) := by
    have hsplit := Nat.div_add_mod' units (2 ^ Format.double.unitShift)
    generalize units / 2 ^ Format.double.unitShift * 2 ^ Format.double.unitShift = whole at hsplit ⊢
    generalize units % 2 ^ Format.double.unitShift = rest at hsplit ⊢
    unfold signed
    cases negative <;> simp <;> omega
  rw [sub, h, datum_trunc h, Datum.negate, Format.add, hleft, Bool.and_not_self]

/-- Rounding a difference keeps its sign. -/
theorem zero_order?_ofUnits (units : Int) :
    zero.order? (.ofNatWord (Format.double.ofUnits false units)) = some (compare 0 units) := by
  have hzero : zero.datum = .finite false 0 := by decide
  have hbound : Format.double.nearest units.natAbs 1 ≤ Format.double.infinity :=
    Nat.min_le_right _ _
  have hsign : (if units = 0 then false else decide (units < 0)) = decide (units < 0) := by
    split <;> simp [*]
  rw [order?, rank, rank, Format.ofUnits, datum_ofNatWord (Format.pack_lt hbound _), hzero, hsign]
  rcases Nat.lt_or_eq_of_le hbound with hlt | heq
  · have hpos : 0 < units.natAbs → 0 < Format.double.units (Format.double.nearest units.natAbs 1) :=
      fun h => Nat.pos_of_ne_zero fun hunits =>
        Nat.ne_of_gt (Format.nearest_pos (by decide) h) (Format.eq_zero_of_units hunits)
    have hnone :
        units.natAbs = 0 → Format.double.units (Format.double.nearest units.natAbs 1) = 0 :=
      fun h => by rw [h, Format.nearest_zero]; rfl
    rw [Format.decode_pack hlt]
    generalize Format.double.units (Format.double.nearest units.natAbs 1) = rounded at hpos hnone
    change some (compareRanks (0, signed false 0) (0, signed (units < 0) rounded)) = _
    rw [compareRanks_same]
    unfold signed
    exact congrArg some (compare_congr (by simp; split <;> omega) (by simp; split <;> omega))
  · have hne : units ≠ 0 := by
      rintro rfl
      rw [Int.natAbs_zero, Format.nearest_zero] at heq
      exact absurd heq (by decide)
    rw [heq, Format.decode_pack_infinity]
    by_cases hneg : units < 0
    · rw [decide_eq_true hneg, Int.compare_eq_gt.2 hneg]
      rfl
    · rw [decide_eq_false hneg, Int.compare_eq_lt.2 (by omega)]
      rfl

end Double

/-- An integer stands to a number as it does to the whole part, and where these are equal as zero
does to what the whole part leaves. -/
theorem compare_whole_then (l : Int) (negative : Bool) (units : Nat) {scale : Nat} (h : 0 < scale) :
    (compare l (signed negative (units / scale))).then
        (compare 0 (signed negative (units % scale))) =
      compare (l * scale) (signed negative units) := by
  have hsplit := Nat.div_add_mod' units scale
  have hrest := Nat.mod_lt units h
  generalize units / scale = whole at hsplit ⊢
  generalize units % scale = rest at hsplit hrest ⊢
  subst hsplit
  -- A difference of the whole parts outweighs any rest.
  have hscale : (0 : Int) < scale := Int.natCast_pos.2 h
  have hstep (i j : Int) (hij : i < j) : i * scale + scale ≤ j * scale := by
    have hmul := Int.mul_le_mul_of_nonneg_right (Int.add_one_le_of_lt hij) hscale.le
    rwa [Int.add_mul, Int.one_mul] at hmul
  have hsigned : signed negative (whole * scale + rest) =
      signed negative whole * scale + signed negative rest := by
    unfold signed
    cases negative
    · simp
    · simp
      ring
  have hrest' : -scale < signed negative rest ∧ signed negative rest < scale := by
    unfold signed
    split <;> omega
  rw [hsigned]
  rcases lt_trichotomy l (signed negative whole) with hlt | rfl | hgt
  · have hmul := hstep _ _ hlt
    have hwhole : compare l (signed negative whole) = .lt := Int.compare_eq_lt.2 hlt
    have hnumber :
        compare (l * scale) (signed negative whole * scale + signed negative rest) = .lt :=
      Int.compare_eq_lt.2 (by omega)
    rw [hwhole, hnumber]
    rfl
  · have hwhole : compare (signed negative whole) (signed negative whole) = .eq :=
      Int.compare_eq_eq.2 rfl
    rw [hwhole, Ordering.eq_then]
    exact compare_congr (by omega) (by omega)
  · have hmul := hstep _ _ hgt
    have hwhole : compare l (signed negative whole) = .gt := Int.compare_eq_gt.2 hgt
    have hnumber :
        compare (l * scale) (signed negative whole * scale + signed negative rest) = .gt :=
      Int.compare_eq_gt.2 (by omega)
    rw [hwhole, hnumber]
    rfl

/-- The whole part of a number keeps its bounds. -/
theorem whole_bounds {negative : Bool} {units scale : Nat} (bound : Nat) (h : 0 < scale)
    (hlow : -bound * scale ≤ signed negative units)
    (hhigh : signed negative units < bound * scale) :
    -bound ≤ signed negative (units / scale) ∧ signed negative (units / scale) < bound := by
  cases negative with
  | false =>
      simp only [signed, Bool.false_eq_true, if_false] at hlow hhigh ⊢
      have hlt : units / scale < bound := (Nat.div_lt_iff_lt_mul h).2 (by exact_mod_cast hhigh)
      generalize units / scale = whole at hlt
      omega
  | true =>
      simp only [signed, if_true] at hlow hhigh ⊢
      rw [Int.neg_mul, Int.neg_le_neg_iff] at hlow
      have hle : units / scale ≤ bound :=
        Nat.div_le_of_le_mul (by rw [Nat.mul_comm]; exact_mod_cast hlow)
      have hpos : 0 < bound := by
        refine Nat.pos_of_ne_zero ?_
        rintro rfl
        simp at hlow hhigh
        omega
      generalize units / scale = whole at hle
      omega

theorem rank_twoPow63 : twoPow63.rank = rankOfInt (2 ^ 63) := by decide +kernel

theorem rank_minusTwoPow63 : minusTwoPow63.rank = rankOfInt (-2 ^ 63) := by decide +kernel

namespace Double

theorem isNaN_of_rank {x : Double} {n : Int} (h : x.rank = (0, n)) : x.datum.isNaN = false := by
  rw [rank] at h
  cases hdatum : x.datum with
  | nan negative payload => rw [hdatum] at h; cases negative <;> cases h
  | _ => rfl

theorem order?_of_rank {x y : Double} {n : Int} (hx : x.datum.isNaN = false)
    (hy : y.rank = (0, n)) : x.order? y = some (compareRanks x.rank (0, n)) := by
  rw [order?, hx, isNaN_of_rank hy, hy]
  rfl

/-- The double nearest to an integer is a number. -/
theorem isNaN_ofInt (i : Int) : (ofInt i).datum.isNaN = false := by
  have hbound : Format.double.nearest (i.natAbs * 2 ^ Format.double.unitShift) 1 ≤
      Format.double.infinity := Nat.min_le_right _ _
  rw [ofInt_eq, datum_ofNatWord (Format.pack_lt hbound _)]
  rcases Nat.lt_or_eq_of_le hbound with hlt | heq
  · rw [Format.decode_pack hlt]
    rfl
  · rw [heq, Format.decode_pack_infinity]
    rfl

/-- An integer whose rank a double has is not rounded. -/
theorem rank_ofInt_of_rank {x : Double} {i : Int} (h : x.rank = rankOfInt i) :
    (ofInt i).rank = rankOfInt i := by
  rw [rankOfInt, pow2_eq] at h ⊢
  obtain ⟨negative, hdatum⟩ : ∃ negative,
      x.datum = .finite negative (i.natAbs * 2 ^ Format.double.unitShift) := by
    rw [rank] at h
    generalize x.datum = d at h
    rcases d with ⟨s, m⟩ | ⟨_ | _⟩ | ⟨_ | _, _⟩
    · refine ⟨s, congrArg _ ?_⟩
      have hunits : signed s m = i * (2 ^ Format.double.unitShift : Nat) := congrArg Prod.snd h
      have habs := congrArg Int.natAbs hunits
      rw [Int.natAbs_mul, Int.natAbs_natCast] at habs
      rw [← habs]
      unfold signed
      split <;> omega
    all_goals cases congrArg Prod.fst h
  obtain ⟨hm, hunits⟩ := Format.decode_finite hdatum
  have hnearest := Format.nearest_units hm Nat.one_pos
  rw [hunits, Nat.mul_one] at hnearest
  rw [rank, ofInt_eq, hnearest, datum_ofNatWord (Format.pack_lt hm.le _), Format.decode_pack hm,
    hunits]
  exact congrArg (Prod.mk 0) (signed_natAbs i _)

end Double

/-- A not-a-number lies outside of all numbers. -/
theorem Double.rank_bounds (x : Double) :
    if x.datum.isNaN then x.rank.1 = -2 ∨ x.rank.1 = 2 else -2 < x.rank.1 ∧ x.rank.1 < 2 := by
  rw [Double.rank]
  rcases x.datum with ⟨_, _⟩ | ⟨_ | _⟩ | ⟨_ | _, _⟩ <;> simp [Datum.isNaN, Datum.rank]

/-- A not-a-number stands to all numbers alike. -/
theorem compareRanks_of_isNaN {x y : Double} (hx : x.datum.isNaN = false)
    (hy : y.datum.isNaN = true) (n : Int) :
    compareRanks x.rank y.rank = compareRanks (0, n) y.rank := by
  have hxr := x.rank_bounds
  have hyr := y.rank_bounds
  rw [hx, if_neg Bool.false_ne_true] at hxr
  rw [hy, if_pos rfl] at hyr
  rcases hyr with hyr | hyr
  · rw [compareRanks_of_gt (hyr.trans_lt hxr.1), compareRanks_of_gt (hyr.trans_lt (by simp))]
  · rw [compareRanks_of_lt (hxr.2.trans_eq hyr.symm),
      compareRanks_of_lt (hyr.symm.le.trans_lt' (by simp))]

/-- Comparing an integer with a double without rounding the integer is comparing exactly. -/
theorem compareLongDouble_eq (l : Int64) (y : Double) :
    compareLongDouble l y = compareRanks (rankOfInt l.toInt) y.rank := by
  unfold compareLongDouble
  by_cases hnan : y.datum.isNaN = true
  · -- Next to a not-a-number it does not matter that the integer is rounded.
    rw [if_pos hnan, Double.totalOrder_of_isNaN (by rw [hnan, Bool.or_true])]
    exact compareRanks_of_isNaN (Double.isNaN_ofInt _) hnan _
  · rw [if_neg hnan]
    replace hnan := Bool.eq_false_iff.2 hnan
    rw [Double.order?_of_rank hnan rank_twoPow63, Double.order?_of_rank hnan rank_minusTwoPow63]
    cases hdatum : y.datum with
    | nan negative payload => rw [hdatum] at hnan; cases hnan
    | infinite negative =>
        rw [Double.rank, hdatum]
        cases negative <;> rfl
    | finite negative units =>
        have hrank : y.rank = (0, signed negative units) := by rw [Double.rank, hdatum]; rfl
        have hscale : 0 < 2 ^ Format.double.unitShift := Nat.two_pow_pos _
        have hwhole := compare_whole_then l.toInt negative units hscale
        have htrunc := Double.toInt64_trunc hdatum
        rw [hrank, compareRanks_same, rankOfInt, compareRanks_same, compareRanks_same,
          Double.sub_trunc hdatum, Double.zero_order?_ofUnits, Option.getD_some, pow2_eq]
        generalize 2 ^ Format.double.unitShift = scale at hscale hwhole htrunc ⊢
        have hlow := l.le_toInt
        have hhigh := l.toInt_lt
        simp only [Option.any_some]
        split_ifs with hbeyond hbelow
        · have hge : 2 ^ 63 * scale ≤ signed negative units := Int.isGE_compare.1 hbeyond
          refine (Int.compare_eq_lt.2 (Int.lt_of_lt_of_le ?_ hge)).symm
          exact Int.mul_lt_mul_of_pos_right hhigh (by exact_mod_cast hscale)
        · have hlt : signed negative units < -2 ^ 63 * scale :=
            Int.compare_eq_lt.1 (beq_iff_eq.1 hbelow)
          refine (Int.compare_eq_gt.2 (Int.lt_of_lt_of_le hlt ?_)).symm
          exact Int.mul_le_mul_of_nonneg_right hlow (by exact_mod_cast hscale.le)
        · have hlt : signed negative units < 2 ^ 63 * scale :=
            Int.not_le.1 fun hge => hbeyond (Int.isGE_compare.2 hge)
          have hge : -2 ^ 63 * scale ≤ signed negative units :=
            Int.not_lt.1 fun hlt => hbelow (beq_iff_eq.2 (Int.compare_eq_lt.2 hlt))
          obtain ⟨hwholeLow, hwholeHigh⟩ := whole_bounds (2 ^ 63) hscale hge hlt
          rw [htrunc hwholeLow hwholeHigh]
          exact hwhole

end EventQuery.Number
