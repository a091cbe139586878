import EventQuery.Proofs.Eval.Typing
import EventQuery.Proofs.Number.Decimal
import EventQuery.Proofs.Rollup.WellFormed
import EventQuery.Proofs.Value.Exact

/-!
Keys of groups. A key joins the texts of the group-by values by colons. The text of a value tells it
from every other value of its type, up to a few pairs, and texts other than strings have no colon.
So a key determines the values as long as only one of the group-by attributes has strings with
colons in them.
-/

namespace EventQuery

open Number

namespace Value

/-- Two values that one attribute may have: of one type, or null. -/
def Alike (v w : Value) : Prop := v = .null ∨ w = .null ∨ v.type = w.type

theorem HasType.alike {v w : Value} {type : AttributeType} (hv : v.HasType type)
    (hw : w.HasType type) : v.Alike w := by
  rcases hv with hv | hv
  · exact .inl hv
  · exact .inr (hw.imp_right fun hw => hv.trans hw.symm)

/-- Values of one type that are not the same although they have one text, or the other way round:
null and the string that is its text, floating point values that are not numbers, and the zeros. -/
def Ambiguous (v w : Value) : Prop :=
  v = .null ∧ w = .string "null" ∨ v = .string "null" ∧ w = .null ∨
    v ≠ w ∧ (v.isZero = true ∧ w.isZero = true ∨ v.isNaN = true ∧ w.isNaN = true)

variable {v w : Value}

/-! ### The same values -/

/-- Values of one type that are the same are equal. -/
theorem eq_of_same (halike : v.Alike w) (hclear : ¬v.Ambiguous w) (h : v.same w = true) :
    v = w := by
  have hkind := kind_eq_of_same h
  have hcontent := contentOrder_of_same h
  rcases halike with rfl | rfl | htype
  · exact (eq_null_of_kind hkind.symm).symm
  · exact eq_null_of_kind hkind
  cases v with
  | null => exact (eq_null_of_kind hkind.symm).symm
  | bool b =>
      cases w with
      | bool b' => exact congrArg _ (Std.compare_eq_iff_eq.1 hcontent)
      | _ => cases htype
  | int i =>
      cases w with
      | int i' =>
          exact congrArg _ (Int32.toInt_inj.1 (rankOfInt_inj (compareRanks_eq_iff.1 hcontent)))
      | _ => cases htype
  | long l =>
      cases w with
      | long l' =>
          exact congrArg _ (Int64.toInt_inj.1 (rankOfInt_inj (compareRanks_eq_iff.1 hcontent)))
      | _ => cases htype
  | float x =>
      cases w with
      | float x' =>
          by_contra hne
          refine hclear (.inr (.inr ⟨hne, ?_⟩))
          by_cases hnan : x.datum.isNaN = true ∧ x'.datum.isNaN = true
          · exact .inr hnan
          · refine .inl (((Single.rank_toDouble_eq_iff hnan).1
              (compareRanks_eq_iff.1 hcontent)).resolve_left fun heq => hne (congrArg _ heq))
      | _ => cases htype
  | double x =>
      cases w with
      | double x' =>
          by_contra hne
          refine hclear (.inr (.inr ⟨hne, .inl ?_⟩))
          exact (Double.rank_eq_iff.1 (compareRanks_eq_iff.1 hcontent)).resolve_left fun heq =>
            hne (congrArg _ heq)
      | _ => cases htype
  | string s =>
      cases w with
      | string s' => exact congrArg _ (Std.compare_eq_iff_eq.1 hcontent)
      | _ => cases htype

/-! ### The same texts -/

theorem mem_natText {n : Nat} {c : Char} (h : c ∈ n.repr.toList) : c.isDigit = true :=
  Nat.isDigit_of_mem_toDigits (by decide) (by decide) (Nat.toList_repr ▸ h)

theorem natText_inj {m n : Nat} (h : m.repr = n.repr) : m = n := by
  have hdigits := congrArg String.toList h
  rw [Nat.toList_repr, Nat.toList_repr] at hdigits
  rw [← Nat.ofDigitChars_ten_toDigits (n := m), hdigits, Nat.ofDigitChars_ten_toDigits]

theorem intText_eq (i : Int) :
    toString i = if 0 ≤ i then i.toNat.repr else "-" ++ (-i).toNat.repr := by
  rw [Int.toString_eq_repr, Int.repr_eq_if]

theorem mem_intText {i : Int} {c : Char} (h : c ∈ (toString i).toList) : Numeral c := by
  rw [intText_eq] at h
  split at h
  · exact .inl (mem_natText h)
  · rw [String.toList_append, List.mem_append] at h
    rcases h with h | h
    · obtain rfl : c = '-' := by simpa using h
      simp [Numeral]
    · exact .inl (mem_natText h)

theorem intText_inj {i j : Int} (h : toString i = toString j) : i = j := by
  -- The sign is no digit.
  have hminus {m n : Nat} (h : m.repr = "-" ++ n.repr) : False := by
    have hmem : '-' ∈ m.repr.toList := by
      rw [h, String.toList_append]
      exact List.mem_append_left _ (by decide)
    exact absurd (mem_natText hmem) (by decide)
  rw [intText_eq, intText_eq] at h
  split at h <;> split at h
  · have heq := natText_inj h
    omega
  · exact (hminus h).elim
  · exact (hminus h.symm).elim
  · have heq := natText_inj ((String.append_right_inj _).1 h)
    omega

/-- The characters of the texts of numbers, with the marks of their types. -/
theorem mem_text_of_numeric {c : Char} (hkind : v.kind = .numeric) (h : c ∈ v.text.toList) :
    Numeral c ∨ c = 'L' := by
  cases v with
  | int i => exact .inl (mem_intText h)
  | long l =>
      rw [text, String.toList_append, List.mem_append] at h
      rcases h with h | h
      · exact .inl (mem_intText h)
      · exact .inr (by simpa using h)
  | float x =>
      rw [text, String.toList_append, List.mem_append] at h
      rcases h with h | h
      · exact .inl (Format.mem_text h)
      · obtain rfl : c = 'f' := by simpa using h
        simp [Numeral]
  | double x => exact .inl (Format.mem_text h)
  | _ => cases hkind

/-- Only strings have colons in their text. -/
theorem colon_notMem_groupText (hstring : ∀ s, v ≠ .string s) : ':' ∉ (groupText v).toList := by
  have hnumeric (hkind : v.kind = .numeric) : ':' ∉ v.text.toList := fun h => by
    have hchar := mem_text_of_numeric hkind h
    simp [Numeral] at hchar
  cases v with
  | null => decide
  | bool b => cases b <;> decide
  | string s => exact absurd rfl (hstring s)
  | _ => exact hnumeric rfl

theorem eq_null_of_groupText (hstring : v ≠ .string "null") (h : groupText v = "null") :
    v = .null := by
  have hnumeric (hkind : v.kind = .numeric) : v.text ≠ "null" := fun h => by
    have hmem : 'u' ∈ v.text.toList := by
      rw [h]
      decide
    have hchar := mem_text_of_numeric hkind hmem
    simp [Numeral] at hchar
  cases v with
  | null => rfl
  | bool b => cases b <;> simp [groupText, text] at h
  | string s => exact absurd (congrArg _ h) hstring
  | _ => exact absurd h (hnumeric rfl)

/-- Values of one type that have one text are equal. -/
theorem eq_of_groupText (halike : v.Alike w) (hclear : ¬v.Ambiguous w)
    (h : groupText v = groupText w) : v = w := by
  rcases halike with rfl | rfl | htype
  · exact (eq_null_of_groupText (fun hw => hclear (.inl ⟨rfl, hw⟩)) h.symm).symm
  · exact eq_null_of_groupText (fun hv => hclear (.inr (.inl ⟨hv, rfl⟩))) h
  cases v with
  | null => exact (type_eq_object.1 htype.symm).symm
  | bool b =>
      cases w with
      | bool b' => cases b <;> cases b' <;> simp_all [groupText, text]
      | _ => cases htype
  | int i =>
      cases w with
      | int i' => exact congrArg _ (Int32.toInt_inj.1 (intText_inj h))
      | _ => cases htype
  | long l =>
      cases w with
      | long l' =>
          exact congrArg _ (Int64.toInt_inj.1 (intText_inj ((String.append_left_inj _).1 h)))
      | _ => cases htype
  | float x =>
      cases w with
      | float x' =>
          by_contra hne
          refine hclear (.inr (.inr ⟨hne, .inr ?_⟩))
          exact (Single.text_inj ((String.append_left_inj _).1 h)).resolve_left fun heq =>
            hne (congrArg _ heq)
      | _ => cases htype
  | double x =>
      cases w with
      | double x' =>
          by_contra hne
          refine hclear (.inr (.inr ⟨hne, .inr ?_⟩))
          exact (Double.text_inj h).resolve_left fun heq => hne (congrArg _ heq)
      | _ => cases htype
  | string s =>
      cases w with
      | string s' => exact congrArg _ h
      | _ => cases htype

/-- Text and comparison agree about values of one type, except for ambiguous ones. -/
theorem groupText_eq_iff (halike : v.Alike w) (hclear : ¬v.Ambiguous w) :
    groupText v = groupText w ↔ v.same w = true :=
  ⟨fun h => eq_of_groupText halike hclear h ▸ same_self v,
    fun h => eq_of_same halike hclear h ▸ rfl⟩

end Value

/-! ### Joined texts -/

section

variable {α : Type} [DecidableEq α] {sep : α} {x y : List α} {xs ys : List (List α)}

/-- The place where two lists are cut is the same if as many separators stand before it. -/
theorem append_cons_inj_of_count {rest rest' : List α} (hcount : x.count sep = y.count sep)
    (h : x ++ sep :: rest = y ++ sep :: rest') : x = y ∧ rest = rest' := by
  rcases List.append_eq_append_iff.1 h with ⟨more, rfl, hmore⟩ | ⟨more, rfl, hmore⟩
  all_goals
    cases more with
    | nil => simp_all
    | cons a more =>
        obtain ⟨rfl, -⟩ := List.cons.inj hmore
        simp at hcount

theorem count_intercalate (h : ∀ z ∈ x :: xs, sep ∉ z) :
    ([sep].intercalate (x :: xs)).count sep = xs.length := by
  have hx : x.count sep = 0 := List.count_eq_zero.2 (h x List.mem_cons_self)
  induction xs generalizing x with
  | nil => rw [List.intercalate_singleton, hx, List.length_nil]
  | cons z xs ih =>
      have hrest : ∀ w ∈ z :: xs, sep ∉ w := fun w hw => h w (List.mem_cons_of_mem _ hw)
      rw [List.intercalate_cons_cons, List.count_append, List.count_append, hx,
        ih hrest (List.count_eq_zero.2 (hrest z List.mem_cons_self)), List.count_singleton_self,
        List.length_cons]
      omega

/-- Joined texts determine the parts if the separator occurs in one part at most. -/
theorem intercalate_inj {j : Nat} (hlength : xs.length = ys.length)
    (hclear : ∀ i : Nat, i ≠ j → ∀ z, xs[i]? = some z ∨ ys[i]? = some z → sep ∉ z)
    (h : [sep].intercalate xs = [sep].intercalate ys) : xs = ys := by
  induction xs generalizing ys j with
  | nil => exact (List.length_eq_zero_iff.1 hlength.symm).symm
  | cons x xs ih =>
      obtain ⟨y, ys, rfl⟩ := List.exists_cons_of_length_eq_add_one hlength.symm
      rw [List.length_cons, List.length_cons, Nat.add_right_cancel_iff] at hlength
      cases xs with
      | nil =>
          obtain rfl := List.length_eq_zero_iff.1 hlength.symm
          rw [List.intercalate_singleton, List.intercalate_singleton] at h
          rw [h]
      | cons x' xs =>
          obtain ⟨y', ys, rfl⟩ := List.exists_cons_of_length_eq_add_one hlength.symm
          rw [List.intercalate_cons_cons, List.intercalate_cons_cons, List.append_assoc,
            List.append_assoc, List.singleton_append, List.singleton_append] at h
          have hcount : x.count sep = y.count sep := by
            cases j with
            | zero =>
                -- All further parts are clear, so the joined ones have equally many separators.
                have hxs : ∀ z ∈ x' :: xs, sep ∉ z := fun z hz => by
                  obtain ⟨i, hi⟩ := List.getElem?_of_mem hz
                  exact hclear (i + 1) (by omega) z (.inl hi)
                have hys : ∀ z ∈ y' :: ys, sep ∉ z := fun z hz => by
                  obtain ⟨i, hi⟩ := List.getElem?_of_mem hz
                  exact hclear (i + 1) (by omega) z (.inr hi)
                have htotal := congrArg (List.count sep) h
                rw [List.count_append, List.count_append, List.count_cons_self,
                  List.count_cons_self, count_intercalate hxs, count_intercalate hys] at htotal
                rw [List.length_cons, List.length_cons] at hlength
                omega
            | succ j =>
                rw [List.count_eq_zero.2 (hclear 0 (by omega) x (.inl rfl)),
                  List.count_eq_zero.2 (hclear 0 (by omega) y (.inr rfl))]
          obtain ⟨rfl, hrest⟩ := append_cons_inj_of_count hcount h
          rw [ih (j := j - 1) hlength (fun i hi => hclear (i + 1) (by omega)) hrest]

end

/-! ### Keys -/

/-- A string with a colon in it. -/
def Value.HasColon (v : Value) : Prop := ∃ s, v = .string s ∧ ':' ∈ s.toList

/-- Two rows whose groups a key tells apart: their group-by values are of the same types and are not
ambiguous, and those of one attribute at most have colons. -/
structure Legible (n : Nat) (row row' : Event) : Prop where
  alike : ∀ i < n, (row.get (i + 1)).Alike (row'.get (i + 1))
  clear : ∀ i < n, ¬(row.get (i + 1)).Ambiguous (row'.get (i + 1))
  colons : ∃ j, ∀ i < n, i ≠ j → ¬(row.get (i + 1)).HasColon ∧ ¬(row'.get (i + 1)).HasColon

theorem colon_notMem_of_not_hasColon {v : Value} (h : ¬v.HasColon) :
    ':' ∉ (groupText v).toList := by
  by_cases hstring : ∃ s, v = .string s
  · obtain ⟨s, rfl⟩ := hstring
    exact fun hmem => h ⟨s, rfl, hmem⟩
  · exact Value.colon_notMem_groupText fun s hs => hstring ⟨s, hs⟩

theorem toList_groupKey (n : Nat) (row : Event) :
    (groupKey n row).toList =
      [':'].intercalate ((List.range n).map fun i => (groupText (row.get (i + 1))).toList) := by
  rw [groupKey, String.toList_intercalate, List.map_map]
  rfl

/-- The keys of legible rows are equal just if all their group-by values are the same. -/
theorem Legible.groupKey_eq_iff {n : Nat} {row row' : Event} (h : Legible n row row') :
    groupKey n row = groupKey n row' ↔
      ∀ i < n, (row.get (i + 1)).same (row'.get (i + 1)) = true := by
  have htext (i : Nat) (hi : i < n) :=
    Value.groupText_eq_iff (h.alike i hi) (h.clear i hi)
  obtain ⟨j, hcolons⟩ := h.colons
  constructor
  · intro hkey i hi
    rw [← String.toList_inj, toList_groupKey, toList_groupKey] at hkey
    have hparts := intercalate_inj (j := j) (by simp) (fun i hij z hz => ?_) hkey
    · refine (htext i hi).1 (String.toList_inj.1 ?_)
      simpa [hi] using congrArg (·[i]?) hparts
    · have hi : i < n := by
        by_contra hge
        simp [hge] at hz
      obtain ⟨hclear, hclear'⟩ := hcolons i hi hij
      simp only [List.getElem?_map, List.getElem?_range hi, Option.map_some,
        Option.some.injEq] at hz
      rcases hz with rfl | rfl
      · exact colon_notMem_of_not_hasColon hclear
      · exact colon_notMem_of_not_hasColon hclear'
  · intro hsame
    rw [groupKey, groupKey]
    congr 1
    refine List.map_congr_left fun i hi => ?_
    exact (htext i (List.mem_range.1 hi)).2 (hsame i (List.mem_range.1 hi))

namespace RollupLayout

variable {d : RollupDefinition}

/-- A declaration that has passed its checks has a layout, and where no columns share a name,
legible rows have one key just if they agree in all group-by attributes. -/
theorem groupKey_eq_iff_same (haccepted : d.Accepted) (hclear : Clear d) :
    ∃ l, ofDefinition d = .ok l ∧ ∀ row row' : Event, Legible l.groupCount row row' →
      (groupKey l.groupCount row = groupKey l.groupCount row' ↔
        ∀ name ∈ d.groupBy, ∃ i, l.internal.position name = some i ∧
          (row.get i).same (row'.get i) = true) := by
  obtain ⟨l, hl⟩ := exists_ofDefinition haccepted
  have hregular := hclear.regular hl
  refine ⟨l, hl, fun row row' hlegible => ?_⟩
  rw [hlegible.groupKey_eq_iff, hregular.groupCount]
  constructor
  · intro hsame name hname
    obtain ⟨i, hi, rfl⟩ := List.getElem_of_mem hname
    exact ⟨i + 1, hregular.position_group (List.getElem?_eq_getElem hi), hsame i hi⟩
  · intro hsame i hi
    obtain ⟨j, hj, heq⟩ := hsame _ (List.getElem_mem hi)
    rw [hregular.position_group (List.getElem?_eq_getElem hi)] at hj
    exact Option.some.inj hj ▸ heq

namespace Listings

/-- Trades that are counted for each venue and symbol. -/
def definition : RollupDefinition :=
  ⟨"Stats", ⟨"Trade", [⟨"venue", .string⟩, ⟨"symbol", .string⟩]⟩, ["venue", "symbol"],
    [⟨"n", .count, none⟩], [.seconds], 1⟩

/-- The row of one trade. -/
def row (venue symbol : String) : Event :=
  .current 1000 [.long 1000, .string venue, .string symbol, .long 1]

theorem accepted : definition.Accepted := ⟨[.seconds], rfl⟩

theorem conforms_row {l : RollupLayout} (hl : ofDefinition definition = .ok l)
    (venue symbol : String) : (row venue symbol).Conforms l.internal := by
  cases hl
  intro i a ha
  match i with
  | 0 | 1 | 2 | 3 =>
      cases ha
      exact Value.hasType_type _
  | _ + 4 => cases ha

/-- Rows without colons in their symbols are legible. -/
theorem legible {l : RollupLayout} (hl : ofDefinition definition = .ok l)
    (venue venue' : String) {symbol symbol' : String} (h : ':' ∉ symbol.toList)
    (h' : ':' ∉ symbol'.toList) :
    Legible l.groupCount (row venue symbol) (row venue' symbol') := by
  cases hl
  have hstrings (s t : String) : ¬(Value.string s).Ambiguous (.string t) := by
    simp [Value.Ambiguous, Value.isZero, Value.isNaN, Value.datum?]
  have hplain {s : String} (h : ':' ∉ s.toList) : ¬(Value.string s).HasColon := by
    rintro ⟨_, ⟨⟩, hmem⟩
    exact h hmem
  refine ⟨fun i hi => ?_, fun i hi => ?_, 0, fun i hi hne => ?_⟩ <;>
    obtain rfl | rfl : i = 0 ∨ i = 1 := Nat.le_one_iff_eq_zero_or_eq_one.1 (Nat.le_of_lt_succ hi)
  · exact (conforms_row rfl venue symbol 1 _ rfl).alike (conforms_row rfl venue' symbol' 1 _ rfl)
  · exact (conforms_row rfl venue symbol 2 _ rfl).alike (conforms_row rfl venue' symbol' 2 _ rfl)
  · exact hstrings venue venue'
  · exact hstrings symbol symbol'
  · exact absurd rfl hne
  · exact ⟨hplain h, hplain h'⟩

end Listings

/-- Only venues have colons. -/
theorem groupKey_eq_iff_same_listings :
    ∃ l, ofDefinition Listings.definition = .ok l ∧
      groupKey l.groupCount (Listings.row "x:y" "c") ≠
        groupKey l.groupCount (Listings.row "x:y" "d") := by
  obtain ⟨l, hl, hiff⟩ := groupKey_eq_iff_same Listings.accepted
    (clear_of_unreserved (by decide) (by simp [Listings.definition, Reserved]))
  refine ⟨l, hl, fun hkey => ?_⟩
  have hlegible : Legible l.groupCount (Listings.row "x:y" "c") (Listings.row "x:y" "d") :=
    Listings.legible hl "x:y" "x:y" (by decide) (by decide)
  obtain ⟨i, hi, hsame⟩ := (hiff _ _ hlegible).1 hkey "symbol" (by decide)
  cases hl
  cases hi
  revert hsame
  decide

/-- Venues and symbols with colons are run together, so that different groups have one key. -/
theorem groupKey_eq_of_colons :
    Listings.definition.Accepted ∧ ∃ l, ofDefinition Listings.definition = .ok l ∧
      (Listings.row "a:b" "c").Conforms l.internal ∧ (Listings.row "a" "b:c").Conforms l.internal ∧
      groupKey l.groupCount (Listings.row "a:b" "c") =
        groupKey l.groupCount (Listings.row "a" "b:c") ∧
      ∀ name ∈ Listings.definition.groupBy, ∃ i, l.internal.position name = some i ∧
        ((Listings.row "a:b" "c").get i).same ((Listings.row "a" "b:c").get i) = false := by
  refine ⟨Listings.accepted, _, rfl, Listings.conforms_row rfl _ _, Listings.conforms_row rfl _ _,
    by decide, ?_⟩
  simp only [Listings.definition, List.forall_mem_cons]
  exact ⟨⟨1, rfl, by decide⟩, ⟨2, rfl, by decide⟩, by simp⟩

end RollupLayout

end EventQuery
