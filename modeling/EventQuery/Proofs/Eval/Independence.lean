import EventQuery.Proofs.Eval.Stateless

/-!
Code that ignores a slot. What such code gives on a frame does not depend on the event in that slot,
so a lookup may evaluate it once, on the matching frame, instead of once for every stored event.
-/

namespace EventQuery

namespace Frame

theorem slot_setSlot (f : Frame) (i j : Nat) (e : Option Event) :
    (f.setSlot i e).slot j = if j = i then e else f.slot j := by
  simp only [setSlot, slot]
  split
  · rename_i hji
    subst hji
    have hlength : j < (f.slots ++ List.replicate (j + 1 - f.slots.length) none).length := by
      simp; omega
    simp [List.getElem?_set_self hlength]
  · rename_i hji
    rw [List.getElem?_set_ne (Ne.symm hji), List.getElem?_append]
    split
    · rfl
    · rename_i hbeyond
      rw [List.getElem?_eq_none (Nat.le_of_not_lt hbeyond), List.getElem?_replicate]
      split <;> rfl

/-- Two frames have the same events in all slots but one. -/
def AgreeOff (slot : Nat) (f g : Frame) : Prop := ∀ i, i ≠ slot → f.slot i = g.slot i

theorem AgreeOff.setSlot {slot : Nat} {f g : Frame} (h : AgreeOff slot f g) (i : Nat)
    (e : Option Event) :
    AgreeOff slot (f.setSlot i e) (g.setSlot i e) := by
  intro j hj
  rw [slot_setSlot, slot_setSlot, h j hj]

theorem agreeOff_setSlot (f : Frame) (slot : Nat) (e : Option Event) :
    AgreeOff slot (f.setSlot slot e) f := by
  intro i hi
  rw [slot_setSlot, if_neg hi]

end Frame

namespace Code

mutual

/-- No variable is read from a slot, and it is not tested for being empty. -/
def ignores (slot : Nat) : Code → Bool
  | .const _ | .count _ => true
  | .read s _ _ | .slotEmpty s => s ≠ slot
  | .and l r | .or l r | .compare _ l r | .arith _ l r _ => ignores slot l && ignores slot r
  | .not e | .isNull e | .member e _ _ | .fold _ e _ _ => ignores slot e
  | .call _ args _ => allIgnore slot args

/-- No argument of a list reads a slot. -/
def allIgnore (slot : Nat) : List Code → Bool
  | [] => true
  | c :: cs => ignores slot c && allIgnore slot cs

end

mutual

/-- The value of code that ignores a slot is the same whatever the slot holds. -/
theorem value_congr {slot : Nat} (rows : SourceRows) :
    ∀ (c : Code) {f g : Frame}, c.ignores slot = true → Frame.AgreeOff slot f g →
      c.value rows f = c.value rows g
  | .const _, _, _, _, _ | .count _, _, _, _, _ | .fold .., _, _, _, _ => rfl
  | .read s position type, f, g, h, hag => by
      have hs : s ≠ slot := by simpa [ignores] using h
      simp only [value, hag s hs]
  | .slotEmpty s, f, g, h, hag => by
      have hs : s ≠ slot := by simpa [ignores] using h
      simp only [value, hag s hs]
  | .and l r, f, g, h, hag | .or l r, f, g, h, hag
  | .compare _ l r, f, g, h, hag | .arith _ l r _, f, g, h, hag => by
      simp only [ignores, Bool.and_eq_true] at h
      simp only [value, value_congr rows l h.1 hag, value_congr rows r h.2 hag]
  | .not e, f, g, h, hag | .isNull e, f, g, h, hag => by
      simp only [value, value_congr rows e h hag]
  | .member e source s, f, g, h, hag => by
      -- The rows of the source go into a slot of both frames, which still agree afterwards.
      simp only [value, fun row => value_congr rows e h (hag.setSlot s (some row))]
  | .call fn args type, f, g, h, hag => by
      simp only [value, values_congr rows args h hag]

theorem values_congr {slot : Nat} (rows : SourceRows) :
    ∀ (cs : List Code) {f g : Frame}, allIgnore slot cs = true → Frame.AgreeOff slot f g →
      values rows cs f = values rows cs g
  | [], _, _, _, _ => rfl
  | c :: cs, f, g, h, hag => by
      simp only [allIgnore, Bool.and_eq_true] at h
      simp only [values, value_congr rows c h.1 hag, values_congr rows cs h.2 hag]

end

theorem decision_congr {slot : Nat} {rows : SourceRows} {c : Code} (h : c.ignores slot = true)
    {f g : Frame} (hag : Frame.AgreeOff slot f g) : c.decision rows f = c.decision rows g := by
  simp only [decision, value_congr rows c h hag]

end Code

end EventQuery
