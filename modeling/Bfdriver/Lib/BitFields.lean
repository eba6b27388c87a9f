import Mathlib.Data.Nat.Notation

/-! # Bit fields

A field is a run of bits of a word. An assignment to a field reads the word, changes the bits of the field and writes
it back, so that fields which have no bit in common do not see each other. -/

/-- The `width` bits from bit `shift` on. -/
structure BitField where
  shift : Nat
  width : Nat
  deriving Repr, DecidableEq

namespace BitField

variable {w : Nat} {f g : BitField}

def get (f : BitField) (x : BitVec w) : BitVec f.width := x.extractLsb' f.shift f.width

/-- The word with the bits of the field, all others being zero. -/
def mask (f : BitField) (w : Nat) : BitVec w := (BitVec.allOnes f.width).setWidth w <<< f.shift

def set (f : BitField) (v : BitVec f.width) (x : BitVec w) : BitVec w :=
  x &&& ~~~f.mask w ||| v.setWidth w <<< f.shift

/-- The fields have no bit in common. -/
def Apart (f g : BitField) : Prop := f.shift + f.width ≤ g.shift ∨ g.shift + g.width ≤ f.shift

instance : Decidable (f.Apart g) := inferInstanceAs (Decidable (_ ∨ _))

theorem getLsbD_get (x : BitVec w) (i : Nat) :
    (f.get x).getLsbD i = (decide (i < f.width) && x.getLsbD (f.shift + i)) := BitVec.getLsbD_extractLsb' ..

theorem getLsbD_set {v : BitVec f.width} {x : BitVec w} {i : Nat} (h : i < w) : (f.set v x).getLsbD i =
    if f.shift ≤ i ∧ i < f.shift + f.width then v.getLsbD (i - f.shift) else x.getLsbD i := by
  unfold set mask
  rw [BitVec.getLsbD_or, BitVec.getLsbD_and, BitVec.getLsbD_not, BitVec.getLsbD_shiftLeft, BitVec.getLsbD_shiftLeft,
    BitVec.getLsbD_setWidth, BitVec.getLsbD_setWidth, BitVec.getLsbD_allOnes]
  by_cases below : i < f.shift
  · simp [below, h, Nat.not_le.mpr below]
  · by_cases within : i < f.shift + f.width
    · have bit : i - f.shift < f.width := by omega
      simp [below, within, bit, h, Nat.le_of_not_lt below, show i - f.shift < w by omega]
    · have bit : f.width ≤ i - f.shift := by omega
      simp [within, h, Nat.not_lt.mpr bit, BitVec.getLsbD_of_ge v _ bit]

theorem get_set (h : f.shift + f.width ≤ w) (v : BitVec f.width) (x : BitVec w) : f.get (f.set v x) = v := by
  refine BitVec.eq_of_getLsbD_eq fun i hi => ?_
  rw [getLsbD_get, getLsbD_set (by omega)]
  simp [hi]

theorem get_set_of_apart (apart : f.Apart g) (v : BitVec g.width) (x : BitVec w) : f.get (g.set v x) = f.get x := by
  refine BitVec.eq_of_getLsbD_eq fun i hi => ?_
  rw [getLsbD_get, getLsbD_get]
  by_cases inside : f.shift + i < w
  · unfold Apart at apart
    rw [getLsbD_set inside, if_neg (by omega)]
  · rw [BitVec.getLsbD_of_ge _ _ (Nat.le_of_not_lt inside), BitVec.getLsbD_of_ge _ _ (Nat.le_of_not_lt inside)]

end BitField
