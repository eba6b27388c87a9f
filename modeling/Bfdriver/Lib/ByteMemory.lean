import Mathlib.Data.List.Basic

/-! # Byte memory

A flat memory of bytes at 64-bit addresses. An extent is counted from its base and may wrap at the end of the address
space, so that an address lies in it if its distance from the base is small enough. Words of several bytes are
little-endian. -/

namespace ByteMemory

/-! ### Extents -/

/-- The `len` bytes from `base` on. -/
structure Extent where
  base : UInt64
  len : Nat
  deriving Repr, DecidableEq

instance : Membership UInt64 Extent := ⟨fun r a => (a - r.base).toNat < r.len⟩

instance (a : UInt64) (r : Extent) : Decidable (a ∈ r) := inferInstanceAs (Decidable (_ < _))

namespace Extent
variable {r s : Extent} {a base : UInt64} {i len : Nat}

theorem mem_def : a ∈ r ↔ (a - r.base).toNat < r.len := Iff.rfl

/-- The distances between the bases leave room for both extents. -/
def Apart (r s : Extent) : Prop := r.len ≤ (s.base - r.base).toNat ∧ s.len ≤ (r.base - s.base).toNat

/-- Counted from the base of `s`, the extent `r` ends before `s` does. -/
def Inside (r s : Extent) : Prop := (r.base - s.base).toNat + r.len ≤ s.len

instance : Decidable (r.Apart s) := inferInstanceAs (Decidable (_ ∧ _))

instance : Decidable (r.Inside s) := inferInstanceAs (Decidable (_ ≤ _))

theorem toNat_sub (a b : UInt64) : (a - b).toNat = if b.toNat ≤ a.toNat then a.toNat - b.toNat else
    UInt64.size + a.toNat - b.toNat := by
  have ha : a.toNat < UInt64.size := a.toNat_lt
  have hb : b.toNat < UInt64.size := b.toNat_lt
  have size : UInt64.size = 2 ^ 64 := rfl
  rw [UInt64.toNat_sub]
  split
  · rw [show 2 ^ 64 - b.toNat + a.toNat = a.toNat - b.toNat + 2 ^ 64 by omega, Nat.add_mod_right]
    exact Nat.mod_eq_of_lt (by omega)
  · rw [Nat.mod_eq_of_lt (by omega)]
    omega

theorem Apart.symm (h : r.Apart s) : s.Apart r := ⟨h.2, h.1⟩

/-- Extents that are apart have no address in common. -/
theorem Apart.not_mem (h : r.Apart s) (ha : a ∈ r) : a ∉ s := by
  obtain ⟨below, above⟩ := h
  have bounds := And.intro r.base.toNat_lt (And.intro s.base.toNat_lt a.toNat_lt)
  have size : UInt64.size = 2 ^ 64 := rfl
  rw [mem_def, toNat_sub] at ha ⊢
  rw [toNat_sub] at below above
  split at ha <;> split at below <;> split at above <;> split <;> omega

theorem Inside.mem (h : r.Inside s) (ha : a ∈ r) : a ∈ s := by
  have bounds := And.intro r.base.toNat_lt (And.intro s.base.toNat_lt a.toNat_lt)
  have size : UInt64.size = 2 ^ 64 := rfl
  unfold Inside at h
  rw [mem_def, toNat_sub] at ha ⊢
  rw [toNat_sub] at h
  split at ha <;> split at h <;> split <;> omega

theorem inside_of_base : Inside ⟨base, i⟩ ⟨base, len⟩ ↔ i ≤ len := by
  simp [Inside]

/-- Extents of some length with the same base are not apart. -/
theorem not_apart_of_base (some : 0 < len) : ¬Apart ⟨base, len⟩ ⟨base, i⟩ := by
  simp [Apart]
  omega

/-! ### Offsets -/

theorem offset_sub (base : UInt64) (h : i < UInt64.size) : (base + UInt64.ofNat i - base).toNat = i := by
  rw [UInt64.add_comm, UInt64.add_sub_cancel]
  exact UInt64.toNat_ofNat_of_lt' h

theorem offset_mem (h : i < UInt64.size) : base + UInt64.ofNat i ∈ Extent.mk base len ↔ i < len := by
  rw [mem_def, offset_sub base h]

/-- An offset lies in a part of an extent that begins at another offset. -/
theorem offset_mem_offset {k : Nat} (hi : i < UInt64.size) (hk : k + len ≤ UInt64.size) (some : 0 < len) :
    base + UInt64.ofNat i ∈ Extent.mk (base + UInt64.ofNat k) len ↔ k ≤ i ∧ i < k + len := by
  have shift : base + UInt64.ofNat i - (base + UInt64.ofNat k) = UInt64.ofNat i - UInt64.ofNat k := by grind
  have small : k < UInt64.size := by omega
  rw [mem_def, shift, toNat_sub, UInt64.toNat_ofNat_of_lt' hi, UInt64.toNat_ofNat_of_lt' small]
  dsimp only
  split <;> omega

/-- The part of an extent that begins at an offset. -/
theorem mem_offset {b : UInt64} {k : Nat} (inside : k + len ≤ UInt64.size) (some : 0 < len) :
    a ∈ Extent.mk (b + UInt64.ofNat k) len ↔ k ≤ (a - b).toNat ∧ (a - b).toNat < k + len := by
  have offset : b + UInt64.ofNat (a - b).toNat = a := by
    rw [UInt64.ofNat_toNat]
    grind
  have split : b + UInt64.ofNat (a - b).toNat ∈ Extent.mk (b + UInt64.ofNat k) len ↔
      k ≤ (a - b).toNat ∧ (a - b).toNat < k + len := offset_mem_offset (a - b).toNat_lt inside some
  rwa [offset] at split

end Extent

/-! ### Memory -/

/-- The bytes of the address space. -/
abbrev Memory := UInt64 → BitVec 8

namespace Memory
variable {m : Memory} {r : Extent} {a b dst src : UInt64} {byte : BitVec 8} {i n len : Nat}

def fill (m : Memory) (r : Extent) (byte : BitVec 8) : Memory := fun a => if a ∈ r then byte else m a

def copy (m : Memory) (dst src : UInt64) (len : Nat) : Memory := fun a =>
  if a ∈ Extent.mk dst len then m (src + (a - dst)) else m a

/-- The word of `n` bytes at an address. -/
def load (m : Memory) (a : UInt64) : (n : Nat) → BitVec (8 * n)
  | 0 => 0
  | n + 1 => (m (a + UInt64.ofNat n) ++ load m a n).cast (Nat.add_comm 8 (8 * n))

def store (m : Memory) (a : UInt64) (x : BitVec (8 * n)) : Memory := fun b =>
  if b ∈ Extent.mk a n then x.extractLsb' (8 * (b - a).toNat) 8 else m b

theorem fill_of_mem (h : a ∈ r) : m.fill r byte a = byte := if_pos h

theorem fill_of_not_mem (h : a ∉ r) : m.fill r byte a = m a := if_neg h

theorem copy_offset (h : i < len) (small : i < UInt64.size) :
    m.copy dst src len (dst + UInt64.ofNat i) = m (src + UInt64.ofNat i) := by
  unfold copy
  rw [if_pos ((Extent.offset_mem small).mpr h), UInt64.add_comm dst, UInt64.add_sub_cancel]

theorem copy_of_not_mem (h : a ∉ Extent.mk dst len) : m.copy dst src len a = m a := if_neg h

theorem store_of_not_mem {x : BitVec (8 * n)} (h : b ∉ Extent.mk a n) : m.store a x b = m b := if_neg h

/-- The bits of a word are those of its bytes. -/
theorem getLsbD_load : (m.load a n).getLsbD i =
    (decide (i < 8 * n) && (m (a + UInt64.ofNat (i / 8))).getLsbD (i % 8)) := by
  induction n with
  | zero => simp [load]
  | succ n ih =>
    unfold load
    rw [BitVec.getLsbD_cast, BitVec.getLsbD_append, ih]
    by_cases low : i < 8 * n
    · simp [low, show i < 8 * (n + 1) by omega]
    · by_cases top : i < 8 * (n + 1)
      · have byte : i / 8 = n := by omega
        have bit : i - 8 * n = i % 8 := by omega
        simp [low, top, byte, bit]
      · have outside : 8 ≤ i - 8 * n := by omega
        simp [low, top, BitVec.getLsbD_of_ge _ _ outside]

/-- The bits of a word within one of its bytes. -/
theorem extractLsb'_load (k width : Nat) (inside : i < n) (bits : k + width ≤ 8) :
    (m.load a n).extractLsb' (8 * i + k) width = (m (a + UInt64.ofNat i)).extractLsb' k width := by
  refine BitVec.eq_of_getLsbD_eq fun j hj => ?_
  rw [BitVec.getLsbD_extractLsb', BitVec.getLsbD_extractLsb', getLsbD_load]
  have byte : (8 * i + k + j) / 8 = i := by omega
  have bit : (8 * i + k + j) % 8 = k + j := by omega
  simp [byte, bit, show 8 * i + k + j < 8 * n by omega]

/-- A word depends on the bytes of its extent only. -/
theorem load_congr {m' : Memory} (small : n ≤ UInt64.size) (h : ∀ b ∈ Extent.mk a n, m b = m' b) :
    m.load a n = m'.load a n := by
  refine BitVec.eq_of_getLsbD_eq fun i hi => ?_
  have offset : i / 8 < UInt64.size := by omega
  rw [getLsbD_load, getLsbD_load, h _ ((Extent.offset_mem offset).mpr (by omega))]

theorem load_store {x : BitVec (8 * n)} (small : n ≤ UInt64.size) : (m.store a x).load a n = x := by
  refine BitVec.eq_of_getLsbD_eq fun i hi => ?_
  have offset : i / 8 < UInt64.size := by omega
  rw [getLsbD_load]
  unfold store
  rw [if_pos ((Extent.offset_mem offset).mpr (by omega)), Extent.offset_sub a offset, BitVec.getLsbD_extractLsb']
  have whole : 8 * (i / 8) + i % 8 = i := by omega
  simp [hi, whole, show i % 8 < 8 by omega]

end Memory
end ByteMemory
