import Mathlib.Data.List.Basic
import Mathlib.Data.Nat.ModEq

/-! # Pages of a 64-bit address space

Addresses are rounded down to a page by a mask, and a loop walks from a page to a last address, both in the
arithmetic of machine words. This file says which pages such a walk visits: it ends exactly if none of them is
the last of the address space, it never wraps then, and it leaves out no page between its two ends. -/

namespace Pages

variable {size base len base' len' first last p a : UInt64} {n : Nat}

/-! ### Rounding -/

/-- The start of the page of an address. -/
def start (size a : UInt64) : UInt64 := a &&& ~~~(size - 1)

theorem toNat_sub {b : UInt64} (h : b.toNat ≤ a.toNat) : (a - b).toNat = a.toNat - b.toNat :=
  UInt64.toNat_sub_of_le _ _ (UInt64.le_iff_toNat_le.mpr h)

theorem pos_of_isPowerOfTwo (h : size.toNat.isPowerOfTwo) : 0 < size.toNat := by
  obtain ⟨k, hk⟩ := h
  rw [hk]
  exact Nat.two_pow_pos k

/-- The bits from the `k`-th on, as a mask of 64 bits. -/
theorem and_mask {x k : Nat} (hx : x < 2 ^ 64) (hk : k < 64) :
    x &&& (2 ^ 64 - (2 ^ k - 1 + 1)) = x / 2 ^ k * 2 ^ k := by
  have pos := Nat.two_pow_pos k
  have bound : 2 ^ k - 1 < 2 ^ 64 := by
    have := Nat.pow_lt_pow_of_lt (a := 2) (by omega) hk
    omega
  refine Nat.eq_of_testBit_eq fun i => ?_
  rw [Nat.testBit_and, Nat.testBit_two_pow_sub_succ bound, Nat.testBit_two_pow_sub_one, Nat.testBit_mul_two_pow,
    Nat.testBit_div_two_pow]
  by_cases hki : k ≤ i
  · rw [Nat.sub_add_cancel hki]
    by_cases hi : i < 64
    · simp [hki, hi, Nat.not_lt.mpr hki]
    · have above : x.testBit i = false :=
        Nat.testBit_lt_two_pow (Nat.lt_of_lt_of_le hx (Nat.pow_le_pow_right (by omega) (by omega)))
      simp [above]
  · simp [hki, Nat.lt_of_not_le hki]

/-- The mask of a page size that is a power of two rounds down to a multiple of it. -/
theorem toNat_start (h : size.toNat.isPowerOfTwo) (a : UInt64) :
    (start size a).toNat = a.toNat / size.toNat * size.toNat := by
  obtain ⟨k, hk⟩ := h
  have pos : (1 : UInt64).toNat ≤ size.toNat := by
    rw [hk]
    exact Nat.one_le_two_pow
  have below : (size - 1).toNat = 2 ^ k - 1 := by
    rw [toNat_sub pos, hk]
    rfl
  have bound : 2 ^ k < 2 ^ 64 := hk ▸ size.toNat_lt
  have mask : UInt64.size - 1 - (2 ^ k - 1) = 2 ^ 64 - (2 ^ k - 1 + 1) := by
    have : UInt64.size = 2 ^ 64 := rfl
    omega
  unfold start
  rw [UInt64.toNat_and, UInt64.toNat_not, below, hk, mask]
  exact and_mask a.toNat_lt ((Nat.pow_lt_pow_iff_right (by omega)).mp bound)

theorem dvd_start (h : size.toNat.isPowerOfTwo) (a : UInt64) : size.toNat ∣ (start size a).toNat := by
  rw [toNat_start h]
  exact Nat.dvd_mul_left ..

theorem start_le (h : size.toNat.isPowerOfTwo) (a : UInt64) : (start size a).toNat ≤ a.toNat := by
  rw [toNat_start h]
  exact Nat.div_mul_le_self ..

theorem lt_start_add (h : size.toNat.isPowerOfTwo) (a : UInt64) : a.toNat < (start size a).toNat + size.toNat := by
  rw [toNat_start h]
  exact Nat.lt_div_mul_add (pos_of_isPowerOfTwo h)

theorem start_mono (h : size.toNat.isPowerOfTwo) {a b : UInt64} (hab : a.toNat ≤ b.toNat) :
    (start size a).toNat ≤ (start size b).toNat := by
  rw [toNat_start h, toNat_start h]
  exact Nat.mul_le_mul_right _ (Nat.div_le_div_right hab)

theorem start_eq_self (h : size.toNat.isPowerOfTwo) (aligned : size.toNat ∣ a.toNat) : start size a = a := by
  refine UInt64.toNat_inj.mp ?_
  rw [toNat_start h]
  exact Nat.div_mul_cancel aligned

/-- An address within an aligned page has that page. -/
theorem start_eq_of_within (h : size.toNat.isPowerOfTwo) (aligned : size.toNat ∣ p.toNat) (lo : p.toNat ≤ a.toNat)
    (hi : a.toNat < p.toNat + size.toNat) : start size a = p := by
  obtain ⟨q, hq⟩ := aligned
  have quotient : a.toNat / size.toNat = q := by
    refine Nat.div_eq_of_lt_le ?_ ?_
    · rwa [Nat.mul_comm, ← hq]
    · rwa [Nat.succ_mul, Nat.mul_comm, ← hq]
  refine UInt64.toNat_inj.mp ?_
  rw [toNat_start h, quotient, hq, Nat.mul_comm]

theorem dvd_size (h : size.toNat.isPowerOfTwo) : size.toNat ∣ UInt64.size := by
  obtain ⟨k, hk⟩ := h
  have bound : 2 ^ k < 2 ^ 64 := hk ▸ size.toNat_lt
  rw [hk]
  exact Nat.pow_dvd_pow 2 (Nat.le_of_lt ((Nat.pow_lt_pow_iff_right (by omega)).mp bound))

/-! ### Regions -/

/-- The address lies in the `len` bytes from `base` on. -/
def Within (base len a : UInt64) : Prop := base.toNat ≤ a.toNat ∧ a.toNat < base.toNat + len.toNat

/-- Two regions have an address in common. -/
def Meets (base len base' len' : UInt64) : Prop := ∃ a, Within base len a ∧ Within base' len' a

theorem meets_iff : Meets base len base' len' ↔
    base.toNat < base'.toNat + len'.toNat ∧ base'.toNat < base.toNat + len.toNat ∧ 0 < len.toNat ∧ 0 < len'.toNat := by
  constructor
  · rintro ⟨a, ⟨lo, hi⟩, lo', hi'⟩
    omega
  · rintro ⟨below, below', some, some'⟩
    rcases Nat.le_total base.toNat base'.toNat with le | le
    · exact ⟨base', ⟨le, below'⟩, Nat.le_refl _, by omega⟩
    · exact ⟨base, ⟨Nat.le_refl _, by omega⟩, le, below⟩

instance : Decidable (Meets base len base' len') := decidable_of_iff _ meets_iff.symm

theorem Meets.of_within (h : Meets base len base' len') {base'' len'' : UInt64}
    (inside : ∀ a, Within base' len' a → Within base'' len'' a) : Meets base len base'' len'' := by
  obtain ⟨a, ha, ha'⟩ := h
  exact ⟨a, ha, inside a ha'⟩

/-! ### Walks -/

/-- The pages that a loop visits from `first` on, in steps of `size` while they are at most `last`. -/
def walk (size last : UInt64) : Nat → UInt64 → List UInt64
  | 0, _ => []
  | n + 1, p => if p ≤ last then p :: walk size last n (p + size) else []

/-- The walk ends before its steps are used up. -/
def Ends (size last : UInt64) (n : Nat) (first : UInt64) : Prop := (walk size last n first).length < n

/-- No page from `first` to `last` is the last one of the address space. -/
def Room (size last first : UInt64) : Prop :=
  ∀ j, first.toNat + j * size.toNat ≤ last.toNat → first.toNat + (j + 1) * size.toNat < UInt64.size

theorem walk_of_le (h : p ≤ last) : walk size last (n + 1) p = p :: walk size last n (p + size) := if_pos h

theorem walk_of_not_le (h : ¬p ≤ last) : walk size last (n + 1) p = [] := if_neg h

theorem toNat_step (h : p.toNat + size.toNat < UInt64.size) : (p + size).toNat = p.toNat + size.toNat := by
  rw [UInt64.toNat_add]
  exact Nat.mod_eq_of_lt h

theorem ends_succ_iff (h : p ≤ last) : Ends size last (n + 1) p ↔ Ends size last n (p + size) := by
  unfold Ends
  rw [walk_of_le h, List.length_cons, Nat.add_lt_add_iff_right]

/-! ### The end of a walk -/

theorem room_of_lt (h : last.toNat + size.toNat < UInt64.size) : Room size last first := fun j hj => by
  rw [Nat.succ_mul]
  omega

theorem Room.toNat_step (room : Room size last first) (h : first ≤ last) :
    (first + size).toNat = first.toNat + size.toNat := by
  refine Pages.toNat_step ?_
  simpa using room 0 (by simpa using UInt64.le_iff_toNat_le.mp h)

theorem Room.step (room : Room size last first) (h : first ≤ last) : Room size last (first + size) := fun j hj => by
  have shift : ∀ i, (first + size).toNat + i * size.toNat = first.toNat + (i + 1) * size.toNat := fun i => by
    rw [room.toNat_step h, Nat.succ_mul]
    omega
  rw [shift] at hj ⊢
  exact room (j + 1) hj

/-- A walk that can reach the last page of the address space goes on forever. -/
theorem walk_endless (hs : size.toNat.isPowerOfTwo) {top : UInt64} (htop : top ≤ last)
    (wraps : UInt64.size ≤ top.toNat + size.toNat) (h : p.toNat ≡ top.toNat [MOD size.toNat]) :
    (walk size last n p).length = n := by
  induction n generalizing p with
  | zero => rfl
  | succ n ih =>
    have le : p.toNat ≤ top.toNat := by
      by_contra above
      have gap := (Nat.modEq_iff_dvd' (Nat.le_of_not_le above)).mp h.symm
      have far := Nat.le_of_dvd (by omega) gap
      have : p.toNat < UInt64.size := p.toNat_lt
      omega
    have next : (p + size).toNat ≡ top.toNat [MOD size.toNat] := by
      rw [UInt64.toNat_add]
      have whole : (p.toNat + size.toNat) % 2 ^ 64 ≡ p.toNat + size.toNat [MOD size.toNat] :=
        (Nat.mod_modEq _ _).of_dvd (dvd_size hs)
      exact (whole.trans (by simp [Nat.ModEq])).trans h
    rw [walk_of_le (UInt64.le_trans (UInt64.le_iff_toNat_le.mpr le) htop), List.length_cons, ih next]

theorem Ends.room (hs : size.toNat.isPowerOfTwo) (h : Ends size last n first) : Room size last first := by
  intro j hj
  by_contra wraps
  have bound : first.toNat + j * size.toNat < UInt64.size := Nat.lt_of_le_of_lt hj last.toNat_lt
  have top : (UInt64.ofNat (first.toNat + j * size.toNat)).toNat = first.toNat + j * size.toNat :=
    Nat.mod_eq_of_lt bound
  have htop : UInt64.ofNat (first.toNat + j * size.toNat) ≤ last := by rwa [UInt64.le_iff_toNat_le, top]
  refine Nat.ne_of_lt h (walk_endless hs htop ?_ ?_)
  · rw [Nat.succ_mul] at wraps
    omega
  · rw [top]
    simp [Nat.ModEq]

theorem Room.ends_of_le (pos : 0 < size.toNat) (room : Room size last first) (some : 0 < n)
    (enough : last.toNat + 2 ≤ first.toNat + n) : Ends size last n first := by
  induction n generalizing first with
  | zero => exact absurd some (Nat.lt_irrefl 0)
  | succ n ih =>
    by_cases h : first ≤ last
    · have le := UInt64.le_iff_toNat_le.mp h
      have next := room.toNat_step h
      rw [ends_succ_iff h]
      exact ih (room.step h) (by omega) (by omega)
    · unfold Ends
      rw [walk_of_not_le h]
      exact some

/-- No walk has more steps than there are addresses. -/
theorem Room.ends (pos : 0 < size.toNat) (room : Room size last first) (enough : UInt64.size ≤ n) :
    Ends size last n first := by
  have top : last.toNat < UInt64.size := last.toNat_lt
  refine room.ends_of_le pos (Nat.lt_of_lt_of_le (by decide) enough) ?_
  by_cases h : first ≤ last
  · have whole : (last.toNat - first.toNat) / size.toNat * size.toNat ≤ last.toNat - first.toNat :=
      Nat.div_mul_le_self ..
    have rest := Nat.lt_div_mul_add (a := last.toNat - first.toNat) pos
    have le := UInt64.le_iff_toNat_le.mp h
    have last := room ((last.toNat - first.toNat) / size.toNat) (by omega)
    rw [Nat.succ_mul] at last
    omega
  · have := Nat.lt_of_not_le fun le => h (UInt64.le_iff_toNat_le.mpr le)
    omega

/-! ### The pages of a walk -/

theorem Room.of_mem_walk (room : Room size last first) (h : p ∈ walk size last n first) :
    ∃ j, p.toNat = first.toNat + j * size.toNat ∧ p.toNat ≤ last.toNat := by
  induction n generalizing first with
  | zero => cases h
  | succ n ih =>
    by_cases le : first ≤ last
    · rw [walk_of_le le] at h
      rcases List.mem_cons.mp h with rfl | h
      · exact ⟨0, by omega, UInt64.le_iff_toNat_le.mp le⟩
      · obtain ⟨j, hj, hp⟩ := ih (room.step le) h
        refine ⟨j + 1, ?_, hp⟩
        rw [hj, room.toNat_step le, Nat.succ_mul]
        omega
    · rw [walk_of_not_le le] at h
      cases h

/-- A walk that ends has visited every page between its ends. -/
theorem Ends.mem_walk (ends : Ends size last n first) {j : Nat} (hj : p.toNat = first.toNat + j * size.toNat)
    (h : p.toNat ≤ last.toNat) : p ∈ walk size last n first := by
  induction n generalizing first j with
  | zero => exact absurd ends (Nat.not_lt_zero _)
  | succ n ih =>
    have le : first ≤ last := by
      rw [UInt64.le_iff_toNat_le]
      omega
    rw [walk_of_le le]
    cases j with
    | zero => exact List.mem_cons.mpr (.inl (UInt64.toNat_inj.mp (by omega)))
    | succ j =>
      rw [Nat.succ_mul] at hj
      have bound : p.toNat < UInt64.size := p.toNat_lt
      have next : (first + size).toNat = first.toNat + size.toNat := Pages.toNat_step (by omega)
      exact List.mem_cons_of_mem _ (ih ((ends_succ_iff le).mp ends) (j := j) (by omega))

theorem Room.ascending (pos : 0 < size.toNat) (room : Room size last first) :
    (walk size last n first).Pairwise (· < ·) := by
  induction n generalizing first with
  | zero => exact .nil
  | succ n ih =>
    by_cases le : first ≤ last
    · rw [walk_of_le le]
      refine .cons (fun q hq => ?_) (ih (room.step le))
      obtain ⟨j, hj, -⟩ := (room.step le).of_mem_walk hq
      rw [room.toNat_step le] at hj
      rw [UInt64.lt_iff_toNat_lt]
      omega
    · rw [walk_of_not_le le]
      exact .nil

/-- The step behind a visited page does not wrap. -/
theorem Room.no_wrap (room : Room size last first) (h : p ∈ walk size last n first) :
    p.toNat + size.toNat < UInt64.size := by
  obtain ⟨j, hj, hp⟩ := room.of_mem_walk h
  have next := room j (hj ▸ hp)
  rw [Nat.succ_mul] at next
  omega

/-! ### Walks over a region -/

/-- A walk from an aligned page that ends has visited the page of every address from there to its last page. -/
theorem Ends.covers (hs : size.toNat.isPowerOfTwo) (ends : Ends size last n first)
    (aligned : size.toNat ∣ first.toNat) (before : first.toNat ≤ a.toNat) (behind : (start size a).toNat ≤ last.toNat) :
    start size a ∈ walk size last n first := by
  have le : first.toNat ≤ (start size a).toNat := by
    have mono := start_mono hs before
    rwa [start_eq_self hs aligned] at mono
  obtain ⟨j, hj⟩ := Nat.dvd_sub (dvd_start hs a) aligned
  refine ends.mem_walk (j := j) ?_ behind
  rw [Nat.mul_comm] at hj
  omega

/-- Every page of a walk from the page of `base` to the end of the region, at most, has an address of the region,
    unless both the first page and the end of the region are aligned. -/
theorem Room.meets (hs : size.toNat.isPowerOfTwo) (room : Room size last first) (some : 0 < len.toNat)
    (from_start : (start size base).toNat ≤ first.toNat) (to_end : last.toNat ≤ base.toNat + len.toNat)
    (uneven : ¬(size.toNat ∣ first.toNat ∧ size.toNat ∣ base.toNat + len.toNat)) (h : p ∈ walk size last n first) :
    Meets (start size p) size base len := by
  obtain ⟨j, hj, hp⟩ := room.of_mem_walk h
  have below := start_le hs p
  have mono : (start size base).toNat ≤ (start size p).toNat := by
    have aligned := start_eq_self hs (dvd_start hs base)
    rw [← aligned]
    exact start_mono hs (by omega)
  have next := lt_start_add hs base
  refine meets_iff.mpr ⟨?_, by omega, pos_of_isPowerOfTwo hs, some⟩
  by_contra behind
  have atEnd : (start size p).toNat = base.toNat + len.toNat := by omega
  have dvd := dvd_start hs p
  have first_dvd : size.toNat ∣ first.toNat := by
    have same : p.toNat = (start size p).toNat := by omega
    rw [← same, hj] at dvd
    exact (Nat.dvd_add_left (Nat.dvd_mul_left ..)).mp dvd
  exact uneven ⟨first_dvd, atEnd ▸ dvd⟩

/-- A walk that ends and gets to the end of its region visits a page outside of it if both are aligned. -/
theorem Ends.exists_not_meets (hs : size.toNat.isPowerOfTwo) (ends : Ends size last n first)
    (whole : base.toNat + len.toNat < UInt64.size) (before : first.toNat ≤ base.toNat + len.toNat)
    (to_end : base.toNat + len.toNat ≤ last.toNat) (aligned : size.toNat ∣ first.toNat)
    (even : size.toNat ∣ base.toNat + len.toNat) :
    ∃ p ∈ walk size last n first, ¬Meets (start size p) size base len := by
  have atEnd : (base + len).toNat = base.toNat + len.toNat := toNat_step whole
  have same : start size (base + len) = base + len := start_eq_self hs (by rwa [atEnd])
  obtain ⟨j, hj⟩ := Nat.dvd_sub even aligned
  refine ⟨base + len, ends.mem_walk (j := j) ?_ (by omega), fun meets => ?_⟩
  · rw [Nat.mul_comm] at hj
    omega
  · rw [same, meets_iff] at meets
    omega

end Pages
