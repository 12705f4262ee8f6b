import Mathlib.Algebra.BigOperators.Group.List.Basic
import Mathlib.Data.Int.ModEq

/-!
# Machine integers and wrapping counters

Unsigned `w`-bit arithmetic on naturals, with every wrap written out, and the
two conversions of a signed integer.

A counter *tracks* a quantity when it holds it modulo `2 ^ w`.  Tracking
survives additions and subtractions whatever the amounts, so a counter that is
charged and released in pairs tracks the sum of what is still charged; while
that sum fits in the word the counter is exact and no release wraps below zero.
-/

namespace Wrapping

/-- Unsigned addition. -/
def add (w a b : Nat) : Nat := (a + b) % 2 ^ w

/-- Unsigned subtraction. -/
def sub (w a b : Nat) : Nat := (a + (2 ^ w - b % 2 ^ w)) % 2 ^ w

/-- Unsigned multiplication. -/
def mul (w a b : Nat) : Nat := (a * b) % 2 ^ w

/-- Conversion of an integer to the unsigned type. -/
def ofInt (w : Nat) (x : Int) : Nat := (x % 2 ^ w).toNat

/-- Conversion of an integer to the signed type. -/
def toSigned (w : Nat) (x : Int) : Int := x.bmod (2 ^ w)

theorem add_lt (w a b : Nat) : add w a b < 2 ^ w :=
  Nat.mod_lt _ (Nat.two_pow_pos w)

theorem sub_lt (w a b : Nat) : sub w a b < 2 ^ w :=
  Nat.mod_lt _ (Nat.two_pow_pos w)

theorem mul_lt (w a b : Nat) : mul w a b < 2 ^ w :=
  Nat.mod_lt _ (Nat.two_pow_pos w)

/-- An addition that fits is exact. -/
theorem add_of_lt {w a b : Nat} (h : a + b < 2 ^ w) : add w a b = a + b :=
  Nat.mod_eq_of_lt h

/-- A subtraction of no more than what is there is exact. -/
theorem sub_of_le {w a b : Nat} (ha : a < 2 ^ w) (hb : b ≤ a) :
    sub w a b = a - b := by
  have hmod : b % 2 ^ w = b := Nat.mod_eq_of_lt (by omega)
  have hsum : a + (2 ^ w - b) = (a - b) + 2 ^ w := by omega
  rw [sub, hmod, hsum, Nat.add_mod_right, Nat.mod_eq_of_lt (by omega)]

/-- Adding `x` to a residue comes back to it when `x` is a multiple of the
modulus. -/
theorem add_mod_eq_self {m c x : Nat} (hc : c < m) : (c + x) % m = c ↔ m ∣ x := by
  constructor
  · intro h
    have hmod : c + x ≡ c + 0 [MOD m] := by
      rw [Nat.ModEq, h, Nat.add_zero, Nat.mod_eq_of_lt hc]
    exact Nat.modEq_zero_iff_dvd.mp (Nat.ModEq.add_left_cancel' c hmod)
  · rintro ⟨q, rfl⟩
    rw [Nat.add_mul_mod_self_left, Nat.mod_eq_of_lt hc]

/-- Charging the same amount over and over. -/
theorem add_iterate {w c : Nat} (hc : c < 2 ^ w) (b k : Nat) :
    (fun x => add w x b)^[k] c = (c + k * b) % 2 ^ w := by
  induction k with
  | zero => simp [Nat.mod_eq_of_lt hc]
  | succ k ih =>
      rw [Function.iterate_succ_apply', ih, add, Nat.mod_add_mod, Nat.succ_mul, Nat.add_assoc]

/-- Releasing the same amount over and over comes round when charging it does. -/
theorem sub_iterate_eq_self {w c : Nat} (hc : c < 2 ^ w) {b k : Nat} (h : 2 ^ w ∣ k * b) :
    (fun x => sub w x b)^[k] c = c := by
  have hround : (fun x => sub w x b)^[k] c = (c + k * (2 ^ w - b % 2 ^ w)) % 2 ^ w :=
    add_iterate hc (2 ^ w - b % 2 ^ w) k
  rw [hround, add_mod_eq_self hc]
  have hle : b % 2 ^ w ≤ 2 ^ w := (Nat.mod_lt b (Nat.two_pow_pos w)).le
  have hmod : 2 ^ w ∣ k * (b % 2 ^ w) := by
    rw [Nat.dvd_iff_mod_eq_zero, Nat.mul_mod_mod]
    exact Nat.mod_eq_zero_of_dvd h
  rw [Nat.mul_sub]
  exact Nat.dvd_sub (Nat.dvd_mul_left _ _) hmod

/-- Below half the modulus, conversion to the signed type changes nothing. -/
theorem toSigned_of_lt {w n : Nat} (h : 2 * n < 2 ^ w) :
    toSigned w (n : Int) = n := by
  unfold toSigned
  generalize 2 ^ w = m at h
  rw [Int.bmod_eq_of_le] <;> omega

/-- An integer in the range of the signed type is kept. -/
theorem toSigned_of_range {w : Nat} {x : Int} (hlow : -(2 ^ w) ≤ 2 * x)
    (hhigh : 2 * x < 2 ^ w) : toSigned w x = x := by
  unfold toSigned
  have hcast : ((2 ^ w : Nat) : Int) = 2 ^ w := by push_cast; rfl
  rw [← hcast] at hlow hhigh
  generalize 2 ^ w = m at hlow hhigh
  rw [Int.bmod_eq_of_le] <;> omega

/-- A natural in the range of the unsigned type is kept. -/
theorem ofInt_of_lt {w n : Nat} (h : n < 2 ^ w) : ofInt w (n : Int) = n := by
  have hmod : (n : Int) % 2 ^ w = ((n % 2 ^ w : Nat) : Int) := by push_cast; rfl
  rw [ofInt, hmod, Int.toNat_natCast, Nat.mod_eq_of_lt h]

/-- The values of the signed type. -/
theorem toSigned_range {w : Nat} (hw : 0 < w) (x : Int) :
    -(2 ^ w) ≤ 2 * toSigned w x ∧ 2 * toSigned w x < 2 ^ w := by
  obtain ⟨n, rfl⟩ : ∃ n, w = n + 1 := ⟨w - 1, by omega⟩
  have hpos : 0 < 2 ^ (n + 1) := Nat.two_pow_pos (n + 1)
  have hlow := Int.le_bmod (x := x) hpos
  have hhigh := Int.bmod_lt (x := x) hpos
  have heven : (2 : Int) ^ (n + 1) = 2 * 2 ^ n := pow_succ' 2 n
  unfold toSigned
  push_cast at hlow hhigh
  omega

/-- Integers that differ by one stay different as signed words. -/
theorem toSigned_succ_ne {w : Nat} (hw : 0 < w) (x : Int) :
    toSigned w (x + 1) ≠ x := by
  intro h
  have hmod : (x + 1) % ((2 ^ w : Nat) : Int) = x % ((2 ^ w : Nat) : Int) := by
    rw [← Int.bmod_emod (x := x + 1), ← toSigned, h]
  have hdvd : ((2 ^ w : Nat) : Int) ∣ 1 := by
    have hsub := Int.emod_eq_emod_iff_emod_sub_eq_zero.mp hmod
    have hone : x + 1 - x = 1 := by omega
    rw [hone] at hsub
    exact Int.dvd_of_emod_eq_zero hsub
  have hle := Int.le_of_dvd (by decide) hdvd
  have hpow : 2 ≤ 2 ^ w := by
    calc 2 = 2 ^ 1 := rfl
      _ ≤ 2 ^ w := Nat.pow_le_pow_right (by decide) hw
  omega

/-- Wrapping a product keeps it even. -/
theorem two_dvd_mul {w a b : Nat} (hw : 0 < w) (h : 2 ∣ a * b) : 2 ∣ mul w a b :=
  (Nat.dvd_mod_iff (dvd_pow_self 2 hw.ne')).mpr h

theorem two_dvd_emod {x m : Int} (hm : 2 ∣ m) : 2 ∣ x % m ↔ 2 ∣ x := by
  rw [Int.dvd_iff_emod_eq_zero, Int.emod_emod_of_dvd x hm, ← Int.dvd_iff_emod_eq_zero]

theorem two_dvd_toSigned {w : Nat} (hw : 0 < w) {x : Int} (h : 2 ∣ x) :
    2 ∣ toSigned w x := by
  have hpow : (2 : Int) ∣ ((2 ^ w : Nat) : Int) := by
    exact_mod_cast dvd_pow_self 2 hw.ne'
  have hmod : (x.bmod (2 ^ w)) % ((2 ^ w : Nat) : Int) = x % ((2 ^ w : Nat) : Int) :=
    Int.bmod_emod
  rw [toSigned, ← two_dvd_emod hpow, hmod, two_dvd_emod hpow]
  exact h

theorem two_dvd_ofInt {w : Nat} (hw : 0 < w) {x : Int} (h : 2 ∣ x) : 2 ∣ ofInt w x := by
  have hpow : (2 : Int) ∣ 2 ^ w := dvd_pow_self 2 hw.ne'
  have hx : (2 : Int) ∣ x % 2 ^ w := (two_dvd_emod hpow).mpr h
  have hnonneg : 0 ≤ x % 2 ^ w := Int.emod_nonneg x (pow_ne_zero w (by decide))
  unfold ofInt
  omega

/-- The counter `c` holds the quantity `n` modulo `2 ^ w`. -/
def Tracks (w c n : Nat) : Prop := c = n % 2 ^ w

namespace Tracks

variable {w c n k : Nat}

theorem zero (w : Nat) : Tracks w 0 0 := by simp [Tracks]

/-- Charging an amount adds it to what is tracked. -/
theorem charge (h : Tracks w c n) (k : Nat) : Tracks w (add w c k) (n + k) := by
  have hc : c = n % 2 ^ w := h
  rw [Tracks, add, hc, Nat.mod_add_mod]

/-- Releasing an amount takes it out of what is tracked. -/
theorem release (h : Tracks w c (n + k)) : Tracks w (sub w c k) n := by
  have hc : c = (n + k) % 2 ^ w := h
  have hk : k % 2 ^ w < 2 ^ w := Nat.mod_lt _ (Nat.two_pow_pos w)
  have hsplit : (n + k) + (2 ^ w - k % 2 ^ w) = n + 2 ^ w * (k / 2 ^ w + 1) := by
    have := Nat.div_add_mod k (2 ^ w)
    rw [Nat.mul_add]
    omega
  rw [Tracks, sub, hc, Nat.mod_add_mod, hsplit, Nat.add_mul_mod_self_left]

/-- A quantity that fits is tracked exactly. -/
theorem exact (h : Tracks w c n) (hn : n < 2 ^ w) : c = n := by
  rw [h, Nat.mod_eq_of_lt hn]

end Tracks

/-- A sum over some members of a list. -/
theorem sum_map_ite {α : Type} {l : List α} {p : α → Bool} {f : α → Nat} :
    (l.map (fun a => if p a then f a else 0)).sum = ((l.filter p).map f).sum := by
  induction l with
  | nil => rfl
  | cons a rest ih =>
      by_cases hp : p a
      · simp [hp, ih]
      · simp [hp, ih]

/-- Replacing one member of a list moves the sum by the difference. -/
theorem sum_set {α : Type} (f : α → Nat) {l : List α} {n : Nat} {x y : α} (h : l[n]? = some x) :
    ((l.set n y).map f).sum + f x = (l.map f).sum + f y := by
  induction l generalizing n with
  | nil => simp at h
  | cons first rest ih =>
      cases n with
      | zero =>
          obtain rfl : first = x := by simpa using h
          simp only [List.set_cons_zero, List.map_cons, List.sum_cons]
          omega
      | succ n =>
          have hrest := ih (n := n) (by simpa using h)
          simp only [List.set_cons_succ, List.map_cons, List.sum_cons]
          omega

/-- Taking one member out of a duplicate-free list takes its share out of the
sum. -/
theorem sum_erase {α : Type} [DecidableEq α] (f : α → Nat) {l : List α} {a : α}
    (h : a ∈ l) : (l.map f).sum = ((l.erase a).map f).sum + f a := by
  have hperm := (List.perm_cons_erase h).map f
  rw [hperm.sum_eq, List.map_cons, List.sum_cons, Nat.add_comm]

end Wrapping
