import Mathlib.Algebra.Order.Field.Power
import Mathlib.Algebra.Order.Field.Rat
import Mathlib.Tactic.FieldSimp
import Mathlib.Tactic.Linarith
import Mathlib.Tactic.Ring
import Stockroom.Proofs.Amounts

namespace Stockroom

/- Quotients -/

theorem divideRounded_bounds (tie : Tie) (n : Nat) {d : Nat} (hd : 0 < d) :
    2 * n ≤ 2 * (divideRounded tie n d * d) + d ∧ 2 * (divideRounded tie n d * d) ≤ 2 * n + d := by
  have whole := Nat.div_add_mod' n d
  have rest := Nat.mod_lt n hd
  unfold divideRounded
  by_cases up : tie.carries (n / d) (n % d) d
  · have half : d ≤ 2 * (n % d) := by
      by_contra below
      simp [Tie.carries, Nat.not_le.mp below] at up
    rw [if_pos up, Nat.add_mul]
    omega
  · have half : 2 * (n % d) ≤ d := by
      by_contra above
      simp only [Tie.carries] at up
      rw [if_neg (by omega), if_pos (by omega)] at up
      exact up rfl
    rw [if_neg up]
    omega

theorem divideRounded_near (tie : Tie) (n : Nat) {d : Nat} (hd : 0 < d) :
    |(divideRounded tie n d : ℚ) - n / d| ≤ 1 / 2 := by
  have positive : (0 : ℚ) < d := by exact_mod_cast hd
  obtain ⟨low, high⟩ := divideRounded_bounds tie n hd
  have low' : (2 * n : ℚ) ≤ 2 * (divideRounded tie n d * d) + d := by exact_mod_cast low
  have high' : (2 * (divideRounded tie n d * d) : ℚ) ≤ 2 * n + d := by exact_mod_cast high
  have product : (n : ℚ) / d * d = n := div_mul_cancel₀ _ positive.ne'
  rw [abs_le]
  constructor
  · nlinarith
  · nlinarith

theorem scaleQuotient_pos {b : Nat} (hb : b ≠ 0) (k : Int) (n : Nat) {d : Nat} (hd : 0 < d) :
    0 < (scaleQuotient b k n d).2 := by
  unfold scaleQuotient
  split
  · exact hd
  · positivity

theorem scaleQuotient_value (base : Nat) (k : Int) (n d : Nat) :
    ((scaleQuotient base k n d).1 : ℚ) / (scaleQuotient base k n d).2 =
      n / d * (base : ℚ) ^ k := by
  unfold scaleQuotient
  split
  · rename_i up
    obtain ⟨j, rfl⟩ := Int.eq_ofNat_of_zero_le up
    push_cast
    simp only [Int.toNat_natCast, zpow_natCast]
    ring
  · rename_i down
    obtain ⟨j, hj⟩ := Int.eq_ofNat_of_zero_le (a := -k) (by omega)
    obtain rfl : k = -j := by omega
    push_cast
    simp only [neg_neg, Int.toNat_natCast, zpow_neg, zpow_natCast]
    rw [← div_eq_mul_inv, div_div]

theorem power_le_quotient {n d : Nat} (hd : 0 < d) (k : Int) :
    (if 0 ≤ k then 2 ^ k.toNat * d ≤ n else d ≤ n * 2 ^ (-k).toNat) ↔ (2 : ℚ) ^ k ≤ n / d := by
  have positive : (0 : ℚ) < d := by exact_mod_cast hd
  rw [le_div_iff₀ positive]
  split
  · rename_i up
    obtain ⟨j, rfl⟩ := Int.eq_ofNat_of_zero_le up
    rw [Int.toNat_natCast, zpow_natCast]
    exact_mod_cast Iff.rfl
  · rename_i down
    obtain ⟨j, hj⟩ := Int.eq_ofNat_of_zero_le (a := -k) (by omega)
    obtain rfl : k = -j := by omega
    rw [Int.neg_neg, Int.toNat_natCast, zpow_neg, zpow_natCast, inv_mul_le_iff₀ (by positivity),
      mul_comm]
    exact_mod_cast Iff.rfl

theorem quotientLog2_bounds {n d : Nat} (hn : n ≠ 0) (hd : 0 < d) :
    (2 : ℚ) ^ quotientLog2 n d ≤ n / d ∧ (n : ℚ) / d < 2 ^ (quotientLog2 n d + 1) := by
  have positive : (0 : ℚ) < d := by exact_mod_cast hd
  have least : (2 : ℚ) ^ (n.log2 : Int) ≤ n := by
    rw [zpow_natCast]
    exact_mod_cast Nat.log2_self_le hn
  have most : (n : ℚ) < 2 ^ (n.log2 + 1 : Int) := by
    have below : n < 2 ^ (n.log2 + 1) := Nat.lt_log2_self
    exact_mod_cast below
  have least' : (2 : ℚ) ^ (d.log2 : Int) ≤ d := by
    rw [zpow_natCast]
    exact_mod_cast Nat.log2_self_le hd.ne'
  have most' : (d : ℚ) < 2 ^ (d.log2 + 1 : Int) := by
    have below : d < 2 ^ (d.log2 + 1) := Nat.lt_log2_self
    exact_mod_cast below
  have estimate := power_le_quotient (n := n) hd ((n.log2 : Int) - d.log2)
  unfold quotientLog2 quotientLog
  dsimp only
  by_cases reached : (2 : ℚ) ^ ((n.log2 : Int) - d.log2) ≤ n / d
  · rw [if_pos (estimate.mpr reached)]
    refine ⟨reached, ?_⟩
    rw [div_lt_iff₀ positive]
    calc (n : ℚ) < 2 ^ (n.log2 + 1 : Int) := most
      _ = 2 ^ ((n.log2 : Int) - d.log2 + 1) * 2 ^ (d.log2 : Int) := by
        rw [← zpow_add₀ two_ne_zero]
        congr 1
        omega
      _ ≤ 2 ^ ((n.log2 : Int) - d.log2 + 1) * d := by gcongr
  · rw [if_neg (estimate.not.mpr reached), Int.sub_add_cancel]
    refine ⟨?_, not_le.mp reached⟩
    rw [le_div_iff₀ positive]
    calc (2 : ℚ) ^ ((n.log2 : Int) - d.log2 - 1) * d
        ≤ 2 ^ ((n.log2 : Int) - d.log2 - 1) * 2 ^ (d.log2 + 1 : Int) := by gcongr
      _ = 2 ^ (n.log2 : Int) := by
        rw [← zpow_add₀ two_ne_zero]
        congr 1
        omega
      _ ≤ n := least

namespace Binary64

theorem settle_value {s t : Bool} {k m : Nat} {e f : Int} (h : settle s k e = .finite t m f) :
    t = s ∧ (m : ℚ) * 2 ^ f = k * 2 ^ e := by
  unfold settle at h
  by_cases carried : k = 2 ^ 53
  · rw [if_pos carried] at h
    dsimp only at h
    split at h
    · cases h
    · cases h
      refine ⟨rfl, ?_⟩
      rw [carried, zpow_add₀ two_ne_zero]
      norm_num
      ring
  · rw [if_neg carried] at h
    dsimp only at h
    split at h
    · cases h
    · cases h
      exact ⟨rfl, rfl⟩

theorem ofRatio_near {s t : Bool} {n d m : Nat} {e : Int} (hn : n ≠ 0) (hd : 0 < d)
    (h : ofRatio s n d = .finite t m e) :
    t = s ∧ |(m : ℚ) * 2 ^ e - n / d| ≤ max ((n : ℚ) / d / 2 ^ 53) (2 ^ (-1075 : Int)) := by
  unfold ofRatio at h
  rw [if_neg hn] at h
  dsimp only at h
  generalize unit : max (quotientLog2 n d - 52) leastExponent = f at h
  obtain ⟨rfl, value⟩ := settle_value h
  refine ⟨rfl, ?_⟩
  have scaled := scaleQuotient_value 2 (-f) n d
  have near := divideRounded_near .even (scaleQuotient 2 (-f) n d).1
    (scaleQuotient_pos (b := 2) (by decide) (-f) n hd)
  rw [scaled] at near
  have positive : (0 : ℚ) < 2 ^ f := by positivity
  have cancel : (n : ℚ) / d * 2 ^ (-f) * 2 ^ f = n / d := by
    rw [mul_assoc, ← zpow_add₀ two_ne_zero, Int.add_left_neg, zpow_zero, mul_one]
  have within : |(m : ℚ) * 2 ^ e - n / d| ≤ 1 / 2 * 2 ^ f := by
    rw [value]
    push_cast at near
    rw [← cancel, ← sub_mul, abs_mul, abs_of_pos positive]
    exact mul_le_mul_of_nonneg_right near positive.le
  refine within.trans ?_
  have low := (quotientLog2_bounds hn hd).1
  rcases Int.le_total (quotientLog2 n d - 52) leastExponent with few | many
  · obtain rfl : f = -1074 := by
      rw [← unit, max_eq_right few]
      rfl
    refine le_max_of_le_right (le_of_eq ?_)
    rw [show (-1075 : Int) = -1074 + -1 from rfl, zpow_add₀ two_ne_zero, zpow_neg_one, one_div,
      mul_comm]
  · obtain rfl : f = quotientLog2 n d - 52 := by rw [← unit, max_eq_left many]
    refine le_max_of_le_left ?_
    rw [zpow_sub₀ two_ne_zero]
    norm_num
    linarith

theorem roundedUnits_near (places m : Nat) (e : Int) :
    |(roundedUnits places m e : ℚ) - m * 2 ^ e * 10 ^ places| ≤ 1 / 2 := by
  have value := scaleQuotient_value 2 e m 1
  have near := divideRounded_near .even ((ratio m e).1 * 10 ^ places)
    (scaleQuotient_pos (b := 2) (by decide) e m Nat.one_pos)
  push_cast at near value
  rw [div_one] at value
  rw [mul_div_right_comm] at near
  rw [← value]
  exact near

end Binary64

/- Amounts -/

open Binary64 (ofPower10 roundedUnits)

theorem pow_le_of_adjusted {c : Nat} {e k : Int} (hc : c ≠ 0) (h : k ≤ Decimal.adjusted c e) :
    (10 : ℚ) ^ k ≤ c * 10 ^ e := by
  have positive := digitCount_pos c
  have leading : 10 ^ (digitCount c - 1) ≤ c := pow_le_of_lt_digitCount hc (by omega)
  unfold Decimal.adjusted at h
  calc (10 : ℚ) ^ k ≤ 10 ^ (((digitCount c - 1 : Nat) : Int) + e) :=
        zpow_le_zpow_right₀ (by norm_num) (by omega)
    _ = 10 ^ (digitCount c - 1) * 10 ^ e := by
      rw [zpow_add₀ (by norm_num), zpow_natCast]
    _ ≤ c * 10 ^ e := by
      gcongr
      exact_mod_cast leading

theorem amount_near {s : Bool} {c : Nat} {e : Int} {a : Amount} (hc : c ≠ 0)
    (large : -330 ≤ Decimal.adjusted c e)
    (stored : Amount.ofDecimal? (.finite s c e) = some a) (finite : a.isFinite = true) :
    ∃ m f, a = .finite (s && m ≠ 0) m f ∧
      |(m : ℚ) * 2 ^ f - c * 10 ^ e| ≤ max ((c : ℚ) * 10 ^ e / 2 ^ 53) (2 ^ (-1075 : Int)) := by
  unfold Amount.ofDecimal? Binary64.ofDecimal at stored
  cases power : ofPower10 s c e with
  | nan => simp [power] at stored
  | infinite t =>
    simp only [power, Option.some.injEq] at stored
    subst stored
    cases finite
  | finite t m f =>
    simp only [power, Option.some.injEq] at stored
    subst stored
    unfold ofPower10 at power
    rw [if_neg hc] at power
    split at power
    · cases power
    rw [if_neg (by omega)] at power
    have value := scaleQuotient_value 10 e c 1
    have nonzero : (scaleQuotient 10 e c 1).1 ≠ 0 := by
      intro scaled_zero
      rw [scaled_zero] at value
      push_cast at value
      have positive : (0 : ℚ) < c * 10 ^ e := by positivity
      rw [zero_div, div_one] at value
      linarith
    have positive := scaleQuotient_pos (b := 10) (by decide) e c Nat.one_pos
    obtain ⟨rfl, near⟩ := Binary64.ofRatio_near nonzero positive power
    push_cast at value
    rw [value, div_one] at near
    exact ⟨m, f, rfl, near⟩

theorem zero_read {s : Bool} {e : Int} {a : Amount}
    (stored : Amount.ofDecimal? (.finite s 0 e) = some a) : a.read = .finite false 0 (-2) := by
  cases stored
  cases s <;> decide +kernel

theorem tiny_lt : (2 : ℚ) ^ (-1075 : Int) < 1 / 1000 := by
  calc (2 : ℚ) ^ (-1075 : Int) ≤ 2 ^ (-10 : Int) := zpow_le_zpow_right₀ (by norm_num) (by decide)
    _ < 1 / 1000 := by norm_num

/-- A decimal in whole cents, however it is written, comes back with two places. -/
theorem cents_value_read {c n : Nat} {e : Int} {a : Amount} (hc : c ≠ 0)
    (large : -330 ≤ Decimal.adjusted c e) (cents : (c : ℚ) * 10 ^ e = n / 100)
    (few : n < 10 ^ 15) (stored : Amount.ofDecimal? (.finite false c e) = some a)
    (finite : a.isFinite = true) : a.read = .finite false n (-2) := by
  obtain ⟨m, f, rfl, near⟩ := amount_near hc large stored finite
  have units := Binary64.roundedUnits_near 2 m f
  have bound : (n : ℚ) < 10 ^ 15 := by exact_mod_cast few
  rw [cents] at near
  have gap : max ((n : ℚ) / 100 / 2 ^ 53) (2 ^ (-1075 : Int)) < 1 / 500 := by
    refine max_lt ?_ (tiny_lt.trans (by norm_num))
    linarith
  have close := near.trans_lt gap
  have same : roundedUnits 2 m f = n := by
    rw [abs_lt] at close
    rw [abs_le] at units
    have above : (roundedUnits 2 m f : ℚ) < n + 1 := by linarith
    have below : (n : ℚ) < roundedUnits 2 m f + 1 := by linarith
    have above' : roundedUnits 2 m f < n + 1 := by exact_mod_cast above
    have below' : n < roundedUnits 2 m f + 1 := by exact_mod_cast below
    omega
  simp only [Amount.read, Amount.places, Binary64.toDecimal, same, Bool.false_and]
  rfl

theorem cents_read {c : Nat} {a : Amount} (few : c < 10 ^ 15)
    (stored : Amount.ofDecimal? (.finite false c (-2)) = some a) :
    a.read = .finite false c (-2) := by
  by_cases hc : c = 0
  · subst hc
    exact zero_read stored
  have short : digitCount c ≤ 15 := (digitCount_le_iff (by decide)).mpr few
  have finite : a.isFinite = true :=
    (storable_of_digits (s := false) (c := c) (e := -2) (by omega)).finite stored
  refine cents_value_read hc (by unfold Decimal.adjusted; omega) ?_ few stored finite
  norm_num
  ring

theorem cent_read {c : Nat} {e : Int} {a : Amount} (hc : c ≠ 0)
    (cent : -2 ≤ Decimal.adjusted c e)
    (stored : Amount.ofDecimal? (.finite false c e) = some a) (finite : a.isFinite = true) :
    ∃ k, 0 < k ∧ a.read = .finite false k (-2) := by
  obtain ⟨m, f, rfl, near⟩ := amount_near hc (by omega) stored finite
  have least := pow_le_of_adjusted hc cent
  refine ⟨roundedUnits 2 m f, ?_, by simp [Amount.read, Binary64.toDecimal, Amount.places]⟩
  have units := Binary64.roundedUnits_near 2 m f
  generalize (c : ℚ) * 10 ^ e = x at least near
  have hundredth : (10 : ℚ) ^ (-2 : Int) = 1 / 100 := by norm_num
  rw [hundredth] at least
  have gap : max (x / 2 ^ 53) (2 ^ (-1075 : Int)) ≤ x / 10 :=
    max_le (by linarith) (tiny_lt.le.trans (by linarith))
  have close := near.trans gap
  rw [abs_le] at close units
  have positive : (0 : ℚ) < roundedUnits 2 m f := by linarith
  exact_mod_cast positive

end Stockroom
