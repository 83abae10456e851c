import Mathlib.Tactic.NormNum
import Stockroom.Number.Binary64
import Stockroom.Number.Context

namespace Stockroom

/- Digit counts -/

theorem digitCount_pos (n : Nat) : 0 < digitCount n := Nat.length_toDigits_pos

theorem digitCount_le_iff {n k : Nat} (hk : 0 < k) : digitCount n ≤ k ↔ n < 10 ^ k :=
  Nat.length_toDigits_le_iff (by decide) hk

theorem lt_pow_digitCount (n : Nat) : n < 10 ^ digitCount n :=
  (digitCount_le_iff (digitCount_pos n)).mp (Nat.le_refl _)

theorem pow_le_of_lt_digitCount {n k : Nat} (hn : n ≠ 0) (h : k < digitCount n) : 10 ^ k ≤ n := by
  by_cases hk : k = 0
  · subst hk
    simp
    omega
  · have most := (digitCount_le_iff (n := n) (Nat.pos_of_ne_zero hk)).not
    omega

theorem digitCount_mono {m n : Nat} (h : m ≤ n) : digitCount m ≤ digitCount n := by
  have below := lt_pow_digitCount n
  exact (digitCount_le_iff (digitCount_pos n)).mpr (by omega)

theorem digitCount_div_pow {n k : Nat} (hn : n ≠ 0) (hk : k < digitCount n) :
    digitCount n ≤ digitCount (n / 10 ^ k) + k := by
  have low : 10 ^ (digitCount n - 1) ≤ n := pow_le_of_lt_digitCount hn (by omega)
  have high := lt_pow_digitCount (n / 10 ^ k)
  have scaled : n < 10 ^ digitCount (n / 10 ^ k) * 10 ^ k :=
    (Nat.div_lt_iff_lt_mul (by positivity)).mp high
  rw [← Nat.pow_add] at scaled
  have strict : 10 ^ (digitCount n - 1) < 10 ^ (digitCount (n / 10 ^ k) + k) := by omega
  have := (Nat.pow_lt_pow_iff_right (by decide)).mp strict
  omega

theorem digitCount_div_ten {n : Nat} (hn : 10 ≤ n) : digitCount n ≤ digitCount (n / 10) + 1 := by
  have two : 1 < digitCount n := by
    have small := (digitCount_le_iff (n := n) (k := 1) (by decide)).not
    omega
  simpa using digitCount_div_pow (by omega) two

/- Rounding -/

theorem divideRounded_ge (tie : Tie) (n d : Nat) : n / d ≤ divideRounded tie n d := by
  unfold divideRounded
  split <;> omega

theorem dropDigits_ge (tie : Tie) {n k : Nat} (h : k ≤ digitCount n) :
    n / 10 ^ k ≤ dropDigits tie n k := by
  have keeps : ¬digitCount n < k := by omega
  simp only [dropDigits, keeps, if_false]
  exact divideRounded_ge tie n _

theorem dropDigits_digits (tie : Tie) {n k : Nat} (hn : n ≠ 0) (hk : k < digitCount n) :
    dropDigits tie n k ≠ 0 ∧ digitCount n ≤ digitCount (dropDigits tie n k) + k := by
  have least := dropDigits_ge tie (Nat.le_of_lt hk)
  constructor
  · have one : 1 ≤ n / 10 ^ k := by
      rw [Nat.le_div_iff_mul_le (by positivity)]
      simpa using pow_le_of_lt_digitCount hn hk
    omega
  · have counted := digitCount_div_pow hn hk
    have grown := digitCount_mono least
    omega

namespace Decimal

theorem cutTo_digits {k c : Nat} {e : Int} (hk : 0 < k) (hc : c ≠ 0) :
    (cutTo k c e).1 ≠ 0 ∧
      digitCount c + e ≤ digitCount (cutTo k c e).1 + (cutTo k c e).2 := by
  have pos := digitCount_pos c
  obtain ⟨nonzero, counted⟩ := dropDigits_digits .even (k := digitCount c - k) hc (by omega)
  unfold cutTo
  dsimp only
  split
  · rename_i carried
    have ten : 10 ≤ dropDigits .even c (digitCount c - k) := by
      have low := pow_le_of_lt_digitCount nonzero carried
      have least : 10 ^ 1 ≤ 10 ^ k := Nat.pow_le_pow_right (by decide) hk
      omega
    have tenth := digitCount_div_ten ten
    constructor
    · change dropDigits .even c (digitCount c - k) / 10 ≠ 0
      omega
    · change (digitCount c : Int) + e ≤
        digitCount (dropDigits .even c (digitCount c - k) / 10) + (e + _ + 1)
      omega
  · constructor
    · exact nonzero
    · change (digitCount c : Int) + e ≤
        digitCount (dropDigits .even c (digitCount c - k)) + (e + _)
      omega

theorem fit_digits {s : Bool} {c : Nat} {e : Int} {d : Decimal} (hc : c ≠ 0)
    (large : -exponentLimit ≤ adjusted c e) (h : fit s c e = .ok d) :
    ∃ c' e', d = .finite s c' e' ∧ c' ≠ 0 ∧ digitCount c + e ≤ digitCount c' + e' := by
  unfold fit at h
  rw [if_neg hc, if_neg (by omega)] at h
  dsimp only at h
  split at h
  · cases h
  · cases h
    obtain ⟨nonzero, counted⟩ := cutTo_digits (k := precision) (e := e) (by decide) hc
    exact ⟨_, _, rfl, nonzero, counted⟩

theorem stripZeros_digits {f c : Nat} {e : Int} (hc : c ≠ 0) :
    (stripZeros f c e).1 ≠ 0 ∧
      digitCount c + e ≤ digitCount (stripZeros f c e).1 + (stripZeros f c e).2 := by
  induction f generalizing c e with
  | zero =>
    constructor
    · exact hc
    · exact Int.le_refl _
  | succ f ih =>
    unfold stripZeros
    split
    · rename_i trailing
      obtain ⟨nonzero, counted⟩ := ih (c := c / 10) (e := e + 1) (by omega)
      have tenth := digitCount_div_ten (n := c) (by omega)
      constructor
      · exact nonzero
      · omega
    · constructor
      · exact hc
      · exact Int.le_refl _

theorem quantize_digits {tie : Tie} {e : Int} {d r : Decimal} (h : d.quantize tie e = .ok r)
    (finite : r.isFinite = true) :
    ∃ s c f, d = .finite s c f ∧ (c ≠ 0 → digitCount c + (f - e) ≤ precision) ∧
      ∃ k, r = .finite s k e ∧ digitCount k ≤ precision := by
  cases d with
  | nan s g p =>
    simp only [quantize] at h
    split at h
    · cases h
    · cases h
      cases finite
  | infinite s => cases h
  | finite s c f =>
    refine ⟨s, c, f, rfl, ?_⟩
    simp only [quantize] at h
    split at h
    · rename_i is_zero
      cases h
      exact ⟨fun nonzero => absurd is_zero nonzero, 0, rfl, by decide⟩
    · split at h
      · cases h
      · rename_i short
        generalize (if e ≤ f then c * 10 ^ (f - e).toNat
          else dropDigits tie c (e - f).toNat) = k at h
        split at h
        · cases h
        · rename_i fits
          cases h
          exact ⟨fun _ => by omega, k, rfl, by omega⟩

end Decimal

/- Binary fractions -/

theorem quotientLog2_le {n d k : Nat} (hn : n ≠ 0) (h : n < 2 ^ k * d) : quotientLog2 n d ≤ k := by
  have low : 2 ^ n.log2 ≤ n := Nat.log2_self_le hn
  have high : d < 2 ^ (d.log2 + 1) := Nat.lt_log2_self
  have bound : 2 ^ n.log2 < 2 ^ (k + (d.log2 + 1)) := by
    rw [Nat.pow_add]
    have scaled := Nat.mul_le_mul_left (2 ^ k) (Nat.le_of_lt high)
    omega
  have logs := (Nat.pow_lt_pow_iff_right (by decide)).mp bound
  unfold quotientLog2 quotientLog
  dsimp only
  split <;> split <;> omega

namespace Binary64

theorem settle_finite {s : Bool} {m : Nat} {e : Int} (h : e < greatestExponent) :
    (settle s m e).isFinite = true := by
  have high : ¬greatestExponent < e := by omega
  have next : ¬greatestExponent < e + 1 := by omega
  unfold settle
  by_cases carried : m = 2 ^ 53
  · rw [if_pos carried]
    dsimp only
    rw [if_neg next]
    rfl
  · rw [if_neg carried]
    dsimp only
    rw [if_neg high]
    rfl

theorem ofRatio_finite {s : Bool} {n d : Nat} (h : n < 2 ^ 200 * d) :
    (ofRatio s n d).isFinite = true := by
  unfold ofRatio
  split
  · rfl
  · rename_i below_bound
    have log := quotientLog2_le below_bound h
    apply settle_finite
    simp only [greatestExponent, leastExponent]
    omega

theorem scaleQuotient_lt {c : Nat} {e : Int} (h : digitCount c + e ≤ 60) :
    (scaleQuotient 10 e c 1).1 < 2 ^ 200 * (scaleQuotient 10 e c 1).2 := by
  have below := lt_pow_digitCount c
  have wide : 10 ^ 60 < 2 ^ 200 := by norm_num
  by_cases whole : 0 ≤ e
  · have power : 10 ^ digitCount c * 10 ^ e.toNat ≤ 10 ^ 60 := by
      rw [← Nat.pow_add]
      exact Nat.pow_le_pow_right (by decide) (by omega)
    have scaled : c * 10 ^ e.toNat < 10 ^ digitCount c * 10 ^ e.toNat :=
      Nat.mul_lt_mul_of_pos_right below (by positivity)
    simp only [scaleQuotient, whole, if_true]
    omega
  · have power : 10 ^ digitCount c ≤ 10 ^ 60 * 10 ^ (-e).toNat := by
      rw [← Nat.pow_add]
      exact Nat.pow_le_pow_right (by decide) (by omega)
    have scaled : 10 ^ 60 * 10 ^ (-e).toNat ≤ 2 ^ 200 * 10 ^ (-e).toNat :=
      Nat.mul_le_mul_right _ (Nat.le_of_lt wide)
    simp only [scaleQuotient, whole, if_false]
    omega

theorem ofPower10_finite {s : Bool} {c : Nat} {e : Int} (h : digitCount c + e ≤ 60) :
    (ofPower10 s c e).isFinite = true := by
  unfold ofPower10
  split
  · rfl
  split
  · rename_i far
    unfold Decimal.adjusted at far
    omega
  split
  · rfl
  exact ofRatio_finite (scaleQuotient_lt h)

end Binary64
end Stockroom
