import Mathlib.Order.Monotone.Basic
import Mathlib.Tactic.NormNum
import Stockroom.Proofs.BinaryOrder
import Stockroom.Proofs.Nearest

/-! Rounding to a binary fraction keeps the order.
The magnitudes of binary fractions are numbered in their order by their bits. A quotient is
rounded to the magnitude with its rank, so a larger quotient is not rounded to a smaller one,
and quotients of one value to one magnitude. -/
namespace Stockroom

/- Quotients -/

theorem divideRounded_scale (tie : Tie) (n d : Nat) {c : Nat} (hc : 0 < c) :
    divideRounded tie (n * c) (d * c) = divideRounded tie n d := by
  have below : 2 * (n % d * c) < d * c ↔ 2 * (n % d) < d := by
    rw [← Nat.mul_assoc, Nat.mul_lt_mul_right hc]
  have above : d * c < 2 * (n % d * c) ↔ d < 2 * (n % d) := by
    rw [← Nat.mul_assoc, Nat.mul_lt_mul_right hc]
  unfold divideRounded Tie.carries
  rw [Nat.mul_div_mul_right _ _ hc, Nat.mul_mod_mul_right]
  simp only [below, above]

theorem divideRounded_le (tie : Tie) (n d : Nat) : divideRounded tie n d ≤ n / d + 1 := by
  unfold divideRounded
  split <;> omega

theorem divideRounded_le_of_le (tie : Tie) {n n' : Nat} (d : Nat) (h : n ≤ n') :
    divideRounded tie n d ≤ divideRounded tie n' d := by
  rcases (Nat.div_le_div_right (c := d) h).lt_or_eq with less | same
  · exact (divideRounded_le tie n d).trans
      ((Nat.succ_le_of_lt less).trans (divideRounded_ge tie n' d))
  · have rest : n % d ≤ n' % d := by
      have whole := Nat.div_add_mod n d
      have whole' := Nat.div_add_mod n' d
      rw [same] at whole
      omega
    have carried : tie.carries (n / d) (n % d) d = true →
        tie.carries (n' / d) (n' % d) d = true := by
      rw [same]
      unfold Tie.carries
      cases tie <;> grind
    unfold divideRounded
    rw [same] at carried ⊢
    split
    · rename_i up
      rw [if_pos (carried up)]
    · split <;> omega

theorem divideRounded_mono (tie : Tie) {n d n' d' : Nat} (hd : 0 < d) (hd' : 0 < d')
    (h : (n : ℚ) / d ≤ n' / d') : divideRounded tie n d ≤ divideRounded tie n' d' := by
  have cross : n * d' ≤ n' * d := by
    have positive : (0 : ℚ) < d := by exact_mod_cast hd
    have positive' : (0 : ℚ) < d' := by exact_mod_cast hd'
    rw [div_le_div_iff₀ positive positive'] at h
    exact_mod_cast h
  rw [← divideRounded_scale tie n d hd', ← divideRounded_scale tie n' d' hd, Nat.mul_comm d' d]
  exact divideRounded_le_of_le tie _ cross

theorem divideRounded_whole (tie : Tie) (k : Nat) {d : Nat} (hd : 0 < d) :
    divideRounded tie (k * d) d = k := by
  simp [divideRounded, Tie.carries, Nat.mul_div_cancel _ hd, hd]

theorem quotientLog2_mono {n d n' d' : Nat} (hn : n ≠ 0) (hd : 0 < d) (hn' : n' ≠ 0)
    (hd' : 0 < d') (h : (n : ℚ) / d ≤ n' / d') : quotientLog2 n d ≤ quotientLog2 n' d' := by
  have low := (quotientLog2_bounds hn hd).1
  have high := (quotientLog2_bounds hn' hd').2
  have powers := (zpow_lt_zpow_iff_right₀ (by norm_num : (1 : ℚ) < 2)).mp
    ((low.trans h).trans_lt high)
  omega

namespace Binary64

/- Bits -/

def endBits : Nat := 2047 * 2 ^ 52

theorem ofBits_infinite : ofBits endBits = .infinite false := by decide +kernel

theorem ofBits_subnormal {m : Nat} (h : m < 2 ^ 52) : ofBits m = .finite false m leastExponent := by
  have high : m / 2 ^ 52 = 0 := Nat.div_eq_of_lt h
  have low : m % 2 ^ 52 = m := Nat.mod_eq_of_lt h
  have plain : ¬2 ^ 63 ≤ m := by omega
  unfold ofBits
  simp only [high, low, plain, decide_false]
  rfl

theorem ofBits_normal {m k : Nat} (least : 2 ^ 52 ≤ m) (most : m < 2 ^ 53) (h : k ≤ 2045) :
    ofBits (k * 2 ^ 52 + m) = .finite false m (leastExponent + k) := by
  have high : (k * 2 ^ 52 + m) / 2 ^ 52 % 2 ^ 11 = k + 1 := by omega
  have low : (k * 2 ^ 52 + m) % 2 ^ 52 = m - 2 ^ 52 := by omega
  have plain : ¬2 ^ 63 ≤ k * 2 ^ 52 + m := by omega
  have sum : 2 ^ 52 + (m - 2 ^ 52) = m := by omega
  have exponent : leastExponent + ((k + 1 : Nat) : Int) - 1 = leastExponent + k := by omega
  have finite : ¬k + 1 = 2047 := by omega
  unfold ofBits
  simp only [high, low, plain, sum, exponent, finite, decide_false, if_false,
    Nat.add_one_ne_zero]

theorem ofBits_cases {b : Nat} (h : b < endBits) :
    (b < 2 ^ 52 ∧ ofBits b = .finite false b leastExponent) ∨
      ∃ m k, b = k * 2 ^ 52 + m ∧ 2 ^ 52 ≤ m ∧ m < 2 ^ 53 ∧ k ≤ 2045 ∧
        ofBits b = .finite false m (leastExponent + k) := by
  rcases Nat.lt_or_ge b (2 ^ 52) with small | large
  · exact .inl ⟨small, ofBits_subnormal small⟩
  · unfold endBits at h
    have split : b = (b / 2 ^ 52 - 1) * 2 ^ 52 + (2 ^ 52 + b % 2 ^ 52) := by omega
    refine .inr ⟨_, _, split, by omega, by omega, by omega, ?_⟩
    conv_lhs => rw [split]
    exact ofBits_normal (by omega) (by omega) (by omega)

theorem value_magnitude (m k : Nat) :
    (finite false m (leastExponent + k)).value = (m * 2 ^ k : Nat) * 2 ^ leastExponent := by
  simp only [value, zpow_add₀ (two_ne_zero' ℚ), zpow_natCast, Bool.false_eq_true, if_false]
  push_cast
  ring

theorem value_ofBits_lt {b b' : Nat} (h : b < b') (finite : b' < endBits) :
    (ofBits b).value < (ofBits b').value := by
  have positive : (0 : ℚ) < 2 ^ leastExponent := by positivity
  have lift {m m' k k' : Nat} (less : m * 2 ^ k < m' * 2 ^ k') :
      (Binary64.finite false m (leastExponent + k)).value <
        (Binary64.finite false m' (leastExponent + k')).value := by
    rw [value_magnitude, value_magnitude, mul_lt_mul_iff_left₀ positive]
    exact_mod_cast less
  have least (m : Nat) : Binary64.finite false m leastExponent =
      .finite false m (leastExponent + (0 : Nat)) := by simp
  rcases ofBits_cases (h.trans finite) with ⟨small, same⟩ | ⟨m, k, bits, low, high, _, same⟩
  · rcases ofBits_cases finite with ⟨_, same'⟩ | ⟨m', k', bits', low', _, _, same'⟩
    · rw [same, same', least, least]
      exact lift (by omega)
    · rw [same, same', least]
      apply lift
      have grown := Nat.le_mul_of_pos_right m' (Nat.two_pow_pos k')
      omega
  · rcases ofBits_cases finite with ⟨small', _⟩ | ⟨m', k', bits', low', _, _, same'⟩
    · omega
    · rw [same, same']
      apply lift
      rcases Nat.lt_or_ge k k' with less | more
      · obtain ⟨j, rfl⟩ := Nat.exists_eq_add_of_lt less
        have power : 2 ^ (k + j + 1) = 2 * 2 ^ j * 2 ^ k := by ring
        have one : 1 ≤ 2 ^ j := Nat.one_le_two_pow
        rw [power, ← Nat.mul_assoc]
        apply Nat.mul_lt_mul_of_pos_right _ (Nat.two_pow_pos k)
        nlinarith
      · obtain rfl : k = k' := by omega
        exact Nat.mul_lt_mul_of_pos_right (by omega) (Nat.two_pow_pos k)

/- Ranks -/

def unitOf (n d : Nat) : Int := max (quotientLog2 n d - 52) leastExponent

def unitsOf (n d : Nat) : Nat :=
  divideRounded .even (scaleQuotient 2 (-unitOf n d) n d).1 (scaleQuotient 2 (-unitOf n d) n d).2

/-- The bits of the magnitude to which a quotient is rounded, were there no largest one. -/
def rank (n d : Nat) : Nat :=
  if n = 0 then 0 else (unitOf n d - leastExponent).toNat * 2 ^ 52 + unitsOf n d

variable {n d n' d' : Nat} {p q r : ℚ}

theorem scaled_value (n d : Nat) (k : Int) :
    ((scaleQuotient 2 k n d).1 : ℚ) / (scaleQuotient 2 k n d).2 = n / d * 2 ^ k :=
  scaleQuotient_value 2 k n d

theorem scaled_pos (hd : 0 < d) (k : Int) : 0 < (scaleQuotient 2 k n d).2 :=
  scaleQuotient_pos (by decide) k n hd

theorem unitsOf_most (hn : n ≠ 0) (hd : 0 < d) : unitsOf n d ≤ 2 ^ 53 := by
  have most : (n : ℚ) / d * 2 ^ (-unitOf n d) ≤ (2 ^ 53 * 1 : Nat) / (1 : Nat) := by
    have log := (quotientLog2_bounds hn hd).2
    have unit : quotientLog2 n d + 1 ≤ 53 + unitOf n d := by
      unfold unitOf
      omega
    calc (n : ℚ) / d * 2 ^ (-unitOf n d)
        ≤ 2 ^ (53 + unitOf n d) * 2 ^ (-unitOf n d) := by
          gcongr
          exact log.le.trans (zpow_le_zpow_right₀ (by norm_num) unit)
      _ = 2 ^ (53 : Int) := by
        rw [← zpow_add₀ two_ne_zero, add_neg_cancel_right]
      _ = _ := by norm_num
  rw [← scaled_value] at most
  have rounded := divideRounded_mono .even (scaled_pos hd _) Nat.one_pos most
  rwa [divideRounded_whole .even _ Nat.one_pos] at rounded

theorem unitsOf_least (hn : n ≠ 0) (hd : 0 < d) (normal : leastExponent < unitOf n d) :
    2 ^ 52 ≤ unitsOf n d := by
  have least : (2 ^ 52 * 1 : Nat) / (1 : Nat) ≤ (n : ℚ) / d * 2 ^ (-unitOf n d) := by
    have log := (quotientLog2_bounds hn hd).1
    have unit : quotientLog2 n d = 52 + unitOf n d := by
      unfold unitOf at normal ⊢
      omega
    calc _ = (2 : ℚ) ^ (52 : Int) := by norm_num
      _ = 2 ^ (52 + unitOf n d) * 2 ^ (-unitOf n d) := by
        rw [← zpow_add₀ two_ne_zero, add_neg_cancel_right]
      _ ≤ (n : ℚ) / d * 2 ^ (-unitOf n d) := by
          gcongr
          exact unit ▸ log
  rw [← scaled_value] at least
  have rounded := divideRounded_mono .even Nat.one_pos (scaled_pos hd _) least
  rwa [divideRounded_whole .even _ Nat.one_pos] at rounded

theorem rank_mono (hd : 0 < d) (hd' : 0 < d') (h : (n : ℚ) / d ≤ n' / d') :
    rank n d ≤ rank n' d' := by
  by_cases hn : n = 0
  · simp [rank, hn]
  have hn' : n' ≠ 0 := by
    rintro rfl
    have positive : (0 : ℚ) < n / d := by positivity
    simp only [Nat.cast_zero, zero_div] at h
    linarith
  have logs := quotientLog2_mono hn hd hn' hd' h
  have units : unitOf n d ≤ unitOf n' d' := by
    unfold unitOf
    omega
  have least : leastExponent ≤ unitOf n d := Int.le_max_right _ _
  simp only [rank, hn, hn', if_false]
  rcases units.lt_or_eq with less | same
  · have most := unitsOf_most hn hd
    have filled := unitsOf_least hn' hd' (by omega)
    omega
  · have rounded : unitsOf n d ≤ unitsOf n' d' := by
      apply divideRounded_mono .even (scaled_pos hd _) (scaled_pos hd' _)
      rw [scaled_value, scaled_value, same]
      gcongr
    rw [same]
    omega

theorem settle_ofBits {m k : Nat} (most : m ≤ 2 ^ 53) (few : m < 2 ^ 52 → k = 0) :
    settle false m (leastExponent + k) = ofBits (min (k * 2 ^ 52 + m) endBits) := by
  have top : greatestExponent = leastExponent + (2045 : Nat) := rfl
  unfold settle
  rw [top]
  by_cases carried : m = 2 ^ 53
  · rw [if_pos carried]
    dsimp only
    have bits : k * 2 ^ 52 + m = (k + 1) * 2 ^ 52 + 2 ^ 52 := by omega
    split
    · rw [min_eq_right (by unfold endBits; omega), ofBits_infinite]
    · rw [min_eq_left (by unfold endBits; omega), bits,
        ofBits_normal (Nat.le_refl _) (by norm_num) (by omega)]
      simp [Int.add_assoc]
  · rw [if_neg carried]
    dsimp only
    split
    · rw [min_eq_right (by unfold endBits; omega), ofBits_infinite]
    · rw [min_eq_left (by unfold endBits; omega)]
      rcases Nat.lt_or_ge m (2 ^ 52) with small | large
      · rw [few small, Nat.zero_mul, Nat.zero_add, ofBits_subnormal small]
        simp
      · rw [ofBits_normal large (by omega) (by omega)]

theorem ofRatio_rank (hd : 0 < d) : ofRatio false n d = ofBits (min (rank n d) endBits) := by
  by_cases hn : n = 0
  · simp only [rank, hn, if_true, ofRatio, Nat.zero_min]
    exact (ofBits_subnormal (Nat.two_pow_pos 52)).symm
  have most := unitsOf_most hn hd
  have filled := unitsOf_least hn hd
  have least : leastExponent ≤ unitOf n d := Int.le_max_right _ _
  obtain ⟨k, unit⟩ := Int.le.dest least
  have settled : ofRatio false n d = settle false (unitsOf n d) (leastExponent + k) := by
    rw [unit]
    simp [ofRatio, hn, unitsOf, unitOf]
  have ranked : rank n d = k * 2 ^ 52 + unitsOf n d := by
    simp only [rank, hn, if_false, ← unit]
    congr
    omega
  have few : unitsOf n d < 2 ^ 52 → k = 0 := fun less => by
    by_contra more
    exact absurd (filled (by omega)) (by omega)
  rw [settled, ranked, settle_ofBits most few]

theorem ofBits_finite {b : Nat} (h : b < endBits) : (ofBits b).isFinite = true := by
  rcases ofBits_cases h with ⟨_, same⟩ | ⟨m, k, _, _, _, _, same⟩
  · rw [same]
    rfl
  · rw [same]
    rfl

theorem ofBits_atMost {b b' : Nat} (h : b ≤ b') (most : b' ≤ endBits) :
    (ofBits b).atMost (ofBits b') = true := by
  rcases most.lt_or_eq with finite | rfl
  · have values : (ofBits b).value ≤ (ofBits b').value := by
      rcases h.lt_or_eq with less | rfl
      · exact (value_ofBits_lt less finite).le
      · exact le_rfl
    have left := ofBits_finite (h.trans_lt finite)
    have right := ofBits_finite finite
    cases x : ofBits b <;> cases y : ofBits b' <;> simp_all [isFinite, atMost_finite]
  · rcases h.lt_or_eq with less | rfl
    · have left := ofBits_finite less
      rw [ofBits_infinite]
      cases x : ofBits b <;> simp_all [isFinite, atMost, below]
    · rw [ofBits_infinite]
      rfl

theorem ofBits_inj {b b' : Nat} (h : b ≤ endBits) (h' : b' ≤ endBits)
    (same : ofBits b = ofBits b') : b = b' := by
  have apart {c c' : Nat} (less : c < c') (most : c' ≤ endBits) : ofBits c ≠ ofBits c' := by
    intro same
    rcases most.lt_or_eq with finite | rfl
    · exact absurd (congrArg value same) (value_ofBits_lt less finite).ne
    · have finite := ofBits_finite less
      rw [same, ofBits_infinite] at finite
      cases finite
  rcases Nat.lt_trichotomy b b' with less | equal | more
  · exact absurd same (apart less h')
  · exact equal
  · exact absurd same.symm (apart more h)

/- The nearest magnitude -/

/-- The magnitude nearest to a number that is not negative. -/
def nearest (q : ℚ) : Binary64 := ofRatio false q.num.natAbs q.den

/-- The least number whose nearest magnitude is infinite: half a unit above the largest. -/
def limit : ℚ := (2 ^ 54 - 1) * 2 ^ 970

theorem limit_pos : 0 < limit := by
  unfold limit
  have power : (0 : ℚ) < 2 ^ 970 := by positivity
  exact mul_pos (by norm_num) power

theorem limit_lt : limit < 2 ^ (1024 : Int) := by
  have power : (0 : ℚ) < 2 ^ 970 := by positivity
  have split : (2 : ℚ) ^ (1024 : Int) = 2 ^ 54 * 2 ^ 970 := by
    rw [← pow_add]
    rfl
  rw [split, limit]
  exact mul_lt_mul_of_pos_right (by norm_num) power

theorem num_div_den (hq : 0 ≤ q) : (q.num.natAbs : ℚ) / q.den = q := by
  have nonneg : 0 ≤ q.num := Rat.num_nonneg.mpr hq
  rw [← Int.cast_natCast, Int.natAbs_of_nonneg nonneg]
  exact Rat.num_div_den q

/-- A quotient is rounded by its value, in whatever terms it is given. -/
theorem ofRatio_nearest (n : Nat) (hd : 0 < d) : ofRatio false n d = nearest (n / d) := by
  have terms := num_div_den (q := n / d) (by positivity)
  have den := (n / d : ℚ).den_pos
  rw [nearest, ofRatio_rank hd, ofRatio_rank den,
    Nat.le_antisymm (rank_mono hd den terms.ge) (rank_mono den hd terms.le)]

theorem nearest_cases (hq : 0 ≤ q) : ∃ n d : Nat, 0 < d ∧ q = n / d ∧
    nearest q = ofBits (min (rank n d) endBits) :=
  ⟨q.num.natAbs, q.den, q.den_pos, (num_div_den hq).symm, ofRatio_rank q.den_pos⟩

theorem nearest_mono (hp : 0 ≤ p) (h : p ≤ q) : (nearest p).atMost (nearest q) = true := by
  obtain ⟨n, d, hd, rfl, low⟩ := nearest_cases hp
  obtain ⟨n', d', hd', rfl, high⟩ := nearest_cases (hp.trans h)
  rw [low, high]
  exact ofBits_atMost (min_le_min_right _ (rank_mono hd hd' h)) (min_le_right _ _)

/-- Between two numbers with one nearest magnitude there are only such numbers. -/
theorem nearest_between (hp : 0 ≤ p) (low : p ≤ q) (high : q ≤ r)
    (same : nearest p = nearest r) : nearest q = nearest p := by
  have hq := hp.trans low
  obtain ⟨n, d, hd, rfl, bits⟩ := nearest_cases hp
  obtain ⟨k, e, he, rfl, bits'⟩ := nearest_cases hq
  obtain ⟨n', d', hd', rfl, bits''⟩ := nearest_cases (hq.trans high)
  have first := min_le_min_right endBits (rank_mono hd he low)
  have second := min_le_min_right endBits (rank_mono he hd' high)
  have equal : min (rank n d) endBits = min (rank n' d') endBits :=
    ofBits_inj (min_le_right _ _) (min_le_right _ _) (by rw [← bits, ← bits'', same])
  rw [bits, bits']
  congr 1
  omega

theorem nearest_form (hq : 0 ≤ q) :
    nearest q = .infinite false ∨ ∃ m e, nearest q = .finite false m e := by
  obtain ⟨n, d, hd, rfl, bits⟩ := nearest_cases hq
  rcases (min_le_right (rank n d) endBits).lt_or_eq with finite | infinite
  · rcases ofBits_cases finite with ⟨_, same⟩ | ⟨m, k, _, _, _, _, same⟩
    · exact .inr ⟨_, _, bits.trans same⟩
    · exact .inr ⟨_, _, bits.trans same⟩
  · rw [bits, infinite]
    exact .inl ofBits_infinite

theorem rank_below (hd : 0 < d) (h : (n : ℚ) / d < limit) : rank n d < endBits := by
  by_cases hn : n = 0
  · simp [rank, hn, endBits]
  have most := unitsOf_most hn hd
  have log : quotientLog2 n d ≤ 1023 := by
    have low := (quotientLog2_bounds hn hd).1
    have power := (zpow_lt_zpow_iff_right₀ (by norm_num : (1 : ℚ) < 2)).mp
      (low.trans_lt (h.trans limit_lt))
    omega
  have unit : unitOf n d ≤ 971 := by
    unfold unitOf leastExponent
    omega
  have least : leastExponent ≤ unitOf n d := Int.le_max_right _ _
  have start : leastExponent = -1074 := rfl
  simp only [rank, hn, if_false, endBits]
  rcases unit.lt_or_eq with less | same
  · omega
  · have few : unitsOf n d < 2 ^ 53 := by
      have near := divideRounded_near .even (scaleQuotient 2 (-unitOf n d) n d).1
        (scaled_pos (n := n) hd (-unitOf n d))
      rw [scaled_value] at near
      have scaled : (n : ℚ) / d * 2 ^ (-unitOf n d) < 2 ^ 53 - 1 / 2 := by
        rw [same, zpow_neg, ← div_eq_mul_inv, div_lt_iff₀ (by positivity)]
        refine h.trans_le (le_of_eq ?_)
        have power : (2 : ℚ) ^ (971 : Int) = 2 * 2 ^ 970 := by
          rw [← pow_succ']
          rfl
        rw [power, limit]
        generalize (2 : ℚ) ^ 970 = x
        ring
      have units : (unitsOf n d : ℚ) < 2 ^ 53 := by
        rw [abs_le] at near
        unfold unitsOf
        linarith
      exact_mod_cast units
    omega

theorem nearest_infinite_iff (hq : 0 ≤ q) : nearest q = .infinite false ↔ limit ≤ q := by
  constructor
  · intro infinite
    by_contra below
    obtain ⟨n, d, hd, rfl, bits⟩ := nearest_cases hq
    have finite := rank_below hd (not_le.mp below)
    have seen := ofBits_finite finite
    rw [← min_eq_left finite.le, ← bits, infinite] at seen
    cases seen
  · intro above
    have least : nearest limit = .infinite false := by
      have whole : limit = (((2 ^ 54 - 1) * 2 ^ 970 : Nat) : ℚ) / (1 : Nat) := by
        have bits : ((2 ^ 54 - 1 : Nat) : ℚ) = 2 ^ 54 - 1 := by norm_num
        rw [Nat.cast_mul, bits, Nat.cast_pow, Nat.cast_ofNat, Nat.cast_one, div_one, limit]
      rw [whole, ← ofRatio_nearest _ Nat.one_pos]
      decide +kernel
    have order := nearest_mono limit_pos.le above
    rw [least] at order
    rcases nearest_form hq with infinite | ⟨m, e, finite⟩
    · exact infinite
    · rw [finite] at order
      cases order

theorem nearest_finite (hq : 0 ≤ q) (h : q < limit) : ∃ m e, nearest q = .finite false m e :=
  (nearest_form hq).resolve_left fun infinite =>
    absurd ((nearest_infinite_iff hq).mp infinite) (not_le.mpr h)

end Binary64
end Stockroom
