import Stockroom.Number.Binary64Power
import Stockroom.Proofs.Rounding

namespace Stockroom
namespace Binary64

variable {m k n : Nat} {e f : Int}

theorem value_finite (m : Nat) (e : Int) : (finite false m e).value = m * 2 ^ e := by
  simp [value]

theorem value_nonneg (m : Nat) (e : Int) : 0 ≤ (finite false m e).value := by
  rw [value_finite]
  positivity

theorem scaled_nearest (m : Nat) (e : Int) (c : Nat) (hc : 0 < c) :
    ofRatio false (scaleQuotient 2 e m 1).1 ((scaleQuotient 2 e m 1).2 * c) =
      nearest (m * 2 ^ e / c) := by
  have scaled := scaled_value m 1 e
  rw [Nat.cast_one, div_one] at scaled
  rw [ofRatio_nearest _ (Nat.mul_pos (scaled_pos Nat.one_pos e) hc), Nat.cast_mul, ← div_div,
    scaled]

theorem ofInt_nearest (n : Nat) : ofInt n = nearest n := by
  have plain : ¬(n : Int) < 0 := by omega
  unfold ofInt
  simp only [plain, decide_false, Int.natAbs_natCast]
  rw [ofRatio_nearest _ Nat.one_pos, Nat.cast_one, div_one]

theorem multiply_nearest : (finite false m e).multiply (finite false k f) =
    nearest ((finite false m e).value * (finite false k f).value) := by
  have product : (m : ℚ) * 2 ^ e * (k * 2 ^ f) = (m * k : Nat) * 2 ^ (e + f) / (1 : Nat) := by
    rw [zpow_add₀ two_ne_zero]
    push_cast
    ring
  rw [value_finite, value_finite, product, ← scaled_nearest _ _ _ Nat.one_pos]
  simp [multiply]

theorem divideNat_nearest {c : Nat} (hc : 0 < c) :
    (finite false m e).divideNat c = nearest ((finite false m e).value / c) := by
  rw [value_finite, ← scaled_nearest m e c hc]
  rfl

theorem belowInt_finite {b : Int} :
    (finite false m e).belowInt b = true ↔ (finite false m e).value < b := by
  have positive : (0 : ℚ) < 2 ^ min e 0 := by positivity
  have bound : (b * 2 ^ (-min e 0).toNat : Int) * (2 : ℚ) ^ min e 0 = b := by
    obtain ⟨j, hj⟩ := Int.eq_ofNat_of_zero_le (a := -min e 0) (by omega)
    have unit : min e 0 = -j := by omega
    rw [unit, neg_neg, Int.toNat_natCast, zpow_neg, zpow_natCast]
    push_cast
    field_simp
  rw [← inUnits_value (min_le_left e 0)]
  conv_rhs => rw [← bound, mul_lt_mul_iff_left₀ positive, Int.cast_lt]
  exact decide_eq_true_iff

theorem toInt?_value {w : Nat} (h : (finite false m e).value = w) :
    (finite false m e).toInt? = some (w : Int) := by
  have scaled := scaled_value m 1 e
  rw [Nat.cast_one, div_one, ← value_finite, h] at scaled
  have positive := scaled_pos (n := m) Nat.one_pos e
  have whole : (scaleQuotient 2 e m 1).1 = w * (scaleQuotient 2 e m 1).2 := by
    have nonzero : ((scaleQuotient 2 e m 1).2 : ℚ) ≠ 0 := by exact_mod_cast positive.ne'
    exact_mod_cast (div_eq_iff nonzero).mp scaled
  simp [toInt?, ratio, whole, Nat.mul_div_cancel _ positive]

/- Whole numbers -/

theorem ofRatio_value {s : Bool} {n d m : Nat} {e : Int} (hn : n ≠ 0)
    (h : ofRatio false n d = .finite s m e) :
    (m : ℚ) * 2 ^ e = unitsOf n d * 2 ^ unitOf n d := by
  simp only [ofRatio, hn, if_false] at h
  exact (settle_value h).2

theorem unitsOf_whole {n : Nat} (h : unitOf n 1 ≤ 0) :
    (unitsOf n 1 : ℚ) * 2 ^ unitOf n 1 = n := by
  obtain ⟨j, hj⟩ := Int.eq_ofNat_of_zero_le (a := -unitOf n 1) (by omega)
  have unit : unitOf n 1 = -j := by omega
  have rounded := divideRounded_whole .even (n * 2 ^ j) Nat.one_pos
  rw [Nat.mul_one] at rounded
  have units : unitsOf n 1 = n * 2 ^ j := by
    simpa [unitsOf, unit, scaleQuotient] using rounded
  rw [units, unit, zpow_neg, zpow_natCast]
  push_cast
  field_simp

theorem nearest_whole {n : Nat} (h : (n : ℚ) < limit) :
    ∃ m e, ∃ w : Nat, nearest n = .finite false m e ∧ (finite false m e).value = w ∧
      (n < 2 ^ 53 → w = n) := by
  obtain ⟨m, e, finite⟩ := nearest_finite (Nat.cast_nonneg n) h
  refine ⟨m, e, ?_⟩
  have rounded : ofRatio false n 1 = .finite false m e := by
    rw [ofRatio_nearest n Nat.one_pos, Nat.cast_one, div_one, finite]
  by_cases hn : n = 0
  · subst hn
    cases rounded
    exact ⟨0, finite, by simp [value], fun _ => rfl⟩
  have value := ofRatio_value hn rounded
  rw [value_finite, value]
  by_cases fine : unitOf n 1 ≤ 0
  · exact ⟨n, finite, unitsOf_whole fine, fun _ => rfl⟩
  · obtain ⟨j, hj⟩ := Int.eq_ofNat_of_zero_le (a := unitOf n 1) (by omega)
    refine ⟨unitsOf n 1 * 2 ^ j, finite, ?_, fun short => absurd ?_ fine⟩
    · rw [hj]
      push_cast
      rw [zpow_natCast]
    · have log := quotientLog2_bounds hn Nat.one_pos
      have bound : (2 : ℚ) ^ quotientLog2 n 1 < 2 ^ (53 : Int) := by
        refine log.1.trans_lt ?_
        rw [Nat.cast_one, div_one]
        exact_mod_cast short
      have power := (zpow_lt_zpow_iff_right₀ (by norm_num : (1 : ℚ) < 2)).mp bound
      unfold unitOf leastExponent
      omega

theorem short_lt_limit {n : Nat} (h : n < 2 ^ 53) : (n : ℚ) < limit := by
  have power : (1 : ℚ) ≤ 2 ^ 970 := one_le_pow₀ (by norm_num)
  have short : (n : ℚ) < 2 ^ 53 := by exact_mod_cast h
  calc (n : ℚ) < 2 ^ 54 - 1 := by linarith
    _ ≤ limit := le_mul_of_one_le_right (by norm_num) power

theorem nearest_short {n : Nat} (h : n < 2 ^ 53) :
    ∃ m e, nearest n = .finite false m e ∧ (finite false m e).value = n := by
  obtain ⟨m, e, w, finite, value, value_short⟩ := nearest_whole (short_lt_limit h)
  exact ⟨m, e, finite, by rw [value, value_short h]⟩

theorem nearest_value_nonneg {q : ℚ} (hq : 0 ≤ q) : 0 ≤ (nearest q).value := by
  rcases nearest_form hq with infinite | ⟨m, e, finite⟩
  · rw [infinite]
    exact le_rfl
  · rw [finite]
    exact value_nonneg m e

theorem nearest_value_mono {p q : ℚ} (hp : 0 ≤ p) (h : p ≤ q) (below : q < limit) :
    (nearest p).value ≤ (nearest q).value := by
  obtain ⟨m, e, left⟩ := nearest_finite hp (h.trans_lt below)
  obtain ⟨m', e', right⟩ := nearest_finite (hp.trans h) below
  have order := nearest_mono hp h
  rw [left, right] at order ⊢
  exact atMost_finite.mp order

/- Powers -/

structure Bracket.Holds (b : Bracket) (v : ℚ) : Prop where
  pos : 0 < b.low
  low : b.low * 2 ^ b.exponent ≤ v
  high : v ≤ b.high * 2 ^ b.exponent

section

variable {b c : Bracket} {u v : ℚ} {bits : Nat}

theorem Bracket.Holds.value_pos (h : b.Holds v) : 0 < v := by
  have low_pos := h.pos
  exact lt_of_lt_of_le (by positivity) h.low

theorem Bracket.exact_holds {m : Nat} (hm : 0 < m) (e : Int) :
    (Bracket.exact m e).Holds (m * 2 ^ e) :=
  ⟨hm, le_refl _, le_refl _⟩

theorem Bracket.Holds.shorten (h : b.Holds v) (hb : 0 < bits) : (b.shorten bits).Holds v := by
  have scale (x : Nat) : (x : ℚ) * 2 ^ (b.exponent + (b.low.log2 + 1 - bits : Nat)) =
      (x * 2 ^ (b.low.log2 + 1 - bits) : Nat) * 2 ^ b.exponent := by
    rw [zpow_add₀ two_ne_zero, zpow_natCast]
    push_cast
    ring
  have low_pos := h.pos
  refine ⟨?_, ?_, ?_⟩
  · apply Nat.div_pos _ (Nat.two_pow_pos _)
    refine le_trans ?_ (Nat.log2_self_le h.pos.ne')
    exact Nat.pow_le_pow_right (by decide) (by omega)
  · refine le_trans ?_ h.low
    simp only [Bracket.shorten]
    rw [scale]
    gcongr
    exact Nat.div_mul_le_self _ _
  · refine h.high.trans ?_
    simp only [Bracket.shorten]
    rw [scale]
    gcongr
    generalize unit : 2 ^ (b.low.log2 + 1 - bits) = d
    have positive : 0 < d := unit ▸ Nat.two_pow_pos _
    have whole := Nat.div_add_mod' (b.high + d - 1) d
    have rest := Nat.mod_lt (b.high + d - 1) positive
    omega

theorem Bracket.Holds.multiply (h : b.Holds u) (h' : c.Holds v) (hb : 0 < bits) :
    (Bracket.multiply bits b c).Holds (u * v) := by
  have product (x y : Nat) : ((x * y : Nat) : ℚ) * 2 ^ (b.exponent + c.exponent) =
      x * 2 ^ b.exponent * (y * 2 ^ c.exponent) := by
    rw [zpow_add₀ two_ne_zero]
    push_cast
    ring
  have right_pos := h'.value_pos
  have left_pos := h.value_pos
  apply Bracket.Holds.shorten _ hb
  refine ⟨Nat.mul_pos h.pos h'.pos, ?_, ?_⟩
  · simp only [product]
    exact mul_le_mul h.low h'.low (by positivity) (by positivity)
  · simp only [product]
    exact mul_le_mul h.high h'.high (by positivity) (by positivity)

theorem Bracket.Holds.power (h : b.Holds v) (hb : 0 < bits) (fuel : Nat) {k : Nat}
    (few : k < 2 ^ fuel) : (Bracket.power bits b fuel k).Holds (v ^ k) := by
  induction fuel generalizing k with
  | zero =>
    obtain rfl : k = 0 := by omega
    simpa [Bracket.power] using Bracket.exact_holds Nat.one_pos 0
  | succ fuel ih =>
    unfold Bracket.power
    by_cases k_zero : k = 0
    · subst k_zero
      simpa using Bracket.exact_holds Nat.one_pos 0
    rw [if_neg k_zero]
    have half := ih (k := k / 2) (by omega)
    have square := half.multiply half hb
    rw [← pow_add] at square
    dsimp only
    by_cases odd : k % 2 = 1
    · have parts : k / 2 + k / 2 + 1 = k := by omega
      rw [if_pos odd, ← parts, pow_succ, parts]
      exact square.multiply h hb
    · have parts : k / 2 + k / 2 = k := by omega
      rw [if_neg odd]
      rwa [parts] at square

end

theorem nearest_tiny {q : ℚ} (hq : 0 ≤ q) (h : q ≤ 2 ^ (-1100 : Int)) : nearest q = zero := by
  have at_zero : nearest 0 = zero := by decide +kernel
  have least : nearest (2 ^ (-1100 : Int)) = zero := by
    have terms : (2 : ℚ) ^ (-1100 : Int) = (1 : Nat) / (2 ^ 1100 : Nat) := by
      rw [zpow_neg, Nat.cast_one, one_div, Nat.cast_pow]
      rfl
    rw [terms, ← ofRatio_nearest _ (Nat.two_pow_pos _)]
    decide +kernel
  rw [nearest_between le_rfl hq h (at_zero.trans least.symm), at_zero]

theorem rounded_nearest {n : Nat} (hn : 0 < n) (e : Int) :
    Bracket.rounded false n e = nearest (n * 2 ^ e) := by
  have low : (2 : ℚ) ^ (n.log2 + e) ≤ n * 2 ^ e := by
    rw [zpow_add₀ two_ne_zero, zpow_natCast]
    gcongr
    exact_mod_cast Nat.log2_self_le hn.ne'
  have high : (n : ℚ) * 2 ^ e ≤ 2 ^ (n.log2 + e + 1) := by
    have below : (n : ℚ) ≤ 2 ^ (n.log2 + 1) := by exact_mod_cast Nat.lt_log2_self.le
    rw [add_right_comm, zpow_add₀ two_ne_zero]
    gcongr
    exact_mod_cast below
  have positive : (0 : ℚ) ≤ n * 2 ^ e := by positivity
  unfold Bracket.rounded
  dsimp only
  split
  · rename_i large
    have least : (2 : ℚ) ^ (1024 : Int) ≤ 2 ^ (n.log2 + e) :=
      zpow_le_zpow_right₀ (by norm_num) (by omega)
    exact ((nearest_infinite_iff positive).mpr (limit_lt.le.trans (least.trans low))).symm
  split
  · rename_i small
    have most : (2 : ℚ) ^ (n.log2 + e + 1) ≤ 2 ^ (-1100 : Int) :=
      zpow_le_zpow_right₀ (by norm_num) (by omega)
    exact (nearest_tiny positive (high.trans most)).symm
  · simpa using scaled_nearest n e 1 Nat.one_pos

theorem agreed_nearest {b : Bracket} {v : ℚ} {x : Binary64} (h : b.Holds v)
    (agreed : b.agreed? false = some x) : x = nearest v := by
  have low_pos := h.pos
  have high_pos : 0 < b.high := by
    have positive := h.value_pos.trans_le h.high
    by_contra not_pos
    simp [Nat.eq_zero_of_not_pos not_pos] at positive
  simp only [Bracket.agreed?, rounded_nearest low_pos, rounded_nearest high_pos] at agreed
  split at agreed
  · rename_i same
    cases agreed
    exact (nearest_between (by positivity) h.low h.high same).symm
  · cases agreed

/-- The power of a magnitude is the magnitude nearest to the exact power. -/
theorem power_nearest (hm : m ≠ 0) (k : Nat) :
    (finite false m e).power k = nearest ((finite false m e).value ^ k) := by
  unfold power
  by_cases k_zero : k = 0
  · subst k_zero
    simpa using ofInt_nearest 1
  have k_nonzero : ¬(k : Int) = 0 := by omega
  have up : decide ((k : Int) < 0) = false := by simp
  simp only [k_nonzero, hm, up, if_false, Int.natAbs_natCast]
  have base := Bracket.exact_holds (Nat.pos_of_ne_zero hm) e
  rw [← value_finite] at base
  unfold magnitudePower
  dsimp only
  split
  · rename_i x found
    obtain ⟨bits, member, agreed⟩ := List.exists_of_findSome?_eq_some found
    have wide : 0 < bits := by
      simp only [powerBits, List.mem_cons, List.not_mem_nil, or_false] at member
      omega
    exact agreed_nearest (base.power wide (k.log2 + 1) Nat.lt_log2_self) agreed
  · rw [rounded_nearest (Nat.pow_pos (Nat.pos_of_ne_zero hm)), value_finite, mul_pow, zpow_mul]
    push_cast
    rfl

end Binary64
end Stockroom
