import Stockroom.Proofs.Rounding

namespace Stockroom

theorem ofCents_natCast (n : Nat) : Decimal.ofCents n = .finite false n (-2) := by
  have nonnegative : ¬((n : Int) < 0) := by omega
  simp [Decimal.ofCents, nonnegative]

theorem ofCents_units (n : Nat) : (Decimal.ofCents n).inUnits (-2) = n := by
  simp [ofCents_natCast, Decimal.inUnits]

theorem digitCount_mul_pow {n : Nat} (hn : n ≠ 0) (j : Nat) :
    digitCount n + j ≤ digitCount (n * 10 ^ j) := by
  have low : 10 ^ (digitCount n - 1) ≤ n :=
    pow_le_of_lt_digitCount hn (by have := digitCount_pos n; omega)
  have scaled : 10 ^ (digitCount n - 1) * 10 ^ j ≤ n * 10 ^ j := Nat.mul_le_mul_right _ low
  have high := lt_pow_digitCount (n * 10 ^ j)
  rw [← Nat.pow_add] at scaled
  have strict : 10 ^ (digitCount n - 1 + j) < 10 ^ digitCount (n * 10 ^ j) := by omega
  have := (Nat.pow_lt_pow_iff_right (by decide)).mp strict
  omega

theorem dropDigits_whole (tie : Tie) (n k : Nat) : dropDigits tie (n * 10 ^ k) k = n := by
  unfold dropDigits
  split
  · rename_i short
    by_contra n_nonzero
    have counted := digitCount_mul_pow (n := n) (by omega) k
    omega
  · exact divideRounded_whole tie n (by positivity)

namespace Decimal

/- Leading digits -/

theorem lt_pow_lead (c : Nat) (e : Int) : (c : ℚ) * 10 ^ e < 10 ^ (digitCount c + e) := by
  have most : (c : ℚ) < 10 ^ digitCount c := by exact_mod_cast lt_pow_digitCount c
  rw [zpow_add₀ (by norm_num), zpow_natCast]
  exact mul_lt_mul_of_pos_right most (by positivity)

theorem le_adjusted {c : Nat} {e k : Int} (h : (10 : ℚ) ^ k ≤ c * 10 ^ e) : k ≤ adjusted c e := by
  have lead := (zpow_lt_zpow_iff_right₀ (by norm_num : (1 : ℚ) < 10)).mp
    (h.trans_lt (lt_pow_lead c e))
  unfold adjusted
  omega

theorem cutTo_whole {keep m : Nat} {c : Nat} (hk : 0 < keep) (e : Int)
    (zeros : c = m * 10 ^ (digitCount c - keep)) :
    cutTo keep c e = (m, e + (digitCount c - keep : Nat)) := by
  generalize extra : digitCount c - keep = k at zeros
  have few : digitCount m ≤ keep := by
    have most := lt_pow_digitCount c
    apply (digitCount_le_iff hk).mpr
    by_cases short : digitCount c ≤ keep
    · have power : 10 ^ digitCount c ≤ 10 ^ keep := Nat.pow_le_pow_right (by decide) short
      obtain rfl : k = 0 := by omega
      omega
    · have power : 10 ^ digitCount c = 10 ^ keep * 10 ^ k := by
        rw [← Nat.pow_add]
        congr 1
        omega
      rw [power] at most
      rw [zeros] at most
      exact Nat.lt_of_mul_lt_mul_right most
  have cut : dropDigits .even c k = m := by rw [zeros, dropDigits_whole]
  unfold cutTo
  dsimp only
  rw [extra, cut, if_neg (by omega)]

theorem cutTo_short {k c : Nat} (few : digitCount c ≤ k) (e : Int) : cutTo k c e = (c, e) := by
  have digits_pos := digitCount_pos c
  have nothing_cut : digitCount c - k = 0 := by omega
  rw [cutTo_whole (m := c) (by omega) e (by simp [nothing_cut]), nothing_cut]
  simp

/- Rounding to cents -/

def roundedCents (tie : Tie) (c : Nat) (e : Int) : Nat :=
  if -2 ≤ e then c * 10 ^ (e + 2).toNat else dropDigits tie c (-2 - e).toNat

theorem cents_above {c n j : Nat} : (c : ℚ) * 10 ^ ((j : Int) - 2) = n / 100 ↔ c * 10 ^ j = n := by
  have power : (c : ℚ) * 10 ^ ((j : Int) - 2) = (c * 10 ^ j : Nat) / 100 := by
    rw [zpow_sub₀ (by norm_num), zpow_natCast]
    push_cast
    ring
  rw [power, div_left_inj' (by norm_num), Nat.cast_inj]

theorem cents_below {c n j : Nat} : (c : ℚ) * 10 ^ (-2 - (j : Int)) = n / 100 ↔ c = n * 10 ^ j := by
  have power : (c : ℚ) * 10 ^ (-2 - (j : Int)) = c / 10 ^ j / 100 := by
    rw [zpow_sub₀ (by norm_num), zpow_natCast, zpow_neg]
    norm_num
    ring
  rw [power, div_left_inj' (by norm_num), div_eq_iff (by positivity)]
  exact_mod_cast Iff.rfl

theorem roundedCents_whole {tie : Tie} {c n : Nat} {e : Int} (whole : (c : ℚ) * 10 ^ e = n / 100) :
    roundedCents tie c e = n := by
  unfold roundedCents
  split
  · obtain ⟨j, rfl⟩ : ∃ j : Nat, e = j - 2 := ⟨(e + 2).toNat, by omega⟩
    have shift : ((j : Int) - 2 + 2).toNat = j := by omega
    rw [shift, cents_above.mp whole]
  · obtain ⟨j, rfl⟩ : ∃ j : Nat, e = -2 - j := ⟨(-2 - e).toNat, by omega⟩
    have shift : (-2 - (-2 - (j : Int))).toNat = j := by omega
    rw [shift, cents_below.mp whole, dropDigits_whole]

theorem roundedCents_large {tie : Tie} {c : Nat} {e : Int} (hc : c ≠ 0)
    (large : (precision : Int) < digitCount c + (e + 2)) :
    10 ^ precision ≤ roundedCents tie c e := by
  have counted : precision < digitCount (roundedCents tie c e) := by
    unfold roundedCents
    split
    · have grown := digitCount_mul_pow hc (e + 2).toNat
      omega
    · have kept := (dropDigits_digits tie (k := (-2 - e).toNat) hc (by omega)).2
      omega
  have most := (digitCount_le_iff (n := roundedCents tie c e) (k := precision) (by decide)).not
  omega

theorem roundedCents_zero (tie : Tie) (e : Int) : roundedCents tie 0 e = 0 := by
  unfold roundedCents
  split
  · exact Nat.zero_mul _
  · simpa using dropDigits_whole tie 0 (-2 - e).toNat

theorem toCents_eq (tie : Tie) (s : Bool) (c : Nat) (e : Int) :
    (finite s c e).toCents tie =
      if roundedCents tie c e < 10 ^ precision then .ok (.finite s (roundedCents tie c e) (-2))
      else .error .invalidOperation := by
  by_cases c_zero : c = 0
  · subst c_zero
    rw [roundedCents_zero, if_pos (by decide)]
    rfl
  have rounded : (if -2 ≤ e then c * 10 ^ (e + 2).toNat else dropDigits tie c (-2 - e).toNat) =
      roundedCents tie c e := rfl
  have few := digitCount_le_iff (n := roundedCents tie c e) (k := precision) (by decide)
  simp only [toCents, quantize, if_neg c_zero, Int.sub_neg, rounded]
  split
  · rename_i large
    have many : 10 ^ precision ≤ roundedCents tie c e := roundedCents_large c_zero large
    rw [if_neg (by omega)]
  · split
    · rw [if_neg (by omega)]
    · rw [if_pos (by omega)]

/- Numbers of cents -/

/-- The magnitude is that of `n` cents, or too much for a total if so many cents are. -/
structure Tallies (n : Nat) (x : ℚ) : Prop where
  exact : n < 10 ^ precision → x = n / 100
  beyond : 10 ^ precision ≤ n → 10 ^ 26 ≤ x

/-- Where the operation has a result at all, that is `n` cents, as far as they can be told. -/
def Tallied (s : Bool) (n : Nat) : Except ArithmeticFault Decimal → Prop
  | .ok d => ∃ c e, d = .finite s c e ∧ Tallies n (c * 10 ^ e)
  | .error _ => 10 ^ precision ≤ n

theorem many_cents {n : Nat} : (10 : ℚ) ^ 26 ≤ n / 100 ↔ 10 ^ precision ≤ n := by
  rw [le_div_iff₀ (by norm_num), ← Nat.cast_le (α := ℚ)]
  norm_num [precision]

theorem Tallies.of_eq {n : Nat} {x : ℚ} (h : x = n / 100) : Tallies n x where
  exact _ := h
  beyond many := h ▸ many_cents.mpr many

theorem whole_zeros {c n : Nat} {e : Int} (whole : (c : ℚ) * 10 ^ e = n / 100)
    (few : n < 10 ^ precision) : ∃ m, c = m * 10 ^ (digitCount c - precision) := by
  by_cases short : digitCount c ≤ precision
  · refine ⟨c, ?_⟩
    rw [Nat.sub_eq_zero_of_le short]
    simp
  · rcases Int.le_total (-2) e with above | below
    · obtain ⟨j, rfl⟩ : ∃ j : Nat, e = j - 2 := ⟨(e + 2).toNat, by omega⟩
      have scaled := cents_above.mp whole
      have grown : c ≤ c * 10 ^ j := Nat.le_mul_of_pos_right c (by positivity)
      have counted := (digitCount_le_iff (n := c) (k := precision) (by decide)).mpr (by omega)
      omega
    · obtain ⟨j, rfl⟩ : ∃ j : Nat, e = -2 - j := ⟨(-2 - e).toNat, by omega⟩
      have scaled := cents_below.mp whole
      have most : digitCount c ≤ precision + j := by
        apply (digitCount_le_iff (Nat.add_pos_left (by decide) j)).mpr
        rw [scaled, Nat.pow_add]
        exact Nat.mul_lt_mul_of_pos_right few (by positivity)
      refine ⟨n * 10 ^ (j - (digitCount c - precision)), ?_⟩
      rw [Nat.mul_assoc, ← Nat.pow_add, Nat.sub_add_cancel (by omega)]
      exact scaled

theorem cent_le {x : ℚ} {n : Nat} (cents : x = n / 100) (positive : 0 < x) :
    (10 : ℚ) ^ (-2 : Int) ≤ x := by
  have one : (1 : ℚ) ≤ n := by
    have positive : (0 : ℚ) < n := by
      rw [cents] at positive
      linarith
    exact_mod_cast positive
  rw [cents]
  norm_num
  linarith

theorem whole_adjusted {c n : Nat} {e : Int} (hc : c ≠ 0) (whole : (c : ℚ) * 10 ^ e = n / 100)
    (few : n < 10 ^ precision) : -2 ≤ adjusted c e ∧ adjusted c e < 26 := by
  constructor
  · exact le_adjusted (cent_le whole (by positivity))
  · by_contra large
    have power : (10 : ℚ) ^ 26 ≤ c * 10 ^ e := pow_le_of_adjusted (k := 26) hc (by omega)
    rw [whole, many_cents] at power
    omega

theorem fit_whole {s : Bool} {c n : Nat} {e : Int} (whole : (c : ℚ) * 10 ^ e = n / 100)
    (few : n < 10 ^ precision) :
    ∃ c' e', fit s c e = .ok (.finite s c' e') ∧ (c' : ℚ) * 10 ^ e' = n / 100 := by
  unfold fit
  by_cases c_zero : c = 0
  · subst c_zero
    refine ⟨0, _, if_pos rfl, ?_⟩
    rw [← whole]
    simp
  obtain ⟨m, zeros⟩ := whole_zeros whole few
  have cut := cutTo_whole (by decide) e zeros
  generalize digitCount c - precision = k at zeros cut
  have value : (m : ℚ) * 10 ^ (e + k) = n / 100 := by
    have cast : (c : ℚ) = m * 10 ^ k := by exact_mod_cast zeros
    rw [← whole, cast, zpow_add₀ (by norm_num), zpow_natCast]
    ring
  have nonzero : m ≠ 0 := by
    rintro rfl
    simp [zeros] at c_zero
  have least := (whole_adjusted c_zero whole few).1
  have most := (whole_adjusted nonzero value few).2
  refine ⟨m, e + k, ?_, value⟩
  rw [if_neg c_zero, if_neg (by simp only [exponentLimit]; omega), cut]
  exact if_neg (by simp only [exponentLimit]; omega)

theorem fit_large {s : Bool} {c : Nat} {e : Int} {d : Decimal} (large : (10 : ℚ) ^ 26 ≤ c * 10 ^ e)
    (h : fit s c e = .ok d) : ∃ c' e', d = .finite s c' e' ∧ (10 : ℚ) ^ 26 ≤ c' * 10 ^ e' := by
  have nonzero : c ≠ 0 := by
    rintro rfl
    norm_num at large
  have lead := le_adjusted (k := 26) large
  obtain ⟨c', e', rfl, nonzero', kept⟩ := fit_digits nonzero (by simp only [exponentLimit]; omega) h
  have lead' : 26 ≤ adjusted c' e' := by
    unfold adjusted at lead ⊢
    omega
  exact ⟨c', e', rfl, pow_le_of_adjusted (k := 26) nonzero' lead'⟩

section

variable {s : Bool} {c n : Nat} {e : Int}

theorem Tallies.fit (h : Tallies n (c * 10 ^ e)) : Tallied s n (fit s c e) := by
  rcases Nat.lt_or_ge n (10 ^ precision) with few | many
  · obtain ⟨c', e', fitted, value⟩ := fit_whole (s := s) (h.exact few) few
    rw [fitted]
    exact ⟨c', e', rfl, .of_eq value⟩
  · cases fitted : Decimal.fit s c e with
    | error f => exact many
    | ok d =>
      obtain ⟨c', e', rfl, large⟩ := fit_large (h.beyond many) fitted
      exact ⟨c', e', rfl, fun few => absurd few (by omega), fun _ => large⟩

theorem Tallies.toCents {tie : Tie} {total : Decimal} (h : Tallies n (c * 10 ^ e)) :
    (finite s c e).toCents tie = .ok total ↔
      n < 10 ^ precision ∧ total = .finite s n (-2) := by
  rw [toCents_eq]
  rcases Nat.lt_or_ge n (10 ^ precision) with few | many
  · rw [roundedCents_whole (h.exact few), if_pos few, Except.ok.injEq, eq_comm]
    exact (and_iff_right few).symm
  · have large := h.beyond many
    have nonzero : c ≠ 0 := by
      rintro rfl
      norm_num at large
    have lead := le_adjusted (k := 26) large
    have rounded : 10 ^ precision ≤ roundedCents tie c e := by
      apply roundedCents_large nonzero
      unfold adjusted at lead
      simp only [precision]
      omega
    rw [if_neg (by omega)]
    exact iff_of_false nofun fun h => absurd h.1 (by omega)

theorem Tallied.toCents {tie : Tie} {total : Decimal} {r : Except ArithmeticFault Decimal}
    (h : Tallied s n r) :
    r.bind (toCents tie) = .ok total ↔ n < 10 ^ precision ∧ total = .finite s n (-2) := by
  cases r with
  | ok d =>
    obtain ⟨c, e, rfl, tallies⟩ := h
    exact tallies.toCents
  | error f =>
    have many : 10 ^ precision ≤ n := h
    exact iff_of_false nofun fun h => absurd h.1 (by omega)

end

/- Sums -/

/-- A summand counts as it is, or its leading digit is far below that of the other one and it
is replaced by at most one unit. -/
theorem nearSummand_cases (c : Nat) (e : Int) (k : Nat) (f : Int) :
    nearSummand c e k f = (k, f) ∨
      ∃ g < e, adjusted k f < g ∧ g + precision < adjusted c e ∧
        nearSummand c e k f = (min k 1, g) := by
  unfold nearSummand
  dsimp only
  generalize horizon : e - 1 + (if precision < digitCount c then 0
    else (digitCount c : Int) - precision - 1) = g
  by_cases far : adjusted k f < g
  · rw [if_pos far]
    right
    refine ⟨g, ?_, far, ?_, rfl⟩
    · split at horizon <;> omega
    · unfold adjusted
      split at horizon <;> omega
  · exact .inl (if_neg far)

theorem addAligned_eq {c k n : Nat} {e f g : Int} (hc : c ≠ 0)
    (summand : nearSummand c e k f = (n, g)) :
    addAligned false c e false k f = fit false (c * 10 ^ (e - g).toNat + n) g := by
  have sum : (c : Int) * 10 ^ (e - g).toNat + n = (c * 10 ^ (e - g).toNat + n : Nat) := by
    push_cast
    rfl
  have nonnegative : ¬((c * 10 ^ (e - g).toNat + n : Nat) : Int) < 0 := by omega
  unfold addAligned
  simp only [hc, if_false, summand, Bool.false_eq_true, one_mul, Nat.cast_mul, Nat.cast_pow,
    Nat.cast_ofNat, sum, nonnegative, decide_false, Int.natAbs_natCast, Bool.and_self, ite_self]

theorem aligned_value (c n : Nat) {e g : Int} (below : g ≤ e) :
    ((c * 10 ^ (e - g).toNat + n : Nat) : ℚ) * 10 ^ g = c * 10 ^ e + n * 10 ^ g := by
  obtain ⟨j, rfl⟩ : ∃ j : Nat, e = g + j := ⟨(e - g).toNat, by omega⟩
  have shift : (g + (j : Int) - g).toNat = j := by omega
  rw [shift, zpow_add₀ (by norm_num), zpow_natCast]
  push_cast
  ring

/-- The sum is computed as it is, or one of two numbers is too large and the other one is not
fully counted. -/
theorem addAligned_cases {c k : Nat} {e f : Int} (below : f ≤ e)
    (cent : k ≠ 0 → (10 : ℚ) ^ (-2 : Int) ≤ k * 10 ^ f) :
    ∃ m g, addAligned false c e false k f = fit false m g ∧
      ((m : ℚ) * 10 ^ g = c * 10 ^ e + k * 10 ^ f ∨
        (10 : ℚ) ^ 26 ≤ c * 10 ^ e ∧ (10 : ℚ) ^ 26 ≤ m * 10 ^ g) := by
  by_cases c_zero : c = 0
  · subst c_zero
    refine ⟨k, f, ?_, .inl (by simp)⟩
    have nonnegative : ¬((k : Int) < 0) := by omega
    simp [addAligned, nonnegative]
  rcases nearSummand_cases c e k f with same | ⟨g, lower, far, wide, replaced⟩
  · exact ⟨_, f, addAligned_eq c_zero same, .inl (aligned_value c k below)⟩
  · refine ⟨_, g, addAligned_eq c_zero replaced, ?_⟩
    rw [aligned_value c _ (Int.le_of_lt lower)]
    by_cases nothing : k = 0
    · left
      simp [nothing]
    · right
      have least := le_adjusted (cent nothing)
      have large : (10 : ℚ) ^ 26 ≤ c * 10 ^ e := by
        apply pow_le_of_adjusted (k := 26) c_zero
        simp only [precision] at wide
        omega
      exact ⟨large, le_add_of_le_of_nonneg large (by positivity)⟩

theorem add_cases {c k : Nat} {e f : Int} (first : c ≠ 0 → (10 : ℚ) ^ (-2 : Int) ≤ c * 10 ^ e)
    (second : k ≠ 0 → (10 : ℚ) ^ (-2 : Int) ≤ k * 10 ^ f) :
    ∃ m g, (finite false c e).add (finite false k f) = fit false m g ∧
      ((m : ℚ) * 10 ^ g = c * 10 ^ e + k * 10 ^ f ∨
        (10 : ℚ) ^ 26 ≤ (c : ℚ) * 10 ^ e + k * 10 ^ f ∧ (10 : ℚ) ^ 26 ≤ m * 10 ^ g) := by
  by_cases below : f ≤ e
  · obtain ⟨m, g, sum, exact | ⟨large, kept⟩⟩ := addAligned_cases (c := c) below second
    · exact ⟨m, g, (if_pos below).trans sum, .inl exact⟩
    · exact ⟨m, g, (if_pos below).trans sum,
        .inr ⟨le_add_of_le_of_nonneg large (by positivity), kept⟩⟩
  · obtain ⟨m, g, sum, exact | ⟨large, kept⟩⟩ :=
      addAligned_cases (c := k) (Int.le_of_lt (Int.not_le.mp below)) first
    · exact ⟨m, g, (if_neg below).trans sum, .inl (exact.trans (add_comm _ _))⟩
    · exact ⟨m, g, (if_neg below).trans sum,
        .inr ⟨le_add_of_nonneg_of_le (by positivity) large, kept⟩⟩

theorem Tallies.cent {c n : Nat} {e : Int} (h : Tallies n (c * 10 ^ e)) (hc : c ≠ 0) :
    (10 : ℚ) ^ (-2 : Int) ≤ c * 10 ^ e := by
  rcases Nat.lt_or_ge n (10 ^ precision) with few | many
  · exact cent_le (h.exact few) (by positivity)
  · exact le_trans (by norm_num) (h.beyond many)

theorem Tallies.add {c k n m : Nat} {e f : Int} (h : Tallies n (c * 10 ^ e))
    (cents : (k : ℚ) * 10 ^ f = m / 100) :
    Tallied false (n + m) ((finite false c e).add (finite false k f)) := by
  obtain ⟨total, g, sum, computed⟩ := add_cases h.cent (Tallies.of_eq cents).cent
  rw [sum]
  apply Tallies.fit
  have exact (few : n + m < 10 ^ precision) :
      (c : ℚ) * 10 ^ e + k * 10 ^ f = (n + m : Nat) / 100 := by
    rw [h.exact (by omega), cents]
    push_cast
    ring
  have beyond (many : 10 ^ precision ≤ n + m) : (10 : ℚ) ^ 26 ≤ c * 10 ^ e + k * 10 ^ f := by
    rcases Nat.lt_or_ge n (10 ^ precision) with few | large
    · rw [h.exact few, cents, ← add_div, ← Nat.cast_add]
      exact many_cents.mpr many
    · exact le_add_of_le_of_nonneg (h.beyond large) (by positivity)
  rcases computed with same | ⟨large, kept⟩
  · rw [← same] at exact beyond
    exact ⟨exact, beyond⟩
  · refine ⟨fun few => ?_, fun _ => kept⟩
    rw [exact few, many_cents] at large
    omega

end Decimal

open Decimal (precision Tallies Tallied)

/- Totals -/

theorem lineTotal_eq (q : ℤ) (s : Bool) (c : Nat) (e : Int) :
    lineTotal q (.finite s c e) =
      (Decimal.fit (s != decide (q < 0)) (c * q.natAbs) e).bind (Decimal.toCents .away) := by
  simp only [lineTotal, Decimal.ofInt, Decimal.multiply, Int.add_zero]
  rfl

theorem lineTotal_cents {q : Int} {s : Bool} {c n : Nat} {e : Int} {total : Decimal}
    (whole : ((c * q.natAbs : Nat) : ℚ) * 10 ^ e = n / 100) :
    lineTotal q (.finite s c e) = .ok total ↔
      n < 10 ^ precision ∧ total = .finite (s != decide (q < 0)) n (-2) := by
  rw [lineTotal_eq]
  exact (Tallies.of_eq whole).fit.toCents

theorem cents_eq (n : Nat) : (n : ℚ) * 10 ^ (-2 : Int) = n / 100 := by
  norm_num
  ring

theorem lineTotal_iff {q : Int} {s : Bool} {c : Nat} {total : Decimal} (positive : 0 < q) :
    lineTotal q (.finite s c (-2)) = .ok total ↔
      c * q.toNat < 10 ^ precision ∧ total = .finite s (c * q.toNat) (-2) := by
  have sign : ¬q < 0 := by omega
  have size : q.natAbs = q.toNat := by omega
  rw [lineTotal_cents (cents_eq _), size]
  simp [sign]

theorem lineTotal_few {q : Int} {c : Nat} (positive : 0 < q) (few : c * q.toNat < 10 ^ precision) :
    lineTotal q (.ofCents c) = .ok (.ofCents (c * q.toNat : Nat)) := by
  rw [ofCents_natCast, ofCents_natCast]
  exact (lineTotal_iff positive).mpr ⟨few, rfl⟩

theorem lineTotal_exact {q : Int} {c : Nat} {total : Decimal} (positive : 0 < q)
    (priced : lineTotal q (.ofCents c) = .ok total) : total = .ofCents (c * q.toNat : Nat) := by
  rw [ofCents_natCast] at priced ⊢
  exact ((lineTotal_iff positive).mp priced).2

/-- The cents that an entry adds to the total of an order. -/
inductive Counts : Option Decimal → Nat → Prop
  | missing : Counts none 0
  | skipped {s : Bool} {c : Nat} {e : Int} (nothing : s = true ∨ c = 0) :
      Counts (some (.finite s c e)) 0
  | cents {c n : Nat} {e : Int} (nonzero : c ≠ 0) (whole : (c : ℚ) * 10 ^ e = n / 100) :
      Counts (some (.finite false c e)) n

theorem below_nothing (s : Bool) (c : Nat) (e : Int) :
    (Decimal.ofInt 0).below (.finite s c e) = .ok (decide (s = false ∧ c ≠ 0)) := by
  cases s <;> simp [Decimal.ofInt, Decimal.below, Decimal.finiteBelow, Nat.pos_iff_ne_zero]

theorem Counts.add {entry : Option Decimal} {n m c : Nat} {e : Int} (counts : Counts entry m)
    (h : Tallies n (c * 10 ^ e)) : Tallied false (n + m) (addTotal (.finite false c e) entry) := by
  cases counts with
  | missing => exact ⟨c, e, rfl, h⟩
  | @skipped s k f nothing =>
    have skipped : ¬(s = false ∧ k ≠ 0) := by
      rintro ⟨rfl, nonzero⟩
      exact nonzero (nothing.resolve_left nofun)
    have same : addTotal (.finite false c e) (some (.finite s k f)) = .ok (.finite false c e) := by
      rw [addTotal, below_nothing, decide_eq_false skipped]
      rfl
    rw [same]
    exact ⟨c, e, rfl, h⟩
  | @cents k m f nonzero whole =>
    have added : addTotal (.finite false c e) (some (.finite false k f)) =
        (Decimal.finite false c e).add (.finite false k f) := by
      rw [addTotal, below_nothing, decide_eq_true ⟨rfl, nonzero⟩]
      rfl
    rw [added]
    exact h.add whole

theorem addTotals_tallied {totals : List (Option Decimal)} {ms : List Nat}
    (counts : List.Forall₂ Counts totals ms) {n c : Nat} {e : Int} (h : Tallies n (c * 10 ^ e)) :
    Tallied false (n + ms.sum) (totals.foldlM addTotal (.finite false c e)) := by
  induction counts generalizing n c e with
  | nil => exact ⟨c, e, rfl, h⟩
  | @cons entry m totals ms first rest ih =>
    have step := first.add h
    rw [List.foldlM_cons, List.sum_cons, ← Nat.add_assoc]
    cases added : addTotal (.finite false c e) entry with
    | error f =>
      rw [added] at step
      have many : 10 ^ precision ≤ n + m := step
      exact many.trans (Nat.le_add_right _ _)
    | ok sum =>
      rw [added] at step
      obtain ⟨c', e', rfl, tallies⟩ := step
      exact ih tallies

/-- An order has a total if it costs few enough cents, and that is the exact sum of its
entries. -/
theorem orderTotal_cents {totals : List (Option Decimal)} {ms : List Nat} {total : Decimal}
    (counts : List.Forall₂ Counts totals ms) :
    orderTotal totals = .ok total ↔ ms.sum < 10 ^ precision ∧ total = .ofCents (ms.sum : Nat) := by
  have tallied := addTotals_tallied counts (n := 0) (c := 0) (e := -2) (.of_eq (by simp))
  rw [Nat.zero_add] at tallied
  rw [ofCents_natCast]
  exact tallied.toCents

theorem orderTotal_iff {ks : List Nat} (positive : ∀ k ∈ ks, 0 < k) {total : Decimal} :
    orderTotal (ks.map fun k : Nat => some (Decimal.ofCents k)) = .ok total ↔
      ks.sum < 10 ^ precision ∧ total = .ofCents (ks.sum : Nat) := by
  apply orderTotal_cents
  rw [List.forall₂_map_left_iff, List.forall₂_same]
  intro k member
  rw [ofCents_natCast]
  exact .cents (Nat.pos_iff_ne_zero.mp (positive k member)) (cents_eq k)

end Stockroom
