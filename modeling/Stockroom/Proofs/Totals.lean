import Mathlib.Algebra.Order.Floor.Semifield
import Mathlib.Data.List.ReduceOption
import Mathlib.Data.Rat.Floor
import Stockroom.Proofs.Prices

namespace Stockroom

open Decimal (precision)

/-- The whole number of cents nearest to an amount without its sign, a half counted up. -/
def centsOf (x : ℚ) : ℕ := ⌊|x| * 100 + 1 / 2⌋₊

structure Decimal.WholeCents (d : Decimal) : Prop where
  finite : d.isFinite = true
  cents : ∃ k : ℤ, d.value = k / 100

/- Quotients with a half rounded up -/

theorem divideRounded_away (n : Nat) {d : Nat} (hd : 0 < d) :
    divideRounded .away n d = (2 * n + d) / (2 * d) := by
  have whole := Nat.div_add_mod' n d
  have rest := Nat.mod_lt n hd
  symm
  by_cases up : d ≤ 2 * (n % d)
  · have carried : divideRounded .away n d = n / d + 1 := by
      simp [divideRounded, Tie.carries, Nat.not_lt.mpr up]
    rw [carried]
    apply Nat.div_eq_of_lt_le
    · rw [Nat.mul_left_comm, Nat.add_mul]
      omega
    · rw [Nat.mul_left_comm, Nat.add_mul, Nat.add_mul]
      omega
  · have kept : divideRounded .away n d = n / d := by
      simp [divideRounded, Tie.carries, Nat.not_le.mp up]
    rw [kept]
    apply Nat.div_eq_of_lt_le
    · rw [Nat.mul_left_comm]
      omega
    · rw [Nat.mul_left_comm, Nat.add_mul]
      omega

theorem dropDigits_away (n k : Nat) : dropDigits .away n k = ⌊(n : ℚ) / 10 ^ k + 1 / 2⌋₊ := by
  have positive : (0 : ℚ) < 10 ^ k := by positivity
  unfold dropDigits
  by_cases short : digitCount n < k
  · have small : n * 10 < 10 ^ k := by
      calc n * 10 < 10 ^ digitCount n * 10 :=
            Nat.mul_lt_mul_of_pos_right (lt_pow_digitCount n) (by decide)
        _ = 10 ^ (digitCount n + 1) := (Nat.pow_succ ..).symm
        _ ≤ 10 ^ k := Nat.pow_le_pow_right (by decide) short
    have tenth : (n : ℚ) / 10 ^ k < 1 / 2 := by
      rw [div_lt_iff₀ positive]
      have cast : (n * 10 : ℚ) < 10 ^ k := by exact_mod_cast small
      linarith
    rw [if_pos short, eq_comm, Nat.floor_eq_zero]
    linarith
  · have quotient : (n : ℚ) / 10 ^ k + 1 / 2 = (2 * n + 10 ^ k : Nat) / (2 * 10 ^ k : Nat) := by
      push_cast
      field_simp
    rw [if_neg short, divideRounded_away n (by positivity), quotient, Nat.floor_div_eq_div]

namespace Decimal

/- Values -/

theorem abs_value (s : Bool) (c : Nat) (e : Int) : |(finite s c e).value| = c * 10 ^ e := by
  have magnitude : (0 : ℚ) ≤ c * 10 ^ e := by positivity
  cases s <;> simp [value, abs_of_nonneg magnitude]

theorem value_mul (q : ℤ) (s : Bool) (c : Nat) (e : Int) :
    q * (finite s c e).value = (finite (s != decide (q < 0)) (c * q.natAbs) e).value := by
  obtain ⟨n, rfl | rfl⟩ := Int.eq_nat_or_neg q
  · have sign : ¬(n : ℤ) < 0 := by omega
    cases s <;> simp [value, sign] <;> ring
  · rw [Int.natAbs_neg, Int.natAbs_natCast]
    by_cases n_zero : n = 0
    · simp [value, n_zero]
    · have sign : 0 < n := by omega
      cases s <;> simp [value, sign] <;> ring

theorem cents_value (s : Bool) (n : Nat) :
    (finite s n (-2)).value = (if s then -1 else 1) * (n / 100) := by
  rw [value, cents_eq]

/- Rounding to cents -/

theorem roundedCents_away (c : Nat) (e : Int) :
    roundedCents .away c e = ⌊(c : ℚ) * 10 ^ e * 100 + 1 / 2⌋₊ := by
  unfold roundedCents
  split
  · obtain ⟨j, rfl⟩ : ∃ j : Nat, e = j - 2 := ⟨(e + 2).toNat, by omega⟩
    have shift : ((j : Int) - 2 + 2).toNat = j := by omega
    rw [shift, cents_above.mpr rfl, div_mul_cancel₀ _ (by norm_num), eq_comm,
      Nat.floor_eq_iff (by positivity)]
    constructor <;> linarith
  · obtain ⟨j, rfl⟩ : ∃ j : Nat, e = -2 - j := ⟨(-2 - e).toNat, by omega⟩
    have shift : (-2 - (-2 - (j : Int))).toNat = j := by omega
    have power : (c : ℚ) * 10 ^ (-2 - (j : Int)) * 100 = c / 10 ^ j := by
      rw [zpow_sub₀ (by norm_num)]
      field_simp
      norm_num
    rw [shift, power, dropDigits_away]

/- Products -/

theorem dropDigits_le (tie : Tie) (n k : Nat) : dropDigits tie n k ≤ n + 1 := by
  have quotient := Nat.div_le_self n (10 ^ k)
  have rounded := divideRounded_le tie n (10 ^ k)
  unfold dropDigits
  split <;> omega

theorem roundedCents_tiny {tie : Tie} {c : Nat} {e : Int} (tiny : digitCount c + e < -2) :
    roundedCents tie c e = 0 := by
  have pos := digitCount_pos c
  rw [roundedCents, if_neg (by omega), dropDigits, if_pos (by omega)]

theorem fit_toCents {tie : Tie} {s : Bool} {c : Nat} {e : Int} {total : Decimal}
    (few : digitCount c ≤ precision) :
    (fit s c e).bind (toCents tie) = .ok total ↔ (finite s c e).toCents tie = .ok total := by
  have bound : precision = 28 := rfl
  unfold fit
  by_cases c_zero : c = 0
  · subst c_zero
    rw [if_pos rfl, Except.bind, toCents_eq, toCents_eq, roundedCents_zero, roundedCents_zero]
  rw [if_neg c_zero]
  by_cases small : adjusted c e < -exponentLimit
  · rw [if_pos small]
    split
    · -- What is left of a subnormal number is still far below a cent.
      have left := digitCount_mono (dropDigits_le .even c (exponentFloor - e).toNat)
      have next : digitCount (c + 1) ≤ precision + 1 := by
        have most := lt_pow_digitCount c
        have power : 10 ^ digitCount c ≤ 10 ^ precision := Nat.pow_le_pow_right (by decide) few
        apply (digitCount_le_iff (by decide)).mpr
        rw [Nat.pow_succ]
        omega
      simp only [adjusted, exponentLimit] at small
      rw [Except.bind, toCents_eq, toCents_eq, roundedCents_tiny (c := c) (by omega),
        roundedCents_tiny]
      simp only [exponentFloor, exponentLimit, precision] at *
      omega
    · rfl
  · rw [if_neg small, cutTo_short few]
    dsimp only
    split
    · rename_i large
      simp only [adjusted, exponentLimit] at large
      have many : 10 ^ precision ≤ roundedCents tie c e := roundedCents_large c_zero (by omega)
      rw [toCents_eq, if_neg (by omega)]
      constructor
      · intro given
        cases given
      · intro given
        cases given
    · rfl

end Decimal

/- Line totals -/

theorem centsOf_product (q : ℤ) (s : Bool) (c : Nat) (e : Int) :
    centsOf (q * (Decimal.finite s c e).value) =
      Decimal.roundedCents .away (c * q.natAbs) e := by
  rw [centsOf, Decimal.value_mul, Decimal.abs_value, Decimal.roundedCents_away]

theorem lineTotal_rounded {q : ℤ} {s : Bool} {c : Nat} {e : Int} {total : Decimal}
    (few : digitCount (c * q.natAbs) ≤ precision) :
    lineTotal q (.finite s c e) = .ok total ↔
      centsOf (q * (Decimal.finite s c e).value) < 10 ^ precision ∧ total =
        .finite (s != decide (q < 0)) (centsOf (q * (Decimal.finite s c e).value)) (-2) := by
  rw [lineTotal_eq, Decimal.fit_toCents few, Decimal.toCents_eq, centsOf_product]
  split
  · rename_i fits
    rw [and_iff_right fits, Except.ok.injEq, eq_comm]
  · rename_i exceeds
    exact iff_of_false nofun fun h => exceeds h.1

theorem Decimal.WholeCents.magnitude {s : Bool} {c : Nat} {e : Int}
    (h : (Decimal.finite s c e).WholeCents) : ∃ n : Nat, (c : ℚ) * 10 ^ e = n / 100 := by
  obtain ⟨k, cents⟩ := h.cents
  refine ⟨k.natAbs, ?_⟩
  rw [← Decimal.abs_value s, cents, abs_div, Nat.cast_natAbs, Int.cast_abs]
  norm_num

/-- A line total is the exact product rounded once, to cents with a half away from zero, if the
product has no more digits than the precision keeps; where this is too much for a total, there
is none. With a price in whole cents the product is the total, as long as it is not too much. -/
theorem line_total_rounds_once (q : ℤ) (s : Bool) (c : Nat) (e : Int) :
    let unit : Decimal := .finite s c e
    (digitCount (c * q.natAbs) ≤ precision →
      (centsOf (q * unit.value) < 10 ^ precision →
        givenLineTotal (some q) (some unit) =
          .ok (.finite (s != decide (q < 0)) (centsOf (q * unit.value)) (-2))) ∧
      (10 ^ precision ≤ centsOf (q * unit.value) →
        ∃ f, givenLineTotal (some q) (some unit) = .error (.arithmetic f))) ∧
    (unit.WholeCents → |q * unit.value| < 10 ^ 26 →
      ∃ total t k, givenLineTotal (some q) (some unit) = .ok total ∧
        total = .finite t k (-2) ∧ total.value = q * unit.value) := by
  intro unit
  have given : givenLineTotal (some q) (some unit) = (lineTotal q unit).mapError .arithmetic := rfl
  rw [given]
  constructor
  · intro few
    constructor
    · intro fits
      have priced := (lineTotal_rounded (s := s) (e := e) few).mpr ⟨fits, rfl⟩
      exact congrArg _ priced
    · intro exceeds
      cases run : lineTotal q unit with
      | ok total =>
        have fits := ((lineTotal_rounded few).mp run).1
        exact absurd fits (Nat.not_lt.mpr exceeds)
      | error f => exact ⟨f, rfl⟩
  · intro whole bounded
    obtain ⟨n, cents⟩ := whole.magnitude
    have product : ((c * q.natAbs : Nat) : ℚ) * 10 ^ e = (n * q.natAbs : Nat) / 100 := by
      push_cast
      rw [mul_right_comm, cents]
      ring
    rw [Decimal.value_mul, Decimal.abs_value, product, div_lt_iff₀ (by norm_num)] at bounded
    have few : n * q.natAbs < 10 ^ precision := by exact_mod_cast bounded
    refine ⟨_, _, _, congrArg _ ((lineTotal_cents product).mpr ⟨few, rfl⟩), rfl, ?_⟩
    rw [Decimal.value_mul, Decimal.cents_value, Decimal.value, product]

/-- Three units at 33.5 cents are charged back, and the half cent goes away from zero. Three at
33 cents cost 99. Two of half the bound on totals have none. -/
theorem half_cents_charged_back :
    givenLineTotal (some (-3)) (some (.finite false 335 (-3))) = .ok (.finite true 101 (-2)) ∧
    (∃ total, givenLineTotal (some 3) (some (.ofCents 33)) = .ok total ∧ total.value = 99 / 100) ∧
    ∃ f, givenLineTotal (some 2) (some (.finite false 5 25)) = .error (.arithmetic f) := by
  refine ⟨?_, ?_, ?_⟩
  · obtain ⟨few, _⟩ := line_total_rounds_once (-3) false 335 (-3)
    have cents : centsOf ((-3 : ℤ) * (Decimal.finite false 335 (-3)).value) = 101 := by
      rw [centsOf_product]
      decide
    have total := (few (by decide)).1 (by rw [cents]; decide)
    rwa [cents] at total
  · obtain ⟨_, whole⟩ := line_total_rounds_once 3 false 33 (-2)
    have value : (Decimal.finite false 33 (-2)).value = 33 / 100 := by
      rw [Decimal.cents_value]
      norm_num
    obtain ⟨total, _, _, told, _, same⟩ := whole ⟨rfl, 33, by rw [value]; norm_num⟩
      (by rw [value]; norm_num)
    refine ⟨total, told, ?_⟩
    rw [same, value]
    norm_num
  · obtain ⟨few, _⟩ := line_total_rounds_once 2 false 5 25
    apply (few (by decide)).2
    rw [centsOf_product]
    decide

/- Order totals -/

/-- The totals that count for an order, those that are given and positive. -/
def countedTotals (totals : List (Option Decimal)) : List Decimal :=
  totals.reduceOption.filter (0 < ·.value)

def exactSum (totals : List (Option Decimal)) : ℚ :=
  ((countedTotals totals).map Decimal.value).sum

theorem exactSum_none (totals : List (Option Decimal)) :
    exactSum (none :: totals) = exactSum totals := rfl

theorem exactSum_some (d : Decimal) (totals : List (Option Decimal)) :
    exactSum (some d :: totals) = (if 0 < d.value then d.value else 0) + exactSum totals := by
  unfold exactSum countedTotals
  rw [List.reduceOption_cons_of_some, List.filter_cons]
  by_cases positive : 0 < d.value <;> simp [positive]

theorem Decimal.WholeCents.counts {d : Decimal} (whole : d.WholeCents) :
    ∃ m, Counts (some d) m ∧ (m : ℚ) / 100 = if 0 < d.value then d.value else 0 := by
  cases d with
  | infinite s => exact absurd whole.finite nofun
  | nan s g p => exact absurd whole.finite nofun
  | finite s c e =>
    obtain ⟨n, cents⟩ := whole.magnitude
    by_cases nothing : s = true ∨ c = 0
    · have least : ¬0 < (Decimal.finite s c e).value := by
        have magnitude : (0 : ℚ) ≤ c * 10 ^ e := by positivity
        rcases nothing with rfl | rfl <;> simp [Decimal.value, magnitude]
      refine ⟨0, .skipped nothing, ?_⟩
      rw [if_neg least]
      simp
    · obtain ⟨positive, nonzero⟩ := not_or.mp nothing
      obtain rfl : s = false := by simpa using positive
      have same : (Decimal.finite false c e).value = n / 100 := by simpa [Decimal.value] using cents
      have counts : 0 < (Decimal.finite false c e).value := by
        rw [same, ← cents]
        have positive : 0 < c := Nat.pos_of_ne_zero nonzero
        positivity
      exact ⟨n, .cents nonzero cents, by rw [if_pos counts, same]⟩

theorem exactSum_counts {totals : List (Option Decimal)}
    (whole : ∀ d, some d ∈ totals → d.WholeCents) :
    ∃ ms, List.Forall₂ Counts totals ms ∧ ((ms.sum : ℕ) : ℚ) / 100 = exactSum totals := by
  induction totals with
  | nil => exact ⟨[], .nil, by simp [exactSum, countedTotals]⟩
  | cons entry totals ih =>
    obtain ⟨ms, counts, sum⟩ := ih fun d member => whole d (List.mem_cons_of_mem _ member)
    cases entry with
    | none =>
      refine ⟨0 :: ms, .cons .missing counts, ?_⟩
      rw [List.sum_cons, Nat.zero_add, sum, exactSum_none]
    | some d =>
      obtain ⟨m, first, cents⟩ := (whole d List.mem_cons_self).counts
      refine ⟨m :: ms, .cons first counts, ?_⟩
      rw [List.sum_cons, Nat.cast_add, add_div, cents, sum, exactSum_some]

theorem orderTotal_exact {totals : List (Option Decimal)} {total : Decimal}
    (whole : ∀ d, some d ∈ totals → d.WholeCents) :
    orderTotal totals = .ok total ↔
      exactSum totals < 10 ^ 26 ∧ total.value = exactSum totals ∧
        ∃ n, total = .finite false n (-2) := by
  obtain ⟨ms, counts, sum⟩ := exactSum_counts whole
  rw [orderTotal_cents counts, ← sum, ← not_le, ← not_le, Decimal.many_cents, ofCents_natCast]
  apply and_congr_right
  intro few
  constructor
  · rintro rfl
    exact ⟨by simpa using Decimal.cents_value false ms.sum, _, rfl⟩
  · rintro ⟨value, n, rfl⟩
    have same : (n : ℚ) = (ms.sum : ℕ) := by
      rw [Decimal.cents_value] at value
      simpa using value
    rw [Nat.cast_inj.mp same]

theorem exactSum_perm {totals others : List (Option Decimal)}
    (same : (countedTotals others).Perm (countedTotals totals)) :
    exactSum others = exactSum totals :=
  (same.map Decimal.value).sum_eq

/-- An order costs the exact sum of the positive totals of its lines, if these are whole cents,
and has no total where the sum is too much. Neither the order of the lines counts nor those
without a total or with none that is positive. Only the kind of fault may depend on the order,
near the largest numbers there are. -/
theorem order_total_exact {totals : List (Option Decimal)}
    (whole : ∀ d, some d ∈ totals → d.WholeCents) :
    (exactSum totals < 10 ^ 26 → ∃ total n, orderTotal totals = .ok total ∧
      total = .finite false n (-2) ∧ total.value = exactSum totals) ∧
    (10 ^ 26 ≤ exactSum totals → ∃ f, orderTotal totals = .error f) ∧
    ∀ others : List (Option Decimal), (∀ d, some d ∈ others → d.WholeCents) →
      (countedTotals others).Perm (countedTotals totals) →
      ∀ total, orderTotal others = .ok total ↔ orderTotal totals = .ok total := by
  refine ⟨?_, ?_, ?_⟩
  · intro fits
    obtain ⟨ms, counts, sum⟩ := exactSum_counts whole
    have few : ms.sum < 10 ^ precision := by
      rw [← sum, ← not_le, Decimal.many_cents] at fits
      omega
    have summed := (orderTotal_cents counts).mpr ⟨few, rfl⟩
    refine ⟨_, ms.sum, summed, ofCents_natCast _, ?_⟩
    rw [ofCents_value, sum]
  · intro exceeds
    cases run : orderTotal totals with
    | ok total =>
      have fits := ((orderTotal_exact whole).mp run).1
      exact absurd fits (not_lt.mpr exceeds)
    | error f => exact ⟨f, rfl⟩
  · intro others whole' same total
    rw [orderTotal_exact whole', orderTotal_exact whole, exactSum_perm same]

theorem ofCents_whole (n : Nat) : (Decimal.ofCents n).WholeCents where
  finite := rfl
  cents := ⟨n, ofCents_value n⟩

/-- Ten cents, a missing line, a line that is charged back and one of twenty come to the same
as twenty and ten cents. A line at the bound has no total. -/
theorem charged_back_left_out :
    let lines := [some (.ofCents 10), none, some (.finite true 500 (-2)), some (.ofCents 2000)]
    (∃ total, orderTotal lines = .ok total ∧ total.value = 201 / 10 ∧
      orderTotal [some (.ofCents 2000), some (.ofCents 10)] = .ok total) ∧
    ∃ f, orderTotal [some (.finite false 1 26)] = .error f := by
  intro lines
  have back : (Decimal.finite true 500 (-2)).value = -5 := by norm_num [Decimal.value]
  have ten : (Decimal.ofCents 10).value = 1 / 10 := by norm_num [Decimal.ofCents, Decimal.value]
  have twenty : (Decimal.ofCents 2000).value = 20 := by norm_num [Decimal.ofCents, Decimal.value]
  have whole : ∀ d, some d ∈ lines → d.WholeCents := by
    intro d member
    simp only [lines, List.mem_cons, Option.some.injEq, List.not_mem_nil, reduceCtorEq, or_false,
      false_or] at member
    rcases member with rfl | rfl | rfl
    · exact ofCents_whole 10
    · exact ⟨rfl, -500, by rw [back]; norm_num⟩
    · exact ofCents_whole 2000
  constructor
  · obtain ⟨given, _, same⟩ := order_total_exact whole
    have sum : exactSum lines = 201 / 10 := by
      norm_num [lines, exactSum_some, exactSum_none, exactSum, countedTotals, back, ten, twenty]
    obtain ⟨total, n, summed, _, value⟩ := given (by rw [sum]; norm_num)
    refine ⟨total, summed, value.trans sum, (same _ ?_ ?_ total).mpr summed⟩
    · intro d member
      apply whole
      simp only [lines, List.mem_cons] at member ⊢
      tauto
    · simpa [countedTotals, lines, back, ten, twenty] using List.Perm.swap _ _ _
  · have large : (Decimal.finite false 1 26).value = 10 ^ 26 := by norm_num [Decimal.value]
    have whole' : ∀ d, some d ∈ [some (Decimal.finite false 1 26)] → d.WholeCents := by
      intro d member
      obtain rfl : d = .finite false 1 26 := by simpa using member
      exact ⟨rfl, 10 ^ 28, by rw [large]; norm_num⟩
    obtain ⟨_, refused, _⟩ := order_total_exact whole'
    apply refused
    norm_num [exactSum_some, large]
    norm_num [exactSum, countedTotals]

-- Four tenths of the last digit are rounded away twice, and together they carry beyond the range.
example :
    let most : Decimal := .finite false (10 ^ 28 - 1) 999972
    let little : Decimal := .finite false 4 999971
    orderTotal [some most, some little, some little] = .error .invalidOperation ∧
      orderTotal [some little, some little, some most] = .error .overflow := by
  decide +kernel

end Stockroom
