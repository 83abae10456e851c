import Stockroom.Proofs.Powers
import Stockroom.Proofs.Retries

namespace Stockroom
namespace Attempts

open Binary64 (nearest limit finite)

/-- Settings that are accepted, with a finite multiplier and intervals that are exact. -/
structure Plain (s : Settings.Attempts) : Prop where
  finite : s.multiplier.isFinite = true
  accepted : Field.atLeastOne s.multiplier = .accepted s.multiplier
  initial : s.initialIntervalMs < 2 ^ 53
  longest : s.maxIntervalMs < 2 ^ 53

/-- The factor after the attempt is out of range, or the number of the attempt is. -/
def Overgrown (s : Settings.Attempts) (n : Nat) : Prop :=
  limit ≤ (n - 1 : Nat) ∨ ∃ k : Nat, (nearest (n - 1 : Nat)).value = k ∧
    limit ≤ s.multiplier.value ^ k

def held (s : Settings.Attempts) (product : ℚ) : Binary64 :=
  if (s.maxIntervalMs : ℚ) ≤ product then nearest (s.maxIntervalMs / millis)
  else nearest ((nearest product).value / millis)

variable {s : Settings.Attempts} {n : Nat}

theorem Plain.multiplier (h : Plain s) :
    ∃ m e, s.multiplier = .finite false m e ∧ m ≠ 0 ∧ 1 ≤ s.multiplier.value := by
  have accepted := h.accepted
  have finite := h.finite
  unfold Field.atLeastOne at accepted
  split at accepted
  · rename_i least
    cases factor : s.multiplier with
    | nan => simp [factor, Binary64.isFinite] at finite
    | infinite => simp [factor, Binary64.isFinite] at finite
    | finite negative m e =>
      obtain ⟨m', e', one, value⟩ := Binary64.nearest_short (n := 1) (by norm_num)
      rw [factor, show (1 : Int) = (1 : Nat) from rfl, Binary64.ofInt_nearest, one,
        Binary64.atMost_finite, value, Nat.cast_one] at least
      cases negative with
      | false =>
        refine ⟨m, e, rfl, ?_, least⟩
        rintro rfl
        norm_num [Binary64.value] at least
      | true =>
        have below : (Binary64.finite true m e).value ≤ 0 := by
          simp only [Binary64.value, if_true, neg_mul, one_mul, Left.neg_nonpos_iff]
          positivity
        linarith
  · cases accepted

theorem growth_beyond (low : 1 ≤ n) (beyond : limit ≤ (n - 1 : Nat)) :
    growth s n = .error .beyondFraction := by
  have before : (n : Int) - 1 = (n - 1 : Nat) := by omega
  have infinite := (Binary64.nearest_infinite_iff (Nat.cast_nonneg _)).mpr beyond
  unfold growth
  rw [before, Binary64.ofInt_nearest, infinite]
  rfl

/-- Within the range the factor is the power nearest to the exact one, or it is too large. -/
theorem growth_within (plain : Plain s) (low : 1 ≤ n) (within : ((n - 1 : Nat) : ℚ) < limit) :
    ∃ k : Nat, (nearest (n - 1 : Nat)).value = k ∧ growth s n =
      if limit ≤ s.multiplier.value ^ k then .error .powerTooLarge
      else .ok (nearest (s.multiplier.value ^ k)) := by
  have before : (n : Int) - 1 = (n - 1 : Nat) := by omega
  obtain ⟨m, e, factor, nonzero, least⟩ := plain.multiplier
  obtain ⟨m', e', k, number, value, _⟩ := Binary64.nearest_whole within
  have positive : 0 ≤ s.multiplier.value ^ k := by positivity
  have powers := Binary64.power_nearest (e := e) nonzero k
  rw [← factor] at powers
  refine ⟨k, by rw [number, value], ?_⟩
  unfold growth
  rw [before, Binary64.ofInt_nearest, number, Binary64.toInt?_value value]
  simp only [powers, plain.finite, Bool.true_and, decide_eq_true_eq,
    Binary64.nearest_infinite_iff positive]

theorem longest_below (plain : Plain s) : (s.maxIntervalMs : ℚ) / millis < limit :=
  (div_le_self (Nat.cast_nonneg _) (by norm_num [millis])).trans_lt
    (Binary64.short_lt_limit plain.longest)

theorem longestWait_eq (plain : Plain s) :
    longestWait s = .ok (nearest (s.maxIntervalMs / millis)) := by
  obtain ⟨m, e, finite⟩ := Binary64.nearest_finite (by positivity) (longest_below plain)
  unfold longestWait
  rw [Binary64.ofRatio_nearest _ (by decide), finite]
  rfl

theorem below_longest (plain : Plain s) {p : ℚ} (hp : 0 ≤ p)
    (h : ¬(s.maxIntervalMs : ℚ) ≤ p) :
    ∃ m e, nearest p = .finite false m e ∧ (nearest p).value ≤ s.maxIntervalMs := by
  have short := Binary64.short_lt_limit plain.longest
  have less := (not_le.mp h).le
  obtain ⟨m, e, finite⟩ := Binary64.nearest_finite hp (less.trans_lt short)
  obtain ⟨m', e', longest, value⟩ := Binary64.nearest_short plain.longest
  have order := Binary64.nearest_value_mono hp less short
  rw [longest, value] at order
  exact ⟨m, e, finite, order⟩

theorem held_eq (plain : Plain s) {p : ℚ} (hp : 0 ≤ p) :
    (if (nearest p).belowInt s.maxIntervalMs then .ok ((nearest p).divideNat millis)
      else longestWait s) = .ok (held s p) := by
  unfold held
  by_cases reached : (s.maxIntervalMs : ℚ) ≤ p
  · have above : (nearest p).belowInt s.maxIntervalMs = false := by
      obtain ⟨m, e, longest, value⟩ := Binary64.nearest_short plain.longest
      have order := Binary64.nearest_mono (Nat.cast_nonneg _) reached
      rcases Binary64.nearest_form hp with infinite | ⟨m', e', finite⟩
      · rw [infinite]
        rfl
      · rw [longest, finite, Binary64.atMost_finite, value] at order
        rw [finite, ← Bool.not_eq_true, Binary64.belowInt_finite]
        exact_mod_cast not_lt.mpr order
    rw [above, if_pos reached, longestWait_eq plain]
    rfl
  · obtain ⟨m, e, finite, most⟩ := below_longest plain hp reached
    rw [if_neg reached, finite]
    rw [finite] at most
    by_cases less : (Binary64.finite false m e).value < s.maxIntervalMs
    · rw [if_pos (Binary64.belowInt_finite.mpr (by exact_mod_cast less)),
        Binary64.divideNat_nearest (by decide)]
    · rw [if_neg (Binary64.belowInt_finite.not.mpr (by exact_mod_cast less)), longestWait_eq plain,
        le_antisymm most (not_lt.mp less)]

theorem held_bounds (plain : Plain s) {p : ℚ} (hp : 0 ≤ p) :
    (held s p).isFinite = true ∧ 0 ≤ (held s p).value ∧
      (held s p).value ≤ (nearest (s.maxIntervalMs / millis)).value := by
  have below := longest_below plain
  unfold held
  by_cases reached : (s.maxIntervalMs : ℚ) ≤ p
  · rw [if_pos reached]
    obtain ⟨m, e, finite⟩ := Binary64.nearest_finite (by positivity) below
    exact ⟨by rw [finite]; rfl, Binary64.nearest_value_nonneg (by positivity), le_rfl⟩
  · obtain ⟨_, _, _, most⟩ := below_longest plain hp reached
    have quotient_nonneg : 0 ≤ (nearest p).value / millis :=
      div_nonneg (Binary64.nearest_value_nonneg hp) (Nat.cast_nonneg _)
    have order : (nearest p).value / millis ≤ s.maxIntervalMs / millis := by gcongr
    rw [if_neg reached]
    obtain ⟨m, e, finite⟩ := Binary64.nearest_finite quotient_nonneg (order.trans_lt below)
    exact ⟨by rw [finite]; rfl, Binary64.nearest_value_nonneg quotient_nonneg,
      Binary64.nearest_value_mono quotient_nonneg order below⟩

theorem held_mono (plain : Plain s) {p q : ℚ} (hp : 0 ≤ p) (h : p ≤ q) :
    (held s p).value ≤ (held s q).value := by
  by_cases reached : (s.maxIntervalMs : ℚ) ≤ q
  · have most := (held_bounds plain hp).2.2
    rwa [show held s q = nearest (s.maxIntervalMs / millis) from if_pos reached]
  · have before : ¬(s.maxIntervalMs : ℚ) ≤ p := fun le => reached (le.trans h)
    have short := (not_le.mp reached).trans (Binary64.short_lt_limit plain.longest)
    obtain ⟨_, _, _, most⟩ := below_longest plain (hp.trans h) reached
    have nonneg := Binary64.nearest_value_nonneg hp
    unfold held
    rw [if_neg reached, if_neg before]
    apply Binary64.nearest_value_mono
    · exact div_nonneg nonneg (Nat.cast_nonneg _)
    · have order := Binary64.nearest_value_mono hp h short
      gcongr
    · exact lt_of_le_of_lt (by gcongr) (longest_below plain)

theorem waitAfter_held (plain : Plain s) {factor : ℚ} (nonneg : 0 ≤ factor) (small : factor < limit)
    (grown : growth s n = .ok (nearest factor)) :
    waitAfter s n = .ok (held s (s.initialIntervalMs * (nearest factor).value)) := by
  obtain ⟨m, e, first, value⟩ := Binary64.nearest_short plain.initial
  obtain ⟨m', e', finite⟩ := Binary64.nearest_finite nonneg small
  have product : (nearest s.initialIntervalMs).multiply (nearest factor) =
      nearest (s.initialIntervalMs * (nearest factor).value) := by
    rw [first, finite, Binary64.multiply_nearest, value]
  rw [← held_eq plain (mul_nonneg (Nat.cast_nonneg _) (Binary64.nearest_value_nonneg nonneg)),
    ← product]
  unfold waitAfter
  rw [grown, Binary64.ofInt_nearest, first]
  rfl

/- All attempts -/

theorem growth_grown (plain : Plain s) (low : 1 ≤ n) (h : ¬Overgrown s n) :
    ∃ k : Nat, (nearest (n - 1 : Nat)).value = k ∧ s.multiplier.value ^ k < limit ∧
      growth s n = .ok (nearest (s.multiplier.value ^ k)) := by
  have within := not_le.mp fun beyond => h (.inl beyond)
  obtain ⟨k, number, grown⟩ := growth_within plain low within
  have small := not_le.mp fun steep => h (.inr ⟨k, number, steep⟩)
  rw [if_neg (not_le.mpr small)] at grown
  exact ⟨k, number, small, grown⟩

theorem overgrown_fails (plain : Plain s) (low : 1 ≤ n) (h : Overgrown s n) :
    ∃ f, waitAfter s n = .error f ∧ f.kind = .outOfRange := by
  have failed {f : Fault} (grown : growth s n = .error f) : waitAfter s n = .error f := by
    unfold waitAfter
    rw [grown]
    rfl
  by_cases beyond : limit ≤ (n - 1 : Nat)
  · exact ⟨_, failed (growth_beyond low beyond), rfl⟩
  · obtain ⟨k, number, steep⟩ := h.resolve_left beyond
    obtain ⟨j, number', grown⟩ := growth_within plain low (not_le.mp beyond)
    obtain rfl : k = j := by exact_mod_cast number.symm.trans number'
    rw [if_pos steep] at grown
    exact ⟨_, failed grown, rfl⟩

theorem number_mono {m : Nat} (h : m ≤ n) {j k : Nat} (within : ((n - 1 : Nat) : ℚ) < limit)
    (first : (nearest (m - 1 : Nat)).value = j) (second : (nearest (n - 1 : Nat)).value = k) :
    j ≤ k := by
  have earlier : ((m - 1 : Nat) : ℚ) ≤ (n - 1 : Nat) := by exact_mod_cast Nat.sub_le_sub_right h 1
  have order := Binary64.nearest_value_mono (Nat.cast_nonneg _) earlier within
  rw [first, second] at order
  exact_mod_cast order

theorem Overgrown.later {m : Nat} (plain : Plain s) (low : 1 ≤ m) (h : m ≤ n)
    (early : Overgrown s m) : Overgrown s n := by
  by_cases beyond : limit ≤ (n - 1 : Nat)
  · exact .inl beyond
  rcases early with early | ⟨j, number, steep⟩
  · refine absurd (early.trans ?_) beyond
    exact_mod_cast Nat.sub_le_sub_right h 1
  · obtain ⟨_, _, _, _, least⟩ := plain.multiplier
    obtain ⟨k, number', _⟩ := growth_within plain (low.trans h) (not_le.mp beyond)
    have order := number_mono h (not_le.mp beyond) number number'
    exact .inr ⟨k, number', steep.trans (pow_le_pow_right₀ least order)⟩

theorem waitAfter_mono {m : Nat} (plain : Plain s) (low : 1 ≤ m) (h : m ≤ n)
    (within : ¬Overgrown s n) : ∃ shorter longer, waitAfter s m = .ok shorter ∧
      waitAfter s n = .ok longer ∧ shorter.value ≤ longer.value := by
  have within' : ¬Overgrown s m := fun early => within (early.later plain low h)
  obtain ⟨_, _, _, _, least⟩ := plain.multiplier
  obtain ⟨j, number, small, grown⟩ := growth_grown plain low within'
  obtain ⟨k, number', small', grown'⟩ := growth_grown plain (low.trans h) within
  have order := number_mono h (not_le.mp fun beyond => within (.inl beyond)) number number'
  have powers := pow_le_pow_right₀ least order
  have nonneg : 0 ≤ s.multiplier.value ^ j := by positivity
  refine ⟨_, _, waitAfter_held plain nonneg small grown,
    waitAfter_held plain (nonneg.trans powers) small' grown', ?_⟩
  apply held_mono plain
  · exact mul_nonneg (Nat.cast_nonneg _) (Binary64.nearest_value_nonneg nonneg)
  · have factors := Binary64.nearest_value_mono nonneg powers small'
    gcongr

/-- As long as factor and number are in range, the wait never shrinks from one attempt to a
later one, and is the limit as soon as the first interval times the factor reaches it; that
factor is the computed one, which may lie below the real power. The last fault is then told,
however often it was tried; out of range there is an arithmetic fault in its place. All of it
is about the correctly rounded power, of which a platform may miss the last bit. -/
theorem wait_grows_to_limit (s : Settings.Attempts) (plain : Plain s) :
    longestWait s = .ok (nearest (s.maxIntervalMs / 1000)) ∧
    (∀ n : Nat, 1 ≤ n → Overgrown s n →
      ∃ f, waitAfter s n = .error f ∧ f.kind = .outOfRange) ∧
    (∀ n : Nat, 1 ≤ n → ¬Overgrown s n → ∃ wait, waitAfter s n = .ok wait ∧
      wait.isFinite = true ∧ 0 ≤ wait.value ∧
      wait.value ≤ (nearest (s.maxIntervalMs / 1000)).value ∧
      (∀ m : Nat, 1 ≤ m → m ≤ n →
        ∃ shorter, waitAfter s m = .ok shorter ∧ shorter.value ≤ wait.value) ∧
      ∀ factor, growth s n = .ok factor →
        (s.maxIntervalMs : ℚ) ≤ s.initialIntervalMs * factor.value →
        wait = nearest (s.maxIntervalMs / 1000)) ∧
    (¬Overgrown s s.maxAttempts.1 → ∀ f, s.Surfaces f) := by
  have thousand : ((1000 : Nat) : ℚ) = 1000 := by norm_num
  refine ⟨thousand ▸ longestWait_eq plain, fun n low large => overgrown_fails plain low large,
    ?_, ?_⟩
  · intro n low within
    obtain ⟨k, number, small, grown⟩ := growth_grown plain low within
    obtain ⟨_, _, _, _, least⟩ := plain.multiplier
    have nonneg : 0 ≤ s.multiplier.value ^ k := by positivity
    have after := waitAfter_held plain nonneg small grown
    have product : 0 ≤ (s.initialIntervalMs : ℚ) * (nearest (s.multiplier.value ^ k)).value :=
      mul_nonneg (Nat.cast_nonneg _) (Binary64.nearest_value_nonneg nonneg)
    obtain ⟨finite, nonneg, most⟩ := held_bounds plain product
    refine ⟨_, after, finite, nonneg, thousand ▸ most, ?_, ?_⟩
    · intro m first earlier
      obtain ⟨shorter, longer, before, after', order⟩ := waitAfter_mono plain first earlier within
      rw [after] at after'
      cases after'
      exact ⟨shorter, before, order⟩
    · intro factor grown' reached
      rw [grown] at grown'
      cases grown'
      rw [held, if_pos reached]
      exact thousand ▸ rfl
  · intro within f _ n low few
    obtain ⟨shorter, _, before, _⟩ := waitAfter_mono plain low few within
    exact ⟨shorter, before⟩

theorem default_plain : Plain {} where
  finite := by decide +kernel
  accepted := by
    unfold Field.atLeastOne
    rw [if_pos (by decide +kernel)]
  initial := by norm_num
  longest := by norm_num

theorem default_fifth_within : ¬Overgrown {} 5 := by
  rintro (beyond | ⟨k, number, steep⟩)
  · exact absurd beyond (not_le.mpr (Binary64.short_lt_limit (by norm_num)))
  · obtain ⟨m, e, four, value⟩ := Binary64.nearest_short (n := 4) (by norm_num)
    rw [show 5 - 1 = 4 from rfl, four, value] at number
    obtain rfl : 4 = k := by exact_mod_cast number
    have factor : ({} : Settings.Attempts).multiplier = .finite false 6755399441055744 (-52) := by
      decide +kernel
    rw [factor, Binary64.value_finite] at steep
    have small := Binary64.short_lt_limit (n := 6) (by norm_num)
    norm_num at steep small
    linarith

/-- By default the fifth wait is the longest. -/
theorem fifth_wait_is_longest :
    Plain {} ∧ ¬Overgrown {} 5 ∧ waitAfter {} (5 : Nat) = .ok (nearest (5000 / 1000)) := by
  obtain ⟨_, _, waits, _⟩ := wait_grows_to_limit {} default_plain
  obtain ⟨wait, after, _, _, _, _, reached⟩ := waits 5 (by decide) default_fifth_within
  refine ⟨default_plain, default_fifth_within, ?_⟩
  have grown : growth {} (5 : Nat) = .ok (.finite false 5699868278390784 (-50)) := by
    decide +kernel
  have longest := reached _ grown (by norm_num [Binary64.value_finite])
  rw [after, longest]
  norm_num

/-- The wait of the default settings is gone after two thousand attempts. -/
theorem two_thousandth_wait_overflows :
    Plain {} ∧ waitAfter {} 2000 = .error .powerTooLarge :=
  ⟨default_plain, by decide +kernel⟩

end Attempts
end Stockroom
