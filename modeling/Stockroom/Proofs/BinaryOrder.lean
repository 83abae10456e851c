import Mathlib.Algebra.Order.Field.Power
import Mathlib.Algebra.Order.Field.Rat
import Mathlib.Tactic.Positivity
import Mathlib.Tactic.Ring
import Stockroom.Number.Binary64

namespace Stockroom
namespace Binary64

def value : Binary64 → ℚ
  | .finite s m e => (if s then -1 else 1) * m * 2 ^ e
  | _ => 0

theorem inUnits_value {unit e : Int} (least : unit ≤ e) (s : Bool) (m : Nat) :
    (inUnits unit s m e : ℚ) * 2 ^ unit = (finite s m e).value := by
  obtain ⟨k, rfl⟩ := Int.le.dest least
  have shift : (unit + k - unit).toNat = k := by omega
  have power : (2 : ℚ) ^ (unit + k) = 2 ^ unit * 2 ^ k := by
    rw [zpow_add₀ two_ne_zero, zpow_natCast]
  simp only [inUnits, value, shift, power]
  cases s <;> simp <;> ring

theorem below_finite {s t : Bool} {m k : Nat} {e f : Int} :
    (finite s m e).below (finite t k f) = true ↔ (finite s m e).value < (finite t k f).value := by
  have positive : (0 : ℚ) < 2 ^ min e f := by positivity
  rw [← inUnits_value (min_le_left e f), ← inUnits_value (min_le_right e f),
    mul_lt_mul_iff_left₀ positive, Int.cast_lt]
  exact decide_eq_true_iff

theorem atMost_finite {s t : Bool} {m k : Nat} {e f : Int} :
    (finite s m e).atMost (finite t k f) = true ↔ (finite s m e).value ≤ (finite t k f).value := by
  rw [← not_lt, ← below_finite, Bool.not_eq_true]
  simp [atMost]

theorem atMost_trans {a b c : Binary64} (first : a.atMost b = true) (second : b.atMost c = true) :
    a.atMost c = true := by
  cases a with
  | nan => cases first
  | infinite s => cases s <;> cases b <;> cases c <;> simp_all [atMost, below]
  | finite s m e =>
    cases b with
    | nan => cases first
    | infinite t => cases c <;> simp_all [atMost, below]
    | finite t k f =>
      cases c with
      | nan => cases second
      | infinite u => simpa [atMost, below] using second
      | finite u j g =>
        exact atMost_finite.mpr ((atMost_finite.mp first).trans (atMost_finite.mp second))

theorem not_below_of_atMost {a b : Binary64} (h : a.atMost b = true) : b.below a = false := by
  cases a <;> cases b <;> simp_all [atMost]

theorem not_atMost_of_below {a b : Binary64} (h : a.below b = true) : b.atMost a = false := by
  cases a <;> cases b <;> simp_all [atMost, below]

theorem below_of_not_atMost {a b : Binary64} (ha : a.isNaN = false) (hb : b.isNaN = false)
    (h : ¬a.atMost b = true) : b.below a = true := by
  cases a <;> cases b <;> simp_all [atMost, isNaN]

end Binary64

end Stockroom
