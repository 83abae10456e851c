import Stockroom.Desk.Form
import Stockroom.Proofs.Digits
import Stockroom.Store.Amount
import Stockroom.Totals

namespace Stockroom

def Decimal.Storable (d : Decimal) : Prop :=
  ∃ a, Amount.ofDecimal? d = some a ∧ a.isFinite = true

theorem storable_of_digits {s : Bool} {c : Nat} {e : Int} (h : digitCount c + e ≤ 60) :
    (Decimal.finite s c e).Storable := by
  have finite := Binary64.ofPower10_finite (s := s) h
  unfold Decimal.Storable Amount.ofDecimal? Binary64.ofDecimal
  cases stored : Binary64.ofPower10 s c e with
  | finite t m f => exact ⟨.finite (t && m ≠ 0) m f, by simp only [stored], rfl⟩
  | infinite t => simp [stored, Binary64.isFinite] at finite
  | nan => simp [stored, Binary64.isFinite] at finite

theorem Decimal.Storable.finite {d : Decimal} (h : d.Storable) {a : Amount}
    (stored : Amount.ofDecimal? d = some a) : a.isFinite = true := by
  obtain ⟨b, same, finite⟩ := h
  cases stored.symm.trans same
  exact finite

theorem read_finite {a : Amount} (h : a.isFinite = true) :
    ∃ s c, a.read = .finite s c (-2) := by
  cases a with
  | finite s m e => exact ⟨s, _, rfl⟩
  | infinite s => cases h
  | nan => cases h

theorem finite_of_read {a : Amount} (h : a.read.isFinite = true) :
    ∃ s c, a.read = .finite s c (-2) := by
  refine read_finite ?_
  cases a with
  | finite s m e => rfl
  | infinite s => cases h
  | nan => cases h

/- Totals -/

theorem toCents_storable {tie : Tie} {d total : Decimal} (h : d.toCents tie = .ok total)
    (finite : total.isFinite = true) : total.Storable := by
  obtain ⟨s, c, f, rfl, _, k, rfl, few⟩ := Decimal.quantize_digits h finite
  have bound : Decimal.precision = 28 := rfl
  apply storable_of_digits
  omega

theorem lineTotal_ok {q : Int} {unit total : Decimal} (priced : lineTotal q unit = .ok total) :
    ∃ d, unit.multiply (.ofInt q) = .ok d ∧ d.toCents .away = .ok total := by
  unfold lineTotal at priced
  cases multiplied : unit.multiply (.ofInt q) with
  | error f =>
    rw [multiplied] at priced
    cases priced
  | ok d =>
    rw [multiplied] at priced
    exact ⟨d, rfl, priced⟩

/-- A unit price has no more digits than its multiple, which has no more than the total. -/
theorem unitPrice_digits {q : Int} {s : Bool} {c : Nat} {total : Decimal} (positive : 0 < q)
    (priced : lineTotal q (.finite s c (-2)) = .ok total) (finite : total.isFinite = true) :
    digitCount c ≤ 28 := by
  by_cases hc : c = 0
  · subst hc
    decide
  have product_nonzero : c * q.natAbs ≠ 0 := Nat.mul_ne_zero hc (by omega)
  have grown : c ≤ c * q.natAbs := Nat.le_mul_of_pos_right c (by omega)
  have counted := digitCount_mono grown
  have pos := digitCount_pos (c * q.natAbs)
  have large : -Decimal.exponentLimit ≤ Decimal.adjusted (c * q.natAbs) (-2 + 0) := by
    simp only [Decimal.adjusted, Decimal.exponentLimit]
    omega
  obtain ⟨d, multiplied, rounded⟩ := lineTotal_ok priced
  obtain ⟨c', e', rfl, nonzero, kept⟩ := Decimal.fit_digits product_nonzero large multiplied
  obtain ⟨_, _, _, shape, few, _⟩ := Decimal.quantize_digits rounded finite
  cases shape
  have short := few nonzero
  have bound : Decimal.precision = 28 := rfl
  omega

theorem lineTotal_storable {q : Int} {s : Bool} {c : Nat} {total : Decimal} (positive : 0 < q)
    (priced : lineTotal q (.finite s c (-2)) = .ok total) (finite : total.isFinite = true) :
    (Decimal.finite s c (-2)).Storable ∧ total.Storable := by
  constructor
  · have few := unitPrice_digits positive priced finite
    apply storable_of_digits
    omega
  · obtain ⟨d, _, rounded⟩ := lineTotal_ok priced
    exact toCents_storable rounded finite

theorem orderTotal_storable {totals : List (Option Decimal)} {total : Decimal}
    (summed : orderTotal totals = .ok total) (finite : total.isFinite = true) :
    total.Storable := by
  unfold orderTotal at summed
  cases added : totals.foldlM addTotal (.ofCents 0) with
  | error f =>
    rw [added] at summed
    cases summed
  | ok d =>
    rw [added] at summed
    exact toCents_storable summed finite

/- Prices -/

namespace Desk

theorem shortest_digits {s : Bool} {c : Nat} {e : Int} (hc : c ≠ 0)
    (large : -Decimal.exponentLimit ≤ Decimal.adjusted c e) :
    ∃ c' e', shortest (.finite s c e) = .finite s c' e' ∧
      digitCount c + e ≤ digitCount c' + e' := by
  cases fitted : Decimal.fit s c e with
  | error f =>
    refine ⟨c, e, ?_, Int.le_refl _⟩
    simp only [shortest, Decimal.normalize, fitted, bind, Except.bind]
  | ok d =>
    obtain ⟨c', e', rfl, nonzero, kept⟩ := Decimal.fit_digits hc large fitted
    obtain ⟨_, stripped⟩ := Decimal.stripZeros_digits (f := digitCount c') (e := e') nonzero
    refine ⟨(Decimal.stripZeros (digitCount c') c' e').1,
      (Decimal.stripZeros (digitCount c') c' e').2, ?_, by omega⟩
    simp only [shortest, Decimal.normalize, fitted, bind, Except.bind, nonzero, if_false]

theorem digitsOf_ge (s : Bool) (c : Nat) (e : Int) :
    digitCount c + e ≤ (digitsOf (.finite s c e)).1 := by
  simp only [digitsOf]
  split <;> simp only <;> omega

theorem price_accepted {d : Decimal} (checked : checkPrice d = .accepted d) :
    ∃ c e, d = .finite false c e ∧ c ≠ 0 ∧ -2 ≤ Decimal.adjusted c e ∧
      fits (·.1) priceDigits d = true ∧ fits (·.2) pricePlaces d = true := by
  unfold checkPrice at checked
  split at checked
  · cases checked
  rename_i few
  split at checked
  · cases checked
  rename_i short
  split at checked
  · cases checked
  split at checked
  · rename_i cent
    cases d with
    | finite s c e =>
      simp only [isAtLeastCent, Bool.and_eq_true, decide_eq_true_eq] at cent
      obtain ⟨⟨positive, nonzero⟩, least⟩ := cent
      obtain rfl : s = false := by simpa using positive
      exact ⟨c, e, rfl, nonzero, least, by simpa using few, by simpa using short⟩
    | infinite s => cases cent
    | nan s g p => cases cent
  · cases checked

theorem price_finite {d : Decimal} (checked : checkPrice d = .accepted d) : d.isFinite = true := by
  obtain ⟨c, e, rfl, _⟩ := price_accepted checked
  rfl

theorem price_storable {d : Decimal} (checked : checkPrice d = .accepted d) : d.Storable := by
  obtain ⟨c, e, rfl, nonzero, least, few, _⟩ := price_accepted checked
  have large : -Decimal.exponentLimit ≤ Decimal.adjusted c e := by
    simp only [Decimal.exponentLimit]
    omega
  obtain ⟨c', e', short, kept⟩ := shortest_digits (s := false) nonzero large
  have written := digitsOf_ge false c e
  have shortened := digitsOf_ge false c' e'
  have bound : (digitsOf (.finite false c' e')).1 ≤ 17 ∨ (digitsOf (.finite false c e)).1 ≤ 17 := by
    have few : fits (·.1) 17 (.finite false c e) = true := few
    simpa [fits, short] using few
  apply storable_of_digits
  omega

end Desk
end Stockroom
