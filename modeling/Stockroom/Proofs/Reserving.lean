import Mathlib.Algebra.Order.Group.Unbundled.Abs
import Stockroom.Proofs.Replies

namespace Stockroom

open Service (fits64 fits64_of_bounds taking)

/- Units that are wanted -/

/-- The units of a product among the wanted ones. -/
def wantedUnits (code : String) (wanted : List (String × Int)) : Int :=
  ((wanted.filter (·.1 = code)).map (·.2)).sum

theorem wantedUnits_append (code : String) (done rest : List (String × Int)) :
    wantedUnits code (done ++ rest) = wantedUnits code done + wantedUnits code rest := by
  simp [wantedUnits]

theorem wantedUnits_cons (code : String) (want : String × Int) (rest : List (String × Int)) :
    wantedUnits code (want :: rest) =
      (if want.1 = code then want.2 else 0) + wantedUnits code rest := by
  unfold wantedUnits
  by_cases here : want.1 = code
  · simp [here]
  · simp [here]

theorem wantedUnits_unnamed {code : String} {wanted : List (String × Int)}
    (unnamed : ¬wanted.any (·.1 = code) = true) : wantedUnits code wanted = 0 := by
  have no_item : wanted.filter (·.1 = code) = [] := by
    refine List.filter_eq_nil_iff.mpr fun want here named => unnamed ?_
    exact List.any_eq_true.mpr ⟨want, here, named⟩
  rw [wantedUnits, no_item]
  rfl

theorem wantedUnits_nonneg {code : String} {wanted : List (String × Int)}
    (positive : ∀ want ∈ wanted, 1 ≤ want.2) : 0 ≤ wantedUnits code wanted := by
  refine List.sum_nonneg fun n named => ?_
  obtain ⟨want, here, rfl⟩ := List.mem_map.mp named
  have := positive want (List.mem_of_mem_filter here)
  omega

theorem wantedUnits_perm {wanted wanted' : List (String × Int)} (perm : wanted.Perm wanted')
    (code : String) : wantedUnits code wanted = wantedUnits code wanted' :=
  ((perm.filter _).map _).sum_eq

/- What is not served -/

namespace Tables

/-- The fault of a wanted product that is not served from the stock that those before it left. -/
def unserved? (t : Tables) (done : List (String × Int)) (want : String × Int) : Option Fault :=
  if want.2 ≤ 0 then some (.nothingRequested want.1)
  else match t.activeProduct? want.1 with
    | none => some (.productNotFound want.1)
    | some r =>
      let left := r.stock - wantedUnits want.1 done
      if left < want.2 then some (.insufficientStock want.1 left want.2) else none

def refusal? (t : Tables) (done : List (String × Int)) : List (String × Int) → Option Fault
  | [] => none
  | want :: rest => (t.unserved? done want).or (t.refusal? (done ++ [want]) rest)

def Stocks (t : Tables) (wanted : List (String × Int)) (want : String × Int) : Prop :=
  1 ≤ want.2 ∧ ∃ r, t.activeProduct? want.1 = some r ∧ wantedUnits want.1 wanted ≤ r.stock

variable {t : Tables} {done rest wanted : List (String × Int)} {want : String × Int}

theorem unserved_none :
    t.unserved? done want = none ↔
      1 ≤ want.2 ∧ ∃ r, t.activeProduct? want.1 = some r ∧
        wantedUnits want.1 done + want.2 ≤ r.stock := by
  unfold unserved?
  by_cases nothing : want.2 ≤ 0
  · rw [if_pos nothing]
    refine iff_of_false nofun fun h => ?_
    have := h.1
    omega
  · rw [if_neg nothing]
    cases t.activeProduct? want.1 with
    | none => simp
    | some r =>
      simp only [Option.some.injEq, exists_eq_left']
      split
      · simp only [reduceCtorEq, false_iff]
        omega
      · simp only [true_iff]
        omega

theorem refusal_append :
    t.refusal? done (rest ++ wanted) =
      (t.refusal? done rest).or (t.refusal? (done ++ rest) wanted) := by
  induction rest generalizing done with
  | nil => simp [refusal?]
  | cons want rest ih => simp [refusal?, ih, Option.or_assoc]

/-- Reservations one after another are served exactly if their sums are. -/
theorem refusal_none :
    t.refusal? done wanted = none ↔ ∀ want ∈ wanted, t.Stocks (done ++ wanted) want := by
  induction wanted generalizing done with
  | nil => simp [refusal?]
  | cons want rest ih =>
    have whole : done ++ [want] ++ rest = done ++ want :: rest := by simp
    rw [refusal?, Option.or_eq_none_iff, unserved_none, ih, List.forall_mem_cons, whole]
    refine and_congr_left fun later => ?_
    have units : wantedUnits want.1 (done ++ want :: rest) =
        wantedUnits want.1 done + want.2 + wantedUnits want.1 rest := by
      rw [wantedUnits_append, wantedUnits_cons, if_pos rfl, Int.add_assoc]
    have least : 0 ≤ wantedUnits want.1 rest :=
      wantedUnits_nonneg fun want here => (later want here).1
    refine and_congr_right fun positive => ?_
    constructor
    · rintro ⟨r, found, enough⟩
      by_cases again : rest.any (·.1 = want.1) = true
      · -- A later reservation of the product has already been served with all units.
        obtain ⟨want', here, same⟩ := List.any_eq_true.mp again
        have same : want'.1 = want.1 := of_decide_eq_true same
        exact same ▸ (later want' here).2
      · refine ⟨r, found, ?_⟩
        rw [units, wantedUnits_unnamed again]
        omega
    · rintro ⟨r, found, enough⟩
      exact ⟨r, found, by omega⟩

end Tables

/- Tables that units were taken from -/

def ProductRow.drawn (wanted : List (String × Int)) (m : Moment) (r : ProductRow) : ProductRow :=
  if wanted.any (·.1 = r.code) then
    { r with stock := r.stock - wantedUnits r.code wanted, updatedAt := some m }
  else r

def Tables.drawn (t : Tables) (wanted : List (String × Int)) (m : Moment) : Tables :=
  { t with products := t.products.map (·.drawn wanted m) }

section

variable {t : Tables} {done wanted : List (String × Int)} {m : Moment}

theorem drawn_face (wanted : List (String × Int)) (m : Moment) (r : ProductRow) :
    (r.drawn wanted m).face = r.face := by
  unfold ProductRow.drawn
  split <;> rfl

theorem drawn_stock (wanted : List (String × Int)) (m : Moment) (r : ProductRow) :
    (r.drawn wanted m).stock = r.stock - wantedUnits r.code wanted := by
  unfold ProductRow.drawn
  split
  · rfl
  · rename_i unnamed
    rw [wantedUnits_unnamed unnamed, Int.sub_zero]

theorem drawn_perm {wanted' : List (String × Int)} (perm : wanted.Perm wanted') (m : Moment)
    (r : ProductRow) : r.drawn wanted m = r.drawn wanted' m := by
  rw [ProductRow.drawn, ProductRow.drawn, wantedUnits_perm perm, perm.any_eq]

theorem drawn_nil (t : Tables) (m : Moment) : t.drawn [] m = t := by
  simp [Tables.drawn, ProductRow.drawn]

theorem drawn_active (t : Tables) (done : List (String × Int)) (m : Moment) (code : String) :
    (t.drawn done m).activeProduct? code = (t.activeProduct? code).map (·.drawn done m) :=
  active_map rfl (fun r => congrArg (·.code) (drawn_face done m r))
    (fun r => congrArg (·.archived) (drawn_face done m r)) code

theorem drawn_faces (t : Tables) (done : List (String × Int)) (m : Moment) :
    SameFaces t (t.drawn done m) := by
  refine ⟨?_, rfl, rfl⟩
  unfold Tables.drawn
  rw [List.map_map]
  exact List.map_congr_left fun r _ => drawn_face done m r

theorem drawn_once (done : List (String × Int)) (code : String) (quantity : Int) (m : Moment)
    (r : ProductRow) :
    r.drawn (done ++ [(code, quantity)]) m =
      if r.code = code then
        { r.drawn done m with stock := (r.drawn done m).stock - quantity, updatedAt := some m }
      else r.drawn done m := by
  have units : wantedUnits r.code (done ++ [(code, quantity)]) =
      wantedUnits r.code done + if code = r.code then quantity else 0 := by
    rw [wantedUnits_append, wantedUnits_cons]
    exact congrArg _ (Int.add_zero _)
  by_cases here : r.code = code
  · have named : (done ++ [(code, quantity)]).any (·.1 = r.code) = true := by simp [here]
    have taken : r.stock - (wantedUnits r.code done + quantity) =
        r.stock - wantedUnits r.code done - quantity := by omega
    rw [if_pos here, drawn_stock, ProductRow.drawn, if_pos named, units, if_pos here.symm, taken]
    unfold ProductRow.drawn
    split <;> rfl
  · have other : ¬code = r.code := fun same => here same.symm
    have same : (done ++ [(code, quantity)]).any (·.1 = r.code) =
        done.any (·.1 = r.code) := by
      rw [List.any_append]
      simp [other]
    rw [if_neg here, ProductRow.drawn, ProductRow.drawn, same, units, if_neg other, Int.add_zero]

theorem drawn_more {code : String} {quantity : Int} {r : ProductRow} (unique : t.UniqueCodes)
    (member : r ∈ t.products) (named : r.code = code) :
    ((t.drawn done m).updateProduct code fun row =>
        { row with stock := (r.drawn done m).stock - quantity, updatedAt := some m }) =
      t.drawn (done ++ [(code, quantity)]) m := by
  unfold Tables.updateProduct Tables.drawn
  simp only [List.map_map]
  congr 1
  refine List.map_congr_left fun row known => ?_
  have codes : (row.drawn done m).code = row.code := congrArg (·.code) (drawn_face done m row)
  rw [Function.comp_apply, drawn_once]
  by_cases here : row.code = code
  · cases eq_of_nodup unique known member (here.trans named.symm)
    rw [if_pos (codes.trans here), if_pos here]
  · rw [if_neg fun same => here (codes.symm.trans same), if_neg here]

end

/- Costs of what is wanted -/

/-- What a wanted product costs, in cents, at the price that it is on offer for; as nothing keeps
prices above zero, this may be less than nothing. -/
def Tables.lineCents (t : Tables) (want : String × Int) : Int :=
  (t.activeProduct? want.1).elim 0 fun r => r.price.read.inUnits (-2) * want.2

structure Charged (t : Tables) (want : String × Int) (line : OrderLine) : Prop where
  cents : ∃ s k, line.totalPrice = .finite s k (-2) ∧
    t.lineCents want = if s then -(k : Int) else k
  few : |t.lineCents want| < 10 ^ Decimal.precision

section

variable {t : Tables} {want : String × Int} {r : ProductRow} {s : Bool} {c : Nat}

theorem lineCents_read (found : t.activeProduct? want.1 = some r)
    (read : r.price.read = .finite s c (-2)) (positive : 0 < want.2) :
    t.lineCents want = if s then -((c * want.2.toNat : Nat) : Int) else (c * want.2.toNat : Nat) := by
  have quantity : (want.2.toNat : Int) = want.2 := Int.toNat_of_nonneg (Int.le_of_lt positive)
  rw [Tables.lineCents, found, Option.elim_some, read]
  push_cast
  rw [quantity]
  cases s <;> simp [Decimal.inUnits]

theorem lineCents_abs (found : t.activeProduct? want.1 = some r)
    (read : r.price.read = .finite s c (-2)) (positive : 0 < want.2) :
    |t.lineCents want| = (c * want.2.toNat : Nat) := by
  rw [lineCents_read found read positive]
  cases s
  · exact Nat.abs_cast _
  · exact (abs_neg _).trans (Nat.abs_cast _)

theorem lineTotal_charged {code : String} {quantity : Int} {p : Product} {total : Decimal}
    {line : OrderLine} (found : t.activeProduct? code = some r) (shown : p.price = r.price.read)
    (finite : r.price.read.isFinite = true) (positive : 0 < quantity)
    (priced : lineTotal quantity p.price = .ok total)
    (checked : OrderLine.check code quantity p.price total = .ok line) :
    Charged t (code, quantity) line := by
  obtain ⟨s, c, read⟩ := finite_of_read finite
  rw [shown, read] at priced
  obtain ⟨few, rfl⟩ := (lineTotal_iff positive).mp priced
  obtain ⟨_, _, rfl⟩ := check_ok checked
  refine ⟨⟨s, _, rfl, lineCents_read found read positive⟩, ?_⟩
  rw [lineCents_abs found read positive]
  exact_mod_cast few

theorem lineTotal_unpriced {quantity : Int} {code : String} {p : Product} {a : ArithmeticFault}
    (found : t.activeProduct? code = some r) (shown : p.price = r.price.read)
    (finite : r.price.read.isFinite = true) (positive : 0 < quantity)
    (failed : lineTotal quantity p.price = .error a) :
    10 ^ Decimal.precision ≤ |t.lineCents (code, quantity)| := by
  obtain ⟨s, c, read⟩ := finite_of_read finite
  rw [lineCents_abs found read positive]
  by_contra few
  have few : c * quantity.toNat < 10 ^ Decimal.precision := by exact_mod_cast Int.not_le.mp few
  rw [shown, read, (lineTotal_iff positive).mpr ⟨few, rfl⟩] at failed
  cases failed

end

/- Reservations as they are made -/

theorem taking_iff {quantity n : Int} {p : Product} :
    taking quantity p = .ok n ↔ quantity ≤ p.stock ∧ n = p.stock - quantity := by
  unfold taking
  split
  · simp only [reduceCtorEq, false_iff]
    omega
  · simp only [Except.ok.injEq]
    omega

section

variable {t : Tables} {done wanted : List (String × Int)} {m : Moment}

theorem drawn_restock {u : Tables} {code : String} {quantity : Int} {p : Product}
    (unique : t.UniqueCodes)
    (written : (t.drawn done m).restock code (taking quantity) m = .ok (p, u)) :
    ∃ r, t.activeProduct? code = some r ∧ p.price = r.price.read ∧
      r.price.read.isFinite = true ∧ wantedUnits code done + quantity ≤ r.stock ∧
      u = t.drawn (done ++ [(code, quantity)]) m := by
  obtain ⟨_, q, left, found, shown, computed, _, stored, rfl⟩ := Tables.restock_ok.mp written
  rw [drawn_active, Option.map_eq_some_iff] at found
  obtain ⟨r, known, rfl⟩ := found
  obtain ⟨member, named, _⟩ := activeProduct_mem known
  obtain ⟨finite, rfl⟩ := toProduct_ok shown
  have price : (r.drawn done m).price = r.price := congrArg (·.price) (drawn_face done m r)
  obtain ⟨_, rfl⟩ := setStock_ok stored
  obtain ⟨enough, rfl⟩ := taking_iff.mp computed
  dsimp only at enough
  rw [drawn_stock, named] at enough
  rw [price] at finite
  refine ⟨r, known, congrArg Amount.read price, finite, ?_, drawn_more unique member named⟩
  omega

theorem Reserved.served {times : List Moment} {u v : Tables} {lines : List OrderLine}
    (unique : t.UniqueCodes) (h : Reserved times u wanted lines v) (begun : u = t.drawn done m)
    (stands : times = [m]) :
    v = t.drawn (done ++ wanted) m ∧ t.refusal? done wanted = none ∧
      List.Forall₂ (Charged t) wanted lines := by
  induction h generalizing done with
  | nil => exact ⟨by simpa using begun, rfl, .nil⟩
  | @cons u v t' code quantity m' p total line rest lines shows positive written priced checked _
      ih =>
    rw [stands, List.mem_singleton] at shows
    subst begun shows
    obtain ⟨r, found, shown, finite, enough, rfl⟩ := drawn_restock unique written
    obtain ⟨after, served, charged⟩ := ih rfl
    have first : t.unserved? done (code, quantity) = none :=
      Tables.unserved_none.mpr ⟨positive, r, found, enough⟩
    refine ⟨by simpa using after, ?_, .cons ?_ charged⟩
    · rw [Tables.refusal?, first, served]
      rfl
    · exact lineTotal_charged found shown finite positive priced checked

theorem unwritten_unserved {want : String × Int} {g : Fault}
    (finite : ∀ r ∈ t.products, r.price.isFinite = true) (inStock : (t.drawn done m).InStock)
    (positive : 0 < want.2) (stopped : (t.drawn done m).Unwritten want.1 (taking want.2) g) :
    t.unserved? done want = some g := by
  have wanted : ¬want.2 ≤ 0 := by omega
  have known {r : ProductRow} (found : (t.drawn done m).activeProduct? want.1 = some r) :
      ∃ before, t.activeProduct? want.1 = some before ∧ before.drawn done m = r := by
    rwa [drawn_active, Option.map_eq_some_iff] at found
  -- What is left of a stock after units were taken from it can be stored.
  have left {r : ProductRow} {p : Product} {n : Int}
      (found : (t.drawn done m).activeProduct? want.1 = some r) (shown : r.toProduct = .ok p)
      (computed : taking want.2 p = .ok n) : 0 ≤ n ∧ n < 2 ^ 63 := by
    obtain ⟨_, rfl⟩ := toProduct_ok shown
    obtain ⟨_, high⟩ := inStock r (activeProduct_mem found).1
    obtain ⟨enough, rfl⟩ := taking_iff.mp computed
    dsimp only at enough ⊢
    omega
  cases stopped with
  | unknown missing =>
    rw [drawn_active, Option.map_eq_none_iff] at missing
    simp [Tables.unserved?, wanted, missing]
  | unreadable found hidden =>
    obtain ⟨r, active, rfl⟩ := known found
    obtain ⟨member, _⟩ := activeProduct_mem found
    obtain ⟨p, shown⟩ := toProduct_finite
      ((drawn_faces t done m).prices (P := (·.isFinite = true)) finite _ member)
    rw [shown] at hidden
    cases hidden
  | uncomputed found shown failed =>
    obtain ⟨r, active, rfl⟩ := known found
    obtain ⟨_, named, _⟩ := activeProduct_mem found
    obtain ⟨_, code, _⟩ := activeProduct_mem active
    obtain ⟨_, rfl⟩ := toProduct_ok shown
    unfold taking at failed
    split at failed
    · rename_i short
      cases failed
      dsimp only at short ⊢
      rw [drawn_stock, code] at short ⊢
      rw [named]
      simp [Tables.unserved?, wanted, active, short]
    · cases failed
  | unfit found shown computed unfit =>
    obtain ⟨low, high⟩ := left found shown computed
    rw [fits64_of_bounds low high] at unfit
    cases unfit
  | broken found shown computed stored =>
    exact absurd stored (setStock_allowed (left found shown computed).1)

/-- A wanted product that gets no line is not served, or costs too much for decimals. -/
theorem Unreserved.refused {s : Settings.Attempts} {code : String} {quantity : Int} {f : Fault}
    (unique : t.UniqueCodes) (finite : ∀ r ∈ t.products, r.price.isFinite = true)
    (inStock : (t.drawn done m).InStock)
    (h : Unreserved s [m] (t.drawn done m) code quantity f) :
    (∃ g, t.unserved? done (code, quantity) = some g ∧ (s.Surfaces g → f = g)) ∨
      10 ^ Decimal.precision ≤ |t.lineCents (code, quantity)| := by
  cases h with
  | nothing none =>
    have nothing : t.unserved? done (code, quantity) = some (.nothingRequested code) := by
      simp [Tables.unserved?, none]
    exact .inl ⟨_, nothing, fun _ => rfl⟩
  | unstocked positive why =>
    obtain ⟨g, stopped, told⟩ := why.cause fun g stopped => by
      have kind := unwritten_taking inStock positive stopped
      rintro refused
      rw [refused] at kind
      exact absurd kind (by decide)
    exact .inl ⟨g, unwritten_unserved finite inStock positive stopped, told⟩
  | uncosted shows positive written failed =>
    cases List.mem_singleton.mp shows
    obtain ⟨r, found, shown, finite, _⟩ := drawn_restock unique written
    exact .inr (lineTotal_unpriced found shown finite positive failed)
  | unchecked shows positive written priced wrong =>
    cases List.mem_singleton.mp shows
    obtain ⟨r, _, shown, finite, _⟩ := drawn_restock unique written
    obtain ⟨s, c, read⟩ := finite_of_read finite
    rw [shown, read] at priced wrong
    obtain ⟨_, rfl⟩ := (lineTotal_iff positive).mp priced
    cases wrong

theorem Short.refused {s : Settings.Attempts} {f : Fault} (unique : t.UniqueCodes)
    (finite : ∀ r ∈ t.products, r.price.isFinite = true) (inStock : t.InStock)
    (h : Short s [m] t wanted f) :
    (∃ g, t.refusal? [] wanted = some g ∧ (s.Surfaces g → f = g)) ∨
      ∃ want ∈ wanted, 10 ^ Decimal.precision ≤ |t.lineCents want| := by
  obtain ⟨u, done, code, quantity, rest, lines, rfl, reserved, why⟩ := h
  have left := reserved.moved.inStock inStock
  obtain ⟨rfl, served, _⟩ := reserved.served unique (drawn_nil t m).symm rfl
  rw [List.nil_append] at left why
  rcases why.refused unique finite left with ⟨g, unserved, told⟩ | costly
  · refine .inl ⟨g, ?_, told⟩
    rw [Tables.refusal_append, served, List.nil_append, Tables.refusal?, unserved]
    rfl
  · exact .inr ⟨_, by simp, costly⟩

end

end Stockroom
