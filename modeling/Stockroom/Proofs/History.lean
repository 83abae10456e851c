import Stockroom.Service.Sweep
import Stockroom.Proofs.Assortment
import Stockroom.Proofs.Leaving
import Stockroom.Proofs.Writes

namespace Stockroom

open Service (fits64 Deletion)

inductive Change where
  | create (code : String) (price : Decimal)
  | describe (code : String) (price : Decimal)
  | correct (code : String) (quantity : Int)
  | withdraw (code : String) (deletion : Deletion)
  | place (id : Int)
  /-- An order leaves the pending state for another. -/
  | leave (id : Int) (target : OrderStatus)

/-- A change at one of the times that a command can see; a new order lives for `ttl`. -/
inductive Commit (ttl : Span) (times : List Moment) : Change → Tables → Tables → Prop where
  | create {t t' : Tables} {code name : String} {stock : Int} {price : Decimal} :
      t.insertProduct code name stock price = .ok t' → fits64 stock = true →
      Commit ttl times (.create code price) t t'
  | describe {t t' : Tables} {code name : String} {price : Decimal} {m : Moment} {p : Product} :
      t.redescribe code name price m = .ok (p, t') → Commit ttl times (.describe code price) t t'
  | correct {t t' : Tables} {code : String} {quantity : Int} {m : Moment} {p : Product} :
      t.restock code (fun _ => .ok quantity) m = .ok (p, t') →
      Commit ttl times (.correct code quantity) t t'
  | withdraw {t t' : Tables} {code : String} {deletion : Deletion} :
      Withdrawn t code deletion t' → Commit ttl times (.withdraw code deletion) t t'
  | place {t t' : Tables} {wanted : List (String × Int)} {order : Order} :
      Placed ttl times t wanted order t' → Commit ttl times (.place order.id) t t'
  | leave {t t' : Tables} {r : OrderRow} {order : Order} {target : OrderStatus} :
      r ∈ t.orders → t.readOrder r = .ok order → order.status = .pending →
      target ≠ .pending → Left times t order target t' →
      Commit ttl times (.leave order.id target) t t'

inductive Commits (ttl : Span) (times : List Moment) : List Change → Tables → Tables → Prop where
  | nil {t : Tables} : Commits ttl times [] t t
  | cons {t u t' : Tables} {c : Change} {cs : List Change} :
      Commit ttl times c t u → Commits ttl times cs u t' → Commits ttl times (c :: cs) t t'

section Commits

variable {ttl : Span} {times : List Moment} {t t' : Tables} {c d : Change} {cs ds : List Change}

theorem Commit.mono {times' : List Moment} (sub : times ⊆ times') (h : Commit ttl times c t t') :
    Commit ttl times' c t t' := by
  cases h with
  | create inserted fit => exact .create inserted fit
  | describe described => exact .describe described
  | correct corrected => exact .correct corrected
  | withdraw withdrawn => exact .withdraw withdrawn
  | place placed => exact .place (placed.mono sub)
  | leave member read pending not_pending left =>
    exact .leave member read pending not_pending (left.mono sub)

theorem Commits.mono {times' : List Moment} (sub : times ⊆ times') (h : Commits ttl times cs t t') :
    Commits ttl times' cs t t' := by
  induction h with
  | nil => exact .nil
  | cons one _ ih => exact .cons (one.mono sub) ih

theorem Commits.append {u : Tables} (first : Commits ttl times cs t u)
    (second : Commits ttl times ds u t') : Commits ttl times (cs ++ ds) t t' := by
  induction first with
  | nil => exact second
  | cons one _ ih => exact .cons one (ih second)

theorem Commits.single (h : Commit ttl times c t t') : Commits ttl times [c] t t' := .cons h .nil

theorem Commits.none (h : Commits ttl times [] t t') : t' = t := by
  cases h
  rfl

theorem Commits.one (h : Commits ttl times [c] t t') : Commit ttl times c t t' := by
  cases h with
  | cons one rest =>
    cases rest
    exact one

theorem Commits.two (h : Commits ttl times [c, d] t t') :
    ∃ u, Commit ttl times c t u ∧ Commit ttl times d u t' := by
  cases h with
  | cons first rest => exact ⟨_, first, rest.one⟩

theorem commits_nil (same : t' = t) : Commits ttl times [] t t' := same ▸ .nil

theorem Commits.keep {P : Tables → Prop} (h : Commits ttl times cs t t')
    (each : ∀ c ∈ cs, ∀ u u', Commit ttl times c u u' → P u → P u') (start : P t) : P t' := by
  induction h with
  | nil => exact start
  | cons one _ ih =>
    refine ih (fun c member => each c (List.mem_cons_of_mem _ member)) ?_
    exact each _ List.mem_cons_self _ _ one start

end Commits

theorem pending_of_isDue {order : Order} {m : Moment} (due : order.isDue m = true) :
    order.status = .pending := by
  simp only [Order.isDue, isDue, OrderStatus.isTerminal, Bool.and_eq_true] at due
  simpa using due.1

theorem readOrder_values {t : Tables} {r : OrderRow} {order : Order}
    (read : t.readOrder r = .ok order) :
    ∃ lines, order = ⟨r.id, r.code, r.status, r.total.read, r.expiresAt, r.createdAt, r.updatedAt,
      lines⟩ := by
  obtain ⟨lines, _, made⟩ := readOrder_ok.mp read
  exact ⟨lines, (toOrder_ok made).2⟩

theorem Named.member {t : Tables} {code : String} {r : OrderRow} {order : Order}
    (named : Named t code r order) : r ∈ t.orders :=
  List.mem_of_find?_eq_some named.found

theorem Service.Expired.commit {ttl : Span} {times : List Moment} {t t' : Tables} {id : Int}
    (h : Service.Expired times t id t') : Commit ttl times (.leave id .expired) t t' := by
  obtain ⟨member, read, due, left⟩ := h
  obtain ⟨stored, asked⟩ := mem_ordersWithIds.mp member
  obtain ⟨ls, rfl⟩ := readOrder_values read
  cases List.mem_singleton.mp asked
  exact .leave stored read (pending_of_isDue due) (by decide) left

end Stockroom
