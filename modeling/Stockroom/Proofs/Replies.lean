import Stockroom.Proofs.Requests
import Stockroom.Proofs.Retries
import Stockroom.Proofs.Stranding

namespace Stockroom

open Service (fits64 fits64_of_bounds large_of_unfit taking)

/- Kinds of faults -/

/-- The faults that have a reply of their own. -/
def Fault.Kind.told : List Fault.Kind :=
  [.productNotFound, .orderNotFound, .productAlreadyExists, .productDeletionConflict,
    .insufficientStock, .invalidOrderStatus, .orderExpired, .badValue, .invalid]

def Fault.Kind.large : List Fault.Kind := [.outOfRange, .invalidOperation, .overflow]

def Fault.Settled (f : Fault) : Prop := f.kind ≠ .refused ∧ f.kind ≠ .concurrencyConflict

/-- Attempts that are candid end with the fault itself: the wait after a settled fault is never
made, or it can be computed. -/
def Settings.Attempts.Candid (s : Settings.Attempts) : Prop :=
  ∀ f : Fault, f.Settled → s.Surfaces f

theorem candid_plain {s : Settings.Attempts} (only : s.retryable = [.concurrencyConflict]) :
    s.Candid :=
  fun _ settled => surfaces_plain only settled.2

theorem Fault.settled_of_kinds {f : Fault} {ks : List Fault.Kind} (kind : f.kind ∈ ks)
    (settled : ∀ k ∈ ks, k ≠ .refused ∧ k ≠ .concurrencyConflict) : f.Settled :=
  settled f.kind kind

theorem Fault.arithmetic_large (a : ArithmeticFault) :
    (Fault.arithmetic a).kind ∈ Fault.Kind.large := by
  cases a <;> decide

namespace Desk

theorem ofFault_told {f : Fault} (told : f.kind ∈ Fault.Kind.told) (m : Moment) :
    ∃ status heading, status ∈ [400, 404, 409] ∧
      Reply.ofFault m f = .failed m status heading (toldMessage f) := by
  simp only [Fault.Kind.told, List.mem_cons, List.not_mem_nil, or_false] at told
  rcases told with kind | kind | kind | kind | kind | kind | kind | kind | kind <;>
    simp [Reply.ofFault, heading?, kind, Reply.failed]

theorem ofFault_large {f : Fault} (large : f.kind ∈ Fault.Kind.large) (m : Moment) :
    Reply.ofFault m f = { status := 500, content := .plain "Internal Server Error" } := by
  simp only [Fault.Kind.large, List.mem_cons, List.not_mem_nil, or_false] at large
  rcases large with kind | kind | kind <;> simp [Reply.ofFault, heading?, kind]

end Desk

/- Numbers that get too large -/

namespace Tables

def cents (t : Tables) (code : String) : Nat :=
  (t.activeProduct? code).elim 0 fun r => (r.price.read.inUnits (-2)).toNat

/-- What the wanted products cost, in cents. -/
def cost (t : Tables) (wanted : List (String × Int)) : Nat :=
  (wanted.map fun (code, quantity) => t.cents code * quantity.toNat).sum

end Tables

/-- A number gets too large when the command is carried out. -/
inductive Command.Exceeds (t : Tables) : Command → Prop where
  | created {code name : String} {stock : Int} {price : Decimal} : t.product? code = none →
      2 ^ 63 ≤ stock → Exceeds t (.createProduct code name stock price)
  | corrected {code name : String} {price : Decimal} {stock : Int} : t.Offers code →
      2 ^ 63 ≤ stock → Exceeds t (.updateProduct code name price (some stock))
  | revised {code name : String} {price : Decimal} {stock : Option Int} {r : ProductRow} :
      t.product? code = some r → fits64 r.version = false →
      Exceeds t (.updateProduct code name price stock)
  | costly {wanted : List (String × Int)} : 10 ^ Decimal.precision ≤ t.cost wanted →
      Exceeds t (.createOrder wanted)
  | blocked {r : OrderRow} {c : Command} : r ∈ t.orders → r.status = .pending → c.Exits r →
      t.Overflows r.id ∨ 2 ^ 63 ≤ t.orders.length → Exceeds t c

def Fault.ToldUnless (f : Fault) (exceeds : Prop) : Prop :=
  f.kind ∈ Fault.Kind.told ∨ f.kind ∈ Fault.Kind.large ∧ exceeds

theorem Fault.told_of_kind {f : Fault} {exceeds : Prop}
    (told : Fault.Kind.told.contains f.kind = true) : f.ToldUnless exceeds :=
  .inl (List.contains_iff_mem.mp told)

theorem Fault.told_of_kinds {f : Fault} {exceeds : Prop} {ks : List Fault.Kind} (kind : f.kind ∈ ks)
    (told : ks ⊆ Fault.Kind.told) : f.ToldUnless exceeds :=
  .inl (told kind)

theorem Fault.ToldUnless.mono {f : Fault} {exceeds exceeds' : Prop} (h : f.ToldUnless exceeds)
    (weaker : exceeds → exceeds') : f.ToldUnless exceeds' :=
  h.imp_right fun large => ⟨large.1, weaker large.2⟩

/- Contracts with nobody around -/

namespace Service

variable {α : Type} {x : Service α} {w v : World} {f : Fault}

theorem Meets.fault {good : α → Tables → Prop} {bad : Fault → Prop} (met : x.Meets w good bad)
    (quiet : w.Quiet) (run : x w = .error f v) : bad f :=
  ((met quiet.alone).of_error run).1.resolve_right fun disturbs => disturbs.1 quiet

theorem Retried.surfaced {s : Settings.Attempts} {bad : Fault → Prop} (h : Retried s bad f)
    (surfaces : ∀ g, bad g → s.Surfaces g) : bad f := by
  rcases h with why | ⟨g, why, again, n, least, most, failed⟩
  · exact why
  · obtain ⟨wait, waited⟩ := surfaces g why again n least most
    rw [waited] at failed
    cases failed

theorem Retried.cause {s : Settings.Attempts} {t : Tables} {code : String}
    {compute : Product → Except Fault Int} (h : Retried s (Unstocked t code compute) f)
    (plain : ∀ g, t.Unwritten code compute g → g.kind ≠ .refused) :
    ∃ g, t.Unwritten code compute g ∧ (s.Surfaces g → f = g) := by
  rcases h with why | ⟨g, why, again, n, least, most, failed⟩
  · exact ⟨f, why.unwritten plain, fun _ => rfl⟩
  · refine ⟨g, why.unwritten plain, fun surfaces => ?_⟩
    obtain ⟨wait, waited⟩ := surfaces again n least most
    rw [waited] at failed
    cases failed

theorem Retried.unwritten {s : Settings.Attempts} (candid : s.Candid) {t : Tables}
    {code : String} {compute : Product → Except Fault Int}
    (h : Retried s (Unstocked t code compute) f)
    (settled : ∀ g, t.Unwritten code compute g → g.Settled) : t.Unwritten code compute f := by
  obtain ⟨g, why, told⟩ := h.cause fun g why => (settled g why).1
  rw [told (candid g (settled g why))]
  exact why

end Service

/- Writes of stock -/

section

variable {t : Tables} {code : String} {quantity : Int} {f : Fault}

theorem setStock_allowed {m : Moment} {v : Violation} (allowed : 0 ≤ quantity) :
    t.setStock code quantity m ≠ .error v := by
  simp [Tables.setStock, Int.not_lt.mpr allowed]

theorem unwritten_setting (allowed : 0 ≤ quantity)
    (h : t.Unwritten code (fun _ => .ok quantity) f) :
    f.kind ∈ [.productNotFound, .invalid] ∨ f = .beyond64 ∧ 2 ^ 63 ≤ quantity := by
  cases h with
  | unknown => exact .inl List.mem_cons_self
  | unreadable _ hidden => simp [toProduct_kind hidden]
  | uncomputed _ _ failed => cases failed
  | unfit _ _ computed unfit =>
    cases computed
    exact .inr ⟨rfl, large_of_unfit allowed unfit⟩
  | broken _ _ computed stored =>
    cases computed
    exact absurd stored (setStock_allowed allowed)

theorem unwritten_taking (inStock : t.InStock) (positive : 0 < quantity)
    (h : t.Unwritten code (taking quantity) f) :
    f.kind ∈ [.productNotFound, .invalid, .insufficientStock] := by
  have left {r : ProductRow} {p : Product} {n : Int} (found : t.activeProduct? code = some r)
      (shown : r.toProduct = .ok p) (computed : taking quantity p = .ok n) :
      0 ≤ n ∧ n < 2 ^ 63 := by
    obtain ⟨_, rfl⟩ := toProduct_ok shown
    obtain ⟨_, high⟩ := inStock r (activeProduct_mem found).1
    unfold taking at computed
    split at computed
    · cases computed
    · cases computed
      dsimp only at *
      omega
  cases h with
  | unknown => exact List.mem_cons_self
  | unreadable _ hidden => simp [toProduct_kind hidden]
  | uncomputed _ _ failed =>
    unfold taking at failed
    split at failed <;> cases failed
    simp [Fault.kind]
  | unfit found shown computed unfit =>
    obtain ⟨low, high⟩ := left found shown computed
    rw [fits64_of_bounds low high] at unfit
    cases unfit
  | broken found shown computed stored =>
    exact absurd stored (setStock_allowed (left found shown computed).1)

end

/- Products -/

section

variable {w v : World} {code name : String} {price : Decimal} {f : Fault}

theorem uncreated_told {t : Tables} {stock : Int} (h : Uncreated t code stock price f) :
    f.ToldUnless (t.product? code = none ∧ 2 ^ 63 ≤ stock) := by
  cases h with
  | negative | taken | unpriced | infinite => exact Fault.told_of_kind rfl
  | unfit allowed free unfit => exact .inr ⟨by decide, free, large_of_unfit allowed unfit⟩

theorem redescribe_error {t : Tables} {m : Moment} {a : Amount}
    (stored : Amount.ofDecimal? price = some a)
    (failed : t.redescribe code name price m = .error f) :
    f.kind ∈ [.productNotFound, .invalid] ∨
      f = .beyond64 ∧ ∃ r, t.product? code = some r ∧ fits64 r.version = false := by
  unfold Tables.redescribe at failed
  cases found : t.product? code with
  | none =>
    simp only [found] at failed
    cases failed
    exact .inl List.mem_cons_self
  | some r =>
    cases shown : r.toProduct with
    | error g =>
      simp only [found, shown, bind, Except.bind] at failed
      cases failed
      exact .inl (by simp [toProduct_kind shown])
    | ok p =>
      simp only [found, shown, bind, Except.bind] at failed
      obtain ⟨_, rfl⟩ := toProduct_ok shown
      dsimp only at failed
      split at failed
      · cases failed
        exact .inl List.mem_cons_self
      rename_i offered
      split at failed
      · have here : t.products.any fun row => row.isAt code r.version := by
          obtain ⟨member, named⟩ := product_mem found
          refine List.any_eq_true.mpr ⟨r, member, ?_⟩
          simpa [ProductRow.isAt, named] using offered
        simp [Tables.swapCatalog, here, stored, Except.mapError, pure, Except.pure] at failed
      · rename_i unfit
        cases failed
        exact .inr ⟨rfl, r, rfl, by simpa using unfit⟩

theorem redescribe_settled {t : Tables} {m : Moment} {a : Amount}
    (stored : Amount.ofDecimal? price = some a)
    (failed : t.redescribe code name price m = .error f) : f.Settled := by
  rcases redescribe_error stored failed with kinds | ⟨rfl, _⟩
  · exact Fault.settled_of_kinds kinds (by decide)
  · exact ⟨by decide, by decide⟩

theorem unrenewed_told {s : Settings.Attempts} (candid : s.Candid) {t : Tables} {a : Amount}
    (stored : Amount.ofDecimal? price = some a) {stock : Option Int}
    (h : Unrenewed s t code name price stock f) :
    f.ToldUnless (Command.Exceeds t (.updateProduct code name price stock)) := by
  cases h with
  | undescribed why =>
    have plain (g : Fault) (why : Service.Undescribed t code name price g) :
        ∃ m, t.redescribe code name price m = .error g := by
      obtain ⟨g, ⟨m, failed⟩, rfl⟩ := why
      refine ⟨m, ?_⟩
      rwa [Fault.asConflict_kind (redescribe_settled stored failed).1]
    obtain ⟨m, failed⟩ := plain f (why.surfaced fun g why => by
      obtain ⟨m, failed⟩ := plain g why
      exact candid g (redescribe_settled stored failed))
    rcases redescribe_error stored failed with kinds | ⟨rfl, r, found, unfit⟩
    · exact Fault.told_of_kinds kinds (by decide)
    · exact .inr ⟨by decide, .revised found unfit⟩
  | negative => exact Fault.told_of_kind rfl
  | @unstocked u m p quantity _ described allowed why =>
    have unwritten := why.unwritten candid fun g why => by
      rcases unwritten_setting allowed why with kinds | ⟨rfl, _⟩
      · exact Fault.settled_of_kinds kinds (by decide)
      · exact ⟨by decide, by decide⟩
    rcases unwritten_setting allowed unwritten with kinds | ⟨rfl, large⟩
    · exact Fault.told_of_kinds kinds (by decide)
    · obtain ⟨r, q, found, shown, offered, _⟩ := Tables.redescribe_ok.mp described
      obtain ⟨_, rfl⟩ := toProduct_ok shown
      obtain ⟨member, named⟩ := product_mem found
      exact .inr ⟨by decide, .corrected ⟨r, member, named, offered⟩ large⟩

theorem kept_told {t : Tables} (sound : Sound t) {exceeds : Prop} (h : Kept t code f) :
    f.ToldUnless exceeds := by
  cases h with
  | unknown | held => exact Fault.told_of_kind rfl
  | unreadable _ hidden =>
    have kind := toProduct_kind hidden
    rw [Fault.asConflict_kind (by simp [kind])]
    exact Fault.told_of_kind (kind ▸ rfl)
  | named inactive unfinished broken => exact absurd broken (sound.removable inactive unfinished)

end

/- Orders -/

section

variable {times : List Moment} {t u : Tables} {wanted : List (String × Int)}
  {lines : List OrderLine} {f : Fault}

theorem cost_append (done rest : List (String × Int)) :
    t.cost (done ++ rest) = t.cost done + t.cost rest := by
  simp [Tables.cost]

theorem Bought.cost {want : String × Int} {line : OrderLine} (bought : Bought t want line) :
    0 < t.cost [want] ∧ line.totalPrice = .ofCents (t.cost [want] : Nat) := by
  obtain ⟨code, quantity⟩ := want
  obtain ⟨rfl, rfl, positive, ⟨r, found, priced⟩, c, charged, same, total⟩ := bought
  obtain ⟨n, quantity⟩ := Int.eq_ofNat_of_zero_le (Int.le_of_lt positive)
  have cents : t.cents line.productCode = c := by
    rw [Tables.cents, found, Option.elim_some, ← priced, same, ofCents_units, Int.toNat_natCast]
  have cost : t.cost [(line.productCode, line.quantity)] = c * n := by
    simp [Tables.cost, cents, quantity]
  rw [cost, total, quantity]
  refine ⟨Nat.mul_pos charged (by omega), ?_⟩
  congr 1
  push_cast
  exact Int.mul_comm _ _

theorem Bought.totals (bought : List.Forall₂ (Bought t) wanted lines) :
    ∃ ks : List Nat, (∀ k ∈ ks, 0 < k) ∧ ks.sum = t.cost wanted ∧
      lines.map (some ·.totalPrice) = ks.map fun k : Nat => some (Decimal.ofCents k) := by
  induction bought with
  | nil => exact ⟨[], by simp, rfl, rfl⟩
  | @cons want line wanted lines one _ ih =>
    obtain ⟨ks, positive, sum, totals⟩ := ih
    obtain ⟨charged, total⟩ := one.cost
    refine ⟨t.cost [want] :: ks, List.forall_mem_cons.mpr ⟨charged, positive⟩, ?_, ?_⟩
    · rw [List.sum_cons, sum]
      exact (cost_append [want] wanted).symm
    · rw [List.map_cons, List.map_cons, totals, total]

/-- An order whose total cannot be computed costs more than decimals have digits for. -/
theorem orderTotal_costly (bought : List.Forall₂ (Bought t) wanted lines) {a : ArithmeticFault}
    (failed : orderTotal (lines.map (some ·.totalPrice)) = .error a) :
    10 ^ Decimal.precision ≤ t.cost wanted := by
  obtain ⟨ks, positive, sum, totals⟩ := Bought.totals bought
  by_contra few
  rw [totals, (orderTotal_iff positive).mpr ⟨by omega, rfl⟩] at failed
  cases failed

theorem lineTotal_costly {code : String} {quantity : Int} {m : Moment} {p : Product}
    {u' : Tables} (priced : t.Priced) (faces : SameFaces t u) (positive : 0 < quantity)
    (written : u.restock code (taking quantity) m = .ok (p, u')) {a : ArithmeticFault}
    (failed : lineTotal quantity p.price = .error a) :
    10 ^ Decimal.precision ≤ t.cost [(code, quantity)] := by
  obtain ⟨r, q, _, found, shown, _, _, _, rfl⟩ := Tables.restock_ok.mp written
  obtain ⟨_, rfl⟩ := toProduct_ok shown
  obtain ⟨before, known, same⟩ := faces.active found
  obtain ⟨c, _, read⟩ := priced before (activeProduct_mem known).1
  have cents : t.cents code = c := by
    rw [Tables.cents, known, Option.elim_some, read, ofCents_units, Int.toNat_natCast]
  dsimp only at failed
  rw [← same, read] at failed
  by_contra few
  have few : c * quantity.toNat < 10 ^ Decimal.precision := by
    simpa [Tables.cost, cents] using few
  rw [lineTotal_few positive few] at failed
  cases failed

theorem short_told {s : Settings.Attempts} (candid : s.Candid)
    (inStock : t.InStock) (priced : t.Priced) (h : Short s times t wanted f) :
    f.ToldUnless (10 ^ Decimal.precision ≤ t.cost wanted) := by
  obtain ⟨u, done, code, quantity, rest, lines, rfl, reserved, why⟩ := h
  have moved := reserved.moved
  cases why with
  | nothing => exact Fault.told_of_kind rfl
  | unstocked positive why =>
    have kinds (g : Fault) (why : u.Unwritten code (taking quantity) g) :=
      unwritten_taking (moved.inStock inStock) positive why
    have unwritten := why.unwritten candid fun g why =>
      Fault.settled_of_kinds (kinds g why) (by decide)
    exact Fault.told_of_kinds (kinds f unwritten) (by decide)
  | uncosted _ positive written costs =>
    refine .inr ⟨Fault.arithmetic_large _, ?_⟩
    have large := lineTotal_costly priced moved.faces positive written costs
    have whole : t.cost (done ++ (code, quantity) :: rest) =
        t.cost done + (t.cost [(code, quantity)] + t.cost rest) := by
      rw [cost_append, ← cost_append [(code, quantity)]]
      rfl
    omega
  | unchecked _ _ _ _ wrong =>
    unfold OrderLine.check at wrong
    split at wrong <;> cases wrong
    exact Fault.told_of_kind rfl

theorem Reserved.fits (inStock : t.InStock) (h : Reserved times t wanted lines u) :
    ∀ line ∈ lines, fits64 line.quantity = true := by
  induction h with
  | nil => simp
  | cons _ positive written _ checked _ ih =>
    obtain ⟨r, q, shown, computed, stocked⟩ := restock_effect written
    obtain ⟨_, _, rfl⟩ := check_ok checked
    obtain ⟨_, rfl⟩ := toProduct_ok shown
    obtain ⟨_, high⟩ := inStock r stocked.member
    have left := stocked.least
    rw [taking_ok computed] at left
    dsimp only at left
    refine List.forall_mem_cons.mpr ⟨fits64_of_bounds ?_ ?_, ih (stocked.moved.inStock inStock)⟩
    all_goals
      dsimp only
      omega

theorem Reserved.positive (h : Reserved times t wanted lines u) :
    ∀ line ∈ lines, 0 < line.quantity := by
  induction h with
  | nil => simp
  | cons _ positive _ _ checked _ ih =>
    obtain ⟨_, _, rfl⟩ := check_ok checked
    exact List.forall_mem_cons.mpr ⟨positive, ih⟩

theorem Reserved.insertable (h : Reserved times t wanted lines u) {u' : Tables}
    (same : u'.products = u.products) {line : OrderLine} (here : line ∈ lines) {id : Int}
    {v : Violation} : u'.insertLine id line ≠ .error v := by
  intro broken
  obtain ⟨⟨unit, unitStored, _⟩, ⟨total, totalStored, _⟩⟩ := h.storable line here
  obtain ⟨before, known, named, _⟩ := h.offered line here
  obtain ⟨after, there, face⟩ := h.moved.faces.symm.row known
  have code : after.code = before.code := congrArg (·.code) face
  have found : (u'.product? line.productCode).isSome = true := by
    refine List.find?_isSome.mpr ⟨after, same ▸ there, ?_⟩
    exact decide_eq_true (code.trans named)
  have positive : ¬line.quantity < 1 := by
    have := h.positive line here
    omega
  have known : (u'.product? line.productCode).isNone = false := by
    rw [Option.isNone_eq_false_iff]
    exact found
  simp [Tables.insertLine, unitStored, totalStored, positive, known] at broken

theorem Reserved.inserts (inStock : t.InStock) (reserved : Reserved times t wanted lines u)
    (nonempty : wanted ≠ []) {total : Decimal}
    (summed : orderTotal (lines.map (some ·.totalPrice)) = .ok total)
    (finite : total.isFinite = true) {code : String} (free : t.orderWithCode? code = none)
    {expires m : Moment} : ¬Service.Uninserted u code total expires m lines f := by
  intro why
  obtain ⟨amount, stored, _⟩ := orderTotal_storable summed finite
  have free : u.orderWithCode? code = none := by
    rw [Tables.orderWithCode?, reserved.moved.faces.orders]
    exact free
  cases why with
  | broken wrong => simp [Tables.insertOrder, stored, free] at wrong
  | unlined inserted why =>
    obtain ⟨_, _, _, _, rfl⟩ := insertOrder_ok inserted
    cases why with
    | none empty =>
      rw [empty] at reserved
      cases reserved
      exact nonempty rfl
    | unfit here unfit =>
      rw [reserved.fits inStock _ here] at unfit
      cases unfit
    | broken here same wrong => exact absurd wrong (reserved.insertable same here)
  | infinite infinite =>
    rw [finite] at infinite
    cases infinite

theorem unplaced_told {s : Settings} (candid : s.attempts.Candid)
    {given : Nat} (inStock : t.InStock) (priced : t.Priced)
    (fresh : ∀ n, given < n → t.orderWithCode? (orderCode n) = none)
    (lasting : ∀ m ∈ times, m.shift? s.expiry.orderTtl ≠ none)
    (h : Unplaced s times given t wanted f) :
    f.ToldUnless (10 ^ Decimal.precision ≤ t.cost wanted) := by
  cases h with
  | empty => exact Fault.told_of_kind rfl
  | unreserved short => exact short_told candid inStock priced short
  | uncosted reserved costs =>
    exact .inr ⟨Fault.arithmetic_large _, orderTotal_costly (reserved.bought priced) costs⟩
  | late member beyond => exact absurd beyond (lasting _ member)
  | @uninserted u lines n total m expires _ nonempty reserved summed next why =>
    have bought := reserved.bought priced
    obtain ⟨k, costs, _⟩ := orderTotal_lines (fun line here => by
      obtain ⟨want, _, one⟩ := forall₂_mem bought line here
      obtain ⟨_, total, pos, _, _, costs⟩ := one.cents
      exact ⟨total, pos, costs⟩) summed
    have finite : total.isFinite = true := by
      rw [costs]
      rfl
    exact absurd why (reserved.inserts inStock nonempty summed finite (fresh n next))

end

/- Commands -/

section

variable {w v : World} {f : Fault}

theorem exit_told {s : Settings.Attempts} (h : w.InOrder) (quiet : w.Quiet) (exit : Service.Exit)
    {code : String} (run : Service.leavePending s exit code w = .error f v) :
    f.ToldUnless (∃ r ∈ w.tables.orders, r.code = code ∧ r.status = .pending ∧
      (w.tables.Overflows r.id ∨ 2 ^ 63 ≤ w.tables.orders.length)) := by
  have ends := Service.leavePending_ends (s := s) exit code quiet.alone
  obtain ⟨_, ⟨_, unleft | disturbed⟩ | ⟨kind, _⟩⟩ := ends.of_error run
  · rcases unleft with unknown | ⟨_, hidden⟩ | @⟨r, order, _, named, why⟩
    · exact Fault.told_of_kind rfl
    · exact Fault.told_of_kind (readOrder_kind hidden ▸ rfl)
    · have waits (pending : order.status = .pending) : r.status = .pending := by
        obtain ⟨_, rfl⟩ := readOrder_values named.read
        exact pending
      have blocks {target : OrderStatus} {lost : Fault} (pending : order.status = .pending)
          (why : Service.Unmoved s w.tables order target lost f) :
          f.ToldUnless (∃ r ∈ w.tables.orders, r.code = code ∧ r.status = .pending ∧
            (w.tables.Overflows r.id ∨ 2 ^ 63 ≤ w.tables.orders.length)) := by
        obtain ⟨kind, large⟩ :=
          unmoved_blocks h.sound h.readable named.member (waits pending) named.read why
        have named' : r.code = code := by simpa using List.find?_some named.found
        exact .inr ⟨kind ▸ by decide, r, named.member, named', waits pending, large⟩
      rcases why with ⟨_, rfl⟩ | ⟨due, why⟩ | ⟨_, _, ⟨_, rfl⟩ | ⟨pending, why⟩⟩
      · exact Fault.told_of_kind rfl
      · exact blocks (pending_of_isDue due) why
      · exact Fault.told_of_kind rfl
      · exact blocks pending why
  · exact absurd quiet disturbed.1
  · exact Fault.told_of_kind (kind ▸ rfl)

/-- The fault of a command that a caller can ask for is told, unless a number gets too large. -/
theorem Command.fault_told {s : Settings} {c : Command} (h : w.InOrder) (quiet : w.Quiet)
    (candid : s.attempts.Candid)
    (lasting : ∀ m ∈ w.times, m.shift? s.expiry.orderTtl ≠ none) (priced : c.Priced)
    (desk : c.AtDesk) (run : c.perform s w = .error f v) : f.ToldUnless (c.Exceeds w.tables) := by
  cases c with
  | createProduct code name stock price =>
    have why := (Service.createProduct_meets code name stock price).fault quiet
      (Service.map_error.mp run)
    exact (uncreated_told why).mono fun large => .created large.1 large.2
  | updateProduct code name price stock =>
    obtain ⟨a, stored, _⟩ := Desk.price_storable priced
    have why := (Service.updateProduct_meets code name price stock).fault quiet
      (Service.map_error.mp run)
    exact unrenewed_told candid stored why
  | deleteProduct code =>
    exact kept_told h.sound ((Service.deleteProduct_meets code).fault quiet
      (Service.map_error.mp run))
  | createOrder wanted =>
    have why := (Service.createOrder_meets wanted).fault quiet (Service.map_error.mp run)
    exact (unplaced_told candid h.sound.inStock h.priced (fun _ next => h.numbered.fresh next)
      lasting why).mono .costly
  | payOrder code =>
    refine (exit_told h quiet .pay (Service.map_error.mp run)).mono ?_
    rintro ⟨r, member, rfl, pending, large⟩
    exact .blocked member pending .pay large
  | cancelOrder code =>
    refine (exit_told h quiet .cancel (Service.map_error.mp run)).mono ?_
    rintro ⟨r, member, rfl, pending, large⟩
    exact .blocked member pending .cancel large
  | expireOrder id => exact desk.elim
  | sweep => exact desk.elim
  | lookUpProduct code =>
    rcases (Service.lookUpProduct_meets code).fault quiet (Service.map_error.mp run) with
      ⟨_, rfl⟩ | ⟨r, _, hidden⟩
    · exact Fault.told_of_kind rfl
    · exact Fault.told_of_kind (toProduct_kind hidden ▸ rfl)
  | listProducts onlyActive =>
    have failed := (Service.productsByName_meets onlyActive).fault quiet (Service.map_error.mp run)
    obtain ⟨r, _, hidden⟩ := mapM_error failed
    exact Fault.told_of_kind (toProduct_kind hidden ▸ rfl)
  | hasActiveOrders code =>
    obtain ⟨rfl, _⟩ := (Service.productHasOrdersIn_meets code _).fault quiet
      (Service.map_error.mp run)
    exact Fault.told_of_kind rfl
  | hasFinishedOrders code =>
    obtain ⟨rfl, _⟩ := (Service.productHasOrdersIn_meets code _).fault quiet
      (Service.map_error.mp run)
    exact Fault.told_of_kind rfl
  | lookUpOrder code =>
    rcases (Service.orderOf_meets code).fault quiet (Service.map_error.mp run) with
      ⟨_, rfl⟩ | ⟨r, _, hidden⟩
    · exact Fault.told_of_kind rfl
    · exact Fault.told_of_kind (readOrder_kind hidden ▸ rfl)

end

/-- Every request in every state that requests lead to is answered. As long as nobody disturbs,
no wait between attempts fails and a new order can still last its lifetime, the reply is one
that the service describes, or some number gets too large for the tables or for decimals and
the reply is a bare error. -/
theorem every_request_is_answered {w : World} (served : Served w) {visit : Visit}
    (quiet : visit.disruptions.Quiet)
    (candid : visit.settings.attempts.Candid)
    (lasting : ∀ m ∈ visit.now :: visit.disruptions.ticks,
      m.shift? visit.settings.expiry.orderTtl ≠ none) :
    ∃ reply v, Desk.answer visit.settings visit.request (w.visited visit) = .ok reply v ∧
      (Desk.Told visit.request reply ∨
        reply = { status := 500, content := .plain "Internal Server Error" } ∧
          ∃ c, visit.request.command? = some c ∧ c.Exceeds w.tables) := by
  obtain ⟨reply, v, run, replied⟩ :=
    Desk.answer_replied visit.settings visit.request (w.visited visit)
  refine ⟨reply, v, run, ?_⟩
  cases replied with
  | done _ _ => exact .inl (.done (Desk.present_status _ _))
  | @failed c f u v m asked failed _ _ =>
    obtain ⟨priced, desk⟩ := Desk.command_priced asked
    have before : (w.visited visit).InOrder := served.inOrder.of_eq rfl (Nat.le_refl _)
    have told : f.ToldUnless (c.Exceeds (w.visited visit).tables) :=
      Command.fault_told before quiet candid lasting priced desk failed
    rcases told with told | ⟨large, exceeds⟩
    · obtain ⟨status, heading, known, reply⟩ := Desk.ofFault_told told m
      exact .inl (reply ▸ .failed known)
    · exact .inr ⟨Desk.ofFault_large large m, c, asked, exceeds⟩
  | idle _ _ _ told => exact .inl told

theorem Desk.Told.status_ne {r : Desk.Request} {reply : Desk.Reply} (told : Desk.Told r reply) :
    reply.status ≠ 500 := by
  intro failed_status
  cases told with
  | done known => simp [failed_status] at known
  | refused _ status => omega
  | @failed m status heading message known =>
    have same : status = 500 := failed_status
    simp [same] at known
  | unread => cases failed_status
  | unserved _ known => simp [failed_status] at known

def teaVisit (stock : Nat) : Visit where
  settings := {}
  now := .minutes 0
  request := {
    method := "POST"
    target := "/api/v1/products"
    body := (Json.object [("code", .text "tea"), ("name", .text "Tea"),
      ("stock_quantity", .integer stock), ("price_per_unit", .text "1.50")]).compact
    contentType := "application/json" }

theorem new_tea_is_answered :
    let visit := teaVisit 5
    ∃ reply v, Desk.answer visit.settings visit.request (World.opening.visited visit) =
      .ok reply v ∧ reply.status = 201 ∧ Desk.Told visit.request reply := by
  intro visit
  have lasting : ∀ m ∈ [Moment.minutes 0], m.shift? visit.settings.expiry.orderTtl ≠ none := by
    decide +kernel
  obtain ⟨reply, v, run, told⟩ :=
    @every_request_is_answered World.opening (.start rfl) visit quiet_nothing (candid_plain rfl)
      lasting
  have status : World.opening.statusTold visit = 201 := by decide +kernel
  rw [World.statusTold, run] at status
  refine ⟨reply, v, run, status, told.resolve_right ?_⟩
  rintro ⟨rfl, _⟩
  cases status

/-- A stock that does not fit into the tables is within the bounds on a request, and the reply
to it is an error. -/
theorem immense_stock_is_untold :
    let visit := teaVisit (2 ^ 63)
    Served World.opening ∧ visit.disruptions.Quiet ∧
      ∃ reply v, Desk.answer visit.settings visit.request (World.opening.visited visit) =
        .ok reply v ∧ reply.status = 500 ∧ ¬Desk.Told visit.request reply := by
  intro visit
  refine ⟨.start rfl, quiet_nothing, ?_⟩
  have status : World.opening.statusTold visit = 500 := by decide +kernel
  cases run : Desk.answer visit.settings visit.request (World.opening.visited visit) with
  | error f v =>
    rw [World.statusTold, run] at status
    cases status
  | ok reply v =>
    rw [World.statusTold, run] at status
    exact ⟨reply, v, rfl, status, fun told => told.status_ne status⟩

end Stockroom
