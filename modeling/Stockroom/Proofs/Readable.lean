import Stockroom.Proofs.Amounts
import Stockroom.Proofs.Lifecycle

namespace Stockroom

structure Legible (t : Tables) : Prop where
  amounts : ∀ l ∈ t.lines, l.unitPrice.isFinite = true ∧ l.totalPrice.isFinite = true
  totals : ∀ r ∈ t.orders, r.total.isFinite = true

/-- Every amount in the tables is finite. -/
structure Readable (t : Tables) : Prop extends Legible t where
  prices : ∀ r ∈ t.products, r.price.isFinite = true

theorem legible_empty : Legible {} := by
  constructor <;> simp

theorem readable_empty : Readable {} := ⟨legible_empty, by simp⟩

/- Readers -/

theorem toProduct_finite {r : ProductRow} (h : r.price.isFinite = true) :
    ∃ p, r.toProduct = .ok p := by
  obtain ⟨s, c, read⟩ := read_finite h
  simp [ProductRow.toProduct, read, Decimal.isFinite]

theorem toLine_finite {l : LineRow} (unit : l.unitPrice.isFinite = true)
    (total : l.totalPrice.isFinite = true) : ∃ line, l.toLine = .ok line := by
  obtain ⟨s, c, hu⟩ := read_finite unit
  obtain ⟨s', c', ht⟩ := read_finite total
  simp [LineRow.toLine, OrderLine.check, hu, ht, Decimal.isFinite]

theorem toOrder_finite {r : OrderRow} (h : r.total.isFinite = true) (lines : List OrderLine) :
    ∃ order, r.toOrder lines = .ok order := by
  obtain ⟨s, c, read⟩ := read_finite h
  simp [OrderRow.toOrder, read, Decimal.isFinite]

theorem Legible.order {t : Tables} (legible : Legible t) {r : OrderRow}
    (member : r ∈ t.orders) : ∃ order, t.readOrder r = .ok order := by
  cases read : t.readOrder r with
  | ok order => exact ⟨order, rfl⟩
  | error f =>
    exfalso
    rcases readOrder_error.mp read with unread | ⟨lines, _, unmade⟩
    · obtain ⟨l, here, wrong⟩ := mapM_error unread
      obtain ⟨unit, total⟩ := legible.amounts l (List.mem_of_mem_filter here)
      obtain ⟨line, right⟩ := toLine_finite unit total
      simp [wrong] at right
    · obtain ⟨order, made⟩ := toOrder_finite (legible.totals r member) lines
      simp [unmade] at made

/- Amounts of orders -/

theorem OrderRow.Follows.total_eq {times : List Moment} {r r' : OrderRow}
    (h : r.Follows times r') : r'.total = r.total := by
  cases h <;> rfl

theorem Legible.follows {times : List Moment} {t t' : Tables} (legible : Legible t)
    (followed : List.Forall₂ (OrderRow.Follows times) t.orders t'.orders)
    (lines : t'.lines = t.lines) : Legible t' := by
  refine ⟨lines ▸ legible.amounts, fun r member => ?_⟩
  obtain ⟨before, known, follows⟩ := forall₂_mem followed r member
  rw [follows.total_eq]
  exact legible.totals before known

theorem Reserved.storable {times : List Moment} {t t' : Tables} {wanted : List (String × Int)}
    {lines : List OrderLine} (h : Reserved times t wanted lines t') :
    ∀ line ∈ lines, line.unitPrice.Storable ∧ line.totalPrice.Storable := by
  induction h with
  | nil => simp
  | cons _ positive written priced checked _ ih =>
    obtain ⟨r, q, _, found, shown, _, _, _, rfl⟩ := Tables.restock_ok.mp written
    obtain ⟨shows, rfl⟩ := toProduct_ok shown
    obtain ⟨s, c, read⟩ := finite_of_read shows
    obtain ⟨_, finite, rfl⟩ := check_ok checked
    dsimp only at priced finite
    rw [read] at priced
    have first := lineTotal_storable positive priced finite
    rw [← read] at first
    exact List.forall_mem_cons.mpr ⟨first, ih⟩

theorem Legible.place {ttl : Span} {times : List Moment} {t t' : Tables}
    {wanted : List (String × Int)} {order : Order} (legible : Legible t)
    (h : Placed ttl times t wanted order t') : Legible t' := by
  have total : order.totalAmount.Storable := by
    obtain ⟨_, _, summed, finite, _⟩ := h
    exact orderTotal_storable summed finite
  obtain ⟨u, reserved, inserted⟩ := h.inserted
  have storable := reserved.storable
  have faces := reserved.moved.faces
  obtain ⟨row, _, _, _, stored, orders⟩ := inserted.orders
  obtain ⟨rows, holds, appended⟩ := inserted.lines
  constructor
  · rw [appended, faces.lines]
    refine List.forall_mem_append.mpr ⟨legible.amounts, fun l new => ?_⟩
    obtain ⟨line, known, held⟩ := forall₂_mem holds l new
    obtain ⟨unit, total⟩ := storable line known
    exact ⟨unit.finite held.unit, total.finite held.total⟩
  · rw [orders, faces.orders]
    refine List.forall_mem_append.mpr ⟨legible.totals, fun r new => ?_⟩
    rw [List.mem_singleton.mp new]
    exact total.finite stored

theorem Legible.commit {ttl : Span} {times : List Moment} {t t' : Tables} {c : Change}
    (legible : Legible t) (h : Commit ttl times c t t') : Legible t' := by
  by_cases other : ∀ id, c ≠ .place id
  · obtain ⟨followed, lines⟩ := h.follows other
    exact legible.follows followed lines
  · cases h with
    | place placed => exact legible.place placed
    | _ => exact absurd (fun _ => nofun) other

theorem Reachable.legible {admits : Command → Prop} {w : World} (reached : Reachable admits w) :
    Legible w.tables :=
  reached.invariant legible_empty fun _ _ _ _ _ _ _ _ _ commits legible =>
    commits.keep (fun _ _ _ _ one before => before.commit one) legible

/- Prices -/

theorem Readable.move {t : Tables} (readable : Readable t) (id : Int) (target : OrderStatus)
    (m : Moment) : Readable { t with orders := t.orders.map (·.movedTo id target m) } := by
  refine ⟨⟨readable.amounts, fun r member => ?_⟩, readable.prices⟩
  obtain ⟨before, known, rfl⟩ := List.mem_map.mp member
  have total : (before.movedTo id target m).total = before.total := by
    unfold OrderRow.movedTo
    split <;> rfl
  rw [total]
  exact readable.totals before known

theorem prices_update {P : Amount → Prop} {t : Tables} (all : ∀ r ∈ t.products, P r.price)
    {code : String} {f : ProductRow → ProductRow}
    (prices : ∀ r : ProductRow, P r.price → P (f r).price) :
    ∀ r ∈ (t.updateProduct code f).products, P r.price := by
  intro r member
  obtain ⟨before, known, rfl⟩ := List.mem_map.mp member
  split
  · exact prices before (all before known)
  · exact all before known

theorem SameFaces.prices {P : Amount → Prop} {t t' : Tables} (h : SameFaces t t')
    (all : ∀ r ∈ t.products, P r.price) : ∀ r ∈ t'.products, P r.price := by
  intro r member
  obtain ⟨before, known, same⟩ := h.row member
  have price : before.price = r.price := congrArg (·.price) same
  exact price ▸ all before known

theorem Readable.faces {t t' : Tables} (readable : Readable t) (h : SameFaces t t') :
    Readable t' :=
  ⟨⟨h.lines ▸ readable.amounts, h.orders ▸ readable.totals⟩,
    h.prices (P := (·.isFinite = true)) readable.prices⟩

def Change.price? : Change → Option Decimal
  | .create _ price => some price
  | .describe _ price => some price
  | _ => none

theorem Commit.prices {P : Amount → Prop} {ttl : Span} {times : List Moment} {t t' : Tables}
    {c : Change} (h : Commit ttl times c t t') (all : ∀ r ∈ t.products, P r.price)
    (written : ∀ price a, c.price? = some price → Amount.ofDecimal? price = some a → P a) :
    ∀ r ∈ t'.products, P r.price := by
  cases h with
  | create inserted _ =>
    obtain ⟨_, _, amount, stored, rfl⟩ := insertProduct_ok inserted
    refine List.forall_mem_append.mpr ⟨all, fun r new => ?_⟩
    rw [List.mem_singleton.mp new]
    exact written _ _ rfl stored
  | describe described =>
    obtain ⟨_, _, _, _, _, _, swapped, _⟩ := Tables.redescribe_ok.mp described
    obtain ⟨amount, stored, rfl⟩ := swapCatalog_ok swapped
    refine prices_update all fun r before => ?_
    split
    · exact written _ _ rfl stored
    · exact before
  | correct corrected =>
    obtain ⟨_, _, _, _, stocked⟩ := restock_effect corrected
    exact stocked.sameFaces.prices all
  | withdraw withdrawn =>
    cases withdrawn with
    | archived => exact prices_update all fun _ before => before
    | removed _ _ _ removed =>
      obtain ⟨_, rfl⟩ := removeProduct_ok removed
      exact fun r member => all r (List.mem_of_mem_filter member)
  | place placed =>
    obtain ⟨u, reserved, inserted⟩ := placed.inserted
    rw [inserted.products]
    exact reserved.moved.faces.prices all
  | leave _ _ _ _ left =>
    obtain ⟨m, u, rfl, rest⟩ := left.moved
    rcases rest with ⟨_, rfl⟩ | ⟨_, released⟩
    · exact all
    · exact released.moved.faces.prices all

def Change.Priced : Change → Prop
  | .create _ price => price.Storable
  | .describe _ price => price.Storable
  | _ => True

theorem Change.Priced.storable {c : Change} (priced : c.Priced) {price : Decimal}
    (named : c.price? = some price) : price.Storable := by
  cases c with
  | create | describe =>
    cases named
    exact priced
  | _ => cases named

theorem Readable.commit {ttl : Span} {times : List Moment} {t t' : Tables} {c : Change}
    (readable : Readable t) (h : Commit ttl times c t t') (priced : c.Priced) : Readable t' := by
  refine ⟨readable.toLegible.commit h, h.prices (P := (·.isFinite = true)) readable.prices ?_⟩
  exact fun price a named stored => (priced.storable named).finite stored

/- Commands -/

/-- A command whose price, if it has one, is within the bounds on a request. -/
def Command.Priced : Command → Prop
  | .createProduct _ _ _ price => Desk.checkPrice price = .accepted price
  | .updateProduct _ _ price _ => Desk.checkPrice price = .accepted price
  | _ => True

theorem Command.Priced.prices {c : Command} (priced : c.Priced) {done : Bool}
    {cs : List Change} (makes : c.Makes done cs) :
    ∀ d ∈ cs, ∀ price, d.price? = some price → Desk.checkPrice price = .accepted price := by
  revert makes
  fun_cases Command.Makes c done cs
  case case1 | case2 | case3 =>
    rintro rfl
    simpa [Change.price?, Command.Priced] using priced
  -- The other commands have no price.
  case case12 =>
    rintro rfl
    simp
  case case8 | case9 => rintro (rfl | ⟨id, rfl⟩) <;> simp [Change.price?]
  case case10 => rintro (rfl | rfl) <;> simp [Change.price?]
  all_goals
    rintro ⟨_, rfl⟩
    simp [Change.price?]

theorem Command.Priced.changes {c : Command} (priced : c.Priced) {done : Bool}
    {cs : List Change} (makes : c.Makes done cs) : ∀ d ∈ cs, d.Priced := by
  intro d member
  have checked := priced.prices makes d member
  cases d with
  | create code price => exact Desk.price_storable (checked price rfl)
  | describe code price => exact Desk.price_storable (checked price rfl)
  | _ => trivial

theorem Command.Priced.readable {c : Command} (priced : c.Priced) {done : Bool}
    {cs : List Change} (makes : c.Makes done cs) {ttl : Span} {times : List Moment} {t t' : Tables}
    (commits : Commits ttl times cs t t') (readable : Readable t) : Readable t' :=
  commits.keep (fun d member _ _ one before => before.commit one (priced.changes makes d member))
    readable

theorem Reachable.readable {w : World} (reached : Reachable Command.Priced w) :
    Readable w.tables :=
  reached.invariant readable_empty fun _ priced _ _ makes _ _ _ _ commits readable =>
    priced.readable makes commits readable

end Stockroom
