import Stockroom.Proofs.Lifecycle
import Stockroom.Proofs.Readable
import Stockroom.Proofs.Rollback

namespace Stockroom

open Service (putting)

namespace Tables

def Has (t : Tables) (code : String) : Prop := ∃ r ∈ t.products, r.code = code

def Offers (t : Tables) (code : String) : Prop :=
  ∃ r ∈ t.products, r.code = code ∧ r.archived = false

/-- Some stock is too large for what an order holds of it. -/
def Overflows (t : Tables) (id : Int) : Prop :=
  ∃ code stock, t.stock? code = some stock ∧ 2 ^ 63 - 1 < stock + t.ordered id code

/-- A fault of an order that cannot end, because a stock gets too large for the tables, or
because there are more orders than the tables have ids for. -/
def Blocks (t : Tables) (id : Int) (f : Fault) : Prop :=
  f.kind = .outOfRange ∧ (t.Overflows id ∨ 2 ^ 63 ≤ t.orders.length)

end Tables

/- Lines and their products -/

section

variable {ttl : Span} {times : List Moment} {t t' : Tables}

theorem place_lines {id : Int} (h : Commit ttl times (.place id) t t') :
    ∃ rows, t'.lines = t.lines ++ rows ∧ ∀ l ∈ rows, t.Offers l.productCode := by
  cases h with
  | place placed =>
    obtain ⟨u, reserved, inserted⟩ := placed.inserted
    obtain ⟨rows, holds, lines⟩ := inserted.lines
    refine ⟨rows, by rw [lines, reserved.moved.faces.lines], fun l new => ?_⟩
    obtain ⟨line, known, held⟩ := forall₂_mem holds l new
    rw [held.product]
    exact reserved.offered line known

theorem makes_lines {c : Command} {done : Bool} {cs : List Change} (makes : c.Makes done cs)
    (commits : Commits ttl times cs t t') :
    ∃ rows, t'.lines = t.lines ++ rows ∧ ∀ l ∈ rows, t.Offers l.productCode := by
  rcases makes.places with others | ⟨id, rfl⟩
  · exact ⟨[], by simp [(commits.follows others).2], by simp⟩
  · exact place_lines commits.one

end

/-- A line that was added by one of the events. Its product was on offer before that event, and
has had a row ever since. -/
def World.Rooted (w : World) (es : List Event) (l : LineRow) : Prop :=
  ∃ before e later, es = before ++ e :: later ∧
    l ∉ (w.run before).tables.lines ∧ (w.run before).tables.Offers l.productCode ∧
    ∀ since, since <+: later →
      l ∈ (w.run (before ++ e :: since)).tables.lines ∧
      (w.run (before ++ e :: since)).tables.Has l.productCode

theorem Sound.has {t : Tables} (sound : Sound t) {l : LineRow} (here : l ∈ t.lines) :
    t.Has l.productCode := by
  obtain ⟨r, member, named, _⟩ := sound.named l here
  exact ⟨r, member, named⟩

theorem lines_rooted {admits : Command → Prop} {w : World} (empty : w.tables = {})
    {es : List Event} (fits : ∀ e ∈ es, e.disruptions.Alone ∧ admits e.command) :
    ∀ l ∈ (w.run es).tables.lines, w.Rooted es l := by
  induction es using List.reverseRecOn with
  | nil => simp [World.run, empty]
  | append_singleton es e ih =>
    intro l here
    have sound := ((Reachable.start empty).run fits).sound
    obtain ⟨earlier, last⟩ := List.forall_mem_append.mp fits
    obtain ⟨alone, _⟩ := last e (List.mem_singleton_self e)
    obtain ⟨cs, makes, commits⟩ := event_makes (w.run es) e alone
    obtain ⟨rows, lines, offered⟩ := makes_lines makes commits
    by_cases known : l ∈ (w.run es).tables.lines
    · obtain ⟨before, e', later, rfl, fresh, offered, stays⟩ := ih earlier l known
      refine ⟨before, e', later ++ [e], by simp, fresh, offered, ?_⟩
      intro since part
      rcases List.prefix_concat_iff.mp part with rfl | part
      · have whole : before ++ e' :: (later ++ [e]) = (before ++ e' :: later) ++ [e] := by simp
        rw [whole]
        exact ⟨here, sound.has here⟩
      · exact stays since part
    · refine ⟨es, e, [], rfl, known, ?_, ?_⟩
      · rw [run_append, lines] at here
        exact offered l ((List.mem_append.mp here).resolve_left known)
      · intro since part
        rw [List.prefix_nil.mp part]
        exact ⟨here, sound.has here⟩

/- Deletion -/

theorem hasOrdersIn_false {t : Tables} {code : String} {statuses : List OrderStatus}
    (free : t.hasOrdersIn code statuses = false) {l : LineRow} (here : l ∈ t.lines)
    (named : l.productCode = code) {o : OrderRow} (member : o ∈ t.orders) (own : o.id = l.orderId) :
    o.status ∉ statuses := by
  intro inside
  have hit : t.hasOrdersIn code statuses = true := by
    unfold Tables.hasOrdersIn
    simp only [List.any_eq_true, Bool.and_eq_true, decide_eq_true_eq]
    exact ⟨l, here, named, o, member, own, List.contains_iff_mem.mpr inside⟩
  rw [free] at hit
  cases hit

theorem Sound.removable {t : Tables} (sound : Sound t) {code : String}
    (inactive : t.hasOrdersIn code OrderStatus.active = false)
    (unfinished : t.hasOrdersIn code OrderStatus.finished = false) {v : Violation} :
    t.removeProduct code ≠ .error v := by
  intro broken
  unfold Tables.removeProduct at broken
  split at broken
  · rename_i named
    obtain ⟨_, l, here, code⟩ : (t.product? code).isSome = true ∧
        ∃ l ∈ t.lines, l.productCode = code := by simpa using named
    obtain ⟨o, member, own⟩ := sound.owned l here
    have first := hasOrdersIn_false inactive here code member own
    have second := hasOrdersIn_false unfinished here code member own
    cases status : o.status <;>
      simp [status, OrderStatus.active, OrderStatus.finished] at first second
  · cases broken

theorem deletion_unviolated {w : World} (sound : Sound w.tables) {e : Event}
    (alone : e.disruptions.Alone) {code : String} (asked : e.command = .deleteProduct code)
    {f : Fault} (failed : w.answer e = .error f) : f.kind ≠ .violated := by
  have run := run_of_error failed
  rw [asked] at run
  have deleted := Service.map_error.mp run
  have met := Service.deleteProduct_meets (w := w.facing e) code alone
  rcases (met.of_error deleted).1 with kept | ⟨_, others⟩
  · cases kept with
    | unknown _ => simp [Fault.kind]
    | unreadable _ hidden =>
      have kind := toProduct_kind hidden
      rw [Fault.asConflict_kind (by simp [kind]), kind]
      decide
    | held _ => simp [Fault.kind]
    | named inactive unfinished broken => exact absurd broken (sound.removable inactive unfinished)
  · rcases others with kind | kind | kind <;> simp [kind]

/- Release -/

theorem Sound.lines_of_read {t : Tables} (sound : Sound t) {r : OrderRow} {order : Order}
    (member : r ∈ t.orders) (pending : r.status = .pending) (read : t.readOrder r = .ok order) :
    ∀ line ∈ order.lines, 1 ≤ line.quantity ∧ t.Offers line.productCode := by
  obtain ⟨lines, shown, made⟩ := readOrder_ok.mp read
  obtain ⟨_, rfl⟩ := toOrder_ok made
  intro line here
  obtain ⟨l, stored, told⟩ := forall₂_mem (mapM_ok.mp shown) line here
  obtain ⟨code, quantity⟩ := toLine_ok told
  obtain ⟨known, own⟩ := List.mem_filter.mp stored
  have inForce : t.isActive l.orderId = true := by
    refine isActive_iff.mpr ⟨r, member, ?_, by simp [pending, OrderStatus.active]⟩
    simpa [eq_comm] using own
  obtain ⟨row, there, named, offered⟩ := sound.named l known
  constructor
  · rw [quantity]
    exact sound.quantities l known
  · exact ⟨row, there, named.trans code.symm, offered inForce⟩

theorem units_append (code : String) (done rest : List OrderLine) :
    units code (done ++ rest) = units code done + units code rest := by
  simp [units]

theorem units_nonneg {code : String} {lines : List OrderLine}
    (least : ∀ line ∈ lines, 1 ≤ line.quantity) : 0 ≤ units code lines := by
  induction lines with
  | nil => simp [units]
  | cons line lines ih =>
    obtain ⟨first, rest⟩ := List.forall_mem_cons.mp least
    have later := ih rest
    rw [units_cons]
    split <;> omega

theorem Tables.Offers.active {t : Tables} {code : String} (h : t.Offers code) :
    t.activeProduct? code ≠ none := by
  obtain ⟨r, member, named, offered⟩ := h
  intro missing
  have miss := List.find?_eq_none.mp missing r member
  simp [named, offered] at miss

theorem Tables.Offers.faces {t t' : Tables} {code : String} (h : t.Offers code)
    (same : SameFaces t t') : t'.Offers code := by
  obtain ⟨r, member, named, offered⟩ := h
  obtain ⟨after, there, face⟩ := same.symm.row member
  have code : after.code = r.code := congrArg (·.code) face
  have archived : after.archived = r.archived := congrArg (·.archived) face
  exact ⟨after, there, code.trans named, archived.trans offered⟩

/-- What stops the release of one line, after those before it, is a stock that is too large. -/
theorem unwritten_overflows {t u : Tables} (sound : Sound t) (readable : Readable t)
    {done : List OrderLine} {line : OrderLine} {times : List Moment} {g : Fault}
    (released : Released times t done u) (least : 1 ≤ line.quantity)
    (offered : t.Offers line.productCode)
    (stopped : u.Unwritten line.productCode (putting line.quantity) g) :
    g.kind = .outOfRange ∧ ∃ stock, t.stock? line.productCode = some stock ∧
      2 ^ 63 - 1 < stock + units line.productCode done + line.quantity := by
  have moved := released.moved
  have bounds := moved.inStock sound.inStock
  have finite := readable.faces moved.faces
  cases stopped with
  | unknown missing => exact absurd missing (offered.faces moved.faces).active
  | @unreadable r f found hidden =>
    obtain ⟨p, shown⟩ := toProduct_finite (finite.prices r (activeProduct_mem found).1)
    rw [shown] at hidden
    cases hidden
  | uncomputed _ _ failed => cases failed
  | @unfit r p quantity found shown computed unfit =>
    obtain ⟨member, named, _⟩ := activeProduct_mem found
    obtain ⟨_, rfl⟩ := toProduct_ok shown
    have sum : r.stock + line.quantity = quantity := Except.ok.inj computed
    obtain ⟨low, _⟩ := bounds r member
    have large : 2 ^ 63 ≤ quantity := Service.large_of_unfit (by omega) unfit
    have after : u.stock? line.productCode = some r.stock := by
      rw [Tables.stock?, ← named, product_of_mem (moved.faces.uniqueCodes sound.codes) member]
      rfl
    rw [moved.stock sound.codes] at after
    obtain ⟨stock, before, grown⟩ := Option.map_eq_some_iff.mp after
    exact ⟨rfl, stock, before, by omega⟩
  | @broken r p quantity m v found shown computed stored =>
    obtain ⟨_, rfl⟩ := toProduct_ok shown
    have sum : r.stock + line.quantity = quantity := Except.ok.inj computed
    obtain ⟨low, _⟩ := bounds r (activeProduct_mem found).1
    have allowed : ¬quantity < 0 := by omega
    simp [Tables.setStock, allowed] at stored

theorem stuck_overflows {s : Settings.Attempts} {t u : Tables} (sound : Sound t)
    (readable : Readable t) {r : OrderRow} {order : Order} {m : Moment} {target : OrderStatus}
    {f : Fault} (member : r ∈ t.orders) (pending : r.status = .pending)
    (read : t.readOrder r = .ok order)
    (moved : (true, u) = t.moveStatus order.id .pending target m)
    (stuck : Service.Stuck s u order.lines f) : f.kind = .outOfRange ∧ t.Overflows r.id := by
  have held := sound.lines_of_read member pending read
  have total (code : String) := units_read read code
  have same : order.id = r.id := by
    obtain ⟨_, rfl⟩ := readOrder_values read
    rfl
  obtain ⟨_, rfl⟩ := moveStatus_ok moved
  rw [same] at stuck
  have sound' := sound.move member pending target m
  have readable' := readable.move r.id target m
  obtain ⟨done, line, rest, times, v, lines, released, why⟩ := stuck
  obtain ⟨least, offered⟩ := held line (by simp [lines])
  rcases why with ⟨too_few, _⟩ | ⟨_, failed⟩
  · omega
  obtain ⟨g, stopped, cause⟩ := release_fault failed
  obtain ⟨kind, stock, known, large⟩ :=
    unwritten_overflows sound' readable' released least offered stopped
  have left : 0 ≤ units line.productCode rest := by
    refine units_nonneg fun l here => ?_
    exact (held l (by simp [lines, here])).1
  refine ⟨?_, line.productCode, stock, known, ?_⟩
  · rcases cause with rfl | other
    · exact kind
    · exact other
  · rw [← total, lines, units_append, units_cons, if_pos rfl]
    omega

/- Ends of orders -/

theorem Sound.blocks_unfit {t : Tables} (sound : Sound t) {r : OrderRow} (member : r ∈ t.orders)
    {f : Fault} (unfit : Service.Unfit [r.id] f) : t.Blocks r.id f := by
  obtain ⟨rfl, id, own, unfit⟩ := unfit
  obtain ⟨first, last⟩ := sound.counted r member
  rw [List.mem_singleton.mp own] at unfit
  have large := Service.large_of_unfit (Int.le_of_lt first) unfit
  exact ⟨rfl, .inr (by omega)⟩

section Ends

variable {s : Settings.Attempts} {r : OrderRow} {f : Fault}

theorem stalled_blocks {t : Tables} {order : Order} {target : OrderStatus} (sound : Sound t)
    (readable : Readable t) (member : r ∈ t.orders) (pending : r.status = .pending)
    (read : t.readOrder r = .ok order) (why : Service.Stalled s t order target f) :
    t.Blocks r.id f := by
  rcases why with unfit | ⟨_, m, u, moved, stuck⟩
  · obtain ⟨_, rfl⟩ := readOrder_values read
    exact sound.blocks_unfit member unfit
  · obtain ⟨kind, overflows⟩ := stuck_overflows sound readable member pending read moved stuck
    exact ⟨kind, .inl overflows⟩

theorem unmoved_blocks {t : Tables} {order : Order} {target : OrderStatus} {lost : Fault}
    (sound : Sound t) (readable : Readable t) (member : r ∈ t.orders)
    (pending : r.status = .pending) (read : t.readOrder r = .ok order)
    (why : Service.Unmoved s t order target lost f) : t.Blocks r.id f := by
  rcases why with stalled | ⟨gone, _⟩
  · exact stalled_blocks sound readable member pending read stalled
  · obtain ⟨_, rfl⟩ := readOrder_values read
    exact absurd ⟨r, member, rfl, pending⟩ gone

theorem exit_blocks {w v : World} {exit : Service.Exit} (quiet : w.Quiet)
    (sound : Sound w.tables) (readable : Readable w.tables) (member : r ∈ w.tables.orders)
    (pending : r.status = .pending)
    (run : Service.leavePending s exit r.code w = .error f v) :
    Lapses w r.code f r ∨ w.tables.Blocks r.id f := by
  have found : w.tables.orderWithCode? r.code = some r := find_of_nodup sound.orderCodes member
  have ends := Service.leavePending_ends (s := s) exit r.code quiet.alone
  obtain ⟨_, ⟨_, unleft | disturbed⟩ | ⟨kind, r', order, named, due, _⟩⟩ := ends.of_error run
  · right
    rcases unleft with unknown | ⟨known, hidden⟩ | @⟨_, order, _, named, why⟩
    · rw [found] at unknown
      cases unknown
    · obtain ⟨order, read⟩ := readable.toLegible.order (List.mem_of_find?_eq_some known)
      rw [read] at hidden
      cases hidden
    · cases found.symm.trans named.found
      have waiting : order.status = .pending := by
        obtain ⟨_, rfl⟩ := readOrder_values named.read
        exact pending
      rcases why with ⟨expired, _⟩ | ⟨_, why⟩ | ⟨_, _, ⟨not_pending, _⟩ | ⟨_, why⟩⟩
      · rw [waiting] at expired
        cases expired
      · exact unmoved_blocks sound readable member pending named.read why
      · exact absurd waiting not_pending
      · exact unmoved_blocks sound readable member pending named.read why
  · exact absurd quiet disturbed.1
  · left
    cases found.symm.trans named.found
    exact ⟨found, pending, (named.due_iff.mp due).2, kind⟩

theorem expiry_blocks {w v : World} (quiet : w.Quiet) (sound : Sound w.tables)
    (readable : Readable w.tables) (member : r ∈ w.tables.orders) (pending : r.status = .pending)
    (run : Service.expireOrder s r.id w = .error f v) : w.tables.Blocks r.id f := by
  have met := Service.expireOrder_meets (s := s) (w := w) r.id quiet.alone
  have only {r' : OrderRow} (named : r' ∈ w.tables.ordersWithIds [r.id]) : r' = r := by
    obtain ⟨known, own⟩ := mem_ordersWithIds.mp named
    exact eq_of_nodup sound.ids known member (List.mem_singleton.mp own)
  rcases (met.of_error run).1 with why | disturbed
  · cases why with
    | unfit unfit => exact sound.blocks_unfit member unfit
    | unreadable named hidden =>
      obtain ⟨order, read⟩ := readable.toLegible.order (mem_ordersWithIds.mp named).1
      rw [read] at hidden
      cases hidden
    | stalled named read stalled =>
      cases only named
      exact stalled_blocks sound readable member pending read stalled
  · exact absurd quiet disturbed.1

end Ends

inductive Command.Exits (r : OrderRow) : Command → Prop where
  | pay : Exits r (.payOrder r.code)
  | cancel : Exits r (.cancelOrder r.code)
  | expire : Exits r (.expireOrder r.id)

theorem end_blocks {w : World} {e : Event} (quiet : e.disruptions.Quiet) (sound : Sound w.tables)
    (readable : Readable w.tables) {r : OrderRow} (member : r ∈ w.tables.orders)
    (pending : r.status = .pending) (asked : e.command.Exits r) {f : Fault}
    (failed : w.answer e = .error f) :
    Lapses (w.facing e) r.code f r ∨ w.tables.Blocks r.id f := by
  have run := run_of_error failed
  generalize e.command = c at asked run
  cases asked with
  | pay =>
    have left := Service.map_error.mp run
    exact exit_blocks (w := w.facing e) quiet sound readable member pending left
  | cancel =>
    have left := Service.map_error.mp run
    exact exit_blocks (w := w.facing e) quiet sound readable member pending left
  | expire =>
    have expired := Service.map_error.mp run
    exact .inr (expiry_blocks (w := w.facing e) quiet sound readable member pending expired)

/-- Whatever was ordered can be given back: products outlive their lines, a deletion never breaks a
rule of the tables, and a pending order can end unless some stock would get too large. -/
theorem no_reservation_stranded {w : World} (empty : w.tables = {}) {es : List Event}
    (fits : ∀ e ∈ es, e.disruptions.Alone ∧ e.command.Priced) :
    (∀ l ∈ (w.run es).tables.lines, w.Rooted es l ∧
      ((w.run es).tables.isActive l.orderId = true →
        (w.run es).tables.Offers l.productCode)) ∧
    (∀ (e : Event) code f, e.disruptions.Alone → e.command = .deleteProduct code →
      (w.run es).answer e = .error f → f.kind ≠ .violated) ∧
    (∀ (e : Event) f, e.disruptions.Quiet → ∀ r ∈ (w.run es).tables.orders,
      r.status = .pending → e.command.Exits r → (w.run es).answer e = .error f →
      f.kind ≠ .productNotFound ∧
        (Lapses ((w.run es).facing e) r.code f r ∨ (w.run es).tables.Blocks r.id f)) := by
  have reached := (Reachable.start empty).run fits
  have sound := reached.sound
  have readable := reached.readable
  refine ⟨fun l here => ⟨lines_rooted empty fits l here, ?_⟩, ?_, ?_⟩
  · intro inForce
    obtain ⟨r, member, named, offered⟩ := sound.named l here
    exact ⟨r, member, named, offered inForce⟩
  · intro e code f alone asked failed
    exact deletion_unviolated sound alone asked failed
  · intro e f quiet r member pending asked failed
    have blocked := end_blocks quiet sound readable member pending asked failed
    refine ⟨?_, blocked⟩
    rcases blocked with lapses | ⟨kind, _⟩
    · rw [lapses.fault]
      decide
    · rw [kind]
      decide

/-- With all the tea there can be in stock, the two units that are ordered cannot be given
back. -/
theorem full_tea_blocks :
    ∃ w : World, ∃ f : Fault, w.answer (.quiet 3 (.cancelOrder "order-1")) = .error f ∧
      f.kind ≠ .productNotFound ∧ w.tables.Blocks 1 f := by
  have price : Desk.checkPrice (.ofCents 150) = .accepted (.ofCents 150) := by rfl
  let filling := Event.quiet 2 (.updateProduct "tea" "Tea" (.ofCents 150) (some (2 ^ 63 - 1)))
  have fits : ∀ e ∈ teaEvents ++ [filling], e.disruptions.Alone ∧ e.command.Priced := by
    refine List.forall_mem_append.mpr ⟨teaEvents_fit Command.Priced price trivial, ?_⟩
    exact List.forall_mem_singleton.mpr ⟨quiet_nothing.alone, price⟩
  have pending : ∃ r ∈ (World.opening.run (teaEvents ++ [filling])).tables.orders,
      r.status = .pending ∧ r.code = "order-1" ∧ r.id = 1 := by
    decide +kernel
  obtain ⟨r, member, waiting, code, id⟩ := pending
  have failed : (World.opening.run (teaEvents ++ [filling])).answer
      (.quiet 3 (.cancelOrder "order-1")) = .error .beyond64 := by
    decide +kernel
  have stops := (no_reservation_stranded (w := World.opening) rfl fits).2.2
    (.quiet 3 (.cancelOrder "order-1")) .beyond64 quiet_nothing r member waiting
    (code ▸ .cancel) failed
  refine ⟨_, _, failed, stops.1, ?_⟩
  rcases stops.2 with lapses | blocks
  · cases lapses.fault
  · rw [id] at blocks
    exact blocks

end Stockroom
