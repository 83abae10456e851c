import Stockroom.Proofs.History

/-! Everything that can be asked of the service, and the changes each request makes. -/
namespace Stockroom

open Service (Deletion)

inductive Command where
  | createProduct (code name : String) (stock : Int) (price : Decimal)
  | updateProduct (code name : String) (price : Decimal) (stock : Option Int)
  | deleteProduct (code : String)
  | createOrder (wanted : List (String × Int))
  | payOrder (code : String)
  | cancelOrder (code : String)
  | expireOrder (id : Int)
  | sweep
  | lookUpProduct (code : String)
  | listProducts (onlyActive : Bool)
  | hasActiveOrders (code : String)
  | hasFinishedOrders (code : String)
  | lookUpOrder (code : String)

inductive Answer where
  | product (p : Product)
  | products (ps : List Product)
  | deletion (d : Deletion)
  | order (order : Order)
  | expired (won : Bool)
  | swept (count : SweepCount)
  | found (b : Bool)
  deriving DecidableEq

namespace Command

def perform (s : Settings) : Command → Service Answer
  | .createProduct code name stock price =>
    .product <$> Service.createProduct code name stock price
  | .updateProduct code name price stock =>
    .product <$> Service.updateProduct s.attempts code name price stock
  | .deleteProduct code => .deletion <$> Service.deleteProduct code
  | .createOrder wanted => .order <$> Service.createOrder s wanted
  | .payOrder code => .order <$> Service.payOrder s.attempts code
  | .cancelOrder code => .order <$> Service.cancelOrder s.attempts code
  | .expireOrder id => .expired <$> Service.expireOrder s.attempts id
  | .sweep => .swept <$> Service.sweep s
  | .lookUpProduct code => .product <$> Service.lookUpProduct code
  | .listProducts onlyActive => .products <$> Service.productsByName onlyActive
  | .hasActiveOrders code => .found <$> Service.hasActiveOrders code
  | .hasFinishedOrders code => .found <$> Service.hasFinishedOrders code
  | .lookUpOrder code => .order <$> Service.orderOf code

/-- The changes that a command may make, by whether it succeeds. -/
def Makes : Command → Bool → List Change → Prop
  | .createProduct code _ _ price, true, cs => cs = [.create code price]
  | .updateProduct code _ price none, true, cs => cs = [.describe code price]
  | .updateProduct code _ price (some quantity), true, cs =>
    cs = [.describe code price, .correct code quantity]
  | .deleteProduct code, true, cs => ∃ deletion, cs = [.withdraw code deletion]
  | .createOrder _, true, cs => ∃ id, cs = [.place id]
  | .payOrder _, true, cs => ∃ id, cs = [.leave id .paid]
  | .cancelOrder _, true, cs => ∃ id, cs = [.leave id .canceled]
  | .payOrder _, false, cs => cs = [] ∨ ∃ id, cs = [.leave id .expired]
  | .cancelOrder _, false, cs => cs = [] ∨ ∃ id, cs = [.leave id .expired]
  | .expireOrder id, true, cs => cs = [] ∨ cs = [.leave id .expired]
  | .sweep, _, cs => ∃ ids : List Int, cs = ids.map (.leave · .expired)
  | _, _, cs => cs = []

def leaves : Command → Option String
  | .payOrder code => some code
  | .cancelOrder code => some code
  | _ => none

/-- A failed command other than an exit or a sweep makes no changes. -/
theorem failed_makes {c : Command} {cs : List Change} (makes : c.Makes false cs)
    (single : c ≠ .sweep) (stays : c.leaves = none) : cs = [] := by
  generalize failed : false = done at makes
  revert makes
  fun_cases Command.Makes c done cs
  case case8 | case9 => cases stays
  case case11 => exact absurd rfl single
  case case12 => exact id
  all_goals cases failed

end Command

namespace Service

variable {α β : Type} {x : Service α} {w : World}

/- Sweeps -/

/-- A step that does nothing to the tables but expire some of certain orders, whether or not it
fails. -/
def Expires (among : Int → Prop) (x : Service α) : Prop :=
  ∀ (w : World) (ttl : Span), w.Alone →
    x.Ends w
      (fun _ v => w.Leads v ∧ ∃ ids : List Int, (∀ id ∈ ids, among id) ∧
        Commits ttl w.times (ids.map (.leave · .expired)) w.tables v.tables)
      (fun _ v => w.Leads v ∧ ∃ ids : List Int, (∀ id ∈ ids, among id) ∧
        Commits ttl w.times (ids.map (.leave · .expired)) w.tables v.tables)

section Expires

variable {among : Int → Prop}

theorem expires_none {ttl : Span} {times : List Moment} {t t' : Tables} (same : t' = t) :
    ∃ ids : List Int, (∀ id ∈ ids, among id) ∧
      Commits ttl times (ids.map (.leave · .expired)) t t' :=
  ⟨[], by simp, commits_nil same⟩

theorem Expires.bind {f : α → Service β} (first : x.Expires among)
    (second : ∀ a, (f a).Expires among) : (x >>= f).Expires among := by
  intro w ttl alone
  refine ends_bind.mpr ((first w ttl alone).mono ?_ fun _ _ h => h)
  rintro a v ⟨lead, ids, member, before⟩
  refine (second a v ttl (lead.alone alone)).mono ?_ ?_
  all_goals
    rintro _ u ⟨onward, ids', member', after⟩
    refine ⟨lead.trans onward, ids ++ ids', List.forall_mem_append.mpr ⟨member, member'⟩, ?_⟩
    rw [List.map_append]
    exact before.append (after.mono lead.times)

theorem Expires.mono {among' : Int → Prop} (h : x.Expires among)
    (weaker : ∀ id, among id → among' id) : x.Expires among' := by
  intro w ttl alone
  refine (h w ttl alone).mono ?_ ?_
  all_goals
    rintro _ v ⟨lead, ids, member, commits⟩
    exact ⟨lead, ids, fun id here => weaker id (member id here), commits⟩

theorem Keeps.expires {good : World → α → Tables → Prop} {bad : Fault → Prop} (keeps : x.Keeps)
    (meets : ∀ w, x.Meets w (good w) bad) : x.Expires among := by
  intro w _ alone
  refine ((keeps w).and (meets w alone)).mono ?_ ?_
  · exact fun _ _ h => ⟨h.2.2, expires_none h.1⟩
  · exact fun _ _ h => ⟨h.2.2, expires_none h.1⟩

theorem expires_pure (a : α) : (pure a : Service α).Expires among :=
  fun w _ _ => ⟨.refl w, expires_none rfl⟩

theorem Passes.expires {a : α} (h : x.Passes a) : x.Expires among := by
  intro w _ _
  obtain ⟨v, run, same, lead⟩ := h w
  rw [Ends, run]
  exact ⟨lead, expires_none same⟩

theorem expires_foldlM {f : β → α → Service β} (xs : List α)
    (each : ∀ b, ∀ a ∈ xs, (f b a).Expires among) (b : β) : (xs.foldlM f b).Expires among := by
  induction xs generalizing b with
  | nil => exact expires_pure b
  | cons x xs ih =>
    rw [List.foldlM_cons]
    exact (each b x List.mem_cons_self).bind
      (ih fun b a member => each b a (List.mem_cons_of_mem _ member))

theorem now_expires : now.Expires among := by
  have met (w : World) : now.Meets w (fun _ _ => True) (fun _ => False) :=
    now_meets.mono (fun _ _ _ => trivial) fun _ h => h
  exact now_keeps.expires met

theorem query_expires (numbers : List Int) (read : Tables → α) :
    (query numbers read).Expires among := by
  have met (w : World) : (query numbers read).Meets w (fun _ _ => True) (fun _ => True) :=
    (query_meets numbers read).mono (fun _ _ _ => trivial) fun _ _ => trivial
  exact (query_keeps numbers read).expires met

theorem later_expires (m : Moment) (span : Span) : (later m span).Expires among := by
  have met (w : World) : (later m span).Meets w (fun _ _ => True) (fun _ => True) :=
    (later_meets m span).mono (fun _ _ _ => trivial) fun _ _ => trivial
  exact (later_keeps m span).expires met

theorem ordersWithIds_expires (ids : List Int) : (ordersWithIds ids).Expires among := by
  have met (w : World) : (ordersWithIds ids).Meets w (fun _ _ => True) (fun _ => True) :=
    (ordersWithIds_meets ids).mono (fun _ _ _ => trivial) fun _ _ => trivial
  exact (ordersWithIds_keeps ids).expires met

theorem expireOrder_restores (s : Settings.Attempts) (id : Int) (alone : w.Alone) :
    (expireOrder s id).Restores w := by
  apply ends_bind.mpr
  rw [Ends, disruptExpiry_alone id alone]
  refine Restores.followed (g := Option.isSome) atomically_restores fun order => ?_
  cases order with
  | none => exact passes_pure false
  | some order => exact (dropSnapshots_passes _).bind (passes_pure true)

theorem expireOrder_expires (s : Settings.Attempts) (id : Int) :
    (expireOrder s id).Expires (· = id) := by
  intro w _ alone
  refine ((expireOrder_meets id alone).and (expireOrder_restores s id alone)).mono ?_ ?_
  · rintro won v ⟨⟨⟨_, expired⟩ | ⟨_, same, _⟩, lead⟩, _⟩
    · exact ⟨lead, [id], by simp, .single expired.commit⟩
    · exact ⟨lead, expires_none same⟩
  · rintro f v ⟨⟨_, lead⟩, kept⟩
    exact ⟨lead, expires_none kept⟩

theorem Expires.outcome (h : x.Expires among) : (outcome x).Expires among := by
  intro w ttl alone
  have ends := h w ttl alone
  unfold Ends at ends
  unfold Ends Service.outcome
  cases run : x w with
  | ok a v =>
    rw [run] at ends
    exact ends
  | error f v =>
    rw [run] at ends
    exact ends

theorem sweepOrder_expires (s : Settings.Attempts) (count : SweepCount) (order : Order) :
    (sweepOrder s count order).Expires (· = order.id) := by
  refine now_expires.bind fun m => ?_
  split
  · exact expires_pure count
  · refine (expireOrder_expires s order.id).outcome.bind fun result => ?_
    split
    · exact expires_pure _
    · exact expires_pure _
    · exact ((note_passes _ _ _).bind (passes_pure _)).expires

theorem sweepOrders_expires (s : Settings.Attempts) (orders : List Order) (count : SweepCount) :
    (orders.foldlM (sweepOrder s) count).Expires (· ∈ orders.map (·.id)) := by
  refine expires_foldlM orders (fun count order member => ?_) count
  refine (sweepOrder_expires s count order).mono ?_
  rintro _ rfl
  exact List.mem_map_of_mem member

theorem sweepBatch_expires (s : Settings.Attempts) (count : SweepCount) (ids : List Int) :
    (sweepBatch s count ids).Expires fun _ => True :=
  (ordersWithIds_expires ids).bind fun orders =>
    (sweepOrders_expires s orders count).mono fun _ _ => trivial

theorem sweepIds_expires (s : Settings.Expiry) : (sweepIds s).Expires among :=
  now_expires.bind fun _ => (later_expires _ _).bind fun _ => (later_expires _ _).bind fun _ =>
    query_expires _ _

theorem sweep_expires (s : Settings) : (sweep s).Expires fun _ => True := by
  refine (sweepIds_expires s.expiry).bind fun ids => ?_
  split
  · exact ((note_passes _ _ _).bind (passes_pure _)).expires
  · refine (note_passes _ _ _).expires.bind fun _ => ?_
    refine (expires_foldlM _ (fun count ids _ => sweepBatch_expires s.attempts count ids) _).bind
      fun count => ?_
    exact ((note_passes _ _ _).bind (passes_pure count)).expires

end Expires

/- Commands -/

def MakesOf (ttl : Span) (c : Command) (x : Service α) (w : World) : Prop :=
  x.Ends w
    (fun _ v => w.Leads v ∧ ∃ cs, c.Makes true cs ∧ Commits ttl w.times cs w.tables v.tables)
    (fun _ v => w.Leads v ∧ ∃ cs, c.Makes false cs ∧ Commits ttl w.times cs w.tables v.tables)

section

variable {ttl : Span}

theorem Meets.makes {c : Command} {good : α → Tables → Prop} {bad : Fault → Prop}
    (meets : x.Meets w good bad) (restores : x.Restores w) (alone : w.Alone)
    (nothing : c.Makes false [])
    (onGood : ∀ a t, good a t → ∃ cs, c.Makes true cs ∧ Commits ttl w.times cs w.tables t) :
    MakesOf ttl c x w := by
  refine ((meets alone).and restores).mono ?_ ?_
  · exact fun a v h => ⟨h.1.2, onGood a _ h.1.1⟩
  · exact fun f v h => ⟨h.1.2, [], nothing, commits_nil h.2⟩

theorem Meets.reads {c : Command} {good : α → Tables → Prop} {bad : Fault → Prop}
    (meets : x.Meets w good bad) (keeps : x.Keeps) (alone : w.Alone)
    (nothing : ∀ done, c.Makes done []) : MakesOf ttl c x w := by
  refine ((meets alone).and (keeps w)).mono ?_ ?_
  · exact fun a v h => ⟨h.1.2, [], nothing true, commits_nil h.2⟩
  · exact fun f v h => ⟨h.1.2, [], nothing false, commits_nil h.2⟩

theorem leavePending_makes {s : Settings.Attempts} {c : Command} (exit : Exit) (code : String)
    (alone : w.Alone) (settled : ∀ id, c.Makes true [.leave id exit.target])
    (lapsed : ∀ id, c.Makes false [.leave id .expired]) (nothing : c.Makes false []) :
    MakesOf ttl c (leavePending s exit code) w := by
  refine (leavePending_ends exit code alone).mono ?_ ?_
  · rintro _ v ⟨lead, r, order, named, _, pending, left⟩
    exact ⟨lead, _, settled order.id, .single (.leave named.member named.read pending
      (by cases exit <;> decide) left)⟩
  · rintro f v ⟨lead, ⟨same, _⟩ | ⟨_, r, order, named, due, left⟩⟩
    · exact ⟨lead, [], nothing, commits_nil same⟩
    · exact ⟨lead, _, lapsed order.id, .single (.leave named.member named.read
        (pending_of_isDue due) (by decide) left)⟩

end

end Service

/-- Every command makes no other changes than its own. -/
theorem Command.perform_makes (s : Settings) (c : Command) {w : World} (alone : w.Alone) :
    Service.MakesOf s.expiry.orderTtl c (c.perform s) w := by
  unfold Service.MakesOf
  cases c with
  | createProduct code name stock price =>
    refine Service.ends_map.mpr ((Service.createProduct_meets code name stock price).makes
      (Service.createProduct_restores code name stock price) alone rfl ?_)
    rintro p t ⟨inserted, fit, _⟩
    exact ⟨_, rfl, .single (.create inserted fit)⟩
  | updateProduct code name price stock =>
    refine Service.ends_map.mpr ((Service.updateProduct_meets code name price stock).makes
      (Service.updateProduct_restores code name price stock) alone ?_ ?_)
    · cases stock <;> rfl
    · rintro p t (described | ⟨described, _, corrected⟩)
      · exact ⟨_, rfl, .single (.describe described)⟩
      · exact ⟨_, rfl, .cons (.describe described) (.single (.correct corrected))⟩
  | deleteProduct code =>
    refine Service.ends_map.mpr ((Service.deleteProduct_meets code).makes
      (Service.deleteProduct_restores code) alone rfl ?_)
    exact fun d t withdrawn => ⟨_, ⟨d, rfl⟩, .single (.withdraw withdrawn)⟩
  | createOrder wanted =>
    refine Service.ends_map.mpr ((Service.createOrder_meets wanted).makes
      (Service.createOrder_restores wanted) alone rfl ?_)
    rintro order t ⟨_, placed⟩
    exact ⟨_, ⟨order.id, rfl⟩, .single (.place placed)⟩
  | payOrder code =>
    exact Service.ends_map.mpr (Service.leavePending_makes .pay code alone
      (fun id => ⟨id, rfl⟩) (fun id => .inr ⟨id, rfl⟩) (.inl rfl))
  | cancelOrder code =>
    exact Service.ends_map.mpr (Service.leavePending_makes .cancel code alone
      (fun id => ⟨id, rfl⟩) (fun id => .inr ⟨id, rfl⟩) (.inl rfl))
  | expireOrder id =>
    refine Service.ends_map.mpr ((Service.expireOrder_meets id).makes
      (Service.expireOrder_restores s.attempts id alone) alone rfl ?_)
    rintro won t (⟨_, expired⟩ | ⟨_, same, _⟩)
    · exact ⟨_, .inr rfl, .single expired.commit⟩
    · exact ⟨_, .inl rfl, commits_nil same⟩
  | sweep =>
    refine Service.ends_map.mpr ((Service.sweep_expires s w s.expiry.orderTtl alone).mono ?_ ?_)
    · rintro _ v ⟨lead, ids, _, swept⟩
      exact ⟨lead, _, ⟨ids, rfl⟩, swept⟩
    · rintro _ v ⟨lead, ids, _, swept⟩
      exact ⟨lead, _, ⟨ids, rfl⟩, swept⟩
  | lookUpProduct code =>
    exact Service.ends_map.mpr ((Service.lookUpProduct_meets code).reads
      (Service.lookUpProduct_keeps code) alone fun done => by cases done <;> rfl)
  | listProducts onlyActive =>
    exact Service.ends_map.mpr ((Service.productsByName_meets onlyActive).reads
      (Service.productsByName_keeps onlyActive) alone fun done => by cases done <;> rfl)
  | hasActiveOrders code =>
    exact Service.ends_map.mpr ((Service.productHasOrdersIn_meets code _).reads
      (Service.productHasOrdersIn_keeps code _) alone fun done => by cases done <;> rfl)
  | hasFinishedOrders code =>
    exact Service.ends_map.mpr ((Service.productHasOrdersIn_meets code _).reads
      (Service.productHasOrdersIn_keeps code _) alone fun done => by cases done <;> rfl)
  | lookUpOrder code =>
    exact Service.ends_map.mpr ((Service.orderOf_meets code).reads
      (Service.orderOf_keeps code) alone fun done => by cases done <;> rfl)

end Stockroom
