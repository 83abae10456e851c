import Stockroom.Proofs.Retries
import Stockroom.Proofs.Stranding

namespace Stockroom

open Service (fits64 taking)

/- Archived rows are never written -/

theorem Sound.archived_ne {t : Tables} (sound : Sound t) {r active : ProductRow}
    (member : r ∈ t.products) (archived : r.archived = true) (other : active ∈ t.products)
    (offered : active.archived = false) : r.code ≠ active.code := by
  intro same
  cases eq_of_nodup sound.codes member other same
  rw [archived] at offered
  cases offered

theorem mem_updateProduct {t : Tables} {r : ProductRow} {code : String}
    {f : ProductRow → ProductRow} (member : r ∈ t.products) (kept : r.code = code → f r = r) :
    r ∈ (t.updateProduct code f).products := by
  refine List.mem_map.mpr ⟨r, member, ?_⟩
  split
  · rename_i here
    exact kept here
  · rfl

theorem product_archive {t : Tables} {code : String} {r : ProductRow}
    (found : t.product? code = some r) (m : Moment) :
    (t.archive code m).product? code =
      some { r with archived := true, version := r.version + 1, updatedAt := some m } := by
  rw [Tables.archive, product_update, found, Option.map_some, if_pos (product_mem found).2]
  exact fun _ => rfl

section

variable {t t' : Tables} {r : ProductRow} (sound : Sound t) (archived : r.archived = true)
  (member : r ∈ t.products)

include sound archived member

theorem Restocked.keeps_archived {code : String} {active : ProductRow} {quantity : Int}
    {m : Moment} (h : Restocked t code active quantity m t') : r ∈ t'.products := by
  have other := sound.archived_ne member archived h.member h.offered
  rw [h.after]
  exact mem_updateProduct member fun here => absurd (here.trans h.named.symm) other

theorem Released.keeps_archived {times : List Moment} {lines : List OrderLine}
    (h : Released times t lines t') : r ∈ t'.products := by
  induction h with
  | nil => exact member
  | cons _ _ written _ ih =>
    obtain ⟨_, _, _, _, stocked⟩ := restock_effect written
    exact ih (sound.restock stocked) (stocked.keeps_archived sound archived member)

theorem Reserved.keeps_archived {times : List Moment} {wanted : List (String × Int)}
    {lines : List OrderLine} (h : Reserved times t wanted lines t') : r ∈ t'.products := by
  induction h with
  | nil => exact member
  | cons _ _ written _ _ _ ih =>
    obtain ⟨_, _, _, _, stocked⟩ := restock_effect written
    exact ih (sound.restock stocked) (stocked.keeps_archived sound archived member)

theorem Withdrawn.keeps_archived {code : String} {deletion : Service.Deletion}
    (h : Withdrawn t code deletion t') : r ∈ t'.products := by
  cases h with
  | archived found _ _ =>
    obtain ⟨other, named, offered⟩ := activeProduct_mem found
    have apart := sound.archived_ne member archived other offered
    exact mem_updateProduct member fun here => absurd (here.trans named.symm) apart
  | removed found _ _ removed =>
    obtain ⟨other, named, offered⟩ := activeProduct_mem found
    have apart := sound.archived_ne member archived other offered
    obtain ⟨_, rfl⟩ := removeProduct_ok removed
    exact List.mem_filter.mpr ⟨member, by simpa [named] using apart⟩

theorem Commit.keeps_archived {ttl : Span} {times : List Moment} {c : Change}
    (h : Commit ttl times c t t') : r ∈ t'.products := by
  cases h with
  | create inserted _ =>
    obtain ⟨_, _, _, _, rfl⟩ := insertProduct_ok inserted
    exact List.mem_append_left _ member
  | describe described =>
    obtain ⟨_, _, _, _, _, _, swapped, _⟩ := Tables.redescribe_ok.mp described
    obtain ⟨_, _, rfl⟩ := swapCatalog_ok swapped
    refine mem_updateProduct member fun _ => ?_
    rw [if_neg (by simp [ProductRow.isAt, archived])]
  | correct corrected =>
    obtain ⟨_, _, _, _, stocked⟩ := restock_effect corrected
    exact stocked.keeps_archived sound archived member
  | withdraw withdrawn => exact withdrawn.keeps_archived sound archived member
  | place placed =>
    obtain ⟨u, reserved, inserted⟩ := placed.inserted
    rw [inserted.products]
    exact reserved.keeps_archived sound archived member
  | leave here read pending _ left =>
    obtain ⟨ls, rfl⟩ := readOrder_values read
    obtain ⟨m, u, rfl, rest⟩ := left.moved
    rcases rest with ⟨_, rfl⟩ | ⟨_, released⟩
    · exact member
    · exact released.keeps_archived (sound.move here pending _ m) archived member

end

/-- Along every run an archived row stays as it is. -/
theorem archived_stays {w : World} (sound : Sound w.tables) {r : ProductRow}
    (archived : r.archived = true) (member : r ∈ w.tables.products) {es : List Event}
    (alone : ∀ e ∈ es, e.disruptions.Alone) : r ∈ (w.run es).tables.products := by
  have kept : Sound (w.run es).tables ∧ r ∈ (w.run es).tables.products := by
    refine run_keeps (P := fun t => Sound t ∧ r ∈ t.products) alone ?_ ⟨sound, member⟩
    exact fun ttl times c t t' one before =>
      ⟨before.1.commit one, one.keeps_archived before.1 archived before.2⟩
  exact kept.2

/- Orders and products on offer -/

theorem Sound.offers_of_held {t : Tables} (sound : Sound t) {code : String}
    (held : t.hasOrdersIn code OrderStatus.active = true) : t.Offers code := by
  obtain ⟨l, here, holds⟩ := List.any_eq_true.mp held
  simp only [Bool.and_eq_true, decide_eq_true_eq, List.any_eq_true, List.contains_iff_mem] at holds
  obtain ⟨named, o, member, own, active⟩ := holds
  obtain ⟨r, there, code, use⟩ := sound.named l here
  exact ⟨r, there, code.trans named, use (isActive_iff.mpr ⟨o, member, own, active⟩)⟩

theorem Sound.offers_iff {t : Tables} (sound : Sound t) {code : String} :
    ¬t.Offers code ↔ ∀ r, t.product? code = some r → r.archived = true := by
  constructor
  · intro missing r found
    obtain ⟨member, named⟩ := product_mem found
    cases archived : r.archived with
    | true => rfl
    | false => exact absurd ⟨r, member, named, archived⟩ missing
  · rintro all ⟨r, member, rfl, offered⟩
    rw [all r (product_of_mem sound.codes member)] at offered
    cases offered

theorem Readable.active_shown {t : Tables} (readable : Readable t) {code : String}
    {r : ProductRow} {f : Fault} (found : t.activeProduct? code = some r) :
    r.toProduct ≠ .error f := by
  obtain ⟨p, shown⟩ := toProduct_finite (readable.prices r (activeProduct_mem found).1)
  rw [shown]
  exact nofun

theorem Reserved.codes {times : List Moment} {t t' : Tables} {wanted : List (String × Int)}
    {lines : List OrderLine} (h : Reserved times t wanted lines t') :
    lines.map (·.productCode) = wanted.map (·.1) := by
  induction h with
  | nil => rfl
  | cons _ _ _ _ checked _ ih =>
    obtain ⟨_, _, rfl⟩ := check_ok checked
    rw [List.map_cons, List.map_cons, ih]

theorem Placed.offers {ttl : Span} {times : List Moment} {t t' : Tables}
    {wanted : List (String × Int)} {order : Order} (h : Placed ttl times t wanted order t')
    {code : String} (listed : code ∈ wanted.map (·.1)) : t.Offers code := by
  obtain ⟨u, reserved, _⟩ := h.inserted
  rw [← reserved.codes] at listed
  obtain ⟨line, here, rfl⟩ := List.mem_map.mp listed
  exact reserved.offered line here

/- Steps that fail for certain -/

namespace Service

variable {α β : Type} {x : Service α} {w : World} {f : Fault}

def Fails (x : Service α) (w : World) (f : Fault) : Prop :=
  ∃ v, x w = .error f v ∧ v.tables = w.tables ∧ w.Leads v

theorem fails_map {g : α → β} (h : x.Fails w f) : (g <$> x).Fails w f := by
  obtain ⟨v, run, rest⟩ := h
  exact ⟨v, map_error.mpr run, rest⟩

theorem Fails.bind {g : α → Service β} (h : x.Fails w f) : (x >>= g).Fails w f := by
  obtain ⟨v, run, rest⟩ := h
  exact ⟨v, bind_error.mpr (.inl run), rest⟩

theorem Fails.atomically (h : x.Fails w f) : (atomically x).Fails w f := by
  obtain ⟨v, run, _, lead⟩ := h
  have stopped : closing x w = .error f v := bind_error.mpr (.inl run)
  refine ⟨{ v with tables := w.tables }, ?_, rfl, lead.left, lead.times, lead.codes⟩
  unfold Service.atomically
  rw [stopped]

theorem Meets.fails {good : α → Tables → Prop} {bad : Fault → Prop} (met : x.Meets w good bad)
    (restores : x.Restores w) (quiet : w.Quiet) (never : ∀ a t, ¬good a t)
    (only : ∀ g, bad g → g = f) : x.Fails w f := by
  have ends := met quiet.alone
  unfold Ends at ends
  unfold Restores Ends at restores
  cases run : x w with
  | ok a v =>
    rw [run] at ends
    exact absurd ends.1 (never _ _)
  | error g v =>
    rw [run] at ends restores
    rcases ends.1 with account | ⟨noisy, _⟩
    · cases only g account
      exact ⟨v, run, restores, ends.2⟩
    · exact absurd quiet noisy

theorem Meets.succeeds {good : α → Tables → Prop} {bad : Fault → Prop} (met : x.Meets w good bad)
    (quiet : w.Quiet) (never : ∀ g, ¬bad g) : ∃ a v, x w = .ok a v ∧ good a v.tables := by
  have ends := met quiet.alone
  unfold Ends at ends
  cases run : x w with
  | ok a v =>
    rw [run] at ends
    exact ⟨a, v, rfl, ends.1⟩
  | error g v =>
    rw [run] at ends
    rcases ends.1 with account | ⟨noisy, _⟩
    · exact absurd account (never g)
    · exact absurd quiet noisy

theorem continueFrom_fails {s : Settings.Attempts} {base : World} (surfaces : s.Surfaces f)
    (attempt : ∀ v : World, v.tables = base.tables → base.Leads v → x.Fails v f)
    (further n : Nat) (all : n + further = s.maxAttempts.1) (first : 1 ≤ n)
    (same : w.tables = base.tables) (start : base.Leads w) :
    Fails (Attempts.continueFrom s (paused s) x further n) w f := by
  induction further generalizing n w with
  | zero =>
    obtain ⟨v, run, kept, lead⟩ := attempt w same start
    refine ⟨v, ?_, kept, lead⟩
    rw [Attempts.continueFrom.eq_def]
    cases again : Attempts.mayRetry s f with
    | false => simp only [run, again, Bool.false_eq_true, if_false]
    | true =>
      obtain ⟨wait, waited⟩ := surfaces again n first (by omega)
      simp only [run, again, if_true, waited]
  | succ further ih =>
    obtain ⟨v, run, kept, lead⟩ := attempt w same start
    rw [Fails, Attempts.continueFrom.eq_def]
    cases again : Attempts.mayRetry s f with
    | false => exact ⟨v, by simp only [run, again, Bool.false_eq_true, if_false], kept, lead⟩
    | true =>
      obtain ⟨wait, waited⟩ := surfaces again n first (by omega)
      have onward : w.Leads (paused s n f wait v) := lead.trans (.of_eq rfl rfl (Nat.le_refl _))
      obtain ⟨u, rest, kept', lead'⟩ := ih (w := paused s n f wait v) (n + 1) (by omega) (by omega)
        (kept.trans same) (start.trans onward)
      refine ⟨u, ?_, kept'.trans kept, onward.trans lead'⟩
      simp only [run, again, if_true, waited]
      exact rest

theorem retrying_fails {s : Settings.Attempts} (surfaces : s.Surfaces f)
    (attempt : ∀ v : World, v.tables = w.tables → w.Leads v → x.Fails v f) :
    (retrying s x).Fails w f := by
  have positive := s.maxAttempts.2
  exact continueFrom_fails surfaces attempt _ 1 (by omega) (Nat.le_refl 1) rfl (.refl w)

/- Products that are not on offer -/

section

variable {s : Settings.Attempts} {code : String}

theorem attempt_fails {x : Service Product}
    (written : Tables → Moment → Except Fault (Product × Tables))
    (one : ∀ v : World, x.Meets v (fun p t => ∃ m ∈ v.times, written v.tables m = .ok (p, t))
      (fun f => ∃ m, written v.tables m = .error f))
    (quiet : w.Quiet) (missing : ∀ m, written w.tables m = .error (.productNotFound code)) :
    (mapFault (Fault.asConflict code) (nested x)).Fails w (.productNotFound code) := by
  have attempt : (nested x).Meets w (fun p t => ∃ m, written w.tables m = .ok (p, t))
      (fun f => ∃ m, written w.tables m = .error f) := by
    refine nested_meets fun v same _ => (one v).mono ?_ ?_
    · exact fun p t ⟨m, _, stored⟩ => ⟨m, same ▸ stored⟩
    · exact fun f ⟨m, failed⟩ => ⟨m, same ▸ failed⟩
  refine (mapFault_meets attempt (asConflict_fromOthers code)).fails
    (mapFault_restores nested_restores) quiet ?_ ?_
  · rintro p t ⟨m, stored⟩
    rw [missing] at stored
    cases stored
  · rintro _ ⟨f, ⟨m, failed⟩, rfl⟩
    rw [missing] at failed
    cases failed
    rfl

theorem stockAttempt_fails {compute : Product → Except Fault Int} (quiet : w.Quiet)
    (missing : w.tables.activeProduct? code = none) :
    (stockAttempt code compute).Fails w (.productNotFound code) := by
  refine attempt_fails (fun t m => t.restock code compute m)
    (fun _ => writeLocked_meets code compute) quiet fun m => ?_
  simp [Tables.restock, missing]

theorem reserve_fails {quantity : Int} (surfaces : s.Surfaces (.productNotFound code))
    (quiet : w.Quiet) (missing : w.tables.activeProduct? code = none) (positive : 0 < quantity) :
    (reserve s code quantity).Fails w (.productNotFound code) := by
  have attempts : (retrying s (stockAttempt code (taking quantity))).Fails w
      (.productNotFound code) :=
    retrying_fails surfaces fun v same lead =>
      stockAttempt_fails (lead.quiet quiet) (same ▸ missing)
  unfold reserve
  rw [if_neg (Int.not_le.mpr positive)]
  exact attempts.bind.bind

theorem redescribe_missing {t : Tables} (readable : Readable t)
    (missing : ∀ r, t.product? code = some r → r.archived = true) (name : String)
    (price : Decimal) (m : Moment) :
    t.redescribe code name price m = .error (.productNotFound code) := by
  cases found : t.product? code with
  | none => simp [Tables.redescribe, found]
  | some r =>
    obtain ⟨p, shown⟩ := toProduct_finite (readable.prices r (product_mem found).1)
    have gone : p.archived = true := by
      obtain ⟨_, rfl⟩ := toProduct_ok shown
      exact missing r found
    simp [Tables.redescribe, found, shown, gone, bind, Except.bind]

theorem describeAttempt_fails {name : String} {price : Decimal} (quiet : w.Quiet)
    (readable : Readable w.tables)
    (missing : ∀ r, w.tables.product? code = some r → r.archived = true) :
    (describeAttempt code name price).Fails w (.productNotFound code) :=
  attempt_fails (fun t m => t.redescribe code name price m)
    (fun _ => writeDescription_meets code name price) quiet
    (redescribe_missing readable missing name price)

theorem updateProduct_fails {name : String} {price : Decimal} {stock : Option Int}
    (surfaces : s.Surfaces (.productNotFound code)) (quiet : w.Quiet)
    (readable : Readable w.tables)
    (missing : ∀ r, w.tables.product? code = some r → r.archived = true) :
    (updateProduct s code name price stock).Fails w (.productNotFound code) := by
  have attempts : (retrying s (describeAttempt code name price)).Fails w
      (.productNotFound code) :=
    retrying_fails surfaces fun v same lead =>
      describeAttempt_fails (lead.quiet quiet) (same ▸ readable) (same ▸ missing)
  exact attempts.bind.bind.atomically.bind

theorem createProduct_fails {name : String} {stock : Int} {price : Decimal} (quiet : w.Quiet)
    (least : 0 ≤ stock) (taken : (w.tables.product? code).isSome) :
    (createProduct code name stock price).Fails w (.productAlreadyExists code) := by
  refine (createProduct_meets code name stock price).fails (createProduct_restores ..) quiet ?_ ?_
  · rintro p t ⟨inserted, _⟩
    rw [(insertProduct_ok inserted).2.1] at taken
    cases taken
  · intro g why
    cases why with
    | negative negative => omega
    | taken => rfl
    | unpriced => rfl
    | unfit _ free _ | infinite _ free _ =>
      rw [free] at taken
      cases taken

theorem createProduct_succeeds (name : String) {stock : Int} {price : Decimal} (quiet : w.Quiet)
    (least : 0 ≤ stock) (fit : fits64 stock = true)
    (checked : Desk.checkPrice price = .accepted price) (free : w.tables.product? code = none) :
    ∃ v, createProduct code name stock price w = .ok { code, name, stock, price } v ∧
      w.tables.insertProduct code name stock price = .ok v.tables := by
  obtain ⟨p, v, run, inserted, _, _, rfl⟩ :=
    (createProduct_meets code name stock price).succeeds quiet fun g why => by
      cases why with
      | negative negative => omega
      | taken _ taken =>
        rw [free] at taken
        cases taken
      | unfit _ _ wrong =>
        rw [fit] at wrong
        cases wrong
      | unpriced _ _ missing =>
        obtain ⟨amount, stored, _⟩ := Desk.price_storable checked
        rw [missing] at stored
        cases stored
      | infinite _ _ infinite =>
        rw [Desk.price_finite checked] at infinite
        cases infinite
  exact ⟨v, run, inserted⟩

/- Deletion -/

theorem deleteProduct_unknown (quiet : w.Quiet) (sound : Sound w.tables)
    (missing : ¬w.tables.Offers code) : (deleteProduct code).Fails w (.productNotFound code) := by
  refine (deleteProduct_meets code).fails (deleteProduct_restores code) quiet ?_ ?_
  · intro d t withdrawn
    cases withdrawn with
    | archived found _ _ | removed found _ _ _ =>
      obtain ⟨member, named, offered⟩ := activeProduct_mem found
      exact missing ⟨_, member, named, offered⟩
  · intro g kept
    cases kept with
    | unknown => rfl
    | unreadable found _ =>
      obtain ⟨member, named, offered⟩ := activeProduct_mem found
      exact absurd ⟨_, member, named, offered⟩ missing
    | held active => exact absurd (sound.offers_of_held active) missing
    | named inactive unfinished broken => exact absurd broken (sound.removable inactive unfinished)

theorem deleteProduct_held (quiet : w.Quiet) (sound : Sound w.tables) (readable : Readable w.tables)
    (active : w.tables.hasOrdersIn code OrderStatus.active = true) :
    (deleteProduct code).Fails w (.productDeletionConflict code) := by
  refine (deleteProduct_meets code).fails (deleteProduct_restores code) quiet ?_ ?_
  · intro d t withdrawn
    cases withdrawn with
    | archived _ free _ | removed _ free _ _ =>
      rw [active] at free
      cases free
  · intro g kept
    cases kept with
    | unknown none => exact absurd none (sound.offers_of_held active).active
    | unreadable found hidden => exact absurd hidden (readable.active_shown found)
    | held => rfl
    | named inactive _ _ =>
      rw [active] at inactive
      cases inactive

theorem deleteProduct_free (quiet : w.Quiet) (sound : Sound w.tables) (readable : Readable w.tables)
    (offered : w.tables.Offers code)
    (free : w.tables.hasOrdersIn code OrderStatus.active = false) :
    ∃ d v, deleteProduct code w = .ok d v ∧ Withdrawn w.tables code d v.tables := by
  refine (deleteProduct_meets code).succeeds quiet fun g kept => ?_
  cases kept with
  | unknown none => exact offered.active none
  | unreadable found hidden => exact readable.active_shown found hidden
  | held active =>
    rw [free] at active
    cases active
  | named inactive unfinished broken => exact sound.removable inactive unfinished broken

end

end Service

/- Answers -/

namespace World

/-- What a command is answered whenever nobody disturbs it. -/
def Answers (w : World) (c : Command) (a : Except Fault Answer) : Prop :=
  ∀ e : Event, e.disruptions.Quiet → e.command = c → w.answer e = a

theorem answer_of_fails {w : World} {e : Event} {f : Fault}
    (failed : (e.command.perform e.settings).Fails (w.facing e) f) : w.answer e = .error f := by
  obtain ⟨v, run, _⟩ := failed
  unfold answer
  rw [run]

theorem answer_of_ok {w v : World} {e : Event} {a : Answer}
    (run : e.command.perform e.settings (w.facing e) = .ok a v) :
    w.answer e = .ok a ∧ (w.after e).tables = v.tables := by
  obtain ⟨told, after⟩ := event_of_run run
  exact ⟨told, congrArg (·.tables) after⟩

/-- The code can be taken, by any product with a price and a stock within the bounds. -/
def Frees (w : World) (code : String) : Prop :=
  ∀ name stock price, 0 ≤ stock → stock < 2 ^ 63 → Desk.checkPrice price = .accepted price →
    w.Answers (.createProduct code name stock price) (.ok (.product { code, name, stock, price }))

/-- The code is taken, and there is nothing to be had under it. -/
structure Withholds (w : World) (code : String) : Prop where
  created : ∀ name stock price, 0 ≤ stock →
    w.Answers (.createProduct code name stock price) (.error (.productAlreadyExists code))
  updated : ∀ (e : Event) name price stock, e.disruptions.Quiet →
    e.command = .updateProduct code name price stock →
    e.settings.attempts.Surfaces (.productNotFound code) →
    w.answer e = .error (.productNotFound code)
  deleted : w.Answers (.deleteProduct code) (.error (.productNotFound code))
  reserved : ∀ (v : World) s quantity, v.tables = w.tables → v.Quiet → 0 < quantity →
    s.Surfaces (.productNotFound code) →
    (Service.reserve s code quantity).Fails v (.productNotFound code)
  ordered : ∀ (e : Event) wanted, e.disruptions.Alone → e.command = .createOrder wanted →
    code ∈ wanted.map (·.1) → ∀ a, w.answer e ≠ .ok a

/-- What becomes of a request to delete the product of a code. -/
structure Deletes (w : World) (e : Event) (code : String) : Prop where
  unknown : w.answer e = .error (.productNotFound code) ↔
    ∀ r, w.tables.product? code = some r → r.archived = true
  held : w.tables.Offers code → (w.answer e = .error (.productDeletionConflict code) ↔
    w.Answers (.hasActiveOrders code) (.ok (.found true)))
  archived : w.tables.Offers code → w.Answers (.hasActiveOrders code) (.ok (.found false)) →
    w.Answers (.hasFinishedOrders code) (.ok (.found true)) →
    w.answer e = .ok (.deletion .archived) ∧
      ∃ r m, w.tables.product? code = some r ∧ (w.after e).tables = w.tables.archive code m ∧
        (w.after e).tables.product? code =
          some { r with archived := true, version := r.version + 1, updatedAt := some m }
  removed : w.tables.Offers code → w.Answers (.hasActiveOrders code) (.ok (.found false)) →
    w.Answers (.hasFinishedOrders code) (.ok (.found false)) →
    w.answer e = .ok (.deletion .removed) ∧
      w.tables.removeProduct code = .ok (w.after e).tables ∧
      (w.after e).tables.product? code = none ∧ (w.after e).Frees code

end World

section

variable {w : World} {code : String}

theorem creation_refused {name : String} {stock : Int} {price : Decimal} (least : 0 ≤ stock)
    (taken : (w.tables.product? code).isSome) :
    w.Answers (.createProduct code name stock price) (.error (.productAlreadyExists code)) := by
  intro e quiet asked
  refine World.answer_of_fails ?_
  rw [asked]
  exact Service.fails_map
    (Service.createProduct_fails (w := w.facing e) quiet least taken)

theorem creation_granted (free : w.tables.product? code = none) : w.Frees code := by
  intro name stock price least most checked e quiet asked
  have fit := Service.fits64_of_bounds least most
  obtain ⟨v, run, _⟩ :=
    Service.createProduct_succeeds (w := w.facing e) name quiet least fit checked free
  refine (World.answer_of_ok (v := v) ?_).1
  rw [asked]
  exact Service.map_ok run

theorem orders_told (known : (w.tables.product? code).isSome) (statuses : List OrderStatus)
    {e : Event} (quiet : e.disruptions.Quiet)
    (asked : e.command.perform e.settings = .found <$> Service.productHasOrdersIn code statuses) :
    w.answer e = .ok (.found (w.tables.hasOrdersIn code statuses)) := by
  obtain ⟨b, v, run, _, _, rfl⟩ := (Service.productHasOrdersIn_meets (w := w.facing e) code
    statuses).succeeds quiet fun g why => by
      rcases why.2 with missing | noisy
      · have missing : w.tables.product? code = none := missing
        rw [missing] at known
        cases known
      · exact noisy quiet
  refine (World.answer_of_ok (v := v) ?_).1
  rw [asked]
  exact Service.map_ok run

theorem Tables.Offers.known {t : Tables} (offered : t.Offers code) :
    (t.product? code).isSome := by
  obtain ⟨r, member, named, _⟩ := offered
  rw [Tables.product?, List.find?_isSome]
  exact ⟨r, member, by simpa using named⟩

theorem answers_iff (known : (w.tables.product? code).isSome) (statuses : List OrderStatus)
    {c : Command} (asks : ∀ s, c.perform s = .found <$> Service.productHasOrdersIn code statuses)
    (b : Bool) : w.Answers c (.ok (.found b)) ↔ w.tables.hasOrdersIn code statuses = b := by
  constructor
  · intro answers
    let e : Event := { settings := {}, now := .minutes 0, command := c }
    have told := orders_told known statuses (e := e) quiet_nothing (asks _)
    rw [answers e quiet_nothing rfl] at told
    cases told
    rfl
  · rintro rfl e quiet rfl
    exact orders_told known statuses quiet (asks _)

section

variable (sound : Sound w.tables) (readable : Readable w.tables) {e : Event}
  (quiet : e.disruptions.Quiet) (asked : e.command = .deleteProduct code)

include sound quiet asked

theorem deletion_unknown (missing : ¬w.tables.Offers code) :
    w.answer e = .error (.productNotFound code) := by
  refine World.answer_of_fails ?_
  rw [asked]
  exact Service.fails_map
    (Service.deleteProduct_unknown (w := w.facing e) quiet sound missing)

include readable

theorem deletion_held (inForce : w.tables.hasOrdersIn code OrderStatus.active = true) :
    w.answer e = .error (.productDeletionConflict code) := by
  refine World.answer_of_fails ?_
  rw [asked]
  exact Service.fails_map
    (Service.deleteProduct_held (w := w.facing e) quiet sound readable inForce)

theorem deletion_free (offered : w.tables.Offers code)
    (idle : w.tables.hasOrdersIn code OrderStatus.active = false) :
    ∃ d, w.answer e = .ok (.deletion d) ∧ Withdrawn w.tables code d (w.after e).tables := by
  obtain ⟨d, v, run, withdrawn⟩ :=
    Service.deleteProduct_free (w := w.facing e) quiet sound readable offered idle
  have ended : e.command.perform e.settings (w.facing e) = .ok (.deletion d) v := by
    rw [asked]
    exact Service.map_ok run
  obtain ⟨told, after⟩ := World.answer_of_ok ended
  exact ⟨d, told, after ▸ withdrawn⟩

theorem deletion_refused (offered : w.tables.Offers code) {f : Fault}
    (told : w.answer e = .error f) :
    w.tables.hasOrdersIn code OrderStatus.active = true ∧ f = .productDeletionConflict code := by
  cases inForce : w.tables.hasOrdersIn code OrderStatus.active with
  | true =>
    rw [deletion_held sound readable quiet asked inForce] at told
    cases told
    exact ⟨rfl, rfl⟩
  | false =>
    obtain ⟨d, granted, _⟩ := deletion_free sound readable quiet asked offered inForce
    rw [granted] at told
    cases told

theorem Sound.deletes : w.Deletes e code := by
  have active (known : (w.tables.product? code).isSome) (b : Bool) :=
    answers_iff known OrderStatus.active (c := .hasActiveOrders code) (fun _ => rfl) b
  have finished (known : (w.tables.product? code).isSome) (b : Bool) :=
    answers_iff known OrderStatus.finished (c := .hasFinishedOrders code) (fun _ => rfl) b
  refine ⟨?_, ?_, ?_, ?_⟩
  · rw [← sound.offers_iff]
    refine ⟨fun told offered => ?_, deletion_unknown sound quiet asked⟩
    cases (deletion_refused sound readable quiet asked offered told).2
  · intro offered
    rw [active offered.known]
    refine ⟨fun told => ?_, deletion_held sound readable quiet asked⟩
    exact (deletion_refused sound readable quiet asked offered told).1
  · intro offered idle named
    rw [active offered.known] at idle
    rw [finished offered.known] at named
    obtain ⟨d, told, withdrawn⟩ := deletion_free sound readable quiet asked offered idle
    generalize after : (w.after e).tables = t at withdrawn
    cases withdrawn with
    | @archived r m found _ _ =>
      obtain ⟨member, here, _⟩ := activeProduct_mem found
      have row : w.tables.product? code = some r := here ▸ product_of_mem sound.codes member
      exact ⟨told, r, m, row, rfl, product_archive row m⟩
    | removed _ _ unnamed _ =>
      rw [named] at unnamed
      cases unnamed
  · intro offered idle unnamed
    rw [active offered.known] at idle
    rw [finished offered.known] at unnamed
    obtain ⟨d, told, withdrawn⟩ := deletion_free sound readable quiet asked offered idle
    generalize after : (w.after e).tables = t at withdrawn
    cases withdrawn with
    | archived _ _ named =>
      rw [unnamed] at named
      cases named
    | removed _ _ _ removed =>
      have free : t.product? code = none := by
        obtain ⟨_, rfl⟩ := removeProduct_ok removed
        rw [Tables.product?, List.find?_eq_none]
        intro r here
        simpa using (List.mem_filter.mp here).2
      exact ⟨told, removed, free, creation_granted (after ▸ free)⟩

end

theorem withheld (sound : Sound w.tables) (readable : Readable w.tables) {r : ProductRow}
    (found : w.tables.product? code = some r) (archived : r.archived = true) :
    w.Withholds code := by
  have gone : ∀ r, w.tables.product? code = some r → r.archived = true := by
    intro r' found'
    cases found.symm.trans found'
    exact archived
  have missing : ¬w.tables.Offers code := sound.offers_iff.mpr gone
  have inactive : w.tables.activeProduct? code = none := by
    cases active : w.tables.activeProduct? code with
    | none => rfl
    | some r' =>
      obtain ⟨member, named, offered⟩ := activeProduct_mem active
      exact absurd ⟨r', member, named, offered⟩ missing
  refine ⟨?_, ?_, ?_, ?_, ?_⟩
  · intro name stock price least
    exact creation_refused least (by rw [found]; rfl)
  · intro e name price stock quiet asked surfaces
    refine World.answer_of_fails ?_
    rw [asked]
    exact Service.fails_map
      (Service.updateProduct_fails (w := w.facing e) surfaces quiet readable gone)
  · exact fun e quiet asked => (sound.deletes readable quiet asked).unknown.mpr gone
  · intro v s quantity same quiet positive surfaces
    exact Service.reserve_fails surfaces quiet (same ▸ inactive) positive
  · intro e wanted alone asked listed a told
    have ends : (e.command.perform e.settings).Ends (w.facing e)
        (fun _ _ => w.tables.Offers code) (fun _ _ => True) := by
      rw [asked]
      refine Service.ends_map.mpr ((Service.createOrder_meets (w := w.facing e) wanted alone).mono
        ?_ fun _ _ _ => trivial)
      exact fun o v h => h.1.2.offers listed
    rcases event_ends ends with ⟨_, _, offered⟩ | ⟨f, failed, _⟩
    · exact missing offered
    · rw [failed] at told
      cases told

end

/-- The life of a product. Whether it can be deleted, and what remains of it, is decided by the
orders that name it. What is archived is frozen for ever and keeps its code; what is removed
leaves it free; and a code can be taken exactly when it has no row. -/
theorem product_lifecycle {w : World} (reached : Reachable Command.Priced w) (code : String) :
    (∀ e : Event, e.disruptions.Quiet → e.command = .deleteProduct code → w.Deletes e code) ∧
    (∀ r, w.tables.product? code = some r → r.archived = true → ∀ es : List Event,
      (∀ e ∈ es, e.disruptions.Alone ∧ e.command.Priced) →
      (w.run es).tables.product? code = some r ∧ (w.run es).Withholds code) ∧
    (∀ (e : Event) name stock price, e.disruptions.Quiet →
      e.command = .createProduct code name stock price → 0 ≤ stock → stock < 2 ^ 63 →
      Desk.checkPrice price = .accepted price →
      (w.answer e = .error (.productAlreadyExists code) ↔ (w.tables.product? code).isSome)) ∧
    (w.tables.product? code = none → w.Frees code) := by
  have sound := reached.sound
  refine ⟨fun e quiet asked => sound.deletes reached.readable quiet asked, ?_, ?_,
    creation_granted⟩
  · intro r found archived es fits
    have later := reached.run fits
    obtain ⟨member, rfl⟩ := product_mem found
    have stays := archived_stays sound archived member fun e given => (fits e given).1
    have still := product_of_mem later.sound.codes stays
    exact ⟨still, withheld later.sound later.readable still archived⟩
  · intro e name stock price quiet asked least most checked
    refine ⟨fun told => ?_, fun taken => creation_refused least taken e quiet asked⟩
    cases found : w.tables.product? code with
    | some r => rfl
    | none =>
      rw [creation_granted found name stock price least most checked e quiet asked] at told
      cases told

def teaArchived : List Event :=
  teaEvents ++ [.quiet 2 (.cancelOrder "order-1"), .quiet 3 (.deleteProduct "tea")]

/-- The canceled order is why the tea is archived. Its code stays taken whatever is tried after
that, and the tea cannot be brought back under another price. -/
theorem archived_tea_keeps_code :
    (World.opening.run teaArchived).tables.products.map
        (fun r => (r.archived, r.stock, r.version)) = [(true, 5, 1)] ∧
      ∃ w, w = (World.opening.run teaArchived).run
          [.quiet 4 (.createProduct "tea" "Mint" 1 (.ofCents 90)),
            .quiet 5 (.createOrder [("tea", 1)])] ∧
        w.Withholds "tea" ∧
        w.answer (.quiet 6 (.updateProduct "tea" "Tea" (.ofCents 90) none)) =
          .error (.productNotFound "tea") := by
  have price : Desk.checkPrice (.ofCents 150) = .accepted (.ofCents 150) := by rfl
  have other : Desk.checkPrice (.ofCents 90) = .accepted (.ofCents 90) := by rfl
  have fits : ∀ e ∈ teaArchived, e.disruptions.Alone ∧ e.command.Priced := by
    refine List.forall_mem_append.mpr ⟨teaEvents_fit Command.Priced price trivial, ?_⟩
    simp [Event.quiet, quiet_nothing.alone, Command.Priced]
  have later : ∀ e ∈ [Event.quiet 4 (.createProduct "tea" "Mint" 1 (.ofCents 90)),
      .quiet 5 (.createOrder [("tea", 1)])], e.disruptions.Alone ∧ e.command.Priced := by
    simp [Event.quiet, quiet_nothing.alone, Command.Priced, other]
  have known : ((World.opening.run teaArchived).tables.product? "tea").any (·.archived) := by
    decide +kernel
  obtain ⟨r, found, archived⟩ := (Option.any_eq_true _ _).mp known
  have reached := (Reachable.start (w := World.opening) rfl).run fits
  have withheld := ((product_lifecycle reached "tea").2.1 r found archived _ later).2
  refine ⟨by decide +kernel, _, rfl, withheld, ?_⟩
  exact withheld.updated _ _ _ _ quiet_nothing rfl (surfaces_plain rfl (by decide))

end Stockroom
