import Stockroom.Proofs.Leaving

/-! Two runs side by side.
Two steps are run from undisturbed states at one standing time, whose tables are related. They
end abreast when both succeed, with results and tables that are related again, or both fail with
the same fault. This is closed under sequence, and a step that undoes its writes when it fails
keeps the relation it began with, so attempts end abreast if one attempt does. -/
namespace Stockroom

open Service (fits64)

/-- Undisturbed states at one standing time, with tables that are related. -/
structure World.Beside (m : Moment) (related : Tables → Tables → Prop) (w v : World) : Prop where
  still : w.Still
  still' : v.Still
  now : w.now = m
  now' : v.now = m
  tables : related w.tables v.tables

def EndsBeside {α β : Type} (m : Moment) (good : α → β → Tables → Tables → Prop)
    (bad : Tables → Tables → Prop) :
    EStateM.Result Fault World α → EStateM.Result Fault World β → Prop
  | .ok a w, .ok b v => w.Beside m (good a b) v
  | .error f w, .error g v => f = g ∧ w.Beside m bad v
  | _, _ => False

inductive Agree {α β : Type} (related : α → β → Prop) :
    Except Fault α → Except Fault β → Prop where
  | ok {a : α} {b : β} : related a b → Agree related (.ok a) (.ok b)
  | error {f : Fault} : Agree related (.error f) (.error f)

section Agree

variable {α β γ δ : Type} {related : α → β → Prop} {e : Except Fault α} {e' : Except Fault β}

theorem Agree.bind {f : α → Except Fault γ} {g : β → Except Fault δ} {last : γ → δ → Prop}
    (first : Agree related e e') (second : ∀ a b, related a b → Agree last (f a) (g b)) :
    Agree last (e >>= f) (e' >>= g) := by
  cases first with
  | ok fits => exact second _ _ fits
  | error => exact .error

theorem Agree.mono {related' : α → β → Prop} (agree : Agree related e e')
    (weaker : ∀ a b, related a b → related' a b) : Agree related' e e' := by
  cases agree with
  | ok fits => exact .ok (weaker _ _ fits)
  | error => exact .error

theorem agree_self {related : α → α → Prop} (same : ∀ a, related a a) (e : Except Fault α) :
    Agree related e e := by
  cases e with
  | ok a => exact .ok (same a)
  | error f => exact .error

theorem Agree.eq {a b : Except Fault α} (agree : Agree Eq a b) : a = b := by
  cases agree with
  | ok same => rw [same]
  | error => rfl

theorem Agree.fault {f : Fault} (agree : Agree related e e') (failed : e = .error f) :
    e' = .error f := by
  rw [failed] at agree
  cases agree
  rfl

end Agree

theorem World.Beside.of_leads {m : Moment} {related related' : Tables → Tables → Prop}
    {w v w' v' : World} (h : w.Beside m related v) (left : w.Leads w') (right : v.Leads v')
    (tables : related' w'.tables v'.tables) : w'.Beside m related' v' :=
  ⟨left.still h.still, right.still h.still', (left.now h.still).trans h.now,
    (right.now h.still').trans h.now', tables⟩

namespace Service

variable {α β γ δ : Type} {m : Moment} {x : Service α} {y : Service β}
  {pre pre' bad bad' : Tables → Tables → Prop} {good good' : α → β → Tables → Tables → Prop}

/-- Steps that end abreast wherever the tables are related. -/
def Pairs (m : Moment) (pre : Tables → Tables → Prop) (x : Service α) (y : Service β)
    (good : α → β → Tables → Tables → Prop) (bad : Tables → Tables → Prop) : Prop :=
  ∀ w v : World, w.Beside m pre v → EndsBeside m good bad (x w) (y v)

/- Sequence -/

theorem Pairs.mono (h : Pairs m pre x y good bad) (onPre : ∀ t u, pre' t u → pre t u)
    (onGood : ∀ a b t u, good a b t u → good' a b t u) (onBad : ∀ t u, bad t u → bad' t u) :
    Pairs m pre' x y good' bad' := by
  intro w v beside
  have ends := h w v { beside with tables := onPre _ _ beside.tables }
  cases left : x w <;> cases right : y v <;> rw [left, right] at ends
  · exact { ends with tables := onGood _ _ _ _ ends.tables }
  · exact ends.elim
  · exact ends.elim
  · exact ⟨ends.1, { ends.2 with tables := onBad _ _ ends.2.tables }⟩

theorem Pairs.under (h : Pairs m pre x y good bad) (onPre : ∀ t u, pre' t u → pre t u) :
    Pairs m pre' x y good bad := h.mono onPre (fun _ _ _ _ h => h) fun _ _ h => h

theorem Pairs.giving (h : Pairs m pre x y good bad)
    (onGood : ∀ a b t u, good a b t u → good' a b t u) : Pairs m pre x y good' bad :=
  h.mono (fun _ _ h => h) onGood fun _ _ h => h

theorem Pairs.leaving (h : Pairs m pre x y good bad) (onBad : ∀ t u, bad t u → bad' t u) :
    Pairs m pre x y good bad' := h.mono (fun _ _ h => h) (fun _ _ _ _ h => h) onBad

theorem pairs_pure {a : α} {b : β} (h : ∀ t u, pre t u → good a b t u) :
    Pairs m pre (pure a) (pure b) good bad := fun _ _ beside =>
  { beside with tables := h _ _ beside.tables }

theorem pairs_throw {f : Fault} (h : ∀ t u, pre t u → bad t u) :
    Pairs m pre (throw f : Service α) (throw f : Service β) good bad := fun _ _ beside =>
  ⟨rfl, { beside with tables := h _ _ beside.tables }⟩

theorem pairs_given {P : Prop} (known : ∀ t u, pre t u → P)
    (h : P → Pairs m pre x y good bad) : Pairs m pre x y good bad := fun w v beside =>
  h (known _ _ beside.tables) w v beside

theorem Pairs.bind {f : α → Service γ} {g : β → Service δ}
    {last : γ → δ → Tables → Tables → Prop} (first : Pairs m pre x y good bad)
    (second : ∀ a b, Pairs m (good a b) (f a) (g b) last bad) :
    Pairs m pre (x >>= f) (y >>= g) last bad := by
  intro w v beside
  have ends := first w v beside
  simp only [Bind.bind, EStateM.bind]
  cases left : x w <;> cases right : y v <;> rw [left, right] at ends
  · exact second _ _ _ _ ends
  · exact ends.elim
  · exact ends.elim
  · exact ends

theorem Pairs.bind_same {z z' : Service α} {f : α → Service γ} {g : α → Service δ}
    {mid : α → Tables → Tables → Prop} {last : γ → δ → Tables → Tables → Prop}
    (first : Pairs m pre z z' (fun a b t u => a = b ∧ mid a t u) bad)
    (second : ∀ a, Pairs m (mid a) (f a) (g a) last bad) :
    Pairs m pre (z >>= f) (z' >>= g) last bad := by
  refine first.bind fun a b => pairs_given (P := a = b) (fun _ _ h => h.1) ?_
  rintro rfl
  exact (second a).under fun _ _ h => h.2

theorem Pairs.map {f : α → γ} {g : β → δ} {last : γ → δ → Tables → Tables → Prop}
    (h : Pairs m pre x y (fun a b => last (f a) (g b)) bad) :
    Pairs m pre (f <$> x) (g <$> y) last bad := by
  rw [map_eq_pure_bind, map_eq_pure_bind]
  exact h.bind fun a b => pairs_pure fun _ _ h => h

theorem pairs_guard {c : Prop} [Decidable c] {f : Fault} {rest : Unit → Service α}
    {rest' : Unit → Service β} (thrown : ∀ t u, pre t u → bad t u)
    (passed : ¬c → Pairs m pre (rest ()) (rest' ()) good bad) :
    Pairs m pre (if c then (throw f >>= rest) else rest ())
      (if c then (throw f >>= rest') else rest' ()) good bad := by
  split
  · exact fun w v beside => ⟨rfl, { beside with tables := thrown _ _ beside.tables }⟩
  · rename_i h
    exact passed h

/- Single steps -/

theorem Passes.pairs {a : α} {b : β} (left : x.Passes a) (right : y.Passes b) :
    Pairs m pre x y (fun a' b' t u => (a' = a ∧ b' = b) ∧ pre t u) bad := by
  intro w v beside
  obtain ⟨w', run, same, lead⟩ := left w
  obtain ⟨v', run', same', lead'⟩ := right v
  rw [run, run']
  refine beside.of_leads lead lead' ⟨⟨rfl, rfl⟩, ?_⟩
  rw [same, same']
  exact beside.tables

theorem Passes.pairs_self {a : α} (h : x.Passes a) :
    Pairs m pre x x (fun b b' t u => b = b' ∧ pre t u) bad :=
  (h.pairs h).giving fun _ _ _ _ h => ⟨h.1.1.trans h.1.2.symm, h.2⟩

theorem Pairs.followed {f : α → Service γ} {g : β → Service δ} {c : α → γ} {d : β → δ}
    {last : γ → δ → Tables → Tables → Prop}
    (h : Pairs m pre x y (fun a b => last (c a) (d b)) bad) (left : ∀ a, (f a).Passes (c a))
    (right : ∀ b, (g b).Passes (d b)) : Pairs m pre (x >>= f) (y >>= g) last bad := by
  refine h.bind fun a b => ((left a).pairs (right b)).giving ?_
  rintro _ _ t u ⟨⟨rfl, rfl⟩, fits⟩
  exact fits

/-- Steps whose ends are functions of the tables end abreast where the functions agree. -/
theorem pairs_of_agree {F : Tables → Except Fault (α × Tables)}
    {G : Tables → Except Fault (β × Tables)}
    (left : ∀ w v : World, w.Beside m pre v →
      x.Meets w (fun a t => F w.tables = .ok (a, t)) (fun f => F w.tables = .error f))
    (right : ∀ w v : World, w.Beside m pre v →
      y.Meets v (fun b t => G v.tables = .ok (b, t)) (fun f => G v.tables = .error f))
    (agree : ∀ t u, pre t u → Agree (fun r r' => good r.1 r'.1 r.2 r'.2) (F t) (G u)) :
    Pairs m pre x y good fun _ _ => True := by
  intro w v beside
  have ends := left w v beside beside.still.1.alone
  have ends' := right w v beside beside.still'.1.alone
  have both := agree _ _ beside.tables
  unfold Ends at ends ends'
  cases first : x w <;> cases second : y v <;> rw [first] at ends <;> rw [second] at ends'
  · rw [ends.1, ends'.1] at both
    cases both with
    | ok fits => exact beside.of_leads ends.2 ends'.2 fits
  · have account := ends'.1.resolve_right fun noisy => noisy.1 beside.still'.1
    rw [ends.1, account] at both
    cases both
  · have account := ends.1.resolve_right fun noisy => noisy.1 beside.still.1
    rw [account, ends'.1] at both
    cases both
  · have account := ends.1.resolve_right fun noisy => noisy.1 beside.still.1
    have account' := ends'.1.resolve_right fun noisy => noisy.1 beside.still'.1
    rw [account, account'] at both
    cases both
    exact ⟨rfl, beside.of_leads ends.2 ends'.2 trivial⟩

theorem Pairs.after_now {f : Moment → Service α} {g : Moment → Service β}
    (rest : Pairs m pre (f m) (g m) good bad) :
    Pairs m pre (now >>= f) (now >>= g) good bad := by
  intro w v beside
  rw [bind_of_run (now_idle beside.still.2), bind_of_run (now_idle beside.still'.2), beside.now,
    beside.now']
  exact rest w v beside

theorem turn_pairs : Pairs m pre turn turn (fun _ _ => pre) bad := by
  have passes (w : World) (still : w.Still) :
      ∃ w', turn w = .ok () w' ∧ w'.tables = w.tables ∧ w.Leads w' := by
    have met : turn.Meets w (fun _ t => t = w.tables) (fun _ => False) := turn_meets
    have ends := met still.1.alone
    unfold Ends at ends
    cases run : turn w with
    | ok _ w' =>
      rw [run] at ends
      exact ⟨w', rfl, ends⟩
    | error f w' =>
      rw [run] at ends
      exact absurd still.1 (ends.1.resolve_left id).1
  intro w v beside
  obtain ⟨w', run, same, lead⟩ := passes w beside.still
  obtain ⟨v', run', same', lead'⟩ := passes v beside.still'
  rw [run, run']
  refine beside.of_leads lead lead' ?_
  rw [same, same']
  exact beside.tables

theorem turnWith_pairs (numbers : List Int) :
    Pairs m pre (turnWith numbers) (turnWith numbers) (fun _ _ => pre) pre := by
  refine turn_pairs.bind fun _ _ => ?_
  split
  · exact pairs_throw fun _ _ h => h
  · exact pairs_pure fun _ _ h => h

theorem query_pairs {numbers : List Int} {read : Tables → α}
    (same : ∀ t u, pre t u → read t = read u) :
    Pairs m pre (query numbers read) (query numbers read)
      (fun a b t u => a = b ∧ pre t u ∧ a = read t) pre :=
  (turnWith_pairs numbers).bind fun _ _ _ _ beside =>
    { beside with tables := ⟨same _ _ beside.tables, beside.tables, rfl⟩ }

/- Steps as a whole -/

def result (x : Service α) (w : World) : Except Fault α :=
  match x w with
  | .ok a _ => .ok a
  | .error f _ => .error f

def final (x : Service α) (w : World) : World :=
  match x w with
  | .ok _ v => v
  | .error _ v => v

theorem outcome_eq (x : Service α) (w : World) :
    outcome x w = .ok (result x w) (final x w) := by
  unfold outcome result final
  cases x w <;> rfl

theorem Pairs.ended {related : α → β → Prop} {post : Tables → Tables → Prop} {w v : World}
    (h : Pairs m pre x y (fun a b t u => related a b ∧ post t u) bad)
    (failed : ∀ t u, bad t u → post t u) (beside : w.Beside m pre v) :
    Agree related (result x w) (result y v) ∧ post (final x w).tables (final y v).tables := by
  have ends := h w v beside
  unfold result final
  cases left : x w <;> cases right : y v <;> rw [left, right] at ends
  · exact ⟨.ok ends.tables.1, ends.tables.2⟩
  · exact ends.elim
  · exact ends.elim
  · obtain ⟨rfl, after⟩ := ends
    exact ⟨.error, failed _ _ after.tables⟩

theorem Pairs.mapFault {g : Fault → Fault} (h : Pairs m pre x y good bad) :
    Pairs m pre (mapFault g x) (mapFault g y) good bad := by
  intro w v beside
  have ends := h w v beside
  unfold Service.mapFault
  cases left : x w <;> cases right : y v <;> rw [left, right] at ends
  · exact ends
  · exact ends.elim
  · exact ends.elim
  · exact ⟨congrArg g ends.1, ends.2⟩

theorem Pairs.noting {writer : Journal.Writer} {text : Fault → String}
    (h : Pairs m pre x y good bad) :
    Pairs m pre (noting writer text x) (noting writer text y) good bad := by
  intro w v beside
  have ends := h w v beside
  unfold Service.noting outcome
  simp only [Bind.bind, EStateM.bind]
  cases left : x w <;> cases right : y v <;> rw [left, right] at ends
  · exact ends
  · exact ends.elim
  · exact ends.elim
  · exact ⟨ends.1, ends.2.of_leads (.of_eq rfl rfl (Nat.le_refl _))
      (.of_eq rfl rfl (Nat.le_refl _)) ends.2.tables⟩

theorem Pairs.atomically (h : Pairs m pre x y good bad) :
    Pairs m pre (atomically x) (atomically y) good pre := by
  have closed : Pairs m pre (closing x) (closing y) good fun _ _ => True := by
    refine (h.leaving fun _ _ _ => trivial).bind fun a b => ?_
    exact turn_pairs.bind fun _ _ => pairs_pure fun _ _ h => h
  intro w v beside
  have ends := closed w v beside
  unfold Service.atomically
  cases left : closing x w <;> cases right : closing y v <;> rw [left, right] at ends
  · exact ends
  · exact ends.elim
  · exact ends.elim
  · obtain ⟨same, after⟩ := ends
    exact ⟨same, after.still, after.still', after.now, after.now', beside.tables⟩

theorem Pairs.nested (h : Pairs m pre x y good bad) :
    Pairs m pre (nested x) (nested y) good pre :=
  turn_pairs.bind fun _ _ => h.atomically

theorem Pairs.continueFrom {s : Settings.Attempts} (h : Pairs m pre x y good pre)
    (further n : Nat) :
    Pairs m pre (Attempts.continueFrom s (paused s) x further n)
      (Attempts.continueFrom s (paused s) y further n) good pre := by
  induction further using Nat.strongRecOn generalizing n with
  | ind further ih =>
    intro w v beside
    have first := h w v beside
    rw [Attempts.continueFrom.eq_def, Attempts.continueFrom.eq_def]
    cases left : x w <;> cases right : y v <;> rw [left, right] at first
    · simpa only [left, right] using first
    · exact first.elim
    · exact first.elim
    · obtain ⟨rfl, after⟩ := first
      simp only [left, right]
      split
      · split
        · exact ⟨rfl, after⟩
        · exact ⟨rfl, after⟩
        · rename_i more wait
          refine ih more (Nat.lt_succ_self more) (n + 1) _ _ ?_
          exact after.of_leads (.of_eq rfl rfl (Nat.le_refl _)) (.of_eq rfl rfl (Nat.le_refl _))
            after.tables
      · exact ⟨rfl, after⟩

theorem Pairs.retrying {s : Settings.Attempts} (h : Pairs m pre x y good pre) :
    Pairs m pre (retrying s x) (retrying s y) good pre :=
  h.continueFrom _ _

/-- The same step for every item, as long as each keeps what the items after it rely on. -/
theorem pairs_forM {f g : α → Service Unit} {inv : List α → Tables → Tables → Prop}
    (each : ∀ a rest, Pairs m (inv (a :: rest)) (f a) (g a) (fun _ _ => inv rest) bad)
    (items : List α) :
    Pairs m (inv items) (items.forM f) (items.forM g) (fun _ _ => inv []) bad := by
  induction items with
  | nil => exact pairs_pure fun _ _ h => h
  | cons a rest ih => exact (each a rest).bind fun _ _ => ih

/- Writes of products -/

end Service

section Writes

variable {t u : Tables} {code : String} {m m' : Moment} {f : Fault}
  {good : Product × Tables → Product × Tables → Prop}

theorem active_known {r : ProductRow} (found : t.activeProduct? code = some r) :
    (t.product? code).isSome := by
  obtain ⟨member, named, _⟩ := activeProduct_mem found
  rw [Tables.product?, List.find?_isSome]
  exact ⟨r, member, by simpa using named⟩

structure Restocks (good : Product × Tables → Product × Tables → Prop) (code : String)
    (m m' : Moment) (t u : Tables) (p q : Product) (n n' : Int) : Prop where
  fits : fits64 n = fits64 n'
  negative : n < 0 ↔ n' < 0
  written : good
    ({ p with stock := n },
      t.updateProduct code fun r => { r with stock := n, updatedAt := some m })
    ({ q with stock := n' },
      u.updateProduct code fun r => { r with stock := n', updatedAt := some m' })

theorem restock_agree {compute compute' : Product → Except Fault Int}
    (missing : t.activeProduct? code = none ↔ u.activeProduct? code = none)
    (found : ∀ r r', t.activeProduct? code = some r → u.activeProduct? code = some r' →
      Agree (fun p q => Agree (Restocks good code m m' t u p q) (compute p) (compute' q))
        r.toProduct r'.toProduct) :
    Agree good (t.restock code compute m) (u.restock code compute' m') := by
  unfold Tables.restock
  cases left : t.activeProduct? code with
  | none =>
    rw [missing.mp left]
    exact .error
  | some r =>
    cases right : u.activeProduct? code with
    | none =>
      rw [missing.mpr right] at left
      cases left
    | some r' =>
      refine (found r r' left right).bind fun p q computed => computed.bind fun n n' stocks => ?_
      simp only [stocks.fits, Tables.setStock, active_known left, active_known right,
        stocks.negative]
      split
      · split
        · exact .error
        · exact .ok stocks.written
      · exact .error

structure Redescribes (good : Product × Tables → Product × Tables → Prop) (code name : String)
    (price : Decimal) (m m' : Moment) (t u : Tables) (p q : Product) : Prop where
  archived : p.archived = q.archived
  version : p.version = q.version
  current : t.products.any (·.isAt code p.version) = u.products.any (·.isAt code p.version)
  written : ∀ amount, Amount.ofDecimal? price = some amount →
    good
      ({ p with name, price, version := p.version + 1 },
        t.updateProduct code fun r => if r.isAt code p.version then
          { r with name, price := amount, version := r.version + 1, updatedAt := some m } else r)
      ({ q with name, price, version := q.version + 1 },
        u.updateProduct code fun r => if r.isAt code q.version then
          { r with name, price := amount, version := r.version + 1, updatedAt := some m' } else r)

theorem redescribe_agree {name : String} {price : Decimal}
    (missing : t.product? code = none ↔ u.product? code = none)
    (found : ∀ r r', t.product? code = some r → u.product? code = some r' →
      Agree (Redescribes good code name price m m' t u) r.toProduct r'.toProduct) :
    Agree good (t.redescribe code name price m) (u.redescribe code name price m') := by
  unfold Tables.redescribe
  cases left : t.product? code with
  | none =>
    rw [missing.mp left]
    exact .error
  | some r =>
    cases right : u.product? code with
    | none =>
      rw [missing.mpr right] at left
      cases left
    | some r' =>
      refine (found r r' left right).bind ?_
      rintro ⟨_, _, _, _, archived, version⟩ ⟨_, _, _, _, _, _⟩ ⟨rfl, rfl, current, written⟩
      simp only [Tables.swapCatalog] at current ⊢
      rw [current]
      split
      · exact .error
      split
      · split
        · cases stored : Amount.ofDecimal? price with
          | none => exact .error
          | some amount => exact .ok (written amount stored)
        · exact .error
      · exact .error

theorem restock_error_at {compute : Product → Except Fault Int}
    (failed : t.restock code compute m' = .error f) : t.restock code compute m = .error f := by
  have agree : Agree (fun _ _ => True) (t.restock code compute m') (t.restock code compute m) := by
    refine restock_agree Iff.rfl fun r r' found found' => ?_
    cases found.symm.trans found'
    refine agree_self (fun p => ?_) _
    exact agree_self (fun n => ⟨rfl, Iff.rfl, trivial⟩) _
  exact agree.fault failed

theorem redescribe_error_at {name : String} {price : Decimal}
    (failed : t.redescribe code name price m' = .error f) :
    t.redescribe code name price m = .error f := by
  have agree : Agree (fun _ _ => True) (t.redescribe code name price m')
      (t.redescribe code name price m) := by
    refine redescribe_agree Iff.rfl fun r r' found found' => ?_
    cases found.symm.trans found'
    exact agree_self (fun p => ⟨rfl, rfl, rfl, fun _ _ => trivial⟩) _
  exact agree.fault failed

end Writes

namespace Service

variable {m : Moment} {s : Settings.Attempts} {code : String} {pre : Tables → Tables → Prop}
  {good : Product → Product → Tables → Tables → Prop}

theorem writeLocked_still {w : World} {compute : Product → Except Fault Int} (still : w.Still)
    (shown : w.now = m) :
    (writeLocked code compute).Meets w (fun p t => w.tables.restock code compute m = .ok (p, t))
      (fun f => w.tables.restock code compute m = .error f) := by
  refine (writeLocked_meets code compute).mono ?_ ?_
  · rintro p t ⟨m', member, written⟩
    rw [still.times, List.mem_singleton, shown] at member
    exact member ▸ written
  · rintro f ⟨m', failed⟩
    exact restock_error_at failed

theorem writeDescription_still {w : World} {name : String} {price : Decimal} (still : w.Still)
    (shown : w.now = m) :
    (writeDescription code name price).Meets w
      (fun p t => w.tables.redescribe code name price m = .ok (p, t))
      (fun f => w.tables.redescribe code name price m = .error f) := by
  refine (writeDescription_meets code name price).mono ?_ ?_
  · rintro p t ⟨m', member, written⟩
    rw [still.times, List.mem_singleton, shown] at member
    exact member ▸ written
  · rintro f ⟨m', failed⟩
    exact redescribe_error_at failed

theorem mutateStock_pairs {compute compute' : Product → Except Fault Int}
    (agree : ∀ t u, pre t u → Agree (fun r r' => good r.1 r'.1 r.2 r'.2)
      (t.restock code compute m) (u.restock code compute' m)) :
    Pairs m pre (mutateStock s code compute) (mutateStock s code compute') good pre := by
  have attempt : Pairs m pre (stockAttempt code compute) (stockAttempt code compute') good pre :=
    (pairs_of_agree (fun _ _ beside => writeLocked_still beside.still beside.now)
      (fun _ _ beside => writeLocked_still beside.still' beside.now') agree).nested.mapFault
  exact attempt.retrying.followed (fun p => (dropSnapshot_passes code).bind (passes_pure p))
    fun p => (dropSnapshot_passes code).bind (passes_pure p)

theorem release_pairs {quantity : Int} {after : Tables → Tables → Prop}
    (agree : 0 < quantity → ∀ t u, pre t u → Agree (fun r r' => after r.2 r'.2)
      (t.restock code (putting quantity) m) (u.restock code (putting quantity) m)) :
    Pairs m pre (release s code quantity) (release s code quantity) (fun _ _ => after) pre := by
  unfold release
  refine pairs_guard (fun _ _ h => h) fun positive => ?_
  have written : Pairs m pre (mutateStock s code (putting quantity))
      (mutateStock s code (putting quantity)) (fun _ _ => after) pre :=
    mutateStock_pairs (agree (Int.not_le.mp positive))
  exact written.followed (fun _ => note_passes _ _ _) fun _ => note_passes _ _ _

end Service
end Stockroom
