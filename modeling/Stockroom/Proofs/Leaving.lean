import Stockroom.Proofs.Orders

namespace Stockroom

/-- The row of an order that is named by its code, and the order it shows. -/
structure Named (t : Tables) (code : String) (r : OrderRow) (order : Order) : Prop where
  found : t.orderWithCode? code = some r
  read : t.readOrder r = .ok order

inductive Unleft (s : Settings.Attempts) (t : Tables) (clock : Moment) (exit : Service.Exit)
    (code : String) : Fault → Prop where
  | unknown : t.orderWithCode? code = none → Unleft s t clock exit code (.orderNotFound code)
  | unreadable {r : OrderRow} {f : Fault} : t.orderWithCode? code = some r →
      t.readOrder r = .error f → Unleft s t clock exit code f
  | unsettled {r : OrderRow} {order : Order} {f : Fault} : Named t code r order →
      Service.Unsettled s t clock exit order f → Unleft s t clock exit code f

namespace Service

variable {w : World} {s : Settings.Attempts}

theorem Exited.mono {times times' : List Moment} (sub : times ⊆ times') {t t' : Tables}
    {clock : Moment} {exit : Exit} {order : Order} {result : Bool × Order}
    (h : Exited times t clock exit order result t') :
    Exited times' t clock exit order result t' := by
  cases h with
  | expired due left => exact .expired due (left.mono sub)
  | settled early pending left => exact .settled early pending (left.mono sub)

theorem orderOf_meets (code : String) :
    (orderOf code).Meets w
      (fun order t => t = w.tables ∧ ∃ r, Named w.tables code r order)
      (fun f => (w.tables.orderWithCode? code = none ∧ f = .orderNotFound code) ∨
        ∃ r, w.tables.orderWithCode? code = some r ∧ w.tables.readOrder r = .error f) := by
  refine ((orderWithCode_meets code).mono (fun _ _ h => h) fun f h => .inr h).bind ?_
  rintro order v ⟨same, told⟩ _
  generalize found : w.tables.orderWithCode? code = row at told
  cases told with
  | none => exact meets_throw (.inl ⟨rfl, rfl⟩)
  | some read => exact meets_pure ⟨same, _, found, read⟩

theorem orderOf_keeps (code : String) : (orderOf code).Keeps := by
  refine (orderWithCode_keeps code).bind fun order => ?_
  split
  · exact keeps_throw _
  · exact keeps_pure _

theorem orderOf_ok {code : String} {order : Order} {v : World}
    (run : orderOf code w = .ok order v) :
    turn w = .ok () w.turned ∧ turn w.turned = .ok () v ∧ ∃ r, Named w.tables code r order := by
  obtain ⟨found, u, looked, rest⟩ := bind_ok.mp run
  cases found with
  | none => cases rest
  | some o =>
    cases rest
    obtain ⟨first, second, r, found, read⟩ := orderWithCode_ok looked
    exact ⟨first, second, r, found, read⟩

theorem orderOf_clock {code : String} {order : Order} {v : World}
    (run : orderOf code w = .ok order v) : v.clock = w.clock := by
  obtain ⟨_, second, _⟩ := orderOf_ok run
  cases turn_ok second
  rfl

theorem storedExit_meets (exit : Exit) (code : String) :
    (orderOf code >>= exitFrom s exit).Meets w
      (fun result t => ∃ r order, Named w.tables code r order ∧
        Exited w.times w.tables w.clock exit order result t)
      (Unleft s w.tables w.clock exit code) := by
  refine ((orderOf_meets code).mono (fun _ _ h => h) ?_).bind_run ?_
  · rintro f (⟨missing, rfl⟩ | ⟨r, found, hidden⟩)
    · exact .unknown missing
    · exact .unreadable found hidden
  rintro order v run ⟨same, r, named⟩ lead
  refine (exitFrom_meets exit order).mono ?_ ?_
  · intro result t exited
    rw [same, orderOf_clock run] at exited
    exact ⟨r, order, named, exited.mono lead.times⟩
  · intro f why
    rw [same, orderOf_clock run] at why
    exact .unsettled named why

/-- What an exit does by its end: it settles the order, or it fails and either expires the
order or does nothing. -/
theorem leavePending_ends (exit : Exit) (code : String) (alone : w.Alone) :
    (leavePending s exit code).Ends w
      (fun _ v => w.Leads v ∧ ∃ r order, Named w.tables code r order ∧
        order.isDue w.clock = false ∧ order.status = .pending ∧
        Left w.times w.tables order exit.target v.tables)
      (fun f v => w.Leads v ∧
        ((v.tables = w.tables ∧ (Unleft s w.tables w.clock exit code f ∨ w.Disturbs f)) ∨
          (f.kind = .orderExpired ∧ ∃ r order, Named w.tables code r order ∧
            order.isDue w.clock = true ∧ Left w.times w.tables order .expired v.tables))) := by
  have stored := (atomically_meets (storedExit_meets (s := s) (w := w) exit code)) alone
  refine ends_bind.mpr ((stored.and atomically_restores).mono ?_ ?_)
  · rintro ⟨expired, order⟩ v ⟨⟨⟨r, before, named, exited⟩, lead⟩, _⟩
    have dropped := dropSnapshots_passes (order.lines.map (·.productCode))
    cases exited with
    | expired due left =>
      refine dropped.before fun u same onward => ?_
      exact ⟨lead.trans onward, .inr ⟨rfl, r, _, named, due, same ▸ left⟩⟩
    | settled early pending left =>
      cases exit with
      | pay =>
        refine (note_passes _ _ _).before fun u same onward => ?_
        exact ⟨lead.trans onward, r, _, named, early, pending, same ▸ left⟩
      | cancel =>
        refine dropped.before fun u same onward => ?_
        refine (note_passes _ _ _).before fun u' same' onward' => ?_
        refine ⟨lead.trans (onward.trans onward'), r, _, named, early, pending, ?_⟩
        rw [same', same]
        exact left
  · rintro f v ⟨⟨why, lead⟩, kept⟩
    exact ⟨lead, .inl ⟨kept, why⟩⟩

/- Expiry -/

theorem expireDue_meets (order : Order) :
    (expireDue s order).Meets w
      (fun won t => (won = true ∧ order.isDue w.clock = true ∧
          Left w.times w.tables order .expired t) ∨
        (won = false ∧ t = w.tables ∧
          (order.isDue w.clock = false ∨ ¬Pending w.tables order.id)))
      (fun f => order.isDue w.clock = true ∧ Stalled s w.tables order .expired f) := by
  apply now_meets.bind
  rintro m v ⟨rfl, _, same⟩ lead
  apply meets_ite
  · intro early
    exact meets_pure (.inr ⟨rfl, same, .inl (by simpa using early)⟩)
  · intro late
    have due : order.isDue w.clock = true := by simpa using late
    refine (expireNow_meets order).mono ?_ ?_
    · rintro won t (⟨rfl, left⟩ | ⟨rfl, rfl, gone⟩)
      · exact .inl ⟨rfl, due, (same ▸ left).mono lead.times⟩
      · exact .inr ⟨rfl, same, .inr (same ▸ gone)⟩
    · exact fun f why => ⟨due, same ▸ why⟩

inductive Unexpired (s : Settings.Attempts) (t : Tables) (id : Int) : Fault → Prop where
  | unfit {f : Fault} : Unfit [id] f → Unexpired s t id f
  | unreadable {r : OrderRow} {f : Fault} : r ∈ t.ordersWithIds [id] →
      t.readOrder r = .error f → Unexpired s t id f
  | stalled {r : OrderRow} {order : Order} {f : Fault} : r ∈ t.ordersWithIds [id] →
      t.readOrder r = .ok order → Stalled s t order .expired f → Unexpired s t id f

inductive Expired (times : List Moment) (t : Tables) (id : Int) : Tables → Prop where
  | mk {r : OrderRow} {order : Order} {m : Moment} {t' : Tables} : r ∈ t.ordersWithIds [id] →
      t.readOrder r = .ok order → order.isDue m = true → Left times t order .expired t' →
      Expired times t id t'

theorem Expired.mono {times times' : List Moment} (sub : times ⊆ times') {t t' : Tables}
    {id : Int} (h : Expired times t id t') : Expired times' t id t' := by
  obtain ⟨member, read, due, left⟩ := h
  exact .mk member read due (left.mono sub)

/-- The order with an id is not pending, or not due at one of the times. -/
def Unripe (times : List Moment) (t : Tables) (id : Int) : Prop :=
  ∃ m ∈ times, ∀ r order, (t.ordersWithIds [id]).head? = some r → t.readOrder r = .ok order →
    order.isDue m = false ∨ ¬Pending t order.id

theorem expireIfDue_meets (id : Int) :
    (expireIfDue s id).Meets w
      (fun order t => (order.isSome ∧ Expired w.times w.tables id t) ∨
        (order = none ∧ t = w.tables ∧ Unripe w.times w.tables id))
      (Unexpired s w.tables id) := by
  refine ((orderWithId_meets id).mono (fun _ _ h => h) ?_).bind ?_
  · rintro f (unfit | ⟨r, member, hidden⟩)
    · exact .unfit unfit
    · exact .unreadable member hidden
  rintro order v ⟨same, told, _⟩ lead
  generalize found : (w.tables.ordersWithIds [id]).head? = row at told
  cases told with
  | none =>
    refine meets_pure (.inr ⟨rfl, same, w.now, List.mem_cons_self, fun r _ here => ?_⟩)
    rw [found] at here
    cases here
  | @some r order read =>
    have member : r ∈ w.tables.ordersWithIds [id] := List.mem_of_head? found
    refine ((expireDue_meets order).mono (fun _ _ h => h) ?_).bind ?_
    · rintro f ⟨_, why⟩
      exact .stalled member read (same ▸ why)
    rintro won u outcome _
    apply meets_ite
    · rintro rfl
      rcases outcome with ⟨_, due, left⟩ | ⟨lost, _⟩
      · exact meets_pure (.inl ⟨rfl, .mk member read due ((same ▸ left).mono lead.times)⟩)
      · cases lost
    · intro lost
      obtain rfl : won = false := by simpa using lost
      obtain ⟨_, kept, why⟩ := outcome.resolve_left (by simp)
      refine meets_pure (.inr ⟨rfl, kept.trans same, v.clock, lead.times v.clock_mem_times, ?_⟩)
      intro r' order' here read'
      rw [found] at here
      cases here
      cases read.symm.trans read'
      exact same ▸ why

theorem disruptExpiry_alone (id : Int) (alone : w.Alone) : disruptExpiry id w = .ok () w := by
  obtain ⟨_, no_expiries⟩ := alone
  obtain ⟨tables, snapshots, now, epoch, journal, waits, disruptions, codes⟩ := w
  obtain ⟨locked, statements, rowLocks, lostSwaps, unseen, steals, expiries, ticks⟩ := disruptions
  cases no_expiries
  rfl

theorem expireOrder_meets (id : Int) :
    (expireOrder s id).Meets w
      (fun won t => (won = true ∧ Expired w.times w.tables id t) ∨
        (won = false ∧ t = w.tables ∧ Unripe w.times w.tables id))
      (Unexpired s w.tables id) := by
  have idle : (disruptExpiry id).Meets w (fun _ t => t = w.tables) (Unexpired s w.tables id) := by
    intro alone
    rw [Ends, disruptExpiry_alone id alone]
    exact ⟨rfl, .refl w⟩
  apply idle.bind
  intro _ u kept lead
  rw [← kept]
  refine (atomically_meets (expireIfDue_meets id)).bind ?_
  rintro order v outcome _
  cases order with
  | none =>
    obtain ⟨_, same, m, shows, why⟩ := outcome.resolve_left (by simp)
    exact meets_pure (.inr ⟨rfl, same, m, lead.times shows, why⟩)
  | some order =>
    obtain ⟨_, expired⟩ := outcome.resolve_right (by simp)
    refine ((dropSnapshots_passes _).bind (passes_pure true)).meets.mono ?_ fun _ h => h
    rintro _ _ ⟨rfl, rfl⟩
    exact .inl ⟨rfl, expired.mono lead.times⟩

end Service
end Stockroom
