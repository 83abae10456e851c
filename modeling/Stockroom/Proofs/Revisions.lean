import Stockroom.Proofs.Readable

namespace Stockroom

/-- A later state of a row: all but its stock is as before, or the version is larger. -/
def ProductRow.Revised (r r' : ProductRow) : Prop := r'.face = r.face ∨ r.version < r'.version

theorem ProductRow.Revised.version_le {r r' : ProductRow} (h : r.Revised r') :
    r.version ≤ r'.version := by
  rcases h with same | larger
  · exact Int.le_of_eq (congrArg (·.version) same).symm
  · exact Int.le_of_lt larger

theorem ProductRow.Revised.trans {r r' r'' : ProductRow} (first : r.Revised r')
    (second : r'.Revised r'') : r.Revised r'' := by
  have before := first.version_le
  rcases second with same | larger
  · have version : r''.version = r'.version := congrArg (·.version) same
    rcases first with same' | larger'
    · exact .inl (same.trans same')
    · exact .inr (by omega)
  · exact .inr (by omega)

theorem SameFaces.product {t t' : Tables} (h : SameFaces t t') {code : String} {r : ProductRow}
    (found : t.product? code = some r) :
    ∃ r', t'.product? code = some r' ∧ r'.face = r.face := by
  have faced (u : Tables) : (u.product? code).map (·.face) =
      (u.products.map (·.face)).find? (·.code = code) := by
    rw [List.find?_map]
    rfl
  have same := faced t'
  rw [h.products, ← faced t, found, Option.map_some] at same
  obtain ⟨r', known, face⟩ := Option.map_eq_some_iff.mp same
  exact ⟨r', known, face⟩

theorem revised_update {t : Tables} {code c : String} {f : ProductRow → ProductRow}
    {r : ProductRow} (found : t.product? c = some r) (codes : ∀ r, (f r).code = r.code)
    (revises : r.Revised (f r)) :
    ∃ r', (t.updateProduct code f).product? c = some r' ∧ r.Revised r' := by
  rw [product_update codes, found]
  refine ⟨_, rfl, ?_⟩
  dsimp only
  split
  · exact revises
  · exact .inl rfl

section

variable {ttl : Span} {times : List Moment} {t t' : Tables} {c : Change} {code : String}
  {r : ProductRow}

theorem Withdrawn.gone (h : Withdrawn t code .removed t') : t'.product? code = none := by
  cases h with
  | removed _ _ _ removed =>
    obtain ⟨_, rfl⟩ := removeProduct_ok removed
    simp [Tables.product?]

theorem Withdrawn.others {named : String} (sound : Sound t) (h : Withdrawn t named .removed t')
    (found : t.product? code = some r) (apart : code ≠ named) : t'.product? code = some r := by
  have later := sound.withdraw h
  cases h with
  | removed _ _ _ removed =>
    obtain ⟨_, rfl⟩ := removeProduct_ok removed
    obtain ⟨member, rfl⟩ := product_mem found
    exact product_of_mem later.codes (List.mem_filter.mpr ⟨member, by simpa using apart⟩)

theorem Withdrawn.revises {named : String} {deletion : Service.Deletion} (sound : Sound t)
    (h : Withdrawn t named deletion t') (found : t.product? code = some r) :
    (∃ r', t'.product? code = some r' ∧ r.Revised r') ∨
      named = code ∧ deletion = .removed := by
  cases deletion with
  | archived =>
    cases h with
    | archived _ _ _ =>
      refine .inl (revised_update found (fun _ => rfl) (.inr ?_))
      exact Int.lt_add_one_of_le (Int.le_refl _)
  | removed =>
    by_cases here : code = named
    · exact .inr ⟨here.symm, rfl⟩
    · exact .inl ⟨r, h.others sound found here, .inl rfl⟩

/-- Every change leaves the row of a product as it is but for its stock, or with a larger
version, unless it removes the row. -/
theorem Commit.revises (sound : Sound t) (h : Commit ttl times c t t')
    (found : t.product? code = some r) :
    (∃ r', t'.product? code = some r' ∧ r.Revised r') ∨ c = .withdraw code .removed := by
  cases h with
  | create inserted _ =>
    obtain ⟨_, _, _, _, rfl⟩ := insertProduct_ok inserted
    refine .inl ⟨r, ?_, .inl rfl⟩
    rw [Tables.product?] at found
    rw [Tables.product?, List.find?_append, found]
    rfl
  | describe described =>
    obtain ⟨_, _, _, _, _, _, swapped, _⟩ := Tables.redescribe_ok.mp described
    obtain ⟨_, _, rfl⟩ := swapCatalog_ok swapped
    refine .inl (revised_update found (fun r => ?_) ?_)
    · split <;> rfl
    · split
      · exact .inr (Int.lt_add_one_of_le (Int.le_refl _))
      · exact .inl rfl
  | correct corrected =>
    obtain ⟨_, _, _, _, stocked⟩ := restock_effect corrected
    obtain ⟨r', known, same⟩ := stocked.sameFaces.product found
    exact .inl ⟨r', known, .inl same⟩
  | withdraw withdrawn =>
    refine (withdrawn.revises sound found).imp_right ?_
    rintro ⟨rfl, rfl⟩
    rfl
  | place placed =>
    obtain ⟨u, reserved, inserted⟩ := placed.inserted
    obtain ⟨r', known, same⟩ := reserved.moved.faces.product found
    refine .inl ⟨r', ?_, .inl same⟩
    rw [Tables.product?, inserted.products]
    exact known
  | leave _ _ _ _ left =>
    obtain ⟨m, u, rfl, rest⟩ := left.moved
    rcases rest with ⟨_, rfl⟩ | ⟨_, released⟩
    · exact .inl ⟨r, found, .inl rfl⟩
    · obtain ⟨r', known, same⟩ := released.moved.faces.product found
      exact .inl ⟨r', known, .inl same⟩

theorem Command.Makes.withdraws {asked : Command} {done : Bool} {cs : List Change}
    (makes : asked.Makes done cs) :
    (∀ d ∈ cs, ∀ code deletion, d ≠ .withdraw code deletion) ∨
      ∃ code deletion, cs = [.withdraw code deletion] := by
  revert makes
  fun_cases Command.Makes asked done cs
  case case4 =>
    rintro ⟨deletion, rfl⟩
    exact .inr ⟨_, deletion, rfl⟩
  case case8 | case9 => rintro (rfl | ⟨id, rfl⟩) <;> simp
  case case10 => rintro (rfl | rfl) <;> simp
  case case1 | case2 | case3 | case12 =>
    rintro rfl
    simp
  all_goals
    rintro ⟨_, rfl⟩
    simp

end

/- Runs -/

section

variable {w : World} {code : String} {r : ProductRow}

theorem Sound.run (sound : Sound w.tables) {es : List Event}
    (alone : ∀ e ∈ es, e.disruptions.Alone) : Sound (w.run es).tables :=
  run_keeps alone (fun _ _ _ _ _ one before => before.commit one) sound

theorem event_revises (sound : Sound w.tables) {e : Event} (alone : e.disruptions.Alone)
    (found : w.tables.product? code = some r)
    (stays : ((w.after e).tables.product? code).isSome) :
    ∃ r', (w.after e).tables.product? code = some r' ∧ r.Revised r' := by
  obtain ⟨cs, makes, commits⟩ := event_makes w e alone
  rcases makes.withdraws with others | ⟨named, deletion, rfl⟩
  · have kept : Sound (w.after e).tables ∧
        ∃ r', (w.after e).tables.product? code = some r' ∧ r.Revised r' := by
      refine commits.keep (P := fun t => Sound t ∧ ∃ r', t.product? code = some r' ∧ r.Revised r')
        ?_ ⟨sound, r, found, .inl rfl⟩
      rintro d member t t' one ⟨before, r', known, revised⟩
      refine ⟨before.commit one, ?_⟩
      rcases one.revises before known with ⟨r'', known', revised'⟩ | removed
      · exact ⟨r'', known', revised.trans revised'⟩
      · exact absurd removed (others d member _ _)
    exact kept.2
  · have one := commits.one
    generalize (w.after e).tables = t at stays one
    cases one with
    | withdraw withdrawn =>
      rcases withdrawn.revises sound found with revised | ⟨rfl, rfl⟩
      · exact revised
      · rw [withdrawn.gone] at stays
        cases stays

/-- The product has a row after each of the events; it is never removed. -/
def World.HasThroughout (w : World) (es : List Event) (code : String) : Prop :=
  ∀ part, part <+: es → ((w.run part).tables.product? code).isSome

theorem run_revises {es : List Event} (sound : Sound w.tables)
    (alone : ∀ e ∈ es, e.disruptions.Alone) (found : w.tables.product? code = some r)
    (stays : w.HasThroughout es code) :
    ∃ r', (w.run es).tables.product? code = some r' ∧ r.Revised r' := by
  induction es generalizing w r with
  | nil => exact ⟨r, found, .inl rfl⟩
  | cons e es ih =>
    obtain ⟨first, rest⟩ := List.forall_mem_cons.mp alone
    obtain ⟨cs, _, commits⟩ := event_makes w e first
    have next : ((w.after e).tables.product? code).isSome :=
      stays [e] (List.cons_prefix_cons.mpr ⟨rfl, List.nil_prefix⟩)
    obtain ⟨r', known, revised⟩ := event_revises sound first found next
    obtain ⟨r'', known', revised'⟩ := ih (sound.commits commits) rest known fun part inside =>
      stays (e :: part) (List.cons_prefix_cons.mpr ⟨rfl, inside⟩)
    exact ⟨r'', known', revised.trans revised'⟩

theorem swapCatalog_won {name : String} {version : Int} {price : Decimal} {m : Moment}
    {v v' : World} (swapped : Service.swapCatalog code version name price m v = .ok true v') :
    ∃ r ∈ v.tables.products, r.code = code ∧ r.archived = false ∧ r.version = version := by
  obtain ⟨lost, u, taken, rest⟩ := Service.bind_ok.mp swapped
  have same : u.tables = v.tables := by
    cases taken
    rfl
  cases lost with
  | true => cases rest
  | false =>
    obtain ⟨_, u', turned, changed⟩ := Service.bind_ok.mp rest
    have same' : u'.tables = u.tables := by
      rw [Service.turn_ok (Service.turnWith_ok.mp turned).1]
      rfl
    unfold Service.change at changed
    split at changed
    · rename_i won t stored
      cases changed
      rw [same', same] at stored
      cases hit : v.tables.products.any fun r => r.isAt code version with
      | true => simpa [ProductRow.isAt, and_assoc] using hit
      | false => simp [Tables.swapCatalog, hit] at stored
    · cases changed

end

/-- For as long as a product is not removed, a swap that succeeds proves to its caller that the
product was not described anew, archived or deleted since its version was read. -/
theorem swap_detects_revisions {admits : Command → Prop} {w : World}
    (reached : Reachable admits w) {code : String} {r : ProductRow}
    (found : w.tables.product? code = some r) {es : List Event}
    (alone : ∀ e ∈ es, e.disruptions.Alone) (stays : w.HasThroughout es code)
    {v v' : World} (same : v.tables = (w.run es).tables) {name : String} {price : Decimal}
    {m : Moment} (swapped : Service.swapCatalog code r.version name price m v = .ok true v') :
    ∀ part, part <+: es → ∃ r', (w.run part).tables.product? code = some r' ∧
      r'.name = r.name ∧ r'.price = r.price ∧ r'.archived = r.archived ∧
      r'.version = r.version := by
  rintro part ⟨rest, rfl⟩
  obtain ⟨before, later⟩ := List.forall_mem_append.mp alone
  have sound := reached.sound.run before
  have split (more : List Event) : w.run (part ++ more) = (w.run part).run more :=
    List.foldl_append
  obtain ⟨r', known, first⟩ := run_revises reached.sound before found fun part inside =>
    stays part (inside.trans (List.prefix_append _ _))
  obtain ⟨r'', last, second⟩ := run_revises sound later known fun more inside => by
    rw [← split]
    exact stays _ ((List.prefix_append_right_inj part).mpr inside)
  have current : r''.version = r.version := by
    obtain ⟨row, member, named, _, version⟩ := swapCatalog_won swapped
    rw [same, split] at member
    have only := product_of_mem (sound.run later).codes member
    rw [named, last] at only
    cases only
    exact version
  have up := second.version_le
  rcases first with face | larger
  · refine ⟨r', known, ?_, ?_, ?_, ?_⟩
    · exact congrArg (·.name) face
    · exact congrArg (·.price) face
    · exact congrArg (·.archived) face
    · exact congrArg (·.version) face
  · omega

def World.teaOffered : World :=
  World.opening.run [.quiet 0 (.createProduct "tea" "Tea" 5 (.ofCents 150))]

theorem teaOffered_reached : Reachable Command.Priced World.teaOffered := by
  have price : Desk.checkPrice (.ofCents 150) = .accepted (.ofCents 150) := by rfl
  refine (Reachable.start rfl).run (List.forall_mem_singleton.mpr ?_)
  exact ⟨quiet_nothing.alone, price⟩

theorem ok_of_toBool {x : Service Bool} {w : World}
    (won : (match x w with | .ok b _ => b | .error _ _ => false) = true) :
    ∃ v, x w = .ok true v := by
  split at won
  · rename_i v run
    exact ⟨v, won ▸ run⟩
  · cases won

/-- An order moves the stock of the tea but not its version, so a swap still succeeds and tells
that the name is what it was. -/
theorem ordered_tea_is_unrevised :
    ∃ r v', World.teaOffered.tables.product? "tea" = some r ∧
      Service.swapCatalog "tea" r.version "Green tea" (.ofCents 160) (.minutes 2)
        (World.teaOffered.run [.quiet 1 (.createOrder [("tea", 2)])]) = .ok true v' ∧
      ∀ part, part <+: [.quiet 1 (.createOrder [("tea", 2)])] →
        ∃ r', (World.teaOffered.run part).tables.product? "tea" = some r' ∧ r'.name = r.name ∧
          r'.price = r.price ∧ r'.archived = r.archived ∧ r'.version = r.version := by
  have known : (World.teaOffered.tables.product? "tea").map (·.version) = some 0 := by
    decide +kernel
  obtain ⟨r, found, first⟩ := Option.map_eq_some_iff.mp known
  obtain ⟨v', swapped⟩ : ∃ v', Service.swapCatalog "tea" 0 "Green tea" (.ofCents 160) (.minutes 2)
      (World.teaOffered.run [.quiet 1 (.createOrder [("tea", 2)])]) = .ok true v' :=
    ok_of_toBool (by decide +kernel)
  have stays : World.teaOffered.HasThroughout [.quiet 1 (.createOrder [("tea", 2)])] "tea" := by
    have all : ∀ part ∈ [Event.quiet 1 (.createOrder [("tea", 2)])].inits,
        ((World.teaOffered.run part).tables.product? "tea").isSome := by
      decide +kernel
    exact fun part inside => all part ((List.mem_inits _ _).mpr inside)
  refine ⟨r, v', found, first ▸ swapped, ?_⟩
  exact swap_detects_revisions teaOffered_reached found
    (List.forall_mem_singleton.mpr quiet_nothing.alone) stays rfl (first ▸ swapped)

def teaReplaced : List Event :=
  [.quiet 1 (.deleteProduct "tea"), .quiet 2 (.createProduct "tea" "Mint" 7 (.ofCents 90))]

/-- A swap for the tea that was removed succeeds on the product that took its code. -/
theorem replaced_tea_is_overwritten :
    Reachable Command.Priced World.teaOffered ∧
      ∃ r r' v', World.teaOffered.tables.product? "tea" = some r ∧ r.archived = false ∧
      (∀ e ∈ teaReplaced, e.disruptions.Quiet ∧ e.command.Priced) ∧
      (World.teaOffered.run teaReplaced).tables.product? "tea" = some r' ∧
      Service.swapCatalog "tea" r.version "Green tea" (.ofCents 160) (.minutes 3)
        (World.teaOffered.run teaReplaced) = .ok true v' ∧
      r'.name ≠ r.name ∧ r'.price ≠ r.price := by
  have price : Desk.checkPrice (.ofCents 90) = .accepted (.ofCents 90) := by rfl
  have known : (World.teaOffered.tables.product? "tea").map
      (fun r => (r.version, r.archived, r.name, r.price)) =
        some (0, false, "Tea", (Amount.ofDecimal? (.ofCents 150)).getD .nan) := by
    decide +kernel
  have known' : ((World.teaOffered.run teaReplaced).tables.product? "tea").map
      (fun r => (r.name, r.price)) =
        some ("Mint", (Amount.ofDecimal? (.ofCents 90)).getD .nan) := by
    decide +kernel
  obtain ⟨v', swapped⟩ : ∃ v', Service.swapCatalog "tea" 0 "Green tea" (.ofCents 160) (.minutes 3)
      (World.teaOffered.run teaReplaced) = .ok true v' :=
    ok_of_toBool (by decide +kernel)
  obtain ⟨r, found, row⟩ := Option.map_eq_some_iff.mp known
  obtain ⟨r', found', row'⟩ := Option.map_eq_some_iff.mp known'
  simp only [Prod.mk.injEq] at row row'
  obtain ⟨version, offered, name, cost⟩ := row
  obtain ⟨name', cost'⟩ := row'
  refine ⟨teaOffered_reached, r, r', v', found, offered, ?_, found', version ▸ swapped, ?_, ?_⟩
  · simp [teaReplaced, Event.quiet, quiet_nothing, Command.Priced, price]
  · rw [name, name']
    decide
  · rw [cost, cost']
    decide +kernel

end Stockroom
