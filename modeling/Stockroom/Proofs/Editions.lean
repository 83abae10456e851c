import Stockroom.Proofs.Revisions

namespace Stockroom

/-- The version of a row without the step of its archiving. -/
def ProductRow.editions (r : ProductRow) : Int := r.version - if r.archived then 1 else 0

theorem editions_face {r r' : ProductRow} (same : r'.face = r.face) :
    r'.editions = r.editions := by
  have version : r'.version = r.version := congrArg (·.version) same
  have archived : r'.archived = r.archived := congrArg (·.archived) same
  unfold ProductRow.editions
  rw [version, archived]

def Change.describes (code : String) : Change → Bool
  | .describe named _ => named = code
  | _ => false

def Command.describes (code : String) : Command → Bool
  | .updateProduct named _ _ _ => named = code
  | _ => false

theorem Command.Makes.countP_describes {c : Command} {done : Bool} {cs : List Change}
    (makes : c.Makes done cs) (code : String) :
    cs.countP (·.describes code) = if c.describes code && done then 1 else 0 := by
  have leaves (ids : List Int) (target : OrderStatus) :
      (ids.map (Change.leave · target)).countP (·.describes code) = 0 := by
    rw [List.countP_eq_zero]
    intro d member
    obtain ⟨id, _, rfl⟩ := List.mem_map.mp member
    exact Bool.false_ne_true
  revert makes
  fun_cases Command.Makes c done cs
  case case2 | case3 =>
    rintro rfl
    simp [Change.describes, Command.describes, List.countP_cons]
  case case8 | case9 =>
    rintro (rfl | ⟨id, rfl⟩) <;> rfl
  case case10 =>
    rintro (rfl | rfl) <;> rfl
  case case11 =>
    rintro ⟨ids, rfl⟩
    exact leaves ids .expired
  case case1 =>
    rintro rfl
    rfl
  case case12 _ _ plain stocked _ _ _ _ _ _ _ =>
    rintro rfl
    cases c with
    | updateProduct _ _ _ stock =>
      cases done with
      | false => simp
      | true =>
        cases stock with
        | none => exact (plain _ _ _ rfl rfl).elim
        | some _ => exact (stocked _ _ _ _ rfl rfl).elim
    | _ => rfl
  all_goals
    rintro ⟨_, rfl⟩
    rfl

section

variable {ttl : Span} {times : List Moment} {t t' : Tables} {c : Change} {code : String}
  {r : ProductRow}

theorem editions_update {named : String} {f : ProductRow → ProductRow} {n : Int}
    (found : t.product? code = some r) (codes : ∀ r, (f r).code = r.code)
    (here : named = code → (f r).editions = r.editions + n) (other : named ≠ code → n = 0) :
    ∃ r', (t.updateProduct named f).product? code = some r' ∧ r'.editions = r.editions + n := by
  obtain ⟨_, rfl⟩ := product_mem found
  refine ⟨_, by rw [product_update codes, found]; rfl, ?_⟩
  dsimp only
  split
  · rename_i same
    exact here same.symm
  · rename_i apart
    rw [other fun same => apart same.symm, Int.add_zero]

theorem Commit.editions (sound : Sound t) (h : Commit ttl times c t t')
    (found : t.product? code = some r) (stays : (t'.product? code).isSome) :
    ∃ r', t'.product? code = some r' ∧
      r'.editions = r.editions + if c.describes code then 1 else 0 := by
  have faces {u u' : Tables} (same : SameFaces u u') (found : u.product? code = some r) :
      ∃ r', u'.product? code = some r' ∧ r'.editions = r.editions + 0 := by
    obtain ⟨r', known, face⟩ := same.product found
    exact ⟨r', known, by rw [editions_face face, Int.add_zero]⟩
  cases h with
  | create inserted _ =>
    obtain ⟨_, _, _, _, rfl⟩ := insertProduct_ok inserted
    refine ⟨r, ?_, (Int.add_zero _).symm⟩
    rw [Tables.product?] at found
    rw [Tables.product?, List.find?_append, found]
    rfl
  | @describe _ _ named name price m p described =>
    obtain ⟨row, q, known, shown, offered, _, swapped, _⟩ := Tables.redescribe_ok.mp described
    obtain ⟨_, rfl⟩ := toProduct_ok shown
    replace offered : row.archived = false := offered
    obtain ⟨amount, _, rfl⟩ := swapCatalog_ok swapped
    refine editions_update found (fun r => ?_) ?_ ?_
    · split <;> rfl
    · rintro rfl
      cases found.symm.trans known
      have current : r.isAt named r.version = true := by
        simp [ProductRow.isAt, (product_mem known).2, offered]
      rw [if_pos current]
      simp [ProductRow.editions, Change.describes, offered]
    · intro apart
      simp [Change.describes, apart]
  | correct corrected =>
    obtain ⟨_, _, _, _, stocked⟩ := restock_effect corrected
    exact faces stocked.sameFaces found
  | @withdraw _ _ named deletion withdrawn =>
    cases withdrawn with
    | @archived row m active _ _ =>
      refine editions_update found (fun _ => rfl) ?_ fun _ => rfl
      rintro rfl
      obtain ⟨member, own, offered⟩ := activeProduct_mem active
      have only := product_of_mem sound.codes member
      rw [own, found] at only
      cases only
      simp [ProductRow.editions, offered, Change.describes]
    | removed active free unfinished removed =>
      have withdrawn := Withdrawn.removed active free unfinished removed
      by_cases here : code = named
      · subst here
        rw [withdrawn.gone] at stays
        cases stays
      · exact ⟨r, withdrawn.others sound found here, (Int.add_zero _).symm⟩
  | place placed =>
    obtain ⟨u, reserved, inserted⟩ := placed.inserted
    obtain ⟨r', known, same⟩ := faces reserved.moved.faces found
    refine ⟨r', ?_, same⟩
    rw [Tables.product?, inserted.products]
    exact known
  | leave _ _ _ _ left =>
    obtain ⟨m, u, rfl, rest⟩ := left.moved
    rcases rest with ⟨_, rfl⟩ | ⟨_, released⟩
    · exact ⟨r, found, (Int.add_zero _).symm⟩
    · exact faces released.moved.faces found

theorem Commit.creates (h : Commit ttl times c t t') (missing : t.product? code = none)
    (found : t'.product? code = some r) :
    (∃ price, c = .create code price) ∧ r.archived = false ∧ r.version = 0 := by
  have updated {named : String} {f : ProductRow → ProductRow}
      (found : (t.updateProduct named f).product? code = some r)
      (codes : ∀ r, (f r).code = r.code) : False := by
    rw [product_update codes, missing] at found
    cases found
  have faces {u u' : Tables} (same : SameFaces u u') (missing : u.product? code = none)
      (found : u'.product? code = some r) : False := by
    obtain ⟨_, known, _⟩ := same.symm.product found
    rw [missing] at known
    cases known
  cases h with
  | @create _ _ named name stock price inserted _ =>
    obtain ⟨_, _, _, _, rfl⟩ := insertProduct_ok inserted
    rw [Tables.product?] at missing
    rw [Tables.product?, List.find?_append, missing, Option.none_or, List.find?_singleton] at found
    split at found
    · rename_i own
      cases found
      obtain rfl : named = code := by simpa using own
      exact ⟨⟨price, rfl⟩, rfl, rfl⟩
    · cases found
  | describe described =>
    obtain ⟨_, _, _, _, _, _, swapped, _⟩ := Tables.redescribe_ok.mp described
    obtain ⟨_, _, rfl⟩ := swapCatalog_ok swapped
    refine (updated found fun r => ?_).elim
    split <;> rfl
  | correct corrected =>
    obtain ⟨_, _, _, _, stocked⟩ := restock_effect corrected
    exact (faces stocked.sameFaces missing found).elim
  | withdraw withdrawn =>
    cases withdrawn with
    | archived _ _ _ => exact (updated found fun _ => rfl).elim
    | removed _ _ _ removed =>
      obtain ⟨_, rfl⟩ := removeProduct_ok removed
      obtain ⟨member, rfl⟩ := product_mem found
      have unmatched := List.find?_eq_none.mp missing r (List.mem_of_mem_filter member)
      simp at unmatched
  | place placed =>
    obtain ⟨u, reserved, inserted⟩ := placed.inserted
    refine (faces reserved.moved.faces missing ?_).elim
    rw [Tables.product?, ← inserted.products]
    exact found
  | leave _ _ _ _ left =>
    obtain ⟨m, u, rfl, rest⟩ := left.moved
    rcases rest with ⟨_, rfl⟩ | ⟨_, released⟩
    · cases missing.symm.trans found
    · exact (faces released.moved.faces missing found).elim

theorem Command.Makes.creates {asked : Command} {done : Bool} {cs : List Change}
    (makes : asked.Makes done cs) :
    (∀ d ∈ cs, ∀ code price, d ≠ .create code price) ∨
      ∃ code name stock price, asked = .createProduct code name stock price ∧ done = true ∧
        cs = [.create code price] := by
  revert makes
  fun_cases Command.Makes asked done cs
  case case1 =>
    rintro rfl
    exact .inr ⟨_, _, _, _, rfl, rfl, rfl⟩
  case case8 | case9 => rintro (rfl | ⟨id, rfl⟩) <;> simp
  case case10 => rintro (rfl | rfl) <;> simp
  case case2 | case3 | case12 =>
    rintro rfl
    simp
  all_goals
    rintro ⟨_, rfl⟩
    simp

end

/- Runs -/

section

variable {w : World} {code : String} {r : ProductRow} {e : Event}

theorem commits_editions {ttl : Span} {times : List Moment} {t t' : Tables} {cs : List Change}
    (commits : Commits ttl times cs t t') (sound : Sound t) (found : t.product? code = some r)
    (stays : ∀ d ∈ cs, ∀ code deletion, d ≠ .withdraw code deletion) :
    ∃ r', t'.product? code = some r' ∧ r'.editions = r.editions + cs.countP (·.describes code) := by
  induction commits generalizing r with
  | nil => exact ⟨r, found, by simp⟩
  | @cons t u t' c cs one _ ih =>
    obtain ⟨kept, rest⟩ := List.forall_mem_cons.mp stays
    have there : (u.product? code).isSome := by
      rcases one.revises sound found with ⟨_, known, _⟩ | removed
      · rw [known]
        rfl
      · exact absurd removed (kept _ _)
    obtain ⟨r', known, first⟩ := one.editions sound found there
    obtain ⟨r'', known', second⟩ := ih (sound.commit one) known rest
    refine ⟨r'', known', ?_⟩
    rw [second, first, List.countP_cons]
    split <;> push_cast <;> omega

theorem event_editions (sound : Sound w.tables) (alone : e.disruptions.Alone)
    (found : w.tables.product? code = some r)
    (stays : ((w.after e).tables.product? code).isSome) :
    ∃ r', (w.after e).tables.product? code = some r' ∧ r'.editions =
      r.editions + if e.command.describes code && (w.answer e).toBool then 1 else 0 := by
  obtain ⟨cs, makes, commits⟩ := event_makes w e alone
  have count := makes.countP_describes code
  rcases makes.withdraws with others | ⟨named, deletion, rfl⟩
  · obtain ⟨r', known, editions⟩ := commits_editions commits sound found others
    refine ⟨r', known, ?_⟩
    rw [editions, count]
    split <;> rfl
  · obtain ⟨r', known, editions⟩ := commits.one.editions sound found stays
    refine ⟨r', known, ?_⟩
    rw [editions]
    split at count
    · cases count
    · rename_i undescribed
      rw [if_neg undescribed]
      rfl

/-- How many of the events describe a product and succeed. -/
def World.descriptions (code : String) : World → List Event → Nat
  | _, [] => 0
  | w, e :: es =>
    (if e.command.describes code && (w.answer e).toBool then 1 else 0) +
      (w.after e).descriptions code es

theorem run_editions {es : List Event} (sound : Sound w.tables)
    (alone : ∀ e ∈ es, e.disruptions.Alone) (found : w.tables.product? code = some r)
    (stays : w.HasThroughout es code) :
    ∃ r', (w.run es).tables.product? code = some r' ∧
      r'.editions = r.editions + w.descriptions code es := by
  induction es generalizing w r with
  | nil => exact ⟨r, found, (Int.add_zero _).symm⟩
  | cons e es ih =>
    obtain ⟨first, rest⟩ := List.forall_mem_cons.mp alone
    obtain ⟨cs, _, commits⟩ := event_makes w e first
    have next : ((w.after e).tables.product? code).isSome :=
      stays [e] (List.cons_prefix_cons.mpr ⟨rfl, List.nil_prefix⟩)
    obtain ⟨r', known, edited⟩ := event_editions sound first found next
    obtain ⟨r'', known', edited'⟩ := ih (sound.commits commits) rest known fun part inside =>
      stays (e :: part) (List.cons_prefix_cons.mpr ⟨rfl, inside⟩)
    refine ⟨r'', known', ?_⟩
    rw [edited', edited, World.descriptions]
    split <;> push_cast <;> omega

/-- The product is created by an event between others, and has a row ever since. -/
structure World.Founds (w : World) (code : String) (before : List Event) (e : Event)
    (later : List Event) : Prop where
  fresh : (w.run before).tables.product? code = none
  asked : ∃ name stock price, e.command = .createProduct code name stock price
  succeeded : ((w.run before).answer e).toBool = true
  stays : ((w.run before).after e).HasThroughout later code

theorem event_founds (alone : e.disruptions.Alone) (missing : w.tables.product? code = none)
    (found : (w.after e).tables.product? code = some r) :
    (∃ name stock price, e.command = .createProduct code name stock price) ∧
      (w.answer e).toBool = true ∧ r.archived = false ∧ r.version = 0 := by
  obtain ⟨cs, makes, commits⟩ := event_makes w e alone
  rcases makes.creates with others | ⟨named, name, stock, price, asked, done, rfl⟩
  · have still_missing : (w.after e).tables.product? code = none := by
      refine commits.keep (P := fun t => t.product? code = none) ?_ missing
      intro d member t t' one before
      cases known : t'.product? code with
      | none => rfl
      | some row =>
        obtain ⟨⟨price, creates⟩, _⟩ := one.creates before known
        exact absurd creates (others d member code price)
    rw [still_missing] at found
    cases found
  · obtain ⟨⟨_, same⟩, offered, first⟩ := commits.one.creates missing found
    cases same
    exact ⟨⟨name, stock, price, asked⟩, done, offered, first⟩

/-- Every row goes back to an event that created its product, as an undescribed one. -/
theorem product_founded {es : List Event} (empty : w.tables = {})
    (alone : ∀ e ∈ es, e.disruptions.Alone)
    (known : ((w.run es).tables.product? code).isSome) :
    ∃ before e later, es = before ++ e :: later ∧ w.Founds code before e later := by
  induction es using List.reverseRecOn with
  | nil => simp [World.run, empty, Tables.product?] at known
  | append_singleton es e ih =>
    obtain ⟨earlier, last⟩ := List.forall_mem_append.mp alone
    cases had : (w.run es).tables.product? code with
    | none =>
      rw [run_append] at known
      obtain ⟨r, found⟩ := Option.isSome_iff_exists.mp known
      obtain ⟨asked, done, _⟩ := event_founds (last e (List.mem_singleton_self e)) had found
      refine ⟨es, e, [], rfl, had, asked, done, fun part inside => ?_⟩
      rw [List.prefix_nil.mp inside]
      exact known
    | some r =>
      obtain ⟨before, e', later, rfl, founds⟩ := ih earlier (by rw [had]; rfl)
      refine ⟨before, e', later ++ [e], by simp, { founds with stays := fun part inside => ?_ }⟩
      rcases List.prefix_concat_iff.mp inside with rfl | inside
      · simpa [World.run] using known
      · exact founds.stays part inside

/-- The version of a product is the number of its descriptions since its creation, plus one if it
is archived. -/
theorem version_counts {es : List Event} (empty : w.tables = {})
    (alone : ∀ e ∈ es, e.disruptions.Alone) (member : r ∈ (w.run es).tables.products) :
    ∃ before e later, es = before ++ e :: later ∧ w.Founds r.code before e later ∧
      r.version = ((w.run before).after e).descriptions r.code later +
        if r.archived then 1 else 0 := by
  have sound : Sound w.tables := by
    rw [empty]
    exact sound_empty
  have found := product_of_mem (sound.run alone).codes member
  obtain ⟨before, e, later, rfl, founds⟩ := product_founded empty alone (by rw [found]; rfl)
  obtain ⟨earlier, rest⟩ := List.forall_mem_append.mp alone
  obtain ⟨first, rest⟩ := List.forall_mem_cons.mp rest
  refine ⟨before, e, later, rfl, founds, ?_⟩
  obtain ⟨row, known⟩ := Option.isSome_iff_exists.mp (founds.stays [] List.nil_prefix)
  obtain ⟨_, _, offered, start⟩ := event_founds first founds.fresh known
  have sound' : Sound ((w.run before).after e).tables := by
    rw [← run_append]
    exact sound.run (List.forall_mem_append.mpr ⟨earlier, List.forall_mem_singleton.mpr first⟩)
  obtain ⟨last, known', edited⟩ := run_editions sound' rest known founds.stays
  have split : w.run (before ++ e :: later) = ((w.run before).after e).run later := by
    simp [World.run]
  rw [split, known'] at found
  cases found
  have undescribed : row.editions = 0 := by simp [ProductRow.editions, offered, start]
  rw [undescribed, Int.zero_add, ProductRow.editions] at edited
  omega

end
end Stockroom
