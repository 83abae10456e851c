import Stockroom.Proofs.Prices
import Stockroom.Text.Utf8

namespace Stockroom

/- The order of texts -/

namespace Text

theorem utf8_lt {c d : Char} (less : c < d) (xs ys : List Nat) : utf8 c ++ xs < utf8 d ++ ys := by
  have number : c.toNat < d.toNat := UInt32.lt_iff_toNat_lt.mp (Char.lt_def.mp less)
  unfold utf8
  dsimp only
  generalize c.toNat = n at number
  generalize d.toNat = m at number
  split_ifs <;> simp only [List.cons_append, List.nil_append, List.cons_lt_cons_iff] <;> omega

def bytes (s : String) : List Nat := s.toList.flatMap utf8

theorem flatMap_utf8_lt {cs ds : List Char} (less : cs < ds) :
    cs.flatMap utf8 < ds.flatMap utf8 := by
  induction cs generalizing ds with
  | nil =>
    cases ds with
    | nil => exact (List.lt_irrefl _ less).elim
    | cons d ds =>
      rw [List.flatMap_cons]
      unfold utf8
      dsimp only
      split_ifs <;> exact List.nil_lt_cons _ _
  | cons c cs ih =>
    cases ds with
    | nil => exact (List.not_lt_nil _ less).elim
    | cons d ds =>
      rw [List.flatMap_cons, List.flatMap_cons]
      rcases List.cons_lt_cons_iff.mp less with first | ⟨rfl, rest⟩
      · exact utf8_lt first _ _
      · exact List.append_left_lt (ih rest)

theorem bytes_lt {s t : String} (less : s < t) : bytes s < bytes t :=
  flatMap_utf8_lt (String.lt_iff.mp less)

end Text

/-- Before another product in a list, by the stored name and then by the stored code. -/
def Product.ListedBefore (p q : Product) : Prop :=
  Text.bytes p.name < Text.bytes q.name ∨
    p.name = q.name ∧ Text.bytes p.code < Text.bytes q.code

/- The order of rows -/

theorem listsBefore_iff {a b : ProductRow} :
    Tables.listsBefore a b = true ↔ a.name < b.name ∨ a.name = b.name ∧ a.code ≤ b.code := by
  simp [Tables.listsBefore]

theorem listsBefore_trans (a b c : ProductRow) (first : Tables.listsBefore a b = true)
    (second : Tables.listsBefore b c = true) : Tables.listsBefore a c = true := by
  rw [listsBefore_iff] at first second ⊢
  rcases first with less | ⟨same, code⟩
  · rcases second with less' | ⟨same', _⟩
    · exact .inl (String.lt_trans less less')
    · exact .inl (same' ▸ less)
  · rcases second with less' | ⟨same', code'⟩
    · exact .inl (same ▸ less')
    · exact .inr ⟨same.trans same', String.le_trans code code'⟩

theorem listsBefore_total (a b : ProductRow) :
    (Tables.listsBefore a b || Tables.listsBefore b a) = true := by
  rw [Bool.or_eq_true, listsBefore_iff, listsBefore_iff]
  by_cases less : a.name < b.name
  · exact .inl (.inl less)
  by_cases more : b.name < a.name
  · exact .inr (.inl more)
  have same : a.name = b.name :=
    String.le_antisymm (String.not_lt.mp more) (String.not_lt.mp less)
  exact (String.le_total a.code b.code).imp (.inr ⟨same, ·⟩) (.inr ⟨same.symm, ·⟩)

namespace Tables

variable {t : Tables} {onlyActive : Bool}

theorem listed_nodup (unique : t.UniqueCodes) : ((t.listed onlyActive).map (·.code)).Nodup := by
  have kept : ((t.products.filter fun r => !(onlyActive && r.archived)).map (·.code)).Nodup :=
    (List.filter_sublist.map _).nodup unique
  exact ((List.mergeSort_perm _ _).map _).nodup_iff.mpr kept

theorem listed_sorted (unique : t.UniqueCodes) :
    (t.listed onlyActive).Pairwise fun a b =>
      a.name < b.name ∨ a.name = b.name ∧ a.code < b.code := by
  have sorted : (t.listed onlyActive).Pairwise (listsBefore · · = true) :=
    List.pairwise_mergeSort listsBefore_trans listsBefore_total _
  have distinct : (t.listed onlyActive).Pairwise fun a b => a.code ≠ b.code :=
    List.pairwise_map.mp (listed_nodup unique)
  apply (sorted.and distinct).imp
  rintro a b ⟨before, other⟩
  apply (listsBefore_iff.mp before).imp_right
  rintro ⟨name, code⟩
  exact ⟨name, Std.lt_of_le_of_ne code other⟩

theorem listed_shown {ps : List Product} (unique : t.UniqueCodes)
    (read : (t.listed onlyActive).map (·.toProduct) = ps.map .ok) :
    (ps.map Except.ok).Perm ((if onlyActive then t.products.filter (!·.archived)
      else t.products).map (·.toProduct)) ∧ ps.Pairwise Product.ListedBefore := by
  constructor
  · have rows : (t.listed onlyActive).Perm
        (if onlyActive then t.products.filter (!·.archived) else t.products) := by
      have sorted := List.mergeSort_perm (t.products.filter fun r => !(onlyActive && r.archived))
        listsBefore
      cases onlyActive with
      | true => exact sorted
      | false => simpa [listed] using sorted
    rw [← read]
    exact rows.map _
  · have strict : ((t.listed onlyActive).map (·.toProduct)).Pairwise fun a b =>
        ∀ p q, a = .ok p → b = .ok q → p.ListedBefore q := by
      rw [List.pairwise_map]
      apply (listed_sorted unique).imp
      intro a b before p q shown shown'
      obtain ⟨_, rfl⟩ := toProduct_ok shown
      obtain ⟨_, rfl⟩ := toProduct_ok shown'
      exact before.imp Text.bytes_lt (And.imp_right Text.bytes_lt)
    rw [read, List.pairwise_map] at strict
    exact strict.imp fun before => before _ _ rfl rfl

theorem showProduct_listed {ps : List Product} {p : Product} (unique : t.UniqueCodes)
    (read : (t.listed onlyActive).map (·.toProduct) = ps.map .ok) (member : p ∈ ps) :
    t.showProduct p.code = .ok p := by
  have there := List.mem_map_of_mem (f := (Except.ok : Product → Except Fault Product)) member
  rw [← read] at there
  obtain ⟨r, here, shown⟩ := List.mem_map.mp there
  have same : r.code = p.code := by
    obtain ⟨_, rfl⟩ := toProduct_ok shown
    rfl
  rw [showProduct, ← same, product_of_mem unique (mem_listed.mp here).1]
  exact shown

theorem listed_of_showProduct {ps : List Product} {p : Product} {code : String}
    (read : (t.listed false).map (·.toProduct) = ps.map .ok) (shown : t.showProduct code = .ok p) :
    p ∈ ps := by
  unfold showProduct at shown
  cases found : t.product? code with
  | none =>
    rw [found] at shown
    cases shown
  | some r =>
    rw [found] at shown
    have here : r ∈ t.listed false := mem_listed.mpr ⟨(product_mem found).1, nofun⟩
    have there := List.mem_map_of_mem (f := (·.toProduct)) here
    rw [read] at there
    obtain ⟨q, member, same⟩ := List.mem_map.mp there
    cases same.trans shown
    exact member

end Tables

/-- In every state that commands with prices within the bounds lead to, a list answers with what
each row shows, or each that is not archived, once and in order of the stored names and codes. A
look at a listed code answers with the listed product, and the full list has every product that
a look can answer with. -/
theorem list_and_look_agree {w : World} (empty : w.tables = {}) (fresh : w.snapshots.entries = [])
    {es : List Event} (fits : ∀ e ∈ es, e.disruptions.Alone ∧ e.command.Priced) {list : Event}
    {onlyActive : Bool} (quiet : list.disruptions.Quiet)
    (asked : list.command = .listProducts onlyActive) :
    ∃ ps, (w.run es).answer list = .ok (.products ps) ∧
      (ps.map Except.ok).Perm ((if onlyActive then (w.run es).tables.products.filter (!·.archived)
        else (w.run es).tables.products).map (·.toProduct)) ∧
      ps.Pairwise Product.ListedBefore ∧
      (∀ p ∈ ps, ∀ look : Event, look.disruptions.Quiet → look.command = .lookUpProduct p.code →
        (w.run es).answer look = .ok (.product p)) ∧
      (onlyActive = false → ∀ (look : Event) code p, look.disruptions.Alone →
        look.command = .lookUpProduct code → (w.run es).answer look = .ok (.product p) →
        p.code = code ∧ p ∈ ps) := by
  have reached : Reachable Command.Priced (w.run es) := (Reachable.start empty).run fits
  have coherent : (w.run es).Coherent := (World.coherent_of_fresh fresh).run es
  have unique := reached.sound.codes
  obtain ⟨ps, told, shown⟩ := answer_of_list reached.readable quiet asked
  have read : ((w.run es).tables.listed onlyActive).map (·.toProduct) = ps.map .ok := by
    rw [← List.forall₂_eq_eq_eq, List.forall₂_map_left_iff, List.forall₂_map_right_iff]
    exact shown
  obtain ⟨rows, sorted⟩ := Tables.listed_shown unique read
  refine ⟨ps, told, rows, sorted, ?_, ?_⟩
  · intro p member look still looked
    have answered := answer_of_look coherent still.alone looked
    rcases answered with seen | ⟨_, _, disturbed, _⟩
    · rw [seen, Tables.showProduct_listed unique read member]
      rfl
    · exact absurd still disturbed
  · rintro rfl look code p alone looked seen
    have answered := answer_of_look coherent alone looked
    rcases answered with same | ⟨_, failed, _⟩
    · rw [seen] at same
      cases row : (w.run es).tables.showProduct code with
      | error f =>
        rw [row] at same
        cases same
      | ok q =>
        rw [row] at same
        cases same
        exact ⟨Service.showProduct_code row, Tables.listed_of_showProduct read row⟩
    · rw [seen] at failed
      cases failed

def mintEvents : List Event :=
  teaEvents ++ [.quiet 2 (.createProduct "mint" "Tea" 1 (.ofCents 90))]

theorem mint_listed_with_tea :
    ∃ ps, (World.opening.run mintEvents).answer (.quiet 3 (.listProducts false)) =
        .ok (.products ps) ∧
      ps.length = 2 ∧ ps.Pairwise Product.ListedBefore ∧
      ⟨"tea", "Tea", 3, .ofCents 150, false, 0⟩ ∈ ps := by
  have tea : Desk.checkPrice (.ofCents 150) = .accepted (.ofCents 150) := by rfl
  have mint : Desk.checkPrice (.ofCents 90) = .accepted (.ofCents 90) := by rfl
  have fits : ∀ e ∈ mintEvents, e.disruptions.Alone ∧ e.command.Priced := by
    intro e given
    rcases List.mem_append.mp given with first | last
    · exact teaEvents_fit Command.Priced tea trivial e first
    · obtain rfl := List.mem_singleton.mp last
      exact ⟨quiet_nothing.alone, mint⟩
  have seen : (World.opening.run mintEvents).answer (.quiet 4 (.lookUpProduct "tea")) =
      .ok (.product ⟨"tea", "Tea", 3, .ofCents 150, false, 0⟩) := by decide +kernel
  have rows : (World.opening.run mintEvents).tables.products.length = 2 := by decide +kernel
  have quiet : (Event.quiet 3 (.listProducts false)).disruptions.Quiet := quiet_nothing
  obtain ⟨ps, told, shown, sorted, _, looks⟩ := list_and_look_agree (w := World.opening)
    rfl rfl fits quiet rfl
  have count : ps.length = 2 := by simpa [rows] using shown.length_eq
  exact ⟨ps, told, count, sorted, (looks rfl _ _ _ quiet_nothing.alone rfl seen).2⟩

end Stockroom
