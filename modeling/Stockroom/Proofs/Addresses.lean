import Mathlib.Data.List.TakeWhile
import Stockroom.Proofs.Prices
import Stockroom.Proofs.Requests
import Stockroom.Proofs.Spelling

/-! Products and their addresses.
The code of a product is one part of a path. A code without a slash is spelled with escapes, and
the path that is read from the spelling has the code as it is; so every action on the product has
an address, and a look there right after the product was created shows it. A code with a slash is
accepted all the same, but no path has a slash within a part, so no request asks for anything of
such a product. -/
namespace Stockroom
namespace Desk

/- Paths of plain parts -/

theorem not_mem_of_splitOn {sep : Char} {cs part : List Char} (member : part ∈ cs.splitOn sep) :
    sep ∉ part := by
  induction cs generalizing part with
  | nil =>
    rw [List.splitOn_nil, List.mem_singleton] at member
    rw [member]
    exact List.not_mem_nil
  | cons c cs ih =>
    rw [List.splitOn_cons_eq_if_modifyHead] at member
    split at member
    · rcases List.mem_cons.mp member with rfl | later
      · exact List.not_mem_nil
      · exact ih later
    · rename_i other
      obtain ⟨first, rest, parts⟩ := List.exists_cons_of_ne_nil (List.splitOn_ne_nil sep cs)
      rw [parts, List.modifyHead_cons] at member
      rcases List.mem_cons.mp member with rfl | later
      · have inner : sep ∉ first := ih (parts ▸ List.mem_cons_self)
        simp only [List.mem_cons, not_or]
        exact ⟨fun same => other (by simp [same]), inner⟩
      · exact ih (parts ▸ List.mem_cons_of_mem _ later)

def rooted (parts : List (List Char)) : List Char := parts.flatMap ('/' :: ·)

theorem intercalate_rooted (part : List Char) (parts : List (List Char)) :
    ['/'].intercalate (part :: parts) = part ++ rooted parts := by
  induction parts generalizing part with
  | nil => simp [rooted]
  | cons next rest ih => simp [List.intercalate_cons_cons, ih next, rooted]

theorem splitOn_rooted {parts : List (List Char)} (split : ∀ part ∈ parts, '/' ∉ part) :
    (rooted parts).splitOn '/' = [] :: parts := by
  have whole : rooted parts = ['/'].intercalate ([] :: parts) := by
    rw [intercalate_rooted, List.nil_append]
  rw [whole]
  apply List.splitOn_intercalate
  · simpa using split
  · exact List.cons_ne_nil _ _

/-- A part of a path that means nothing but itself. -/
structure Plain (part : List Char) : Prop where
  chars : ∀ c ∈ part, c ≠ '/' ∧ c ≠ '?' ∧ c ≠ '#'
  still : part ≠ ['.'] ∧ part ≠ ['.', '.']

-- Over the characters of the part, as all characters there are would be too many to try.
instance (part : List Char) : Decidable (Plain part) :=
  have checked : (part.all fun c => decide (c ≠ '/' ∧ c ≠ '?' ∧ c ≠ '#')) = true ↔
      ∀ c ∈ part, c ≠ '/' ∧ c ≠ '?' ∧ c ≠ '#' := by simp [List.all_eq_true]
  decidable_of_iff ((part.all fun c => decide (c ≠ '/' ∧ c ≠ '?' ∧ c ≠ '#')) = true ∧
    part ≠ ['.'] ∧ part ≠ ['.', '.'])
    ⟨fun h => ⟨checked.mp h.1, h.2⟩, fun h => ⟨checked.mpr h.chars, h.still⟩⟩

namespace Address

theorem foldl_enter {parts : List (List Char)} (plain : ∀ part ∈ parts, Plain part)
    (before : List (List Char)) : parts.foldl enter before = before ++ parts := by
  induction parts generalizing before with
  | nil => rw [List.foldl_nil, List.append_nil]
  | cons part parts ih =>
    obtain ⟨⟨_, one, two⟩, plain⟩ := List.forall_mem_cons.mp plain
    rw [List.foldl_cons, ih plain, enter, if_neg one, if_neg two, List.append_assoc,
      List.singleton_append]

theorem withoutHost_rooted {c : Char} (plain : c ≠ '/') (rest : List Char) :
    withoutHost ('/' :: c :: rest) = '/' :: c :: rest := by
  have path : ['/', '/'].isPrefixOf ('/' :: c :: rest) = false := by
    simp [List.isPrefixOf, plain.symm]
  rw [withoutHost, path]
  simp [plain]

theorem withoutDots_rooted {parts : List (List Char)} (plain : ∀ part ∈ parts, Plain part)
    (nonempty : parts ≠ []) : withoutDots (rooted parts) = rooted parts := by
  have split : ∀ part ∈ parts, '/' ∉ part := fun part there slash =>
    ((plain part there).chars _ slash).1 rfl
  have all : ∀ part ∈ [] :: parts, Plain part :=
    List.forall_mem_cons.mpr ⟨⟨nofun, nofun, nofun⟩, plain⟩
  obtain ⟨first, rest, rfl⟩ := List.exists_cons_of_ne_nil nonempty
  rw [withoutDots, splitOn_rooted split, foldl_enter all, List.nil_append, intercalate_rooted,
    List.nil_append]
  exact if_neg (List.cons_ne_nil _ _)

theorem ofTarget_path {target : String} {first : List Char} {rest : List (List Char)}
    (named : first ≠ []) (plain : ∀ part ∈ first :: rest, Plain part)
    (spelled : target.toList = rooted (first :: rest)) :
    (ofTarget target).path = Text.percentDecoded target.toList := by
  have chars : ∀ d ∈ target.toList, d ≠ '?' ∧ d ≠ '#' := by
    intro d member
    rw [spelled] at member
    obtain ⟨part, there, member⟩ := List.mem_flatMap.mp member
    rcases List.mem_cons.mp member with rfl | inside
    · decide
    · exact ((plain part there).chars d inside).2
  have kept : target.toList.takeWhile (· ≠ '#') = target.toList :=
    List.takeWhile_eq_self_iff.mpr fun d member => decide_eq_true (chars d member).2
  have path : target.toList.takeWhile (· ≠ '?') = target.toList :=
    List.takeWhile_eq_self_iff.mpr fun d member => decide_eq_true (chars d member).1
  have hostless : withoutHost target.toList = target.toList := by
    obtain ⟨c, more, rfl⟩ := List.exists_cons_of_ne_nil named
    have begins : c ≠ '/' := ((plain _ List.mem_cons_self).chars c List.mem_cons_self).1
    rw [spelled]
    exact withoutHost_rooted begins _
  have dotless : withoutDots target.toList = target.toList := by
    rw [spelled]
    exact withoutDots_rooted plain (List.cons_ne_nil _ _)
  rw [ofTarget]
  dsimp only
  rw [kept, path, hostless, dotless]

end Address

/- Spellings of codes -/

/-- A way to write a code into an address. Characters that need no escape may be kept, all others
are escaped; a code that would be a step through the path has its dots escaped. -/
structure Spelling (code : String) where
  keep : Char → Bool
  unreserved : ∀ c, keep c = true → Text.isUnreserved c = true
  dots : code = "." ∨ code = ".." → keep '.' = false

namespace Spelling

variable {code : String}

-- Every code can be spelled: with all its characters escaped.
instance : Inhabited (Spelling code) := ⟨⟨fun _ => false, nofun, fun _ => rfl⟩⟩

def usual (still : code ≠ "." ∧ code ≠ "..") : Spelling code where
  keep := Text.isUnreserved
  unreserved := fun _ kept => kept
  dots := fun step => (step.elim still.1 still.2).elim

def text (s : Spelling code) : List Char := Text.percentEncoded s.keep code.toList

def address (s : Spelling code) : String := String.ofList ("/api/v1/products/".toList ++ s.text)

theorem address_toList (s : Spelling code) :
    s.address.toList = "/api/v1/products/".toList ++ s.text := String.toList_ofList

theorem escapes (s : Spelling code) : s.keep '%' = false := by
  by_contra kept
  exact absurd (s.unreserved '%' (by simpa using kept)) (by decide)

theorem decoded (s : Spelling code) : Text.percentDecoded s.text = code.toList := by
  have whole : Text.percentDecoded ([] ++ s.text ++ []) = [] ++ code.toList ++ [] :=
    Text.percentDecoded_encoded s.escapes List.not_mem_nil List.not_mem_nil code.toList
  simpa using whole

theorem chars (s : Spelling code) : ∀ c ∈ s.text, c ≠ '/' ∧ c ≠ '?' ∧ c ≠ '#' := by
  have reserved : (['/', '?', '#'].all fun c => c ≠ '%' && !Text.isUnreserved c) = true := by
    decide
  intro c member
  have plain : c = '%' ∨ Text.isUnreserved c = true := by
    rcases Text.percentEncoded_chars c member with kept | plain
    · exact .inr (s.unreserved c kept)
    · exact plain
  have free : c ∉ ['/', '?', '#'] := by
    intro known
    have neither := List.all_eq_true.mp reserved c known
    rcases plain with rfl | plain
    · cases neither
    · simp [plain] at neither
  simpa using free

theorem text_ne_dots (s : Spelling code) (step : code = "." ∨ code = "..") (dots : List Char) :
    s.text ≠ '.' :: dots := by
  have first : ∃ rest, code.toList = '.' :: rest := by
    cases step with
    | inl one => exact ⟨[], by rw [one]; rfl⟩
    | inr two => exact ⟨['.'], by rw [two]; rfl⟩
  obtain ⟨rest, same⟩ := first
  rw [text, same, Text.percentEncoded, List.flatMap_cons, s.dots step]
  intro kept
  cases kept

/-- A spelling that looks like a step through the path is that of the dots themselves, and those
are escaped. -/
theorem plain (s : Spelling code) : Plain s.text := by
  constructor
  · exact s.chars
  constructor
  · intro one
    have same : code.toList = ['.'] := by
      rw [← s.decoded, one]
      decide
    exact s.text_ne_dots (.inl (String.toList_injective same)) [] one
  · intro two
    have same : code.toList = ['.', '.'] := by
      rw [← s.decoded, two]
      decide
    exact s.text_ne_dots (.inr (String.toList_injective same)) ['.'] two

end Spelling

/- Requests about products -/

/-- A request at an address of a product, and the action it asks for. -/
inductive Asks {code : String} (s : Spelling code) (r : Request) : Action → Prop where
  | look : r.method = "GET" → r.target = s.address → Asks s r (.lookUpProduct code)
  | update : r.method = "PUT" → r.target = s.address → Asks s r (.updateProduct code)
  | delete : r.method = "DELETE" → r.target = s.address → Asks s r (.deleteProduct code)
  | active : r.method = "GET" → r.target = s.address ++ "/has-active-orders" →
      Asks s r (.hasActiveOrders code)
  | finished : r.method = "GET" → r.target = s.address ++ "/has-finished-orders" →
      Asks s r (.hasFinishedOrders code)

def Action.product? : Action → Option String
  | .lookUpProduct code => some code
  | .updateProduct code => some code
  | .deleteProduct code => some code
  | .hasActiveOrders code => some code
  | .hasFinishedOrders code => some code
  | _ => none

def Page.product? : Page → Option String
  | .product code => some code
  | .activeOrders code => some code
  | .finishedOrders code => some code
  | _ => none

section

variable {code : String}

theorem Page.ofPath?_rooted {parts : List (List Char)} (split : ∀ part ∈ parts, '/' ∉ part)
    (nonempty : parts ≠ []) :
    Page.ofPath? (rooted ("api".toList :: "v1".toList :: parts)) = Page.ofParts? parts := by
  have inner : ∀ part ∈ "api".toList :: "v1".toList :: parts, '/' ∉ part := by
    simpa using split
  obtain ⟨first, rest, rfl⟩ := List.exists_cons_of_ne_nil nonempty
  rw [Page.ofPath?, splitOn_rooted inner]
  rfl

namespace Spelling

theorem page (s : Spelling code) (split : '/' ∉ code.toList) {parts : List (List Char)}
    (plain : ∀ part ∈ parts, Plain part ∧ '%' ∉ part) {target : String}
    (named : target.toList = s.address.toList ++ rooted parts) :
    Page.ofPath? (Address.ofTarget target).path =
      Page.ofParts? ("products".toList :: code.toList :: parts) := by
  have products (text : List Char) : "/api/v1/products/".toList ++ text ++ rooted parts =
      rooted ("api".toList :: "v1".toList :: "products".toList :: text :: parts) := by
    simp [rooted]
  have spelled : target.toList = "/api/v1/products/".toList ++ s.text ++ rooted parts := by
    rw [named, address_toList]
  have signless : '%' ∉ rooted parts := by
    intro member
    obtain ⟨part, there, member⟩ := List.mem_flatMap.mp member
    rcases List.mem_cons.mp member with sign | inside
    · cases sign
    · exact (plain part there).2 inside
  have all : ∀ part ∈ "api".toList :: "v1".toList :: "products".toList :: s.text :: parts,
      Plain part := by
    simp only [List.forall_mem_cons]
    exact ⟨by decide, by decide, by decide, s.plain, fun part there => (plain part there).1⟩
  have inner : ∀ part ∈ "products".toList :: code.toList :: parts, '/' ∉ part := by
    simp only [List.forall_mem_cons]
    exact ⟨by decide, split, fun part there slash => ((plain part there).1.chars _ slash).1 rfl⟩
  rw [Address.ofTarget_path (by decide) all (spelled.trans (products _)), spelled, text,
    Text.percentDecoded_encoded s.escapes (by decide) signless, products]
  exact Page.ofPath?_rooted inner (List.cons_ne_nil _ _)

theorem words_upper :
    "GET".toUpper = "GET" ∧ "PUT".toUpper = "PUT" ∧ "DELETE".toUpper = "DELETE" := by
  decide +kernel

theorem action_of_page {parts : List (List Char)} {p : Page} {r : Request}
    (led : Page.ofPath? (Address.ofTarget r.target).path = Page.ofParts? parts)
    (reads : Page.ofParts? parts = some p) : r.action? = p.actions.lookup r.method.toUpper := by
  rw [Request.action?, Address.route, led, reads]

theorem asked (s : Spelling code) (named : code ≠ "") (split : '/' ∉ code.toList) {r : Request}
    {action : Action} (asks : Asks s r action) : r.action? = some action := by
  obtain ⟨get, put, delete⟩ := words_upper
  have nonempty : code.toList ≠ [] := fun empty => named (String.toList_injective empty)
  have here (target : r.target = s.address) :
      r.action? = (Page.product code).actions.lookup r.method.toUpper := by
    have path : r.target.toList = s.address.toList ++ rooted [] := by
      simp [target, rooted]
    have led := s.page split (List.forall_mem_nil _) path
    exact action_of_page led (by simp [Page.ofParts?, nonempty, Page.ofCode])
  have below {word : String} {p : Page} (plain : Plain word.toList ∧ '%' ∉ word.toList)
      (under : Page.underCode "products".toList code word.toList = .some p)
      (target : r.target = s.address ++ "/" ++ word) :
      r.action? = p.actions.lookup r.method.toUpper := by
    have path : r.target.toList = s.address.toList ++ rooted [word.toList] := by
      simp [target, rooted]
    have led := s.page split (List.forall_mem_singleton.mpr plain) path
    exact action_of_page led (by simpa [Page.ofParts?, nonempty] using under)
  cases asks with
  | look method target => simp [here target, method, get, Page.actions]
  | update method target => simp [here target, method, put, Page.actions, List.lookup_cons]
  | delete method target => simp [here target, method, delete, Page.actions, List.lookup_cons]
  | active method target =>
    have under : Page.underCode "products".toList code "has-active-orders".toList =
        .some (.activeOrders code) := by simp [Page.underCode, Page.endsWith]
    have led := below (by decide) under (by rw [target, String.append_assoc]; rfl)
    simp [led, method, get, Page.actions]
  | finished method target =>
    have under : Page.underCode "products".toList code "has-finished-orders".toList =
        .some (.finishedOrders code) := by simp [Page.underCode, Page.endsWith]
    have led := below (by decide) under (by rw [target, String.append_assoc]; rfl)
    simp [led, method, get, Page.actions]

end Spelling

/- Codes without an address -/

theorem Page.ofParts?_product {parts : List (List Char)} {p : Page}
    (led : Page.ofParts? parts = some p) (about : p.product? = some code) :
    code.toList ∈ parts := by
  unfold Page.ofParts? at led
  split at led
  · repeat' split at led
    all_goals cases led
    all_goals cases about
  · rename_i kind part
    split at led
    · cases led
    · unfold Page.ofCode at led
      repeat' split at led
      all_goals cases led
      all_goals cases about
      simp
  · rename_i kind part last
    split at led
    · cases led
    · unfold Page.underCode at led
      repeat' split at led
      all_goals cases led
      all_goals cases about
      all_goals simp
  · cases led

theorem Page.ofPath?_product {path : List Char} {p : Page} (led : Page.ofPath? path = some p)
    (about : p.product? = some code) : code.toList ∈ path.splitOn '/' := by
  unfold Page.ofPath? at led
  split at led
  · split at led <;> cases led
    cases about
  · rename_i api version parts inner
    split at led
    · rw [inner]
      have member := Page.ofParts?_product led about
      simp [member]
    · cases led
  · cases led

theorem Page.actions_about {p : Page} {method : String} {action : Action}
    (known : p.actions.lookup method = some action) : action.product? = p.product? := by
  have about : ∀ a ∈ p.actions, a.2.product? = p.product? := by
    cases p <;> simp [Page.actions, Action.product?, Page.product?]
  obtain ⟨before, after, actions, _⟩ := List.lookup_eq_some_iff.mp known
  exact about (method, action) (by simp [actions])

/-- No request asks for anything of a product whose code has a slash. -/
theorem unasked (slashed : '/' ∈ code.toList) {r : Request} {action : Action}
    (asked : r.action? = some action) : action.product? ≠ some code := by
  intro about
  unfold Request.action? Address.route at asked
  cases led : Page.ofPath? (Address.ofTarget r.target).path with
  | none =>
    rw [led] at asked
    dsimp only at asked
    split at asked
    · rename_i p route
      split at route <;> cases route
    · cases asked
  | some p =>
    rw [led] at asked
    have member := Page.ofPath?_product led ((Page.actions_about asked).symm.trans about)
    exact not_mem_of_splitOn member slashed

end

/- Requests one after another -/

section

variable {s : Settings} {r : Request} {w : World}

theorem replyOf_coherent {x : Service Reply}
    (h : x.Ends w (fun _ v => v.Coherent) fun _ v => v.Coherent) :
    (replyOf x).Ends w (fun _ v => v.Coherent) fun _ v => v.Coherent := by
  have noted (f : Fault) : (noteContention f).Within World.Steady := by
    unfold noteContention
    split
    · exact Service.note_within _ _ _
    · exact Service.within_pure ()
  have outcome : (Service.outcome x).Ends w (fun _ v => v.Coherent) fun _ v => v.Coherent := by
    unfold Service.Ends Service.outcome at *
    cases run : x w <;> simpa only [run] using h
  refine Service.ends_bind.mpr (outcome.mono ?_ fun _ _ kept => kept)
  intro result v coherent
  cases result with
  | ok reply => exact coherent
  | error f =>
    have steady := (noted f).bind fun _ =>
      Service.now_within.bind fun m => Service.within_pure (Reply.ofFault m f)
    exact (steady v).mono (fun _ _ kept => kept.2 coherent) fun _ _ kept => kept.2 coherent

theorem answer_coherent {reply : Reply} {v : World} (coherent : w.Coherent)
    (run : answer s r w = .ok reply v) : v.Coherent := by
  cases asked : r.action? with
  | none =>
    obtain ⟨_, run', _⟩ := answer_unserved (s := s) asked w
    cases run.symm.trans run'
    exact coherent
  | some action =>
    rw [answer_action asked] at run
    refine (replyOf_coherent ?_).of_ok run
    cases given : action.command? (.ofTarget r.target) r with
    | some c =>
      rw [perform_some given]
      exact Service.ends_map.mpr (c.perform_coherent s coherent)
    | none =>
      have idles := perform_none (s := s) given
      generalize perform s (.ofTarget r.target) r action = x at idles
      cases idles with
      | refused complaints =>
        have steady : (refuse complaints).Within World.Steady :=
          Service.now_within.bind fun m => Service.within_pure (Reply.refused m complaints)
        exact (steady w).mono (fun _ _ kept => kept.2 coherent) fun _ _ kept => kept.2 coherent
      | unread => exact coherent
      | healthy => exact coherent

theorem answer_look {code : String} {p : Product} (coherent : w.Coherent) (quiet : w.Quiet)
    (asked : r.action? = some (.lookUpProduct code)) (shown : w.tables.showProduct code = .ok p) :
    ∃ v, answer s r w = .ok (.ok (productJson p)) v := by
  have ends := Service.lookUpProduct_ends code coherent quiet.alone
  unfold Service.Ends at ends
  cases run : Service.lookUpProduct code w with
  | ok q v =>
    rw [run] at ends
    cases shown.symm.trans ends
    refine ⟨v, ?_⟩
    rw [answer_action asked, perform_some (c := .lookUpProduct code) rfl]
    exact replyOf_ok (Service.map_ok (Service.map_ok run))
  | error f v =>
    rw [run] at ends
    rcases ends with hidden | disturbed
    · rw [shown] at hidden
      cases hidden
    · exact absurd quiet disturbed.1

theorem ofFault_uncreated (m : Moment) (f : Fault) : (Reply.ofFault m f).status ≠ 201 := by
  unfold Reply.ofFault heading?
  cases f.kind <;> simp [Reply.failed]

theorem command_creates {code name : String} {stock : Int} {price : Decimal}
    (asked : r.command? = some (.createProduct code name stock price)) :
    code ≠ "" ∧ checkPrice price = .accepted price := by
  obtain ⟨action, _, given⟩ := Option.bind_eq_some_iff.mp asked
  cases action with
  | createProduct =>
    obtain ⟨p, read, same⟩ := Option.map_eq_some_iff.mp given
    obtain ⟨x, accepted⟩ := Request.read_accepted read
    obtain ⟨named, priced⟩ := NewProduct.read_accepted accepted
    obtain ⟨rfl, _, _, rfl⟩ := Command.createProduct.inj same
    exact ⟨fun empty => by simp [empty] at named, priced⟩
  | _ => simp [Action.command?] at given

theorem answer_created {code name : String} {stock : Int} {price : Decimal} {reply : Reply}
    {v : World} (alone : w.Alone) (asked : r.command? = some (.createProduct code name stock price))
    (run : answer s r w = .ok reply v) (created : reply.status = 201) :
    reply = .created (productJson { code, name, stock, price }) ∧
      w.tables.insertProduct code name stock price = .ok v.tables := by
  obtain ⟨reply', v', run', replied⟩ := answer_replied s r w
  cases run.symm.trans run'
  cases replied with
  | @done action c a v asked' done =>
    cases asked.symm.trans asked'
    have ends : ((Command.createProduct code name stock price).perform s).Ends w
        (fun a v => a = .product { code, name, stock, price } ∧
          w.tables.insertProduct code name stock price = .ok v.tables) fun _ _ => True := by
      refine Service.ends_map.mpr ((Service.createProduct_meets code name stock price alone).mono
        ?_ fun _ _ _ => trivial)
      rintro _ u ⟨⟨inserted, _, _, rfl⟩, _⟩
      exact ⟨rfl, inserted⟩
    obtain ⟨rfl, inserted⟩ := ends.of_ok done
    refine ⟨?_, inserted⟩
    -- A success is told with this status by the action that creates products alone.
    cases action <;> first | rfl | cases created
  | failed _ _ _ _ => exact absurd created (ofFault_uncreated _ _)
  | idle unasked _ _ _ =>
    rw [asked] at unasked
    cases unasked

end

end Desk

theorem ProductRow.Records.shows {r : ProductRow} {p : Product} (records : r.Records p)
    (finite : r.price.isFinite = true) : r.toProduct = .ok { p with price := r.price.read } := by
  obtain ⟨q, shown⟩ := toProduct_finite finite
  obtain ⟨_, rfl⟩ := toProduct_ok shown
  obtain ⟨code, name, stock, price, archived, version⟩ := p
  obtain ⟨rfl, rfl, rfl, rfl, rfl, _⟩ := records
  exact shown

def World.answered (w : World) (visit : Visit) : World :=
  match Desk.answer visit.settings visit.request (w.visited visit) with
  | .ok _ v => v
  | .error _ v => v

def World.serve (w : World) (visits : List Visit) : World := visits.foldl answered w

theorem World.Coherent.serve {w : World} (coherent : w.Coherent) (visits : List Visit) :
    (w.serve visits).Coherent := by
  induction visits generalizing w with
  | nil => exact coherent
  | cons visit visits ih =>
    obtain ⟨reply, v, run, _⟩ :=
      Desk.answer_replied visit.settings visit.request (w.visited visit)
    have after : v.Coherent := Desk.answer_coherent (w := w.visited visit) coherent run
    have served : w.serve (visit :: visits) = v.serve visits := by
      rw [World.serve, List.foldl_cons, World.answered, run, World.serve]
    rw [served]
    exact ih after

/-- A product that a request created has its addresses, unless there is a slash in its code: each
action on it is reached under every spelling of the code, with exactly that code, and a look there
right after the product was created shows it, a price in whole cents as the same number. A code
with a slash is accepted as well, and then no request asks for anything of that product. -/
theorem created_products_are_addressed {w : World} (fresh : w.snapshots.entries = [])
    (before : List Visit) {visit : Visit} (alone : visit.disruptions.Alone)
    {code name : String} {stock : Int} {price : Decimal}
    (asked : visit.request.command? = some (.createProduct code name stock price))
    {reply : Desk.Reply} {v : World}
    (answered : Desk.answer visit.settings visit.request ((w.serve before).visited visit) =
      .ok reply v)
    (created : reply.status = 201) :
    let p : Product := { code, name, stock, price }
    reply = .created (Desk.productJson p) ∧
      ∃ amount, Amount.ofDecimal? price = some amount ∧
        (∀ n < 10 ^ 15, price.value = (n : Nat) / 100 → amount.read = .ofCents n) ∧
        ('/' ∉ code.toList → ∀ spelling : Desk.Spelling code,
          (∀ r action, Desk.Asks spelling r action → r.action? = some action) ∧
            ∀ look : Visit, look.disruptions.Quiet →
              Desk.Asks spelling look.request (.lookUpProduct code) →
              ∃ u, Desk.answer look.settings look.request (v.visited look) =
                .ok (.ok (Desk.productJson { p with price := amount.read })) u) ∧
        ('/' ∈ code.toList → ∀ r action,
          Desk.Request.action? r = some action → action.product? ≠ some code) := by
  intro p
  obtain ⟨named, checked⟩ := Desk.command_creates asked
  obtain ⟨told, inserted⟩ :=
    Desk.answer_created (w := (w.serve before).visited visit) alone asked answered created
  obtain ⟨row, found, records⟩ := insertProduct_records inserted
  have stored : Amount.ofDecimal? price = some row.price := records.price
  have shown : v.tables.showProduct code = .ok { p with price := row.price.read } := by
    rw [Tables.showProduct, found]
    exact records.shows ((Desk.price_storable checked).finite stored)
  have coherent : v.Coherent := by
    have start : w.Coherent := by
      intro kept member
      rw [fresh] at member
      cases member
    exact Desk.answer_coherent (w := (w.serve before).visited visit) (start.serve before) answered
  refine ⟨told, row.price, stored, fun n few cents => Desk.price_read checked cents few stored,
    fun split spelling => ⟨fun r action => spelling.asked named split, ?_⟩,
    fun slashed r action => Desk.unasked slashed⟩
  intro look quiet asks
  exact Desk.answer_look (w := v.visited look) coherent quiet (spelling.asked named split asks)
    shown

def codedTea (code : String) : Visit where
  settings := {}
  now := .minutes 0
  request := {
    method := "POST"
    target := "/api/v1/products"
    body := (Json.object [("code", .text code), ("name", .text "Tea"),
      ("stock_quantity", .integer 5), ("price_per_unit", .text "1.50")]).compact
    contentType := "application/json" }

def lookAt (target : String) : Visit where
  settings := {}
  now := .minutes 1
  request := { method := "GET", target }

theorem unusual_tea_is_addressed :
    let visit := codedTea "50% té"
    let look := lookAt "/api/v1/products/50%25%20t%C3%A9"
    ∃ reply v u, Desk.answer visit.settings visit.request (World.opening.visited visit) =
        .ok reply v ∧
      reply.status = 201 ∧ look.request.action? = some (.lookUpProduct "50% té") ∧
      Desk.answer look.settings look.request (v.visited look) =
        .ok (.ok (Desk.productJson ⟨"50% té", "Tea", 5, .ofCents 150, false, 0⟩)) u := by
  intro visit look
  have asked : visit.request.command? =
      some (.createProduct "50% té" "Tea" 5 (.ofCents 150)) := by
    have led : visit.request.action? = some .createProduct := by decide +kernel
    have read : visit.request.read? Desk.NewProduct.read =
        some ⟨"50% té", "Tea", 5, .ofCents 150⟩ := by decide +kernel
    rw [Desk.Request.command?, led, Option.bind_some, Desk.Action.command?, read]
    rfl
  obtain ⟨reply, v, run, _⟩ :=
    Desk.answer_replied visit.settings visit.request (World.opening.visited visit)
  have created : World.opening.statusTold visit = 201 := by decide +kernel
  rw [World.statusTold, run] at created
  let spelling : Desk.Spelling "50% té" := .usual (by decide)
  have asks : Desk.Asks spelling look.request (.lookUpProduct "50% té") :=
    .look rfl (by decide +kernel)
  obtain ⟨_, amount, _, cents, addressed, _⟩ :=
    created_products_are_addressed (w := World.opening) rfl [] quiet_nothing.alone asked run created
  obtain ⟨routed, shown⟩ := addressed (by decide) spelling
  obtain ⟨u, seen⟩ := shown look quiet_nothing asks
  have price : amount.read = .ofCents 150 := cents 150 (by decide) (ofCents_value 150)
  rw [price] at seen
  exact ⟨reply, v, u, run, created, routed _ _ asks, seen⟩

/-- A code with a slash is accepted, and its product is not found where the code is spelled. -/
theorem slashed_tea_is_unaddressed :
    let visit := codedTea "a/b"
    let look := lookAt "/api/v1/products/a%2Fb"
    (∃ spelling : Desk.Spelling "a/b", Desk.Asks spelling look.request (.lookUpProduct "a/b")) ∧
      ∃ reply v u, Desk.answer visit.settings visit.request (World.opening.visited visit) =
          .ok reply v ∧
        reply.status = 201 ∧ look.request.action? = none ∧
        Desk.answer look.settings look.request (v.visited look) =
          .ok (.remark 404 "Not Found") u := by
  intro visit look
  obtain ⟨reply, v, run, _⟩ :=
    Desk.answer_replied visit.settings visit.request (World.opening.visited visit)
  have created : World.opening.statusTold visit = 201 := by decide +kernel
  rw [World.statusTold, run] at created
  have lost : (Desk.Address.ofTarget look.request.target).route = .nowhere := by decide +kernel
  have plain : look.request.method.toUpper ≠ "HEAD" := by decide +kernel
  refine ⟨⟨.usual (by decide), .look rfl (by decide +kernel)⟩, reply, v, v.visited look, run,
    created, by decide +kernel, ?_⟩
  rw [Desk.answer, Desk.replyTo, lost]
  simp only [plain, ↓reduceIte]
  rfl

end Stockroom
