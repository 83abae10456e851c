import Stockroom.Json.Reading
import Stockroom.Proofs.Numerals

namespace Stockroom

open Text

namespace Json

def Reads {α : Type} (found : Found α) (a : α) (rest : List Char) : Prop :=
  ∃ position, found = .ok (a, ⟨position, rest⟩)

/- Texts -/

theorem hexValue_digitChar : ∀ n < 16, hexValue? (Nat.digitChar n) = some n := by decide

theorem hexCode_hexDigits {code : Nat} (small : code < 0x10000) (rest : List Char) :
    hexCode? (hexDigits 4 code ++ rest) = some code := by
  have digit (n : Nat) := hexValue_digitChar (n % 16) (Nat.mod_lt n (by decide))
  simp only [hexDigits, List.nil_append, List.cons_append, hexCode?, digit]
  simp only [Option.bind_eq_bind, Option.bind_some, Option.some.injEq]
  omega

theorem isScalar_char (c : Char) : isScalar c.toNat = true := by
  have valid : c.toNat.isValidChar := c.valid
  simp only [isScalar, Bool.or_eq_true, Bool.and_eq_true, decide_eq_true_eq]
  unfold Nat.isValidChar at valid
  omega

theorem escapedCode_cases (c : Char) :
    (∃ e, escapedCode c.toNat = ['\\', e] ∧ e ≠ 'u' ∧ escapeCode? e = some c.toNat) ∨
      (c.toNat < 0x20 ∧ escapedCode c.toNat = '\\' :: 'u' :: hexDigits 4 c.toNat) ∨
        (c ≠ '"' ∧ c ≠ '\\' ∧ ¬c.toNat < 0x20 ∧ escapedCode c.toNat = [c]) := by
  unfold escapedCode
  iterate 7
    split
    · rename_i code
      exact .inl ⟨_, rfl, by decide, by rw [code]; rfl⟩
  rename_i quote backslash _ _ _ _ _
  split
  case isTrue control => exact .inr (.inl ⟨by simpa [isScalar_char] using control, rfl⟩)
  case isFalse control =>
    right
    right
    refine ⟨?_, ?_, fun small => control (by simp [small]), by rw [Char.ofNat_toNat]⟩
    · rintro rfl
      exact quote rfl
    · rintro rfl
      exact backslash rfl

section

variable {d : Dialect} {start fuel : Nat}

theorem numberedEscape_small {code : Nat} (small : code < 0x20) (position : Nat) {rest : List Char}
    (more : rest ≠ []) :
    numberedEscape ⟨position, 'u' :: (hexDigits 4 code ++ rest)⟩ =
      .ok (code, ⟨position + 5, rest⟩) := by
  have number := hexCode_hexDigits (Nat.lt_trans small (by decide)) rest
  have low : isHighSurrogate code = false := by simp [isHighSurrogate]; omega
  have past : (hexDigits 4 code ++ rest).drop 4 = rest := by simp [hexDigits]
  simp [numberedEscape, Cursor.advance, number, past, low, more]

theorem textCodes_escaped (c : Char) (codes : List Nat) (position : Nat) {rest : List Char}
    (more : rest ≠ []) :
    ∃ position',
      textCodes d start (fuel + 1) codes ⟨position, escapedCode c.toNat ++ rest⟩ =
        textCodes d start fuel (c.toNat :: codes) ⟨position', rest⟩ := by
  rcases escapedCode_cases c with ⟨e, written, other, read⟩ | ⟨small, written⟩ | plain
  · exact ⟨position + 2, by simp [textCodes, Cursor.advance, written, other, read]⟩
  · have read := numberedEscape_small small (position + 1) more
    exact ⟨position + 6, by simp [textCodes, Cursor.advance, written, read, isScalar_char]⟩
  · exact ⟨position + 1, by simp [textCodes, Cursor.advance, plain]⟩

theorem textCodes_reads (cs : List Char) (enough : cs.length < fuel) (codes : List Nat)
    (position : Nat) (rest : List Char) :
    Reads (textCodes d start fuel codes
        ⟨position, cs.flatMap (escapedCode ·.toNat) ++ '"' :: rest⟩)
      (codes.reverse ++ cs.map Char.toNat) rest := by
  induction cs generalizing fuel position codes with
  | nil =>
    obtain ⟨fuel, rfl⟩ := Nat.exists_eq_add_of_lt enough
    exact ⟨position + 1, by simp [textCodes, Cursor.advance]⟩
  | cons c cs ih =>
    obtain ⟨fuel, rfl⟩ : ∃ n, fuel = n + 1 := ⟨fuel - 1, by simp at enough; omega⟩
    have more : cs.flatMap (escapedCode ·.toNat) ++ '"' :: rest ≠ [] := by simp
    obtain ⟨position', step⟩ := textCodes_escaped (d := d) c codes position more
    rw [List.flatMap_cons, List.append_assoc, step]
    simpa using ih (Nat.lt_of_succ_lt_succ enough) (c.toNat :: codes) position'

end

theorem ofCodes_text (s : String) : ofCodes (s.toList.map Char.toNat) = .text s := by
  have scalars : (s.toList.map Char.toNat).all isScalar = true := by
    simp [isScalar_char]
  rw [ofCodes, if_pos scalars, List.map_map]
  simp [Function.comp_def]

theorem nameOfCodes_text (s : String) : nameOfCodes (s.toList.map Char.toNat) = s := by
  rw [nameOfCodes, List.map_map]
  simp [Function.comp_def, isScalar_char]

/- Whole numbers -/

def Marked (rest : List Char) : Prop := ∀ c ∈ rest.head?, c = ',' ∨ c = ']' ∨ c = '\x7d'

theorem wholeRun_digits (n : Nat) {rest : List Char}
    (stop : ∀ c ∈ rest.head?, c.isDigit = false) :
    wholeRun (Nat.toDigits 10 n ++ rest) = Nat.toDigits 10 n := by
  by_cases n_zero : n = 0
  · subst n_zero
    rfl
  · obtain ⟨c, cs, head, other⟩ := toDigits_head n_zero
    have digits := toDigits_isDigit n
    rw [head] at digits ⊢
    have run := (digits_span (fun d here => digits d (List.mem_cons_of_mem _ here)) stop).1
    simp [wholeRun, other, digits c, run]

theorem readNumber_reads {n : Int} (short : digitCount n.natAbs ≤ digitLimit) (position : Nat)
    {rest : List Char} (marked : Marked rest) :
    Reads (readNumber ⟨position, integerChars n ++ rest⟩) (.integer n) rest := by
  have stop : ∀ c ∈ rest.head?, c.isDigit = false := by
    intro c here
    rcases marked c here with rfl | rfl | rfl <;> rfl
  have whole := wholeRun_digits n.natAbs stop
  have nonempty := Nat.toDigits_ne_nil (b := 10) (n := n.natAbs)
  have fits : ¬digitLimit < (Nat.toDigits 10 n.natAbs).length := Nat.not_lt.mpr short
  have fraction : fractionRun rest = [] := by
    cases rest with
    | nil => rfl
    | cons c rest => rcases marked c rfl with rfl | rfl | rfl <;> rfl
  have power : powerRun rest = [] := by
    cases rest with
    | nil => rfl
    | cons c rest => rcases marked c rfl with rfl | rfl | rfl <;> rfl
  by_cases negative : n < 0
  · have value : -(n.natAbs : Int) = n := by omega
    refine ⟨position + ((Nat.toDigits 10 n.natAbs).length + 1), ?_⟩
    simp only [readNumber, integerChars, negative, if_true, List.cons_append, List.nil_append,
      whole, if_neg nonempty, List.drop_left, fraction, List.length_nil, List.drop_zero, power,
      List.append_nil, if_neg fits, Cursor.advance, toDigits_value, value, List.drop_succ_cons,
      decide_true, Bool.and_self]
  · have value : (n.natAbs : Int) = n := by omega
    refine ⟨position + (Nat.toDigits 10 n.natAbs).length, ?_⟩
    obtain ⟨c, cs, head⟩ := List.exists_cons_of_ne_nil nonempty
    have digit := toDigits_isDigit n.natAbs c (by simp [head])
    simp only [readNumber, integerChars, negative, if_false, List.nil_append]
    split
    case h_1 minus =>
      rw [head] at minus
      cases minus
      cases digit
    case h_2 =>
      simp only [whole, if_neg nonempty, List.drop_left, fraction, List.length_nil, List.drop_zero,
        power, List.append_nil, if_neg fits, Cursor.advance, toDigits_value, value, decide_true,
        Bool.and_self, if_true, Bool.false_eq_true, if_false, Nat.add_zero]

theorem integerChars_head (n : Int) :
    (∃ c cs, integerChars n = c :: cs ∧ c.isDigit = true) ∨
      ∃ c cs, integerChars n = '-' :: c :: cs ∧ c.isDigit = true := by
  obtain ⟨c, cs, head⟩ := List.exists_cons_of_ne_nil (Nat.toDigits_ne_nil (b := 10) (n := n.natAbs))
  have digit := toDigits_isDigit n.natAbs c (by simp [head])
  by_cases negative : n < 0
  · exact .inr ⟨c, cs, by simp [integerChars, negative, head], digit⟩
  · exact .inl ⟨c, cs, by simp [integerChars, negative, head], digit⟩

theorem readValue_integer {n : Int} (short : digitCount n.natAbs ≤ digitLimit) (d : Dialect)
    (fuel k position : Nat) {rest : List Char} (marked : Marked rest) :
    Reads (readValue d (fuel + 1) k ⟨position, integerChars n ++ rest⟩) (.integer n) rest := by
  have read := readNumber_reads short position marked
  rcases integerChars_head n with ⟨c, cs, head, digit⟩ | ⟨c, cs, head, digit⟩
  · have other (m : Char) (letter : m.isDigit = false) : m ≠ c ∧ c ≠ m := by
      constructor <;> (rintro rfl; simp [letter] at digit)
    rw [head] at read ⊢
    simpa [readValue, readScalar, Cursor.word?, List.isPrefixOf, other] using read
  · have other : 'I' ≠ c := by
      rintro rfl
      cases digit
    rw [head] at read ⊢
    simpa [readValue, readScalar, Cursor.word?, List.isPrefixOf, other] using read

theorem readValue_null (d : Dialect) (fuel k position : Nat) (rest : List Char) :
    Reads (readValue d (fuel + 1) k ⟨position, "null".toList ++ rest⟩) .null rest :=
  ⟨position + 4, rfl⟩

theorem readValue_bool (b : Bool) (d : Dialect) (fuel k position : Nat) (rest : List Char) :
    Reads (readValue d (fuel + 1) k ⟨position, (if b then "true" else "false").toList ++ rest⟩)
      (.bool b) rest := by
  cases b
  · exact ⟨position + 5, rfl⟩
  · exact ⟨position + 4, rfl⟩

theorem quotedText_length (s : String) : s.toList.length + 2 ≤ (quotedText s).length := by
  have each : ∀ cs : List Char, cs.length ≤ (cs.flatMap (escapedCode ·.toNat)).length := by
    intro cs
    induction cs with
    | nil => simp
    | cons c cs ih =>
      have written_once : 1 ≤ (escapedCode c.toNat).length := by
        rcases escapedCode_cases c with ⟨e, written, -⟩ | ⟨-, written⟩ | ⟨-, -, -, written⟩ <;>
          simp [written]
      simp only [List.flatMap_cons, List.length_append, List.length_cons]
      omega
  have body := each s.toList
  simp only [quotedText, List.length_cons, List.length_append, List.length_nil]
  omega

theorem readText_reads (s : String) (d : Dialect) {fuel : Nat} (enough : s.toList.length < fuel)
    (position : Nat) (rest : List Char) :
    Reads (readText d fuel ⟨position, quotedText s ++ rest⟩) (s.toList.map Char.toNat) rest := by
  have read : Reads (textCodes d position fuel [] _) _ rest :=
    textCodes_reads s.toList enough [] (position + 1) rest
  simpa [readText, quotedText, Cursor.advance] using read

theorem readValue_text (s : String) (d : Dialect) {fuel : Nat} (enough : s.toList.length < fuel)
    (k position : Nat) (rest : List Char) :
    Reads (readValue d (fuel + 1) k ⟨position, quotedText s ++ rest⟩) (.text s) rest := by
  obtain ⟨position', read⟩ := readText_reads s d enough position rest
  refine ⟨position', ?_⟩
  simp only [quotedText, List.cons_append] at read ⊢
  simp only [readValue, if_true, read, ofCodes_text]

/- Documents -/

/-- A document that can be read back: no fraction, no number that is too long, and no more than
so many lists and objects inside each other. -/
inductive Plain : Nat → Json → Prop
  | null {k : Nat} : Plain k .null
  | bool {k : Nat} (b : Bool) : Plain k (.bool b)
  | integer {k : Nat} {n : Int} (short : digitCount n.natAbs ≤ digitLimit) : Plain k (.integer n)
  | text {k : Nat} (s : String) : Plain k (.text s)
  | array {k : Nat} {items : List Json} (all : ∀ x ∈ items, Plain k x) :
    Plain (k + 1) (.array items)
  | object {k : Nat} {members : List (String × Json)} (all : ∀ m ∈ members, Plain k m.2) :
    Plain (k + 1) (.object members)

def ReadsBack (d : Dialect) (k : Nat) (x : Json) : Prop :=
  ∀ fuel position rest, Marked rest → 2 * x.chars.length ≤ fuel →
    Reads (readValue d (fuel + 1) k ⟨position, x.chars ++ rest⟩) x rest

theorem skipBlank_mark {c : Char} (mark : c ∈ [',', ':', ']', '\x7d']) (position : Nat)
    (cs : List Char) : (Cursor.mk position (c :: cs)).skipBlank = ⟨position, c :: cs⟩ := by
  have dark : (c == ' ' || c == '\t' || c == '\n' || c == '\r') = false := by
    simp only [List.mem_cons, List.not_mem_nil, or_false] at mark
    rcases mark with rfl | rfl | rfl | rfl <;> rfl
  simp [Cursor.skipBlank, Cursor.skipWhile, dark]

def opens (c : Char) : Bool :=
  c ≠ ' ' && c ≠ '\t' && c ≠ '\n' && c ≠ '\r' && c ≠ ']' && c ≠ '\x7d'

def Opened (cs : List Char) : Prop := ∃ c rest, cs = c :: rest ∧ opens c = true

theorem Opened.skipBlank {cs : List Char} (opened : Opened cs) (position : Nat) (rest : List Char) :
    (Cursor.mk position (cs ++ rest)).skipBlank = ⟨position, cs ++ rest⟩ := by
  obtain ⟨c, cs, rfl, first⟩ := opened
  simp only [opens, Bool.and_eq_true, decide_eq_true_eq] at first
  simp [Cursor.skipBlank, Cursor.skipWhile, first]

theorem opens_digit {c : Char} (digit : c.isDigit = true) : opens c = true := by
  obtain ⟨d, small, rfl⟩ := digitChar_of_isDigit digit
  revert d
  decide

theorem quotedText_opened (s : String) : Opened (quotedText s) := ⟨'"', _, rfl, rfl⟩

theorem Plain.opened {k : Nat} {x : Json} (plain : Plain k x) : Opened x.chars := by
  cases plain with
  | null => exact ⟨'n', _, rfl, rfl⟩
  | bool b =>
    cases b
    · exact ⟨'f', _, rfl, rfl⟩
    · exact ⟨'t', _, rfl, rfl⟩
  | @integer _ n =>
    rcases integerChars_head n with ⟨c, cs, head, digit⟩ | ⟨c, cs, head, -⟩
    · exact ⟨c, cs, by rw [chars, head], opens_digit digit⟩
    · exact ⟨'-', c :: cs, by rw [chars, head], rfl⟩
  | text s =>
    rw [chars]
    exact quotedText_opened s
  | array all => exact ⟨'[', _, by rw [chars], rfl⟩
  | object all => exact ⟨'\x7b', _, by rw [chars], rfl⟩

theorem Opened.append {cs : List Char} (opened : Opened cs) (rest : List Char) :
    Opened (cs ++ rest) := by
  obtain ⟨c, cs, rfl, first⟩ := opened
  exact ⟨c, cs ++ rest, rfl, first⟩

theorem itemChars_cons (x y : Json) (items : List Json) :
    itemChars (x :: y :: items) = x.chars ++ ',' :: itemChars (y :: items) := by
  rw [itemChars]
  nofun

theorem itemChars_opened {x : Json} (opened : Opened x.chars) (items : List Json) :
    Opened (itemChars (x :: items)) := by
  cases items with
  | nil => rwa [itemChars]
  | cons y items =>
    rw [itemChars_cons]
    exact opened.append _

section

variable {d : Dialect} {k : Nat}

theorem readItems_reads (x : Json) (items : List Json)
    (opened : ∀ y ∈ x :: items, Opened y.chars) (back : ∀ y ∈ x :: items, ReadsBack d k y)
    (fuel : Nat) (earlier : List Json) (position : Nat) (rest : List Char)
    (enough : 2 * (itemChars (x :: items)).length + 1 < fuel) :
    Reads (readItems d fuel k earlier ⟨position, itemChars (x :: items) ++ ']' :: rest⟩)
      (.array (earlier.reverse ++ x :: items)) rest := by
  induction items generalizing x fuel earlier position with
  | nil =>
    obtain ⟨fuel, rfl⟩ : ∃ n, fuel = n + 2 := ⟨fuel - 2, by omega⟩
    simp only [itemChars] at enough ⊢
    obtain ⟨position', read⟩ := back x List.mem_cons_self fuel position (']' :: rest)
      (by simp [Marked]) (by omega)
    refine ⟨position' + 1, ?_⟩
    simp [readItems, read, skipBlank_mark, Cursor.advance]
  | cons y items ih =>
    obtain ⟨fuel, rfl⟩ : ∃ n, fuel = n + 2 := ⟨fuel - 2, by omega⟩
    have later := fun z here => opened z (List.mem_cons_of_mem x here)
    have next := (itemChars_opened (later y List.mem_cons_self) items).skipBlank
    rw [itemChars_cons] at enough ⊢
    simp only [List.length_append, List.length_cons] at enough
    rw [List.append_assoc, List.cons_append]
    obtain ⟨position', read⟩ := back x List.mem_cons_self fuel position
      (',' :: (itemChars (y :: items) ++ ']' :: rest)) (by simp [Marked]) (by omega)
    have reads := ih y later (fun z here => back z (List.mem_cons_of_mem x here)) (fuel + 1)
      (x :: earlier) (position' + 1) (by omega)
    simpa [readItems, read, skipBlank_mark, Cursor.advance, next] using reads

theorem memberChars_cons (name : String) (x : Json) (m : String × Json)
    (members : List (String × Json)) :
    memberChars ((name, x) :: m :: members) =
      quotedText name ++ ':' :: (x.chars ++ ',' :: memberChars (m :: members)) := by
  rw [memberChars]
  nofun

theorem memberChars_opened (m : String × Json) (members : List (String × Json)) :
    Opened (memberChars (m :: members)) := by
  obtain ⟨name, x⟩ := m
  cases members with
  | nil =>
    rw [memberChars]
    exact (quotedText_opened name).append _
  | cons n members =>
    rw [memberChars_cons]
    exact (quotedText_opened name).append _

theorem readMembers_step (name : String) {x : Json} (opened : Opened x.chars)
    (back : ReadsBack d k x) {mark : Char} (behind : mark = ',' ∨ mark = '\x7d') (fuel : Nat)
    (earlier : List (String × Json)) (position : Nat) (rest : List Char)
    (enough : 2 * ((quotedText name).length + x.chars.length) ≤ fuel) :
    ∃ position',
      readMembers d (fuel + 2) k earlier
          ⟨position, quotedText name ++ ':' :: (x.chars ++ mark :: rest)⟩ =
        if mark = ',' then
          readMembers d (fuel + 1) k ((name, x) :: earlier) (Cursor.mk position' rest).skipBlank
        else .ok (.object ((name, x) :: earlier).reverse, ⟨position', rest⟩) := by
  have long := quotedText_length name
  have short : name.toList.length < fuel + 1 := by omega
  obtain ⟨middle, named⟩ := readText_reads name d short position (':' :: (x.chars ++ mark :: rest))
  obtain ⟨last, read⟩ := back fuel (middle + 1) (mark :: rest)
    (by rcases behind with rfl | rfl <;> simp [Marked]) (by omega)
  have value := opened.skipBlank (middle + 1) (mark :: rest)
  obtain ⟨body, quote⟩ : ∃ body, quotedText name = '"' :: body := ⟨_, rfl⟩
  rw [quote, List.cons_append] at named ⊢
  refine ⟨last + 1, ?_⟩
  rcases behind with rfl | rfl <;>
    simp [readMembers, named, nameOfCodes_text, skipBlank_mark, Cursor.advance, value, read]

theorem readMembers_reads (m : String × Json) (members : List (String × Json))
    (opened : ∀ n ∈ m :: members, Opened n.2.chars)
    (back : ∀ n ∈ m :: members, ReadsBack d k n.2) (fuel : Nat) (earlier : List (String × Json))
    (position : Nat) (rest : List Char)
    (enough : 2 * (memberChars (m :: members)).length + 1 < fuel) :
    Reads (readMembers d fuel k earlier ⟨position, memberChars (m :: members) ++ '\x7d' :: rest⟩)
      (.object (earlier.reverse ++ m :: members)) rest := by
  induction members generalizing m fuel earlier position with
  | nil =>
    obtain ⟨fuel, rfl⟩ : ∃ n, fuel = n + 2 := ⟨fuel - 2, by omega⟩
    obtain ⟨name, x⟩ := m
    simp only [memberChars, List.length_append, List.length_cons] at enough
    obtain ⟨position', read⟩ := readMembers_step name (opened _ List.mem_cons_self)
      (back _ List.mem_cons_self) (.inr rfl) fuel earlier position rest (by dsimp only; omega)
    refine ⟨position', ?_⟩
    simpa [memberChars] using read
  | cons n members ih =>
    obtain ⟨fuel, rfl⟩ : ∃ n, fuel = n + 2 := ⟨fuel - 2, by omega⟩
    obtain ⟨name, x⟩ := m
    have later := fun z here => opened z (List.mem_cons_of_mem (name, x) here)
    have next := (memberChars_opened n members).skipBlank
    rw [memberChars_cons] at enough ⊢
    simp only [List.length_append, List.length_cons] at enough
    obtain ⟨position', read⟩ := readMembers_step name (opened _ List.mem_cons_self)
      (back _ List.mem_cons_self) (.inl rfl) fuel earlier position
      (memberChars (n :: members) ++ '\x7d' :: rest) (by dsimp only; omega)
    have reads := ih n later (fun z here => back z (List.mem_cons_of_mem (name, x) here)) (fuel + 1)
      ((name, x) :: earlier) position' (by omega)
    rw [List.append_assoc, List.cons_append, List.append_assoc, List.cons_append, read, if_pos rfl,
      next]
    simpa using reads

end

theorem array_readsBack {d : Dialect} {k : Nat} {items : List Json}
    (opened : ∀ x ∈ items, Opened x.chars) (back : ∀ x ∈ items, ReadsBack d k x) :
    ReadsBack d (k + 1) (.array items) := by
  intro fuel position rest _ enough
  cases items with
  | nil =>
    exact ⟨position + 2, by simp [readValue, chars, itemChars, Cursor.advance, skipBlank_mark]⟩
  | cons x items =>
    simp only [chars, List.length_cons, List.length_append] at enough
    obtain ⟨position', reads⟩ := readItems_reads x items opened back fuel [] (position + 1) rest
      (by omega)
    have first := itemChars_opened (opened x List.mem_cons_self) items
    have next := first.skipBlank (position + 1) (']' :: rest)
    obtain ⟨c, cs, head, start⟩ := first
    have other : c ≠ ']' := by
      rintro rfl
      cases start
    refine ⟨position', ?_⟩
    rw [head, List.cons_append] at next reads
    simp [readValue, chars, head, Cursor.advance, next, reads, other]

theorem object_readsBack {d : Dialect} {k : Nat} {members : List (String × Json)}
    (opened : ∀ m ∈ members, Opened m.2.chars) (back : ∀ m ∈ members, ReadsBack d k m.2) :
    ReadsBack d (k + 1) (.object members) := by
  intro fuel position rest _ enough
  cases members with
  | nil =>
    exact ⟨position + 2, by simp [readValue, chars, memberChars, Cursor.advance, skipBlank_mark]⟩
  | cons m members =>
    simp only [chars, List.length_cons, List.length_append] at enough
    obtain ⟨position', reads⟩ := readMembers_reads m members opened back fuel [] (position + 1)
      rest (by omega)
    have first := memberChars_opened m members
    have next := first.skipBlank (position + 1) ('\x7d' :: rest)
    obtain ⟨c, cs, head, start⟩ := first
    have other : c ≠ '\x7d' := by
      rintro rfl
      cases start
    refine ⟨position', ?_⟩
    rw [head, List.cons_append] at next reads
    simp [readValue, chars, head, Cursor.advance, next, reads, other]

theorem Plain.readsBack {d : Dialect} {k : Nat} {x : Json} (plain : Plain k x) :
    ReadsBack d k x := by
  induction plain with
  | null =>
    intro fuel position rest _ _
    exact readValue_null d fuel _ position rest
  | bool b =>
    intro fuel position rest _ _
    exact readValue_bool b d fuel _ position rest
  | integer short =>
    intro fuel position rest marked _
    exact readValue_integer short d fuel _ position marked
  | text s =>
    intro fuel position rest _ enough
    have long := quotedText_length s
    rw [chars] at enough
    exact readValue_text s d (by omega) _ position rest
  | array all ih => exact array_readsBack (fun x here => (all x here).opened) ih
  | object all ih => exact object_readsBack (fun m here => (all m here).opened) ih

/-- What is written of a plain document reads back as that document. -/
theorem read_compact (d : Dialect) {x : Json} (plain : Plain d.depth x) :
    read d x.compact = .ok x := by
  have first : (Cursor.ofText x.compact).skipBlank = ⟨0, x.chars⟩ := by
    have opened := plain.opened.skipBlank 0 []
    rw [List.append_nil] at opened
    rwa [Cursor.ofText, compact, String.toList_ofList]
  obtain ⟨position, reads⟩ := plain.readsBack (d := d) (2 * x.chars.length + 1) 0 [] nofun
    (by omega)
  rw [List.append_nil] at reads
  rw [read]
  dsimp only
  rw [first]
  dsimp only
  rw [reads]
  rfl

end Json
end Stockroom
