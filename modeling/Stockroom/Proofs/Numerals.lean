import Stockroom.Number.DecimalReading

namespace Stockroom

open Text

/- Runs of digits -/

theorem digitChar_of_isDigit {c : Char} (digit : c.isDigit = true) :
    ∃ d < 10, c = Nat.digitChar d := by
  have bounds : 48 ≤ c.toNat ∧ c.toNat ≤ 57 := Char.isDigit_iff_toNat.mp digit
  have small : c.toNat - 48 < 10 := by omega
  refine ⟨c.toNat - 48, small, Char.toNat_inj.mp ?_⟩
  rw [Nat.toNat_digitChar_of_lt_ten small]
  omega

theorem digits_span {run : List Char} (digits : ∀ c ∈ run, c.isDigit = true) {tail : List Char}
    (stop : ∀ c ∈ tail.head?, c.isDigit = false) :
    (run ++ tail).takeWhile Char.isDigit = run ∧ (run ++ tail).dropWhile Char.isDigit = tail := by
  induction run with
  | nil =>
    cases tail with
    | nil => simp
    | cons c tail =>
      have not_digit := stop c rfl
      simp [not_digit]
  | cons c run ih =>
    obtain ⟨taken, left⟩ := ih fun d here => digits d (List.mem_cons_of_mem _ here)
    have digit := digits c List.mem_cons_self
    simp [digit, taken, left]

theorem toDigits_isDigit (n : Nat) : ∀ c ∈ Nat.toDigits 10 n, c.isDigit = true :=
  fun _ => Nat.isDigit_of_mem_toDigits (by decide) (by decide)

theorem toDigits_value (n : Nat) : digitsValue (Nat.toDigits 10 n) = n :=
  Nat.ofDigitChars_toDigits (by decide) (by decide)

theorem toDigits_head {n : Nat} (nonzero : n ≠ 0) :
    ∃ c cs, Nat.toDigits 10 n = c :: cs ∧ c ≠ '0' := by
  induction n using Nat.strongRecOn with
  | ind n ih =>
    by_cases small : n < 10
    · refine ⟨Nat.digitChar n, [], Nat.toDigits_of_lt_base small, ?_⟩
      rwa [ne_eq, Nat.digitChar_eq_zero]
    · obtain ⟨c, cs, head, nonzero_head⟩ := ih (n / 10) (by omega) (by omega)
      refine ⟨c, cs ++ [Nat.digitChar (n % 10)], ?_, nonzero_head⟩
      rw [Nat.toDigits_of_base_le (by decide) (by omega), head]
      rfl

theorem digitsValue_zeros (n : Nat) (digits : List Char) :
    digitsValue (List.replicate n '0' ++ digits) = digitsValue digits := by
  simp [digitsValue, Nat.ofDigitChars_append, Nat.ofDigitChars_replicate_zero]

/- Numerals -/

/-- The end of a numeral, which shows a power of ten behind its letter, or the power zero. -/
structure ShowsPower (tail : List Char) (power : Int) : Prop where
  read : exponentPart? tail = some power
  start : ∀ c ∈ tail.head?, c = 'E'

theorem ShowsPower.nothing : ShowsPower [] 0 := ⟨rfl, nofun⟩

section

variable {s : Bool} {whole fraction tail : List Char} {power : Int}

theorem ShowsPower.stop (shows : ShowsPower tail power) : ∀ c ∈ tail.head?, c.isDigit = false := by
  intro c here
  rw [shows.start c here]
  rfl

theorem numeral_whole (digits : ∀ c ∈ whole, c.isDigit = true) (nonempty : whole ≠ [])
    (shows : ShowsPower tail power) :
    unsignedNumeral? s (whole ++ tail) = some ⟨s, digitsValue whole, power⟩ := by
  obtain ⟨taken, left⟩ := digits_span digits shows.stop
  have pointless : fractionPart tail = ([], tail) := by
    cases tail with
    | nil => rfl
    | cons c tail =>
      rw [shows.start c rfl]
      rfl
  simp [unsignedNumeral?, taken, left, pointless, nonempty, shows.read]

theorem numeral_point (digits : ∀ c ∈ whole ++ fraction, c.isDigit = true)
    (nonempty : whole ++ fraction ≠ []) (shows : ShowsPower tail power) :
    unsignedNumeral? s (whole ++ '.' :: (fraction ++ tail)) =
      some ⟨s, digitsValue (whole ++ fraction), power - fraction.length⟩ := by
  have point : ∀ c ∈ ('.' :: (fraction ++ tail)).head?, c.isDigit = false := by
    rintro c ⟨⟩
    rfl
  obtain ⟨taken, left⟩ :=
    digits_span (fun c here => digits c (List.mem_append_left _ here)) point
  obtain ⟨behind, rest⟩ :=
    digits_span (fun c here => digits c (List.mem_append_right _ here)) shows.stop
  simp only [unsignedNumeral?, taken, left, fractionPart, behind, rest, if_neg nonempty,
    shows.read, Option.map_some]

end

/- Decimals -/

namespace Decimal

theorem signedDigits_power (n : Int) : ShowsPower ('E' :: signedDigits n) n where
  read := by
    have digits : (Nat.toDigits 10 n.natAbs).all Char.isDigit = true :=
      List.all_eq_true.mpr (toDigits_isDigit n.natAbs)
    have read : plainNat? (Nat.toDigits 10 n.natAbs) = some n.natAbs := by
      simp [plainNat?, digits, toDigits_value]
    by_cases negative : n < 0
    · have value : -(n.natAbs : Int) = n := by omega
      simp only [exponentPart?, signedDigits, negative, if_true, splitSign, read, decide_true,
        Bool.or_true, Option.bind_eq_bind, Option.bind_some, Option.pure_def, Option.map_some, value]
    · have value : (n.natAbs : Int) = n := by omega
      simp only [exponentPart?, signedDigits, negative, if_false, splitSign, read, decide_true,
        Bool.or_true, if_true, Bool.false_eq_true, Option.bind_eq_bind, Option.bind_some,
        Option.pure_def, Option.map_some, value]
  start := by simp

theorem pointAfter_numeral {s : Bool} {digits tail : List Char} {left power : Int}
    (all : ∀ c ∈ digits, c.isDigit = true) (nonempty : digits ≠ []) (le : left ≤ digits.length)
    (shows : ShowsPower tail power) :
    unsignedNumeral? s (pointAfter digits left ++ tail) =
      some ⟨s, digitsValue digits, power + left - digits.length⟩ := by
  unfold pointAfter
  split
  case isTrue low =>
    have zeros : ∀ c ∈ ['0'] ++ (List.replicate (-left).toNat '0' ++ digits),
        c.isDigit = true := by
      intro c here
      simp only [List.mem_append, List.mem_singleton, List.mem_replicate] at here
      rcases here with rfl | ⟨-, rfl⟩ | here
      · rfl
      · rfl
      · exact all c here
    have value : digitsValue (['0'] ++ (List.replicate (-left).toNat '0' ++ digits)) =
        digitsValue digits := digitsValue_zeros ((-left).toNat + 1) digits
    apply (numeral_point zeros (by simp) shows).trans
    rw [value, List.length_append, List.length_replicate]
    congr 2
    omega
  case isFalse low =>
    split
    case isTrue high =>
      have no_zeros : (left - digits.length).toNat = 0 := by omega
      rw [no_zeros, List.replicate_zero, List.append_nil, numeral_whole all nonempty shows]
      congr 2
      omega
    case isFalse high =>
      have whole := List.take_append_drop left.toNat digits
      have parts : ∀ c ∈ digits.take left.toNat ++ digits.drop left.toNat, c.isDigit = true := by
        rwa [whole]
      rw [List.append_assoc, List.cons_append, numeral_point parts (by rwa [whole]) shows, whole,
        List.length_drop]
      congr 2
      omega

theorem magnitudeText_numeral (s : Bool) (c : Nat) (e : Int) :
    unsignedNumeral? s (magnitudeText c e) = some ⟨s, c, e⟩ := by
  have digits := toDigits_isDigit c
  have nonempty := Nat.toDigits_ne_nil (b := 10) (n := c)
  have least := List.length_pos_iff.mpr nonempty
  unfold magnitudeText
  dsimp only
  split
  case isTrue places =>
    have le : e + (Nat.toDigits 10 c).length ≤ (Nat.toDigits 10 c).length := by omega
    rw [← List.append_nil (pointAfter _ _), pointAfter_numeral digits nonempty le .nothing,
      toDigits_value]
    congr 2
    omega
  case isFalse =>
    rw [pointAfter_numeral digits nonempty (by omega) (signedDigits_power _), toDigits_value]
    congr 2
    omega

/- The written form as a whole -/

def isNumeric (c : Char) : Bool := c.isDigit || c = '.' || c = 'E' || c = '+' || c = '-'

theorem isNumeric_plain {c : Char} (numeric : isNumeric c = true) :
    isSpacing c = false ∧ c ≠ '_' ∧ plainDigit c = c := by
  simp only [isNumeric, Bool.or_eq_true, decide_eq_true_eq] at numeric
  rcases numeric with (((digit | rfl) | rfl) | rfl) | rfl
  · obtain ⟨d, small, rfl⟩ := digitChar_of_isDigit digit
    revert d
    decide
  all_goals decide

theorem readChars_numeric {cs : List Char} (numeric : ∀ c ∈ cs, isNumeric c = true) :
    readChars? cs = readUnsigned? (splitSign cs).1 (splitSign cs).2 := by
  have front {ds : List Char} (plain : ∀ c ∈ ds, isNumeric c = true) :
      ds.dropWhile isSpacing = ds := by
    cases ds with
    | nil => rfl
    | cons d ds =>
      rw [List.dropWhile_cons, (isNumeric_plain (plain d List.mem_cons_self)).1]
      rfl
  have trimmed : trim isSpacing cs = cs := by
    rw [trim, front numeric, front (by simpa using numeric), List.reverse_reverse]
  have kept : cs.filter (· ≠ '_') = cs :=
    List.filter_eq_self.mpr fun c here => by simpa using (isNumeric_plain (numeric c here)).2.1
  have plain : cs.map plainDigit = cs :=
    (List.map_congr_left fun c here => (isNumeric_plain (numeric c here)).2.2).trans cs.map_id
  simp only [readChars?, trimmed, kept, plain]

theorem readUnsigned_digit {s : Bool} {d : Char} {rest : List Char} (digit : d.isDigit = true) :
    readUnsigned? s (d :: rest) = (unsignedNumeral? s (d :: rest)).bind ofNumeral? := by
  have letters : d.toLower ≠ 'i' ∧ d.toLower ≠ 'n' ∧ d.toLower ≠ 's' := by
    obtain ⟨n, small, rfl⟩ := digitChar_of_isDigit digit
    revert n
    decide
  simp [readUnsigned?, spells, letters]

theorem pointAfter_numeric {digits : List Char} (all : ∀ c ∈ digits, c.isDigit = true)
    (left : Int) : ∀ c ∈ pointAfter digits left, isNumeric c = true := by
  have numeric (c : Char) (here : c ∈ digits) : isNumeric c = true := by
    simp [isNumeric, all c here]
  intro c here
  unfold pointAfter at here
  split at here
  · simp only [List.mem_cons, List.mem_append, List.mem_replicate] at here
    rcases here with rfl | rfl | ⟨-, rfl⟩ | here
    all_goals first | rfl | exact numeric c here
  · split at here
    · simp only [List.mem_append, List.mem_replicate] at here
      rcases here with here | ⟨-, rfl⟩
      · exact numeric c here
      · rfl
    · simp only [List.mem_append, List.mem_cons] at here
      rcases here with here | rfl | here
      · exact numeric c (List.mem_of_mem_take here)
      · rfl
      · exact numeric c (List.mem_of_mem_drop here)

theorem pointAfter_head {digits : List Char} (all : ∀ c ∈ digits, c.isDigit = true)
    (nonempty : digits ≠ []) (left : Int) :
    ∃ d rest, pointAfter digits left = d :: rest ∧ d.isDigit = true := by
  obtain ⟨d, digits, rfl⟩ := List.exists_cons_of_ne_nil nonempty
  unfold pointAfter
  split
  · exact ⟨'0', _, rfl, rfl⟩
  · have digit := all d List.mem_cons_self
    split
    · exact ⟨d, _, rfl, digit⟩
    · obtain ⟨n, left⟩ : ∃ n, left.toNat = n + 1 := ⟨left.toNat - 1, by omega⟩
      rw [left]
      exact ⟨d, _, rfl, digit⟩

theorem magnitudeText_numeric (c : Nat) (e : Int) :
    ∀ d ∈ magnitudeText c e, isNumeric d = true := by
  have digits := toDigits_isDigit
  intro d here
  unfold magnitudeText at here
  dsimp only at here
  split at here
  · exact pointAfter_numeric (digits c) _ d here
  · simp only [List.mem_append, List.mem_cons, signedDigits] at here
    rcases here with here | rfl | rfl | here
    · exact pointAfter_numeric (digits c) _ d here
    · rfl
    · split <;> rfl
    · simp [isNumeric, digits _ d here]

theorem magnitudeText_head (c : Nat) (e : Int) :
    ∃ d rest, magnitudeText c e = d :: rest ∧ d.isDigit = true := by
  have digits := toDigits_isDigit c
  have nonempty := Nat.toDigits_ne_nil (b := 10) (n := c)
  unfold magnitudeText
  dsimp only
  split
  · exact pointAfter_head digits nonempty _
  · obtain ⟨d, rest, head, digit⟩ := pointAfter_head digits nonempty 1
    exact ⟨d, _, by rw [head]; rfl, digit⟩

/-- The finite decimals that there are: the powers of ten of the first and the last digit are
bounded. -/
def InRange : Decimal → Prop
  | .finite _ c e => (if c = 0 then e else adjusted c e) ≤ powerLimit ∧ powerFloor ≤ e
  | _ => False

instance InRange.decidable : DecidablePred InRange
  | .finite .. => inferInstanceAs (Decidable (_ ∧ _))
  | .infinite _ => .isFalse id
  | .nan .. => .isFalse id

/-- Reading what was written gives the same decimal back, in the same form. -/
theorem read_toText {d : Decimal} (range : d.InRange) : read? d.toText = some d := by
  cases d with
  | infinite s => cases range
  | nan s g p => cases range
  | finite s c e =>
    obtain ⟨d, rest, head, digit⟩ := magnitudeText_head c e
    have numeric : ∀ k ∈ chars (.finite s c e), isNumeric k = true := by
      intro k here
      rcases List.mem_append.mp here with sign | here
      · cases s <;> simp_all [isNumeric]
      · exact magnitudeText_numeric c e k here
    have split : splitSign (chars (.finite s c e)) = (s, magnitudeText c e) := by
      have unsigned : d ≠ '-' ∧ d ≠ '+' := by
        constructor <;> (rintro rfl; cases digit)
      cases s
      · simp [chars, head, splitSign, unsigned]
      · rfl
    have bounded : ofNumeral? ⟨s, c, e⟩ = some (.finite s c e) := by
      simp [ofNumeral?, range.1, range.2]
    rw [read?, toText, String.toList_ofList, readChars_numeric numeric, split, head,
      readUnsigned_digit digit, ← head, magnitudeText_numeral]
    exact bounded

end Decimal
end Stockroom
