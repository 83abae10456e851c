import Stockroom.Text.Percent

namespace Stockroom.Text

/- Characters -/

theorem toNat_ranges (c : Char) : c.toNat < 0xD800 ∨ 0xDFFF < c.toNat ∧ c.toNat < 0x110000 :=
  c.valid

theorem utf8_byte (c : Char) : ∀ b ∈ utf8 c, b < 0x100 := by
  have ranges := toNat_ranges c
  intro b member
  unfold utf8 at member
  dsimp only at member
  repeat' split at member
  all_goals
    simp only [List.mem_cons, List.not_mem_nil, or_false] at member
    omega

theorem begun_two {n : Nat} (least : 0x80 ≤ n) (most : n < 0x800) :
    begun? (0xC0 + n / 0x40) = some ⟨n / 0x40, 1, 0x80, 0xBF⟩ := by
  have first : (0xC2 ≤ 0xC0 + n / 0x40 && 0xC0 + n / 0x40 ≤ 0xDF) = true := by
    simp only [Bool.and_eq_true, decide_eq_true_eq]
    omega
  rw [begun?, if_pos first, Nat.add_sub_cancel_left]

theorem begun_three {n : Nat} (least : 0x800 ≤ n) (most : n < 0x10000)
    (character : n < 0xD800 ∨ 0xDFFF < n) :
    ∃ low high, begun? (0xE0 + n / 0x1000) = some ⟨n / 0x1000, 2, low, high⟩ ∧
      low ≤ 0x80 + n / 0x40 % 0x40 ∧ 0x80 + n / 0x40 % 0x40 ≤ high := by
  have few : n / 0x1000 < 0x10 := by omega
  generalize third : n / 0x1000 = k at few
  by_cases first : k = 0
  · exact ⟨0xA0, 0xBF, by rw [first]; rfl, by omega, by omega⟩
  by_cases surrogate : k = 0xD
  · exact ⟨0x80, 0x9F, by rw [surrogate]; rfl, by omega, by omega⟩
  · have plain : ∀ k < 0x10, k ≠ 0 → k ≠ 0xD → begun? (0xE0 + k) = some ⟨k, 2, 0x80, 0xBF⟩ := by
      decide
    exact ⟨0x80, 0xBF, plain k few first surrogate, by omega, by omega⟩

theorem begun_four {n : Nat} (least : 0x10000 ≤ n) (most : n < 0x110000) :
    ∃ low high, begun? (0xF0 + n / 0x40000) = some ⟨n / 0x40000, 3, low, high⟩ ∧
      low ≤ 0x80 + n / 0x1000 % 0x40 ∧ 0x80 + n / 0x1000 % 0x40 ≤ high := by
  have few : n / 0x40000 < 5 := by omega
  generalize fourth : n / 0x40000 = k at few
  by_cases first : k = 0
  · exact ⟨0x90, 0xBF, by rw [first]; rfl, by omega, by omega⟩
  by_cases last : k = 4
  · exact ⟨0x80, 0x8F, by rw [last]; rfl, by omega, by omega⟩
  · have plain : ∀ k < 5, k ≠ 0 → k ≠ 4 → begun? (0xF0 + k) = some ⟨k, 3, 0x80, 0xBF⟩ := by
      decide
    exact ⟨0x80, 0xBF, plain k few first last, by omega, by omega⟩

section

variable {b bits owed low high : Nat} {rest : List Nat}

theorem readUtf8After_first {p : Begun} (several : 0x80 ≤ b) (begun : begun? b = some p) :
    readUtf8After none (b :: rest) = readUtf8After (some p) rest := by
  have first : firstByte b = ([], some p) := by
    rw [firstByte, if_neg (by omega), begun]
  rw [readUtf8After, nextByte, first, List.nil_append]

theorem readUtf8After_next (least : low ≤ b) (most : b ≤ high) :
    readUtf8After (some ⟨bits, owed + 2, low, high⟩) (b :: rest) =
      readUtf8After (some ⟨bits * 0x40 + (b - 0x80), owed + 1, 0x80, 0xBF⟩) rest := by
  simp [readUtf8After, nextByte, least, most]

theorem readUtf8After_last (least : low ≤ b) (most : b ≤ high) :
    readUtf8After (some ⟨bits, 1, low, high⟩) (b :: rest) =
      Char.ofNat (bits * 0x40 + (b - 0x80)) :: readUtf8After none rest := by
  simp [readUtf8After, nextByte, least, most]

end

theorem readUtf8After_utf8 (c : Char) (rest : List Nat) :
    readUtf8After none (utf8 c ++ rest) = c :: readUtf8After none rest := by
  have ranges := toNat_ranges c
  have whole {n : Nat} (same : n = c.toNat) : Char.ofNat n = c := by rw [same, Char.ofNat_toNat]
  unfold utf8
  dsimp only
  generalize c.toNat = n at ranges whole
  split
  · rename_i one
    simp only [List.singleton_append]
    rw [readUtf8After, nextByte, firstByte, if_pos one, whole rfl]
    rfl
  split
  · rw [List.cons_append, List.singleton_append,
      readUtf8After_first (by omega) (begun_two (by omega) (by omega)),
      readUtf8After_last (by omega) (by omega), whole (by omega)]
  split
  · obtain ⟨low, high, begun, least, most⟩ :=
      begun_three (n := n) (by omega) (by omega) (by omega)
    rw [List.cons_append, List.cons_append, List.singleton_append,
      readUtf8After_first (by omega) begun, readUtf8After_next least most,
      readUtf8After_last (by omega) (by omega), whole (by omega)]
  · obtain ⟨low, high, begun, least, most⟩ := begun_four (n := n) (by omega) (by omega)
    rw [List.cons_append, List.cons_append, List.cons_append, List.singleton_append,
      readUtf8After_first (by omega) begun, readUtf8After_next least most,
      readUtf8After_next (by omega) (by omega), readUtf8After_last (by omega) (by omega),
      whole (by omega)]

theorem readUtf8_utf8 (cs : List Char) : readUtf8 (cs.flatMap utf8) = cs := by
  unfold readUtf8
  induction cs with
  | nil => rfl
  | cons c cs ih => rw [List.flatMap_cons, readUtf8After_utf8, ih]

/- Escapes -/

theorem hexValue?_digit : ∀ d < 0x10, hexValue? (Nat.digitChar d).toUpper = some d := by decide

theorem digit_unreserved : ∀ d < 0x10, isUnreserved (Nat.digitChar d).toUpper = true := by decide

theorem byteEscape_eq (b : Nat) :
    byteEscape b = ['%', (Nat.digitChar (b / 0x10 % 0x10)).toUpper,
      (Nat.digitChar (b % 0x10)).toUpper] := rfl

theorem percentBytes_byteEscape {b : Nat} (byte : b < 0x100) (rest : List Char) :
    percentBytes 0 (byteEscape b ++ rest) = b :: percentBytes 0 rest := by
  have escaped (high low : Nat) (h : high < 0x10) (l : low < 0x10) :
      escapedByte? ((Nat.digitChar high).toUpper :: (Nat.digitChar low).toUpper :: rest) =
        some (0x10 * high + low) := by
    rw [escapedByte?, hexValue?_digit high h, hexValue?_digit low l]
  rw [byteEscape_eq, List.cons_append, List.cons_append, List.singleton_append, percentBytes,
    if_pos rfl, escaped _ _ (by omega) (by omega)]
  have same : 0x10 * (b / 0x10 % 0x10) + b % 0x10 = b := by omega
  simp only [percentBytes, same]

theorem percentBytes_escapes {bs : List Nat} (bytes : ∀ b ∈ bs, b < 0x100) (rest : List Char) :
    percentBytes 0 (bs.flatMap byteEscape ++ rest) = bs ++ percentBytes 0 rest := by
  induction bs with
  | nil => rfl
  | cons b bs ih =>
    obtain ⟨byte, bytes⟩ := List.forall_mem_cons.mp bytes
    rw [List.flatMap_cons, List.append_assoc, percentBytes_byteEscape byte, ih bytes,
      List.cons_append]

section

variable {keep : Char → Bool}

theorem percentBytes_encoded (escapes : keep '%' = false) (cs rest : List Char) :
    percentBytes 0 (percentEncoded keep cs ++ rest) = cs.flatMap utf8 ++ percentBytes 0 rest := by
  unfold percentEncoded
  induction cs with
  | nil => rfl
  | cons c cs ih =>
    rw [List.flatMap_cons, List.flatMap_cons, List.append_assoc, List.append_assoc, ← ih]
    cases kept : keep c with
    | false =>
      rw [if_neg (by decide)]
      exact percentBytes_escapes (utf8_byte c) _
    | true =>
      have plain : c ≠ '%' := by
        rintro rfl
        rw [escapes] at kept
        cases kept
      rw [if_pos rfl, List.singleton_append, percentBytes, if_neg plain]

theorem percentEncoded_kept {cs : List Char} (kept : ∀ c ∈ cs, keep c = true) :
    percentEncoded keep cs = cs := by
  unfold percentEncoded
  induction cs with
  | nil => rfl
  | cons c cs ih =>
    obtain ⟨first, others⟩ := List.forall_mem_cons.mp kept
    rw [List.flatMap_cons, if_pos first, ih others, List.singleton_append]

theorem percentBytes_plain {cs : List Char} (plain : '%' ∉ cs) (rest : List Char) :
    percentBytes 0 (cs ++ rest) = cs.flatMap utf8 ++ percentBytes 0 rest := by
  have same : percentEncoded (· ≠ '%') cs = cs :=
    percentEncoded_kept fun c member => decide_eq_true fun sign => plain (sign ▸ member)
  have encoded : percentBytes 0 (percentEncoded (· ≠ '%') cs ++ rest) = _ :=
    percentBytes_encoded rfl cs rest
  rwa [same] at encoded

/-- What is escaped between plain texts comes back, and the plain texts stay. -/
theorem percentDecoded_encoded (escapes : keep '%' = false) {before after : List Char}
    (plain : '%' ∉ before) (plain' : '%' ∉ after) (cs : List Char) :
    percentDecoded (before ++ percentEncoded keep cs ++ after) = before ++ cs ++ after := by
  have ending : percentBytes 0 after = after.flatMap utf8 := by
    have whole := percentBytes_plain plain' []
    rwa [List.append_nil, percentBytes, List.append_nil] at whole
  rw [percentDecoded, List.append_assoc, percentBytes_plain plain, percentBytes_encoded escapes,
    ending, ← List.flatMap_append, ← List.flatMap_append, readUtf8_utf8, List.append_assoc]

theorem percentEncoded_chars {cs : List Char} :
    ∀ c ∈ percentEncoded keep cs, keep c = true ∨ c = '%' ∨ isUnreserved c = true := by
  intro c member
  obtain ⟨d, _, spelled⟩ := List.mem_flatMap.mp member
  cases kept : keep d with
  | true =>
    rw [kept, if_pos rfl, List.mem_singleton] at spelled
    exact .inl (spelled ▸ kept)
  | false =>
    rw [kept, if_neg (by decide)] at spelled
    obtain ⟨b, _, escape⟩ := List.mem_flatMap.mp spelled
    simp only [byteEscape_eq, List.mem_cons, List.not_mem_nil, or_false] at escape
    rcases escape with rfl | rfl | rfl
    · exact .inr (.inl rfl)
    · exact .inr (.inr (digit_unreserved _ (by omega)))
    · exact .inr (.inr (digit_unreserved _ (by omega)))

end

end Stockroom.Text
