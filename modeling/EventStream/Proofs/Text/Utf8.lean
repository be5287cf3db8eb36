import EventStream.Text.Utf8

/-!
What was written as UTF-8 is read back, strictly and lossily alike: every character is one piece.
-/

set_option autoImplicit false

namespace EventStream.Utf8

theorem lead?_two {a b : UInt8} (h : 0xC2 ≤ a.toNat) (h' : a.toNat ≤ 0xDF)
    (hb : 0x80 ≤ b.toNat) (hb' : b.toNat ≤ 0xBF) :
    ∃ lo hi, lead? a = some ⟨lo, hi, 1⟩ ∧ ¬ b < lo ∧ ¬ hi < b := by
  simp only [lead?, UInt8.lt_iff_toNat_lt, UInt8.le_iff_toNat_le, UInt8.reduceToNat]
  rw [if_neg (by omega), if_pos h']
  exact ⟨_, _, rfl, Nat.not_lt.2 hb, Nat.not_lt.2 hb'⟩

/-- The second byte of three excludes overlong forms and surrogates. -/
theorem lead?_three {a b : UInt8} (h : 0xE0 ≤ a.toNat) (h' : a.toNat ≤ 0xEF)
    (hb : 0x80 ≤ b.toNat) (hb' : b.toNat ≤ 0xBF) (hE0 : a.toNat = 0xE0 → 0xA0 ≤ b.toNat)
    (hED : a.toNat = 0xED → b.toNat ≤ 0x9F) :
    ∃ lo hi, lead? a = some ⟨lo, hi, 2⟩ ∧ ¬ b < lo ∧ ¬ hi < b := by
  simp only [lead?, UInt8.lt_iff_toNat_lt, UInt8.le_iff_toNat_le, ← UInt8.toNat_inj,
    UInt8.reduceToNat]
  rw [if_neg (by omega), if_neg (by omega)]
  by_cases h₀ : a.toNat = 0xE0
  · rw [if_pos h₀]
    exact ⟨_, _, rfl, Nat.not_lt.2 (hE0 h₀), Nat.not_lt.2 hb'⟩
  · rw [if_neg h₀]
    by_cases hD : a.toNat = 0xED
    · rw [if_pos hD]
      exact ⟨_, _, rfl, Nat.not_lt.2 hb, Nat.not_lt.2 (hED hD)⟩
    · rw [if_neg hD, if_pos h']
      exact ⟨_, _, rfl, Nat.not_lt.2 hb, Nat.not_lt.2 hb'⟩

/-- The second byte of four excludes overlong forms and values that are no code points. -/
theorem lead?_four {a b : UInt8} (h : 0xF0 ≤ a.toNat) (h' : a.toNat ≤ 0xF4)
    (hb : 0x80 ≤ b.toNat) (hb' : b.toNat ≤ 0xBF) (hF0 : a.toNat = 0xF0 → 0x90 ≤ b.toNat)
    (hF4 : a.toNat = 0xF4 → b.toNat ≤ 0x8F) :
    ∃ lo hi, lead? a = some ⟨lo, hi, 3⟩ ∧ ¬ b < lo ∧ ¬ hi < b := by
  simp only [lead?, UInt8.lt_iff_toNat_lt, UInt8.le_iff_toNat_le, ← UInt8.toNat_inj,
    UInt8.reduceToNat]
  rw [if_neg (by omega), if_neg (by omega), if_neg (by omega), if_neg (by omega),
    if_neg (by omega)]
  by_cases h₀ : a.toNat = 0xF0
  · rw [if_pos h₀]
    exact ⟨_, _, rfl, Nat.not_lt.2 (hF0 h₀), Nat.not_lt.2 hb'⟩
  · rw [if_neg h₀]
    by_cases h₄ : a.toNat = 0xF4
    · rw [if_neg (by omega), if_pos h₄]
      exact ⟨_, _, rfl, Nat.not_lt.2 hb, Nat.not_lt.2 (hF4 h₄)⟩
    · rw [if_pos (by omega)]
      exact ⟨_, _, rfl, Nat.not_lt.2 hb, Nat.not_lt.2 hb'⟩

theorem isContinuation_iff {b : UInt8} :
    isContinuation b = true ↔ 0x80 ≤ b.toNat ∧ b.toNat ≤ 0xBF := by
  simp [isContinuation, UInt8.le_iff_toNat_le]

theorem gather_ofNat (high v : Nat) : gather high (UInt8.ofNat (v % 64 + 0x80)) = high * 64 + v % 64 := by
  have hb : (UInt8.ofNat (v % 64 + 0x80)).toNat = v % 64 + 0x80 := by
    rw [UInt8.toNat_ofNat']
    omega
  rw [gather, hb]
  omega

theorem ofNat_byte {n : Nat} (h : n < 256) : (UInt8.ofNat n).toNat = n := by
  rw [UInt8.toNat_ofNat']
  exact Nat.mod_eq_of_lt h

theorem not_ascii {a : UInt8} (h : 0x80 ≤ a.toNat) : ¬ a < 0x80 := by
  rw [UInt8.lt_iff_toNat_lt]
  exact Nat.not_lt.2 h

theorem not_outside {b lo hi : UInt8} (hlo : ¬ b < lo) (hhi : ¬ hi < b) :
    ¬ (b < lo || hi < b) = true := by
  simp only [Bool.or_eq_true, decide_eq_true_eq, not_or]
  exact ⟨hlo, hhi⟩

section pieces

variable (found : List Piece) (rest : Bytes) {a b c d : UInt8}

theorem piecesFrom_two (h : 0xC2 ≤ a.toNat) (h' : a.toNat ≤ 0xDF) (hb : 0x80 ≤ b.toNat)
    (hb' : b.toNat ≤ 0xBF) :
    piecesFrom found (a :: b :: rest) =
      piecesFrom (.char (Char.ofNat (gather (a.toNat % 32) b)) :: found) rest := by
  obtain ⟨lo, hi, hl, hlo, hhi⟩ := lead?_two h h' hb hb'
  rw [piecesFrom, if_neg (not_ascii (by omega)), hl]
  simp only
  rw [if_neg (not_outside hlo hhi), if_pos trivial]

theorem piecesFrom_three (h : 0xE0 ≤ a.toNat) (h' : a.toNat ≤ 0xEF) (hb : 0x80 ≤ b.toNat)
    (hb' : b.toNat ≤ 0xBF) (hE0 : a.toNat = 0xE0 → 0xA0 ≤ b.toNat)
    (hED : a.toNat = 0xED → b.toNat ≤ 0x9F) (hc : isContinuation c = true) :
    piecesFrom found (a :: b :: c :: rest) =
      piecesFrom (.char (Char.ofNat (gather (gather (a.toNat % 16) b) c)) :: found) rest := by
  obtain ⟨lo, hi, hl, hlo, hhi⟩ := lead?_three h h' hb hb' hE0 hED
  rw [piecesFrom, if_neg (not_ascii (by omega)), hl]
  simp only
  rw [if_neg (not_outside hlo hhi), if_neg (by decide), if_neg (by simp [hc]), if_pos trivial]

theorem piecesFrom_four (h : 0xF0 ≤ a.toNat) (h' : a.toNat ≤ 0xF4) (hb : 0x80 ≤ b.toNat)
    (hb' : b.toNat ≤ 0xBF) (hF0 : a.toNat = 0xF0 → 0x90 ≤ b.toNat)
    (hF4 : a.toNat = 0xF4 → b.toNat ≤ 0x8F) (hc : isContinuation c = true)
    (hd : isContinuation d = true) :
    piecesFrom found (a :: b :: c :: d :: rest) =
      piecesFrom (.char (Char.ofNat (gather (gather (gather (a.toNat % 8) b) c) d)) :: found)
        rest := by
  obtain ⟨lo, hi, hl, hlo, hhi⟩ := lead?_four h h' hb hb' hF0 hF4
  rw [piecesFrom, if_neg (not_ascii (by omega)), hl]
  simp only
  rw [if_neg (not_outside hlo hhi), if_neg (by decide), if_neg (by simp [hc]),
    if_neg (by decide), if_neg (by simp [hd])]

end pieces

theorem tail_byte (v : Nat) : (UInt8.ofNat (v % 64 + 0x80)).toNat = v % 64 + 0x80 :=
  ofNat_byte (by omega)

theorem isContinuation_tail (v : Nat) : isContinuation (UInt8.ofNat (v % 64 + 0x80)) = true := by
  rw [isContinuation_iff, tail_byte]
  omega

/-- A character at the front is one piece. -/
theorem piecesFrom_encodeChar (found : List Piece) (c : Char) (rest : Bytes) :
    piecesFrom found (String.utf8EncodeChar c ++ rest) = piecesFrom (.char c :: found) rest := by
  have hc : Char.ofNat c.val.toNat = c := Char.ofNat_toNat c
  have valid : c.val.toNat < 0xD800 ∨ 0xDFFF < c.val.toNat ∧ c.val.toNat < 0x110000 := c.valid
  generalize hv : c.val.toNat = v at hc valid
  unfold String.utf8EncodeChar
  simp only [hv]
  -- one case for each length of the sequence
  by_cases h₁ : v ≤ 0x7F
  · have ha : UInt8.ofNat v < 0x80 := by
      rw [UInt8.lt_iff_toNat_lt, ofNat_byte (by omega)]
      exact Nat.lt_succ_of_le h₁
    rw [if_pos h₁, List.cons_append, List.nil_append, piecesFrom, if_pos ha,
      ofNat_byte (by omega), hc]
  rw [if_neg h₁]
  by_cases h₂ : v ≤ 0x7FF
  · have ha : (UInt8.ofNat (v / 64 % 32 + 0xC0)).toNat = v / 64 + 0xC0 := by
      rw [ofNat_byte (by omega)]
      omega
    have hb := tail_byte v
    rw [if_pos h₂, List.cons_append, List.cons_append, List.nil_append,
      piecesFrom_two _ _ (by omega) (by omega) (by omega) (by omega), gather_ofNat, ha]
    have : (v / 64 + 0xC0) % 32 * 64 + v % 64 = v := by omega
    rw [this, hc]
  rw [if_neg h₂]
  by_cases h₃ : v ≤ 0xFFFF
  · have ha : (UInt8.ofNat (v / 4096 % 16 + 0xE0)).toNat = v / 4096 + 0xE0 := by
      rw [ofNat_byte (by omega)]
      omega
    have hb := tail_byte (v / 64)
    rw [if_pos h₃, List.cons_append, List.cons_append, List.cons_append, List.nil_append,
      piecesFrom_three _ _ (by omega) (by omega) (by omega) (by omega) (by omega) (by omega)
        (isContinuation_tail v), gather_ofNat, gather_ofNat, ha]
    have : ((v / 4096 + 0xE0) % 16 * 64 + v / 64 % 64) * 64 + v % 64 = v := by omega
    rw [this, hc]
  rw [if_neg h₃]
  have ha : (UInt8.ofNat (v / 262144 % 8 + 0xF0)).toNat = v / 262144 + 0xF0 := by
    rw [ofNat_byte (by omega)]
    omega
  have hb := tail_byte (v / 4096)
  rw [List.cons_append, List.cons_append, List.cons_append, List.cons_append, List.nil_append,
    piecesFrom_four _ _ (by omega) (by omega) (by omega) (by omega) (by omega) (by omega)
      (isContinuation_tail (v / 64)) (isContinuation_tail v), gather_ofNat, gather_ofNat,
    gather_ofNat, ha]
  have : (((v / 262144 + 0xF0) % 8 * 64 + v / 4096 % 64) * 64 + v / 64 % 64) * 64 + v % 64 = v := by
    omega
  rw [this, hc]

theorem piecesFrom_encodeChars (found : List Piece) (chars : List Char) :
    piecesFrom found (encodeChars chars) = found.reverse ++ chars.map Piece.char := by
  induction chars generalizing found with
  | nil => simp [encodeChars, piecesFrom]
  | cons c chars ih =>
    have hc : encodeChars (c :: chars) = String.utf8EncodeChar c ++ encodeChars chars := rfl
    rw [hc, piecesFrom_encodeChar, ih, List.reverse_cons, List.append_assoc]
    rfl

theorem pieces_encode (text : String) : pieces (encode text) = text.toList.map Piece.char := by
  rw [pieces, encode, piecesFrom_encodeChars, List.reverse_nil, List.nil_append]

theorem firstFault_chars (offset : Nat) (chars : List Char) :
    firstFault offset (chars.map Piece.char) = none := by
  induction chars generalizing offset with
  | nil => rfl
  | cons c chars ih => exact ih (offset + c.utf8Size)

theorem decodeLossy_encode (text : String) : decodeLossy (encode text) = text := by
  have hs : Piece.shown ∘ Piece.char = id := rfl
  rw [decodeLossy, pieces_encode, List.map_map, hs, List.map_id, String.ofList_toList]

/-- Strict decoding gives an encoded text back. -/
theorem decode_encode (text : String) : decode (encode text) = .ok text := by
  rw [decode, pieces_encode, firstFault_chars]
  exact congrArg Except.ok (decodeLossy_encode text)

theorem encode_length (text : String) : (encode text).length = text.utf8ByteSize := by
  have hs : text.utf8ByteSize = (String.ofList text.toList).toByteArray.size := by
    rw [String.ofList_toList, String.size_toByteArray]
  rw [hs, String.toByteArray_ofList, List.utf8Encode, List.size_toByteArray]
  rfl

end EventStream.Utf8
