import EventStream.Proofs.Text.Utf8

/-!
Strict decoding accepts the bytes of texts and no others: where every piece is a character, the
characters are encoded as the bytes that they were read from.
-/

set_option autoImplicit false

namespace EventStream.Utf8

def IsText (bytes : Bytes) : Prop :=
  ∃ text, bytes = encode text

theorem toNat_ofNat {n : Nat} (h : n < 0xD800 ∨ 0xDFFF < n ∧ n < 0x110000) :
    (Char.ofNat n).val.toNat = n := by
  have hv : n.isValidChar := h
  rw [Char.ofNat, dif_pos hv]
  rfl

theorem ofNat_eq_byte {n : Nat} {b : UInt8} (h : n = b.toNat) : UInt8.ofNat n = b := by
  rw [h, UInt8.ofNat_toNat]

/-- What the range of a first byte tells of it, and of the second byte where there is one. -/
inductive Leads (a lo hi : Nat) : Nat → Prop where
  | two (h : 0xC2 ≤ a) (h' : a ≤ 0xDF) (hlo : lo = 0x80) (hhi : hi = 0xBF) : Leads a lo hi 1
  | three (h : 0xE0 ≤ a) (h' : a ≤ 0xEF) (hlo : 0x80 ≤ lo) (hhi : hi ≤ 0xBF)
    (hE0 : a = 0xE0 → lo = 0xA0) (hED : a = 0xED → hi = 0x9F) : Leads a lo hi 2
  | four (h : 0xF0 ≤ a) (h' : a ≤ 0xF4) (hlo : 0x80 ≤ lo) (hhi : hi ≤ 0xBF)
    (hF0 : a = 0xF0 → lo = 0x90) (hF4 : a = 0xF4 → hi = 0x8F) : Leads a lo hi 3

theorem leads_of_lead? {a lo hi : UInt8} {more : Nat} (h : lead? a = some ⟨lo, hi, more⟩) :
    Leads a.toNat lo.toNat hi.toNat more := by
  simp only [lead?, UInt8.lt_iff_toNat_lt, UInt8.le_iff_toNat_le, ← UInt8.toNat_inj,
    UInt8.reduceToNat] at h
  -- one case for each range of first bytes
  repeat' split at h
  all_goals cases h
  · exact .two (by omega) (by omega) rfl rfl
  · exact .three (by omega) (by omega) (by decide) (by decide) (fun _ => rfl) (by omega)
  · exact .three (by omega) (by omega) (by decide) (by decide) (by omega) (fun _ => rfl)
  · exact .three (by omega) (by omega) (by decide) (by decide) (by omega) (by omega)
  · exact .four (by omega) (by omega) (by decide) (by decide) (fun _ => rfl) (by omega)
  · exact .four (by omega) (by omega) (by decide) (by decide) (by omega) (by omega)
  · exact .four (by omega) (by omega) (by decide) (by decide) (by omega) (fun _ => rfl)

section sequences

variable {a b c d lo hi : UInt8}

theorem inside {b lo hi : UInt8} (h : ¬ (b < lo || hi < b) = true) :
    lo.toNat ≤ b.toNat ∧ b.toNat ≤ hi.toNat := by
  simp only [Bool.or_eq_true, decide_eq_true_eq, not_or, UInt8.not_lt,
    UInt8.le_iff_toNat_le] at h
  exact h

theorem encode_one (ha : a < 0x80) : String.utf8EncodeChar (Char.ofNat a.toNat) = [a] := by
  have ha : a.toNat < 0x80 := UInt8.lt_iff_toNat_lt.1 ha
  simp only [String.utf8EncodeChar, toNat_ofNat (show a.toNat < 0xD800 ∨ _ by omega)]
  rw [if_pos (by omega), UInt8.ofNat_toNat]

theorem encode_two (ha : lead? a = some ⟨lo, hi, 1⟩) (hb : ¬ (b < lo || hi < b) = true) :
    String.utf8EncodeChar (Char.ofNat (gather (a.toNat % 32) b)) = [a, b] := by
  obtain ⟨hblo, hbhi⟩ := inside hb
  cases leads_of_lead? ha with
  | two h h' hlo hhi =>
    have hv : gather (a.toNat % 32) b = (a.toNat - 0xC0) * 64 + (b.toNat - 0x80) := by
      rw [gather]
      omega
    rw [hv]
    simp only [String.utf8EncodeChar,
      toNat_ofNat (show (a.toNat - 0xC0) * 64 + (b.toNat - 0x80) < 0xD800 ∨ _ by omega)]
    rw [if_neg (by omega), if_pos (by omega), ofNat_eq_byte (b := a) (by omega),
      ofNat_eq_byte (b := b) (by omega)]

theorem encode_three (ha : lead? a = some ⟨lo, hi, 2⟩) (hb : ¬ (b < lo || hi < b) = true)
    (hc : isContinuation c = true) :
    String.utf8EncodeChar (Char.ofNat (gather (gather (a.toNat % 16) b) c)) = [a, b, c] := by
  obtain ⟨hblo, hbhi⟩ := inside hb
  obtain ⟨hclo, hchi⟩ := isContinuation_iff.1 hc
  cases leads_of_lead? ha with
  | three h h' hlo hhi hE0 hED =>
    have hv : gather (gather (a.toNat % 16) b) c =
        (a.toNat - 0xE0) * 4096 + (b.toNat - 0x80) * 64 + (c.toNat - 0x80) := by
      rw [gather, gather]
      omega
    rw [hv]
    simp only [String.utf8EncodeChar,
      toNat_ofNat (show
        (a.toNat - 0xE0) * 4096 + (b.toNat - 0x80) * 64 + (c.toNat - 0x80) < 0xD800 ∨ _ by omega)]
    rw [if_neg (by omega), if_neg (by omega), if_pos (by omega),
      ofNat_eq_byte (b := a) (by omega), ofNat_eq_byte (b := b) (by omega),
      ofNat_eq_byte (b := c) (by omega)]

theorem encode_four (ha : lead? a = some ⟨lo, hi, 3⟩) (hb : ¬ (b < lo || hi < b) = true)
    (hc : isContinuation c = true) (hd : isContinuation d = true) :
    String.utf8EncodeChar (Char.ofNat (gather (gather (gather (a.toNat % 8) b) c) d)) =
      [a, b, c, d] := by
  obtain ⟨hblo, hbhi⟩ := inside hb
  obtain ⟨hclo, hchi⟩ := isContinuation_iff.1 hc
  obtain ⟨hdlo, hdhi⟩ := isContinuation_iff.1 hd
  cases leads_of_lead? ha with
  | four h h' hlo hhi hF0 hF4 =>
    have hv : gather (gather (gather (a.toNat % 8) b) c) d = (a.toNat - 0xF0) * 262144 +
        (b.toNat - 0x80) * 4096 + (c.toNat - 0x80) * 64 + (d.toNat - 0x80) := by
      rw [gather, gather, gather]
      omega
    rw [hv]
    simp only [String.utf8EncodeChar,
      toNat_ofNat (show
        (a.toNat - 0xF0) * 262144 + (b.toNat - 0x80) * 4096 + (c.toNat - 0x80) * 64 +
          (d.toNat - 0x80) < 0xD800 ∨ _ by omega)]
    rw [if_neg (by omega), if_neg (by omega), if_neg (by omega),
      ofNat_eq_byte (b := a) (by omega), ofNat_eq_byte (b := b) (by omega),
      ofNat_eq_byte (b := c) (by omega), ofNat_eq_byte (b := d) (by omega)]

end sequences

theorem mem_piecesFrom {found : List Piece} {piece : Piece} (h : piece ∈ found) (bytes : Bytes) :
    piece ∈ piecesFrom found bytes := by
  fun_induction piecesFrom found bytes <;> grind

def Piece.isChar : Piece → Bool
  | .char _ => true
  | _ => false

theorem firstFault_eq_none {offset : Nat} {pieces : List Piece}
    (h : firstFault offset pieces = none) : ∀ piece ∈ pieces, piece.isChar = true := by
  induction pieces generalizing offset with
  | nil => simp
  | cons piece rest ih =>
    cases piece with
    | char c => exact List.forall_mem_cons.2 ⟨rfl, ih h⟩
    | broken | cut => cases h

theorem encodeChars_push (found : List Piece) (c : Char) (rest : Bytes) :
    encodeChars ((Piece.char c :: found).reverse.map Piece.shown) ++ rest =
      encodeChars (found.reverse.map Piece.shown) ++ (String.utf8EncodeChar c ++ rest) := by
  simp only [encodeChars, List.reverse_cons, List.map_append, List.flatMap_append,
    List.append_assoc, List.map_cons, List.map_nil, List.flatMap_cons, List.flatMap_nil,
    List.append_nil, Piece.shown]

/-- Pieces that are all characters are encoded as the bytes that were cut. -/
theorem encodeChars_piecesFrom {found : List Piece} {bytes : Bytes}
    (h : ∀ piece ∈ piecesFrom found bytes, piece.isChar = true) :
    encodeChars ((piecesFrom found bytes).map Piece.shown) =
      encodeChars (found.reverse.map Piece.shown) ++ bytes := by
  have hbroken : ∀ {found : List Piece} {bytes : Bytes} {length : Nat},
      ¬ ∀ piece ∈ piecesFrom (.broken length :: found) bytes, piece.isChar = true :=
    fun h => Bool.false_ne_true (h _ (mem_piecesFrom List.mem_cons_self _))
  have hcut : ∀ {found : List Piece} {length : Nat},
      ¬ ∀ piece ∈ (Piece.cut length :: found).reverse, piece.isChar = true :=
    fun h => Bool.false_ne_true (h _ (List.mem_reverse.2 List.mem_cons_self))
  fun_induction piecesFrom found bytes with
  | case1 => rw [List.append_nil]
  | case2 found a rest ha ih => rw [ih h, encodeChars_push, encode_one ha, List.singleton_append]
  | case6 found a _ lo hi b rest hb ha ih =>
    rw [ih h, encodeChars_push, encode_two ha hb]
    rfl
  | case9 found a _ lo hi b hb c rest hc ha _ ih =>
    rw [ih h, encodeChars_push, encode_three ha hb (by simpa using hc)]
    rfl
  | case12 found a _ lo hi more ha b hb hone c hc htwo d rest hd ih =>
    have hmore : more = 3 := by
      cases leads_of_lead? ha with
      | two => exact absurd rfl hone
      | three => exact absurd rfl htwo
      | four => rfl
    subst hmore
    rw [ih h, encodeChars_push, encode_four ha hb (by simpa using hc) (by simpa using hd)]
    rfl
  | case3 | case5 | case8 | case11 => exact absurd h hbroken
  | case4 | case7 | case10 => exact absurd h hcut

/-- Bytes are decoded to a text if and only if they are its encoding. -/
theorem decode_eq_ok_iff {bytes : Bytes} {text : String} :
    decode bytes = .ok text ↔ bytes = encode text := by
  refine ⟨fun h => ?_, fun h => h ▸ decode_encode text⟩
  rw [decode] at h
  split at h
  · next hfault =>
    have hchars := encodeChars_piecesFrom (firstFault_eq_none hfault)
    rw [decodeLossy] at h
    rw [← Except.ok.inj h, encode, String.toList_ofList]
    exact hchars.symm
  · cases h

end EventStream.Utf8
