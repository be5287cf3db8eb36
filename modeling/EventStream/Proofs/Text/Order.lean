import EventStream.Proofs.Text.Utf8

/-!
Texts are ordered as their bytes are: of two characters the greater has the greater first byte, or
else the greater digits behind it.
-/

set_option autoImplicit false

namespace EventStream.Utf8

theorem cons_ofNat_lt {m n : Nat} (hm : m < 256) (hn : n < 256) (x y : Bytes) :
    UInt8.ofNat m :: x < UInt8.ofNat n :: y ↔ m < n ∨ m = n ∧ x < y := by
  rw [List.cons_lt_cons_iff, UInt8.lt_iff_toNat_lt, ← UInt8.toNat_inj, ofNat_byte hm,
    ofNat_byte hn]

/-- The greater of two numbers is greater in its higher part, or in its last digit. -/
theorem digits_lt {v w : Nat} (h : v < w) :
    v / 64 < w / 64 ∨ v / 64 = w / 64 ∧ v % 64 < w % 64 := by
  omega

theorem encodeChar_lt {c d : Char} (h : c < d) (x y : Bytes) :
    String.utf8EncodeChar c ++ x < String.utf8EncodeChar d ++ y := by
  have hv : c.val.toNat < d.val.toNat := h
  have hd : d.val.toNat < 0xD800 ∨ 0xDFFF < d.val.toNat ∧ d.val.toNat < 0x110000 := d.valid
  unfold String.utf8EncodeChar
  generalize c.val.toNat = v at hv ⊢
  generalize d.val.toNat = w at hv hd ⊢
  have h₁ := digits_lt hv
  have h₂ : v / 64 < w / 64 → _ := digits_lt
  have h₃ : v / 64 / 64 < w / 64 / 64 → _ := digits_lt
  simp only [Nat.div_div_eq_div_mul, Nat.reduceMul] at h₂ h₃
  simp only
  -- one case for each two lengths of the sequences
  repeat' split
  all_goals
    simp (disch := omega) only [List.cons_append, cons_ofNat_lt, Nat.mod_eq_of_lt]
    omega

theorem encodeChars_lt {a b : List Char} (h : a < b) : encodeChars a < encodeChars b := by
  induction b generalizing a with
  | nil => cases h
  | cons d b ih =>
    have hb : encodeChars (d :: b) = String.utf8EncodeChar d ++ encodeChars b := rfl
    rw [hb]
    cases a with
    | nil =>
      cases hbytes : String.utf8EncodeChar d ++ encodeChars b with
      | nil => exact absurd (List.append_eq_nil_iff.1 hbytes).1 (String.utf8EncodeChar_ne_nil)
      | cons byte rest => exact List.nil_lt_cons byte rest
    | cons c a =>
      have ha : encodeChars (c :: a) = String.utf8EncodeChar c ++ encodeChars a := rfl
      rw [ha]
      rcases List.cons_lt_cons_iff.1 h with hlt | ⟨rfl, hrest⟩
      · exact encodeChar_lt hlt _ _
      · exact List.append_left_lt (ih hrest)

/-- The lesser of two texts has the lesser bytes. -/
theorem encode_lt {a b : String} (h : a < b) : encode a < encode b :=
  encodeChars_lt (String.lt_iff.1 h)

theorem encode_lt_iff {a b : String} : encode a < encode b ↔ a < b := by
  refine ⟨fun h => Decidable.byContradiction fun hge => ?_, encode_lt⟩
  by_cases heq : b = a
  · exact List.lt_irrefl _ (heq ▸ h)
  · exact List.lt_asymm h (encode_lt (Std.lt_of_le_of_ne (String.not_lt.1 hge) heq))

end EventStream.Utf8
