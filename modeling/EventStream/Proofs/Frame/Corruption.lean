import EventStream.Proofs.Checksum
import EventStream.Proofs.Frame.RoundTrip

/-!
A reader that compares checksums notices damage within four consecutive bytes of a frame. Damage to
the lengths or to their checksum shows in the prelude, before anything is waited for; any other
damage shows once the frame is whole, and then the lengths tell where the next frame begins.
-/

set_option autoImplicit false

namespace EventStream.Frame

/-- Bytes of which some have been altered, all of them among the `count` from offset `first` on. -/
structure Altered (bytes altered : Bytes) (first count : Nat) : Prop where
  length_eq : altered.length = bytes.length
  changed : altered ≠ bytes
  confined : ∀ i, altered[i]? ≠ bytes[i]? → first ≤ i ∧ i < first + count

/-- A checksum over the bytes from `start` to `stop` stands behind them, and is right. -/
def Checks (start stop : Nat) (bytes : Bytes) : Prop :=
  UInt32.ofNat (ofBigEndian (slice stop (stop + checksumLength) bytes)) = crc32 (slice start stop bytes)

section altered

variable {bytes altered : Bytes} {first count start stop : Nat}

theorem Altered.slice_eq (h : Altered bytes altered first count)
    (hs : stop ≤ first ∨ first + count ≤ start) :
    slice start stop altered = slice start stop bytes := by
  apply List.ext_getElem?
  intro i
  rw [getElem?_slice, getElem?_slice]
  split
  · by_contra hne
    have hc := h.confined _ hne
    omega
  · rfl

theorem Altered.slice_ne (h : Altered bytes altered first count) (hstart : start ≤ first)
    (hstop : first + count ≤ stop) : slice start stop altered ≠ slice start stop bytes := by
  intro heq
  apply h.changed
  apply List.ext_getElem?
  intro i
  by_contra hne
  have hc := h.confined i hne
  have hi := congrArg (·[i - start]?) heq
  simp only [getElem?_slice] at hi
  rw [if_pos (by omega), if_pos (by omega), Nat.add_sub_cancel' (by omega)] at hi
  exact hne hi

theorem Altered.slice_length (h : Altered bytes altered first count) :
    (slice start stop altered).length = (slice start stop bytes).length := by
  simp only [slice, List.length_take, List.length_drop, h.length_eq]

theorem Altered.crc32_ne (h : Altered bytes altered first count) (hcount : count ≤ 4)
    (hstart : start ≤ first) (hstop : first + count ≤ stop) :
    crc32 (slice start stop altered) ≠ crc32 (slice start stop bytes) := by
  have hsplit : ∀ whole : Bytes, slice start stop whole =
      slice start first whole ++ slice first (first + count) whole ++
        slice (first + count) stop whole := by
    intro whole
    rw [slice_append_slice hstart (by omega), slice_append_slice (by omega) hstop]
  intro heq
  rw [hsplit altered, hsplit bytes, h.slice_eq (Or.inl (Nat.le_refl _)),
    h.slice_eq (Or.inr (Nat.le_refl _))] at heq
  apply h.slice_ne (Nat.le_refl first) (Nat.le_refl _)
  apply eq_of_crc32_eq h.slice_length _ heq
  have hl := slice_length_le first (first + count) altered
  omega

theorem Altered.stored_ne (h : Altered bytes altered first count) (hstart : stop ≤ first)
    (hstop : first + count ≤ stop + checksumLength) :
    UInt32.ofNat (ofBigEndian (slice stop (stop + checksumLength) altered)) ≠
      UInt32.ofNat (ofBigEndian (slice stop (stop + checksumLength) bytes)) := by
  have hlt : ∀ whole : Bytes, ofBigEndian (slice stop (stop + checksumLength) whole) < 2 ^ 32 := by
    intro whole
    have hdigits := ofBigEndian_lt (slice stop (stop + checksumLength) whole)
    have hpow : 256 ^ (slice stop (stop + checksumLength) whole).length ≤ 256 ^ 4 := by
      have hl := slice_length_le stop (stop + checksumLength) whole
      rw [Nat.add_sub_cancel_left] at hl
      exact Nat.pow_le_pow_right (by omega) hl
    omega
  intro heq
  apply h.slice_ne hstart hstop
  apply ofBigEndian_inj h.slice_length
  have hnat := congrArg UInt32.toNat heq
  rwa [UInt32.toNat_ofNat', UInt32.toNat_ofNat', Nat.mod_eq_of_lt (hlt altered),
    Nat.mod_eq_of_lt (hlt bytes)] at hnat

/-- A right checksum is wrong after an alteration of what it covers, or of itself. -/
theorem Altered.not_checks (h : Altered bytes altered first count) (hcount : count ≤ 4)
    (hchecks : Checks start stop bytes)
    (hplace : (start ≤ first ∧ first + count ≤ stop) ∨
      (stop ≤ first ∧ first + count ≤ stop + checksumLength)) :
    ¬ Checks start stop altered := by
  intro haltered
  rcases hplace with ⟨hstart, hstop⟩ | ⟨hstart, hstop⟩
  · apply h.crc32_ne hcount hstart hstop
    rw [← hchecks, ← haltered, h.slice_eq (Or.inr hstop)]
  · apply h.stored_ne hstart hstop
    rw [hchecks, haltered, h.slice_eq (Or.inl hstart)]

end altered

section strict

variable {config : Config} {bytes altered : Bytes} {prelude : Prelude} {frame : Frame}
  {first count start stop : Nat}

theorem checks_of_error?_eq_none (hstrict : config.verifyChecksums = true)
    (hread : Prelude.read? bytes = some prelude) (h : prelude.error? config bytes = none) :
    Checks 0 8 bytes := by
  have hstored : UInt32.ofNat (ofBigEndian (slice 8 12 bytes)) = prelude.checksum := by
    rw [Prelude.read?_of_length (Prelude.read?_length hread)] at hread
    cases hread
    rfl
  unfold Prelude.error? at h
  split at h
  · cases h
  · split at h
    · cases h
    · simp only [ite_eq_left_iff, reduceCtorEq, imp_false, not_not] at h
      exact hstored.trans h.symm

theorem messageError?_eq_none_iff (hstrict : config.verifyChecksums = true) {total : Nat}
    (ht : checksumLength ≤ total) (wire : Bytes) :
    messageError? config total wire = none ↔ Checks 0 (total - checksumLength) wire := by
  rw [Checks, Nat.sub_add_cancel ht, messageError?, if_pos hstrict]
  simp only [ite_eq_left_iff, reduceCtorEq, imp_false, not_not]
  exact eq_comm

/-- A prelude with a wrong checksum is an error whatever its lengths say. -/
theorem decode_of_not_checks (hstrict : config.verifyChecksums = true)
    (hl : preludeLength ≤ bytes.length) (h : ¬ Checks 0 8 bytes) :
    ∃ error, decode config bytes = .error error := by
  obtain ⟨prelude, hread⟩ := Prelude.exists_read? hl
  cases he : prelude.error? config bytes with
  | none => exact absurd (checks_of_error?_eq_none hstrict hread he) h
  | some error => exact ⟨error, decode_of_prelude_error hread he⟩

/-- Behind a sound prelude, a wrong checksum at the end of the frame is an error. -/
theorem decode_of_not_checks_message (hstrict : config.verifyChecksums = true)
    (hread : Prelude.read? bytes = some prelude) (hsound : prelude.error? config bytes = none)
    (hl : prelude.totalLength = bytes.length)
    (h : ¬ Checks 0 (bytes.length - checksumLength) bytes) :
    ∃ error, decode config bytes = .error error := by
  have htotal : checksumLength ≤ bytes.length := by
    have hle := Prelude.overhead_le hsound
    rw [overhead] at hle
    omega
  have hne : messageError? config bytes.length bytes ≠ none := by
    rw [Ne, messageError?_eq_none_iff hstrict htotal]
    exact h
  obtain ⟨error, he⟩ := Option.ne_none_iff_exists'.1 hne
  refine ⟨error, ?_⟩
  rw [decode_of_whole hread hsound (Nat.le_of_eq hl), hl, List.take_length, he]

/-- Where the first lengths and their checksum are the same, so is the prelude and what is wrong
with it. -/
theorem Altered.prelude_eq (h : Altered bytes altered first count) (hfirst : preludeLength ≤ first)
    (hl : preludeLength ≤ bytes.length) :
    Prelude.read? altered = Prelude.read? bytes ∧
      prelude.error? config altered = prelude.error? config bytes := by
  have hfront : ∀ {start stop : Nat}, stop ≤ preludeLength →
      slice start stop altered = slice start stop bytes := by
    intro start stop hstop
    exact h.slice_eq (Or.inl (Nat.le_trans hstop hfirst))
  constructor
  · rw [Prelude.read?_of_length (h.length_eq ▸ hl), Prelude.read?_of_length hl, declaredLength,
      hfront (by decide), hfront (by decide), hfront (by decide)]
    rfl
  · rw [Prelude.error?, Prelude.error?, hfront (by decide)]

/-- The parts of a frame: its lengths, their checksum, its contents, and the checksum of them all. -/
def regions (total : Nat) : List (Nat × Nat) :=
  [(0, 8), (8, preludeLength), (preludeLength, total - checksumLength),
    (total - checksumLength, total)]

/-- If a whole frame is read where checksums are compared, an error is read after any alteration
within four bytes of one of its parts. -/
theorem Altered.decode_error (h : Altered bytes altered first count) (hcount : count ≤ 4)
    (hregion : (start, stop) ∈ regions bytes.length) (hstart : start ≤ first)
    (hstop : first + count ≤ stop) (hstrict : config.verifyChecksums = true)
    (hdecode : decode config bytes = .ok (some frame)) (hl : frame.totalLength = bytes.length) :
    ∃ error, decode config altered = .error error := by
  obtain ⟨prelude, hread, hsound, -, hmessage, hframe⟩ := decode_frame_inv hdecode
  have htotal : prelude.totalLength = bytes.length := by rw [← ofWire_totalLength hframe, hl]
  have hle := Prelude.overhead_le hsound
  rw [htotal, overhead] at hle
  have hprelude : Checks 0 8 bytes := checks_of_error?_eq_none hstrict hread hsound
  have hwhole : Checks 0 (bytes.length - checksumLength) bytes := by
    rw [htotal, List.take_length] at hmessage
    exact (messageError?_eq_none_iff hstrict (by omega) bytes).1 hmessage
  -- The reader still waits for the same length, so the checksum at the end is all it can go by.
  have hbehind : preludeLength ≤ start → ¬ Checks 0 (bytes.length - checksumLength) altered →
      ∃ error, decode config altered = .error error := by
    intro hfirst hnot
    obtain ⟨hsame, hsame'⟩ := h.prelude_eq (Nat.le_trans hfirst hstart) (by omega)
    rw [← h.length_eq] at hnot htotal
    exact decode_of_not_checks_message hstrict (hsame.trans hread) (hsame'.trans hsound) htotal hnot
  simp only [regions, List.mem_cons, List.not_mem_nil, or_false, Prod.mk.injEq] at hregion
  have hl' := h.length_eq
  rcases hregion with ⟨rfl, rfl⟩ | ⟨rfl, rfl⟩ | ⟨rfl, rfl⟩ | ⟨rfl, rfl⟩
  · exact decode_of_not_checks hstrict (by omega)
      (h.not_checks hcount hprelude (Or.inl ⟨hstart, hstop⟩))
  · exact decode_of_not_checks hstrict (by omega)
      (h.not_checks hcount hprelude (Or.inr ⟨hstart, hstop⟩))
  · exact hbehind (Nat.le_refl _) (h.not_checks hcount hwhole (Or.inl ⟨Nat.zero_le _, hstop⟩))
  · exact hbehind (by omega) (h.not_checks hcount hwhole (Or.inr ⟨hstart, by omega⟩))

end strict

/-- Where checksums are compared, a written frame that was altered within four bytes of one of its
parts is read as an error, whatever follows it. Unless its first length is altered, the error tells
where the next frame begins. -/
theorem decode_altered {config : Config} (hstrict : config.verifyChecksums = true)
    {headers : Headers} {payload before bytes : Bytes}
    (hencode : encode headers payload before = .ok (before ++ bytes))
    (hmax : bytes.length ≤ config.maxLength) {altered : Bytes} {first count start stop : Nat}
    (h : Altered bytes altered first count) (hcount : count ≤ 4)
    (hregion : (start, stop) ∈ regions bytes.length) (hstart : start ≤ first)
    (hstop : first + count ≤ stop) (more : Bytes) :
    ∃ error, decode config (altered ++ more) = .error error ∧
      (altered.take 4 = bytes.take 4 → error.resyncLength? = some bytes.length) := by
  obtain ⟨hfault, hlimit, hwire⟩ := encode_ok hencode
  have hlength := wire_length headers.write.bytes payload
  rw [← List.append_cancel_left hwire] at hlength
  have hdecode : decode config bytes = .ok (some (ofContents headers payload)) := by
    have hw := decode_wire hfault hlimit (hlength ▸ hmax) []
    rwa [← List.append_cancel_left hwire, List.append_nil] at hw
  have htotal : (ofContents headers payload).totalLength = bytes.length := by
    rw [hlength]
    rw [Headers.write_length hfault] at hlimit ⊢
    exact Nat.min_eq_left hlimit
  obtain ⟨error, herror⟩ := h.decode_error hcount hregion hstart hstop hstrict hdecode htotal
  refine ⟨error, ?_, ?_⟩
  · rw [decode_append (by rw [herror]; exact fun hc => by cases hc), herror]
  · -- Every error carries the length that the frame declares, whichever check it came from.
    intro hsame
    have hdeclared : declaredLength altered = bytes.length := by
      rw [declaredLength, slice_zero, hsame, ← slice_zero, ← declaredLength,
        ← decode_frame_totalLength hdecode, htotal]
    rw [Error.resyncLength?, decode_error_declaredLength? herror, hdeclared, Option.map_some]
    rw [overhead] at hlength
    congr 1
    omega

/-- The text of a header and its length are altered, and the payload is not. -/
def damagedWire : Bytes :=
  mixedWire.take 31 ++ [1, 2, 196] ++ mixedWire.drop 34

theorem damagedWire_altered : Altered mixedWire damagedWire 31 3 := by
  refine ⟨by decide, by decide, ?_⟩
  intro i hi
  by_cases hl : i < 40
  · have hall : ∀ i < 40, damagedWire[i]? ≠ mixedWire[i]? → 31 ≤ i ∧ i < 31 + 3 := by decide
    exact hall i hl hi
  · have hnone : damagedWire[i]? = mixedWire[i]? := by
      rw [List.getElem?_eq_none (Nat.not_lt.1 hl), List.getElem?_eq_none (Nat.not_lt.1 hl)]
    exact absurd hnone hi

theorem decode_altered_damaged :
    encode mixedHeaders [123] [] = .ok ([] ++ mixedWire) ∧
    Altered mixedWire damagedWire 31 3 ∧ (12, 36) ∈ regions mixedWire.length ∧
    ∃ error, decode .strict (damagedWire ++ [0, 0]) = .error error ∧
      error.resyncLength? = some 40 := by
  have hencode : encode mixedHeaders [123] [] = .ok ([] ++ mixedWire) := by decide +kernel
  have hregion : (12, 36) ∈ regions mixedWire.length := by decide
  have hstrict : Config.strict.verifyChecksums = true := rfl
  obtain ⟨error, herror, hresync⟩ := decode_altered hstrict hencode (by decide)
    damagedWire_altered (by decide) hregion (by decide) (by decide) [0, 0]
  exact ⟨hencode, damagedWire_altered, hregion, error, herror, hresync (by decide)⟩

end EventStream.Frame
