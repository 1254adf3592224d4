import GridOps.Text.Utf8

/-!
Decoding, strictly and with replacement characters.

A step on the encoding of a character takes that character (`step_encode`), and only there
(`encode_of_step`).  So bytes are decoded strictly to a text if and only if they are its encoding
(`decode_ok_iff`), and a text is what its encoding is decoded to with replacement characters
(`decodeLossy_toUTF8`).  Any bytes are decoded to no more characters than bytes.
-/

namespace GridOps
namespace Utf8

theorem length_decodeLossy_le (bytes : List UInt8) :
    (decodeLossy bytes).length ≤ bytes.length := by
  induction bytes using decodeLossy.induct with
  | case1 =>
    rw [decodeLossy]
    exact Nat.le_refl 0
  | case2 b rest c more hstep ih =>
    rw [decodeLossy, hstep]
    simp only [List.length_cons, List.length_drop] at ih ⊢
    omega
  | case3 b rest more hstep ih =>
    rw [decodeLossy, hstep]
    simp only [List.length_cons, List.length_drop] at ih ⊢
    omega
  | case4 b rest hstep =>
    rw [decodeLossy, hstep]
    simp

/-! ## Steps by the numbers of the bytes -/

section Steps

variable {b b1 b2 b3 : UInt8} (rest : List UInt8)

theorem continues_iff : continues b = true ↔ 0x80 ≤ b.toNat ∧ b.toNat ≤ 0xBF := by
  simp [continues, UInt8.le_iff_toNat_le]

/-- A second byte continues the character; after four of the first bytes it has narrower bounds. -/
theorem secondAllowed_of (h : 0x80 ≤ b1.toNat ∧ b1.toNat ≤ 0xBF)
    (hE0 : b.toNat = 0xE0 → 0xA0 ≤ b1.toNat) (hED : b.toNat = 0xED → b1.toNat ≤ 0x9F)
    (hF0 : b.toNat = 0xF0 → 0x90 ≤ b1.toNat) (hF4 : b.toNat = 0xF4 → b1.toNat ≤ 0x8F) :
    secondAllowed b b1 = true := by
  unfold secondAllowed
  simp only [← UInt8.toNat_inj, UInt8.le_iff_toNat_le, UInt8.reduceToNat]
  repeat' split
  case isFalse.isFalse.isFalse.isFalse => exact continues_iff.mpr h
  all_goals
    simp only [Bool.and_eq_true, decide_eq_true_eq]
    omega

theorem step_one (h : b.toNat < 0x80) : step b rest = .char (Char.ofNat b.toNat) 0 := by
  have hb : b < 0x80 := UInt8.lt_iff_toNat_lt.mpr h
  unfold step
  rw [if_pos hb]

theorem step_two (hlow : 0xC2 ≤ b.toNat) (hhigh : b.toNat ≤ 0xDF) (h1 : continues b1 = true) :
    step b (b1 :: rest) = .char (Char.ofNat (b.toNat % 32 * 64 + tail b1)) 1 := by
  unfold step
  simp only [UInt8.lt_iff_toNat_lt, UInt8.le_iff_toNat_le, UInt8.reduceToNat]
  rw [if_neg (by omega), if_pos ⟨hlow, hhigh⟩, if_pos h1]

theorem step_three (hlow : 0xE0 ≤ b.toNat) (hhigh : b.toNat ≤ 0xEF)
    (h1 : secondAllowed b b1 = true) (h2 : continues b2 = true) :
    step b (b1 :: b2 :: rest) =
      .char (Char.ofNat ((b.toNat % 16 * 64 + tail b1) * 64 + tail b2)) 2 := by
  unfold step
  simp only [UInt8.lt_iff_toNat_lt, UInt8.le_iff_toNat_le, UInt8.reduceToNat]
  rw [if_neg (by omega), if_neg (by omega), if_pos ⟨hlow, hhigh⟩, if_pos h1, if_pos h2]

theorem step_four (hlow : 0xF0 ≤ b.toNat) (hhigh : b.toNat ≤ 0xF4)
    (h1 : secondAllowed b b1 = true) (h2 : continues b2 = true) (h3 : continues b3 = true) :
    step b (b1 :: b2 :: b3 :: rest) =
      .char (Char.ofNat (((b.toNat % 8 * 64 + tail b1) * 64 + tail b2) * 64 + tail b3)) 3 := by
  unfold step
  simp only [UInt8.lt_iff_toNat_lt, UInt8.le_iff_toNat_le, UInt8.reduceToNat]
  rw [if_neg (by omega), if_neg (by omega), if_neg (by omega), if_pos ⟨hlow, hhigh⟩, if_pos h1,
    if_pos h2, if_pos h3]

end Steps

/-! ## Encoded texts -/

theorem toNat_continuation (n : Nat) : (UInt8.ofNat (n % 64 + 0x80)).toNat = n % 64 + 0x80 :=
  UInt8.toNat_ofNat_of_lt' (show n % 64 + 0x80 < 256 by omega)

theorem tail_continuation (n : Nat) : tail (UInt8.ofNat (n % 64 + 0x80)) = n % 64 := by
  rw [tail, toNat_continuation]
  omega

theorem continues_continuation (n : Nat) : continues (UInt8.ofNat (n % 64 + 0x80)) = true := by
  rw [continues_iff, toNat_continuation]
  omega

/-! ### Characters of two, three and four bytes -/

section Characters

variable {n : Nat} (rest : List UInt8)

theorem step_two_bytes (hlow : 0x80 ≤ n) (hhigh : n < 0x800) :
    step (UInt8.ofNat (n / 64 % 32 + 0xC0)) (UInt8.ofNat (n % 64 + 0x80) :: rest) =
      .char (Char.ofNat n) 1 := by
  have hfirst := UInt8.toNat_ofNat_of_lt' (show n / 64 % 32 + 0xC0 < 256 by omega)
  have hbits : (n / 64 % 32 + 0xC0) % 32 * 64 + n % 64 = n := by omega
  rw [step_two rest (by omega) (by omega) (continues_continuation n), hfirst, tail_continuation,
    hbits]

theorem step_three_bytes (hlow : 0x800 ≤ n) (hhigh : n < 0x10000)
    (hsurrogate : n < 0xD800 ∨ 0xDFFF < n) :
    step (UInt8.ofNat (n / 4096 % 16 + 0xE0)) (UInt8.ofNat (n / 64 % 64 + 0x80) ::
      UInt8.ofNat (n % 64 + 0x80) :: rest) = .char (Char.ofNat n) 2 := by
  have hfirst := UInt8.toNat_ofNat_of_lt' (show n / 4096 % 16 + 0xE0 < 256 by omega)
  have hsecond := toNat_continuation (n / 64)
  have hallowed : secondAllowed (UInt8.ofNat (n / 4096 % 16 + 0xE0))
      (UInt8.ofNat (n / 64 % 64 + 0x80)) = true := by
    refine secondAllowed_of ?_ ?_ ?_ ?_ ?_ <;> omega
  have hbits : ((n / 4096 % 16 + 0xE0) % 16 * 64 + n / 64 % 64) * 64 + n % 64 = n := by omega
  rw [step_three rest (by omega) (by omega) hallowed (continues_continuation n), hfirst,
    tail_continuation, tail_continuation, hbits]

theorem step_four_bytes (hlow : 0x10000 ≤ n) (hhigh : n < 0x110000) :
    step (UInt8.ofNat (n / 262144 % 8 + 0xF0)) (UInt8.ofNat (n / 4096 % 64 + 0x80) ::
      UInt8.ofNat (n / 64 % 64 + 0x80) :: UInt8.ofNat (n % 64 + 0x80) :: rest) =
      .char (Char.ofNat n) 3 := by
  have hfirst := UInt8.toNat_ofNat_of_lt' (show n / 262144 % 8 + 0xF0 < 256 by omega)
  have hsecond := toNat_continuation (n / 4096)
  have hallowed : secondAllowed (UInt8.ofNat (n / 262144 % 8 + 0xF0))
      (UInt8.ofNat (n / 4096 % 64 + 0x80)) = true := by
    refine secondAllowed_of ?_ ?_ ?_ ?_ ?_ <;> omega
  have hbits : (((n / 262144 % 8 + 0xF0) % 8 * 64 + n / 4096 % 64) * 64 + n / 64 % 64) * 64 +
      n % 64 = n := by omega
  rw [step_four rest (by omega) (by omega) hallowed (continues_continuation _)
    (continues_continuation n), hfirst, tail_continuation, tail_continuation, tail_continuation,
    hbits]

end Characters

/-- A step on the encoding of a character takes the character, whatever comes behind it. -/
theorem step_encode (c : Char) (rest : List UInt8) :
    ∃ b more, String.utf8EncodeChar c = b :: more ∧
      step b (more ++ rest) = .char c more.length := by
  -- No character is a surrogate, so the second byte after 0xED is allowed.
  have hvalid := c.valid
  unfold UInt32.isValidChar Nat.isValidChar at hvalid
  have hchar : Char.ofNat c.val.toNat = c := Char.ofNat_toNat c
  unfold String.utf8EncodeChar
  generalize c.val.toNat = n at hvalid hchar
  subst hchar
  dsimp only
  split
  · have hbyte := UInt8.toNat_ofNat_of_lt' (show n < 256 by omega)
    have hstep := step_one (b := UInt8.ofNat n) rest (by omega)
    rw [hbyte] at hstep
    exact ⟨_, _, rfl, hstep⟩
  split
  · exact ⟨_, _, rfl, step_two_bytes rest (by omega) (by omega)⟩
  split
  · exact ⟨_, _, rfl, step_three_bytes rest (by omega) (by omega) (by omega)⟩
  · exact ⟨_, _, rfl, step_four_bytes rest (by omega) (by omega)⟩

theorem decodeLossy_of_step {b : UInt8} {rest : List UInt8} {c : Char} {more : Nat}
    (h : step b rest = .char c more) :
    decodeLossy (b :: rest) = c :: decodeLossy (rest.drop more) := by
  rw [decodeLossy, h]

theorem decodeLossy_encode (c : Char) (rest : List UInt8) :
    decodeLossy (String.utf8EncodeChar c ++ rest) = c :: decodeLossy rest := by
  obtain ⟨b, more, hbytes, hstep⟩ := step_encode c rest
  rw [hbytes, List.cons_append, decodeLossy_of_step hstep, List.drop_left]

/-- The bytes of a text. -/
def encode (cs : List Char) : List UInt8 := cs.flatMap String.utf8EncodeChar

/-- A character of the first half of a byte is that byte. -/
theorem exists_of_mem_encode {cs : List Char} (h : ∀ c ∈ cs, c.toNat < 0x80) {b : UInt8}
    (hb : b ∈ encode cs) : ∃ c ∈ cs, b.toNat = c.toNat := by
  obtain ⟨c, hc, hb⟩ := List.mem_flatMap.mp hb
  have hlt : c.val.toNat < 0x80 := h c hc
  rw [String.utf8EncodeChar, if_pos (by omega), List.mem_singleton] at hb
  refine ⟨c, hc, ?_⟩
  rw [hb]
  exact UInt8.toNat_ofNat_of_lt' (show c.val.toNat < 256 by omega)

theorem toUTF8_eq_encode (text : String) : text.toUTF8.data.toList = encode text.toList := by
  rw [String.toUTF8_eq_toByteArray, ← String.utf8Encode_toList, List.utf8Encode,
    List.toList_data_toByteArray]
  rfl

/-- A text is what its encoding is decoded to. -/
theorem decodeLossy_toUTF8 (text : String) : decodeLossy text.toUTF8.data.toList = text.toList := by
  rw [toUTF8_eq_encode]
  induction text.toList with
  | nil => rw [encode, List.flatMap_nil, decodeLossy]
  | cons c cs ih => rw [encode, List.flatMap_cons, ← encode, decodeLossy_encode, ih]

/-! ## Strict decoding -/

theorem toNat_char {n : Nat} (h : n.isValidChar) : (Char.ofNat n).val.toNat = n := by
  rw [Char.ofNat, dif_pos h]
  rfl

theorem bounds_of_secondAllowed {b b1 : UInt8} (h : secondAllowed b b1 = true) :
    (0x80 ≤ b1.toNat ∧ b1.toNat ≤ 0xBF) ∧ (b.toNat = 0xE0 → 0xA0 ≤ b1.toNat) ∧
      (b.toNat = 0xED → b1.toNat ≤ 0x9F) ∧ (b.toNat = 0xF0 → 0x90 ≤ b1.toNat) ∧
      (b.toNat = 0xF4 → b1.toNat ≤ 0x8F) := by
  unfold secondAllowed at h
  simp only [← UInt8.toNat_inj, UInt8.le_iff_toNat_le, UInt8.reduceToNat] at h
  repeat' split at h
  all_goals
    simp only [continues_iff, Bool.and_eq_true, decide_eq_true_eq] at h
    omega

theorem eq_ofNat {b : UInt8} {n : Nat} (h : b.toNat = n) : b = UInt8.ofNat n := by
  rw [← h, UInt8.ofNat_toNat]

/-! ### The encodings of one, two, three and four bytes -/

section Encodings

variable {b b1 b2 b3 : UInt8}

theorem encode_one (h : b.toNat < 0x80) : String.utf8EncodeChar (Char.ofNat b.toNat) = [b] := by
  have hn := toNat_char (n := b.toNat) (.inl (by omega))
  rw [String.utf8EncodeChar, hn]
  rw [if_pos (by omega), UInt8.ofNat_toNat]

theorem encode_two (hlow : 0xC2 ≤ b.toNat) (hhigh : b.toNat ≤ 0xDF) (h1 : continues b1 = true) :
    String.utf8EncodeChar (Char.ofNat (b.toNat % 32 * 64 + tail b1)) = [b, b1] := by
  rw [continues_iff] at h1
  unfold tail
  generalize hcode : b.toNat % 32 * 64 + b1.toNat % 64 = n
  have hn := toNat_char (n := n) (.inl (by omega))
  rw [String.utf8EncodeChar, hn]
  rw [if_neg (by omega), if_pos (by omega), ← eq_ofNat (b := b) (by omega),
    ← eq_ofNat (b := b1) (by omega)]

theorem encode_three (hlow : 0xE0 ≤ b.toNat) (hhigh : b.toNat ≤ 0xEF)
    (h1 : secondAllowed b b1 = true) (h2 : continues b2 = true) :
    String.utf8EncodeChar (Char.ofNat ((b.toNat % 16 * 64 + tail b1) * 64 + tail b2)) =
      [b, b1, b2] := by
  obtain ⟨h1, hE0, hED, -, -⟩ := bounds_of_secondAllowed h1
  rw [continues_iff] at h2
  unfold tail
  generalize hcode : (b.toNat % 16 * 64 + b1.toNat % 64) * 64 + b2.toNat % 64 = n
  have hvalid : n.isValidChar := by
    unfold Nat.isValidChar
    omega
  rw [String.utf8EncodeChar, toNat_char hvalid]
  rw [if_neg (by omega), if_neg (by omega), if_pos (by omega), ← eq_ofNat (b := b) (by omega),
    ← eq_ofNat (b := b1) (by omega), ← eq_ofNat (b := b2) (by omega)]

theorem encode_four (hlow : 0xF0 ≤ b.toNat) (hhigh : b.toNat ≤ 0xF4)
    (h1 : secondAllowed b b1 = true) (h2 : continues b2 = true) (h3 : continues b3 = true) :
    String.utf8EncodeChar
        (Char.ofNat (((b.toNat % 8 * 64 + tail b1) * 64 + tail b2) * 64 + tail b3)) =
      [b, b1, b2, b3] := by
  obtain ⟨h1, -, -, hF0, hF4⟩ := bounds_of_secondAllowed h1
  rw [continues_iff] at h2 h3
  unfold tail
  generalize hcode :
    ((b.toNat % 8 * 64 + b1.toNat % 64) * 64 + b2.toNat % 64) * 64 + b3.toNat % 64 = n
  have hvalid : n.isValidChar := by
    unfold Nat.isValidChar
    omega
  rw [String.utf8EncodeChar, toNat_char hvalid]
  rw [if_neg (by omega), if_neg (by omega), if_neg (by omega), ← eq_ofNat (b := b) (by omega),
    ← eq_ofNat (b := b1) (by omega), ← eq_ofNat (b := b2) (by omega),
    ← eq_ofNat (b := b3) (by omega)]

end Encodings

/-- A step that takes a character takes the encoding of it. -/
theorem encode_of_step {b : UInt8} {rest : List UInt8} {c : Char} {more : Nat}
    (h : step b rest = .char c more) :
    b :: rest = String.utf8EncodeChar c ++ rest.drop more := by
  unfold step at h
  simp only [UInt8.lt_iff_toNat_lt, UInt8.le_iff_toNat_le, UInt8.reduceToNat] at h
  split at h
  · rename_i hb
    cases h
    rw [encode_one hb]
    rfl
  split at h
  · rename_i hb
    rcases rest with _ | ⟨b1, rest⟩
    · cases h
    dsimp only at h
    split at h
    · rename_i h1
      cases h
      rw [encode_two hb.1 hb.2 h1]
      rfl
    · cases h
  split at h
  · rename_i hb
    rcases rest with _ | ⟨b1, _ | ⟨b2, rest⟩⟩
    · cases h
    · dsimp only at h
      split at h <;> cases h
    dsimp only at h
    split at h
    · rename_i h1
      split at h
      · rename_i h2
        cases h
        rw [encode_three hb.1 hb.2 h1 h2]
        rfl
      · cases h
    · cases h
  split at h
  · rename_i hb
    rcases rest with _ | ⟨b1, _ | ⟨b2, _ | ⟨b3, rest⟩⟩⟩
    · cases h
    · dsimp only at h
      split at h <;> cases h
    · dsimp only at h
      split at h
      · split at h <;> cases h
      · cases h
    dsimp only at h
    split at h
    · rename_i h1
      split at h
      · rename_i h2
        split at h
        · rename_i h3
          cases h
          rw [encode_four hb.1 hb.2 h1 h2 h3]
          rfl
        · cases h
      · cases h
    · cases h
  · cases h

theorem decodeFrom_encode (start : Nat) (cs : List Char) :
    decodeFrom start (encode cs) = .ok cs := by
  induction cs generalizing start with
  | nil => rw [encode, List.flatMap_nil, decodeFrom]
  | cons c cs ih =>
    obtain ⟨b, more, hbytes, hstep⟩ := step_encode c (encode cs)
    rw [encode, List.flatMap_cons, ← encode, hbytes, List.cons_append, decodeFrom, hstep]
    dsimp only
    rw [List.drop_left, ih]
    rfl

theorem eq_encode_of_decodeFrom {start : Nat} {bytes : List UInt8} {cs : List Char}
    (h : decodeFrom start bytes = .ok cs) : bytes = encode cs := by
  induction start, bytes using decodeFrom.induct generalizing cs with
  | case1 start =>
    rw [decodeFrom] at h
    cases h
    rfl
  | case2 start b rest c more hstep ih =>
    rw [decodeFrom, hstep] at h
    dsimp only at h
    cases hrest : decodeFrom (start + more + 1) (rest.drop more) with
    | error e =>
      rw [hrest] at h
      cases h
    | ok cs =>
      rw [hrest] at h
      cases h
      rw [encode_of_step hstep, ih hrest]
      rfl
  | case3 start b rest more hstep =>
    rw [decodeFrom, hstep] at h
    cases h
  | case4 start b rest hstep =>
    rw [decodeFrom, hstep] at h
    cases h

/-- Strictly, only the encoding of a text is decoded, and it is decoded to that text. -/
theorem decode_ok_iff {bytes : List UInt8} {cs : List Char} :
    decode bytes = .ok cs ↔ bytes = encode cs := by
  constructor
  · exact eq_encode_of_decodeFrom
  · rintro rfl
    exact decodeFrom_encode 0 cs

end Utf8
end GridOps
