import ToolCatalog.Text.Utf8
import Mathlib.Tactic.Common

/-!
# UTF-8 is read back

A byte string is read as a text exactly if it is the UTF-8 form of that text (`decode_eq_ok_iff`). The
range that a first byte sets for the second is what keeps overlong forms, surrogates and numbers above
0x10FFFF out; `opens_iff` says so in numbers.
-/

namespace ToolCatalog.Utf8

/-! ## The first two bytes in numbers -/

/-- A first byte that announces so many more, with a second byte in its range. -/
def Opens (more : Nat) (b b₁ : UInt8) : Prop :=
  ∃ low high, opening? b = some (more, low, high) ∧ low ≤ b₁ ∧ b₁ ≤ high

/-- The bounds on the bits of both bytes are those of the characters with so many bytes, less the
surrogates. -/
theorem opens_iff {more : Nat} {b b₁ : UInt8} :
    Opens more b b₁ ↔ (0x80 ≤ b₁.toNat ∧ b₁.toNat ≤ 0xBF) ∧
      (more = 1 ∧ (0xC2 ≤ b.toNat ∧ b.toNat ≤ 0xDF) ∨
        more = 2 ∧ (0xE0 ≤ b.toNat ∧ b.toNat ≤ 0xEF) ∧ 0x20 ≤ b.toNat % 0x10 * 0x40 + payload b₁ ∧
          (b.toNat % 0x10 * 0x40 + payload b₁ < 0x360 ∨ 0x380 ≤ b.toNat % 0x10 * 0x40 + payload b₁) ∨
        more = 3 ∧ (0xF0 ≤ b.toNat ∧ b.toNat ≤ 0xF4) ∧ 0x10 ≤ b.toNat % 0x08 * 0x40 + payload b₁ ∧
          b.toNat % 0x08 * 0x40 + payload b₁ < 0x110) := by
  unfold Opens opening? payload
  simp only [UInt8.le_iff_toNat_le, ← UInt8.toNat_inj, Bool.and_eq_true, decide_eq_true_eq,
    UInt8.reduceToNat]
  constructor
  · rintro ⟨low, high, h, hlow, hhigh⟩
    split_ifs at h
    all_goals
      rw [Option.some.injEq, Prod.mk.injEq, Prod.mk.injEq] at h
      obtain ⟨rfl, rfl, rfl⟩ := h
      simp only [UInt8.reduceToNat] at hlow hhigh
      omega
  · rintro ⟨hb₁, ⟨rfl, hb⟩ | ⟨rfl, hb, hlow, hhigh⟩ | ⟨rfl, hb, hlow, hhigh⟩⟩
    · exact ⟨0x80, 0xBF, if_pos hb, hb₁⟩
    · rw [if_neg (by omega)]
      by_cases hE0 : b.toNat = 0xE0
      · exact ⟨0xA0, 0xBF, if_pos hE0, by simp only [UInt8.reduceToNat]; omega⟩
      by_cases hED : b.toNat = 0xED
      · exact ⟨0x80, 0x9F, by rw [if_neg hE0, if_pos hED], by simp only [UInt8.reduceToNat]; omega⟩
      · exact ⟨0x80, 0xBF, by rw [if_neg hE0, if_neg hED, if_pos (by omega)], hb₁⟩
    · rw [if_neg (by omega), if_neg (by omega), if_neg (by omega), if_neg (by omega)]
      by_cases hF0 : b.toNat = 0xF0
      · exact ⟨0x90, 0xBF, if_pos hF0, by simp only [UInt8.reduceToNat]; omega⟩
      rw [if_neg hF0]
      by_cases hF4 : b.toNat = 0xF4
      · exact ⟨0x80, 0x8F, by rw [if_neg (by omega), if_pos hF4],
          by simp only [UInt8.reduceToNat]; omega⟩
      · exact ⟨0x80, 0xBF, if_pos (by omega), hb₁⟩

/-! ## One character -/

/-- The forms in which characters are written, by the number of bytes. -/
inductive Written : Char → List UInt8 → Prop where
  | one {b : UInt8} : b < 0x80 → Written (Char.ofNat b.toNat) [b]
  | two {b b₁ : UInt8} : Opens 1 b b₁ →
    Written (Char.ofNat (b.toNat % 0x20 * 0x40 + payload b₁)) [b, b₁]
  | three {b b₁ b₂ : UInt8} : Opens 2 b b₁ → continues b₂ = true →
    Written (Char.ofNat ((b.toNat % 0x10 * 0x40 + payload b₁) * 0x40 + payload b₂)) [b, b₁, b₂]
  | four {b b₁ b₂ b₃ : UInt8} : Opens 3 b b₁ → continues b₂ = true → continues b₃ = true →
    Written (Char.ofNat (((b.toNat % 0x08 * 0x40 + payload b₁) * 0x40 + payload b₂) * 0x40 + payload b₃))
      [b, b₁, b₂, b₃]

theorem continues_iff {b : UInt8} : continues b = true ↔ 0x80 ≤ b.toNat ∧ b.toNat ≤ 0xBF := by
  simp [continues, UInt8.le_iff_toNat_le]

theorem toNat_char {v : Nat} (h : v < 0xD800 ∨ 0xDFFF < v ∧ v < 0x110000) :
    (Char.ofNat v).val.toNat = v := by
  unfold Char.ofNat
  rw [dif_pos h]
  rfl

theorem ofNat_eq {n : Nat} {b : UInt8} (h : n = b.toNat) : UInt8.ofNat n = b := by
  rw [h, UInt8.ofNat_toNat]

/-- A character is written in no form but its own. -/
theorem Written.eq_encodeChar {c : Char} {form : List UInt8} (h : Written c form) :
    form = String.utf8EncodeChar c := by
  unfold String.utf8EncodeChar
  cases h with
  | one h =>
    rename_i b
    simp only [UInt8.lt_iff_toNat_lt, UInt8.reduceToNat] at h
    rw [toNat_char (by omega), if_pos (by omega), UInt8.ofNat_toNat]
  | two h =>
    rename_i b b₁
    have hbytes := opens_iff.1 h
    unfold payload at hbytes ⊢
    rw [toNat_char (by omega), if_neg (by omega), if_pos (by omega), ofNat_eq (b := b) (by omega),
      ofNat_eq (b := b₁) (by omega)]
  | three h h₂ =>
    rename_i b b₁ b₂
    have hbytes := opens_iff.1 h
    rw [continues_iff] at h₂
    unfold payload at hbytes ⊢
    rw [toNat_char (by omega), if_neg (by omega), if_neg (by omega), if_pos (by omega),
      ofNat_eq (b := b) (by omega), ofNat_eq (b := b₁) (by omega), ofNat_eq (b := b₂) (by omega)]
  | four h h₂ h₃ =>
    rename_i b b₁ b₂ b₃
    have hbytes := opens_iff.1 h
    rw [continues_iff] at h₂ h₃
    unfold payload at hbytes ⊢
    rw [toNat_char (by omega), if_neg (by omega), if_neg (by omega), if_neg (by omega),
      ofNat_eq (b := b) (by omega), ofNat_eq (b := b₁) (by omega), ofNat_eq (b := b₂) (by omega),
      ofNat_eq (b := b₃) (by omega)]

/-- Every character has a form. -/
theorem written_encodeChar (c : Char) : Written c (String.utf8EncodeChar c) := by
  have hvalid : c.val.toNat < 0xD800 ∨ 0xDFFF < c.val.toNat ∧ c.val.toNat < 0x110000 := c.valid
  have hof : ∀ {v : Nat} {form : List UInt8}, v = c.val.toNat → Written (Char.ofNat v) form →
      Written c form := by
    rintro v form rfl h
    rwa [Char.toNat_val, Char.ofNat_toNat] at h
  unfold String.utf8EncodeChar
  generalize c.val.toNat = v at hvalid hof
  have hbyte : ∀ n : Nat, (UInt8.ofNat n).toNat = n % 0x100 := fun n => UInt8.toNat_ofNat'
  simp only
  split_ifs
  · refine hof ?_ (.one ?_)
    · rw [hbyte]; omega
    · simp only [UInt8.lt_iff_toNat_lt, UInt8.reduceToNat, hbyte]; omega
  · refine hof ?_ (.two (opens_iff.2 ⟨?_, .inl ⟨rfl, ?_⟩⟩))
    all_goals simp only [payload, hbyte]; omega
  · refine hof ?_ (.three (opens_iff.2 ⟨?_, .inr (.inl ⟨rfl, ?_⟩)⟩) (continues_iff.2 ?_))
    all_goals simp only [payload, hbyte]; omega
  · refine hof ?_ (.four (opens_iff.2 ⟨?_, .inr (.inr ⟨rfl, ?_⟩)⟩) (continues_iff.2 ?_)
      (continues_iff.2 ?_))
    all_goals simp only [payload, hbyte]; omega

/-! ## Texts -/

theorem Opens.not_lt {more : Nat} {b b₁ : UInt8} (h : Opens more b b₁) : ¬ b < 0x80 := by
  have := opens_iff.1 h
  simp only [UInt8.lt_iff_toNat_lt, UInt8.reduceToNat]
  omega

theorem Opens.eq_three {more : Nat} {b b₁ : UInt8} (h : Opens more b b₁) (hone : more ≠ 1)
    (htwo : more ≠ 2) : more = 3 := by
  have hbounds := opens_iff.1 h
  omega

/-- A form in front of bytes is read as its character. -/
theorem decodeFrom_written {c : Char} {form : List UInt8} (h : Written c form) (index : Nat)
    (s : List UInt8) :
    decodeFrom index (form ++ s) = (decodeFrom (index + form.length) s).map (c :: ·) := by
  cases h with
  | one h => simp [decodeFrom, h]
  | two h =>
    have hlt := h.not_lt
    obtain ⟨low, high, hopen, hlow, hhigh⟩ := h
    simp [decodeFrom, hlt, hopen, hlow, hhigh]
  | three h h₂ =>
    have hlt := h.not_lt
    obtain ⟨low, high, hopen, hlow, hhigh⟩ := h
    simp [decodeFrom, hlt, hopen, hlow, hhigh, h₂]
  | four h h₂ h₃ =>
    have hlt := h.not_lt
    obtain ⟨low, high, hopen, hlow, hhigh⟩ := h
    simp [decodeFrom, hlt, hopen, hlow, hhigh, h₂, h₃]

theorem encode_cons (c : Char) (t : Text) : encode (c :: t) = String.utf8EncodeChar c ++ encode t :=
  List.flatMap_cons

theorem decodeFrom_encode : ∀ (t : Text) (index : Nat), decodeFrom index (encode t) = .ok t
  | [], _ => rfl
  | c :: t, index => by
    rw [encode_cons, decodeFrom_written (written_encodeChar c), decodeFrom_encode t]
    rfl

/-- What was read of the bytes after a form is the rest of the text. -/
theorem Written.append_eq_encode {c : Char} {form s : List UInt8} {rest : Except Fault Text} {t : Text}
    (hform : Written c form) (ih : ∀ {t : Text}, rest = .ok t → s = encode t)
    (h : rest.map (c :: ·) = .ok t) : form ++ s = encode t := by
  cases rest with
  | error fault => cases h
  | ok u =>
    cases h
    rw [encode_cons, ← hform.eq_encodeChar, ← ih rfl]

theorem eq_encode_of_decodeFrom {index : Nat} {bytes : List UInt8} {t : Text}
    (h : decodeFrom index bytes = .ok t) : bytes = encode t := by
  fun_induction decodeFrom index bytes generalizing t with
  | case1 => cases h; rfl
  | case2 index b s hb ih => exact (Written.one hb).append_eq_encode ih h
  | case6 index b _ low high b₁ s hrange hopen ih =>
    have hopens : Opens 1 b b₁ := ⟨low, high, hopen, by simpa using hrange⟩
    exact (Written.two hopens).append_eq_encode ih h
  | case9 index b _ low high b₁ hrange b₂ s hb₂ hopen _ ih =>
    have hopens : Opens 2 b b₁ := ⟨low, high, hopen, by simpa using hrange⟩
    exact (Written.three hopens (by simpa using hb₂)).append_eq_encode ih h
  | case12 index b _ more low high hopen b₁ hrange hone b₂ hb₂ htwo b₃ s hb₃ ih =>
    have hopens : Opens more b b₁ := ⟨low, high, hopen, by simpa using hrange⟩
    rw [hopens.eq_three hone htwo] at hopens
    exact (Written.four hopens (by simpa using hb₂) (by simpa using hb₃)).append_eq_encode ih h
  | _ => cases h

/-- **Bytes are read as a text exactly if they are its UTF-8 form.** -/
theorem decode_eq_ok_iff {bytes : List UInt8} {t : Text} : decode bytes = .ok t ↔ bytes = encode t := by
  constructor
  · exact eq_encode_of_decodeFrom
  · rintro rfl
    exact decodeFrom_encode t 0

end ToolCatalog.Utf8
