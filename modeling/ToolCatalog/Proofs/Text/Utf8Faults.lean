import Mathlib.Order.Bounds.Basic
import ToolCatalog.Proofs.Text.Utf8

/-!
# What is wrong with bytes that are no text

The reader of UTF-8 stops at a fault. Its index is the length of the longest beginning of the input that is
a text, and what comes from there on is judged by the forms of characters alone: either all of it begins
such a form, and the input merely ends too early, or the first bytes of it do, and the next byte rules every
character out (`decode_eq_error_iff`). What carries this is that no form begins another one
(`eq_of_form_isPrefix`), so that a byte string can be taken apart into forms in one way only.
-/

namespace ToolCatalog.Utf8

/-! ## The description of a fault -/

/-- Bytes that are the UTF-8 form of a text. -/
def IsText (bytes : List UInt8) : Prop := ∃ t, bytes = encode t

/-- Bytes with which the form of a character begins, and which are not all of it. -/
def Begins (bytes : List UInt8) : Prop :=
  ∃ c, bytes <+: String.utf8EncodeChar c ∧ bytes ≠ String.utf8EncodeChar c

/-- The lengths of the beginnings of a byte string that have a property. -/
def beginnings (p : List UInt8 → Prop) (bytes : List UInt8) : Set Nat :=
  {n | ∃ head, head <+: bytes ∧ p head ∧ head.length = n}

/-- A fault tells what is wrong with some bytes: where the longest beginning of them ends that is a text,
and whether what is left could still become a character, or else how much of it could. -/
inductive Fault.Describes (bytes : List UInt8) : Fault → Prop where
  | incomplete {index : Nat} : ¬ IsText bytes → IsGreatest (beginnings IsText bytes) index →
    Begins (bytes.drop index) → Describes bytes (.incomplete index)
  | invalid {index longest : Nat} : ¬ IsText bytes → IsGreatest (beginnings IsText bytes) index →
    ¬ Begins (bytes.drop index) → IsGreatest (beginnings Begins (bytes.drop index)) longest →
    Describes bytes (.invalid index (max 1 longest))

/-- There is one description only. -/
theorem Fault.Describes.unique {bytes : List UInt8} {fault fault' : Fault} (h : fault.Describes bytes)
    (h' : fault'.Describes bytes) : fault = fault' := by
  cases h with
  | incomplete _ hindex hbegins =>
    cases h' with
    | incomplete _ hindex' _ => rw [hindex.unique hindex']
    | invalid _ hindex' hnot _ =>
      rw [hindex.unique hindex'] at hbegins
      exact absurd hbegins hnot
  | invalid _ hindex hnot hlongest =>
    cases h' with
    | incomplete _ hindex' hbegins =>
      rw [hindex'.unique hindex] at hbegins
      exact absurd hbegins hnot
    | invalid _ hindex' _ hlongest' =>
      have heq := hindex.unique hindex'
      subst heq
      rw [hlongest.unique hlongest']

/-! ## No form begins another -/

theorem eq_of_form_isPrefix {c d : Char} (h : String.utf8EncodeChar c <+: String.utf8EncodeChar d) :
    c = d := by
  obtain ⟨s, hs⟩ := h
  -- the longer form is read as one character, and what is read first of it is the shorter one
  have hread := decodeFrom_written (written_encodeChar c) 0 s
  have hone := decodeFrom_written (written_encodeChar d) 0 []
  rw [List.append_nil] at hone
  rw [hs, hone] at hread
  cases hrest : decodeFrom (0 + (String.utf8EncodeChar c).length) s with
  | error fault =>
    rw [hrest] at hread
    cases hread
  | ok t =>
    rw [hrest] at hread
    cases hread
    rfl

/-- A byte string begins with the form of one character at most. -/
theorem form_append_inj {c d : Char} {s s' : List UInt8}
    (h : String.utf8EncodeChar c ++ s = String.utf8EncodeChar d ++ s') : c = d ∧ s = s' := by
  have hc : String.utf8EncodeChar c <+: String.utf8EncodeChar d ++ s' := ⟨s, h⟩
  have hd : String.utf8EncodeChar d <+: String.utf8EncodeChar d ++ s' := ⟨s', rfl⟩
  have heq : c = d := by
    rcases List.prefix_or_prefix_of_prefix hc hd with hcd | hdc
    · exact eq_of_form_isPrefix hcd
    · exact (eq_of_form_isPrefix hdc).symm
  subst heq
  exact ⟨rfl, List.append_cancel_left h⟩

/-- A text before bytes that begin with no character cannot be made longer. -/
theorem length_encode_le {rest : List UInt8} (hrest : ∀ c, ¬ String.utf8EncodeChar c <+: rest) :
    ∀ {t u : Text}, encode u <+: encode t ++ rest → (encode u).length ≤ (encode t).length
  | t, [], _ => by simp [encode]
  | [], c :: u, h => by
    rw [encode_cons] at h
    exact absurd ((List.prefix_append _ _).trans h) (hrest c)
  | d :: t, c :: u, h => by
    obtain ⟨s, hs⟩ := h
    rw [encode_cons, encode_cons, List.append_assoc, List.append_assoc] at hs
    obtain ⟨rfl, htail⟩ := form_append_inj hs
    have ih := length_encode_le hrest (t := t) (u := u) ⟨s, htail⟩
    simp only [encode_cons, List.length_append]
    omega

theorem isGreatest_encode {t : Text} {rest : List UInt8} (hrest : ∀ c, ¬ String.utf8EncodeChar c <+: rest) :
    IsGreatest (beginnings IsText (encode t ++ rest)) (encode t).length := by
  constructor
  · exact ⟨encode t, List.prefix_append _ _, ⟨t, rfl⟩, rfl⟩
  · rintro n ⟨head, hhead, ⟨u, rfl⟩, rfl⟩
    exact length_encode_le hrest hhead

/-! ## The beginning of a form -/

/-- Bytes with which the form of a character begins, perhaps all of it. -/
def Leads (bytes : List UInt8) : Prop := ∃ c, bytes <+: String.utf8EncodeChar c

theorem Begins.leads {bytes : List UInt8} (h : Begins bytes) : Leads bytes := by
  obtain ⟨c, hbegin, -⟩ := h
  exact ⟨c, hbegin⟩

theorem Leads.of_isPrefix {bytes head : List UInt8} (h : Leads bytes) (hhead : head <+: bytes) :
    Leads head := by
  obtain ⟨c, hbegin⟩ := h
  exact ⟨c, hhead.trans hbegin⟩

/-- No form ends where another one goes on. -/
theorem Begins.not_form {bytes : List UInt8} (h : Begins bytes) (c : Char) :
    ¬ String.utf8EncodeChar c <+: bytes := by
  obtain ⟨d, hbegin, hne⟩ := h
  intro hc
  have heq := eq_of_form_isPrefix (hc.trans hbegin)
  subst heq
  exact hne (hbegin.eq_of_length_le hc.length_le)

theorem begins_nil : Begins [] := ⟨'a', List.nil_prefix, by decide⟩

theorem leads_iff_written {bytes : List UInt8} : Leads bytes ↔ ∃ c form, Written c form ∧ bytes <+: form := by
  constructor
  · rintro ⟨c, hbegin⟩
    exact ⟨c, _, written_encodeChar c, hbegin⟩
  · rintro ⟨c, form, hform, hbegin⟩
    exact ⟨c, hform.eq_encodeChar ▸ hbegin⟩

theorem begins_of_written {c : Char} {form bytes : List UInt8} (hform : Written c form)
    (hbegin : bytes <+: form) (hlength : bytes.length < form.length) : Begins bytes := by
  rw [hform.eq_encodeChar] at hbegin hlength
  refine ⟨c, hbegin, ?_⟩
  rintro rfl
  omega

/-! ## Its bytes one by one -/

theorem first_of_leads {b : UInt8} {s : List UInt8} (h : Leads (b :: s)) :
    b < 0x80 ∨ (opening? b).isSome = true := by
  obtain ⟨c, form, hform, hbegin⟩ := leads_iff_written.1 h
  have hopens : ∀ {more : Nat} {b b₁ : UInt8}, Opens more b b₁ → (opening? b).isSome = true := by
    rintro more b b₁ ⟨low, high, hopen, -⟩
    rw [hopen]
    rfl
  cases hform with
  | one hb =>
    rw [(List.cons_prefix_cons.1 hbegin).1]
    exact .inl hb
  | two hb | three hb | four hb =>
    rw [(List.cons_prefix_cons.1 hbegin).1]
    exact .inr (hopens hb)

theorem second_of_leads {b b₁ : UInt8} {s : List UInt8} (h : Leads (b :: b₁ :: s)) :
    ∃ more, Opens more b b₁ := by
  obtain ⟨c, form, hform, hbegin⟩ := leads_iff_written.1 h
  cases hform with
  | one hb => simp at hbegin
  | two hb | three hb | four hb =>
    obtain ⟨hfirst, hrest⟩ := List.cons_prefix_cons.1 hbegin
    rw [hfirst, (List.cons_prefix_cons.1 hrest).1]
    exact ⟨_, hb⟩

theorem third_of_leads {b b₁ b₂ : UInt8} {s : List UInt8} (h : Leads (b :: b₁ :: b₂ :: s)) :
    continues b₂ = true := by
  obtain ⟨c, form, hform, hbegin⟩ := leads_iff_written.1 h
  cases hform with
  | one | two => simp at hbegin
  | three _ h₂ | four _ h₂ =>
    simp only [List.cons_prefix_cons] at hbegin
    rw [hbegin.2.2.1]
    exact h₂

theorem fourth_of_leads {b b₁ b₂ b₃ : UInt8} {s : List UInt8} (h : Leads (b :: b₁ :: b₂ :: b₃ :: s)) :
    continues b₃ = true := by
  obtain ⟨c, form, hform, hbegin⟩ := leads_iff_written.1 h
  cases hform with
  | one | two | three => simp at hbegin
  | four _ _ h₃ =>
    simp only [List.cons_prefix_cons] at hbegin
    rw [hbegin.2.2.2.1]
    exact h₃

/-- Two bytes that fit together are the beginning of a form, whose other bytes can be chosen. -/
theorem exists_written_of_opens {more : Nat} {b b₁ : UInt8} (h : Opens more b b₁) :
    ∃ c form, Written c form ∧ [b, b₁] <+: form ∧ form.length = more + 1 := by
  have hmore := opens_iff.1 h
  have hcontinues : continues 0x80 = true := by decide
  obtain ⟨-, ⟨rfl, -⟩ | ⟨rfl, -⟩ | ⟨rfl, -⟩⟩ := hmore
  · exact ⟨_, _, .two h, List.prefix_rfl, rfl⟩
  · exact ⟨_, _, .three h hcontinues, ⟨[0x80], rfl⟩, rfl⟩
  · exact ⟨_, _, .four h hcontinues hcontinues, ⟨[0x80, 0x80], rfl⟩, rfl⟩

/-- The range of the second byte is never empty. -/
theorem opens_low {b : UInt8} {more : Nat} {low high : UInt8}
    (h : opening? b = some (more, low, high)) : Opens more b low := by
  refine ⟨low, high, h, UInt8.le_refl low, ?_⟩
  unfold opening? at h
  split_ifs at h
  all_goals
    rw [Option.some.injEq, Prod.mk.injEq, Prod.mk.injEq] at h
    obtain ⟨-, rfl, rfl⟩ := h
    decide

theorem begins_first {b : UInt8} {more : Nat} {low high : UInt8}
    (h : opening? b = some (more, low, high)) : Begins [b] := by
  have hopens := opens_low h
  obtain ⟨c, form, hform, hbegin, hlength⟩ := exists_written_of_opens hopens
  have hmore := opens_iff.1 hopens
  have hfirst : [b] <+: [b, low] := ⟨[low], rfl⟩
  refine begins_of_written hform (hfirst.trans hbegin) ?_
  simp only [List.length_singleton]
  omega

theorem begins_second {b b₁ : UInt8} {more : Nat} (h : Opens more b b₁) (hmore : more ≠ 1) :
    Begins [b, b₁] := by
  obtain ⟨c, form, hform, hbegin, hlength⟩ := exists_written_of_opens h
  have hbounds := opens_iff.1 h
  refine begins_of_written hform hbegin ?_
  simp only [List.length_cons, List.length_nil]
  omega

theorem begins_third {b b₁ b₂ : UInt8} (h : Opens 3 b b₁) (h₂ : continues b₂ = true) :
    Begins [b, b₁, b₂] := by
  have hform := Written.four h h₂ (show continues 0x80 = true by decide)
  exact begins_of_written hform ⟨[0x80], rfl⟩ (by simp)

/-! ## Where the reader stops -/

/-- What the reader finds where it stops at a place: the bytes begin a form and end, or they begin one and
the next byte rules every character out. -/
inductive Stuck (index : Nat) : List UInt8 → Fault → Prop where
  | ends {head : List UInt8} : head ≠ [] → Begins head → Stuck index head (.incomplete index)
  | breaks {head s : List UInt8} {b : UInt8} : Begins head → ¬ Leads (head ++ [b]) →
    Stuck index (head ++ b :: s) (.invalid index (max 1 head.length))

namespace Stuck

variable {index : Nat} {rest : List UInt8} {fault : Fault}

/-- Where the reader stops there is no character. -/
theorem not_form (h : Stuck index rest fault) (c : Char) : ¬ String.utf8EncodeChar c <+: rest := by
  cases h with
  | ends _ hbegins => exact hbegins.not_form c
  | breaks hbegins hnot =>
    rename_i head s b
    intro hc
    have hhead : head ++ [b] <+: head ++ b :: s := by simp
    -- a form is as long as the bytes that begin one, or it holds the byte that rules it out
    by_cases hlength : (String.utf8EncodeChar c).length ≤ head.length
    · have hshort := List.prefix_of_prefix_length_le hc (List.prefix_append head (b :: s)) hlength
      exact hbegins.not_form c hshort
    · have hlong : head ++ [b] <+: String.utf8EncodeChar c := by
        refine List.prefix_of_prefix_length_le hhead hc ?_
        simp only [List.length_append, List.length_singleton]
        omega
      exact hnot ⟨c, hlong⟩

/-- The reader tells how many of the bytes begin a form. -/
theorem longest {head s : List UInt8} {b : UInt8} (hbegins : Begins head)
    (hnot : ¬ Leads (head ++ [b])) : IsGreatest (beginnings Begins (head ++ b :: s)) head.length := by
  constructor
  · exact ⟨head, List.prefix_append _ _, hbegins, rfl⟩
  · rintro n ⟨other, hother, hleads, rfl⟩
    by_contra hlength
    have hhead : head ++ [b] <+: head ++ b :: s := by simp
    have hlong : head ++ [b] <+: other := by
      refine List.prefix_of_prefix_length_le hhead hother ?_
      simp only [List.length_append, List.length_singleton]
      omega
    exact hnot (hleads.leads.of_isPrefix hlong)

theorem describes {t : Text} (h : Stuck (encode t).length rest fault)
    (hnot : ¬ IsText (encode t ++ rest)) : fault.Describes (encode t ++ rest) := by
  have hindex := isGreatest_encode (t := t) h.not_form
  cases h with
  | ends _ hbegins => exact .incomplete hnot hindex (by rwa [List.drop_left])
  | breaks hbegins hruled =>
    refine .invalid hnot hindex ?_ ?_
    · rw [List.drop_left]
      intro hall
      exact hruled (hall.leads.of_isPrefix (by simp))
    · rw [List.drop_left]
      exact longest hbegins hruled

end Stuck

/-- Behind a form, the reader stops where it does without it. -/
theorem Written.stuck {c : Char} {form s : List UInt8} {index : Nat} {rest : Except Fault Text}
    {fault : Fault} (hform : Written c form)
    (ih : ∀ {fault : Fault}, rest = .error fault → ∃ t left, s = encode t ++ left ∧
      Stuck (index + form.length + (encode t).length) left fault)
    (h : rest.map (c :: ·) = .error fault) :
    ∃ t left, form ++ s = encode t ++ left ∧ Stuck (index + (encode t).length) left fault := by
  cases rest with
  | ok t => cases h
  | error found =>
    cases h
    obtain ⟨t, left, hs, hstuck⟩ := ih rfl
    refine ⟨c :: t, left, ?_, ?_⟩
    · rw [hs, encode_cons, ← hform.eq_encodeChar, List.append_assoc]
    · rwa [encode_cons, ← hform.eq_encodeChar, List.length_append, ← Nat.add_assoc]

/-- Every fault stands after a text, where the reader is stuck. -/
theorem stuck_of_decodeFrom {index : Nat} {bytes : List UInt8} {fault : Fault}
    (h : decodeFrom index bytes = .error fault) :
    ∃ t rest, bytes = encode t ++ rest ∧ Stuck (index + (encode t).length) rest fault := by
  -- a character that is read moves the stuck place on; every other case is stuck where it stands
  fun_induction decodeFrom index bytes generalizing fault with
  | case1 => cases h
  | case2 index b s hb ih => exact (Written.one hb).stuck ih h
  | case3 index b s hb hopen =>
    cases h
    have hnot : ¬ Leads ([] ++ [b]) := by
      intro hleads
      rcases first_of_leads hleads with hlt | hsome
      · exact hb hlt
      · rw [hopen] at hsome
        cases hsome
    exact ⟨[], _, rfl, .breaks begins_nil hnot⟩
  | case4 index b _ more low high hopen =>
    cases h
    exact ⟨[], _, rfl, .ends (by simp) (begins_first hopen)⟩
  | case5 index b _ more low high hopen b₁ s hrange =>
    cases h
    have hnot : ¬ Leads ([b] ++ [b₁]) := by
      intro hleads
      obtain ⟨more', low', high', hopen', hfits⟩ := second_of_leads hleads
      rw [hopen] at hopen'
      cases hopen'
      simp [hfits.1, hfits.2] at hrange
    exact ⟨[], _, rfl, .breaks (begins_first hopen) hnot⟩
  | case6 index b _ low high b₁ s hrange hopen ih =>
    have hopens : Opens 1 b b₁ := ⟨low, high, hopen, by simpa using hrange⟩
    exact (Written.two hopens).stuck ih h
  | case7 index b _ more low high hopen b₁ hrange hone =>
    cases h
    have hopens : Opens more b b₁ := ⟨low, high, hopen, by simpa using hrange⟩
    exact ⟨[], _, rfl, .ends (by simp) (begins_second hopens hone)⟩
  | case8 index b _ more low high hopen b₁ hrange hone b₂ s hb₂ =>
    cases h
    have hopens : Opens more b b₁ := ⟨low, high, hopen, by simpa using hrange⟩
    have hnot : ¬ Leads ([b, b₁] ++ [b₂]) := by
      intro hleads
      simp [third_of_leads hleads] at hb₂
    exact ⟨[], _, rfl, .breaks (begins_second hopens hone) hnot⟩
  | case9 index b _ low high b₁ hrange b₂ s hb₂ hopen _ ih =>
    have hopens : Opens 2 b b₁ := ⟨low, high, hopen, by simpa using hrange⟩
    exact (Written.three hopens (by simpa using hb₂)).stuck ih h
  | case10 index b _ more low high hopen b₁ hrange hone b₂ hb₂ htwo =>
    cases h
    have hopens : Opens more b b₁ := ⟨low, high, hopen, by simpa using hrange⟩
    rw [hopens.eq_three hone htwo] at hopens
    exact ⟨[], _, rfl, .ends (by simp) (begins_third hopens (by simpa using hb₂))⟩
  | case11 index b _ more low high hopen b₁ hrange hone b₂ hb₂ htwo b₃ s hb₃ =>
    cases h
    have hopens : Opens more b b₁ := ⟨low, high, hopen, by simpa using hrange⟩
    rw [hopens.eq_three hone htwo] at hopens
    have hnot : ¬ Leads ([b, b₁, b₂] ++ [b₃]) := by
      intro hleads
      simp [fourth_of_leads hleads] at hb₃
    exact ⟨[], _, rfl, .breaks (begins_third hopens (by simpa using hb₂)) hnot⟩
  | case12 index b _ more low high hopen b₁ hrange hone b₂ hb₂ htwo b₃ s hb₃ ih =>
    have hopens : Opens more b b₁ := ⟨low, high, hopen, by simpa using hrange⟩
    rw [hopens.eq_three hone htwo] at hopens
    exact (Written.four hopens (by simpa using hb₂) (by simpa using hb₃)).stuck ih h

theorem isText_iff {bytes : List UInt8} : IsText bytes ↔ ∃ t, decode bytes = .ok t := by
  unfold IsText
  simp only [decode_eq_ok_iff]

/-- **The reader fails exactly with the fault that describes its bytes.** -/
theorem decode_eq_error_iff {bytes : List UInt8} {fault : Fault} :
    decode bytes = .error fault ↔ fault.Describes bytes := by
  have hdescribes : ∀ {found : Fault}, decode bytes = .error found → found.Describes bytes := by
    intro found h
    have hnot : ¬ IsText bytes := by
      rw [isText_iff, h]
      rintro ⟨t, ht⟩
      cases ht
    obtain ⟨t, rest, rfl, hstuck⟩ := stuck_of_decodeFrom h
    rw [Nat.zero_add] at hstuck
    exact hstuck.describes hnot
  constructor
  · exact hdescribes
  · intro h
    have hnot : ¬ IsText bytes := by cases h <;> assumption
    rw [isText_iff] at hnot
    cases hdecode : decode bytes with
    | ok t => exact absurd ⟨t, hdecode⟩ hnot
    | error found => rw [(hdescribes hdecode).unique h]

end ToolCatalog.Utf8
