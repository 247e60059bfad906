import ToolCatalog.Declaration.Header
import ToolCatalog.Proofs.Text.Runs

/-!
# What the parts of a header recogniser accept

A recogniser takes a line apart from left to right and never goes back. Each of its parts is described
here by the texts it accepts: a word with blanks after it, a name, a parenthesised text. The parts of a
line are separated by characters that cannot belong to both sides, so there is only one place where
a part can end, except for a parenthesised text: there every closing parenthesis is a candidate, and
the recogniser finds the shortest text whose continuation is accepted (`upToParen?_eq_some_iff`).
-/

namespace ToolCatalog.Header

open Text

/-- Blanks, at least one of them. -/
def Gap (w : Text) : Prop := w ≠ [] ∧ allBlank w = true

/-- A name: word characters, at least one of them. -/
def Identifier (n : Text) : Prop := n ≠ [] ∧ n.all isWord = true

/-- The text `s` is `t`, or `t` after a word and blanks. -/
def Optionally (word s t : Text) : Prop := s = t ∨ ∃ w, Gap w ∧ s = word ++ w ++ t

theorem Identifier.stops {n s : Text} (h : Identifier n) : Stops isBlank (n ++ s) :=
  stops_blank_of_word h.1 h.2

theorem isPublic_iff {h : Header} : h.isPublic = true ↔ h.name.head? ≠ some '_' := by
  unfold isPublic
  exact bne_iff_ne

/-! ## Words -/

theorem afterWord?_eq_some_iff {word s r : Text} :
    afterWord? word s = some r ↔ ∃ w, Gap w ∧ Stops isBlank r ∧ s = word ++ w ++ r := by
  constructor
  · intro h
    unfold afterWord? at h
    split at h
    · rename_i c rest hafter
      split at h
      · rename_i hc
        cases h
        obtain ⟨w, hrest, hw⟩ := trimStart_append_blanks rest
        refine ⟨c :: w, ⟨by simp, by simpa [allBlank, hc] using hw⟩, stops_dropWhile _ _, ?_⟩
        rw [after?_eq_some_iff.1 hafter, List.append_assoc, List.cons_append, ← hrest]
      · cases h
    · cases h
  · rintro ⟨w, ⟨hne, hw⟩, hr, rfl⟩
    cases w with
    | nil => exact absurd rfl hne
    | cons c w =>
      rw [allBlank, List.all_cons, Bool.and_eq_true] at hw
      rw [afterWord?, List.append_assoc, after?_append]
      simp only [List.cons_append, hw.1, if_true, Option.some.injEq]
      exact trimStart_blanks hw.2 hr

/-- Where another word stands, this one does not. -/
theorem afterWord?_eq_none {word s : Text} (h : after? word s = none) : afterWord? word s = none := by
  unfold afterWord?
  rw [h]

theorem optionally_skipWord (word s : Text) : Optionally word s (skipWord word s) := by
  unfold skipWord
  cases h : afterWord? word s with
  | none => exact Or.inl rfl
  | some r =>
    obtain ⟨w, hw, -, hs⟩ := afterWord?_eq_some_iff.1 h
    exact Or.inr ⟨w, hw, hs⟩

theorem skipWord_of_optionally {word s t : Text} (ht : Stops isBlank t) (hword : after? word t = none)
    (h : Optionally word s t) : skipWord word s = t := by
  unfold skipWord
  rcases h with rfl | ⟨w, hw, rfl⟩
  · rw [afterWord?_eq_none hword, Option.getD_none]
  · rw [afterWord?_eq_some_iff.2 ⟨w, hw, ht, rfl⟩, Option.getD_some]

/-- Two optional words, one after the other: each is told apart from the other and from what follows. -/
theorem skipWord_twice {first second s t u : Text} (hu : Stops isBlank u)
    (hfirst : after? first u = none) (hsecond : after? second u = none)
    (hapart : ∀ r, Stops isBlank (second ++ r) ∧ after? first (second ++ r) = none)
    (ht : Optionally first s t) (htu : Optionally second t u) :
    skipWord first s = t ∧ skipWord second t = u := by
  refine ⟨?_, skipWord_of_optionally hu hsecond htu⟩
  rcases htu with rfl | ⟨w, -, rfl⟩
  · exact skipWord_of_optionally hu hfirst ht
  · rw [List.append_assoc] at ht ⊢
    exact skipWord_of_optionally (hapart _).1 (hapart _).2 ht

/-! ## Names -/

theorem name?_eq_some_iff {s n r : Text} :
    name? s = some (n, r) ↔ Identifier n ∧ Stops isWord r ∧ s = n ++ r := by
  constructor
  · intro h
    unfold name? at h
    split at h
    · cases h
    · rename_i hne
      cases h
      refine ⟨⟨by simpa using hne, List.all_takeWhile⟩, stops_dropWhile _ _, ?_⟩
      exact List.takeWhile_append_dropWhile.symm
  · rintro ⟨⟨hne, hn⟩, hr, rfl⟩
    unfold name?
    rw [takeWhile_run hn hr, dropWhile_run hn hr]
    simp [hne]

/-! ## Parenthesised texts -/

theorem eq_append_of_upToParen? {accept : Text → Bool} :
    ∀ {s p : Text}, upToParen? accept s = some p → ∃ r, accept r = true ∧ s = p ++ ')' :: r
  | [], p, h => by cases h
  | c :: s, p, h => by
    unfold upToParen? at h
    split at h
    · rename_i hc
      rw [Bool.and_eq_true, decide_eq_true_eq] at hc
      cases h
      exact ⟨s, hc.2, by simp [hc.1]⟩
    · obtain ⟨q, hq, rfl⟩ := Option.map_eq_some_iff.1 h
      obtain ⟨r, hr, rfl⟩ := eq_append_of_upToParen? hq
      exact ⟨r, hr, rfl⟩

/-- An accepted continuation is found, or one before it. -/
theorem upToParen?_le {accept : Text → Bool} {r : Text} (hr : accept r = true) :
    ∀ p : Text, ∃ q, upToParen? accept (p ++ ')' :: r) = some q ∧ q.length ≤ p.length
  | [] => ⟨[], by simp [upToParen?, hr], by simp⟩
  | c :: p => by
    obtain ⟨q, hq, hle⟩ := upToParen?_le hr p
    rw [List.cons_append, upToParen?, hq]
    split
    · exact ⟨[], rfl, by simp⟩
    · exact ⟨c :: q, rfl, by simpa using hle⟩

/-- A text that a closing parenthesis ends, with an accepted continuation after it. -/
def Closes (accept : Text → Bool) (s p : Text) : Prop :=
  ∃ tail, accept tail = true ∧ s = p ++ ")" ++ tail

/-- A text with a property, and none with it is shorter. -/
def Shortest (P : Text → Prop) (p : Text) : Prop := P p ∧ ∀ q, P q → p.length ≤ q.length

theorem Shortest.exists {P : Text → Prop} {p : Text} (h : P p) : ∃ q, Shortest P q := by
  by_cases hmin : ∀ q, P q → p.length ≤ q.length
  · exact ⟨p, h, hmin⟩
  · simp only [Classical.not_forall, Nat.not_le] at hmin
    obtain ⟨q, hq, hlt⟩ := hmin
    exact Shortest.exists hq
termination_by p.length

theorem upToParen?_eq_some_iff {accept : Text → Bool} {s p : Text} :
    upToParen? accept s = some p ↔ Shortest (Closes accept s) p := by
  constructor
  · intro h
    obtain ⟨r, hr, hs⟩ := eq_append_of_upToParen? h
    refine ⟨⟨r, hr, by simpa using hs⟩, ?_⟩
    rintro q ⟨r', hr', rfl⟩
    obtain ⟨q', hq', hle⟩ := upToParen?_le hr' q
    have hq : upToParen? accept (q ++ ")" ++ r') = some q' := by simpa using hq'
    rw [hq] at h
    cases h
    exact hle
  · rintro ⟨⟨r, hr, hs⟩, hmin⟩
    have hs : s = p ++ ')' :: r := by simpa using hs
    obtain ⟨q, hq, hle⟩ := upToParen?_le hr p
    rw [← hs] at hq
    obtain ⟨r', hr', hs'⟩ := eq_append_of_upToParen? hq
    have hlen : p.length = q.length := Nat.le_antisymm (hmin q ⟨r', hr', by simpa using hs'⟩) hle
    rw [hq, (List.append_inj (hs.symm.trans hs') hlen).1]

/-- A header has the form with a name and parameters, and with no shorter parameters. -/
def ShortestForm (Form : Text → Text → Prop) (n p : Text) : Prop :=
  Form n p ∧ ∀ n' p', Form n' p' → p.length ≤ p'.length

theorem ShortestForm.exists {Form : Text → Text → Prop} {n p : Text} (h : Form n p)
    (hname : ∀ n' p', Form n' p' → n' = n) : ∃ q, ShortestForm Form n q := by
  obtain ⟨q, ⟨n', hq⟩, hmin⟩ := Shortest.exists (P := fun q => ∃ n, Form n q) ⟨n, h⟩
  rw [hname n' q hq] at hq
  exact ⟨q, hq, fun m r hr => hmin r ⟨m, hr⟩⟩

/-- Where a header opens in one way only, the shortest parameters over all ways to write the header are
those that the search for a closing parenthesis gives. -/
theorem shortest_closes_iff {accept : Text → Bool} {Open Form : Text → Text → Prop} {n p : Text}
    (hunique : ∀ {n t n' t'}, Open n t → Open n' t' → n = n' ∧ t = t')
    (hform : ∀ {n p}, Form n p ↔ ∃ tail, accept tail = true ∧ Open n (p ++ ")" ++ tail)) :
    (∃ t, Open n t ∧ Shortest (Closes accept t) p) ↔ ShortestForm Form n p := by
  constructor
  · rintro ⟨_, hopen, ⟨tail, htail, rfl⟩, hmin⟩
    refine ⟨hform.2 ⟨tail, htail, hopen⟩, ?_⟩
    intro n' p' h'
    obtain ⟨tail', htail', hopen'⟩ := hform.1 h'
    exact hmin p' ⟨tail', htail', (hunique hopen hopen').2⟩
  · rintro ⟨h, hmin⟩
    obtain ⟨tail, htail, hopen⟩ := hform.1 h
    refine ⟨_, hopen, ⟨tail, htail, rfl⟩, ?_⟩
    rintro q ⟨tail', htail', heq⟩
    rw [heq] at hopen
    exact hmin n q (hform.2 ⟨tail', htail', hopen⟩)

/-- Up to a mark that it does not hold, a text is no longer than any other that the mark may end. -/
theorem length_le_of_append_mark {mark : Char} {b b' : Text} :
    ∀ {a a' : Text}, mark ∉ a → a ++ mark :: b = a' ++ mark :: b' → a.length ≤ a'.length
  | [], _, _, _ => Nat.zero_le _
  | c :: a, [], h, heq => by
    cases heq
    exact absurd (by simp) h
  | c :: a, d :: a', h, heq => by
    have htail := (List.cons.inj heq).2
    have hle := length_le_of_append_mark (fun hmem => h (List.mem_cons_of_mem c hmem)) htail
    simpa using hle

/-- Parameters that hold no closing parenthesis are the shortest. -/
theorem shortestForm_of_notMem {accept : Text → Bool} {Open Form : Text → Text → Prop} {n p : Text}
    (hunique : ∀ {n t n' t'}, Open n t → Open n' t' → n = n' ∧ t = t')
    (hform : ∀ {n p}, Form n p ↔ ∃ tail, accept tail = true ∧ Open n (p ++ ")" ++ tail))
    (h : Form n p) (hp : ')' ∉ p) : ShortestForm Form n p := by
  refine ⟨h, ?_⟩
  intro n' p' h'
  obtain ⟨tail, -, hopen⟩ := hform.1 h
  obtain ⟨tail', -, hopen'⟩ := hform.1 h'
  have heq := (hunique hopen hopen').2
  rw [List.append_assoc, List.append_assoc] at heq
  exact length_le_of_append_mark hp heq

/-! ## Callables -/

/-- A name, blanks and an opening parenthesis, with `t` after it. -/
def Opens (s n t : Text) : Prop :=
  ∃ w, Identifier n ∧ allBlank w = true ∧ s = n ++ w ++ "(" ++ t

theorem Opens.stops {s n t : Text} (h : Opens s n t) : Stops isBlank s := by
  obtain ⟨w, hn, -, rfl⟩ := h
  rw [List.append_assoc, List.append_assoc]
  exact hn.stops

theorem Opens.name? {s n t : Text} (h : Opens s n t) :
    ∃ r, Header.name? s = some (n, r) ∧ after? "(" (trimStart r) = some t := by
  obtain ⟨w, hn, hw, rfl⟩ := h
  have hword : Stops isWord (w ++ ("(" ++ t)) := stops_word_of_blank hw (by rfl)
  have htrim : trimStart (w ++ ("(" ++ t)) = "(" ++ t := trimStart_blanks hw (by rfl)
  refine ⟨w ++ ("(" ++ t), name?_eq_some_iff.2 ⟨hn, hword, by simp⟩, ?_⟩
  rw [htrim, after?_append]

/-- There is one way to read a name and an opening parenthesis. -/
theorem Opens.unique {s n t n' t' : Text} (h : Opens s n t) (h' : Opens s n' t') :
    n = n' ∧ t = t' := by
  obtain ⟨r, hr, ht⟩ := h.name?
  obtain ⟨r', hr', ht'⟩ := h'.name?
  rw [hr] at hr'
  cases hr'
  rw [ht] at ht'
  cases ht'
  exact ⟨rfl, rfl⟩

theorem callable?_eq_some_iff {accept : Text → Bool} {s : Text} {h : Header} :
    callable? accept s = some h ↔
      ∃ n t p, Opens s n t ∧ Shortest (Closes accept t) p ∧ h = .function n p := by
  constructor
  · intro hs
    unfold callable? at hs
    split at hs
    · cases hs
    · rename_i n r hname
      obtain ⟨hn, -, rfl⟩ := name?_eq_some_iff.1 hname
      split at hs
      · cases hs
      · rename_i t hopen
        obtain ⟨p, hp, rfl⟩ := Option.map_eq_some_iff.1 hs
        obtain ⟨w, hr, hw⟩ := trimStart_append_blanks r
        refine ⟨n, t, p, ⟨w, hn, hw, ?_⟩, upToParen?_eq_some_iff.1 hp, rfl⟩
        rw [after?_eq_some_iff.1 hopen] at hr
        rw [hr]
        simp
  · rintro ⟨n, t, p, hopen, hp, rfl⟩
    obtain ⟨r, hr, ht⟩ := hopen.name?
    unfold callable?
    rw [hr]
    simp only [ht]
    rw [upToParen?_eq_some_iff.2 hp, Option.map_some]

end ToolCatalog.Header
