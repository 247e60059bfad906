import ToolCatalog.Declaration.Extract
import ToolCatalog.Files.Contained
import ToolCatalog.Proofs.Text.Utf8Faults

/-!
# Sources given as bytes

A source that is given as bytes is refused for its tag first, whatever the bytes are. Under a known tag it is
the same as its text, and where there is no text the answer is the one fault that describes the bytes
(`extractBytes_agrees`). A file that is read within a root is refused with that fault too.
-/

namespace ToolCatalog

namespace Language

/-- A tag that names no language is refused, and the refusal names it. -/
theorem ofTag_of_notMem {t : Text} (h : t ∉ all.map tag) : ofTag t = .error (.unsupportedLanguage t) := by
  have hnone : all.find? (fun l => l.tag = t) = none := by
    rw [List.find?_eq_none]
    intro l hl
    rw [decide_eq_true_eq]
    rintro rfl
    exact h (List.mem_map_of_mem hl)
  unfold ofTag
  rw [hnone]

theorem exists_ofTag {t : Text} (h : t ∈ all.map tag) : ∃ l, ofTag t = .ok l := by
  obtain ⟨l, -, rfl⟩ := List.mem_map.1 h
  exact ⟨l, ofTag_tag l⟩

end Language

/-- What is read of a file within a root is the text of its bytes. -/
theorem FileSystem.readContained_of_readAt {fs : FileSystem} {root path : Text} {names : List Text}
    {bytes : List UInt8} (hnames : fs.resolveContained root path = .ok names)
    (hbytes : fs.readAt names = .ok bytes) : fs.readContained root path = decodeText bytes := by
  unfold readContained
  simp only [hnames, hbytes, bind, Except.bind, liftFault]

namespace Declaration

variable {bytes : List UInt8} {tag : Text}

theorem extractBytes_of_language {l : Language} (htag : Language.ofTag tag = .ok l) :
    extractBytes bytes tag = match Utf8.decode bytes with
      | .ok text => .ok (extract l {} text)
      | .error fault => .error (.undecodable fault) := by
  unfold extractBytes
  rw [htag]
  rfl

theorem extractBytes_of_error {e : Error} (htag : Language.ofTag tag = .error e) :
    extractBytes bytes tag = .error e := by
  unfold extractBytes
  rw [htag]
  rfl

/-- The bytes of a text are as good as the text. -/
theorem extractBytes_encode (s tag : Text) : extractBytes (Utf8.encode s) tag = extractTagged s tag := by
  unfold extractTagged
  cases htag : Language.ofTag tag with
  | error e => rw [extractBytes_of_error htag]; rfl
  | ok l => rw [extractBytes_of_language htag, Utf8.decode_eq_ok_iff.2 rfl]; rfl

/-- **Bytes are read as their text, and refused where there is none.** An unknown tag is refused first. -/
theorem extractBytes_agrees (bytes : List UInt8) (tag : Text) :
    let tags : List Text := ["python", "javascript", "typescript"]
    (tag ∉ tags → extractBytes bytes tag = .error (.unsupportedLanguage tag)) ∧
    (∀ s, bytes = Utf8.encode s → extractBytes bytes tag = extractTagged s tag) ∧
    ((∀ s, bytes ≠ Utf8.encode s) → ∃ fault : Utf8.Fault, fault.Describes bytes ∧
      (tag ∈ tags → extractBytes bytes tag = .error (.undecodable fault)) ∧
      ∀ (fs : FileSystem) (root path : Text) (names : List Text),
        fs.resolveContained root path = .ok names → fs.readAt names = .ok bytes →
          fs.readContained root path = .error (.undecodable fault)) := by
  intro tags
  have htags : Language.all.map Language.tag = tags := rfl
  refine ⟨?_, ?_, ?_⟩
  · intro htag
    exact extractBytes_of_error (Language.ofTag_of_notMem htag)
  · rintro s rfl
    exact extractBytes_encode s tag
  · intro hnot
    cases hdecode : Utf8.decode bytes with
    | ok s => exact absurd (Utf8.decode_eq_ok_iff.1 hdecode) (hnot s)
    | error fault =>
      refine ⟨fault, Utf8.decode_eq_error_iff.1 hdecode, ?_, ?_⟩
      · intro htag
        obtain ⟨l, hl⟩ := Language.exists_ofTag htag
        rw [extractBytes_of_language hl, hdecode]
      · intro fs root path names hnames hbytes
        rw [FileSystem.readContained_of_readAt hnames hbytes, FileSystem.decodeText, hdecode]

/-- A letter, and then two bytes of a character that needs four. -/
def cutShort : List UInt8 := [0x61, 0xF0, 0x9F]

/-- A file with these bytes. -/
def cutShortFile : FileSystem where
  root := .directory [("r".toList, .directory [("b.py".toList, .file cutShort)])]

/-- Bytes that end inside a character are refused from where it begins, given as a source or read from a
file, and an unknown tag is refused before that. The letter alone is read. -/
theorem extractBytes_cutShort :
    extractBytes cutShort "ruby" = .error (.unsupportedLanguage "ruby".toList) ∧
    extractBytes [0x61] "python" = extractTagged "a" "python" ∧
    (Utf8.Fault.incomplete 1).Describes cutShort ∧
    extractBytes cutShort "python" = .error (.undecodable (.incomplete 1)) ∧
    cutShortFile.resolveContained "/r" "./b.py" = .ok ["r".toList, "b.py".toList] ∧
    cutShortFile.readContained "/r" "./b.py" = .error (.undecodable (.incomplete 1)) := by
  have hresolved : cutShortFile.resolveContained "/r" "./b.py" = .ok ["r".toList, "b.py".toList] := by
    decide +kernel
  have hdecode : Utf8.decode cutShort = .error (.incomplete 1) := by decide +kernel
  have hnot : ∀ s, cutShort ≠ Utf8.encode s := by
    intro s hs
    rw [Utf8.decode_eq_ok_iff.2 hs] at hdecode
    cases hdecode
  obtain ⟨hruby, -, -⟩ := extractBytes_agrees cutShort "ruby"
  obtain ⟨-, hletter, -⟩ := extractBytes_agrees [0x61] "python"
  obtain ⟨-, -, hcut⟩ := extractBytes_agrees cutShort "python"
  obtain ⟨fault, hdescribes, hextract, hread⟩ := hcut hnot
  have hfault := hdescribes.unique (Utf8.decode_eq_error_iff.1 hdecode)
  subst hfault
  exact ⟨hruby (by decide), hletter "a" (by decide), hdescribes, hextract (by decide), hresolved,
    hread cutShortFile "/r" "./b.py" _ hresolved rfl⟩

end Declaration

end ToolCatalog
