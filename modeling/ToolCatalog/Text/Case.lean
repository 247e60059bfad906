import ToolCatalog.Text.Basic

/-!
# Letter case

Names that are matched without regard to case are all ASCII. Beyond ASCII only one character has a
lower case that is a single ASCII letter: the Kelvin sign, whose lower case is `k`. A character with
a longer or another lower case can never take part in a match with an ASCII name, so it stands for
itself here.
-/

namespace ToolCatalog.Text

/-- The lower case of a character, as far as an ASCII name can match it. -/
def lowerChar (c : Char) : Char := if c = '\u212A' then 'k' else c.toLower

def lower (s : Text) : Text := s.map lowerChar

end ToolCatalog.Text
