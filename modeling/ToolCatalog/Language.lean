import ToolCatalog.Error
import ToolCatalog.Text.Case

/-!
# Source languages

The languages whose declarations are recognised, the tags that name them, and the file extensions
that give them away. Tags are matched exactly, extensions without regard to case.
-/

namespace ToolCatalog

inductive Language where
  | python
  | javascript
  | typescript
deriving DecidableEq, Repr

namespace Language

def tag : Language → Text
  | .python => "python"
  | .javascript => "javascript"
  | .typescript => "typescript"

/-- The name of a language as it is shown to people. -/
def display : Language → Text
  | .python => "Python"
  | .javascript => "JavaScript"
  | .typescript => "TypeScript"

def all : List Language := [.python, .javascript, .typescript]

def ofTag (t : Text) : Except Error Language :=
  match all.find? (fun l => l.tag = t) with
  | some l => .ok l
  | none => .error (.unsupportedLanguage t)

/-- The file extensions of a language, without the dot. -/
def extensions : Language → List Text
  | .python => ["py"]
  | .javascript => ["js", "jsx", "mjs", "cjs"]
  | .typescript => ["ts", "tsx"]

def ofExtension? (ext : Text) : Option Language :=
  all.find? fun l => l.extensions.contains (Text.lower ext)

/-- The language whose rules recognise the declarations of a language: TypeScript's rules also serve
for JavaScript. -/
def scannedAs : Language → Language
  | .python => .python
  | .javascript => .typescript
  | .typescript => .typescript

theorem ofTag_tag (l : Language) : ofTag l.tag = .ok l := by cases l <;> rfl

end Language

end ToolCatalog
