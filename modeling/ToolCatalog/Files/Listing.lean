import ToolCatalog.Files.Walk

/-!
# Pages of files

The files below a root are listed a page at a time. Pages are counted from one and hold from one to
a hundred files; a number outside these bounds counts as the nearest one inside. Files are counted in
words of 64 bits: where more would have to be passed over than a word can say, as many are passed over
as it can.
-/

namespace ToolCatalog

def maxPerPage : Nat := 100

def defaultExcludeDirs : List Text := ["node_modules", "vendor", "__pycache__", "dist", "build"]

structure FileQuery where
  /-- Only files with this extension; dots in front of it do not count. -/
  extension : Option Text := none
  /-- Which page, from one on. -/
  page : Nat := 1
  perPage : Nat := maxPerPage
  excludeDirs : List Text := defaultExcludeDirs
deriving DecidableEq, Repr

def maxCount : Nat := Nat.pow 2 64 - 1

/-- A product of counts; one that is too large counts as the largest count. -/
def saturatingMul (a b : Nat) : Nat := min (a * b) maxCount

/-- The entries of a list that are on a page of a size. -/
def pageOf {α : Type} (page size : Nat) (l : List α) : List α :=
  let size := min (max size 1) maxPerPage
  (l.drop (saturatingMul (max page 1 - 1) size)).take size

/-- One page of the visible files below a root. -/
def FileSystem.listFiles (fs : FileSystem) (root : Text) (q : FileQuery) :
    Except Error (List Text) :=
  (fs.walk root q.extension q.excludeDirs).map (pageOf q.page q.perPage)

end ToolCatalog
