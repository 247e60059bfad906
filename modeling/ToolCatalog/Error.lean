import ToolCatalog.Text.Utf8

/-!
# Failures

Every way in which a request can fail, as its cause. The wording of each is in one place,
`Error.message`.
-/

namespace ToolCatalog

/-- Why the file system refuses a path or a read. -/
inductive FileFault where
  | notFound
  /-- Something else stands where an entry is to be made. -/
  | alreadyExists
  | notDirectory
  | isDirectory
  /-- A directory cannot be taken away from within. -/
  | invalidArgument
  | nameTooLong
  | tooManyLinks
  /-- A file that must be text holds bytes that are not. -/
  | notText
  /-- A path holds the character U+0000. -/
  | nulInPath
deriving DecidableEq, Repr

def FileFault.message : FileFault → Text
  | .notFound => "No such file or directory (os error 2)"
  | .alreadyExists => "File exists (os error 17)"
  | .notDirectory => "Not a directory (os error 20)"
  | .isDirectory => "Is a directory (os error 21)"
  | .invalidArgument => "Invalid argument (os error 22)"
  | .nameTooLong => "File name too long (os error 36)"
  | .tooManyLinks => "Too many levels of symbolic links (os error 40)"
  | .notText => "stream did not contain valid UTF-8"
  | .nulInPath => "file name contained an unexpected NUL byte"

/-- The parts of a function descriptor that can be at fault. -/
inductive DescriptorPart where
  | functions
  | name
  | description
  | parameters
  | required
deriving DecidableEq, Repr

def DescriptorPart.key : DescriptorPart → Text
  | .functions => "functions"
  | .name => "name"
  | .description => "description"
  | .parameters => "parameters"
  | .required => "required"

/-- Why a request fails. -/
inductive Error where
  | unsupportedLanguage (tag : Text)
  /-- There is no function to make a tool of. -/
  | noFunctions
  | malformedDescriptor (index : Nat) (part : DescriptorPart)
  | undecodable (fault : Utf8.Fault)
  | outsideRoot (path : Text)
  /-- The configured page size is outside its range. -/
  | pageSize (given : Nat)
  | file (fault : FileFault)
  | walk (fault : FileFault)
  | notJson
  | notToml
deriving DecidableEq, Repr

def Error.message : Error → Text
  | .unsupportedLanguage tag => "unsupported language: " ++ tag
  | .noFunctions => "functions parameter cannot be empty"
  | .malformedDescriptor index part =>
    "Malformed descriptor at index " ++ Text.ofNat index ++ ": missing or invalid `" ++ part.key
      ++ "`"
  | .undecodable fault => "Input is not valid UTF-8 text: " ++ fault.message
  | .outsideRoot path => "Path is outside repository bounds: " ++ path
  | .pageSize given =>
    "Configuration error: listing.per_page must be between 1 and 100, got " ++ Text.ofNat given
  | .file fault => "IO error: " ++ fault.message
  | .walk _ => "Directory walk error"
  | .notJson => "JSON error"
  | .notToml => "TOML parse error"

end ToolCatalog
