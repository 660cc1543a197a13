/-!
# Errors of the operating system

The causes for which a file operation can fail here, with the texts that report them.
-/

namespace ApiShorthand

/-- Why the operating system refused an operation. -/
inductive OsError where
  /-- A component of the path does not exist. -/
  | notFound
  /-- A file is no program in a form that can be started. -/
  | notProgram
  /-- The file may not be used that way. -/
  | denied
  /-- A component that has to be a directory is none. -/
  | notDirectory
  /-- A directory stands where a file is needed. -/
  | isDirectory
  /-- A component of the path, or the path, is too long. -/
  | nameTooLong
  /-- Symbolic links lead in a circle, or through too many steps. -/
  | tooManyLinks
  /-- The path holds the character NUL. -/
  | nulInPath
deriving DecidableEq, Repr

namespace OsError

/-- The text that reports an error. -/
def message : OsError → String
  | notFound => "No such file or directory (os error 2)"
  | notProgram => "Exec format error (os error 8)"
  | denied => "Permission denied (os error 13)"
  | notDirectory => "Not a directory (os error 20)"
  | isDirectory => "Is a directory (os error 21)"
  | nameTooLong => "File name too long (os error 36)"
  | tooManyLinks => "Too many levels of symbolic links (os error 40)"
  | nulInPath => "file name contained an unexpected NUL byte"

end OsError

end ApiShorthand
