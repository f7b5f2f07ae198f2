/-!
# Faults of files

## Main definitions

* `FileFault`: why a file cannot be read or created
-/

namespace ContainerTasks

/-- Why a file cannot be read or created. -/
inductive FileFault where
  | notFound
  | notDirectory
  | isDirectory
  | nameTooLong
  /-- No file can have such a name. -/
  | nulInName
  /-- The bytes of the file are no text. -/
  | invalidText
  | other (message : String)
  deriving DecidableEq

/-- The wording of a fault. -/
def FileFault.message : FileFault → String
  | notFound => "No such file or directory (os error 2)"
  | notDirectory => "Not a directory (os error 20)"
  | isDirectory => "Is a directory (os error 21)"
  | nameTooLong => "File name too long (os error 36)"
  | nulInName => "file name contained an unexpected NUL byte"
  | invalidText => "stream did not contain valid UTF-8"
  | other message => message

end ContainerTasks
