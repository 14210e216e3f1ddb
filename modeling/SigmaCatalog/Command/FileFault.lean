/-!
# Files that cannot be read

Why the file that a command names cannot be read.
-/

namespace SigmaCatalog

/-- Why a file cannot be read. -/
inductive FileFault where
  | missing
  | notDirectory
  | isDirectory
  deriving DecidableEq, Repr

def FileFault.message : FileFault → String
  | missing => "No such file or directory (os error 2)"
  | notDirectory => "Not a directory (os error 20)"
  | isDirectory => "Is a directory (os error 21)"

end SigmaCatalog
