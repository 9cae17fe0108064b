/-!
# Faults of a storage

The points at which the use of a file can fail.
-/

namespace Dialects

/-- An operation on a file that can fail. -/
inductive FileFault where
  /-- Opening for writing. -/
  | openWrite
  /-- Taking a piece of text. -/
  | write
  /-- Storing what has been taken. -/
  | commit
  /-- Reading. -/
  | read
  deriving DecidableEq, Repr

end Dialects
