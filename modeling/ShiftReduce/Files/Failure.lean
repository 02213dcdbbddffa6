/-!
# Files that cannot be read

Why a file could not be read as a text.  The number in a message is the number
that the operating system gives the failure.
-/

namespace ShiftReduce

/-- Why a file could not be read as a text. -/
inductive ReadFailure where
  | notFound
  /-- The path goes on after a file. -/
  | notADirectory
  | isADirectory
  | nameTooLong
  /-- The path holds a NUL, which ends a path for the operating system. -/
  | nulInPath
  | notUtf8
  | other (description : String)
deriving DecidableEq, Repr

/-- The failure in words. -/
def ReadFailure.message : ReadFailure → String
  | .notFound => "No such file or directory (os error 2)"
  | .notADirectory => "Not a directory (os error 20)"
  | .isADirectory => "Is a directory (os error 21)"
  | .nameTooLong => "File name too long (os error 36)"
  | .nulInPath => "file name contained an unexpected NUL byte"
  | .notUtf8 => "stream did not contain valid UTF-8"
  | .other description => description

end ShiftReduce
