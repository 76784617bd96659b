/-!
# Disks

What a command can ask of the files it works with: the text of a file and the names in a directory.
Answers come in any monad, so that the same command runs on real files and on a tree of files that
is a value.
-/

namespace TradingRules

/-- Why a file or a directory cannot be read. -/
inductive DiskFault where
  | notFound
  | notADirectory
  | isADirectory
  /-- The path, or one name in it, has more bytes than the system takes. -/
  | nameTooLong
  /-- The path holds the character that ends a path. -/
  | zeroCharacter
  | notUtf8
  | other (reason : String)
deriving DecidableEq, Repr

def DiskFault.message : DiskFault → String
  | .notFound => "No such file or directory (os error 2)"
  | .notADirectory => "Not a directory (os error 20)"
  | .isADirectory => "Is a directory (os error 21)"
  | .nameTooLong => "File name too long (os error 36)"
  | .zeroCharacter => "file name contained an unexpected NUL byte"
  | .notUtf8 => "stream did not contain valid UTF-8"
  | .other reason => reason

structure Disk (m : Type → Type) where
  read : (path : String) → m (Except DiskFault String)
  list : (path : String) → m (Except DiskFault (List String))

end TradingRules
