import Inlay.Path.Basic
import Inlay.Text.Quoted

/-!
# File errors

Why a file could not be reached, read or made, and the words for it, which name the path as the
caller spelled it.
-/

namespace Inlay

/-- What stands in the way at a path. -/
inductive Obstacle where
  | notFound
  | alreadyExists
  | notDirectory
  | isDirectory
  | nameTooLong
  | tooManyLinks
  /-- The path holds the null character, which no path may. -/
  | nullCharacter
  /-- More directories are missing than are made for one path. -/
  | tooManyMissing
deriving DecidableEq, Repr

/-- How an obstacle is put into words. -/
inductive Wording where
  /-- By the number under which the system knows it and its name there; the path follows. -/
  | system (number : Nat) (name : Text)
  /-- By words that do not name the path. -/
  | plain (words : Text)

/-- The words for an obstacle. -/
def Obstacle.wording : Obstacle → Wording
  | .notFound => .system 2 "No such file or directory".toList
  | .alreadyExists => .system 17 "File exists".toList
  | .notDirectory => .system 20 "Not a directory".toList
  | .isDirectory => .system 21 "Is a directory".toList
  | .nameTooLong => .system 36 "File name too long".toList
  | .tooManyLinks => .system 40 "Too many levels of symbolic links".toList
  | .nullCharacter => .plain "embedded null byte".toList
  | .tooManyMissing =>
    .plain "maximum recursion depth exceeded while calling a Python object".toList

/-- A file operation failed at a path. -/
structure FileError where
  obstacle : Obstacle
  path : Path
deriving DecidableEq

/-- The words for a file error. -/
def FileError.message (e : FileError) : Text :=
  match e.obstacle.wording with
  | .system number name =>
    "[Errno ".toList ++ Text.ofNat number ++ "] ".toList ++ name ++ ": ".toList
      ++ Text.quoted e.path.toText
  | .plain words => words

end Inlay
