/-!
# Storage

What the library asks of a file system. Paths are texts, contents are bytes, and a failure has no
reason: it is told together with the path by whoever asked.
-/

namespace DraftDesk

/-- What comes of reading a path. -/
inductive Reading where
  /-- There is nothing at the path. -/
  | absent
  /-- There is something at the path that is no readable file. -/
  | unreadable
  | content (bytes : List UInt8)
  deriving DecidableEq, Repr

structure Storage (m : Type → Type) where
  read : String → m Reading
  /-- Writes a file in place of the present one, below a directory that exists. -/
  write : String → List UInt8 → m Bool
  /-- Removes a file; there need not be one. -/
  remove : String → m Bool
  /-- Makes a directory and those above it that do not exist. -/
  makeDirectory : String → m Bool

end DraftDesk
