import DraftDesk.Paths
import DraftDesk.Payloads
import DraftDesk.Storage

/-!
# Uploads of files

The media type of a file is guessed from the extension of its name, without regard to the case of
ASCII letters.
-/

namespace DraftDesk

/-- The media type for a path. -/
def mediaType (path : String) : String :=
  match (Paths.extension? path).map String.toLower with
  | some "jpg" | some "jpeg" => "image/jpeg"
  | some "png" => "image/png"
  | some "gif" => "image/gif"
  | some "webp" => "image/webp"
  | some "svg" => "image/svg+xml"
  | some "pdf" => "application/pdf"
  | some "mp4" => "video/mp4"
  | _ => "application/octet-stream"

/-- Why a file cannot be uploaded. -/
inductive FileUploadError where
  | unreadable (path : String)
  | nameless (path : String)
  deriving DecidableEq, Repr

def FileUploadError.message : FileUploadError → String
  | .unreadable path => "Failed to read " ++ path
  | .nameless path => "No file name in " ++ path

/-- The upload of the file at a path. -/
def Upload.ofFile {m : Type → Type} [Monad m] (storage : Storage m) (path : String) :
    ExceptT FileUploadError m Upload := do
  match ← storage.read path with
  | .content bytes =>
    match Paths.fileName? path with
    | some name => return .ofBytes (mediaType path) name bytes
    | none => throw (.nameless path)
  | _ => throw (.unreadable path)

end DraftDesk
