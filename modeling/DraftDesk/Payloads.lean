import DraftDesk.Base64
import DraftDesk.JsonRecord
import DraftDesk.LabelTable

/-!
# Payloads

What is sent to the server and what it replies, as JSON.
-/

namespace DraftDesk

/-! ## Drafts -/

structure Draft where
  title : String
  content : String
  deriving DecidableEq, Repr, Inhabited

namespace Draft

def toJson (d : Draft) : Json := .record [("title", .text d.title), ("content", .text d.content)]

def ofJson? (value : Json) : Option Draft :=
  match value.fields? ["title", "content"] with
  | some [some title, some content] => do return ⟨← title.text?, ← content.text?⟩
  | _ => none

end Draft

/-! ## Uploads -/

structure Upload where
  mime : String
  filename : String
  /-- The content in base64. -/
  data : String
  deriving DecidableEq, Repr, Inhabited

namespace Upload

/-- The upload of a file with a content. -/
def ofBytes (mime filename : String) (bytes : List UInt8) : Upload :=
  ⟨mime, filename, String.ofList (Base64.encode bytes)⟩

/-- The size of the content in bytes. -/
def size (u : Upload) : Nat := Base64.decodedLength u.data

def toJson (u : Upload) : Json :=
  .record [("mime", .text u.mime), ("filename", .text u.filename), ("data", .text u.data)]

def ofJson? (value : Json) : Option Upload :=
  match value.fields? ["mime", "filename", "data"] with
  | some [some mime, some filename, some data] => do
    return ⟨← mime.text?, ← filename.text?, ← data.text?⟩
  | _ => none

end Upload

/-- The reply to an upload. -/
structure UploadReply where
  ok : Bool
  /-- The name under which the server stored the file. -/
  filename : Option String
  error : Option String
  deriving DecidableEq, Repr, Inhabited

def UploadReply.ofJson? (value : Json) : Option UploadReply :=
  match value.fields? ["ok", "filename", "error"] with
  | some [some ok, filename, error] => do
    return ⟨← ok.bool?, ← (filename.getD .null).optionalText?, ← (error.getD .null).optionalText?⟩
  | _ => none

/-! ## Labels -/

/-- The value of the only field of a reply with labels. -/
def labelField? (value : Json) : Option Json :=
  match value.fields? ["t9n"] with
  | some [field] => field
  | _ => none

/-- The label in the reply to a request for one. -/
def labelOfJson? (value : Json) : Option String := (labelField? value).bind Json.text?

/-- The labels of an object; of two members with one key the later counts. -/
def LabelTable.ofJson? : Json → Option LabelTable
  | .object members => LabelTable.ofList <$> members.mapM fun (key, label) => do
      return (← key, ← label.text?)
  | _ => none

/-- The table in the reply to a request for all labels. -/
def labelTableOfJson? (value : Json) : Option LabelTable :=
  (labelField? value).bind LabelTable.ofJson?

end DraftDesk
