import DraftDesk.LabelCache
import DraftDesk.Payloads
import DraftDesk.PercentCoding
import DraftDesk.Utf8

/-!
# Requests

The calls on the server. Moving bytes is left to a transport, which answers a request with a body
or with the reason why there is none; a call makes one request and reads the body.
-/

namespace DraftDesk

inductive Request where
  | get (path : String)
  | post (path body : String)
  deriving DecidableEq, Repr

def Request.path : Request → String
  | .get path | .post path _ => path

/-- Answers a request with a body, or with the reason why it cannot. -/
abbrev Transport (m : Type → Type) := Request → m (Except String String)

/-- Answers by a fixed rule and keeps the requests that were made, in order. -/
def Transport.recording (respond : Request → Except String String) :
    Transport (StateM (List Request)) :=
  fun r made => (respond r, made ++ [r])

/-- Why a call failed. -/
inductive RequestError where
  /-- The transport gave no body. -/
  | transport (path reason : String)
  /-- The body is not what the server was asked for. -/
  | undecodable (path : String)
  | missingField (path field : String)
  /-- The server refused the upload. -/
  | rejected (reason : String)
  deriving DecidableEq, Repr

def RequestError.message : RequestError → String
  | .transport path _ => "request to " ++ path ++ " failed"
  | .undecodable path => "invalid response from " ++ path
  | .missingField path field => "response from " ++ path ++ " is missing `" ++ field ++ "`"
  | .rejected reason => "server rejected the upload: " ++ reason

/-! ## Paths -/

/-- A text as the value of a parameter. -/
def percentEncoded (text : String) : String :=
  String.ofList (PercentCoding.encode (Utf8.encode text.toList))

def draftPath (id : String) : String := "/api/draft?id=" ++ percentEncoded id

def labelPath (key : String) : String := "/api/t9n?which=" ++ percentEncoded key

def labelTablePath : String := "/api/l10n"

def resourcePath : String := "/api/resource"

/-! ## Calls -/

variable {m : Type → Type} [Monad m] (transport : Transport m)

/-- Makes a request and reads its body. -/
def request {α : Type} (r : Request) (ofJson? : Json → Option α) : m (Except RequestError α) := do
  match ← transport r with
  | .error reason => return .error (.transport r.path reason)
  | .ok body =>
    match Json.decode? ofJson? body with
    | some a => return .ok a
    | none => return .error (.undecodable r.path)

def fetchDraft (id : String) : m (Except RequestError Draft) :=
  request transport (.get (draftPath id)) Draft.ofJson?

def fetchLabel (key : String) : m (Except RequestError String) :=
  request transport (.get (labelPath key)) labelOfJson?

def fetchLabelTable : m (Except RequestError LabelTable) :=
  request transport (.get labelTablePath) labelTableOfJson?

/-- What the reply to an upload means: the name under which the file is stored. -/
def UploadReply.storedName (reply : UploadReply) : Except RequestError String :=
  if reply.ok then
    match reply.filename with
    | some filename => .ok filename
    | none => .error (.missingField resourcePath "filename")
  else .error (.rejected (reply.error.getD ""))

/-- Sends an upload; the server tells the name under which it stored the file. -/
def sendUpload (upload : Upload) : m (Except RequestError String) := do
  let reply ← request transport (.post resourcePath upload.toJson.compact) UploadReply.ofJson?
  return reply.bind UploadReply.storedName

/-! ## Labels through the cache -/

def Outcome.ofExcept {ε α : Type} : Except ε α → Outcome ε α
  | .ok a => .value a
  | .error e => .failure e

/-- Fetches what a query asks for. -/
def fetchQuery : (query : LabelQuery) → m (Outcome RequestError query.Answer)
  | .table => Outcome.ofExcept <$> fetchLabelTable transport
  | .label key => Outcome.ofExcept <$> fetchLabel transport key

/-- Answers a query from the cache, or else from the server. -/
def askServer (query : LabelQuery) :
    StateT LabelCache m (Option (Outcome RequestError query.Answer)) :=
  LabelCache.ask query (monadLift (fetchQuery transport query))

end DraftDesk
