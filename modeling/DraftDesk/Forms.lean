import DraftDesk.Buffer
import DraftDesk.Requests

/-!
# Forms

The form of the article editor, which a saved draft replaces as a whole, and the form of the
schedule, which keeps the name of the last uploaded image. A call that fails leaves them as they
are.
-/

namespace DraftDesk

structure DraftForm where
  title : String
  editor : Buffer
  deriving DecidableEq, Repr

instance : Inhabited DraftForm := ⟨⟨"", .empty⟩⟩

structure ScheduleForm where
  image : String
  deriving DecidableEq, Repr

instance : Inhabited ScheduleForm := ⟨⟨""⟩⟩

variable {m : Type → Type} [Monad m] (transport : Transport m)

/-- Puts a draft into the form, with the caret at the start. -/
def DraftForm.fill (draft : Draft) (form : DraftForm) : DraftForm :=
  ⟨draft.title, (form.editor.replace draft.content (.caret 0)).notify⟩

/-- Loads the chosen draft into the form; tells whether one was loaded. -/
def DraftForm.load (chosen : Option String) (form : DraftForm) :
    m (Except RequestError Bool × DraftForm) := do
  match chosen with
  | none => return (.ok false, form)
  | some id =>
    match ← fetchDraft transport id with
    | .ok draft => return (.ok true, form.fill draft)
    | .error e => return (.error e, form)

/-- Sends an upload and keeps the name under which it was stored. -/
def ScheduleForm.upload (upload : Upload) (form : ScheduleForm) :
    m (Except RequestError Unit × ScheduleForm) := do
  match ← sendUpload transport upload with
  | .ok filename => return (.ok (), { form with image := filename })
  | .error e => return (.error e, form)

end DraftDesk
