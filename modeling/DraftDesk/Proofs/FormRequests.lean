import DraftDesk.Forms
import DraftDesk.Proofs.LoggedRequests
import DraftDesk.Proofs.RecordFields

/-!
# Forms and their requests

Loading a draft and sending an upload make one request each, and what becomes of the form depends on
the answer alone. How a call can end is said once for each, with what the caller is told and the form
that is left (`LoadEnd`, `UploadEnd`): whatever the transport answers, the call ends in exactly one of
these ways, and in all but one of them the form is as it was.
-/

namespace DraftDesk

open Json (read?)

/-! ## Answers -/

variable {α : Type} {path body : String} {ofJson? : Json → Option α} {IsIn : α → Json → Prop}

/-- No value that the body is the text of holds anything that was asked for. -/
def HasNone (IsIn : α → Json → Prop) (body : String) : Prop :=
  ∀ value a, read? body.toList = some value → ¬ IsIn a value

theorem received_of_isIn (reads : ∀ value a, ofJson? value = some a ↔ IsIn a value) {value : Json}
    {a : α} (text : read? body.toList = some value) (holds : IsIn a value) :
    received path ofJson? (.ok body) = .ok a := by
  simp [received, Json.decode?, text, (reads value a).2 holds]

theorem received_of_hasNone (reads : ∀ value a, ofJson? value = some a ↔ IsIn a value)
    (nothing : HasNone IsIn body) :
    received path ofJson? (.ok body) = .error (.undecodable path) := by
  cases decoded : Json.decode? ofJson? body with
  | none => simp [received, decoded]
  | some a =>
    obtain ⟨value, text, read⟩ := Option.bind_eq_some_iff.1 decoded
    exact absurd ((reads value a).1 read) (nothing value a text)

/-- A body holds what was asked for or it holds nothing of the kind. -/
theorem exists_isIn_or_hasNone (IsIn : α → Json → Prop) (body : String) :
    (∃ value a, read? body.toList = some value ∧ IsIn a value) ∨ HasNone IsIn body := by
  by_cases found : ∃ value a, read? body.toList = some value ∧ IsIn a value
  · exact .inl found
  · exact .inr fun value a text holds => found ⟨value, a, text, holds⟩

/-! ## Loading a draft -/

section
variable {m : Type → Type} [Monad m] [LawfulMonad m] (transport : Transport m)

/-- What becomes of the form and what the caller is told, by the answer to the request. -/
def DraftForm.loaded (path : String) (form : DraftForm) (answer : Except String String) :
    Except RequestError Bool × DraftForm :=
  match received path Draft.ofJson? answer with
  | .ok draft => (.ok true, form.fill draft)
  | .error e => (.error e, form)

theorem DraftForm.load_eq_map (id : String) (form : DraftForm) :
    form.load transport (some id) =
      form.loaded (draftPath id) <$> transport (.get (draftPath id)) := by
  rw [load, fetchDraft, request_eq_map, bind_map_left, map_eq_pure_bind]
  apply bind_congr
  intro answer
  dsimp only [loaded, Request.path]
  cases received (draftPath id) Draft.ofJson? answer <;> rfl

end

/-- How a load can end, by the answer to its request. -/
inductive LoadEnd (path : String) (form : DraftForm) :
    Except String String → Except RequestError Bool × DraftForm → Prop where
  | unanswered (reason : String) :
      LoadEnd path form (.error reason) (.error (.transport path reason), form)
  | undecodable {body : String} : HasNone Draft.IsIn body →
      LoadEnd path form (.ok body) (.error (.undecodable path), form)
  | loaded {body : String} {value : Json} {draft : Draft} :
      read? body.toList = some value → draft.IsIn value →
      LoadEnd path form (.ok body)
        (.ok true, ⟨draft.title, ⟨draft.content, .caret 0, true, form.editor.revision + 1⟩⟩)

theorem DraftForm.fill_eq (draft : Draft) (form : DraftForm) :
    form.fill draft =
      ⟨draft.title, ⟨draft.content, .caret 0, true, form.editor.revision + 1⟩⟩ := by
  have inside : (Selection.caret 0).clamp (Units.total draft.content.toList) = .caret 0 :=
    Selection.clamp_of_le (Nat.le_refl 0) (Nat.zero_le _)
  rw [fill, Buffer.replace, inside, Buffer.notify]

theorem DraftForm.loaded_eq_iff (path : String) (form : DraftForm) (answer : Except String String)
    (outcome : Except RequestError Bool × DraftForm) :
    form.loaded path answer = outcome ↔ LoadEnd path form answer outcome := by
  have reads := Draft.ofJson?_eq_some_iff
  constructor
  · rintro rfl
    cases answer with
    | error reason => exact .unanswered reason
    | ok body =>
      obtain ⟨value, draft, text, holds⟩ | nothing := exists_isIn_or_hasNone Draft.IsIn body
      · rw [loaded, received_of_isIn reads text holds]
        dsimp only
        rw [fill_eq]
        exact .loaded text holds
      · rw [loaded, received_of_hasNone reads nothing]
        exact .undecodable nothing
  · rintro (reason | nothing | ⟨text, holds⟩)
    · rfl
    · rw [loaded, received_of_hasNone reads nothing]
    · rw [loaded, received_of_isIn reads text holds]
      dsimp only
      rw [fill_eq]

/-! ## Sending an upload -/

section
variable {m : Type → Type} [Monad m] [LawfulMonad m] (transport : Transport m)

/-- What becomes of the form and what the caller is told, by the answer to the request. -/
def ScheduleForm.uploaded (form : ScheduleForm) (answer : Except String String) :
    Except RequestError Unit × ScheduleForm :=
  match (received resourcePath UploadReply.ofJson? answer).bind UploadReply.storedName with
  | .ok filename => (.ok (), { form with image := filename })
  | .error e => (.error e, form)

theorem ScheduleForm.upload_eq_map (u : Upload) (form : ScheduleForm) :
    form.upload transport u =
      form.uploaded <$> transport (.post resourcePath u.toJson.compact) := by
  rw [upload, sendUpload, request_eq_map, bind_map_left, bind_assoc, map_eq_pure_bind]
  apply bind_congr
  intro answer
  rw [pure_bind]
  dsimp only [uploaded, Request.path]
  cases (received resourcePath UploadReply.ofJson? answer).bind UploadReply.storedName <;> rfl

end

/-- How the sending of an upload can end, by the answer to its request. -/
inductive UploadEnd (form : ScheduleForm) :
    Except String String → Except RequestError Unit × ScheduleForm → Prop where
  | unanswered (reason : String) :
      UploadEnd form (.error reason) (.error (.transport resourcePath reason), form)
  | undecodable {body : String} : HasNone UploadReply.IsIn body →
      UploadEnd form (.ok body) (.error (.undecodable resourcePath), form)
  | stored {body filename : String} {error : Option String} {value : Json} :
      read? body.toList = some value → UploadReply.IsIn ⟨true, some filename, error⟩ value →
      UploadEnd form (.ok body) (.ok (), ⟨filename⟩)
  | nameless {body : String} {error : Option String} {value : Json} :
      read? body.toList = some value → UploadReply.IsIn ⟨true, none, error⟩ value →
      UploadEnd form (.ok body) (.error (.missingField resourcePath "filename"), form)
  | rejected {body : String} {filename error : Option String} {value : Json} :
      read? body.toList = some value → UploadReply.IsIn ⟨false, filename, error⟩ value →
      UploadEnd form (.ok body) (.error (.rejected (error.getD "")), form)

theorem ScheduleForm.uploaded_eq_iff (form : ScheduleForm) (answer : Except String String)
    (outcome : Except RequestError Unit × ScheduleForm) :
    form.uploaded answer = outcome ↔ UploadEnd form answer outcome := by
  have reads := UploadReply.ofJson?_eq_some_iff
  constructor
  · rintro rfl
    cases answer with
    | error reason => exact .unanswered reason
    | ok body =>
      obtain ⟨value, reply, text, holds⟩ | nothing := exists_isIn_or_hasNone UploadReply.IsIn body
      · rw [uploaded, received_of_isIn reads text holds]
        match reply with
        | ⟨true, some filename, error⟩ => exact .stored text holds
        | ⟨true, none, error⟩ => exact .nameless text holds
        | ⟨false, filename, error⟩ => exact .rejected text holds
      · rw [uploaded, received_of_hasNone reads nothing]
        exact .undecodable nothing
  · rintro (reason | nothing | ⟨text, holds⟩ | ⟨text, holds⟩ | ⟨text, holds⟩)
    · rfl
    · rw [uploaded, received_of_hasNone reads nothing]
      rfl
    all_goals
      rw [uploaded, received_of_isIn reads text holds]
      rfl

/-- Whatever the transport answers, a call on a form ends in exactly one way. Without a chosen draft
nothing is asked for and nothing changes. To load a draft one request is made, and the form is either
left as it was, with an error, or holds the draft with the caret at the start, dirty and one
notification further on. An upload is posted once, and the image becomes the stored name if the
reply accepts the upload and has a name; in any other case the form is as it was and the error tells
why. -/
theorem requests_fill_forms_or_leave_them {σ : Type} (transport : Transport (StateM σ))
    (made : List Request) (now : σ) :
    (∀ form : DraftForm,
      ((form.load transport.logged none).run made).run now = (((.ok false, form), made), now)) ∧
    (∀ (form : DraftForm) (id : String),
      let asked : Request := .get (draftPath id)
      let answered := (transport asked).run now
      ∃ ends,
        ((form.load transport.logged (some id)).run made).run now =
          ((ends, made ++ [asked]), answered.2) ∧
        ∀ outcome, ends = outcome ↔ LoadEnd (draftPath id) form answered.1 outcome) ∧
    (∀ (form : ScheduleForm) (upload : Upload),
      let posted : Request := .post resourcePath upload.toJson.compact
      let answered := (transport posted).run now
      ∃ ends,
        ((form.upload transport.logged upload).run made).run now =
          ((ends, made ++ [posted]), answered.2) ∧
        ∀ outcome, ends = outcome ↔ UploadEnd form answered.1 outcome) := by
  refine ⟨fun form => rfl, ?_, ?_⟩
  · intro form id asked answered
    refine ⟨form.loaded (draftPath id) answered.1, ?_, form.loaded_eq_iff _ _⟩
    rw [DraftForm.load_eq_map, run_map_logged]
  · intro form upload posted answered
    refine ⟨form.uploaded answered.1, ?_, form.uploaded_eq_iff _⟩
    rw [ScheduleForm.upload_eq_map, run_map_logged]

/-- A draft is loaded, and an image is stored. -/
example :
    let loading := (⟨"", .ofText "old"⟩ : DraftForm).load
      (.recording fun _ => .ok "\x7b\"title\":\"A\",\"content\":\"b\"\x7d") (some "7")
    let uploading := (⟨"old.png"⟩ : ScheduleForm).upload
      (.recording fun _ => .ok "\x7b\"ok\":true,\"filename\":\"b.png\"\x7d")
      ⟨"image/png", "a.png", "QQ=="⟩
    let ran := loading.run []
    let stored := uploading.run []
    (ran.1.1.toOption, ran.1.2, ran.2) =
      (some true, ⟨"A", ⟨"b", .caret 0, true, 1⟩⟩, [.get "/api/draft?id=7"]) ∧
    (stored.1.1.toOption, stored.1.2, stored.2) =
      (some (), ⟨"b.png"⟩, [.post "/api/resource"
        "\x7b\"mime\":\"image/png\",\"filename\":\"a.png\",\"data\":\"QQ==\"\x7d"]) := by
  decide +kernel

end DraftDesk
