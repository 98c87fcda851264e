import DraftDesk.Proofs.BufferEdits

/-!
# Histories of edits

What is done to a draft form leaves a history: of each call it says what the caller was told. An
edit has three effects on the text field, which come apart: it may write, it may mark the field
dirty and it may notify. The history says which edits write and which notify, and each call changes
the text, the dirty flag and the revision by that alone (`Effect`). So after any run the three are
functions of the history.
-/

namespace DraftDesk

/-- A call on a draft form: an edit, or a look at the text field, which may read anything off it. -/
inductive FormCall where
  | edit (e : Edit)
  | look (read : Buffer → String)

/-- What was called and what the caller was told. -/
inductive FormEvent where
  | selected
  | inserted
  | toggled (applied : Bool)
  | replaced
  | notified
  /-- Marked clean with a text in the field. -/
  | cleaned (text : String)
  | loaded (result : Except RequestError Bool)
  | looked (read : String)

namespace FormEvent

/-- Whether views that depend on the field were told of a change. -/
def notifies : FormEvent → Bool
  | .inserted | .toggled true | .notified | .loaded (.ok true) => true
  | _ => false

/-- Whether a text was put into the field. -/
def writes : FormEvent → Bool
  | .inserted | .toggled true | .replaced | .loaded (.ok true) => true
  | _ => false

def isCleaned : FormEvent → Bool
  | .cleaned _ => true
  | _ => false

end FormEvent

namespace DraftForm

/-- What a caller is told of an edit. -/
def told (form : DraftForm) : Edit → FormEvent
  | .select _ => .selected
  | .insert _ => .inserted
  | .style style => .toggled (TextSurface.applyStyle style form.editor).1
  | .delimiters delimiters => .toggled (TextSurface.applyDelimiters delimiters form.editor).1
  | .replace _ _ => .replaced
  | .notify => .notified
  | .markClean => .cleaned form.editor.text
  | .load transport chosen => .loaded (Id.run (form.load transport chosen)).1

end DraftForm

namespace FormCall

/-- The form after a call. -/
def apply (form : DraftForm) : FormCall → DraftForm
  | .edit e => form.edit e
  | .look _ => form

/-- What a call tells of the form that it is made on. -/
def event (form : DraftForm) : FormCall → FormEvent
  | .edit e => form.told e
  | .look read => .looked (read form.editor)

end FormCall

/-- A form and what was called on it so far, latest first. -/
structure FormRun where
  form : DraftForm
  history : List FormEvent

namespace FormRun

/-- A new form. -/
def start (title text : String) : FormRun := ⟨⟨title, .ofText text⟩, []⟩

def call (r : FormRun) (c : FormCall) : FormRun := ⟨c.apply r.form, c.event r.form :: r.history⟩

def calls (r : FormRun) (cs : List FormCall) : FormRun := cs.foldl call r

end FormRun

/-! ## What a history says -/

/-- What happened since the field was last marked clean, or else since the beginning. -/
def sinceCleaned (history : List FormEvent) : List FormEvent :=
  history.takeWhile fun event => !event.isCleaned

/-- The text with which the field was last marked clean, or else the one it began with. -/
def cleanText (begun : String) : List FormEvent → String
  | [] => begun
  | .cleaned text :: _ => text
  | _ :: earlier => cleanText begun earlier

variable {event : FormEvent} {history : List FormEvent}

theorem sinceCleaned_cons (kept : event.isCleaned = false) :
    sinceCleaned (event :: history) = event :: sinceCleaned history := by
  simp [sinceCleaned, kept]

theorem cleanText_cons (begun : String) (kept : event.isCleaned = false) :
    cleanText begun (event :: history) = cleanText begun history := by
  cases event with
  | cleaned text => simp [FormEvent.isCleaned] at kept
  | _ => rfl

/-! ## One call -/

/-- A call of which an event tells has changed a field as the event says. -/
structure Effect (event : FormEvent) (before after : Buffer) : Prop where
  revision : after.revision = before.revision + if event.notifies then 1 else 0
  dirty : after.dirty = (event.writes || (before.dirty && !event.isCleaned))
  text : event.writes = false → after.text = before.text
  cleaned : ∀ text, event = .cleaned text → before.text = text

/-- A call that does not touch the flags and the text. -/
theorem Effect.of_idle {before after : Buffer} (silent : event.notifies = false)
    (reads : event.writes = false) (kept : event.isCleaned = false)
    (revision : after.revision = before.revision) (dirty : after.dirty = before.dirty)
    (text : after.text = before.text) : Effect event before after where
  revision := by simp [silent, revision]
  dirty := by simp [reads, kept, dirty]
  text := fun _ => text
  cleaned := by
    rintro text rfl
    simp [FormEvent.isCleaned] at kept

/-- A call that puts a text into the field. -/
theorem Effect.of_write {before after : Buffer} (writes : event.writes = true)
    (dirty : after.dirty = true)
    (revision : after.revision = before.revision + if event.notifies then 1 else 0) :
    Effect event before after where
  revision := revision
  dirty := by simp [writes, dirty]
  text := by simp [writes]
  cleaned := by
    rintro text rfl
    simp [FormEvent.writes] at writes

theorem effect_applyDelimiters (delimiters : Delimiters) (b : Buffer) :
    Effect (.toggled (TextSurface.applyDelimiters delimiters b).1) b
      (TextSurface.applyDelimiters delimiters b).2 := by
  cases toggled : toggle b.text b.selection delimiters with
  | none =>
    rw [TextSurface.applyDelimiters_none toggled]
    exact .of_idle rfl rfl rfl rfl rfl rfl
  | some result =>
    rw [Buffer.applyDelimiters_some toggled]
    exact .of_write rfl rfl rfl

theorem effect_load (transport : Transport Id) (chosen : Option String) (form : DraftForm) :
    Effect (form.told (.load transport chosen)) form.editor
      (form.edit (.load transport chosen)).editor := by
  cases chosen with
  | none => exact .of_idle rfl rfl rfl rfl rfl rfl
  | some id =>
    simp only [DraftForm.told, DraftForm.edit, DraftForm.load, Id.run_bind]
    cases Id.run (fetchDraft transport id) with
    | ok draft => exact .of_write rfl rfl rfl
    | error e => exact .of_idle rfl rfl rfl rfl rfl rfl

/-- Every edit changes the text field as the caller is told. -/
theorem effect_edit (form : DraftForm) (e : Edit) :
    Effect (form.told e) form.editor (form.edit e).editor := by
  cases e with
  | select selection => exact .of_idle rfl rfl rfl rfl rfl rfl
  | insert typed => exact .of_write rfl rfl rfl
  | style style => exact effect_applyDelimiters style.delimiters form.editor
  | delimiters delimiters => exact effect_applyDelimiters delimiters form.editor
  | replace text selection => exact .of_write rfl rfl rfl
  | notify =>
    constructor
    · rfl
    · simp [DraftForm.told, DraftForm.edit, Buffer.notify, FormEvent.writes, FormEvent.isCleaned]
    · intro _
      rfl
    · simp [DraftForm.told]
  | markClean =>
    constructor
    · rfl
    · simp [DraftForm.told, DraftForm.edit, Buffer.markClean, FormEvent.writes, FormEvent.isCleaned]
    · intro _
      rfl
    · simp [DraftForm.told]
  | load transport chosen => exact effect_load transport chosen form

theorem effect_call (form : DraftForm) (c : FormCall) :
    Effect (c.event form) form.editor (c.apply form).editor := by
  cases c with
  | edit e => exact effect_edit form e
  | look read => exact .of_idle rfl rfl rfl rfl rfl rfl

/-! ## Runs -/

namespace FormRun

theorem form_calls (r : FormRun) (cs : List FormCall) :
    (r.calls cs).form = cs.foldl FormCall.apply r.form := by
  induction cs generalizing r with
  | nil => rfl
  | cons c cs ih => exact ih (r.call c)

/-- Each call adds the event that it tells of the form as the calls before it left it. -/
theorem history_calls (r : FormRun) (cs : List FormCall) :
    (r.calls cs).history =
      (cs.mapIdx fun i c => c.event ((cs.take i).foldl FormCall.apply r.form)).reverse ++ r.history := by
  induction cs generalizing r with
  | nil => rfl
  | cons c cs ih =>
    rw [List.mapIdx_cons, List.reverse_cons, List.append_assoc]
    exact ih (r.call c)

end FormRun

/-- Revision, dirty flag and text of a form are what its history says. -/
structure FollowsHistory (begun : String) (r : FormRun) : Prop where
  revision : r.form.editor.revision = r.history.countP FormEvent.notifies
  dirty : r.form.editor.dirty = (sinceCleaned r.history).any FormEvent.writes
  text : r.form.editor.dirty = false → r.form.editor.text = cleanText begun r.history

namespace FollowsHistory

variable {begun : String} {r : FormRun}

theorem start (title text : String) : FollowsHistory text (.start title text) :=
  ⟨rfl, rfl, fun _ => rfl⟩

theorem call (follows : FollowsHistory begun r) (c : FormCall) : FollowsHistory begun (r.call c) := by
  obtain ⟨event, history, effect⟩ : ∃ event, (r.call c).history = event :: r.history ∧
      Effect event r.form.editor (r.call c).form.editor := ⟨_, rfl, effect_call r.form c⟩
  by_cases cleaned : event.isCleaned = true
  · obtain ⟨text, rfl⟩ : ∃ text, event = .cleaned text := by
      cases event <;> simp [FormEvent.isCleaned] at cleaned ⊢
    have clean : (r.call c).form.editor.dirty = false := by
      rw [effect.dirty]
      simp [FormEvent.writes, FormEvent.isCleaned]
    refine ⟨?_, ?_, ?_⟩
    · rw [effect.revision, history, List.countP_cons, follows.revision]
    · rw [clean, history]
      rfl
    · intro _
      rw [effect.text rfl, history, effect.cleaned text rfl]
      rfl
  · rw [Bool.not_eq_true] at cleaned
    refine ⟨?_, ?_, ?_⟩
    · rw [effect.revision, history, List.countP_cons, follows.revision]
    · rw [effect.dirty, history, sinceCleaned_cons cleaned, List.any_cons, follows.dirty, cleaned,
        Bool.not_false, Bool.and_true]
    · intro clean
      rw [effect.dirty, cleaned, Bool.not_false, Bool.and_true, Bool.or_eq_false_iff] at clean
      rw [effect.text clean.1, history, cleanText_cons begun cleaned, follows.text clean.2]

theorem calls (follows : FollowsHistory begun r) (cs : List FormCall) :
    FollowsHistory begun (r.calls cs) := by
  induction cs generalizing r with
  | nil => exact follows
  | cons c cs ih => exact ih (follows.call c)

end FollowsHistory

/-- After any calls on a form its history tells of each of them, made on the form as those before it
left it. The revision is the number of those that told the dependent views of a change, the text
field is dirty exactly if one of them has put a text into it since it was last marked clean, and if
it is not dirty it shows the text it had then, or began with. -/
theorem flags_follow_history (title text : String) (cs : List FormCall) :
    let new : DraftForm := ⟨title, .ofText text⟩
    let now := (FormRun.start title text).calls cs
    now.form = cs.foldl FormCall.apply new ∧
    now.history.reverse = cs.mapIdx (fun i c => c.event ((cs.take i).foldl FormCall.apply new)) ∧
    now.form.editor.revision = now.history.countP FormEvent.notifies ∧
    (now.form.editor.dirty = true ↔ ∃ event ∈ sinceCleaned now.history, event.writes = true) ∧
    (now.form.editor.dirty = false → now.form.editor.text = cleanText text now.history) := by
  intro new now
  have follows : FollowsHistory text now := (FollowsHistory.start title text).calls cs
  refine ⟨FormRun.form_calls _ cs, ?_, follows.revision, ?_, follows.text⟩
  · have told : now.history = _ ++ [] := FormRun.history_calls (.start title text) cs
    rw [told, List.append_nil, List.reverse_reverse]
    rfl
  · rw [follows.dirty, List.any_eq_true]

end DraftDesk
