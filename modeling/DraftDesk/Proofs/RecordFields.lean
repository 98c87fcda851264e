import DraftDesk.Payloads
import Mathlib.Data.List.Forall2

/-!
# Fields of records

Which values hold a record is said without the reader: in an array the fields stand in order and the
last ones may be left out, in an object each field stands at most once, among other members
(`IsRecord`). The reader finds exactly the fields that are there, so drafts and replies to uploads are
read from the values that hold them and from no others, and a value holds at most one.
-/

namespace DraftDesk

namespace Json

/-- Among the members the field stands once with this value, or does not stand at all. -/
def Holds (members : List (Option String × Json)) (name : String) (field : Option Json) : Prop :=
  members.filter (fun member => member.1 = some name) =
    field.toList.map fun value => (some name, value)

/-- The value is a record of named fields; a field that is left out is `none`. -/
inductive IsRecord (names : List String) : Json → List (Option Json) → Prop where
  | array {items : List Json} {missing : Nat} : items.length + missing = names.length →
      IsRecord names (.array items) (items.map some ++ List.replicate missing none)
  | object {members : List (Option String × Json)} {fields : List (Option Json)} :
      (∀ member ∈ members, member.1.isSome = true) →
      List.Forall₂ (Holds members) names fields → IsRecord names (.object members) fields

variable {members : List (Option String × Json)} {names : List String} {name text : String}
  {value : Json} {field : Option Json} {fields : List (Option Json)}

theorem member?_eq_some_iff : member? members name = some field ↔ Holds members name field := by
  have named : ∀ member ∈ members.filter (fun member => member.1 = some name),
      member.1 = some name := by
    intro member inside
    simpa using List.of_mem_filter inside
  rw [member?, Holds]
  split
  · next absent => cases field <;> simp [absent]
  · next key value once =>
    have own : key = some name := named (key, value) (by simp [once])
    cases field <;> simp [once, own]
  · next present again =>
    cases field with
    | none => simpa using fun found => present found
    | some value => simpa using fun found => again _ value found

theorem mapM_member?_eq_some_iff :
    names.mapM (member? members) = some fields ↔ List.Forall₂ (Holds members) names fields := by
  induction names generalizing fields with
  | nil => cases fields <;> simp
  | cons name names ih =>
    cases fields with
    | nil => simp [Option.bind_eq_some_iff]
    | cons field fields => simp [Option.bind_eq_some_iff, ← ih, ← member?_eq_some_iff]

theorem fields?_eq_some_iff : value.fields? names = some fields ↔ IsRecord names value fields := by
  constructor
  · intro read
    cases value with
    | array items =>
      rw [fields?] at read
      split at read
      · next fits =>
        cases read
        exact .array (by omega)
      · cases read
    | object members =>
      rw [fields?] at read
      split at read
      · next keyed => exact .object (by simpa using keyed) (mapM_member?_eq_some_iff.1 read)
      · cases read
    | _ => cases read
  · intro record
    cases record with
    | @array items missing total =>
      have fits : items.length ≤ names.length := by omega
      have rest : names.length - items.length = missing := by omega
      rw [fields?, if_pos fits, rest]
    | @object members fields keyed held =>
      have all : members.all (fun member => member.1.isSome) = true := by simpa using keyed
      rw [fields?, if_pos all, mapM_member?_eq_some_iff.2 held]

/-! ## Values of fields -/

theorem text?_eq_some_iff : value.text? = some text ↔ value = .text text := by
  cases value <;> simp [text?, Json.text]

theorem bool?_eq_some_iff {b : Bool} : value.bool? = some b ↔ value = .bool b := by
  cases value <;> simp [bool?]

/-- A field that need not hold a text: it may be left out, or be null. -/
inductive IsOptionalText : Option Json → Option String → Prop where
  | missing : IsOptionalText none none
  | null : IsOptionalText (some .null) none
  | text (text : String) : IsOptionalText (some (.text text)) (some text)

theorem optionalText?_eq_some_iff {content : Option String} :
    (field.getD .null).optionalText? = some content ↔ IsOptionalText field content := by
  constructor
  · intro read
    match field, content with
    | none, content => cases read; exact .missing
    | some .null, content => cases read; exact .null
    | some (.string (some text)), content => cases read; exact .text text
  · rintro (_ | _ | _) <;> rfl

end Json

/-! ## Drafts and replies -/

open Json

/-- The value holds a draft, with a text in each field. -/
def Draft.IsIn (d : Draft) (value : Json) : Prop :=
  IsRecord ["title", "content"] value [some (.text d.title), some (.text d.content)]

theorem Draft.ofJson?_eq_some_iff (value : Json) (d : Draft) :
    Draft.ofJson? value = some d ↔ d.IsIn value := by
  rw [Draft.IsIn, ← fields?_eq_some_iff]
  constructor
  · intro read
    rw [Draft.ofJson?] at read
    split at read
    · next title content fields =>
      simp only [bind, Option.bind_eq_some_iff, text?_eq_some_iff] at read
      obtain ⟨_, rfl, _, rfl, ⟨⟩⟩ := read
      exact fields
    · cases read
  · intro fields
    rw [Draft.ofJson?, fields]
    rfl

/-- The value holds a reply to an upload: whether the upload was accepted, and perhaps two texts. -/
def UploadReply.IsIn (reply : UploadReply) (value : Json) : Prop :=
  ∃ filename error,
    IsRecord ["ok", "filename", "error"] value [some (.bool reply.ok), filename, error] ∧
    IsOptionalText filename reply.filename ∧ IsOptionalText error reply.error

theorem UploadReply.ofJson?_eq_some_iff (value : Json) (reply : UploadReply) :
    UploadReply.ofJson? value = some reply ↔ reply.IsIn value := by
  simp only [UploadReply.IsIn, ← fields?_eq_some_iff, ← optionalText?_eq_some_iff]
  constructor
  · intro read
    rw [UploadReply.ofJson?] at read
    split at read
    · next ok filename error fields =>
      simp only [bind, Option.bind_eq_some_iff, bool?_eq_some_iff] at read
      obtain ⟨_, rfl, _, stored, _, reason, ⟨⟩⟩ := read
      exact ⟨filename, error, fields, stored, reason⟩
    · cases read
  · rintro ⟨filename, error, fields, stored, reason⟩
    simp [UploadReply.ofJson?, fields, stored, reason, bool?]

end DraftDesk
