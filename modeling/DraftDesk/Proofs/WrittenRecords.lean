import DraftDesk.Report
import DraftDesk.Proofs.LoggedRequests
import DraftDesk.Proofs.WrittenValues

/-!
# Records as they are written

The fields of a record with distinct names are found under their names, and so drafts, uploads and
selections are read back from their texts; what is posted for an upload is such a text. A report on
a toggle is written with a selection inside, in either layout, and what is read from it is what
the toggle did (`toldAs`).
-/

namespace DraftDesk

namespace Json

/-! ## Fields -/

variable {members : List (String × Json)}

theorem filter_record (distinct : (members.map Prod.fst).Nodup) {name : String} {value : Json}
    (member : (name, value) ∈ members) :
    ((members.map fun (key, value) => (some key, value)).filter fun entry => entry.1 = some name) =
      [(some name, value)] := by
  induction members with
  | nil => exact absurd member List.not_mem_nil
  | cons first others ih =>
    obtain ⟨key, held⟩ := first
    obtain ⟨new, distinct⟩ := List.nodup_cons.1 distinct
    rcases List.mem_cons.1 member with same | later
    · obtain ⟨rfl, rfl⟩ := Prod.mk.inj same
      have no_other : ((others.map fun (key, value) => (some key, value)).filter
          fun entry => entry.1 = some name) = [] := by
        rw [List.filter_eq_nil_iff]
        intro entry inside
        obtain ⟨⟨other, value⟩, mem, rfl⟩ := List.mem_map.1 inside
        have differs : other ≠ name := by
          rintro rfl
          exact new (List.mem_map.2 ⟨_, mem, rfl⟩)
        simp [differs]
      simp [no_other]
    · have differs : key ≠ name := by
        rintro rfl
        exact new (List.mem_map.2 ⟨_, later, rfl⟩)
      simp only [List.map_cons, List.filter_cons, Option.some.injEq, differs, decide_false,
        Bool.false_eq_true, if_false]
      exact ih distinct later

theorem fields?_record {names : List String} (named : members.map Prod.fst = names)
    (distinct : names.Nodup) :
    (record members).fields? names = some (members.map fun member => some member.2) := by
  subst named
  have keyed : (members.map fun (key, value) => (some key, value)).all
      (fun member => member.1.isSome) = true := by simp
  have found : ∀ part, part ⊆ members →
      (part.map Prod.fst).mapM (member? (members.map fun (key, value) => (some key, value))) =
        some (part.map fun member => some member.2) := by
    intro part inside
    induction part with
    | nil => rfl
    | cons first others ih =>
      obtain ⟨name, value⟩ := first
      obtain ⟨member, inside⟩ := List.cons_subset.1 inside
      have own := filter_record distinct member
      simp [member?, own, ih inside]
  rw [record, fields?, if_pos keyed]
  exact found members (List.Subset.refl _)

theorem Integral.record (each : ∀ member ∈ members, Integral member.2) :
    Integral (Json.record members) := by
  apply Integral.object
  intro member inside
  obtain ⟨entry, mem, rfl⟩ := List.mem_map.1 inside
  exact each entry mem

theorem decode?_compact {α : Type} {ofJson? : Json → Option α} {value : Json} {a : α}
    (integral : Integral value) (read : ofJson? value = some a) :
    decode? ofJson? value.compact = some a := by
  rw [decode?, read?_compact integral, Option.bind_some, read]

end Json

/-! ## Drafts, uploads and selections -/

theorem Draft.decode?_compact (d : Draft) : Json.decode? ofJson? d.toJson.compact = some d := by
  have fields : d.toJson.fields? ["title", "content"] =
      some [some (.text d.title), some (.text d.content)] :=
    Json.fields?_record rfl (by decide)
  apply Json.decode?_compact
  · apply Json.Integral.record
    simp [Json.text, Json.Integral.string]
  · rw [ofJson?, fields]
    rfl

theorem Upload.decode?_compact (u : Upload) : Json.decode? ofJson? u.toJson.compact = some u := by
  have fields : u.toJson.fields? ["mime", "filename", "data"] =
      some [some (.text u.mime), some (.text u.filename), some (.text u.data)] :=
    Json.fields?_record rfl (by decide)
  apply Json.decode?_compact
  · apply Json.Integral.record
    simp [Json.text, Json.Integral.string]
  · rw [ofJson?, fields]
    rfl

theorem Json.size?_nat {n : Nat} (fits : n < UInt64.size) : (Json.nat n).size? = some n := by
  have small : 0 ≤ (n : Int) ∧ (n : Int) < UInt64.size := by omega
  rw [Json.nat, Json.size?, if_pos small, Int.toNat_natCast]

theorem Direction.ofJson?_name (d : Direction) : ofJson? (.text d.name) = some d := by
  cases d <;> rfl

theorem Direction.name_injective : Function.Injective Direction.name := by
  intro a b same
  have read := congrArg (fun name => ofJson? (.text name)) same
  simpa only [ofJson?_name, Option.some.injEq] using read

theorem Selection.integral_toJson (s : Selection) : Json.Integral s.toJson := by
  apply Json.Integral.record
  simp [Json.text, Json.nat, Json.Integral.string, Json.Integral.integer]

theorem Selection.decode?_compact {s : Selection} (start : s.start < UInt64.size)
    (stop : s.stop < UInt64.size) : Json.decode? ofJson? s.toJson.compact = some s := by
  have fields : s.toJson.fields? ["start", "end", "direction"] =
      some [some (.nat s.start), some (.nat s.stop), some (.text s.direction.name)] :=
    Json.fields?_record rfl (by decide)
  apply Json.decode?_compact s.integral_toJson
  simp [ofJson?, fields, Json.size?_nat start, Json.size?_nat stop, Direction.ofJson?_name]

/-! ## Posted uploads -/

theorem requests_sendUpload (respond : Request → Except String String) (u : Upload)
    (made : List Request) :
    ((sendUpload (Transport.recording respond) u).run made).2 =
      made ++ [.post resourcePath u.toJson.compact] := by
  rw [sendUpload, request_eq_map]
  rfl

/-! ## Reports -/

/-- A value that tells a text, the bounds and the direction of a selection, and a change. -/
def toldAs (text : String) (selection : Selection) (change : Json) : Json :=
  .record [
    ("text", .text text),
    ("selection", .record [
      ("start", .nat selection.start),
      ("end", .nat selection.stop),
      ("direction", .text selection.direction.name)]),
    ("change", change)]

theorem Report.integral_toJson (r : Report) : Json.Integral r.toJson := by
  obtain ⟨text, selection, change⟩ := r
  apply Json.Integral.record
  cases change with
  | none => simp [Json.text, Json.Integral.string, Json.Integral.null, Selection.integral_toJson]
  | some change => simp [Json.text, Json.Integral.string, Selection.integral_toJson]

theorem Report.toJson_ofToggle (text : String) (selection : Selection) (result : Option Toggled) :
    (ofToggle text selection result).toJson =
      match result with
      | some toggled => toldAs toggled.text toggled.selection (.text toggled.change.name)
      | none => toldAs text selection .null := by
  cases result <;> rfl

theorem Change.name_injective : Function.Injective Change.name := by
  intro a b same
  cases a <;> cases b <;> first | rfl | exact absurd same (by decide)

/-- What the program writes in JSON reads back as what it was. An upload and a draft are decoded
from their texts, and what is posted for an upload is such a text; so is a selection with any 64-bit
bounds, in either order. A report is well-formed in both layouts and tells the new text, selection
and change where something was toggled, and else the text and the selection that were given. -/
theorem written_json_reads_back :
    (∀ upload : Upload, Json.decode? Upload.ofJson? upload.toJson.compact = some upload ∧
      ∀ respond made, ∃ body,
        ((sendUpload (Transport.recording respond) upload).run made).2 =
          made ++ [.post resourcePath body] ∧
        Json.decode? Upload.ofJson? body = some upload) ∧
    (∀ draft : Draft, Json.decode? Draft.ofJson? draft.toJson.compact = some draft) ∧
    (∀ (start stop : UInt64) (direction : Direction),
      let selection : Selection := ⟨start.toNat, stop.toNat, direction⟩
      Json.decode? Selection.ofJson? selection.toJson.compact = some selection) ∧
    (∀ (text : String) (selection : Selection) (delimiters : Delimiters),
      let result := toggle text selection delimiters
      let report := (Report.ofToggle text selection result).toJson
      ∀ written ∈ [report.compact, report.indented],
        Json.read? written.toList = some (match result with
          | some toggled => toldAs toggled.text toggled.selection (.text toggled.change.name)
          | none => toldAs text selection .null)) ∧
    Change.name.Injective ∧ Direction.name.Injective := by
  refine ⟨?_, Draft.decode?_compact, ?_, ?_, Change.name_injective, Direction.name_injective⟩
  · intro upload
    refine ⟨upload.decode?_compact, ?_⟩
    intro respond made
    exact ⟨_, requests_sendUpload respond upload made, upload.decode?_compact⟩
  · intro start stop direction
    exact Selection.decode?_compact start.toNat_lt_size stop.toNat_lt_size
  · intro text selection delimiters result report written layout
    have integral := Report.integral_toJson (.ofToggle text selection result)
    have told := Report.toJson_ofToggle text selection result
    have read : Json.read? written.toList = some report := by
      simp only [List.mem_cons, List.not_mem_nil, or_false] at layout
      rcases layout with rfl | rfl
      · exact Json.read?_compact integral
      · exact Json.read?_indented integral
    rw [read]
    exact congrArg some told

end DraftDesk
