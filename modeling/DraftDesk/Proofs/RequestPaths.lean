import DraftDesk.Pieces
import DraftDesk.Proofs.LoggedRequests
import DraftDesk.Proofs.PercentDecoding

/-!
# Paths of requests

A path with an argument is an endpoint and one parameter, whose value is the coded argument
(`AsksFor`). A coded value has no separator in it, so a server that takes the path apart at its
separators finds the segments of the endpoint and this parameter, whatever the argument is. And since
the value is read back, the path tells which argument it was made for.
-/

namespace DraftDesk

/-! ## Coded values -/

namespace PercentCoding

/-- A character that may stand for itself: an ASCII letter or digit or one of four signs. -/
def IsPlain (c : Char) : Prop := c.isAlphanum = true ∨ c ∈ ['-', '_', '.', '~']

instance (c : Char) : Decidable (IsPlain c) := inferInstanceAs (Decidable (_ ∨ _))

/-- The hexadecimal digits in upper case. -/
def upperDigits : List Char := "0123456789ABCDEF".toList

/-- A value in which every character is plain or part of a code. -/
inductive Coded : List Char → Prop where
  | nil : Coded []
  | plain {c : Char} {rest : List Char} : IsPlain c → Coded rest → Coded (c :: rest)
  | code {high low : Char} {rest : List Char} : high ∈ upperDigits → low ∈ upperDigits →
      Coded rest → Coded ('%' :: high :: low :: rest)

theorem coded_of_all {cs : List Char} (plain : cs.all (fun c => decide (IsPlain c)) = true) :
    Coded cs := by
  induction cs with
  | nil => exact .nil
  | cons c cs ih =>
    rw [List.all_cons, Bool.and_eq_true] at plain
    obtain ⟨first, others⟩ := plain
    exact .plain (of_decide_eq_true first) (ih others)

theorem isPlain_of_mem_upperDigits {digit : Char} (mem : digit ∈ upperDigits) : IsPlain digit := by
  have each : upperDigits.all (fun c => decide (IsPlain c)) = true := by decide
  exact of_decide_eq_true (List.all_eq_true.1 each digit mem)

/-- A value has no separator in it. -/
theorem Coded.not_mem {cs : List Char} (coded : Coded cs) {c : Char} (sign : c ≠ '%')
    (separator : ¬ IsPlain c) : c ∉ cs := by
  have differs {d : Char} (plain : IsPlain d) : c ≠ d := fun same => separator (same ▸ plain)
  induction coded with
  | nil => exact List.not_mem_nil
  | plain plain _ ih => exact List.not_mem_cons_of_ne_of_not_mem (differs plain) ih
  | code high low _ ih =>
    have apart := differs (isPlain_of_mem_upperDigits high)
    have further := differs (isPlain_of_mem_upperDigits low)
    simp [sign, apart, further, ih]

theorem isPlain_of_isUnreserved {b : UInt8} (unreserved : isUnreserved b = true) :
    IsPlain (Char.ofNat b.toNat) := by
  have ascii : b.toNat < 128 := by
    simp only [isUnreserved, Bool.or_eq_true, Bool.and_eq_true, decide_eq_true_eq,
      beq_iff_eq] at unreserved
    omega
  have each : ∀ n < 128, isUnreserved (UInt8.ofNat n) = true → IsPlain (Char.ofNat n) := by decide
  exact each b.toNat ascii (by rwa [UInt8.ofNat_toNat])

theorem upper_mem_upperDigits {n : Nat} (h : n < 16) : Hexadecimal.upper n ∈ upperDigits := by
  revert n
  decide

theorem coded_encode (bytes : List UInt8) : Coded (encode bytes) := by
  induction bytes with
  | nil => exact .nil
  | cons b bytes ih =>
    have small : b.toNat < 256 := b.toNat_lt
    rw [encode, List.flatMap_cons, ← encode, encodeByte]
    split
    · next unreserved => exact .plain (isPlain_of_isUnreserved unreserved) ih
    · exact .code (upper_mem_upperDigits (by omega)) (upper_mem_upperDigits (by omega)) ih

end PercentCoding

/-! ## Taking a path apart -/

/-- The parts of a path. A parameter may stand without a value. -/
structure Target where
  segments : List String
  parameters : List (String × Option String)
  fragment : Option String
  deriving DecidableEq, Repr

namespace Target
open Pieces PercentCoding

/-- The first `#` begins the fragment; before it the first `?` begins the parameters, with `&` between
them, and the first `=` of each begins its value. -/
def ofString (path : String) : Target :=
  let (resource, fragment) := cut (· == '#') path.toList
  let (place, query) := cut (· == '?') resource
  let parameters := (query.map (split (· == '&'))).getD []
  { segments := (split (· == '/') place).map String.ofList
    parameters := parameters.map fun parameter =>
      let (name, value) := cut (· == '=') parameter
      (String.ofList name, value.map String.ofList)
    fragment := fragment.map String.ofList }

variable {endpoint name value : String}

theorem segments_ofString (fragment : '#' ∉ endpoint.toList) (query : '?' ∉ endpoint.toList) :
    (ofString endpoint).segments = (split (· == '/') endpoint.toList).map String.ofList := by
  simp [ofString, cut_of_not_mem fragment, cut_of_not_mem query]

theorem ofString_parameter (fragment : '#' ∉ endpoint.toList) (query : '?' ∉ endpoint.toList)
    (named : Coded name.toList) (coded : Coded value.toList) :
    ofString (endpoint ++ "?" ++ name ++ "=" ++ value) =
      ⟨(ofString endpoint).segments, [(name, some value)], none⟩ := by
  have apart : (endpoint ++ "?" ++ name ++ "=" ++ value).toList =
      endpoint.toList ++ '?' :: (name.toList ++ '=' :: value.toList) := by
    simp
  have absent {c : Char} (sign : c ≠ '%') (equals : c ≠ '=') (separator : ¬ IsPlain c) :
      c ∉ name.toList ++ '=' :: value.toList := by
    simp [named.not_mem sign separator, coded.not_mem sign separator, equals]
  have no_fragment : '#' ∉ endpoint.toList ++ '?' :: (name.toList ++ '=' :: value.toList) := by
    have behind := absent (c := '#') (by decide) (by decide) (by decide)
    simpa [fragment] using behind
  have one_parameter := absent (c := '&') (by decide) (by decide) (by decide)
  have one_value := named.not_mem (c := '=') (by decide) (by decide)
  rw [segments_ofString fragment query, ofString, apart, cut_of_not_mem no_fragment]
  simp [cut_append_cons_self query, split_of_not_mem one_parameter, cut_append_cons_self one_value]

example : ofString "/a/b?x=1&y#z?" =
    ⟨["", "a", "b"], [("x", some "1"), ("y", none)], some "z?"⟩ := by decide

end Target

/-! ## The path of an argument -/

/-- The path is the endpoint and one parameter, whose value is coded and, decoded as a cookie header
is, gives the bytes of the argument. Taken apart, it has the segments of the endpoint, no other
parameter and no fragment. -/
def AsksFor (endpoint name argument path : String) : Prop :=
  ∃ value : String,
    path = endpoint ++ "?" ++ name ++ "=" ++ value ∧
    PercentCoding.Coded value.toList ∧
    PercentCoding.decode (Utf8.encode value.toList) = Utf8.encode argument.toList ∧
    Target.ofString path = ⟨(Target.ofString endpoint).segments, [(name, some value)], none⟩

variable {endpoint name argument other path : String}

theorem asksFor_percentEncoded (fragment : '#' ∉ endpoint.toList) (query : '?' ∉ endpoint.toList)
    (named : PercentCoding.Coded name.toList) (argument : String) :
    AsksFor endpoint name argument (endpoint ++ "?" ++ name ++ "=" ++ percentEncoded argument) := by
  have coded : PercentCoding.Coded (percentEncoded argument).toList := by
    rw [percentEncoded, String.toList_ofList]
    exact PercentCoding.coded_encode _
  refine ⟨percentEncoded argument, rfl, coded, ?_, ?_⟩
  · rw [percentEncoded, String.toList_ofList, PercentCoding.decode_encode]
  · exact Target.ofString_parameter fragment query named coded

/-- A path asks for one argument only. -/
theorem AsksFor.argument_eq (asks : AsksFor endpoint name argument path)
    (alike : AsksFor endpoint name other path) : argument = other := by
  obtain ⟨value, whole, -, read, -⟩ := asks
  obtain ⟨same, again, -, readAgain, -⟩ := alike
  obtain rfl : value = same := by
    have ends := congrArg String.toList (whole.symm.trans again)
    exact String.toList_inj.1 (by simpa using ends)
  have bytes := read.symm.trans readAgain
  exact String.toList_inj.1 (Utf8.encode_injective bytes)

theorem asksFor_draftPath (id : String) : AsksFor "/api/draft" "id" id (draftPath id) :=
  asksFor_percentEncoded (by decide) (by decide) (PercentCoding.coded_of_all (by decide)) id

theorem asksFor_labelPath (key : String) : AsksFor "/api/t9n" "which" key (labelPath key) :=
  asksFor_percentEncoded (by decide) (by decide) (PercentCoding.coded_of_all (by decide)) key

/-- A draft is asked for with one request, for a path that has nothing but the id as its argument,
and so is a label: the argument is a single parameter, whatever signs are in it, so it adds no
segment, no parameter and no fragment, and different arguments have different paths. -/
theorem request_paths_identify_arguments :
    (∀ id : String, AsksFor "/api/draft" "id" id (draftPath id)) ∧
    (∀ key : String, AsksFor "/api/t9n" "which" key (labelPath key)) ∧
    draftPath.Injective ∧ labelPath.Injective ∧
    ∀ {σ : Type} (transport : Transport (StateM σ)) (made : List Request) (now : σ)
      (argument : String),
      (((fetchDraft transport.logged argument).run made).run now).1.2 =
        made ++ [.get (draftPath argument)] ∧
      (((fetchLabel transport.logged argument).run made).run now).1.2 =
        made ++ [.get (labelPath argument)] := by
  refine ⟨asksFor_draftPath, asksFor_labelPath, ?_, ?_, ?_⟩
  · intro id other same
    exact (asksFor_draftPath id).argument_eq (same ▸ asksFor_draftPath other)
  · intro key other same
    exact (asksFor_labelPath key).argument_eq (same ▸ asksFor_labelPath other)
  · intro σ transport made now argument
    rw [fetchDraft, fetchLabel, request_eq_map, request_eq_map, run_map_logged, run_map_logged]
    exact ⟨rfl, rfl⟩

end DraftDesk
