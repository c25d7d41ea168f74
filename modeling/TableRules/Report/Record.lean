import TableRules.FieldFault
import TableRules.Report.Finding
import TableRules.Report.Outcome

/-!
# Records of results

A finding or an outcome may come as a record of texts. Severities, categories and statuses are
then given by their identifiers, and each has to be one of those that exist.
-/

namespace TableRules

/-- A field that has to be given, and to be one of some choices. -/
def chosenField {α : Type} (field : String) (choices : List String) (ofName? : String → Option α)
    (value : Option String) : Except FieldFault α :=
  match value with
  | none => .error (.missing field)
  | some v =>
    match ofName? v with
    | some a => .ok a
    | none => .error (.notOneOf field choices)

/-- A finding from its fields. -/
def Finding.ofFields (severity category message : Option String) (column rule : Option String)
    (rows : List Nat) : Except (List FieldFault) Finding :=
  let s := chosenField "severity" (Severity.all.map Severity.name) Severity.ofName? severity
  let c := chosenField "category" (Category.all.map Category.name) Category.ofName? category
  let m : Except FieldFault String := match message with
    | some t => .ok t
    | none => .error (.missing "message")
  match s, c, m with
  | .ok s, .ok c, .ok m => .ok ⟨s, c, m, column, rule, rows⟩
  | _, _, _ => .error (FieldFault.ofResult s ++ FieldFault.ofResult c ++ FieldFault.ofResult m)

/-- The outcome of a conditional rule from its fields. -/
def ConditionalOutcome.ofFields (name : String) (status : Option String)
    (matchedRows failedRows : List Nat) (note : Option String) :
    Except (List FieldFault) ConditionalOutcome :=
  let names := ConditionalStatus.all.map ConditionalStatus.name
  match chosenField "status" names ConditionalStatus.ofName? status with
  | .ok s => .ok ⟨name, s, matchedRows, failedRows, note⟩
  | .error f => .error [f]

end TableRules
