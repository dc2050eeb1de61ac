import ScopedStyle.Json.Printer
import ScopedStyle.Settings.Path

/-!
# Conditions

A field may depend on other fields: it takes part only while all clauses of its
condition hold. A clause compares the value of a field with one of its own.

In a document a condition has three forms, all read by `ofJson`:

* a clause, `{ "field": "size", "op": "gt", "value": 10 }`, in which the
  operator is `eq` and the value `null` when left out;
* an object of fields and the values they must equal;
* a list of clauses.

It is written as a clause, or as a list unless it has exactly one.
-/

namespace ScopedStyle

/-- How a clause compares. -/
inductive Operator where
  /-- Equal. -/
  | eq
  /-- Not equal. -/
  | neq
  /-- A greater number. -/
  | gt
  /-- A lesser number. -/
  | lt
  /-- One of a list. -/
  | oneOf
  deriving DecidableEq

namespace Operator

/-- All operators. -/
def all : List Operator := [.eq, .neq, .gt, .lt, .oneOf]

/-- The name of an operator in a document. -/
def name : Operator → String
  | .eq => "eq"
  | .neq => "neq"
  | .gt => "gt"
  | .lt => "lt"
  | .oneOf => "in"

/-- The operator with a name. -/
def ofName? (name : String) : Option Operator :=
  all.find? (·.name = name)

end Operator

/-- One comparison. -/
structure Clause where
  /-- The field that is compared: with one segment a sibling of the field that
      has the condition, else a path from the root. -/
  field : Path
  /-- How it is compared. -/
  op : Operator
  /-- What it is compared with. -/
  value : Json

/-- Clauses that must all hold. -/
structure Condition where
  /-- The clauses. -/
  clauses : List Clause

namespace Condition

/-- Why a value is no condition. -/
inductive Error where
  /-- There is no operator with the name. -/
  | unknownOperator (name : String)
  /-- A clause has a key that clauses do not have. -/
  | strayKey (key : String)
  /-- A clause does not name a field. -/
  | noField
  /-- The operator is no string. -/
  | operatorNotText (found : Json)
  /-- A clause asks for one of what is no list. -/
  | notAList (field : String)
  /-- An entry of a list of clauses is no object. -/
  | notAClause (found : Json)
  /-- The value has none of the three forms. -/
  | notACondition (found : Json)

/-- The wording of an error. -/
def Error.message : Error → String
  | .unknownOperator name => s!"unknown condition operator `{name}`"
  | .strayKey key => s!"malformed condition: clause mixes `field` with unrelated key `{key}`"
  | .noField => "malformed condition: `field` must be a non-empty string"
  | .operatorNotText found =>
    "malformed condition: `op` must be a string, got " ++ found.toText
  | .notAList field => s!"malformed condition: `in` on `{field}` needs a list value"
  | .notAClause found =>
    "malformed condition: list entries must be clause objects, got " ++ found.toText
  | .notACondition found =>
    "malformed condition: expected a clause, a field map or a clause list, got " ++ found.toText

/-- The keys of a clause. -/
def clauseKeys : List String := ["field", "op", "value"]

/-- The operator of a clause. -/
def operatorOf (entries : Dict Json) : Except Error Operator :=
  match entries.get? "op" with
  | none => .ok .eq
  | some (.str name) =>
    match Operator.ofName? name with
    | some op => .ok op
    | none => .error (.unknownOperator name)
  | some other => .error (.operatorNotText other)

/-- The clause that the entries of an object make. -/
def clauseOf (entries : Dict Json) : Except Error Clause :=
  match entries.keys.find? (!clauseKeys.contains ·) with
  | some key => .error (.strayKey key)
  | none =>
    match entries.get? "field" with
    | some (.str field) =>
      if field.isEmpty then .error .noField
      else do
        let op ← operatorOf entries
        let value := (entries.get? "value").getD .null
        if op = .oneOf && value.arr?.isNone then .error (.notAList field)
        else .ok ⟨.ofText field, op, value⟩
    | _ => .error .noField

/-- The clause that an entry of a list makes. -/
def clauseOfItem : Json → Except Error Clause
  | .obj entries => clauseOf entries
  | other => .error (.notAClause other)

/-- The condition of a value in one of the three forms. -/
def ofJson (value : Json) : Except Error Condition :=
  match value with
  | .obj [] => .error (.notACondition value)
  | .obj entries =>
    if Dict.contains entries "field" then (clauseOf entries).map fun c => ⟨[c]⟩
    else .ok ⟨entries.map fun (key, expected) => ⟨.ofText key, .eq, expected⟩⟩
  | .arr [] => .error (.notACondition value)
  | .arr items => (items.mapM clauseOfItem).map Condition.mk
  | other => .error (.notACondition other)

/-- A clause as a value. -/
def clauseToJson (c : Clause) : Json :=
  .obj [("field", .str c.field.toText), ("op", .str c.op.name), ("value", c.value)]

/-- A condition as a value. -/
def toJson (c : Condition) : Json :=
  match c.clauses with
  | [clause] => clauseToJson clause
  | clauses => .arr (clauses.map clauseToJson)

end Condition

end ScopedStyle
