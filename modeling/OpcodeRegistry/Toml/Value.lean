import OpcodeRegistry.Toml.DateTime

/-! # TOML values

A document gives keys values, in the order of the text. Numbers with a fraction and dates are kept
as they were written.

A date can also be handed over as a table: one whose first key is `dateKey`. The value of that key
has to be a string that is a date, and the other keys do not count. Reading a document ends with
putting dates in place of such tables, which refuses the document where one of them holds no date.
-/

namespace OpcodeRegistry.Toml

/-- A value of a TOML document. -/
inductive Value where
  | string (text : String)
  /-- An integer of 64 bits. -/
  | integer (n : Int)
  | float (text : String)
  | boolean (b : Bool)
  | dateTime (text : String)
  | array (values : List Value)
  | table (entries : List (String × Value))

/-! ## Tables that stand for dates -/

/-- The key that makes a table stand for a date. -/
def dateKey : String := "$__toml_private_datetime"

/-- The value under `dateKey`, if it is the first key of the table. -/
def dateEntry? : List (String × Value) → Option Value
  | (key, v) :: _ => if key = dateKey then some v else none
  | [] => none

namespace Value

/-- The date that a string is. Nothing else is one. -/
def asDate? : Value → Option Value
  | .string text => if isDateTime text.toList then some (.dateTime text) else none
  | _ => none

mutual

/-- The value with dates in place of the tables that stand for them. -/
def withDates? : Value → Option Value
  | .array values => (elementsWithDates? values).map .array
  | .table entries =>
    match dateEntry? entries with
    | some v => v.asDate?
    | none => (fieldsWithDates? entries).map .table
  | v => some v

/-- The same for the values of an array. -/
def elementsWithDates? : List Value → Option (List Value)
  | [] => some []
  | v :: rest => do
    let v ← v.withDates?
    let rest ← elementsWithDates? rest
    some (v :: rest)

/-- The same for the values of a table. -/
def fieldsWithDates? : List (String × Value) → Option (List (String × Value))
  | [] => some []
  | (key, v) :: rest => do
    let v ← v.withDates?
    let rest ← fieldsWithDates? rest
    some ((key, v) :: rest)

end

end Value

end OpcodeRegistry.Toml
