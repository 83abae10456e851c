import Stockroom.Field.Issue
import Stockroom.Json.Basic

namespace Stockroom
namespace Issue.Kind

def counted (n : Nat) (thing : String) : String :=
  toString n ++ " " ++ thing ++ (if n = 1 then "" else "s")

def wording : Issue.Kind → String
  | .missing => "Field required"
  | .stringType => "Input should be a valid string"
  | .stringUnicode =>
    "Input should be a valid string, unable to parse raw data as a unicode string"
  | .stringTooShort n => "String should have at least " ++ counted n "character"
  | .stringTooLong n => "String should have at most " ++ counted n "character"
  | .intType => "Input should be a valid integer"
  | .intParsing => "Input should be a valid integer, unable to parse string as an integer"
  | .intParsingSize => "Unable to parse input string as an integer, exceeded maximum size"
  | .intFromFloat => "Input should be a valid integer, got a number with a fractional part"
  | .floatType => "Input should be a valid number"
  | .floatParsing => "Input should be a valid number, unable to parse string as a number"
  | .boolType => "Input should be a valid boolean"
  | .boolParsing => "Input should be a valid boolean, unable to interpret input"
  | .decimalType => "Decimal input should be an integer, float, string or Decimal object"
  | .decimalParsing => "Input should be a valid decimal"
  | .decimalMaxDigits n =>
    "Decimal input should have no more than " ++ counted n "digit" ++ " in total"
  | .decimalMaxPlaces n => "Decimal input should have no more than " ++ counted n "decimal place"
  | .decimalWholeDigits n =>
    "Decimal input should have no more than " ++ counted n "digit" ++ " before the decimal point"
  | .finiteNumber => "Input should be a finite number"
  | .greaterThan bound => "Input should be greater than " ++ bound.toText
  | .greaterThanEqual bound => "Input should be greater than or equal to " ++ bound.toText
  | .listType => "Input should be a valid list"
  | .tooShort n actual =>
    "List should have at least " ++ counted n "item" ++ " after validation, not " ++ toString actual
  | .modelType => "Input should be a valid dictionary or instance of Product"
  | .modelAttributesType => "Input should be a valid dictionary or object to extract fields from"
  | .jsonInvalid => "JSON decode error"

def boundJson (bound : Decimal) : Json :=
  match bound with
  | .finite _ _ e => if 0 ≤ e then .integer (bound.inUnits 0) else .fraction (.ofDecimal bound)
  | _ => .fraction (.ofDecimal bound)

def bounds : Issue.Kind → List (String × Json)
  | .stringTooShort n => [("min_length", .integer n)]
  | .stringTooLong n => [("max_length", .integer n)]
  | .decimalMaxDigits n => [("max_digits", .integer n)]
  | .decimalMaxPlaces n => [("decimal_places", .integer n)]
  | .decimalWholeDigits n => [("whole_digits", .integer n)]
  | .greaterThan bound => [("gt", boundJson bound)]
  | .greaterThanEqual bound => [("ge", boundJson bound)]
  | .tooShort n actual =>
    [("field_type", .text "List"), ("min_length", .integer n), ("actual_length", .integer actual)]
  | _ => []

end Issue.Kind
end Stockroom
