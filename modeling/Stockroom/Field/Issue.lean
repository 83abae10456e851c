import Stockroom.Number.Decimal

namespace Stockroom

/-- One thing wrong with a value. A bound that the value breaks goes with it. -/
inductive Issue.Kind where
  | missing
  | stringType
  | stringUnicode
  | stringTooShort (atLeast : Nat)
  | stringTooLong (atMost : Nat)
  | intType
  | intParsing
  | intParsingSize
  | intFromFloat
  | floatType
  | floatParsing
  | boolType
  | boolParsing
  | decimalType
  | decimalParsing
  | decimalMaxDigits (atMost : Nat)
  | decimalMaxPlaces (atMost : Nat)
  | decimalWholeDigits (atMost : Nat)
  | finiteNumber
  | greaterThan (bound : Decimal)
  | greaterThanEqual (bound : Decimal)
  | listType
  | tooShort (atLeast actual : Nat)
  | modelType
  | modelAttributesType
  | jsonInvalid
  deriving DecidableEq, Repr

def Issue.Kind.name : Issue.Kind → String
  | .missing => "missing"
  | .stringType => "string_type"
  | .stringUnicode => "string_unicode"
  | .stringTooShort _ => "string_too_short"
  | .stringTooLong _ => "string_too_long"
  | .intType => "int_type"
  | .intParsing => "int_parsing"
  | .intParsingSize => "int_parsing_size"
  | .intFromFloat => "int_from_float"
  | .floatType => "float_type"
  | .floatParsing => "float_parsing"
  | .boolType => "bool_type"
  | .boolParsing => "bool_parsing"
  | .decimalType => "decimal_type"
  | .decimalParsing => "decimal_parsing"
  | .decimalMaxDigits _ => "decimal_max_digits"
  | .decimalMaxPlaces _ => "decimal_max_places"
  | .decimalWholeDigits _ => "decimal_whole_digits"
  | .finiteNumber => "finite_number"
  | .greaterThan _ => "greater_than"
  | .greaterThanEqual _ => "greater_than_equal"
  | .listType => "list_type"
  | .tooShort .. => "too_short"
  | .modelType => "model_type"
  | .modelAttributesType => "model_attributes_type"
  | .jsonInvalid => "json_invalid"

inductive Issue.Step where
  | key (name : String)
  | index (n : Nat)
  deriving DecidableEq, Repr

structure Issue where
  place : List Issue.Step
  kind : Issue.Kind
  deriving DecidableEq, Repr

def Issue.under (step : Issue.Step) (i : Issue) : Issue := { i with place := step :: i.place }

/-- A value that passed its checks, or all that is wrong with it. -/
inductive Checked (α : Type) where
  | accepted (value : α)
  | refused (issues : List Issue)
  deriving Repr

namespace Checked

variable {α β : Type}

def issue (kind : Issue.Kind) : Checked α := .refused [⟨[], kind⟩]

/-- A function and its argument checked side by side: the issues of both are kept. -/
def apply (f : Checked (α → β)) (x : Checked α) : Checked β :=
  match f, x with
  | .accepted f, .accepted a => .accepted (f a)
  | .accepted _, .refused i => .refused i
  | .refused i, .accepted _ => .refused i
  | .refused i, .refused j => .refused (i ++ j)

def map (f : α → β) : Checked α → Checked β
  | .accepted a => .accepted (f a)
  | .refused i => .refused i

def andThen (x : Checked α) (f : α → Checked β) : Checked β :=
  match x with
  | .accepted a => f a
  | .refused i => .refused i

def under (step : Issue.Step) : Checked α → Checked α
  | .accepted a => .accepted a
  | .refused i => .refused (i.map (·.under step))

def list (check : α → Checked β) : Nat → List α → Checked (List β)
  | _, [] => .accepted []
  | n, x :: rest => apply (map List.cons ((check x).under (.index n))) (list check (n + 1) rest)

instance : Functor Checked := ⟨map, fun a => map fun _ => a⟩

instance : Pure Checked := ⟨accepted⟩

instance : Seq Checked := ⟨fun f x => apply f (x ())⟩

end Checked
end Stockroom
