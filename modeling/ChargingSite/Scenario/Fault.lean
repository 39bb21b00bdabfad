import ChargingSite.Document
import ChargingSite.Error

/-!
# Faults of a configuration

Checking a configuration finds all its faults, not only the first.  A fault has a kind, and the path
to the value that is at fault.  A kind has a short code and a wording; a broken rule, which concerns
a record as a whole, brings its own wording.
-/

namespace ChargingSite

/-- A rule about the fields of one record that is broken. -/
inductive BrokenRule where
  /-- The samples of a charge curve are out of order. -/
  | curveNotIncreasing
  /-- A charge curve does not reach from 0 to 100. -/
  | curveSpan (first last : Binary64)
  /-- A charge curve has a negative power. -/
  | curveNegative
  /-- A vehicle would leave with less than it arrives with. -/
  | windowReversed (unplug start : Binary64)
  /-- The ceiling for one plug is below one step. -/
  | capBelowStep (cap step : Binary64)
  /-- A granular charger could not serve anybody. -/
  | budget (cause : SiteError)
  /-- Two catalog entries have one name. -/
  | namesNotUnique
  /-- Vehicles name entries that are not in the catalog. -/
  | unknownSpecs (names : List String)
  deriving DecidableEq

/-- The wording of a broken rule. -/
def BrokenRule.message : BrokenRule → String
  | curveNotIncreasing => "charge_curve state of charge values must be strictly increasing"
  | curveSpan first last =>
    "charge_curve must span 0–100 %, got " ++ first.shortest ++ "–" ++ last.shortest ++ " %"
  | curveNegative => "charge_curve power values must be non-negative"
  | windowReversed unplug start =>
    "unplug_soc_pct (" ++ unplug.shortest ++ ") must not be below start_soc_pct (" ++
      start.shortest ++ ")"
  | capBelowStep cap step =>
    "max_per_plug_kw (" ++ cap.shortest ++ ") must be at least power_step_kw (" ++
      step.shortest ++ ")"
  | budget cause => cause.message
  | namesNotUnique => "catalog vehicle names must be unique"
  | unknownSpecs names => "vehicles reference unknown specs: " ++ quotedList names

/-- What is wrong with a value. -/
inductive FaultKind where
  /-- A field or an item is missing. -/
  | missing
  /-- No number, and nothing that could be read as one. -/
  | notNumber
  /-- A text that is no number. -/
  | numberSyntax
  /-- No integer, and nothing that could be read as one. -/
  | notInteger
  /-- A number with a fraction where an integer belongs. -/
  | fractional
  /-- A text that is no integer. -/
  | integerSyntax
  /-- An integer too long to be read. -/
  | integerSize
  /-- A number that is not finite where an integer belongs. -/
  | notFinite
  | notText
  /-- Not above the bound. -/
  | notAbove (bound : Nat)
  /-- Not at or above the bound. -/
  | notAtLeast (bound : Nat)
  /-- Not at or below the bound. -/
  | notAtMost (bound : Nat)
  | notTuple
  /-- Too few valid items. -/
  | tooShort (least valid : Nat)
  /-- Too many items. -/
  | tooLong (most items : Nat)
  | notList
  /-- Not a record of the named sort. -/
  | notRecord (sort : String)
  /-- The word in this place can only be one. -/
  | wrongWord (expected : String)
  /-- A strategy that does not say which one it is. -/
  | noKind
  /-- A strategy that says it is one that does not exist. -/
  | unknownKind (word : String)
  /-- A strategy that is not a record. -/
  | notStrategy
  /-- A rule about a whole record. -/
  | rule (broken : BrokenRule)
  deriving DecidableEq

namespace FaultKind

/-- The short code of a kind of fault. -/
def code : FaultKind → String
  | missing => "missing"
  | notNumber => "float_type"
  | numberSyntax => "float_parsing"
  | notInteger => "int_type"
  | fractional => "int_from_float"
  | integerSyntax => "int_parsing"
  | integerSize => "int_parsing_size"
  | notFinite => "finite_number"
  | notText => "string_type"
  | notAbove _ => "greater_than"
  | notAtLeast _ => "greater_than_equal"
  | notAtMost _ => "less_than_equal"
  | notTuple => "tuple_type"
  | tooShort .. => "too_short"
  | tooLong .. => "too_long"
  | notList => "list_type"
  | notRecord _ => "model_type"
  | wrongWord _ => "literal_error"
  | noKind => "union_tag_not_found"
  | unknownKind _ => "union_tag_invalid"
  | notStrategy => "model_attributes_type"
  | rule _ => "value_error"

/-- The wording of a kind of fault. -/
def message : FaultKind → String
  | missing => "Field required"
  | notNumber => "Input should be a valid number"
  | numberSyntax => "Input should be a valid number, unable to parse string as a number"
  | notInteger => "Input should be a valid integer"
  | fractional => "Input should be a valid integer, got a number with a fractional part"
  | integerSyntax => "Input should be a valid integer, unable to parse string as an integer"
  | integerSize => "Unable to parse input string as an integer, exceeded maximum size"
  | notFinite => "Input should be a finite number"
  | notText => "Input should be a valid string"
  | notAbove n => "Input should be greater than " ++ toString n
  | notAtLeast n => "Input should be greater than or equal to " ++ toString n
  | notAtMost n => "Input should be less than or equal to " ++ toString n
  | notTuple => "Input should be a valid tuple"
  | tooShort least n =>
    "Tuple should have at least " ++ toString least ++ " items after validation, not " ++ toString n
  | tooLong most n =>
    "Tuple should have at most " ++ toString most ++ " items after validation, not " ++ toString n
  | notList => "Input should be a valid list"
  | notRecord sort => "Input should be a valid dictionary or instance of " ++ sort
  | wrongWord word => "Input should be '" ++ word ++ "'"
  | noKind => "Unable to extract tag using discriminator 'kind'"
  | unknownKind word =>
    "Input tag '" ++ word ++ "' found using 'kind' does not match any of the expected tags: " ++
      "'exclusive', 'paired', 'split', 'granular'"
  | notStrategy => "Input should be a valid dictionary or object to extract fields from"
  | rule broken => "Value error, " ++ broken.message

end FaultKind

/-- One part of the path to a value. -/
inductive PathPart where
  | field (name : String)
  | index (position : Nat)
  deriving DecidableEq

/-- A fault, and where it is. -/
structure Fault where
  kind : FaultKind
  path : List PathPart := []
  deriving DecidableEq

end ChargingSite
