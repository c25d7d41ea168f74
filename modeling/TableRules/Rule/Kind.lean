/-!
# Kinds of rules

Every rule is of one of twenty-six kinds, each with its own phrase in a rules text and its own
identifier in reports and counters.
-/

namespace TableRules

/-- The kinds of rules. -/
inductive RuleKind
  | typeIs
  | formatIs
  | required
  | unique
  | isNull
  | isNotNull
  | matchesPattern
  | inSet
  | notInSet
  | equalsText
  | notEqualsText
  | equalsNumber
  | notEqualsNumber
  | greaterThan
  | lessThan
  | greaterOrEqual
  | lessOrEqual
  | hasLength
  | minLength
  | maxLength
  | startsWith
  | endsWith
  | includes
  | excludesSubstring
  | significantDigits
  | decimalPlaces
  deriving DecidableEq, Repr

namespace RuleKind

/-- The kinds, in the order of their declaration. -/
def all : List RuleKind :=
  [.typeIs, .formatIs, .required, .unique, .isNull, .isNotNull, .matchesPattern, .inSet, .notInSet,
   .equalsText, .notEqualsText, .equalsNumber, .notEqualsNumber, .greaterThan, .lessThan,
   .greaterOrEqual, .lessOrEqual, .hasLength, .minLength, .maxLength, .startsWith, .endsWith,
   .includes, .excludesSubstring, .significantDigits, .decimalPlaces]

/-- The identifier of a kind. -/
def name : RuleKind → String
  | .typeIs => "type_is"
  | .formatIs => "format_is"
  | .required => "required"
  | .unique => "unique"
  | .isNull => "is_null"
  | .isNotNull => "is_not_null"
  | .matchesPattern => "matches_pattern"
  | .inSet => "in_set"
  | .notInSet => "not_in_set"
  | .equalsText => "equals_text"
  | .notEqualsText => "not_equals_text"
  | .equalsNumber => "equals_number"
  | .notEqualsNumber => "not_equals_number"
  | .greaterThan => "greater_than"
  | .lessThan => "less_than"
  | .greaterOrEqual => "greater_or_equal"
  | .lessOrEqual => "less_or_equal"
  | .hasLength => "has_length"
  | .minLength => "min_length"
  | .maxLength => "max_length"
  | .startsWith => "starts_with"
  | .endsWith => "ends_with"
  | .includes => "includes"
  | .excludesSubstring => "excludes_substring"
  | .significantDigits => "significant_digits"
  | .decimalPlaces => "decimal_places"

/-- The kind with a given identifier. -/
def ofName? (s : String) : Option RuleKind := all.find? fun k => k.name == s

/-- Every kind is listed. -/
theorem mem_all (k : RuleKind) : k ∈ all := by cases k <;> decide

end RuleKind

end TableRules
