import TableRules.Rule.Kind

/-!
# Families of rules

Rules that are checked alike form a family. Counters count rules by family, and a check is shown
with the name of its family.
-/

namespace TableRules

/-- The families of rules. -/
inductive RuleFamily
  | typeCheck
  | format
  | requiredField
  | null
  | unique
  | regex
  | membership
  | textEquality
  | comparison
  | length
  | substring
  | digits
  deriving DecidableEq, Repr

namespace RuleFamily

/-- The identifier of a family. -/
def name : RuleFamily → String
  | .typeCheck => "type_check"
  | .format => "format"
  | .requiredField => "required_field"
  | .null => "null"
  | .unique => "unique"
  | .regex => "regex"
  | .membership => "membership"
  | .textEquality => "text_equality"
  | .comparison => "comparison"
  | .length => "length"
  | .substring => "substring"
  | .digits => "digits"

/-- The name under which the checks of a family are shown. -/
def title : RuleFamily → String
  | .typeCheck => "TypeValidator"
  | .format => "FormatValidator"
  | .requiredField => "RequiredFieldValidator"
  | .null => "NullValidator"
  | .unique => "UniqueValidator"
  | .regex => "RegexValidator"
  | .membership => "MembershipValidator"
  | .textEquality => "TextEqualityValidator"
  | .comparison => "ComparisonValidator"
  | .length => "LengthValidator"
  | .substring => "SubstringValidator"
  | .digits => "DigitsValidator"

/-- Whether the rules of a family need a typed value. -/
def needsType : RuleFamily → Bool
  | .comparison => true
  | .digits => true
  | _ => false

end RuleFamily

/-- The family of a kind of rules. -/
def RuleKind.family : RuleKind → RuleFamily
  | .typeIs => .typeCheck
  | .formatIs => .format
  | .required => .requiredField
  | .isNotNull => .requiredField
  | .isNull => .null
  | .unique => .unique
  | .matchesPattern => .regex
  | .inSet => .membership
  | .notInSet => .membership
  | .equalsText => .textEquality
  | .notEqualsText => .textEquality
  | .equalsNumber => .comparison
  | .notEqualsNumber => .comparison
  | .greaterThan => .comparison
  | .lessThan => .comparison
  | .greaterOrEqual => .comparison
  | .lessOrEqual => .comparison
  | .hasLength => .length
  | .minLength => .length
  | .maxLength => .length
  | .startsWith => .substring
  | .endsWith => .substring
  | .includes => .substring
  | .excludesSubstring => .substring
  | .significantDigits => .digits
  | .decimalPlaces => .digits

end TableRules
