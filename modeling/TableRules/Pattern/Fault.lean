import TableRules.Text.Quoted
import TableRules.Text.Digit

/-!
# Faults of a pattern

Why a text is not a pattern (`PatternCause`), and where (`PatternFault`). Most faults have a
position, counted in characters from zero; those found only once the whole pattern has been read
have none.
-/

namespace TableRules

/-- Why a text is not a pattern. -/
inductive PatternCause
  | escapeAtEnd
  | incompleteEscape (escape : String)
  | badEscape (escape : String)
  | octalTooLarge (escape : String)
  | missing (what : String)
  | unterminatedName (terminator : Char)
  | undefinedCharacter (name : String)
  | openGroup
  | groupInSameLookbehind
  | invalidReference (index : Nat)
  | unterminatedClass
  | badRange (low high : String)
  | leastAboveMost
  | nothingToRepeat
  | multipleRepeat
  | unexpectedEnd
  | badGroupName (name : String)
  | unknownGroupName (name : String)
  | unknownExtension (text : String)
  | unterminatedComment
  | unterminatedGroup
  | badGroupNumber
  | tooManyBranches
  | misplacedFlags
  | redefinedName (name : String) (new old : Nat)
  | unknownFlag
  | byteFlag
  | incompatibleFlags
  | globalFlagOn
  | globalFlagOff
  | typeFlagOff
  | flagOnAndOff
  | unbalancedParenthesis
  | variableLookbehind
  | longLookbehind
  | forbiddenRepeat (operator : String)
  deriving DecidableEq, Repr

namespace PatternCause

/-- The wording of a cause. -/
def message : PatternCause → String
  | .escapeAtEnd => "bad escape (end of pattern)"
  | .incompleteEscape e => "incomplete escape " ++ e
  | .badEscape e => "bad escape " ++ e
  | .octalTooLarge e => "octal escape value " ++ e ++ " outside of range 0-0o377"
  | .missing what => "missing " ++ what
  | .unterminatedName t => "missing " ++ String.ofList [t] ++ ", unterminated name"
  | .undefinedCharacter name => "undefined character name " ++ Text.quoted name
  | .openGroup => "cannot refer to an open group"
  | .groupInSameLookbehind =>
    "cannot refer to group defined in the same lookbehind subpattern"
  | .invalidReference n => "invalid group reference " ++ Text.decimal n
  | .unterminatedClass => "unterminated character set"
  | .badRange a b => "bad character range " ++ a ++ "-" ++ b
  | .leastAboveMost => "min repeat greater than max repeat"
  | .nothingToRepeat => "nothing to repeat"
  | .multipleRepeat => "multiple repeat"
  | .unexpectedEnd => "unexpected end of pattern"
  | .badGroupName name => "bad character in group name " ++ Text.quoted name
  | .unknownGroupName name => "unknown group name " ++ Text.quoted name
  | .unknownExtension t => "unknown extension ?" ++ t
  | .unterminatedComment => "missing ), unterminated comment"
  | .unterminatedGroup => "missing ), unterminated subpattern"
  | .badGroupNumber => "bad group number"
  | .tooManyBranches => "conditional backref with more than two branches"
  | .misplacedFlags => "global flags not at the start of the expression"
  | .redefinedName name new old =>
    "redefinition of group name " ++ Text.quoted name ++ " as group " ++ Text.decimal new ++
      "; was group " ++ Text.decimal old
  | .unknownFlag => "unknown flag"
  | .byteFlag => "bad inline flags: cannot use 'L' flag with a str pattern"
  | .incompatibleFlags => "bad inline flags: flags 'a', 'u' and 'L' are incompatible"
  | .globalFlagOn => "bad inline flags: cannot turn on global flag"
  | .globalFlagOff => "bad inline flags: cannot turn off global flag"
  | .typeFlagOff => "bad inline flags: cannot turn off flags 'a', 'u' and 'L'"
  | .flagOnAndOff => "bad inline flags: flag turned on and off"
  | .unbalancedParenthesis => "unbalanced parenthesis"
  | .variableLookbehind => "look-behind requires fixed-width pattern"
  | .longLookbehind => "looks too much behind"
  | .forbiddenRepeat op => "internal: unsupported template operator " ++ op

end PatternCause

/-- A fault of a pattern. Besides ill-formed texts there are repetition counts beyond the greatest
count, counts with more digits than are read, and flags that exclude each other. -/
inductive PatternFault
  | invalid (cause : PatternCause) (position : Option Nat)
  | repetitionTooLarge
  | tooManyDigits
  | conflictingFlags
  deriving DecidableEq, Repr

namespace PatternFault

/-- The wording of a fault, with its position. -/
def message : PatternFault → String
  | .invalid cause none => cause.message
  | .invalid cause (some n) => cause.message ++ " at position " ++ Text.decimal n
  | .repetitionTooLarge => "the repetition number is too large"
  | .tooManyDigits => "too many digits"
  | .conflictingFlags => "ASCII and UNICODE flags are incompatible"

end PatternFault

end TableRules
