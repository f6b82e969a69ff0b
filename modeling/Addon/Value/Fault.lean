import Addon.Value

/-!
# Faults

What can go wrong in an operation on values. A fault is a cause; its kind says how far it travels,
and its message is for people.
-/

namespace Addon

/-- The kinds of faults. -/
inductive FaultKind where
  | type
  | value
  | key
  | index
  | overflow
  | zeroDivision
  | memory
deriving DecidableEq, Repr

/-- What a format cannot do. -/
inductive FormatFault where
  | tooManyDigits
  | bothSeparators
  | missingPrecision
  | invalid (spec kind : String)
  | separatorWith (separator code : Char)
  | unknownCode (code : Char) (kind : String)
  | spaceOnText
  | signOnText
  | zeroCoercionOnText
  | alternateOnText
  | insideAlignmentOnText
  | precisionOnInt
  | zeroCoercionOnInt
  | signOnCharacter
  | alternateOnCharacter
  | zeroPaddedComplex
  | insideAlignedComplex
  | precisionTooBig
deriving DecidableEq, Repr

/-- What can go wrong in an operation on values. -/
inductive Fault where
  | divisionByZero
  | overflow
  | outOfMemory
  | tooManyDigits
  | tooManyDigitsRead (count : Nat)
  | unordered (op left right : String)
  | notIterable (kind : String)
  | searchInText (kind : String)
  | unhashable (kind : String)
  | indexOutOfRange (container : String)
  | indexTooLarge
  | indexKind (container kind : String)
  | textIndexKind (kind : String)
  | notSubscriptable (kind : String)
  | missingKey (shown : String)
  | notAnInt (shown : String)
  | notAFloat (shown : String)
  | noIntOf (kind : String)
  | noFloatOf (kind : String)
  | nanAsInt
  | noLength (kind : String)
  | zeroStep
  | noFormat (kind : String)
  | format (f : FormatFault)
deriving DecidableEq, Repr

namespace FormatFault

/-- A format code in a message. -/
def codeText (code : Char) : String :=
  if 32 < code.toNat && code.toNat < 128 then code.toString
  else "\\x" ++ String.ofList (Nat.toDigits 16 code.toNat)

def message : FormatFault → String
  | .tooManyDigits => "Too many decimal digits in format string"
  | .bothSeparators => "Cannot specify both ',' and '_'."
  | .missingPrecision => "Format specifier missing precision"
  | .invalid spec kind => s!"Invalid format specifier '{spec}' for object of type '{kind}'"
  | .separatorWith separator code => s!"Cannot specify '{separator}' with '{codeText code}'."
  | .unknownCode code kind => s!"Unknown format code '{codeText code}' for object of type '{kind}'"
  | .spaceOnText => "Space not allowed in string format specifier"
  | .signOnText => "Sign not allowed in string format specifier"
  | .zeroCoercionOnText => "Negative zero coercion (z) not allowed in string format specifier"
  | .alternateOnText => "Alternate form (#) not allowed in string format specifier"
  | .insideAlignmentOnText => "'=' alignment not allowed in string format specifier"
  | .precisionOnInt => "Precision not allowed in integer format specifier"
  | .zeroCoercionOnInt => "Negative zero coercion (z) not allowed in integer format specifier"
  | .signOnCharacter => "Sign not allowed with integer format specifier 'c'"
  | .alternateOnCharacter => "Alternate form (#) not allowed with integer format specifier 'c'"
  | .zeroPaddedComplex => "Zero padding is not allowed in complex format specifier"
  | .insideAlignedComplex => "'=' alignment flag is not allowed in complex format specifier"
  | .precisionTooBig => "precision too big"

end FormatFault

namespace Fault

def kind : Fault → FaultKind
  | .divisionByZero => .zeroDivision
  | .overflow => .overflow
  | .outOfMemory => .memory
  | .unordered .. | .notIterable _ | .searchInText _ | .unhashable _ | .indexKind ..
  | .textIndexKind _ | .notSubscriptable _ | .noIntOf _ | .noFloatOf _ | .noLength _
  | .noFormat _ => .type
  | .indexOutOfRange _ | .indexTooLarge => .index
  | .missingKey _ => .key
  | .tooManyDigits | .tooManyDigitsRead _ | .notAnInt _ | .notAFloat _ | .nanAsInt | .zeroStep
  | .format _ => .value

def message : Fault → String
  | .divisionByZero => "division by zero"
  | .overflow => "result too large"
  | .outOfMemory => ""
  | .tooManyDigits => "Exceeds the limit (4300 digits) for integer string conversion; " ++
      "use sys.set_int_max_str_digits() to increase the limit"
  | .tooManyDigitsRead count => "Exceeds the limit (4300 digits) for integer string conversion: " ++
      s!"value has {count} digits; use sys.set_int_max_str_digits() to increase the limit"
  | .unordered op left right =>
    s!"'{op}' not supported between instances of '{left}' and '{right}'"
  | .notIterable kind => s!"argument of type '{kind}' is not iterable"
  | .searchInText kind => s!"'in <string>' requires string as left operand, not {kind}"
  | .unhashable kind => s!"unhashable type: '{kind}'"
  | .indexOutOfRange container => s!"{container} index out of range"
  | .indexTooLarge => "cannot fit 'int' into an index-sized integer"
  | .indexKind container kind => s!"{container} indices must be integers or slices, not {kind}"
  | .textIndexKind kind => s!"string indices must be integers, not '{kind}'"
  | .notSubscriptable kind => s!"'{kind}' object is not subscriptable"
  | .missingKey shown => shown
  | .notAnInt shown => s!"invalid literal for int() with base 10: {shown}"
  | .notAFloat shown => s!"could not convert string to float: {shown}"
  | .noIntOf kind =>
    s!"int() argument must be a string, a bytes-like object or a real number, not '{kind}'"
  | .noFloatOf kind => s!"float() argument must be a string or a real number, not '{kind}'"
  | .nanAsInt => "cannot convert float NaN to integer"
  | .noLength kind => s!"object of type '{kind}' has no len()"
  | .zeroStep => "range() arg 3 must not be zero"
  | .noFormat kind => s!"unsupported format string passed to {kind}.__format__"
  | .format f => f.message

end Fault

end Addon
