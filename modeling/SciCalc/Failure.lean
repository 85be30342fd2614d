/-
  Failures of a calculation.

  A failure is a cause.  Its family, message, code and position are functions of the cause, gathered in a
  `Report`; a problem found by a check that does not stop is an `Issue` with the same message, code and
  position.
-/
import SciCalc.Limit
import SciCalc.Number.Fault
import SciCalc.Number.Digits
import SciCalc.Text.Blank
import SciCalc.Text.Quoted

namespace SciCalc

open Number (natText intText)

/-! ## Reports -/

/-- The families of failures. -/
inductive Family where
  | general
  | lexical
  | structural
  | unknownIdentifier
  | arity
  | divisionByZero
  | numeric
  | mode
  | registration
deriving DecidableEq

/-- What is reported of a failure. -/
structure Report where
  /-- The family of the failure. -/
  family : Family
  /-- The message for the user. -/
  message : String
  /-- The code for programs. -/
  code : String
  /-- The place in the expression, counted in characters. -/
  position : Option Int
deriving DecidableEq

/-- One problem found by a check that does not stop at problems. -/
structure Issue where
  /-- The message for the user. -/
  message : String
  /-- The code for programs. -/
  code : String
  /-- The place in the expression, counted in characters. -/
  position : Option Int
deriving DecidableEq

/-- The code of the failures of a family that have no code of their own. -/
def Family.code : Family → String
  | general => "CALCULATOR_ERROR"
  | lexical => "LEX_ERROR"
  | structural => "STRUCTURAL_ERROR"
  | unknownIdentifier => "UNKNOWN_IDENTIFIER"
  | arity => "ARITY_ERROR"
  | divisionByZero => "DIVISION_BY_ZERO"
  | numeric => "INVALID_OPERATION"
  | mode => "MODE_CONFIGURATION_ERROR"
  | registration => "REGISTRATION_ERROR"

/-- The report of a failure without a code and a position of its own. -/
def Family.report (f : Family) (message : String) : Report := ⟨f, message, f.code, none⟩

/-- The report of a name that is unknown as a `kind` of thing. -/
def Report.unknown (kind name : String) : Report :=
  Family.unknownIdentifier.report ("Unknown " ++ kind ++ ": " ++ name)

/-- A report as an issue. -/
def Report.issue (r : Report) : Issue := ⟨r.message, r.code, r.position⟩

/-! ## Lexical failures -/

/-- Why a text has no tokens. -/
inductive LexicalCause where
  /-- The expression is not a text. -/
  | notText
  /-- The text is longer than the limit. -/
  | tooLong (length : Nat) (limit : Int)
  /-- No token begins with the character. -/
  | unexpectedCharacter (c : Char) (position : Nat)
  /-- The digits and points do not form a number. -/
  | invalidNumber (text : String) (position : Nat)
deriving DecidableEq

/-- The message of a lexical failure. -/
def LexicalCause.message : LexicalCause → String
  | notText => "Expression must be a string"
  | tooLong length limit =>
    "Expression too long (" ++ natText length ++ " characters, limit " ++ intText limit ++ ")"
  | unexpectedCharacter c position =>
    "Unexpected character '" ++ c.toString ++ "' at position " ++ natText position
  | invalidNumber text position =>
    "Invalid number '" ++ text ++ "' at position " ++ natText position

/-- The code of a lexical failure. -/
def LexicalCause.code : LexicalCause → String
  | notText => "INVALID_INPUT"
  | tooLong .. => "TOO_LONG"
  | unexpectedCharacter .. => "UNEXPECTED_CHARACTER"
  | invalidNumber .. => "INVALID_NUMBER"

/-- The place of a lexical failure. -/
def LexicalCause.position : LexicalCause → Option Int
  | unexpectedCharacter _ position => some position
  | invalidNumber _ position => some position
  | _ => none

/-! ## Structural failures -/

/-- Why tokens do not form an expression, or postfix tokens no value. -/
inductive StructuralCause where
  /-- There are no tokens. -/
  | empty
  /-- An operand follows an operand. -/
  | missingOperator (value : String) (position : Int)
  /-- A function name is not followed by a parenthesis. -/
  | missingParenthesis (name : String) (position : Int)
  /-- Too many parentheses are open. -/
  | tooDeep (limit : Int) (position : Int)
  /-- A right parenthesis closes nothing. -/
  | unmatchedRight (position : Int)
  /-- A left parenthesis is not closed. -/
  | unmatchedLeft (position : Int)
  /-- There is nothing between a comma and the next comma or the parenthesis. -/
  | emptyArgument (position : Int)
  /-- There is nothing between two parentheses. -/
  | emptyParentheses (position : Int)
  /-- An operator or a right parenthesis follows where an operand is missing. -/
  | missingOperand (value : String) (position : Int)
  /-- A comma does not separate arguments. -/
  | commaOutsideCall (position : Int)
  /-- An operator follows an operator. -/
  | consecutiveOperators (position : Int)
  /-- A symbol stands between two operands and is no binary operator. -/
  | notBinary (value : String) (position : Int)
  /-- The last token is an operator. -/
  | trailingOperator (position : Int)
  /-- The expression ends where an operand is missing. -/
  | unexpectedEnd (position : Int)
  /-- A function is applied to fewer values than it takes. -/
  | functionUnderflow (name : String) (position : Int)
  /-- An operator is applied to fewer values than it takes. -/
  | operatorUnderflow (symbol : String) (position : Int)
  /-- Not exactly one value is left. -/
  | leftover (count : Nat)
  /-- A token stands in postfix order that has no place there. -/
  | unexpectedToken (value : String) (position : Int)
  /-- Too many calls of defined functions are active. -/
  | recursionTooDeep (name : String)
deriving DecidableEq

/-- The message of a structural failure. -/
def StructuralCause.message : StructuralCause → String
  | empty => "Empty expression"
  | missingOperator value position =>
    "Missing operator before '" ++ value ++ "' at position " ++ intText position
  | missingParenthesis name _ => "Function '" ++ name ++ "' must be followed by '('"
  | tooDeep limit _ => "Nesting deeper than " ++ intText limit ++ " levels"
  | unmatchedRight position => "Unmatched right parenthesis at position " ++ intText position
  | unmatchedLeft position => "Unmatched left parenthesis at position " ++ intText position
  | emptyArgument _ => "Empty function argument"
  | emptyParentheses _ => "Empty parentheses"
  | missingOperand value position =>
    "Missing operand before '" ++ value ++ "' at position " ++ intText position
  | commaOutsideCall position => "Comma outside of a function call at position " ++ intText position
  | consecutiveOperators position => "Consecutive operators at position " ++ intText position
  | notBinary value _ => "'" ++ value ++ "' is not a binary operator"
  | trailingOperator _ => "Expression ends with an operator"
  | unexpectedEnd _ => "Unexpected end of expression"
  | functionUnderflow name _ => "Not enough operands for function " ++ name
  | operatorUnderflow symbol _ => "Not enough operands for operator '" ++ symbol ++ "'"
  | leftover count => "Invalid expression: " ++ natText count ++ " values left after evaluation"
  | unexpectedToken value _ => "Unexpected token '" ++ value ++ "' in RPN"
  | recursionTooDeep name => "Recursion too deep in " ++ name

/-- The code of a structural failure. -/
def StructuralCause.code : StructuralCause → String
  | empty => "EMPTY_INPUT"
  | missingOperator .. => "MISSING_OPERATOR"
  | missingParenthesis .. => "MISSING_PARENTHESIS"
  | tooDeep .. => "TOO_DEEP"
  | unmatchedRight .. => "UNMATCHED_RIGHT_PAREN"
  | unmatchedLeft .. => "UNMATCHED_LEFT_PAREN"
  | emptyArgument .. => "EMPTY_ARGUMENT"
  | emptyParentheses .. => "MISSING_OPERAND"
  | missingOperand .. => "MISSING_OPERAND"
  | commaOutsideCall .. => "COMMA_OUTSIDE_CALL"
  | consecutiveOperators .. => "CONSECUTIVE_OPERATORS"
  | notBinary .. => "UNKNOWN_OPERATOR"
  | trailingOperator .. => "TRAILING_OPERATOR"
  | unexpectedEnd .. => "MISSING_OPERAND"
  | functionUnderflow .. => "STACK_UNDERFLOW"
  | operatorUnderflow .. => "STACK_UNDERFLOW"
  | leftover .. => "INVALID_STACK"
  | unexpectedToken .. => "UNEXPECTED_TOKEN"
  | recursionTooDeep .. => "TOO_DEEP"

/-- The place of a structural failure. -/
def StructuralCause.position : StructuralCause → Option Int
  | empty => some 0
  | missingOperator _ position => some position
  | missingParenthesis _ position => some position
  | tooDeep _ position => some position
  | unmatchedRight position => some position
  | unmatchedLeft position => some position
  | emptyArgument position => some position
  | emptyParentheses position => some position
  | missingOperand _ position => some position
  | commaOutsideCall position => some position
  | consecutiveOperators position => some position
  | notBinary _ position => some position
  | trailingOperator position => some position
  | unexpectedEnd position => some position
  | functionUnderflow _ position => some position
  | operatorUnderflow _ position => some position
  | unexpectedToken _ position => some position
  | leftover _ => none
  | recursionTooDeep _ => none

/-- The integer that the message of a structural failure tells, if it tells one. -/
def StructuralCause.told? : StructuralCause → Option Int
  | missingOperator _ position => some position
  | tooDeep limit _ => some limit
  | unmatchedRight position => some position
  | unmatchedLeft position => some position
  | missingOperand _ position => some position
  | commaOutsideCall position => some position
  | consecutiveOperators position => some position
  | leftover count => some count
  | _ => none

/-- A structural problem as an issue. -/
def StructuralCause.issue (c : StructuralCause) : Issue := ⟨c.message, c.code, c.position⟩

/-! ## Numeric failures -/

/-- What is divided by zero. -/
inductive ZeroCause where
  | division
  | modulo
  | complexDivision
  | reciprocal
  | negativePower
  | nonPositivePower
deriving DecidableEq

/-- The message of a division by zero. -/
def ZeroCause.message : ZeroCause → String
  | division => "Division by zero"
  | modulo => "Modulo by zero"
  | complexDivision => "Division by zero in complex numbers"
  | reciprocal => "Division by zero in complex reciprocal"
  | negativePower => "Zero raised to a negative power"
  | nonPositivePower => "Zero raised to a non-positive power"

/-- Why a value is out of range or undefined. -/
inductive NumericCause where
  /-- The result is infinite. -/
  | overflow
  /-- The result is smaller than the smallest normal double. -/
  | underflow
  /-- The result is undefined. -/
  | notANumber
  /-- No double is as large as the integer. -/
  | integerTooLarge
  /-- The exponent of an exact power is too large. -/
  | exponentLimit (exponent : Int)
  /-- A decimal is beyond the largest exponent. -/
  | decimalOverflow
  /-- A function value is infinite or undefined. -/
  | notFinite
  /-- The arguments are outside the domain of a function. -/
  | domain (what : String)
  /-- A rule of arithmetic is broken. -/
  | invalid (reason : String)
  /-- Complex numbers are compared. -/
  | unordered
  /-- A complex number stands where a real one is needed. -/
  | notReal
  /-- An infinite or undefined double stands where a decimal is needed. -/
  | notDecimal (text : String)
  /-- The logarithm of zero is asked for. -/
  | logarithmOfZero
  /-- A remainder of complex numbers is asked for. -/
  | complexModulo
  /-- A whole quotient of complex numbers is asked for. -/
  | complexFloorDivision
  /-- A kind of object that is no number. -/
  | unsupported (kind : String)
  /-- A function needs integers. -/
  | integerArguments (name : String)
  /-- A function needs real numbers. -/
  | realArguments (name : String)
  /-- A rounding function is applied to a complex number. -/
  | complexRounding (name : String)
  /-- The factorial of a complex number is asked for. -/
  | complexFactorial
  /-- The argument of a factorial is too large. -/
  | factorialLimit (argument : Int)
  /-- More objects are to be chosen than there are, or a count is negative. -/
  | combination
  /-- More objects are to be arranged than there are, or a count is negative. -/
  | permutation
  /-- The bounds of a random integer are in the wrong order. -/
  | emptyRange
deriving DecidableEq

/-- The message of a numeric failure. -/
def NumericCause.message : NumericCause → String
  | overflow => "Overflow: result exceeds the double range"
  | underflow => "Underflow: result is below the smallest normal double"
  | notANumber => "Invalid operation: result is not a number"
  | integerTooLarge => "Overflow: integer too large for a double"
  | exponentLimit exponent =>
    "Exponent " ++ intText exponent ++ " exceeds the exact integer limit ("
      ++ natText Limit.integerExponent ++ ")"
  | decimalOverflow => "Overflow: decimal exponent out of range"
  | notFinite => "Result is not finite"
  | domain what => "Domain error: " ++ what
  | invalid reason => "Invalid operation: " ++ reason
  | unordered => "Complex numbers cannot be ordered"
  | notReal => "Cannot convert complex number to real"
  | notDecimal text => "Cannot represent " ++ text ++ " as a decimal"
  | logarithmOfZero => "Logarithm of zero"
  | complexModulo => "Modulo is not defined for complex numbers"
  | complexFloorDivision => "Floor division is not defined for complex numbers"
  | unsupported kind => "Unsupported value type: " ++ kind
  | integerArguments name => name ++ " requires integer arguments"
  | realArguments name => name ++ " requires real arguments"
  | complexRounding name => name ++ " is not defined for complex numbers"
  | complexFactorial => "Factorial is only defined for real numbers"
  | factorialLimit argument =>
    "Factorial argument " ++ intText argument ++ " exceeds the limit of " ++ natText Limit.factorial
  | combination => "Combination requires non-negative integers with k <= n"
  | permutation => "Permutation requires non-negative integers with k <= n"
  | emptyRange => "randint requires low <= high"

/-- The code of a numeric failure. -/
def NumericCause.code : NumericCause → String
  | overflow => "OVERFLOW"
  | integerTooLarge => "OVERFLOW"
  | exponentLimit _ => "OVERFLOW"
  | decimalOverflow => "OVERFLOW"
  | notFinite => "OVERFLOW"
  | factorialLimit _ => "OVERFLOW"
  | underflow => "UNDERFLOW"
  | _ => "INVALID_OPERATION"

/-! ## Names, modes and registrations -/

/-- What an unknown name was taken for. -/
inductive NameKind where
  | variable
  | function
  | operator
  | constant
deriving DecidableEq

/-- The word for a kind of name. -/
def NameKind.word : NameKind → String
  | .variable => "variable"
  | .function => "function"
  | .operator => "operator"
  | .constant => "constant"

/-- Why a number of arguments does not fit. -/
inductive ArityCause where
  /-- A function of any number of arguments has none. -/
  | noArguments (name : String)
  /-- A function has another number of arguments than it takes. -/
  | wrongCount (name : String) (expected : Nat) (actual : Int)
  /-- It is not known how many arguments a call has. -/
  | unknownCount (name : String)
deriving DecidableEq

/-- The message about a number of arguments. -/
def ArityCause.message : ArityCause → String
  | noArguments name => "Function " ++ name ++ " requires at least one argument"
  | wrongCount name expected actual =>
    "Function " ++ name ++ " expects " ++ natText expected ++ " argument(s), got " ++ intText actual
  | unknownCount name => "Argument count of " ++ name ++ " call is unknown"

/-- Why a mode is refused. -/
inductive ModeCause where
  /-- The value is not a text; `shown` is its written form. -/
  | notText (label shown : String)
  /-- The text names no mode of its kind. -/
  | unknown (label value : String) (allowed : List String)
  /-- The precision is not an integer; `shown` is its written form. -/
  | precisionNotInteger (shown : String)
  /-- The precision is out of range. -/
  | precisionOutOfRange (digits : Int)
deriving DecidableEq

/-- The message about a refused mode. -/
def ModeCause.message : ModeCause → String
  | notText label shown => "Invalid " ++ label ++ " mode: " ++ shown
  | unknown label value allowed =>
    "Invalid " ++ label ++ " mode: " ++ Text.quoted value ++ " (expected one of: "
      ++ Text.join ", " allowed ++ ")"
  | precisionNotInteger shown => "Precision must be an integer, got " ++ shown
  | precisionOutOfRange digits =>
    "Precision must be between " ++ natText Limit.leastPrecision ++ " and "
      ++ natText Limit.greatestPrecision ++ ", got " ++ intText digits

/-- Why a function, an alias or an operator is refused. -/
inductive RegistrationCause where
  /-- The function's name is not a name; `shown` is its written form. -/
  | functionName (shown : String)
  /-- The alias is not a name; `shown` is its written form. -/
  | aliasName (shown : String)
  /-- The arity is not a count of arguments; `shown` is its written form. -/
  | arity (name shown : String)
  /-- What should compute the function cannot be called. -/
  | notCallable (name : String)
  /-- A built-in function is to be removed. -/
  | removeBuiltin (name : String)
  /-- A built-in function is to be defined anew. -/
  | redefineBuiltin (name : String)
  /-- An alias is to be made for no function. -/
  | noSuchFunction (name : String)
  /-- The name of an alias is a function. -/
  | nameInUse (name : String)
  /-- A parameter's name is not a name. -/
  | parameterName (name : String)
  /-- A parameter is named like a function or constant. -/
  | parameterInUse (name : String)
  /-- Two parameters have one name. -/
  | duplicateParameters
  /-- There is an operator with the key. -/
  | duplicateOperator (key : String)
  /-- An operator takes neither one nor two operands. -/
  | operatorArity (arity : Int)
  /-- An operator groups neither to the left nor to the right. -/
  | associativity (text : String)
  /-- The symbol could be mistaken for something else. -/
  | symbol (text : String)
deriving DecidableEq

/-- The message about a refused registration. -/
def RegistrationCause.message : RegistrationCause → String
  | functionName shown =>
    "Invalid function name: " ++ shown
      ++ ". Must start with a letter or underscore and contain only letters, digits and underscores."
  | aliasName shown => "Invalid alias name: " ++ shown
  | .arity name shown => "Invalid arity for " ++ name ++ ": " ++ shown
  | notCallable name => "Implementation of " ++ name ++ " is not callable"
  | removeBuiltin name => "Cannot remove built-in function: " ++ name
  | redefineBuiltin name => "Cannot redefine built-in function: " ++ name
  | noSuchFunction name => "Function '" ++ name ++ "' is not defined"
  | nameInUse name => "Name already in use: " ++ name
  | parameterName name => "Invalid parameter name: " ++ name
  | parameterInUse name => "Parameter name " ++ name ++ " is already a function or constant"
  | duplicateParameters => "Duplicate parameter names"
  | duplicateOperator key => "Operator already registered: " ++ key
  | operatorArity count => "Invalid operator arity: " ++ intText count
  | associativity text => "Invalid associativity: " ++ text
  | symbol text => "Invalid operator symbol: " ++ Text.quoted text

/-- The code of a refused registration. -/
def RegistrationCause.code : RegistrationCause → String
  | .functionName _ => "INVALID_FUNCTION_NAME"
  | .aliasName _ => "INVALID_FUNCTION_NAME"
  | .arity _ _ => "INVALID_ARITY"
  | .notCallable _ => "INVALID_FUNCTION"
  | .removeBuiltin _ => "BUILTIN_FUNCTION"
  | .redefineBuiltin _ => "BUILTIN_FUNCTION"
  | .noSuchFunction _ => "FUNCTION_NOT_FOUND"
  | .nameInUse _ => "NAME_IN_USE"
  | .parameterName _ => "INVALID_PARAMETER_NAME"
  | .parameterInUse _ => "NAME_IN_USE"
  | .duplicateParameters => "INVALID_PARAMETER_NAME"
  | .duplicateOperator _ => "DUPLICATE_OPERATOR"
  | .operatorArity _ => "INVALID_ARITY"
  | .associativity _ => "INVALID_ASSOCIATIVITY"
  | .symbol _ => "INVALID_SYMBOL"

/-- Why a request to the calculator is refused. -/
inductive RequestCause where
  /-- The variable's name is not a name; `shown` is its written form. -/
  | variableName (shown : String)
  /-- The variable is named like a function or constant. -/
  | variableInUse (name : String)
  /-- The precision given in a command is not an integer. -/
  | precisionText (text : String)
  /-- A command sets a mode that there is not. -/
  | unknownMode (name : String)
  /-- A binding on the command line is not of the form `NAME=VALUE`. -/
  | bindingForm (text : String)
  /-- The value of a binding on the command line has a failure. -/
  | bindingValue (name reason code : String)
  /-- A failure that a registered function reports by itself. -/
  | custom (message code : String)
deriving DecidableEq

/-- The message about a refused request. -/
def RequestCause.message : RequestCause → String
  | variableName shown => "Invalid variable name: " ++ shown
  | variableInUse name => "'" ++ name ++ "' is a function or constant and cannot be used as a variable"
  | precisionText text => "Precision must be an integer, got " ++ Text.quoted text
  | unknownMode name => "Unknown mode: " ++ name
  | bindingForm text => "Invalid --var binding: " ++ Text.quoted text ++ " (expected NAME=VALUE)"
  | bindingValue name reason _ => "Cannot bind " ++ name ++ ": " ++ reason
  | custom message _ => message

/-- The code of a refused request. -/
def RequestCause.code : RequestCause → String
  | variableName _ => "INVALID_VARIABLE_NAME"
  | variableInUse _ => "NAME_IN_USE"
  | precisionText _ => "MODE_CONFIGURATION_ERROR"
  | unknownMode _ => "MODE_CONFIGURATION_ERROR"
  | bindingForm _ => "INVALID_ARGUMENT"
  | bindingValue _ _ code => code
  | custom _ code => code

/-! ## All failures -/

/-- Why a calculation, a definition or a setting fails. -/
inductive Failure where
  | lexical (cause : LexicalCause)
  | structural (cause : StructuralCause)
  | unknown (kind : NameKind) (name : String)
  | arity (cause : ArityCause)
  | divisionByZero (cause : ZeroCause)
  | numeric (cause : NumericCause)
  | mode (cause : ModeCause)
  | registration (cause : RegistrationCause)
  | request (cause : RequestCause)
  /-- A fault of plain arithmetic that no evaluation has turned into a failure. -/
  | fault (cause : Fault)
  /-- Something a registered function does wrong in an unforeseen way: the name of the condition and what is
      told about it. -/
  | unexpected (condition detail : String)
deriving DecidableEq

/-- The failure whose message tells an integer; one of too many digits is a fault instead. -/
def Failure.telling (n : Int) (failure : Int → Failure) : Failure :=
  if Number.isTellable n then failure n else fault .tooLong

theorem Failure.telling_of_tellable {n : Int} (h : Number.isTellable n = true) (failure : Int → Failure) :
    telling n failure = failure n :=
  if_pos h

theorem Failure.telling_of_long {n : Int} (h : Number.isTellable n = false) (failure : Int → Failure) :
    telling n failure = fault .tooLong :=
  if_neg (Bool.eq_false_iff.mp h)

/-- The failure that tells a structural problem. -/
def StructuralCause.failure (cause : StructuralCause) : Failure :=
  match cause.told? with
  | some n => .telling n fun _ => .structural cause
  | none => .structural cause

/-- It is the problem itself, or the problem cannot be told. -/
theorem StructuralCause.failure_cases (cause : StructuralCause) :
    cause.failure = .structural cause ∨ cause.failure = .fault .tooLong := by
  unfold StructuralCause.failure Failure.telling
  split
  · split
    · exact Or.inl rfl
    · exact Or.inr rfl
  · exact Or.inl rfl

/-- A fault of plain arithmetic as a failure of the evaluation in which it arises. -/
def Failure.ofFault : Fault → Failure
  | .zeroDivision => divisionByZero .division
  | .decimalZeroDivision => divisionByZero .division
  | .overflow => numeric .overflow
  | .decimalOverflow => numeric .decimalOverflow
  | .undefined cause => numeric (.invalid (Fault.undefined cause).message)
  | .domain reason => numeric (.invalid reason)

/-- The failure that an evaluation reports: faults are turned into failures. -/
def Failure.translated : Failure → Failure
  | fault cause => ofFault cause
  | failure => failure

/-- The report of a failure, unless the failure is one that calculations do not report by themselves. -/
def Failure.report? : Failure → Option Report
  | lexical cause => some ⟨.lexical, cause.message, cause.code, cause.position⟩
  | structural cause => some ⟨.structural, cause.message, cause.code, cause.position⟩
  | unknown kind name => some (.unknown kind.word name)
  | arity cause => some (Family.arity.report cause.message)
  | divisionByZero cause => some (Family.divisionByZero.report cause.message)
  | numeric cause => some ⟨.numeric, cause.message, cause.code, none⟩
  | mode cause => some (Family.mode.report cause.message)
  | registration cause => some ⟨.registration, cause.message, cause.code, none⟩
  | request cause => some ⟨.general, cause.message, cause.code, none⟩
  | fault _ => none
  | unexpected .. => none

/-- What is told about a failure. -/
def Failure.message (failure : Failure) : String :=
  match failure.report?, failure with
  | some r, _ => r.message
  | none, unexpected _ detail => detail
  | none, fault cause => cause.message
  | none, _ => ""

/-- The message and code under which a calculation reports a failure. -/
def Failure.outcome (failure : Failure) : String × String :=
  match failure.report? with
  | some r => (r.message, r.code)
  | none => ("Internal error: " ++ failure.message, "INTERNAL_ERROR")

end SciCalc
