/-
  From a text to tokens.

  Blanks separate tokens and mean nothing else.  A name is the longest run of letters, digits and
  underscores that does not begin with a digit; a symbol is the longest one that the text begins with.  A
  minus sign where an operand is due, directly in front of a digit or a point, belongs to the number, so
  that `-2^2` is four.
-/
import SciCalc.Binary.Reading
import SciCalc.Failure
import SciCalc.Token.Basic
import SciCalc.Vocabulary

namespace SciCalc

namespace Token

/-! ## Lexemes -/

/-- A character of a number without exponent. -/
def isNumberPart (c : Char) : Bool := Text.isDigit c || c = '.'

/-- A character that begins a name. -/
def isNameStart (c : Char) : Bool := Text.isLetter c || c = '_'

/-- A character within a name. -/
def isNamePart (c : Char) : Bool := isNameStart c || Text.isDigit c

/-- The exponent that a text begins with: the letter, perhaps a sign, and digits. -/
def exponentPart : List Char → List Char
  | mark :: sign :: rest =>
    if mark = 'e' || mark = 'E' then
      if sign = '+' || sign = '-' then
        match rest.takeWhile Text.isDigit with
        | [] => []
        | ds => mark :: sign :: ds
      else
        match (sign :: rest).takeWhile Text.isDigit with
        | [] => []
        | ds => mark :: ds
    else []
  | _ => []

/-- The number without sign that a text begins with. -/
def numberPart (cs : List Char) : List Char :=
  cs.takeWhile isNumberPart ++ exponentPart (cs.dropWhile isNumberPart)

/-- The kind of a name.  The imaginary unit is a constant only while complex numbers are in use. -/
def classify (v : Vocabulary) (complex : Bool) (name : String) : TokenKind :=
  if v.isFunction name then .function
  else match Constant.find? name with
    | some c => if c.isComplex && !complex then .variable else .constant
    | none => .variable

/-- The kinds of tokens after which an operand is due. -/
def opensOperand : TokenKind → Bool
  | .leftParen => true
  | .comma => true
  | .operator => true
  | _ => false

/-- The number at a position, with the sign in front of it if it has one. -/
def readNumber (position : Nat) (sign cs : List Char) : Except LexicalCause (TokenKind × List Char) :=
  let digits := numberPart cs
  match Text.readUnsigned? digits with
  | some _ => .ok (.number, sign ++ digits)
  | none => .error (.invalidNumber (String.ofList (sign ++ digits)) position)

/-- A minus sign is part of the number that follows it. -/
def isFolded (operandDue : Bool) (c : Char) (rest : List Char) : Bool :=
  c = '-' && operandDue && rest.head?.any isNumberPart

/-- The first token of a text that begins with the character `c`, which is not blank: its kind and its
    characters. -/
def lexeme (v : Vocabulary) (complex operandDue : Bool) (position : Nat) (c : Char) (rest : List Char) :
    Except LexicalCause (TokenKind × List Char) :=
  if isNumberPart c then readNumber position [] (c :: rest)
  else if isFolded operandDue c rest then readNumber position [c] rest
  else if isNameStart c then
    let name := c :: rest.takeWhile isNamePart
    .ok (classify v complex (String.ofList name), name)
  else if c = '(' then .ok (.leftParen, [c])
  else if c = ')' then .ok (.rightParen, [c])
  else if c = ',' then .ok (.comma, [c])
  else match v.operators.longestSymbol (c :: rest) with
    | some symbol => .ok (.operator, symbol.toList)
    | none => .error (.unexpectedCharacter c position)

/-! ## Texts -/

/-- The tokens of a text from a position on.  So many characters as `skip` says belong to the token before;
    `operandDue` tells whether an operand is due at the next token. -/
def scan (v : Vocabulary) (complex : Bool) :
    Bool → Nat → Nat → List Char → Except LexicalCause (List Token)
  | _, position, _, [] => .ok [⟨.finish, "", position, none⟩]
  | operandDue, position, skip + 1, _ :: rest => scan v complex operandDue (position + 1) skip rest
  | operandDue, position, 0, c :: rest =>
    if Text.isBlank c then scan v complex operandDue (position + 1) 0 rest
    else
      match lexeme v complex operandDue position c rest with
      | .error cause => .error cause
      | .ok (kind, cs) =>
        match scan v complex (opensOperand kind) (position + 1) (cs.length - 1) rest with
        | .error cause => .error cause
        | .ok ts => .ok (⟨kind, String.ofList cs, position, none⟩ :: ts)

/-- **The tokens of a text**, with the end as the last one.  A text longer than the limit has none. -/
def tokenize (v : Vocabulary) (complex : Bool) (limit : Int) (text : String) :
    Except LexicalCause (List Token) :=
  if limit < text.length then .error (.tooLong text.length limit)
  else scan v complex true 0 0 text.toList

/-- The tokens of an expression, which has to be a text. -/
def ofPlain (v : Vocabulary) (complex : Bool) (limit : Int) (expression : Plain) :
    Except LexicalCause (List Token) :=
  match expression with
  | .text s => tokenize v complex limit s
  | _ => .error .notText

end Token

end SciCalc
