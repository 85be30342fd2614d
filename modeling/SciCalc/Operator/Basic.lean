/-
  Operators.

  A binary operator is known by its symbol, a prefix operator by the word `unary` and its symbol.  The
  table lists the operators in the order in which they were installed; of the symbols that a text begins
  with, the longest one counts.  So that it is found at once, the symbols stand in an index, the longest
  ones first, which is made anew whenever an operator is installed.
-/
import SciCalc.Failure
import SciCalc.Text.Numeral
import SciCalc.Value.Basic

namespace SciCalc

/-- How operators of one precedence group. -/
inductive Grouping where
  | left
  | right
deriving DecidableEq, Inhabited

/-- The word for a grouping. -/
def Grouping.name : Grouping → String
  | left => "left"
  | right => "right"

/-- What a prefix operator computes. -/
inductive UnaryRule where
  | identity
  | negation
  /-- Something the program around the calculator computes. -/
  | host (call : Value → Except Failure Value)
deriving Inhabited

/-- What a binary operator computes. -/
inductive BinaryRule where
  | add
  | subtract
  | multiply
  | divide
  | modulo
  | floorDivide
  | power
  /-- A remainder that refuses a zero divisor of any kind. -/
  | guardedModulo
  /-- A whole quotient that refuses a zero divisor of any kind. -/
  | guardedFloorDivide
  /-- A power that is complex where there is no real one and the modes allow it. -/
  | generalPower
  | less
  | greater
  | atMost
  | atLeast
  | equal
  | unequal
  | both
  | either
  /-- Something the program around the calculator computes. -/
  | host (call : Value → Value → Except Failure Value)
deriving Inhabited

/-- What an operator computes; this settles how many operands it takes. -/
inductive OperatorRule where
  | unary (rule : UnaryRule)
  | binary (rule : BinaryRule)
deriving Inhabited

/-- The number of operands. -/
def OperatorRule.arity : OperatorRule → Nat
  | unary _ => 1
  | binary _ => 2

/-- An operator. -/
structure Operator where
  /-- The name under which it is looked up. -/
  key : String
  /-- How it is written. -/
  symbol : String
  /-- What it computes. -/
  rule : OperatorRule
  /-- How strongly it binds. -/
  precedence : Int
  /-- How it groups with operators of its precedence. -/
  grouping : Grouping
  /-- What is told about it. -/
  description : String
deriving Inhabited

namespace Operator

/-- The operator takes one operand. -/
def isUnary (o : Operator) : Bool := o.rule.arity = 1

/-- The operator takes two operands. -/
def isBinary (o : Operator) : Bool := o.rule.arity = 2

/-- A prefix operator. -/
def prefixed (symbol : String) (precedence : Int) (rule : UnaryRule) (description : String) : Operator :=
  ⟨"unary" ++ symbol, symbol, .unary rule, precedence, .right, description⟩

/-- A binary operator. -/
def between (symbol : String) (precedence : Int) (grouping : Grouping) (rule : BinaryRule)
    (description : String) : Operator :=
  ⟨symbol, symbol, .binary rule, precedence, grouping, description⟩

end Operator

/-- The operators of a calculator, with an index of their symbols. -/
structure Operators where
  /-- The operators in the order in which they were installed. -/
  all : List Operator
  /-- Their symbols, each of them once. -/
  symbols : List String
  /-- The symbols once more, none of them in front of a longer one. -/
  longestFirst : List String
deriving Inhabited

namespace Operators

/-- Symbols, the longest ones first, with one put behind those that are longer. -/
def place (symbol : String) : List String → List String
  | [] => [symbol]
  | s :: rest => if symbol.length < s.length then s :: place symbol rest else symbol :: s :: rest

/-- The table with its index made anew. -/
def reindex (t : Operators) : Operators :=
  let symbols := (t.all.map (·.symbol)).eraseDups
  { t with symbols, longestFirst := symbols.foldr place [] }

/-- The operators that there are without a calculator. -/
def basic : Operators := reindex ⟨[
  .prefixed "+" 8 .identity "Unary plus",
  .prefixed "-" 8 .negation "Negation",
  .between "^" 7 .right .power "Exponentiation",
  .between "**" 7 .right .power "Exponentiation",
  .between "*" 6 .left .multiply "Multiplication",
  .between "×" 6 .left .multiply "Multiplication",
  .between "/" 6 .left .divide "Division",
  .between "÷" 6 .left .divide "Division",
  .between "%" 6 .left .modulo "Remainder",
  .between "+" 5 .left .add "Addition",
  .between "-" 5 .left .subtract "Subtraction",
  .between "<" 4 .left .less "Less than",
  .between ">" 4 .left .greater "Greater than",
  .between "<=" 4 .left .atMost "Less than or equal",
  .between ">=" 4 .left .atLeast "Greater than or equal",
  .between "==" 3 .left .equal "Equal",
  .between "!=" 3 .left .unequal "Not equal",
  .between "&&" 2 .left .both "Logical and",
  .between "||" 1 .left .either "Logical or"], [], []⟩

/-! ## Looking up -/

/-- The operator of a key. -/
def find? (t : Operators) (key : String) : Option Operator := t.all.find? (·.key = key)

/-- The prefix operator of a symbol. -/
def unary? (t : Operators) (symbol : String) : Option Operator := t.find? ("unary" ++ symbol)

/-- A prefix operator has the symbol. -/
def canBeUnary (t : Operators) (symbol : String) : Bool := (t.unary? symbol).isSome

/-- The binary operator of a key. -/
def binary? (t : Operators) (key : String) : Option Operator := (t.find? key).filter (·.isBinary)

/-- An operator is written with the symbol. -/
def isSymbol (t : Operators) (symbol : String) : Bool := t.symbols.contains symbol

/-- The longest symbol in front of a text, the first one of the index that is there. -/
def longestSymbol (t : Operators) (cs : List Char) : Option String :=
  t.longestFirst.find? fun s => s.toList.isPrefixOf cs

/-- The longest symbol that stands at a position of a text; a negative position counts from the end. -/
def symbolAt? (t : Operators) (text : String) (position : Int) : Option String :=
  let cs := text.toList
  let start : Int := if position < 0 then max 0 (position + cs.length) else position
  t.longestSymbol (cs.drop start.toNat)

/-! ## Installing -/

/-- The characters that no symbol begins with, besides letters and numerals. -/
def reserved : List Char := ['(', ')', '_', ',', '.', ' ']

/-- A text that can be a symbol: not empty, and not to be mistaken for a name, a number or a bracket. -/
def isValidSymbol (symbol : String) : Bool :=
  match symbol.toList with
  | [] => false
  | c :: _ => !Text.isAlphanumeric c && !reserved.contains c

/-- An operator as it is described, before it is checked. -/
structure Description where
  /-- The name under which it is to be looked up. -/
  key : String
  /-- How it is to be written. -/
  symbol : String
  /-- The number of operands. -/
  arity : Int
  /-- What it computes of one operand. -/
  ofOne : UnaryRule
  /-- What it computes of two operands. -/
  ofTwo : BinaryRule
  /-- How strongly it is to bind. -/
  precedence : Int
  /-- The word for how it is to group. -/
  grouping : String
  /-- What is told about it. -/
  description : String

/-- The rule for a number of operands. -/
def Description.rule? (d : Description) : Option OperatorRule :=
  if d.arity = 1 then some (.unary d.ofOne) else if d.arity = 2 then some (.binary d.ofTwo) else none

/-- The grouping that a word names. -/
def groupingOf? (word : String) : Option Grouping :=
  if word = "left" then some .left else if word = "right" then some .right else none

/-- The operator that is described; the number of operands, the grouping and the symbol are checked in
    this order. -/
def Description.check (d : Description) : Except Failure Operator :=
  match d.rule?, groupingOf? d.grouping with
  | none, _ => .error (.telling d.arity fun n => .registration (.operatorArity n))
  | some _, none => .error (.registration (.associativity d.grouping))
  | some rule, some g =>
    if isValidSymbol d.symbol then .ok ⟨d.key, d.symbol, rule, d.precedence, g, d.description⟩
    else .error (.registration (.symbol d.symbol))

/-- An operator that the program around the calculator computes. -/
def make (key symbol : String) (arity precedence : Int) (grouping description : String)
    (call : List Value → Except Failure Value) : Except Failure Operator :=
  Description.check ⟨key, symbol, arity, .host fun v => call [v], .host fun v w => call [v, w], precedence,
    grouping, description⟩

/-- The operators with one put in the place of that with its key, or at the end. -/
def put (o : Operator) : List Operator → List Operator
  | [] => [o]
  | p :: rest => if p.key = o.key then o :: rest else p :: put o rest

/-- Installs an operator, in the place of the one with its key if there is one. -/
def install (t : Operators) (o : Operator) : Operators := reindex { t with all := put o t.all }

/-- Installs or replaces an operator that has been checked; the table is what it is afterwards, also if the
    operator is refused. -/
def extending (t : Operators) (checked : Except Failure Operator) : Except Failure Unit × Operators :=
  match checked with
  | .error f => (.error f, t)
  | .ok o => (.ok (), t.install o)

/-- Installs an operator under a new key. -/
def registering (t : Operators) (key : String) (checked : Except Failure Operator) :
    Except Failure Unit × Operators :=
  if (t.find? key).isSome then (.error (.registration (.duplicateOperator key)), t)
  else t.extending checked

/-- The table with an operator installed under a new key, or why it is refused. -/
def register (t : Operators) (key : String) (checked : Except Failure Operator) : Except Failure Operators :=
  let (answer, t') := t.registering key checked
  answer.map fun _ => t'

/-- The table with an operator installed or replaced, or why it is refused. -/
def extend (t : Operators) (checked : Except Failure Operator) : Except Failure Operators :=
  let (answer, t') := t.extending checked
  answer.map fun _ => t'

/-- The operators of a calculator: powers bind more strongly than a sign, and zero divisors are refused
    before anything else. -/
def calculator : Operators :=
  [.between "^" 9 .right .generalPower "Exponentiation",
    .between "**" 9 .right .generalPower "Exponentiation",
    .between "%" 6 .left .guardedModulo "Remainder",
    .between "//" 6 .left .guardedFloorDivide "Floor division"].foldl install basic

end Operators

end SciCalc
