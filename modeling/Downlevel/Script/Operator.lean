/-!
# Operators

The operators of a script, their spelling, and how tightly they bind.
-/

namespace Downlevel.Script

/-- How tightly a construct binds, from the loosest to the tightest. -/
structure Precedence where
  /-- The rank: a greater rank binds tighter. -/
  rank : Nat
  deriving DecidableEq, Inhabited, Repr

namespace Precedence

/-- A whole expression. -/
def lowest : Precedence := ⟨0⟩
/-- An operand of the comma operator, hence also an argument or an element. -/
def comma : Precedence := ⟨1⟩
/-- The argument of `yield`, and the branches of a conditional. -/
def yielded : Precedence := ⟨3⟩
/-- An assignment, an arrow function. -/
def assignment : Precedence := ⟨4⟩
/-- A conditional expression. -/
def conditional : Precedence := ⟨5⟩
/-- `??` -/
def coalesce : Precedence := ⟨6⟩
/-- `||` -/
def logicalOr : Precedence := ⟨7⟩
/-- `&&` -/
def logicalAnd : Precedence := ⟨8⟩
/-- `|` -/
def bitwiseOr : Precedence := ⟨9⟩
/-- `^` -/
def bitwiseXor : Precedence := ⟨10⟩
/-- `&` -/
def bitwiseAnd : Precedence := ⟨11⟩
/-- Equality. -/
def equality : Precedence := ⟨12⟩
/-- Comparison, `in` and `instanceof`. -/
def comparison : Precedence := ⟨13⟩
/-- Shifts. -/
def shift : Precedence := ⟨14⟩
/-- `+` and `-` between operands. -/
def additive : Precedence := ⟨15⟩
/-- `*`, `/` and `%`. -/
def multiplicative : Precedence := ⟨16⟩
/-- `**` -/
def exponent : Precedence := ⟨17⟩
/-- Operators in front of their operand. -/
def unary : Precedence := ⟨18⟩
/-- Operators behind their operand, and the object of a member access. -/
def postfixed : Precedence := ⟨19⟩
/-- The operand of `new`. -/
def construction : Precedence := ⟨20⟩
/-- A call. -/
def call : Precedence := ⟨21⟩

instance : LE Precedence := ⟨fun a b ↦ a.rank ≤ b.rank⟩

instance (a b : Precedence) : Decidable (a ≤ b) := inferInstanceAs (Decidable (a.rank ≤ b.rank))

/-- The next looser level. -/
def looser (p : Precedence) : Precedence := ⟨p.rank - 1⟩

end Precedence

/-- An operator in front of its operand. -/
inductive UnaryOperator where
  | minus | plus | not | complement | typeof | void | delete
  deriving DecidableEq, Inhabited, Repr

/-- The spelling of an operator. -/
def UnaryOperator.text : UnaryOperator → String
  | minus => "-"
  | plus => "+"
  | not => "!"
  | complement => "~"
  | typeof => "typeof"
  | void => "void"
  | delete => "delete"

/-- Whether an operator is spelled as a word. -/
def UnaryOperator.isWord : UnaryOperator → Bool
  | typeof | void | delete => true
  | _ => false

/-- `++` or `--`. -/
inductive UpdateOperator where
  | increment | decrement
  deriving DecidableEq, Inhabited, Repr

/-- The spelling of an operator. -/
def UpdateOperator.text : UpdateOperator → String
  | increment => "++"
  | decrement => "--"

/-- An operator between two operands. -/
inductive BinaryOperator where
  | coalesce | or | and
  | bitOr | bitXor | bitAnd
  | equal | notEqual | strictEqual | strictNotEqual
  | less | lessEqual | greater | greaterEqual | memberOf | instanceOf
  | shiftLeft | shiftRight | shiftRightUnsigned
  | add | subtract | multiply | divide | remainder | power
  deriving DecidableEq, Inhabited, Repr

namespace BinaryOperator

/-- The spelling of an operator. -/
def text : BinaryOperator → String
  | coalesce => "??"
  | or => "||"
  | and => "&&"
  | bitOr => "|"
  | bitXor => "^"
  | bitAnd => "&"
  | equal => "=="
  | notEqual => "!="
  | strictEqual => "==="
  | strictNotEqual => "!=="
  | less => "<"
  | lessEqual => "<="
  | greater => ">"
  | greaterEqual => ">="
  | memberOf => "in"
  | instanceOf => "instanceof"
  | shiftLeft => "<<"
  | shiftRight => ">>"
  | shiftRightUnsigned => ">>>"
  | add => "+"
  | subtract => "-"
  | multiply => "*"
  | divide => "/"
  | remainder => "%"
  | power => "**"

/-- How tightly an operator binds. -/
def precedence : BinaryOperator → Precedence
  | coalesce => .coalesce
  | or => .logicalOr
  | and => .logicalAnd
  | bitOr => .bitwiseOr
  | bitXor => .bitwiseXor
  | bitAnd => .bitwiseAnd
  | equal | notEqual | strictEqual | strictNotEqual => .equality
  | less | lessEqual | greater | greaterEqual | memberOf | instanceOf => .comparison
  | shiftLeft | shiftRight | shiftRightUnsigned => .shift
  | add | subtract => .additive
  | multiply | divide | remainder => .multiplicative
  | power => .exponent

/-- Every operator. -/
def all : List BinaryOperator :=
  [coalesce, or, and, bitOr, bitXor, bitAnd, equal, notEqual, strictEqual, strictNotEqual, less,
    lessEqual, greater, greaterEqual, memberOf, instanceOf, shiftLeft, shiftRight,
    shiftRightUnsigned, add, subtract, multiply, divide, remainder, power]

/-- The operator of a spelling. -/
def ofText? (s : String) : Option BinaryOperator := all.find? (·.text == s)

/-- Whether an operator is a short-circuiting one. -/
def isLogical : BinaryOperator → Bool
  | coalesce | or | and => true
  | _ => false

/-- Whether an operator has a compound assignment. -/
def assigns : BinaryOperator → Bool
  | equal | notEqual | strictEqual | strictNotEqual => false
  | less | lessEqual | greater | greaterEqual | memberOf | instanceOf => false
  | _ => true

end BinaryOperator

/-- An assignment operator: plain, or compounded with a binary operator. -/
inductive AssignmentOperator where
  | plain
  | compound (operator : BinaryOperator)
  deriving DecidableEq, Inhabited, Repr

namespace AssignmentOperator

/-- The spelling of an operator. -/
def text : AssignmentOperator → String
  | plain => "="
  | compound op => op.text ++ "="

/-- The operator of a spelling. -/
def ofText? (s : String) : Option AssignmentOperator :=
  if s = "=" then some plain
  else ((BinaryOperator.all.filter (·.assigns)).find? fun op ↦ op.text ++ "=" == s).map compound

end AssignmentOperator

end Downlevel.Script
