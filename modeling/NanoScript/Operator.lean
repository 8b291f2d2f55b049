/-!
Contract: the binary operators of the language.

Owns the operators, their symbols, and the two levels on which they bind.
-/

namespace NanoScript

/-- A binary operator. -/
inductive Operator where
  | add
  | subtract
  | multiply
  | divide
  | modulo
deriving DecidableEq

namespace Operator

/-- The one-character symbol of an operator. -/
def symbol : Operator → String
  | .add => "+"
  | .subtract => "-"
  | .multiply => "*"
  | .divide => "/"
  | .modulo => "%"

/-- The operator with a symbol. -/
def ofSymbol? (symbol : String) : Option Operator :=
  match symbol with
  | "+" => some .add
  | "-" => some .subtract
  | "*" => some .multiply
  | "/" => some .divide
  | "%" => some .modulo
  | _ => none

/-- Sums and differences bind weaker than the other operators. -/
def isAdditive : Operator → Bool
  | .add | .subtract => true
  | _ => false

/-- Products, quotients and remainders bind stronger than the other operators. -/
def isMultiplicative (operator : Operator) : Bool :=
  !operator.isAdditive

@[simp] theorem ofSymbol?_symbol (operator : Operator) :
    ofSymbol? operator.symbol = some operator := by
  cases operator <;> rfl

end Operator

end NanoScript
