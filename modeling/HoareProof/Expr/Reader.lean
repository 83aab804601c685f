import HoareProof.Expr.InfixForm
import HoareProof.Expr.PrefixForm

namespace HoareProof
namespace Expr

/-!
Reading assertions.  The two written forms share tokens and differ in grammar:
people write operators between their operands, solvers write them in front.
-/

/-- The two written forms of assertions. -/
inductive Form where
  | infixed
  | prefixed
deriving DecidableEq, Repr

def Form.parser : Form -> Parsing.Parser Expr
  | .infixed => infixParser
  | .prefixed => prefixParser

/-- Reads a whole text as an assertion.  A text outside the grammar gives no
assertion; a number without a value is an error. -/
def ofText? (form : Form) (text : String) : Except NumeralError (Option Expr) :=
  Parsing.readAll? form.parser text

end Expr
end HoareProof
