import NamedExpr.Main
import NamedExpr.Proofs.Stack
import NamedExpr.Proofs.Cycles
import NamedExpr.Proofs.Inlining
import NamedExpr.Proofs.Regrouping
import NamedExpr.Proofs.Conservation
import NamedExpr.Proofs.Dependence
import NamedExpr.Proofs.FirstFault
import NamedExpr.Proofs.Scales
import NamedExpr.Proofs.WellFormedValues
import NamedExpr.Proofs.Listing
import NamedExpr.Proofs.SingleExpression
import NamedExpr.Proofs.Sessions
import NamedExpr.Proofs.Provenance
import NamedExpr.Proofs.MissingNames
import NamedExpr.Proofs.DefinedNames
import NamedExpr.Proofs.ChainVariants
import NamedExpr.Proofs.IntegerArithmetic
import NamedExpr.Proofs.Boundaries
import NamedExpr.Proofs.Equality
import NamedExpr.Proofs.Spans
import NamedExpr.Proofs.ExclusiveOr
import NamedExpr.Proofs.Parts
import NamedExpr.Proofs.WholeNumbers
import NamedExpr.Proofs.NumberValues
import NamedExpr.Proofs.Powers
import NamedExpr.Proofs.RoundedNumbers
import NamedExpr.Proofs.WrittenOut
import NamedExpr.Proofs.DisplayedNumbers
