import SciCalc.Calculator.Request
import SciCalc.Journal.Pattern
import SciCalc.Main
import SciCalc.Plain.Json
import SciCalc.Proofs.Calculator.Count
import SciCalc.Proofs.Calculator.Depth
import SciCalc.Proofs.Calculator.Power
import SciCalc.Proofs.Calculator.Validity
import SciCalc.Proofs.Console.Assignment
import SciCalc.Proofs.Function.Category
import SciCalc.Proofs.Function.Extreme
import SciCalc.Proofs.Operator.Exact
import SciCalc.Proofs.Operator.Index
import SciCalc.Proofs.Postfix.Bracket
import SciCalc.Proofs.Postfix.Sign
import SciCalc.Proofs.Token.Spacing
import SciCalc.Proofs.Value.Literal
import SciCalc.Proofs.Value.Quotient
