import SolidScript.CommandLine.Desk
import SolidScript.Main
import SolidScript.Proofs.Parser.Reading
import SolidScript.Proofs.Shader.Occupancy
import SolidScript.Proofs.Eval.Frame
import SolidScript.Proofs.Eval.Agreement
import SolidScript.Proofs.Eval.Scene
import SolidScript.Proofs.Eval.Sequence
import SolidScript.Proofs.Parser.Faithful
import SolidScript.Proofs.Parser.WellShaped
import SolidScript.Proofs.Parser.Layout
import SolidScript.Proofs.Shader.Rearranged
import SolidScript.Proofs.Shader.Pruned
import SolidScript.Proofs.Eval.Returns
import SolidScript.Proofs.Repl
import SolidScript.Proofs.Solid.Filled
import SolidScript.Proofs.Geometry.Corners
import SolidScript.Proofs.Shader.Moved
import SolidScript.Proofs.Shader.Drawn
import SolidScript.Proofs.Solid.Parameters
import SolidScript.Proofs.Solid.Ordered
import SolidScript.Proofs.Parser.Binding
import SolidScript.Proofs.Parser.Termination
import SolidScript.Proofs.Parser.ErrorOrder
import SolidScript.Proofs.Shader.Centred
import SolidScript.Proofs.Scope.History
import SolidScript.Proofs.Eval.HashLiteral
import SolidScript.Proofs.Shader.Header
