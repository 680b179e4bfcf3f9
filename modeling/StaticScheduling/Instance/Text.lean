import StaticScheduling.Instance.Parser
import StaticScheduling.Verification

/-!
# Reading documents from text

A text is parsed and the dependence records of every operation are checked.
-/

namespace StaticScheduling

namespace Instance

def checkAllRecords (document : Instance) : Except DocumentError Unit :=
  document.operations.zipIdx.forM fun (operation, position) =>
    checkRecords (operation.describe position) operation.operands.length operation.dependences

/-- The document that a text holds. -/
def ofText (source : String) (settings : ParserSettings) : Except DocumentError Instance :=
  match ((InstanceParser.ofSettings settings).parse source).1 with
  | .error error => .error (.parse error)
  | .ok document => do
    document.checkAllRecords
    .ok document

end Instance

end StaticScheduling
