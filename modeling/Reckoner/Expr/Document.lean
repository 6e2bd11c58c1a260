import Reckoner.Expr
import Reckoner.Json.Document

/-!
# Trees as documents

Each node is an object with the word for its kind under `type` and its content under `value`:
the number of a constant, the operand of a negation, and a pair for the other kinds.
-/

namespace Reckoner
namespace Expr

/-- The object of a node. -/
def tagged (kind : Kind) (content : Json.Document) : Json.Document :=
  .object [("type", .text kind.name), ("value", content)]

def document : Expr → Json.Document
  | .constant v => tagged .constant (.int32 v)
  | .negate e => tagged .negate e.document
  | .exponent b n => tagged .exponent (.array [b.document, .int32 n])
  | .addition l r => tagged .addition (.array [l.document, r.document])
  | .multiplication l r => tagged .multiplication (.array [l.document, r.document])

/-- The compact text of a tree's document. -/
def json (e : Expr) : String := e.document.write

end Expr
end Reckoner
