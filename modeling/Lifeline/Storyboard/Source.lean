import Lifeline.Diagram.Analysis
import Lifeline.Storyboard.Projection

/-! From source text to storyboards. -/

set_option autoImplicit false

namespace Lifeline

def Storyboard.ofSource (source : String) : Storyboard :=
  (Document.ofSource source).project.onto .empty

end Lifeline
