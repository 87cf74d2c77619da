import Lifeline.Token.Scan
import Lifeline.Diagram.Parse
import Lifeline.Diagram.Walk

/-! The analysis of a source: its tokens, its document, what is wrong with it, and counts. -/

set_option autoImplicit false

namespace Lifeline

def Document.ofSource (source : String) : Document := (parse (tokenize source).tokens).document

structure Analysis where
  source : String
  tokens : List Token
  /-- None where an analyzer gives up on a source altogether. -/
  document : Option Document
  /-- What is wrong with the tokens, then what is wrong with the document. -/
  issues : List Diagnostic
  statistics : Option Statistics

def analyze (source : String) : Analysis :=
  let scanned := tokenize source
  let parsed := parse scanned.tokens
  { source := source
    tokens := scanned.tokens
    document := some parsed.document
    issues := scanned.issues ++ parsed.issues
    statistics := some (.ofDocument parsed.document) }

theorem document_analyze (source : String) :
    (analyze source).document = some (Document.ofSource source) := rfl

namespace Analysis

def hasIssues (analysis : Analysis) : Bool := !analysis.issues.isEmpty

def isClean (analysis : Analysis) : Bool := analysis.document.isSome && analysis.issues.isEmpty

end Analysis

structure Analyzer where
  last : Option Analysis

inductive AnalyzerError where
  | noResult
  deriving DecidableEq, Repr

def AnalyzerError.message : AnalyzerError → String
  | .noResult => "No parse result available"

namespace Analyzer

def new : Analyzer := ⟨none⟩

def analyze (_ : Analyzer) (source : String) : Analyzer := ⟨some (Lifeline.analyze source)⟩

def result (analyzer : Analyzer) : Except AnalyzerError Analysis :=
  analyzer.last.elim (.error .noResult) .ok

def hasIssues (analyzer : Analyzer) : Bool := analyzer.last.any Analysis.hasIssues

def issues (analyzer : Analyzer) : List Diagnostic := (analyzer.last.map Analysis.issues).getD []

def statistics (analyzer : Analyzer) : Option Statistics := analyzer.last.bind Analysis.statistics

end Analyzer

end Lifeline
