import ModuleCompiler.Log.Cap

/-!
What arrives at one place that logs are written to.
-/

namespace ModuleCompiler.Log

structure Sink where
  filter : Filter
  cap : Option Cap := none
  deriving DecidableEq, Repr

namespace Sink

def showsSpan (k : Sink) (around : List Span) (s : Span) : Bool :=
  k.filter.passes s.target s.level && k.cap.all (·.passesSpan around s)

def shownSpans (k : Sink) (around : List Span) : List Span → List Span
  | [] => []
  | s :: ss =>
    if k.showsSpan around s then s :: k.shownSpans (around ++ [s]) ss
    else k.shownSpans (around ++ [s]) ss

def shows (k : Sink) (e : Entry) : Bool :=
  k.filter.passes e.target e.level && k.cap.all (·.passes e.spans e.target e.level)

/-- Entries that do not show are left out, and so are spans of the others. -/
def receive (k : Sink) (es : List Entry) : List Entry :=
  (es.filter k.shows).map fun e => { e with spans := k.shownSpans [] e.spans }

end Sink

end ModuleCompiler.Log
