/-!
How important a log entry is, and which entries pass.
-/

namespace ModuleCompiler.Log

inductive Level where
  | error
  | warn
  | info
  | debug
  | trace
  deriving DecidableEq, Repr, Inhabited

namespace Level

def name : Level → String
  | error => "ERROR"
  | warn => "WARN"
  | info => "INFO"
  | debug => "DEBUG"
  | trace => "TRACE"

def detail : Level → Nat
  | error => 1
  | warn => 2
  | info => 3
  | debug => 4
  | trace => 5

def all : List Level := [error, warn, info, debug, trace]

end Level

/-- The least important level that passes; none passes if there is none. -/
abbrev Threshold := Option Level

namespace Threshold

def detail (t : Threshold) : Nat := (t.map Level.detail).getD 0

def passes (t : Threshold) (l : Level) : Bool := l.detail ≤ detail t

def name (t : Threshold) : String :=
  match t with
  | none => "off"
  | some l => l.name.toLower

/-- A level by its name in any case. `off` and `none` let nothing pass, and a word that means
nothing means `info`. -/
def ofText (s : String) : Threshold :=
  match s.toLower with
  | "trace" => some .trace
  | "debug" => some .debug
  | "info" => some .info
  | "warn" => some .warn
  | "error" => some .error
  | "off" => none
  | "none" => none
  | _ => some .info

end Threshold

end ModuleCompiler.Log
