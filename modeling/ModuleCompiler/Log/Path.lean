/-!
Where a log file lies.
-/

namespace ModuleCompiler.Log

/-- A path as it is seen from a directory. One from the root stays as it is. -/
def pathFrom (base file : String) : String :=
  if file.startsWith "/" || base.isEmpty then file
  else if base.endsWith "/" then base ++ file
  else base ++ "/" ++ file

end ModuleCompiler.Log
