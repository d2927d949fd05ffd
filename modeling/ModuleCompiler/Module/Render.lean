import ModuleCompiler.Module.Tree
import ModuleCompiler.Settings.Basic
import ModuleCompiler.Tree.Json

/-!
Modules as text.
-/

namespace ModuleCompiler

def Module.render (m : Module) (o : OutputSettings) : String :=
  match o.format with
  | .json => m.toTree.toJson o.pretty
  | .yaml => m.toTree.toYaml

end ModuleCompiler
