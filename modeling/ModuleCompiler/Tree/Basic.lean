/-!
Data as it is written out: trees of scalars, lists and records whose fields have an order.
-/

namespace ModuleCompiler

inductive Tree where
  | null
  | bool (b : Bool)
  | integer (n : Int)
  | float (x : Float)
  | text (s : String)
  | list (items : List Tree)
  | record (fields : List (String × Tree))
  deriving Inhabited

end ModuleCompiler
