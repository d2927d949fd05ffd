import ModuleCompiler.Log.Path

/-!
Files as the command line sees them: what can go wrong with one, and a snapshot of all that exist.
-/

namespace ModuleCompiler

inductive FileFault where
  | missing
  | occupied
  | noDirectory
  | isDirectory
  | other (text : String)
  deriving DecidableEq, Repr

def FileFault.message : FileFault → String
  | missing => "No such file or directory (os error 2)"
  | occupied => "File exists (os error 17)"
  | noDirectory => "Not a directory (os error 20)"
  | isDirectory => "Is a directory (os error 21)"
  | other text => text

namespace FilePath

/-- The names on the way to a file. Staying in place is no step, and going up undoes one. -/
def steps (path : String) : List String :=
  (path.splitOn "/").foldl
    (fun way name => if name = "" ∨ name = "." then way else if name = ".." then way.dropLast
      else way ++ [name]) []

/-- The names in a path. Where it starts in place it says so. -/
def names (path : String) : List String :=
  match path.splitOn "/" with
  | "." :: rest => "." :: rest.filter fun name => name ≠ "" ∧ name ≠ "."
  | all => all.filter fun name => name ≠ "" ∧ name ≠ "."

/-- The directory that a path leads into; the root and nothing are in none. -/
def parent? (path : String) : Option String :=
  let ns := names path
  if ns.isEmpty then none
  else some ((if path.startsWith "/" then "/" else "") ++ "/".intercalate ns.dropLast)

end FilePath

structure FileAccess (m : Type → Type) where
  input : m ByteArray
  read : String → m (Except FileFault ByteArray)
  makeParents : String → m (Except FileFault Unit)

/-- All files below the current directory by the names on the way to them. -/
structure Snapshot where
  files : List (List String × ByteArray)

namespace Snapshot

def ofList (files : List (String × ByteArray)) : Snapshot :=
  ⟨files.map fun f => (FilePath.steps f.1, f.2)⟩

def file? (s : Snapshot) (way : List String) : Option ByteArray := s.files.lookup way

/-- The current directory, and what leads to a file. -/
def isDirectory (s : Snapshot) (way : List String) : Bool :=
  way.isEmpty || s.files.any fun f => way.isPrefixOf f.1 && way != f.1

def isBlocked (s : Snapshot) (way : List String) : Bool :=
  s.files.any fun f => f.1.isPrefixOf way && way != f.1

def fault (s : Snapshot) (way : List String) : FileFault :=
  if s.isDirectory way then .isDirectory else if s.isBlocked way then .noDirectory else .missing

/-- What ends in a slash is no file. -/
def read (s : Snapshot) (path : String) : Except FileFault ByteArray :=
  let way := FilePath.steps path
  match s.file? way with
  | some bytes => if path.endsWith "/" then .error .noDirectory else .ok bytes
  | none => .error (s.fault way)

def makeDirectory (s : Snapshot) (way : List String) : Except FileFault Unit :=
  if s.isDirectory way then .ok ()
  else if (s.file? way).isSome then .error .occupied
  else if s.isBlocked way then .error .noDirectory
  else .ok ()

def makeParents (s : Snapshot) (path : String) : Except FileFault Unit :=
  s.makeDirectory (FilePath.steps path).dropLast

def access (s : Snapshot) (input : ByteArray) : FileAccess Id where
  input := input
  read := s.read
  makeParents := s.makeParents

end Snapshot

end ModuleCompiler
