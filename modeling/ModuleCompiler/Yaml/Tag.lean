/-!
Tags of nodes. A tag is a run of octets and not of characters, because escapes in it can spell any
octet.
-/

namespace ModuleCompiler.Yaml

structure Tag where
  octets : List UInt8
  deriving DecidableEq, Repr, Inhabited

namespace Tag

def ofText (s : String) : Tag := ⟨s.toUTF8.data.toList⟩

/-- The text of a tag, if its octets are UTF-8. -/
def text? (t : Tag) : Option String := String.fromUTF8? ⟨t.octets.toArray⟩

/-- An octet zero ends a tag wherever it stands. -/
def ofOctets (octets : List UInt8) : Tag := ⟨octets.takeWhile (· ≠ 0)⟩

def isEmpty (t : Tag) : Bool := t.octets.isEmpty

def append (t u : Tag) : Tag := ⟨t.octets ++ u.octets⟩

def corePrefix : String := "tag:yaml.org,2002:"

def core (name : String) : Tag := ofText (corePrefix ++ name)

/-- Does the tag begin with `!`, as those do that a document makes up for itself? -/
def isLocal (t : Tag) : Bool := t.octets.head? = some 0x21

/-- The variant that a local tag names, which has to be text. A lone `!` names itself. -/
def variant? (t : Tag) : Option String :=
  if !t.isLocal then none
  else if t.octets.length = 1 then t.text?
  else Tag.text? ⟨t.octets.tail⟩

end Tag

end ModuleCompiler.Yaml
