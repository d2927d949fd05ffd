import ModuleCompiler.Yaml.SyntaxError

/-!
What can be seen of a text. A text is taken in block by block, and a fault in a block, such as a
character that no text may hold, hides all of the block but nothing of the blocks before it.
-/

namespace ModuleCompiler.Yaml

structure Source where
  text : List Char
  fault : Option SyntaxProblem := none
  deriving Inhabited

namespace Source

def blockSize : Nat := 16384

/-- The blocks before a fault. It lies behind the characters, or at the first that is not allowed.
What is seen and what the present block holds so far are given last character first. -/
def seenBefore : (seen block : List Char) → (octets : Nat) → List Char → List Char
  | seen, _, _, [] => seen.reverse
  | seen, block, octets, c :: cs =>
    if !isAllowed c then seen.reverse
    else if blockSize < octets + c.utf8Size then seenBefore (block ++ seen) [c] c.utf8Size cs
    else seenBefore seen (c :: block) (octets + c.utf8Size) cs

def ofChars (cs : List Char) : Source :=
  if cs.all isAllowed then ⟨cs, none⟩ else ⟨seenBefore [] [] 0 cs, some .controlCharacter⟩

/-- The characters before the first octets that are not UTF-8. -/
def leadingChars (bytes : ByteArray) : Nat → Nat → List Char
  | 0, _ => []
  | fuel + 1, i =>
    match bytes.utf8DecodeChar? i with
    | some c => c :: leadingChars bytes fuel (i + c.utf8Size)
    | none => []

def ofBytes (bytes : ByteArray) : Source :=
  match String.fromUTF8? bytes with
  | some s => ofChars s.toList
  | none => ⟨seenBefore [] [] 0 (leadingChars bytes bytes.size 0), some .invalidEncoding⟩

end Source

end ModuleCompiler.Yaml
