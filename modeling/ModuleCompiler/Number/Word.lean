/-!
Machine words as numbers: which ones fit.
-/

namespace ModuleCompiler

/-- Words of that many bits are the numbers below this. -/
def wordBound (bits : Nat) : Nat := Nat.pow 2 bits

def isSignedWord (bits : Nat) (n : Int) : Bool :=
  -Int.ofNat (wordBound (bits - 1)) ≤ n && n < Int.ofNat (wordBound (bits - 1))

/-- Fits a word of that many bits, with or without a sign. -/
def isWord (bits : Nat) (n : Int) : Bool :=
  -Int.ofNat (wordBound (bits - 1)) ≤ n && n < Int.ofNat (wordBound bits)

end ModuleCompiler
