import ModuleCompiler.Number.Digits

/-!
Ports as a descriptor writes them: one number, or two joined by a hyphen for all ports between them.
-/

namespace ModuleCompiler

inductive PortError where
  | empty
  | invalidFormat (spec : String)
  | invalidNumber (spec part : String)
  | invalidRange (spec : String) (first last : UInt16)
  | morePorts (ports hostPorts : Nat)
  | fewerPorts (ports hostPorts : Nat)
  deriving DecidableEq, Repr

def PortError.message : PortError → String
  | empty => "empty port"
  | invalidFormat spec => s!"invalid port '{spec}'"
  | invalidNumber spec part => s!"invalid port number '{part}' in '{spec}'"
  | invalidRange spec first last => s!"invalid range '{spec}': {first.toNat} >= {last.toNat}"
  | morePorts ports hostPorts => s!"range mismatch: ports {ports} > host ports {hostPorts}"
  | fewerPorts ports hostPorts => s!"range mismatch: ports {ports} < host ports {hostPorts}"

def splitHyphens : List Char → List (List Char)
  | [] => [[]]
  | c :: cs =>
    match splitHyphens cs with
    | [] => [[c]]
    | part :: parts => if c = '-' then [] :: part :: parts else (c :: part) :: parts

def readPort? (cs : List Char) : Option UInt16 :=
  match readUnsigned 10 65535 cs with
  | .ok n => some n.toUInt16
  | .error _ => none

/-- Reads the parts from left to right; the first that is no port is told. -/
def readPortParts (spec : String) : List (List Char) → Except PortError (List UInt16)
  | [] => .ok []
  | part :: parts =>
    match readPort? part with
    | none => .error (.invalidNumber spec (String.ofList part))
    | some n =>
      match readPortParts spec parts with
      | .error e => .error e
      | .ok ns => .ok (n :: ns)

/-- One or two numbers, without looking at their order. -/
def splitPorts (spec : String) : Except PortError (List UInt16) :=
  if spec.isEmpty then .error .empty
  else
    let parts := splitHyphens spec.toList
    if 2 < parts.length then .error (.invalidFormat spec) else readPortParts spec parts

def portRange (first : UInt16) (count : Nat) : List UInt16 :=
  (List.range' first.toNat count).map Nat.toUInt16

/-- The ports that a text covers, in order. The ends of a range have to ascend. -/
def parsePorts (spec : String) : Except PortError (List UInt16) :=
  match splitPorts spec with
  | .error e => .error e
  | .ok [port] => .ok [port]
  | .ok [first, last] =>
    if first < last then .ok (portRange first (last.toNat - first.toNat + 1))
    else .error (.invalidRange spec first last)
  | .ok _ => .error (.invalidFormat spec)

structure PortSpec where
  text : String := ""
  deriving DecidableEq, Repr, Inhabited

namespace PortSpec

def ofPort (n : UInt16) : PortSpec := ⟨toString n.toNat⟩

/-- Accepts what has the shape of a port or a range, whatever the order of its ends. -/
def ofText (s : String) : Except PortError PortSpec :=
  match splitPorts s with
  | .ok _ => .ok ⟨s⟩
  | .error e => .error e

def expand (p : PortSpec) : Except PortError (List UInt16) := parsePorts p.text

end PortSpec

end ModuleCompiler
