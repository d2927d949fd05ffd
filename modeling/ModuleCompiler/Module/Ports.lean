import ModuleCompiler.Module.Basic
import ModuleCompiler.Module.Error

/-!
Ports of a service one by one, each with the ports of the host that lead to it.
-/

namespace ModuleCompiler.Module

def defaultProtocol : String := "tcp"

namespace Port

/-- Shares host ports out: a single port takes them all, several take one each. -/
def pair (mk : UInt16 → List UInt16 → Port) (numbers hostPorts : List UInt16) :
    Except PortError (List Port) :=
  if hostPorts.isEmpty then .ok (numbers.map fun n => mk n [])
  else if hostPorts.length < numbers.length then
    .error (.morePorts numbers.length hostPorts.length)
  else if 1 < numbers.length ∧ numbers.length < hostPorts.length then
    .error (.fewerPorts numbers.length hostPorts.length)
  else
    match numbers with
    | [n] => .ok [mk n hostPorts]
    | ns => .ok (ns.zipWith (fun n h => mk n [h]) hostPorts)

def expandHostPorts : Option PortSpec → Except PortError (List UInt16)
  | none => .ok []
  | some spec => spec.expand

def ofDescriptor (p : Descriptor.ServicePort) : Except PortError (List Port) :=
  match p.port.expand with
  | .error e => .error e
  | .ok numbers =>
    match expandHostPorts p.hostPort with
    | .error e => .error e
    | .ok hostPorts =>
      pair (fun n bindings => ⟨p.name, n, p.protocol.getD defaultProtocol, bindings⟩)
        numbers hostPorts

/-- The ports of all entries in their order, or the fault of the first entry that has one. -/
def ofDescriptors (ps : List Descriptor.ServicePort) : Except PortError (List Port) :=
  List.flatten <$> ps.mapM ofDescriptor

end Port

end ModuleCompiler.Module
