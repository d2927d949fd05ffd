import ModuleCompiler.Module.Basic
import ModuleCompiler.Module.Error

/-!
Mounts and endpoints of a service, keyed by their place. A place may be named again as long as the
later entry agrees with the first one there.
-/

namespace ModuleCompiler.Module

/-- Adds entries to a table one by one. The first entry of a key is stored, and later ones are held
against it. -/
def merge (key : α → String) (value : α → β) (clash : String → β → α → Option ε) :
    SortedMap β → List α → Except ε (SortedMap β)
  | acc, [] => .ok acc
  | acc, a :: as =>
    match acc.get? (key a) with
    | none => merge key value clash (acc.insert (key a) (value a)) as
    | some stored =>
      match clash (key a) stored a with
      | none => merge key value clash acc as
      | some e => .error e

def defaultTmpfsMode : UInt32 := 0o770

def BindMount.ofDescriptor (m : Descriptor.BindMount) : BindMount := ⟨m.source, m.readOnly⟩

/-- Repeats have the same source and access. -/
def BindMount.clash (key : String) (stored : BindMount) (m : Descriptor.BindMount) :
    Option MountError :=
  if stored = .ofDescriptor m then none else some (.duplicate key)

def BindMount.ofDescriptors (ms : List Descriptor.BindMount) :
    Except MountError (SortedMap BindMount) :=
  merge (·.mountPoint) BindMount.ofDescriptor BindMount.clash ∅ ms

def TmpfsMount.ofDescriptor (m : Descriptor.TmpfsMount) : TmpfsMount :=
  ⟨m.size, m.mode.getD defaultTmpfsMode⟩

/-- A repeat without a mode agrees with any mode. -/
def TmpfsMount.agrees (stored : TmpfsMount) (m : Descriptor.TmpfsMount) : Bool :=
  stored.size = m.size && m.mode.all (· = stored.mode)

def TmpfsMount.clash (key : String) (stored : TmpfsMount) (m : Descriptor.TmpfsMount) :
    Option MountError :=
  if stored.agrees m then none else some (.duplicate key)

/-- Repeats have the same size, and the same mode if they give one. -/
def TmpfsMount.ofDescriptors (ms : List Descriptor.TmpfsMount) :
    Except MountError (SortedMap TmpfsMount) :=
  merge (·.mountPoint) TmpfsMount.ofDescriptor TmpfsMount.clash ∅ ms

def ProxyConf.ofDescriptor (p : Descriptor.ProxyConf) : ProxyConf :=
  ⟨p.headers, p.websocket, p.readTimeout⟩

def StringSub.ofDescriptor (s : Descriptor.StringSub) : StringSub :=
  ⟨s.replaceOnce, s.mimeTypes, s.filters⟩

namespace HttpEndpoint

/-- The path an endpoint is published under: its own one unless another is given. -/
def publicPath (e : Descriptor.HttpEndpoint) : String := e.extPath.getD e.path

def ofDescriptor (e : Descriptor.HttpEndpoint) : HttpEndpoint where
  name := e.name
  port := e.port
  path := e.path
  proxyConf := e.proxyConf.map .ofDescriptor
  stringSub := e.stringSub.map .ofDescriptor

/-- Proxy and substitution settings of a repeat do not count. -/
def agrees (stored : HttpEndpoint) (e : Descriptor.HttpEndpoint) : Bool :=
  stored.name = e.name && stored.port = e.port && stored.path = e.path

def clash (key : String) (stored : HttpEndpoint) (e : Descriptor.HttpEndpoint) :
    Option MountError :=
  if stored.agrees e then none
  else if e.extPath.isSome then some (.duplicateEndpoint key stored.path e.path)
  else some (.duplicate key)

def ofDescriptors (es : List Descriptor.HttpEndpoint) :
    Except MountError (SortedMap HttpEndpoint) :=
  merge publicPath ofDescriptor clash ∅ es

end HttpEndpoint

end ModuleCompiler.Module
