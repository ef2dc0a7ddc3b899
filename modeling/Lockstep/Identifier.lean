/-!
# Identifiers

Small numbers with a meaning of their own: which component, archetype, world
replica, function or node is meant.  Each is written with the name of its kind.
-/

namespace Lockstep

structure ComponentId where
  raw : UInt32
deriving DecidableEq, Hashable

structure ArchetypeId where
  raw : UInt32
deriving DecidableEq

structure WorldId where
  raw : UInt32
deriving DecidableEq

structure FuncId where
  raw : UInt32
deriving DecidableEq

structure NodeId where
  raw : UInt32
deriving DecidableEq

namespace ComponentId

/-- The handle of the entity that owns a row, first column of every table. -/
def entity : ComponentId := ⟨0⟩

/-- The world replica a row belongs to, second column of every table. -/
def worldId : ComponentId := ⟨1⟩

def isBuiltin (id : ComponentId) : Bool := id == entity || id == worldId

def index (id : ComponentId) : Nat := id.raw.toNat

instance : ToString ComponentId := ⟨fun id => s!"ComponentId({id.raw})"⟩

end ComponentId

namespace ArchetypeId

def index (id : ArchetypeId) : Nat := id.raw.toNat

instance : ToString ArchetypeId := ⟨fun id => s!"ArchetypeId({id.raw})"⟩

end ArchetypeId

namespace WorldId

def index (id : WorldId) : Nat := id.raw.toNat

instance : ToString WorldId := ⟨fun id => s!"WorldId({id.raw})"⟩

end WorldId

namespace FuncId

def index (id : FuncId) : Nat := id.raw.toNat

instance : ToString FuncId := ⟨fun id => s!"FuncId({id.raw})"⟩

end FuncId

namespace NodeId

def index (id : NodeId) : Nat := id.raw.toNat

instance : ToString NodeId := ⟨fun id => s!"NodeId({id.raw})"⟩

end NodeId
end Lockstep
