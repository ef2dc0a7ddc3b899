import Lockstep.Table

/-!
# Archetypes

An archetype owns the table for one fixed list of components.  The columns are
settled at registration: the entity handle, the world replica, then the
components in the order they were given.
-/

namespace Lockstep

structure Archetype where
  /-- Where its components start in the array shared by all archetypes. -/
  componentOffset : Nat
  userComponents : List ComponentId
  table : Table

namespace Archetype

def entityColumn : Nat := 0

def worldIdColumn : Nat := 1

def userColumn : Nat := 2

def columnInfos (user : List TypeInfo) : List TypeInfo :=
  TypeInfo.entity :: TypeInfo.worldId :: user

def columnIndex (a : Archetype) (id : ComponentId) : Option Nat :=
  if id = .entity then some entityColumn
  else if id = .worldId then some worldIdColumn
  else (a.userComponents.findIdx? (· == id)).map (userColumn + ·)

def hasComponent (a : Archetype) (id : ComponentId) : Bool := (a.columnIndex id).isSome

def numRows (a : Archetype) : Nat := a.table.numRows

end Archetype
end Lockstep
