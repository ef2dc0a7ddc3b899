import Lockstep.Barrier
import Lockstep.Dispatcher
import Lockstep.Lane

/-!
# Launch state

A launch runs all groups at once.  Its state is what the groups share, and for
each group the place where it stands.  A place is left in one atomic step: one
access to the task graph, the trace or a barrier, one invocation, or reads and
writes of the state of one block.
-/

namespace Lockstep

/-- The base of a block that has no work. -/
def noWork : UInt32 := 0xFFFFFFFF

structure BlockState where
  pickup : Pickup
  base : UInt32
  finishedThreads : UInt32
  barrier : Barrier
deriving DecidableEq

namespace BlockState

def initial (groups : Nat) : BlockState := ⟨⟨⟨noWork⟩, ⟨0⟩, 0, 1⟩, noWork, 0, .new groups⟩

end BlockState

/-- A place in the program of a group where it waits: at the `start` for all groups of the
launch, elsewhere for those of its block. -/
inductive Site where
  | start
  | claimEnter (held : Pickup)
  | claimLeave (held : Pickup)
  | nodeEnter
  | nodeLeave
  | finish (held : Pickup)
deriving DecidableEq

/-- Where a group stands, by what it does next.  Only leaders look for nodes, and claim and
report for a whole block. -/
inductive Phase where
  | init
  | enter (site : Site)
  | waiting (site : Site) (generation : Nat)
  | fetch
  | claimForBlock (held : Pickup)
  | readBase (held : Pickup)
  | claimForGroup (held : Pickup)
  /-- About to share out a claim among the lanes, which count from `first`. -/
  | assign (node : NodeId) (base first : UInt32)
  | execute (pending : List (UInt32 × Work)) (executed : LaneMask)
  | tally (executed : LaneMask)
  | collect (held : Pickup)
  | report (node : NodeId) (finished : UInt32)
  | noteLeave
  /-- The leader reads the cursor, `cached` being the node of the block. -/
  | readCursor (cached : NodeId)
  | noteExit (cursor : NodeId)
  | pickUp (cursor : NodeId)
  | claimFirst (pickup : Pickup)
  | noteStart (pickup : Pickup)
  | decide
  | idle
  /-- A fault ends this group; it releases the barriers one after another. -/
  | aborting (fault : Fault) (released : Nat)
  | exited
  /-- Sent home because another group faulted. -/
  | released
  | faulted (fault : Fault)
deriving DecidableEq

namespace Phase

def isOver : Phase → Bool
  | exited | released | faulted _ => true
  | _ => false

def fault? : Phase → Option Fault
  | faulted fault => some fault
  | _ => none

end Phase

structure LaunchState (η : Type) where
  graph : TaskGraph η
  device : Device η
  trace : DeviceTrace
  blocks : Array BlockState
  start : Barrier
  aborted : Bool
  groups : Array Phase

namespace LaunchConfig

def blockWidth (c : LaunchConfig) : UInt32 := c.groupsPerBlock * c.lanesPerGroup

def numGroups (c : LaunchConfig) : Nat := c.numBlocks.toNat * c.groupsPerBlock.toNat

def blockOf (c : LaunchConfig) (group : Nat) : Nat := group / c.groupsPerBlock.toNat

def rankOf (c : LaunchConfig) (group : Nat) : Nat := group % c.groupsPerBlock.toNat

def isLeader (c : LaunchConfig) (group : Nat) : Bool := c.rankOf group == 0

def firstThread (c : LaunchConfig) (group : Nat) : UInt32 :=
  UInt32.ofNat (c.rankOf group) * c.lanesPerGroup

def originOf (c : LaunchConfig) (group : Nat) : TraceOrigin :=
  ⟨UInt32.ofNat (c.blockOf group), UInt32.ofNat group⟩

end LaunchConfig

namespace LaunchState

variable {η : Type}

def initial (c : LaunchConfig) (graph : TaskGraph η) (device : Device η) (trace : DeviceTrace) :
    LaunchState η where
  graph
  device
  trace
  blocks := Array.replicate c.numBlocks.toNat (.initial c.groupsPerBlock.toNat)
  start := .new c.numGroups
  aborted := false
  groups := (Array.replicate c.numGroups (.enter .start)).setIfInBounds 0 .init

def block (s : LaunchState η) (b : Nat) : BlockState := s.blocks.getD b (.initial 0)

def setBlock (s : LaunchState η) (b : Nat) (block : BlockState) : LaunchState η :=
  { s with blocks := s.blocks.setIfInBounds b block }

def phase (s : LaunchState η) (group : Nat) : Phase := s.groups.getD group .exited

def goto (s : LaunchState η) (group : Nat) (phase : Phase) : LaunchState η :=
  { s with groups := s.groups.setIfInBounds group phase }

def barrierAt (s : LaunchState η) (b : Nat) : Site → Barrier
  | .start => s.start
  | _ => (s.block b).barrier

def setBarrierAt (s : LaunchState η) (b : Nat) (site : Site) (barrier : Barrier) :
    LaunchState η :=
  match site with
  | .start => { s with start := barrier }
  | _ => s.setBlock b { s.block b with barrier }

def isOver (s : LaunchState η) : Bool := s.groups.all Phase.isOver

def fault? (s : LaunchState η) : Option Fault := s.groups.toList.findSome? Phase.fault?

end LaunchState
end Lockstep
