import Lockstep.Launch.State

/-!
# Launch steps

One atomic step of one group, and launches as interleavings of such steps.  A
group without a next step, because it waits or has left, stays where it is.
-/

namespace Lockstep
namespace LaunchState

variable {η : Type}

def afterSite (leader : Bool) : Site → Phase
  | .start => .fetch
  | .claimEnter held => if leader then .claimForBlock held else .enter (.claimLeave held)
  | .claimLeave held => .readBase held
  | .nodeEnter => if leader then .noteLeave else .enter .nodeLeave
  | .nodeLeave => .decide
  | .finish held => if leader then .collect held else .fetch

def invoke (c : LaunchConfig) (d : Dispatcher η) (group : Nat) (lane : UInt32) (work : Work)
    (s : LaunchState η) : Except Fault Unit × LaunchState η :=
  match d.get? work.func, s.graph.node work.node with
  | none, _ => (.error (.unregisteredFunction work.func.raw), s)
  | _, .error fault => (.error fault, s)
  | some invocation, .ok node =>
      let ⟨graph, device, trace, blocks, start, aborted, groups⟩ := s
      let origin := c.originOf group
      let context : InvocationContext η :=
        ⟨graph, work.node, origin.block, origin.group, lane, work.threadInInvocation⟩
      let (result, device) := invocation context node.spec.data work.invocationOffset device
      (result, ⟨graph, device, trace, blocks, start, aborted, groups⟩)

/-- Releases one more of the barriers on behalf of a group that faulted: first the
launch is marked, then its start barrier goes, then the barrier of each block. -/
def releaseNext (group : Nat) (s : LaunchState η) (fault : Fault) : (released : Nat) →
    LaunchState η
  | 0 => { s with aborted := true }.goto group (.aborting fault 1)
  | 1 => { s with start := s.start.abort }.goto group (.aborting fault 2)
  | b + 2 =>
      if b < s.blocks.size then
        let block := s.block b
        (s.setBlock b { block with barrier := block.barrier.abort }).goto group
          (.aborting fault (b + 3))
      else s.goto group (.faulted fault)

/-- The next step of a group. -/
def step (c : LaunchConfig) (d : Dispatcher η) (group : Nat) (s : LaunchState η) :
    LaunchState η :=
  let b := c.blockOf group
  let leader := c.isLeader group
  let block := s.block b
  let origin := c.originOf group
  match s.phase group with
  | .init =>
      let (result, graph, trace) := s.graph.init s.device.shared s.trace
      let s := { s with graph, trace }
      match result with
      | .ok () => s.goto group (.enter .start)
      | .error fault => s.goto group (.aborting fault 0)
  | .enter site =>
      let (arrival, barrier) := (s.barrierAt b site).arrive
      let s := s.setBarrierAt b site barrier
      match arrival with
      | .released => s.goto group (afterSite leader site)
      | .waiting generation => s.goto group (.waiting site generation)
      | .aborted => s.goto group .released
  | .waiting site generation =>
      match (s.barrierAt b site).poll generation with
      | .blocked => s
      | .released => s.goto group (afterSite leader site)
      | .aborted => s.goto group .released
  | .fetch =>
      if block.base = noWork then s.goto group (.enter .nodeEnter)
      else if c.lanesPerGroup < block.pickup.threadsPerInvocation then
        s.goto group (.enter (.claimEnter block.pickup))
      else s.goto group (.claimForGroup block.pickup)
  | .claimForBlock held =>
      match s.graph.claim held.node (c.blockWidth / held.threadsPerInvocation) with
      | .ok (base, graph) =>
          ({ s with graph }.setBlock b { block with base }).goto group (.enter (.claimLeave held))
      | .error fault => s.goto group (.aborting fault 0)
  | .readBase held =>
      if held.total ≤ block.base then s.goto group (.enter .nodeEnter)
      else s.goto group (.assign held.node block.base (c.firstThread group))
  | .claimForGroup held =>
      match s.graph.claim held.node (c.lanesPerGroup / held.threadsPerInvocation) with
      | .ok (base, graph) =>
          let s := { s with graph }
          if held.total ≤ base then s.goto group (.enter .nodeEnter)
          else s.goto group (.assign held.node base 0)
      | .error fault => s.goto group (.aborting fault 0)
  | .assign node base first =>
      let pickup := { block.pickup with node }
      s.goto group (.execute (pickup.assign base first c.lanesPerGroup) .empty)
  | .execute [] executed => s.goto group (.tally executed)
  | .execute ((lane, work) :: pending) executed =>
      let (result, s) := invoke c d group lane work s
      match result, executed.set lane with
      | .ok (), .ok executed => s.goto group (.execute pending executed)
      | .error fault, _ | _, .error fault => s.goto group (.aborting fault 0)
  | .tally executed =>
      let held := block.pickup
      let count := UInt32.ofNat executed.count
      if c.lanesPerGroup < held.threadsPerInvocation then
        let finishedThreads := block.finishedThreads + count
        (s.setBlock b { block with finishedThreads }).goto group (.enter (.finish held))
      else s.goto group (.report held.node (count / held.threadsPerInvocation))
  | .collect held =>
      (s.setBlock b { block with finishedThreads := 0 }).goto group
        (.report held.node (block.finishedThreads / held.threadsPerInvocation))
  | .report node finished =>
      let (result, graph, trace) :=
        s.graph.report s.device.shared s.trace node finished origin
      let s := { s with graph, trace }
      match result with
      | .ok _ => s.goto group .fetch
      | .error fault => s.goto group (.aborting fault 0)
  | .noteLeave =>
      let left := block.pickup
      let s := s.goto group (.readCursor left.node)
      if block.base = noWork then s
      else { s with trace := s.trace.record .blockWait left.func left.total left.node origin }
  | .readCursor cached =>
      let cursor := s.graph.cursor
      if s.graph.numNodes ≤ cursor.toNat then
        (s.setBlock b { block with
          pickup := { block.pickup with node := ⟨cursor⟩ }, base := noWork }).goto group
          (.noteExit ⟨cursor⟩)
      else if cursor = cached.raw then
        (s.setBlock b { block with base := noWork }).goto group (.enter .nodeLeave)
      else s.goto group (.pickUp ⟨cursor⟩)
  | .noteExit cursor =>
      { s with trace := s.trace.record .blockExit ⟨0⟩ 0 cursor origin }.goto group
        (.enter .nodeLeave)
  | .pickUp cursor =>
      match s.graph.node cursor with
      | .ok node =>
          let pickup : Pickup :=
            ⟨cursor, node.spec.func, node.total, node.spec.threadsPerInvocation⟩
          (s.setBlock b { block with pickup }).goto group (.claimFirst pickup)
      | .error fault => s.goto group (.aborting fault 0)
  | .claimFirst pickup =>
      match s.graph.claim pickup.node (c.blockWidth / pickup.threadsPerInvocation) with
      | .ok (base, graph) =>
          ({ s with graph }.setBlock b { block with base }).goto group (.noteStart pickup)
      | .error fault => s.goto group (.aborting fault 0)
  | .noteStart pickup =>
      { s with trace := s.trace.record .blockStart pickup.func pickup.total pickup.node origin
        }.goto group (.enter .nodeLeave)
  | .decide =>
      if s.graph.numNodes ≤ block.pickup.node.index then s.goto group .exited
      else if block.base = noWork then s.goto group .idle
      else s.goto group (.assign block.pickup.node block.base (c.firstThread group))
  | .idle => s.goto group (if s.aborted then .released else .fetch)
  | .aborting fault released => releaseNext group s fault released
  | .exited | .released | .faulted _ => s

def follow (c : LaunchConfig) (d : Dispatcher η) (schedule : List Nat) (s : LaunchState η) :
    LaunchState η :=
  schedule.foldl (fun s group => step c d group s) s

def round (c : LaunchConfig) (d : Dispatcher η) (s : LaunchState η) : LaunchState η :=
  follow c d (List.range c.numGroups) s

/-- At most `fuel` rounds, until all groups are done. -/
def run (c : LaunchConfig) (d : Dispatcher η) : (fuel : Nat) → LaunchState η → LaunchState η
  | 0, s => s
  | fuel + 1, s => if s.isOver then s else run c d fuel (round c d s)

end LaunchState
end Lockstep
