import Lockstep.Proofs.Launch.Move
import Lockstep.Proofs.Launch.Stage

/-!
# The program of a block

The moves that a group can make in each stage of its block, with the stage that follows.
A group whose place its stage allows makes no other move.
-/

namespace Lockstep
namespace LaunchState

open Stage

variable {η : Type} {c : LaunchConfig} {d : Dispatcher η} {s : LaunchState η} {g : Nat}

/-- The stages of the blocks after the next step of a group. -/
def nextStage (c : LaunchConfig) (s : LaunchState η) (g : Nat) (stage : Nat → Stage) :
    Nat → Stage :=
  let b := c.blockOf g
  match s.phase g with
  | .enter site =>
      if s.Meets b site then fun b' =>
        if site.gate b' = site.gate b then
          after s.graph.numNodes c.lanesPerGroup (s.block b').pickup (s.block b').base site
        else stage b'
      else stage
  | .readCursor cached =>
      if s.graph.numNodes ≤ s.graph.cursor.toNat ∨ s.graph.cursor = cached.raw then
        Function.update stage b found
      else stage
  | .claimFirst _ => Function.update stage b found
  | .claimForBlock _ => Function.update stage b claimed
  | .report .. => if stage b = collect then Function.update stage b settled else stage
  | _ => stage

theorem nextStage_of_enter {stage : Nat → Stage} {site : Site} (hphase : s.phase g = .enter site) :
    nextStage c s g stage = if s.Meets (c.blockOf g) site then fun b =>
        if site.gate b = site.gate (c.blockOf g) then
          after s.graph.numNodes c.lanesPerGroup (s.block b).pickup (s.block b).base site
        else stage b
      else stage := by
  simp only [nextStage, hphase]

theorem nextStage_of_isOver {stage : Nat → Stage} (h : (s.phase g).isOver = true) :
    nextStage c s g stage = stage := by
  cases hphase : s.phase g <;> rw [hphase] at h <;>
    first | contradiction | simp only [nextStage, hphase]

/-- A move of a group in a stage of its block: the stage and place before, the stage and
place after, and what it leaves of the notes of the block and of the graph. -/
inductive Turn (c : LaunchConfig) (g : Nat) (s : LaunchState η) (block : BlockState) :
    Stage → Phase → Stage → Phase → BlockState → TaskGraph η → Prop where
  | init {graph : TaskGraph η} {trace : DeviceTrace}
      (h : s.graph.init s.device.shared s.trace = (.ok (), graph, trace)) :
      Turn c g s block gather .init gather (.enter .start) block graph
  | initFault {fault : Fault} {graph : TaskGraph η} {trace : DeviceTrace}
      (h : s.graph.init s.device.shared s.trace = (.error fault, graph, trace)) :
      Turn c g s block gather .init gather (.aborting fault 0) block graph
  | seekDecide (hnode : block.pickup.node.index < s.graph.numNodes) :
      Turn c g s block seek .decide seek .idle block s.graph
  | seekIdle : Turn c g s block seek .idle seek .fetch block s.graph
  | seekReleased (h : s.aborted = true) :
      Turn c g s block seek .idle seek .released block s.graph
  | seekFetch : Turn c g s block seek .fetch seek (.enter .nodeEnter) block s.graph
  | narrowDecide :
      Turn c g s block narrow .decide narrow
        (.assign block.pickup.node block.base (c.firstThread g)) block s.graph
  | narrowAssign {own first : UInt32} :
      Turn c g s block narrow (.assign block.pickup.node own first) narrow
        (.execute (block.pickup.assign own first c.lanesPerGroup) .empty) block s.graph
  | narrowExecute {lane : UInt32} {work : Work} {pending : List (UInt32 × Work)}
      {executed executed' : LaneMask} (h : executed.set lane = .ok executed') :
      Turn c g s block narrow (.execute ((lane, work) :: pending) executed) narrow
        (.execute pending executed') block s.graph
  | narrowFault {lane : UInt32} {work : Work} {pending : List (UInt32 × Work)}
      {executed : LaneMask} {fault : Fault} :
      Turn c g s block narrow (.execute ((lane, work) :: pending) executed) narrow
        (.aborting fault 0) block s.graph
  | narrowExecuted {executed : LaneMask} :
      Turn c g s block narrow (.execute [] executed) narrow (.tally executed) block s.graph
  | narrowTally {executed : LaneMask} :
      Turn c g s block narrow (.tally executed) narrow
        (.report block.pickup.node
          (UInt32.ofNat executed.count / block.pickup.threadsPerInvocation)) block s.graph
  | narrowReport {finished : UInt32} {retired : Bool} {graph : TaskGraph η} {trace : DeviceTrace}
      (h : s.graph.report s.device.shared s.trace block.pickup.node finished (c.originOf g) =
        (.ok retired, graph, trace)) :
      Turn c g s block narrow (.report block.pickup.node finished) narrow .fetch block graph
  | narrowReportFault {finished : UInt32} {fault : Fault} {graph : TaskGraph η}
      {trace : DeviceTrace}
      (h : s.graph.report s.device.shared s.trace block.pickup.node finished (c.originOf g) =
        (.error fault, graph, trace)) :
      Turn c g s block narrow (.report block.pickup.node finished) narrow (.aborting fault 0)
        block graph
  | narrowFetch :
      Turn c g s block narrow .fetch narrow (.claimForGroup block.pickup) block s.graph
  | narrowSpent {base : UInt32} {graph : TaskGraph η}
      (h : s.graph.claim block.pickup.node
        (c.lanesPerGroup / block.pickup.threadsPerInvocation) = .ok (base, graph))
      (hspent : block.pickup.total ≤ base) :
      Turn c g s block narrow (.claimForGroup block.pickup) narrow (.enter .nodeEnter) block graph
  | narrowClaim {base : UInt32} {graph : TaskGraph η}
      (h : s.graph.claim block.pickup.node
        (c.lanesPerGroup / block.pickup.threadsPerInvocation) = .ok (base, graph))
      (hwork : ¬ block.pickup.total ≤ base) :
      Turn c g s block narrow (.claimForGroup block.pickup) narrow
        (.assign block.pickup.node base 0) block graph
  | searchLeave (hleader : c.isLeader g = true) :
      Turn c g s block search .noteLeave search (.readCursor block.pickup.node) block s.graph
  | searchDone (hleader : c.isLeader g = true)
      (h : s.graph.numNodes ≤ s.graph.cursor.toNat) :
      Turn c g s block search (.readCursor block.pickup.node) found (.noteExit ⟨s.graph.cursor⟩)
        { block with pickup := { block.pickup with node := ⟨s.graph.cursor⟩ }, base := noWork }
        s.graph
  | searchSame (hleader : c.isLeader g = true)
      (h : ¬ s.graph.numNodes ≤ s.graph.cursor.toNat)
      (hsame : s.graph.cursor = block.pickup.node.raw) :
      Turn c g s block search (.readCursor block.pickup.node) found (.enter .nodeLeave)
        { block with base := noWork } s.graph
  | searchNew (hleader : c.isLeader g = true)
      (h : ¬ s.graph.numNodes ≤ s.graph.cursor.toNat)
      (hnew : s.graph.cursor ≠ block.pickup.node.raw) :
      Turn c g s block search (.readCursor block.pickup.node) search (.pickUp ⟨s.graph.cursor⟩)
        block s.graph
  | searchPickUp (hleader : c.isLeader g = true) {cursor : NodeId}
      (hcursor : cursor.index < s.graph.numNodes) :
      Turn c g s block search (.pickUp cursor) search (.claimFirst (s.graph.pickup cursor.index))
        { block with pickup := s.graph.pickup cursor.index } s.graph
  | searchClaim (hleader : c.isLeader g = true)
      (hnode : block.pickup.node.index < s.graph.numNodes) {base : UInt32} {graph : TaskGraph η}
      (h : s.graph.claim block.pickup.node
        (c.blockWidth / block.pickup.threadsPerInvocation) = .ok (base, graph)) :
      Turn c g s block search (.claimFirst block.pickup) found (.noteStart block.pickup)
        { block with base } graph
  | foundExit (hleader : c.isLeader g = true) {cursor : NodeId} :
      Turn c g s block found (.noteExit cursor) found (.enter .nodeLeave) block s.graph
  | foundStart (hleader : c.isLeader g = true) :
      Turn c g s block found (.noteStart block.pickup) found (.enter .nodeLeave) block s.graph
  | wideDecide :
      Turn c g s block wide .decide wide
        (.assign block.pickup.node block.base (c.firstThread g)) block s.graph
  | wideRead :
      Turn c g s block wide (.readBase block.pickup) wide
        (.assign block.pickup.node block.base (c.firstThread g)) block s.graph
  | wideAssign :
      Turn c g s block wide (.assign block.pickup.node block.base (c.firstThread g)) wide
        (.execute (block.pickup.assign block.base (c.firstThread g) c.lanesPerGroup) .empty) block
        s.graph
  | wideExecute {lane : UInt32} {work : Work} {pending : List (UInt32 × Work)}
      {executed executed' : LaneMask} (h : executed.set lane = .ok executed') :
      Turn c g s block wide (.execute ((lane, work) :: pending) executed) wide
        (.execute pending executed') block s.graph
  | wideFault {lane : UInt32} {work : Work} {pending : List (UInt32 × Work)}
      {executed : LaneMask} {fault : Fault} :
      Turn c g s block wide (.execute ((lane, work) :: pending) executed) wide
        (.aborting fault 0) block s.graph
  | wideExecuted {executed : LaneMask} :
      Turn c g s block wide (.execute [] executed) wide (.tally executed) block s.graph
  | wideTally {executed : LaneMask} :
      Turn c g s block wide (.tally executed) wide (.enter (.finish block.pickup))
        { block with finishedThreads := block.finishedThreads + UInt32.ofNat executed.count }
        s.graph
  | collect (hleader : c.isLeader g = true) :
      Turn c g s block collect (.collect block.pickup) collect
        (.report block.pickup.node (block.finishedThreads / block.pickup.threadsPerInvocation))
        { block with finishedThreads := 0 } s.graph
  | collectReport (hleader : c.isLeader g = true) {finished : UInt32} {retired : Bool}
      {graph : TaskGraph η} {trace : DeviceTrace}
      (h : s.graph.report s.device.shared s.trace block.pickup.node finished (c.originOf g) =
        (.ok retired, graph, trace)) :
      Turn c g s block collect (.report block.pickup.node finished) settled .fetch block graph
  | collectReportFault (hleader : c.isLeader g = true) {finished : UInt32} {fault : Fault}
      {graph : TaskGraph η} {trace : DeviceTrace}
      (h : s.graph.report s.device.shared s.trace block.pickup.node finished (c.originOf g) =
        (.error fault, graph, trace)) :
      Turn c g s block collect (.report block.pickup.node finished) settled (.aborting fault 0)
        block graph
  | collectFetch (hleader : c.isLeader g = false) :
      Turn c g s block collect .fetch collect (.enter (.claimEnter block.pickup)) block s.graph
  | settledFetch :
      Turn c g s block settled .fetch settled (.enter (.claimEnter block.pickup)) block s.graph
  | claim (hleader : c.isLeader g = true) {base : UInt32} {graph : TaskGraph η}
      (h : s.graph.claim block.pickup.node
        (c.blockWidth / block.pickup.threadsPerInvocation) = .ok (base, graph)) :
      Turn c g s block claim (.claimForBlock block.pickup) claimed
        (.enter (.claimLeave block.pickup)) { block with base } graph
  | spentRead :
      Turn c g s block spent (.readBase block.pickup) spent (.enter .nodeEnter) block s.graph
  | leave : Turn c g s block leave .decide leave .exited block s.graph

section Moves

variable {block block' : BlockState} {q p : Phase} {graph : TaskGraph η} {σ σ' : Stage}

/-- A group whose place its stage allows moves as the stage provides. -/
theorem turn_of_move (hmove : Move c g s block q p block' graph)
    (hallows : Admits s.graph.numNodes (c.isLeader g) (c.firstThread g) block.pickup block.base σ q)
    (hfits : σ.Fits s.graph.numNodes c.lanesPerGroup block.pickup block.base) :
    ∃ σ', Turn c g s block σ q σ' p block' graph := by
  have hsize := s.graph.numNodes_le
  cases hmove with
  | init h =>
      cases hallows with
      | init => exact ⟨_, .init h⟩
      | gone => contradiction
  | initFault h =>
      cases hallows with
      | init => exact ⟨_, .initFault h⟩
      | gone => contradiction
  | fetchNone hbase =>
      cases hallows with
      | fetchSeek => exact ⟨_, .seekFetch⟩
      | fetchNarrow | fetchCollect | fetchSettled => exact absurd hbase hfits.1
      | gone => contradiction
  | fetchWide hbase hwide =>
      cases hallows with
      | fetchSeek => exact absurd hfits hbase
      | fetchNarrow => exact absurd hwide hfits.2.1
      | fetchCollect hleader => exact ⟨_, .collectFetch hleader⟩
      | fetchSettled => exact ⟨_, .settledFetch⟩
      | gone => contradiction
  | fetchNarrow hbase hnarrow =>
      cases hallows with
      | fetchSeek => exact absurd hfits hbase
      | fetchNarrow => exact ⟨_, .narrowFetch⟩
      | fetchCollect | fetchSettled => exact absurd hfits.2.1 hnarrow
      | gone => contradiction
  | claimForBlock h =>
      cases hallows with
      | claimForBlock hleader => exact ⟨_, .claim hleader h⟩
      | gone => contradiction
  | claimForBlockFault h =>
      cases hallows with
      | claimForBlock =>
          exact absurd (TaskGraph.size_le_of_claim h) (Nat.not_le.2 (hfits.2.2.trans_le hsize))
      | gone => contradiction
  | readSpent hspent =>
      cases hallows with
      | readBaseWide hwork => exact absurd hspent hwork
      | readBaseSpent => exact ⟨_, .spentRead⟩
      | gone => contradiction
  | readBase hwork =>
      cases hallows with
      | readBaseWide => exact ⟨_, .wideRead⟩
      | readBaseSpent => exact absurd hfits.2.2 hwork
      | gone => contradiction
  | claimSpent h hspent =>
      cases hallows with
      | claimForGroup => exact ⟨_, .narrowSpent h hspent⟩
      | gone => contradiction
  | claimForGroup h hwork =>
      cases hallows with
      | claimForGroup => exact ⟨_, .narrowClaim h hwork⟩
      | gone => contradiction
  | claimForGroupFault h =>
      cases hallows with
      | claimForGroup =>
          exact absurd (TaskGraph.size_le_of_claim h) (Nat.not_le.2 (hfits.2.2.trans_le hsize))
      | gone => contradiction
  | assign =>
      cases hallows with
      | assignNarrow => exact ⟨_, .narrowAssign⟩
      | assignWide => exact ⟨_, .wideAssign⟩
      | gone => contradiction
  | executed =>
      cases hallows with
      | executeNarrow => exact ⟨_, .narrowExecuted⟩
      | executeWide => exact ⟨_, .wideExecuted⟩
      | gone => contradiction
  | execute h =>
      cases hallows with
      | executeNarrow => exact ⟨_, .narrowExecute h⟩
      | executeWide => exact ⟨_, .wideExecute h⟩
      | gone => contradiction
  | executeFault =>
      cases hallows with
      | executeNarrow => exact ⟨_, .narrowFault⟩
      | executeWide => exact ⟨_, .wideFault⟩
      | gone => contradiction
  | tallyWide hwide =>
      cases hallows with
      | tallyNarrow => exact absurd hwide hfits.2.1
      | tallyWide => exact ⟨_, .wideTally⟩
      | gone => contradiction
  | tallyNarrow hnarrow =>
      cases hallows with
      | tallyNarrow => exact ⟨_, .narrowTally⟩
      | tallyWide => exact absurd hfits.2.1 hnarrow
      | gone => contradiction
  | collect =>
      cases hallows with
      | collect hleader => exact ⟨_, .collect hleader⟩
      | gone => contradiction
  | report h =>
      cases hallows with
      | reportNarrow => exact ⟨_, .narrowReport h⟩
      | reportCollect hleader => exact ⟨_, .collectReport hleader h⟩
      | gone => contradiction
  | reportFault h =>
      cases hallows with
      | reportNarrow => exact ⟨_, .narrowReportFault h⟩
      | reportCollect hleader => exact ⟨_, .collectReportFault hleader h⟩
      | gone => contradiction
  | noteLeave =>
      cases hallows with
      | noteLeave hleader => exact ⟨_, .searchLeave hleader⟩
      | gone => contradiction
  | cursorDone h =>
      cases hallows with
      | readCursor hleader => exact ⟨_, .searchDone hleader h⟩
      | gone => contradiction
  | cursorSame h hsame =>
      cases hallows with
      | readCursor hleader => exact ⟨_, .searchSame hleader h hsame⟩
      | gone => contradiction
  | cursorNew h hnew =>
      cases hallows with
      | readCursor hleader => exact ⟨_, .searchNew hleader h hnew⟩
      | gone => contradiction
  | noteExit =>
      cases hallows with
      | noteExit hleader => exact ⟨_, .foundExit hleader⟩
      | gone => contradiction
  | pickUp h =>
      cases hallows with
      | pickUp hleader _ hcursor => exact ⟨_, .searchPickUp hleader hcursor⟩
      | gone => contradiction
  | pickUpFault h =>
      cases hallows with
      | pickUp _ _ hcursor => exact absurd h (Nat.not_le.2 (hcursor.trans_le hsize))
      | gone => contradiction
  | claimFirst h =>
      cases hallows with
      | claimFirst hleader hnode => exact ⟨_, .searchClaim hleader hnode h⟩
      | gone => contradiction
  | claimFirstFault h =>
      cases hallows with
      | claimFirst _ hnode =>
          exact absurd (TaskGraph.size_le_of_claim h) (Nat.not_le.2 (hnode.trans_le hsize))
      | gone => contradiction
  | noteStart =>
      cases hallows with
      | noteStart hleader => exact ⟨_, .foundStart hleader⟩
      | gone => contradiction
  | decideExit hdone =>
      cases hallows with
      | decideSeek hnode => exact absurd hdone (Nat.not_le.2 hnode)
      | decideNarrow | decideWide => exact absurd hdone (Nat.not_le.2 hfits.2.2)
      | decideLeave => exact ⟨_, .leave⟩
      | gone => contradiction
  | decideIdle hnode hbase =>
      cases hallows with
      | decideSeek hnode => exact ⟨_, .seekDecide hnode⟩
      | decideNarrow | decideWide => exact absurd hbase hfits.1
      | decideLeave => exact absurd hfits hnode
      | gone => contradiction
  | decideWork hnode hbase =>
      cases hallows with
      | decideSeek => exact absurd hfits hbase
      | decideNarrow => exact ⟨_, .narrowDecide⟩
      | decideWide => exact ⟨_, .wideDecide⟩
      | decideLeave => exact absurd hfits hnode
      | gone => contradiction
  | idle =>
      cases hallows with
      | idle => exact ⟨_, .seekIdle⟩
      | gone => contradiction
  | idleReleased h =>
      cases hallows with
      | idle => exact ⟨_, .seekReleased h⟩
      | gone => contradiction

namespace Turn

variable (h : Turn c g s block σ q σ' p block' graph)
include h

theorem sameSpecs : s.graph.SameSpecs graph := by
  cases h with
  | init h | initFault h => exact TaskGraph.sameSpecs_init h
  | narrowReport h | narrowReportFault h | collectReport _ h | collectReportFault _ h =>
      exact TaskGraph.sameSpecs_report h
  | narrowSpent h _ | narrowClaim h _ | searchClaim _ _ h | claim _ h =>
      exact TaskGraph.sameSpecs_claim h
  | _ => exact .refl _

theorem ne_waiting (site : Site) (n : Nat) : p ≠ .waiting site n := by
  cases h <;> simp

theorem ne_init : p ≠ .init := by
  cases h <;> simp

omit h in
theorem isLeader_of_pickUp {cursor : NodeId}
    (h : Turn c g s block σ (.pickUp cursor) σ' p block' graph) : c.isLeader g = true := by
  cases h with
  | searchPickUp hleader => exact hleader

theorem allows : Admits s.graph.numNodes (c.isLeader g) (c.firstThread g) block'.pickup
    block'.base σ' p := by
  cases h with
  | init => exact .enterStart
  | seekIdle => exact .fetchSeek
  | seekDecide => exact .idle
  | seekFetch => exact .enterSeek
  | narrowDecide => exact .assignNarrow _ _
  | narrowAssign | narrowExecute => exact .executeNarrow _ _
  | narrowExecuted => exact .tallyNarrow _
  | narrowTally => exact .reportNarrow _
  | narrowReport => exact .fetchNarrow
  | narrowFetch => exact .claimForGroup
  | narrowSpent => exact .enterNarrow
  | narrowClaim => exact .assignNarrow _ _
  | searchLeave hleader => exact .readCursor hleader
  | searchDone hleader => exact .noteExit hleader _
  | searchSame => exact .enterFound
  | searchNew hleader hcursor _ => exact .pickUp hleader _ (Nat.lt_of_not_le hcursor)
  | searchPickUp hleader hcursor => exact .claimFirst hleader (by simpa using hcursor)
  | searchClaim hleader => exact .noteStart hleader
  | foundExit | foundStart => exact .enterFound
  | wideDecide | wideRead => exact .assignWide
  | wideAssign | wideExecute => exact .executeWide _ _
  | wideExecuted => exact .tallyWide _
  | wideTally => exact .enterWide
  | collect hleader => exact .reportCollect hleader _
  | collectReport => exact .fetchSettled
  | collectFetch hleader => exact .enterCollect hleader
  | settledFetch => exact .enterSettled
  | claim => exact .enterClaimed
  | spentRead => exact .enterSpent
  | leave => exact .exited
  | initFault | seekReleased | narrowFault | narrowReportFault | wideFault | collectReportFault =>
      exact .gone _ _ rfl (.inr rfl)

/-- A move that changes the stage or what a block has noted of its node is one of the
leader, and the others may stay where they are. -/
theorem follow :
    σ' = σ ∧ block'.pickup = block.pickup ∧ block'.base = block.base ∨
    c.isLeader g = true ∧ ∀ first phase,
      Admits s.graph.numNodes false first block.pickup block.base σ phase →
      Admits s.graph.numNodes false first block'.pickup block'.base σ' phase := by
  cases h with
  | searchDone hleader | searchSame hleader | searchClaim hleader =>
      exact .inr ⟨hleader, fun _ _ h => h.of_search.2⟩
  | searchPickUp hleader => exact .inr ⟨hleader, fun _ _ h => h.of_search.1⟩
  | collectReport hleader | collectReportFault hleader =>
      exact .inr ⟨hleader, fun _ _ => Admits.of_collect⟩
  | claim hleader => exact .inr ⟨hleader, fun _ _ => Admits.of_claim⟩
  | _ => exact .inl ⟨rfl, rfl, rfl⟩

theorem fits (hfits : σ.Fits s.graph.numNodes c.lanesPerGroup block.pickup block.base) :
    σ'.Fits s.graph.numNodes c.lanesPerGroup block'.pickup block'.base := by
  cases h with
  | searchDone | searchSame => exact .inr rfl
  | searchPickUp => trivial
  | searchClaim _ hnode _ => exact .inl hnode
  | claim => exact ⟨hfits.2.1, hfits.2.2⟩
  | _ => exact hfits

theorem gather_iff : σ' = gather ↔ σ = gather := by
  cases h <;> simp

theorem nextStage_eq {stage : Nat → Stage} (hphase : s.phase g = q)
    (hstage : stage (c.blockOf g) = σ) :
    nextStage c s g stage = Function.update stage (c.blockOf g) σ' := by
  have hsame : Function.update stage (c.blockOf g) σ = stage := by
    rw [← hstage, Function.update_eq_self]
  cases h with
  | searchDone _ h => simp only [nextStage, hphase, h, true_or, if_true]
  | searchSame _ _ hcursor => simp only [nextStage, hphase, hcursor, or_true, if_true]
  | searchNew _ h hnew => simp only [nextStage, hphase, h, hnew, or_false, if_false, hsame]
  | narrowReport | narrowReportFault =>
      simp only [nextStage, hphase, hstage, reduceCtorEq, if_false, hsame]
  | collectReport | collectReportFault => simp only [nextStage, hphase, hstage, if_true]
  | searchClaim | claim => simp only [nextStage, hphase]
  | _ => simp only [nextStage, hphase, hsame]

end Turn
end Moves
end LaunchState
end Lockstep
