import Lockstep.Proofs.Launch.Place
import Lockstep.Proofs.TaskGraph.Progress

/-!
# Moves

The steps of a group between its meetings with others, one by one.  Invariants of a
launch are proved by cases on the move, not by opening the step function.
-/

namespace Lockstep

namespace Phase

def isApart : Phase → Bool
  | enter _ | waiting .. | aborting .. | exited | released | faulted _ => false
  | _ => true

end Phase

namespace LaunchState

variable {η : Type} {c : LaunchConfig} {d : Dispatcher η} {s : LaunchState η} {g : Nat}

/-- The moves of a group: from one place to another, with what they leave of the notes
of the group's block and of the graph. -/
inductive Move (c : LaunchConfig) (g : Nat) (s : LaunchState η) (block : BlockState) :
    Phase → Phase → BlockState → TaskGraph η → Prop where
  | init {graph : TaskGraph η} {trace : DeviceTrace}
      (h : s.graph.init s.device.shared s.trace = (.ok (), graph, trace)) :
      Move c g s block .init (.enter .start) block graph
  | initFault {fault : Fault} {graph : TaskGraph η} {trace : DeviceTrace}
      (h : s.graph.init s.device.shared s.trace = (.error fault, graph, trace)) :
      Move c g s block .init (.aborting fault 0) block graph
  | fetchNone (h : block.base = noWork) :
      Move c g s block .fetch (.enter .nodeEnter) block s.graph
  | fetchWide (h : block.base ≠ noWork)
      (hwide : c.lanesPerGroup < block.pickup.threadsPerInvocation) :
      Move c g s block .fetch (.enter (.claimEnter block.pickup)) block s.graph
  | fetchNarrow (h : block.base ≠ noWork)
      (hnarrow : ¬ c.lanesPerGroup < block.pickup.threadsPerInvocation) :
      Move c g s block .fetch (.claimForGroup block.pickup) block s.graph
  | claimForBlock {held : Pickup} {base : UInt32} {graph : TaskGraph η}
      (h : s.graph.claim held.node (c.blockWidth / held.threadsPerInvocation) =
        .ok (base, graph)) :
      Move c g s block (.claimForBlock held) (.enter (.claimLeave held)) { block with base } graph
  | claimForBlockFault {held : Pickup} {fault : Fault}
      (h : s.graph.claim held.node (c.blockWidth / held.threadsPerInvocation) = .error fault) :
      Move c g s block (.claimForBlock held) (.aborting fault 0) block s.graph
  | readSpent {held : Pickup} (h : held.total ≤ block.base) :
      Move c g s block (.readBase held) (.enter .nodeEnter) block s.graph
  | readBase {held : Pickup} (h : ¬ held.total ≤ block.base) :
      Move c g s block (.readBase held) (.assign held.node block.base (c.firstThread g)) block
        s.graph
  | claimSpent {held : Pickup} {base : UInt32} {graph : TaskGraph η}
      (h : s.graph.claim held.node (c.lanesPerGroup / held.threadsPerInvocation) =
        .ok (base, graph)) (hspent : held.total ≤ base) :
      Move c g s block (.claimForGroup held) (.enter .nodeEnter) block graph
  | claimForGroup {held : Pickup} {base : UInt32} {graph : TaskGraph η}
      (h : s.graph.claim held.node (c.lanesPerGroup / held.threadsPerInvocation) =
        .ok (base, graph)) (hwork : ¬ held.total ≤ base) :
      Move c g s block (.claimForGroup held) (.assign held.node base 0) block graph
  | claimForGroupFault {held : Pickup} {fault : Fault}
      (h : s.graph.claim held.node (c.lanesPerGroup / held.threadsPerInvocation) =
        .error fault) :
      Move c g s block (.claimForGroup held) (.aborting fault 0) block s.graph
  | assign {node : NodeId} {base first : UInt32} :
      Move c g s block (.assign node base first)
        (.execute ({ block.pickup with node }.assign base first c.lanesPerGroup) .empty) block
        s.graph
  | executed {executed : LaneMask} :
      Move c g s block (.execute [] executed) (.tally executed) block s.graph
  | execute {lane : UInt32} {work : Work} {pending : List (UInt32 × Work)}
      {executed executed' : LaneMask} (h : executed.set lane = .ok executed') :
      Move c g s block (.execute ((lane, work) :: pending) executed)
        (.execute pending executed') block s.graph
  | executeFault {lane : UInt32} {work : Work} {pending : List (UInt32 × Work)}
      {executed : LaneMask} {fault : Fault} :
      Move c g s block (.execute ((lane, work) :: pending) executed) (.aborting fault 0) block
        s.graph
  | tallyWide {executed : LaneMask}
      (h : c.lanesPerGroup < block.pickup.threadsPerInvocation) :
      Move c g s block (.tally executed) (.enter (.finish block.pickup))
        { block with finishedThreads := block.finishedThreads + UInt32.ofNat executed.count }
        s.graph
  | tallyNarrow {executed : LaneMask}
      (h : ¬ c.lanesPerGroup < block.pickup.threadsPerInvocation) :
      Move c g s block (.tally executed)
        (.report block.pickup.node
          (UInt32.ofNat executed.count / block.pickup.threadsPerInvocation)) block s.graph
  | collect {held : Pickup} :
      Move c g s block (.collect held)
        (.report held.node (block.finishedThreads / held.threadsPerInvocation))
        { block with finishedThreads := 0 } s.graph
  | report {node : NodeId} {finished : UInt32} {retired : Bool} {graph : TaskGraph η}
      {trace : DeviceTrace}
      (h : s.graph.report s.device.shared s.trace node finished (c.originOf g) =
        (.ok retired, graph, trace)) :
      Move c g s block (.report node finished) .fetch block graph
  | reportFault {node : NodeId} {finished : UInt32} {fault : Fault} {graph : TaskGraph η}
      {trace : DeviceTrace}
      (h : s.graph.report s.device.shared s.trace node finished (c.originOf g) =
        (.error fault, graph, trace)) :
      Move c g s block (.report node finished) (.aborting fault 0) block graph
  | noteLeave : Move c g s block .noteLeave (.readCursor block.pickup.node) block s.graph
  | cursorDone {cached : NodeId} (h : s.graph.numNodes ≤ s.graph.cursor.toNat) :
      Move c g s block (.readCursor cached) (.noteExit ⟨s.graph.cursor⟩)
        { block with pickup := { block.pickup with node := ⟨s.graph.cursor⟩ }, base := noWork }
        s.graph
  | cursorSame {cached : NodeId} (h : ¬ s.graph.numNodes ≤ s.graph.cursor.toNat)
      (hsame : s.graph.cursor = cached.raw) :
      Move c g s block (.readCursor cached) (.enter .nodeLeave) { block with base := noWork }
        s.graph
  | cursorNew {cached : NodeId} (h : ¬ s.graph.numNodes ≤ s.graph.cursor.toNat)
      (hnew : s.graph.cursor ≠ cached.raw) :
      Move c g s block (.readCursor cached) (.pickUp ⟨s.graph.cursor⟩) block s.graph
  | noteExit {cursor : NodeId} :
      Move c g s block (.noteExit cursor) (.enter .nodeLeave) block s.graph
  | pickUp {cursor : NodeId} (h : cursor.index < s.graph.nodes.size) :
      Move c g s block (.pickUp cursor) (.claimFirst (s.graph.pickup cursor.index))
        { block with pickup := s.graph.pickup cursor.index } s.graph
  | pickUpFault {cursor : NodeId} {fault : Fault} (h : s.graph.nodes.size ≤ cursor.index) :
      Move c g s block (.pickUp cursor) (.aborting fault 0) block s.graph
  | claimFirst {held : Pickup} {base : UInt32} {graph : TaskGraph η}
      (h : s.graph.claim held.node (c.blockWidth / held.threadsPerInvocation) =
        .ok (base, graph)) :
      Move c g s block (.claimFirst held) (.noteStart held) { block with base } graph
  | claimFirstFault {held : Pickup} {fault : Fault}
      (h : s.graph.claim held.node (c.blockWidth / held.threadsPerInvocation) = .error fault) :
      Move c g s block (.claimFirst held) (.aborting fault 0) block s.graph
  | noteStart {held : Pickup} :
      Move c g s block (.noteStart held) (.enter .nodeLeave) block s.graph
  | decideExit (h : s.graph.numNodes ≤ block.pickup.node.index) :
      Move c g s block .decide .exited block s.graph
  | decideIdle (h : ¬ s.graph.numNodes ≤ block.pickup.node.index) (hbase : block.base = noWork) :
      Move c g s block .decide .idle block s.graph
  | decideWork (h : ¬ s.graph.numNodes ≤ block.pickup.node.index)
      (hbase : block.base ≠ noWork) :
      Move c g s block .decide (.assign block.pickup.node block.base (c.firstThread g)) block
        s.graph
  | idle : Move c g s block .idle .fetch block s.graph
  | idleReleased (h : s.aborted = true) : Move c g s block .idle .released block s.graph

theorem invoke_eq (c : LaunchConfig) (d : Dispatcher η) (g : Nat) (lane : UInt32) (work : Work)
    (s : LaunchState η) :
    ∃ result t, invoke c d g lane work s = (result, t) ∧ t.groups = s.groups ∧
      t.blocks = s.blocks ∧ t.start = s.start ∧ t.aborted = s.aborted ∧ t.graph = s.graph := by
  unfold invoke
  split
  · exact ⟨_, _, rfl, rfl, rfl, rfl, rfl, rfl⟩
  · exact ⟨_, _, rfl, rfl, rfl, rfl, rfl, rfl⟩
  · exact ⟨_, _, rfl, rfl, rfl, rfl, rfl, rfl⟩

/-- The step of a group that meets nobody is one of the moves. -/
theorem step_move (hg : g < s.groups.size) (hb : c.blockOf g < s.blocks.size)
    (h : (s.phase g).isApart = true) :
    ∃ p block graph, Move c g s (s.block (c.blockOf g)) (s.phase g) p block graph ∧
      Moved c g p block graph s (step c d g s) := by
  have go : ∀ (t : LaunchState η) (p : Phase), t.groups = s.groups → t.blocks = s.blocks →
      t.start = s.start → t.aborted = s.aborted →
      Moved c g p (s.block (c.blockOf g)) t.graph s (t.goto g p) :=
    fun _ p h₁ h₂ h₃ h₄ => moved_goto hg p h₁ h₂ h₃ h₄
  have note : ∀ (t : LaunchState η) (p : Phase) (block : BlockState), t.groups = s.groups →
      t.blocks = s.blocks → t.start = s.start → t.aborted = s.aborted →
      block.barrier = (s.block (c.blockOf g)).barrier →
      Moved c g p block t.graph s ((t.setBlock (c.blockOf g) block).goto g p) :=
    fun _ p block h₁ h₂ h₃ h₄ h₅ => moved_setBlock hg hb p block h₁ h₂ h₃ h₄ h₅
  have noted : ∀ (trace : DeviceTrace) (p : Phase),
      Moved c g p (s.block (c.blockOf g)) s.graph s ({ s with trace }.goto g p) :=
    fun trace p => go { s with trace } p rfl rfl rfl rfl
  cases hphase : s.phase g with
  | init =>
      simp only [step, hphase]
      rcases hinit : s.graph.init s.device.shared s.trace with ⟨_ | _, graph, trace⟩
      · exact ⟨_, _, _, .initFault hinit, go { s with graph, trace } _ rfl rfl rfl rfl⟩
      · exact ⟨_, _, _, .init hinit, go { s with graph, trace } _ rfl rfl rfl rfl⟩
  | fetch =>
      simp only [step, hphase]
      split
      · rename_i hbase
        exact ⟨_, _, _, .fetchNone hbase, go s _ rfl rfl rfl rfl⟩
      · rename_i hbase
        split
        · rename_i hwide
          exact ⟨_, _, _, .fetchWide hbase hwide, go s _ rfl rfl rfl rfl⟩
        · rename_i hnarrow
          exact ⟨_, _, _, .fetchNarrow hbase hnarrow, go s _ rfl rfl rfl rfl⟩
  | claimForBlock held =>
      simp only [step, hphase]
      split
      · rename_i base graph hclaim
        exact ⟨_, _, _, .claimForBlock hclaim,
          note { s with graph } (.enter (.claimLeave held)) _ rfl rfl rfl rfl rfl⟩
      · rename_i fault hclaim
        exact ⟨_, _, _, .claimForBlockFault hclaim, go s _ rfl rfl rfl rfl⟩
  | readBase held =>
      simp only [step, hphase]
      split
      · rename_i hspent
        exact ⟨_, _, _, .readSpent hspent, go s _ rfl rfl rfl rfl⟩
      · rename_i hwork
        exact ⟨_, _, _, .readBase hwork, go s _ rfl rfl rfl rfl⟩
  | claimForGroup held =>
      simp only [step, hphase]
      split
      · rename_i base graph hclaim
        split
        · rename_i hspent
          exact ⟨_, _, _, .claimSpent hclaim hspent, go { s with graph } _ rfl rfl rfl rfl⟩
        · rename_i hwork
          exact ⟨_, _, _, .claimForGroup hclaim hwork, go { s with graph } _ rfl rfl rfl rfl⟩
      · rename_i fault hclaim
        exact ⟨_, _, _, .claimForGroupFault hclaim, go s _ rfl rfl rfl rfl⟩
  | assign node base first =>
      simp only [step, hphase]
      exact ⟨_, _, _, .assign, go s _ rfl rfl rfl rfl⟩
  | execute pending executed =>
      rcases pending with - | ⟨⟨lane, work⟩, pending⟩
      · simp only [step, hphase]
        exact ⟨_, _, _, .executed, go s _ rfl rfl rfl rfl⟩
      · obtain ⟨result, t, hinvoke, h₁, h₂, h₃, h₄, h₅⟩ := invoke_eq c d g lane work s
        simp only [step, hphase, hinvoke]
        split
        · rename_i executed' hset
          exact ⟨_, _, _, .execute hset, h₅ ▸ go t _ h₁ h₂ h₃ h₄⟩
        · exact ⟨_, _, _, .executeFault, h₅ ▸ go t _ h₁ h₂ h₃ h₄⟩
        · exact ⟨_, _, _, .executeFault, h₅ ▸ go t _ h₁ h₂ h₃ h₄⟩
  | tally executed =>
      simp only [step, hphase]
      split
      · rename_i hwide
        exact ⟨_, _, _, .tallyWide hwide, note s _ _ rfl rfl rfl rfl rfl⟩
      · rename_i hnarrow
        exact ⟨_, _, _, .tallyNarrow hnarrow, go s _ rfl rfl rfl rfl⟩
  | collect held =>
      simp only [step, hphase]
      exact ⟨_, _, _, .collect, note s _ _ rfl rfl rfl rfl rfl⟩
  | report node finished =>
      simp only [step, hphase]
      rcases hreport : s.graph.report s.device.shared s.trace node finished (c.originOf g)
        with ⟨_ | _, graph, trace⟩
      · exact ⟨_, _, _, .reportFault hreport, go { s with graph, trace } _ rfl rfl rfl rfl⟩
      · exact ⟨_, _, _, .report hreport, go { s with graph, trace } _ rfl rfl rfl rfl⟩
  | noteLeave =>
      simp only [step, hphase]
      refine ⟨_, _, _, .noteLeave, ?_⟩
      split
      · exact go s _ rfl rfl rfl rfl
      · exact noted _ _
  | readCursor cached =>
      simp only [step, hphase]
      split
      · rename_i hdone
        exact ⟨_, _, _, .cursorDone hdone, note s _ _ rfl rfl rfl rfl rfl⟩
      · rename_i hcursor
        split
        · rename_i hsame
          exact ⟨_, _, _, .cursorSame hcursor hsame, note s _ _ rfl rfl rfl rfl rfl⟩
        · rename_i hnew
          exact ⟨_, _, _, .cursorNew hcursor hnew, go s _ rfl rfl rfl rfl⟩
  | noteExit cursor =>
      simp only [step, hphase]
      exact ⟨_, _, _, .noteExit, noted _ _⟩
  | pickUp cursor =>
      simp only [step, hphase]
      split
      · rename_i node hnode
        obtain ⟨hlt, hpickup⟩ := TaskGraph.pickup_of_node hnode
        rw [← hpickup]
        exact ⟨_, _, _, .pickUp hlt, note s _ _ rfl rfl rfl rfl rfl⟩
      · rename_i fault hnode
        exact ⟨_, _, _, .pickUpFault (TaskGraph.size_le_of_node hnode), go s _ rfl rfl rfl rfl⟩
  | claimFirst held =>
      simp only [step, hphase]
      split
      · rename_i base graph hclaim
        exact ⟨_, _, _, .claimFirst hclaim,
          note { s with graph } (.noteStart held) _ rfl rfl rfl rfl rfl⟩
      · rename_i fault hclaim
        exact ⟨_, _, _, .claimFirstFault hclaim, go s _ rfl rfl rfl rfl⟩
  | noteStart held =>
      simp only [step, hphase]
      exact ⟨_, _, _, .noteStart, noted _ _⟩
  | decide =>
      simp only [step, hphase]
      split
      · rename_i hdone
        exact ⟨_, _, _, .decideExit hdone, go s _ rfl rfl rfl rfl⟩
      · rename_i hnode
        split
        · rename_i hbase
          exact ⟨_, _, _, .decideIdle hnode hbase, go s _ rfl rfl rfl rfl⟩
        · rename_i hbase
          exact ⟨_, _, _, .decideWork hnode hbase, go s _ rfl rfl rfl rfl⟩
  | idle =>
      simp only [step, hphase]
      split
      · rename_i haborted
        exact ⟨_, _, _, .idleReleased haborted, go s _ rfl rfl rfl rfl⟩
      · exact ⟨_, _, _, .idle, go s _ rfl rfl rfl rfl⟩
  | enter | waiting | aborting | exited | released | faulted =>
      rw [hphase] at h
      exact absurd h Bool.false_ne_true

/-! ## At a gate -/

def Meets (s : LaunchState η) (b : Nat) (site : Site) : Prop :=
  (s.gate (site.gate b)).aborted = false ∧
    (s.gate (site.gate b)).arrived + 1 = (s.gate (site.gate b)).parties

instance (s : LaunchState η) (b : Nat) (site : Site) : Decidable (s.Meets b site) :=
  inferInstanceAs (Decidable (_ ∧ _))

inductive Arrives (c : LaunchConfig) (g : Nat) (site : Site) (s s' : LaunchState η) : Prop where
  | turnedAway (haborted : (s.gate (site.gate (c.blockOf g))).aborted = true)
      (hm : Moved c g .released (s.block (c.blockOf g)) s.graph s s')
  | waits (hmeets : ¬ s.Meets (c.blockOf g) site)
      (haborted : (s.gate (site.gate (c.blockOf g))).aborted = false)
      (hm : Met c g (.waiting site (s.gate (site.gate (c.blockOf g))).generation)
        (site.gate (c.blockOf g))
        { s.gate (site.gate (c.blockOf g)) with
          arrived := (s.gate (site.gate (c.blockOf g))).arrived + 1 } s s')
  | meets (hmeets : s.Meets (c.blockOf g) site)
      (hm : Met c g (afterSite (c.isLeader g) site) (site.gate (c.blockOf g))
        { s.gate (site.gate (c.blockOf g)) with
          arrived := 0
          generation := (s.gate (site.gate (c.blockOf g))).generation + 1 } s s')

theorem step_arrives {site : Site} (hg : g < s.groups.size) (hb : c.blockOf g < s.blocks.size)
    (hphase : s.phase g = .enter site) : Arrives c g site s (step c d g s) := by
  have hgate := barrierAt_eq_gate s (c.blockOf g) site
  by_cases haborted : (s.gate (site.gate (c.blockOf g))).aborted = true
  · refine .turnedAway haborted ?_
    have hstep : step c d g s = s.goto g .released := by
      simp only [step, hphase, hgate, Barrier.arrive, haborted, if_true]
      rw [← hgate, setBarrierAt_barrierAt hb]
    rw [hstep]
    exact moved_goto hg .released rfl rfl rfl rfl
  · have haborted := eq_false_of_ne_true haborted
    by_cases hlast : (s.gate (site.gate (c.blockOf g))).arrived + 1 =
        (s.gate (site.gate (c.blockOf g))).parties
    · refine .meets ⟨haborted, hlast⟩ ?_
      simp only [step, hphase, hgate, Barrier.arrive, haborted, Bool.false_eq_true, if_false,
        hlast, if_true]
      exact met_setBarrierAt hg hb _ site _
    · refine .waits (fun hmeets => hlast hmeets.2) haborted ?_
      simp only [step, hphase, hgate, Barrier.arrive, haborted, Bool.false_eq_true, if_false,
        hlast]
      exact met_setBarrierAt hg hb _ site _

inductive Looks (c : LaunchConfig) (g : Nat) (site : Site) (n : Nat) (s s' : LaunchState η) :
    Prop where
  | blocked (hn : (s.gate (site.gate (c.blockOf g))).generation = n)
      (haborted : (s.gate (site.gate (c.blockOf g))).aborted = false) (hs : s' = s)
  | released (hn : (s.gate (site.gate (c.blockOf g))).generation ≠ n)
      (hm : Moved c g (afterSite (c.isLeader g) site) (s.block (c.blockOf g)) s.graph s s')
  | sentAway (hn : (s.gate (site.gate (c.blockOf g))).generation = n)
      (haborted : (s.gate (site.gate (c.blockOf g))).aborted = true)
      (hm : Moved c g .released (s.block (c.blockOf g)) s.graph s s')

theorem step_looks {site : Site} {n : Nat} (hg : g < s.groups.size)
    (hphase : s.phase g = .waiting site n) : Looks c g site n s (step c d g s) := by
  have hgate := barrierAt_eq_gate s (c.blockOf g) site
  by_cases hn : (s.gate (site.gate (c.blockOf g))).generation = n
  · by_cases haborted : (s.gate (site.gate (c.blockOf g))).aborted = true
    · refine .sentAway hn haborted ?_
      simp only [step, hphase, hgate, Barrier.poll, hn, ne_eq, not_true_eq_false, if_false,
        haborted, if_true]
      exact moved_goto hg .released rfl rfl rfl rfl
    · refine .blocked hn (eq_false_of_ne_true haborted) ?_
      simp only [step, hphase, hgate, Barrier.poll, hn, ne_eq, not_true_eq_false, if_false,
        haborted, Bool.false_eq_true]
  · refine .released hn ?_
    simp only [step, hphase, hgate, Barrier.poll, ne_eq, hn, not_false_eq_true, if_true]
    exact moved_goto hg _ rfl rfl rfl rfl

/-- A group that starts to wait stays at its place. -/
theorem place_of_waits {s' : LaunchState η} {site : Site} {barrier : Barrier}
    (hphase : s.phase g = .enter site)
    (hm : Met c g (.waiting site (s.gate (site.gate (c.blockOf g))).generation)
      (site.gate (c.blockOf g)) barrier s s')
    (hgen : barrier.generation = (s.gate (site.gate (c.blockOf g))).generation) (g' : Nat) :
    s'.place c g' = s.place c g' := by
  by_cases hne : g' = g
  · rw [hne, place_of_waiting hm.phase_self, place_of_phase hphase (by simp), hm.generation hgen,
      if_pos rfl]
  · exact hm.place_other hgen hne

/-- A group that sees that it may go on is where it has been. -/
theorem place_of_released {s' : LaunchState η} {site : Site} {n : Nat} {block : BlockState}
    {graph : TaskGraph η} (hphase : s.phase g = .waiting site n)
    (hn : (s.gate (site.gate (c.blockOf g))).generation ≠ n)
    (hm : Moved c g (afterSite (c.isLeader g) site) block graph s s') (g' : Nat) :
    s'.place c g' = s.place c g' := by
  by_cases hne : g' = g
  · rw [hne, hm.place_self (afterSite_ne_waiting _ _), place_of_waiting hphase, if_neg hn]
  · exact hm.place_other hne

/-- The steps by which a group that faulted sends the others home. -/
inductive Releases (c : LaunchConfig) (g : Nat) (fault : Fault) (s s' : LaunchState η) :
    Nat → Prop where
  | mark (hm : Moved c g (.aborting fault 1) (s.block (c.blockOf g)) s.graph
      { s with aborted := true } s') : Releases c g fault s s' 0
  | start (hm : Met c g (.aborting fault 2) none (s.gate none).abort s s') :
      Releases c g fault s s' 1
  | block (b : Nat) (hb : b < s.blocks.size)
      (hm : Met c g (.aborting fault (b + 3)) (some b) (s.gate (some b)).abort s s') :
      Releases c g fault s s' (b + 2)
  | done (b : Nat) (hb : s.blocks.size ≤ b)
      (hm : Moved c g (.faulted fault) (s.block (c.blockOf g)) s.graph s s') :
      Releases c g fault s s' (b + 2)

theorem step_releases {fault : Fault} {n : Nat} (hg : g < s.groups.size)
    (hphase : s.phase g = .aborting fault n) : Releases c g fault s (step c d g s) n := by
  have hstep : step c d g s = releaseNext g s fault n := by
    simp only [step, hphase]
  rw [hstep]
  match n with
  | 0 => exact .mark (moved_goto (s := { s with aborted := true }) hg _ rfl rfl rfl rfl)
  | 1 => exact .start (met_start hg _ _)
  | b + 2 =>
      by_cases hb : b < s.blocks.size
      · simp only [releaseNext, hb, if_true]
        exact .block b hb (met_block hg hb _ _)
      · simp only [releaseNext, hb, if_false]
        exact .done b (Nat.le_of_not_lt hb) (moved_goto hg _ rfl rfl rfl rfl)

/-! ## All steps -/

/-- What the step of a group may be. -/
inductive Stepped (c : LaunchConfig) (g : Nat) (s s' : LaunchState η) : Prop where
  | moves {q p : Phase} {block : BlockState} {graph : TaskGraph η} (hg : g < c.numGroups)
      (hphase : s.phase g = q) (hq : q.isApart = true)
      (hmove : Move c g s (s.block (c.blockOf g)) q p block graph)
      (hm : Moved c g p block graph s s')
  | arrives {site : Site} (hg : g < c.numGroups) (hphase : s.phase g = .enter site)
      (h : Arrives c g site s s')
  | looks {site : Site} {n : Nat} (hg : g < c.numGroups) (hphase : s.phase g = .waiting site n)
      (h : Looks c g site n s s')
  | releases {fault : Fault} {n : Nat} (hg : g < c.numGroups)
      (hphase : s.phase g = .aborting fault n) (h : Releases c g fault s s' n)
  | stays (hphase : (s.phase g).isOver = true) (h : s' = s)

theorem stepped (hgroups : s.groups.size = c.numGroups)
    (hblocks : s.blocks.size = c.numBlocks.toNat) (g : Nat) : Stepped c g s (step c d g s) := by
  by_cases hg : g < c.numGroups
  · have hgs : g < s.groups.size := hgroups ▸ hg
    have hb : c.blockOf g < s.blocks.size := hblocks ▸ LaunchConfig.blockOf_lt hg
    by_cases happart : (s.phase g).isApart = true
    · obtain ⟨p, block, graph, hmove, hm⟩ := step_move (d := d) hgs hb happart
      exact .moves hg rfl happart hmove hm
    · cases hphase : s.phase g with
      | enter site => exact .arrives hg hphase (step_arrives hgs hb hphase)
      | waiting site n => exact .looks hg hphase (step_looks hgs hphase)
      | aborting fault n => exact .releases hg hphase (step_releases hgs hphase)
      | exited | released | faulted =>
          exact .stays (by rw [hphase]; rfl) (by simp only [step, hphase])
      | _ =>
          rw [hphase] at happart
          exact absurd rfl happart
  · -- Nobody stands where no group is.
    have hphase : s.phase g = .exited := by
      have hgs : ¬ g < s.groups.size := hgroups ▸ hg
      simp [phase, hgs]
    exact .stays (by rw [hphase]; rfl) (by simp only [step, hphase])

end LaunchState
end Lockstep
