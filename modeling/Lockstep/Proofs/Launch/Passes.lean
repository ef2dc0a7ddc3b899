import Lockstep.Proofs.Launch.Reading
import Lockstep.Trace.History

/-!
# The passes of a block

What the trace tells of a block: that it picked up one node after another, and of each but
those of a claim counter that ran full that it left it again.  A block has an open pass from
the note of the start on until its leader looks for another node, or a claim answers the base
that stands for having no work.
-/

namespace Lockstep

namespace Phase

/-- Whether a leader has given up the node of its block, and has not met the others since. -/
def isSearching : Phase → Bool
  | readCursor _ | pickUp _ | claimFirst _ | noteStart _ | noteExit _ => true
  | _ => false

/-- Whether a leader has picked up a node that the trace does not tell of. -/
def isPicking : Phase → Bool
  | claimFirst _ | noteStart _ => true
  | _ => false

end Phase

/-- A pass is one of a graph that has come as far as its node.  One that the trace does not
tell the end of has used up the offsets that a word can count. -/
structure Pass.IsOf {η : Type} (graph : TaskGraph η) (a : Pass) : Prop where
  lt_numNodes : a.pickup.node.index < graph.numNodes
  le_cursor : a.pickup.node.index ≤ graph.cursor.toNat
  pickup_eq : a.pickup = graph.pickup a.pickup.node.index
  claimed : a.waited = false → 2 ^ 32 - 1 ≤ graph.claimed a.pickup.node.index

theorem Pass.IsOf.grow {η : Type} {graph graph' : TaskGraph η} {a : Pass} (h : a.IsOf graph)
    (hgrows : graph.Grows graph') : a.IsOf graph' :=
  ⟨hgrows.specs.numNodes ▸ h.lt_numNodes, h.le_cursor.trans hgrows.cursor_le,
    h.pickup_eq.trans (hgrows.pickup _ h.le_cursor).symm,
    fun hw => (h.claimed hw).trans (hgrows.claimed_le _ h.le_cursor)⟩

namespace LaunchState

open Stage

variable {η : Type} {c : LaunchConfig} {s : LaunchState η} {g : Nat}

/-- Whether the trace tells that a block is at work on its node. -/
def isOpen (σ : Stage) (lead : Phase) (base : UInt32) : Bool :=
  decide (base ≠ noWork ∧ σ ≠ leave ∧ lead.isSearching = false)

/-- Whether the trace tells that a block has left. -/
def hasLeft (numNodes : Nat) (σ : Stage) (lead : Phase) (p : Pickup) : Bool :=
  decide (σ = leave ∨ σ = found ∧ numNodes ≤ p.node.index ∧ lead.isSearching = false)

/-- What a leader notes at a place. -/
def passMarks (block : BlockState) : Phase → List Mark
  | .noteLeave => if block.base = noWork then [] else [block.pickup.mark .blockWait]
  | .noteExit cursor => [.exit cursor]
  | .noteStart held => [held.mark .blockStart]
  | _ => []

/-- What the trace tells of a block whose leader stands at the place `lead`. -/
structure BlockLog (graph : TaskGraph η) (σ : Stage) (block : BlockState) (lead : Phase)
    (passes : List Pass) (marks : List Mark) : Prop where
  marks_eq : marks = passes.flatMap Pass.marks ++
    (if isOpen σ lead block.base then [block.pickup.mark .blockStart] else []) ++
    if hasLeft graph.numNodes σ lead block.pickup then [.exit ⟨UInt32.ofNat graph.numNodes⟩] else []
  isOf : ∀ a ∈ passes, a.IsOf graph
  increasing : passes.Pairwise fun a b => a.pickup.node.index < b.pickup.node.index
  upto : ∀ a ∈ passes, a.pickup.node.index ≤ block.pickup.node.index
  held : isOpen σ lead block.base = true ∨ lead.isPicking = true →
    block.pickup.node.index < graph.numNodes ∧
      ∀ a ∈ passes, a.pickup.node.index < block.pickup.node.index
  fresh : graph.numNodes ≤ block.pickup.node.index → σ ≠ found → σ ≠ leave → passes = []
  starting : ∀ held, lead = .noteStart held → block.base = noWork →
    2 ^ 32 - 1 ≤ graph.claimed block.pickup.node.index
  exiting : ∀ cursor, lead = .noteExit cursor →
    cursor = ⟨UInt32.ofNat graph.numNodes⟩ ∧ graph.numNodes ≤ block.pickup.node.index

namespace BlockLog

variable {graph graph' : TaskGraph η} {σ σ' : Stage} {block block' : BlockState}
  {lead lead' : Phase} {passes : List Pass} {marks more : List Mark} {waited : Bool}

/-- The trace tells nothing new. -/
theorem keep (h : BlockLog graph σ block lead passes marks) (hgrows : graph.Grows graph')
    (hpickup : block'.pickup = block.pickup)
    (hopen : isOpen σ' lead' block'.base = isOpen σ lead block.base)
    (hleft : hasLeft graph.numNodes σ' lead' block.pickup =
      hasLeft graph.numNodes σ lead block.pickup)
    (hpicking : lead'.isPicking = true → lead.isPicking = true)
    (hfresh : graph.numNodes ≤ block.pickup.node.index → σ' ≠ found → σ' ≠ leave →
      σ ≠ found ∧ σ ≠ leave)
    (hstarting : ∀ held, lead' = .noteStart held → block'.base = noWork →
      2 ^ 32 - 1 ≤ graph'.claimed block.pickup.node.index)
    (hexiting : ∀ cursor, lead' = .noteExit cursor →
      cursor = ⟨UInt32.ofNat graph.numNodes⟩ ∧ graph.numNodes ≤ block.pickup.node.index) :
    BlockLog graph' σ' block' lead' passes marks := by
  have hnodes := hgrows.specs.numNodes
  refine ⟨?_, fun a ha => (h.isOf a ha).grow hgrows, h.increasing, ?_, ?_, ?_, ?_, ?_⟩
  · rw [hnodes, hpickup, hopen, hleft]
    exact h.marks_eq
  · rw [hpickup]
    exact h.upto
  · rw [hnodes, hpickup, hopen]
    exact fun hheld => h.held (hheld.imp_right hpicking)
  · rw [hnodes, hpickup]
    intro hnone hσ hσ'
    obtain ⟨hfound, hleave⟩ := hfresh hnone hσ hσ'
    exact h.fresh hnone hfound hleave
  · rw [hpickup]
    exact hstarting
  · rw [hnodes, hpickup]
    exact hexiting

theorem grow (h : BlockLog graph σ block lead passes marks) (hgrows : graph.Grows graph')
    (hcached : block.pickup.node.index < graph.numNodes →
      block.pickup.node.index ≤ graph.cursor.toNat)
    (hpickup : block'.pickup = block.pickup) (hbase : block'.base = block.base) :
    BlockLog graph' σ block' lead passes marks := by
  refine h.keep hgrows hpickup (by rw [hbase]) rfl id (fun _ hfound hleave => ⟨hfound, hleave⟩)
    (fun held hlead hnone => ?_) h.exiting
  obtain ⟨hnode, -⟩ := h.held (.inr (by rw [hlead]; rfl))
  exact (h.starting held hlead (hbase ▸ hnone)).trans (hgrows.claimed_le _ (hcached hnode))

/-- A pass ends: its start has been noted or is noted now, and so is its end if it waited. -/
theorem close (h : BlockLog graph σ block lead passes marks) (hgrows : graph.Grows graph')
    (hheld : isOpen σ lead block.base = true ∨ lead.isPicking = true)
    (hcached : block.pickup = graph.pickup block.pickup.node.index ∧
      block.pickup.node.index ≤ graph.cursor.toNat)
    (hwaited : waited = false → 2 ^ 32 - 1 ≤ graph.claimed block.pickup.node.index)
    (hpickup : block'.pickup = block.pickup)
    (hopen : isOpen σ' lead' block'.base = false) (hpicking : lead'.isPicking = false)
    (hexit : ∀ cursor, lead' ≠ .noteExit cursor) (hleft : σ ≠ leave ∧ σ' ≠ leave)
    (hmore : more = (if isOpen σ lead block.base then [] else [block.pickup.mark .blockStart]) ++
      if waited then [block.pickup.mark .blockWait] else []) :
    BlockLog graph' σ' block' lead' (passes ++ [⟨block.pickup, waited⟩]) (marks ++ more) := by
  have hnodes := hgrows.specs.numNodes
  obtain ⟨hnode, hnewest⟩ := h.held hheld
  have hpass : Pass.IsOf graph ⟨block.pickup, waited⟩ := ⟨hnode, hcached.2, hcached.1, hwaited⟩
  have hnot : ¬ graph.numNodes ≤ block.pickup.node.index := Nat.not_le.2 hnode
  have hstays : ∀ {σ lead}, σ ≠ leave → hasLeft graph.numNodes σ lead block.pickup = false := by
    intro σ lead hσ
    simp [hasLeft, hσ, hnode]
  refine ⟨?_, fun a ha => ?_, ?_, fun a ha => ?_, fun hheld => ?_, ?_, fun held hlead => ?_,
    fun cursor hlead => absurd hlead (hexit cursor)⟩
  · rw [hnodes, hpickup, hopen, hstays hleft.2, h.marks_eq, hstays hleft.1, hmore]
    by_cases hwas : isOpen σ lead block.base = true <;> simp [hwas, Pass.marks]
  · rcases List.mem_append.1 ha with ha | ha
    · exact (h.isOf a ha).grow hgrows
    · rw [List.mem_singleton.1 ha]
      exact hpass.grow hgrows
  · refine List.pairwise_append.2 ⟨h.increasing, List.pairwise_singleton _ _, fun a ha b hb => ?_⟩
    rw [List.mem_singleton.1 hb]
    exact hnewest a ha
  · rw [hpickup]
    rcases List.mem_append.1 ha with ha | ha
    · exact h.upto a ha
    · rw [List.mem_singleton.1 ha]
  · rw [hopen, hpicking] at hheld
    simp at hheld
  · rw [hnodes, hpickup]
    exact fun hnone => absurd hnone hnot
  · rw [hlead] at hpicking
    contradiction

theorem silent (h : BlockLog graph σ block lead passes marks) :
    BlockLog graph σ block lead passes (marks ++ []) := by
  rwa [List.append_nil]

/-- A move that concerns neither the node of a block nor the search for one. -/
theorem quiet (h : BlockLog graph σ block lead passes marks) (hgrows : graph.Grows graph')
    (hpickup : block'.pickup = block.pickup) (hbase : block'.base = block.base)
    (hlead : lead.isSearching = false) (hlead' : lead'.isSearching = false)
    (hσ : σ' = σ ∨ σ = Stage.collect ∧ σ' = settled) :
    BlockLog graph' σ' block' lead' passes marks := by
  refine h.keep hgrows hpickup ?_ ?_ (fun hpicking => ?_) (fun _ hfound hleave => ?_)
    (fun held hcase => ?_) (fun cursor hcase => ?_)
  · rcases hσ with rfl | ⟨rfl, rfl⟩ <;> simp [isOpen, hbase, hlead, hlead']
  · rcases hσ with rfl | ⟨rfl, rfl⟩ <;> simp [hasLeft, hlead, hlead']
  · cases lead' <;> contradiction
  · rcases hσ with rfl | ⟨rfl, rfl⟩
    · exact ⟨hfound, hleave⟩
    · exact ⟨by simp, by simp⟩
  · rw [hcase] at hlead'
    contradiction
  · rw [hcase] at hlead'
    contradiction

/-- A search ends at the end of the graph, which takes the place of a node. -/
theorem searchDone {held cursor : NodeId}
    (h : BlockLog graph search block (.readCursor held) passes marks)
    (hend : cursor = ⟨UInt32.ofNat graph.numNodes⟩) (hdone : graph.numNodes ≤ cursor.index) :
    BlockLog graph found
      { block with pickup := { block.pickup with node := cursor }, base := noWork }
      (.noteExit cursor) passes marks := by
  refine ⟨?_, h.isOf, h.increasing, fun a ha => ?_, ?_, ?_, by simp, ?_⟩
  · simpa [isOpen, hasLeft, Phase.isSearching] using h.marks_eq
  · exact (h.isOf a ha).lt_numNodes.le.trans hdone
  · simp [isOpen, Phase.isPicking]
  · exact fun _ hfound => absurd rfl hfound
  · intro cursor' hcase
    obtain rfl := Phase.noteExit.inj hcase
    exact ⟨hend, hdone⟩

/-- A node is picked up that lies behind those of all passes. -/
theorem searchPickUp {cursor : NodeId}
    (h : BlockLog graph search block (.pickUp cursor) passes marks)
    (hnode : cursor.index < graph.numNodes)
    (hahead : block.pickup.node.index < graph.numNodes →
      block.pickup.node.index < cursor.index) :
    BlockLog graph search { block with pickup := graph.pickup cursor.index }
      (.claimFirst (graph.pickup cursor.index)) passes marks := by
  have hnewest : ∀ a ∈ passes, a.pickup.node.index < cursor.index := by
    intro a ha
    by_cases hreal : block.pickup.node.index < graph.numNodes
    · exact (h.upto a ha).trans_lt (hahead hreal)
    · rw [h.fresh (Nat.le_of_not_lt hreal) (by simp) (by simp)] at ha
      exact absurd ha List.not_mem_nil
  refine ⟨?_, h.isOf, h.increasing, fun a ha => ?_, fun _ => ?_, ?_, by simp, by simp⟩
  · simpa [isOpen, hasLeft, Phase.isSearching] using h.marks_eq
  · rw [TaskGraph.pickup_node_index]
    exact (hnewest a ha).le
  · rw [TaskGraph.pickup_node_index]
    exact ⟨hnode, hnewest⟩
  · rw [TaskGraph.pickup_node_index]
    exact fun hnone => absurd hnone (Nat.not_le.2 hnode)

/-- The note of the exit is the last. -/
theorem foundExit {cursor : NodeId} (h : BlockLog graph found block (.noteExit cursor) passes marks)
    (hbase : block.base = noWork) :
    BlockLog graph found block (.enter .nodeLeave) passes (marks ++ [.exit cursor]) := by
  obtain ⟨rfl, hnone⟩ := h.exiting cursor rfl
  refine ⟨?_, h.isOf, h.increasing, h.upto, ?_, fun _ hfound => absurd rfl hfound,
    by simp, by simp⟩
  · simp [isOpen, hasLeft, hbase, Phase.isSearching, hnone, h.marks_eq]
  · simp [isOpen, hbase, Phase.isPicking]

/-- The note of the start opens a pass of a block that has work. -/
theorem foundStart {held : Pickup}
    (h : BlockLog graph found block (.noteStart held) passes marks) (hwork : block.base ≠ noWork) :
    BlockLog graph found block (.enter .nodeLeave) passes
      (marks ++ [block.pickup.mark .blockStart]) := by
  obtain ⟨hnode, hnewest⟩ := h.held (.inr rfl)
  refine ⟨?_, h.isOf, h.increasing, h.upto, fun _ => ⟨hnode, hnewest⟩,
    fun _ hfound => absurd rfl hfound, by simp, by simp⟩
  simp [isOpen, hasLeft, hwork, Phase.isSearching, h.marks_eq, hnode]

theorem le_claimed_of_noWork {id : NodeId} {batch base : UInt32}
    (hclaim : graph.Claim id batch base graph') (hbase : base = noWork) :
    2 ^ 32 - 1 ≤ graph.claimed id.index := by
  have heq := hclaim.base_eq
  have hmin := Nat.min_le_left (graph.claimed id.index) (2 ^ 32 - 1)
  rw [hbase] at heq
  exact (le_of_eq heq).trans hmin

/-- A move of a leader keeps the log of its block, with what it notes at the end. -/
theorem turn {place : Nat → Phase} {q p : Phase} (hleader : c.isLeader g = true)
    (hturn : Turn c g s (s.block (c.blockOf g)) σ q σ' p block' graph) (hplace : place g = q)
    (hgrows : s.graph.Grows graph) (hcursor : s.graph.cursor.toNat ≤ s.graph.numNodes)
    (hreads : Reads c s.graph (c.blockOf g) σ (s.block (c.blockOf g)) place)
    (hfits : σ.Fits s.graph.numNodes c.lanesPerGroup (s.block (c.blockOf g)).pickup
      (s.block (c.blockOf g)).base)
    (h : BlockLog s.graph σ (s.block (c.blockOf g)) q passes marks) :
    ∃ passes', BlockLog graph σ' block' p passes'
      (marks ++ passMarks (s.block (c.blockOf g)) q) := by
  have hlead := LaunchConfig.groupAt_of_isLeader hleader
  cases hturn with
  | searchLeave =>
      by_cases hbase : (s.block (c.blockOf g)).base = noWork
      · rw [passMarks, if_pos hbase]
        exact ⟨passes, silent (h.keep hgrows rfl (by simp [isOpen, hbase]) rfl
          (by simp [Phase.isPicking]) (fun _ hfound hleave => ⟨hfound, hleave⟩) (by simp)
          (by simp))⟩
      · have hopen : isOpen search .noteLeave (s.block (c.blockOf g)).base = true := by
          simp [isOpen, hbase, Phase.isSearching]
        refine ⟨passes ++ [⟨_, true⟩], h.close hgrows (.inl hopen)
          (hreads.cached (h.held (.inl hopen)).1) (by simp) rfl
          (by simp [isOpen, Phase.isSearching]) rfl (by simp) ⟨by simp, by simp⟩ ?_⟩
        simp [passMarks, hbase, hopen]
  | searchSame _ hopen hsame =>
      refine ⟨passes, silent (h.keep hgrows rfl (by simp [isOpen, Phase.isSearching]) ?_
        (by simp [Phase.isPicking]) (fun _ hfound => absurd rfl hfound) (by simp) (by simp))⟩
      rw [hsame] at hopen
      simp only [hasLeft, reduceCtorEq, false_and, or_false, false_or, decide_false,
        decide_eq_false_iff_not]
      exact fun hdone => hopen hdone.2.1
  | searchNew _ hopen hnew =>
      exact ⟨passes, silent (h.keep hgrows rfl (by simp [isOpen, Phase.isSearching]) rfl
        (by simp [Phase.isPicking]) (fun _ hfound hleave => ⟨hfound, hleave⟩) (by simp) (by simp))⟩
  | searchClaim _ hnode hclaim =>
      obtain ⟨-, hclaim⟩ := TaskGraph.claim_cases hclaim
      refine ⟨passes, silent (h.keep hgrows rfl (by simp [isOpen, Phase.isSearching]) ?_
        (fun _ => rfl) (fun _ hfound => absurd rfl hfound) (fun _ _ hbase => ?_) (by simp))⟩
      · simp [hasLeft, Phase.isSearching]
      · exact (le_claimed_of_noWork hclaim hbase).trans
          (hgrows.claimed_le _ (hreads.cached hnode).2)
  | @claim _ base _ hclaim =>
      obtain ⟨-, hclaim⟩ := TaskGraph.claim_cases hclaim
      have hopen : isOpen Stage.claim (.claimForBlock (s.block (c.blockOf g)).pickup)
          (s.block (c.blockOf g)).base = true := by
        simp [isOpen, hfits.1, Phase.isSearching]
      by_cases hbase : base = noWork
      · refine ⟨passes ++ [⟨_, false⟩], h.close hgrows (.inl hopen) (hreads.cached hfits.2.2)
          (fun _ => le_claimed_of_noWork hclaim hbase) ?_ ?_ ?_ (by simp) ⟨by simp, by simp⟩ ?_⟩
        · rfl
        · simp [isOpen, hbase]
        · rfl
        · simp [passMarks, hopen]
      · refine ⟨passes, silent (h.keep hgrows rfl ?_ ?_ (by simp [Phase.isPicking])
          (fun _ _ _ => ⟨by simp, by simp⟩) (by simp) (by simp))⟩
        · simp [isOpen, hbase, hfits.1, Phase.isSearching]
        · simp [hasLeft]
  | searchDone _ hdone =>
      have hend : s.graph.cursor = UInt32.ofNat s.graph.numNodes := by
        rw [← Nat.le_antisymm hcursor hdone, UInt32.ofNat_toNat]
      exact ⟨passes, silent (h.searchDone (congrArg NodeId.mk hend) hdone)⟩
  | @searchPickUp _ cursor hnode =>
      have hahead := (hreads.ahead cursor (by rw [hlead, hplace])).2
      exact ⟨passes, silent (h.searchPickUp hnode hahead)⟩
  | @foundExit _ cursor =>
      have hnone := (h.exiting cursor rfl).2
      exact ⟨passes, h.foundExit (hfits.resolve_left (Nat.not_lt.2 hnone))⟩
  | foundStart =>
      by_cases hbase : (s.block (c.blockOf g)).base = noWork
      · obtain ⟨hnode, -⟩ := h.held (.inr rfl)
        refine ⟨passes ++ [⟨_, false⟩], h.close hgrows (.inr rfl) (hreads.cached hnode)
          (fun _ => h.starting _ rfl hbase) rfl (by simp [isOpen, hbase]) rfl (by simp)
          ⟨by simp, by simp⟩ ?_⟩
        simp [passMarks, isOpen, Phase.isSearching]
      · exact ⟨passes, h.foundStart hbase⟩
  | collectReport | collectReportFault =>
      exact ⟨passes, silent (h.quiet hgrows rfl rfl rfl rfl (.inr ⟨rfl, rfl⟩))⟩
  | _ => exact ⟨passes, silent (h.quiet hgrows rfl rfl rfl rfl (.inl rfl))⟩

theorem isSearching_afterSite (leader : Bool) (site : Site) :
    (afterSite leader site).isSearching = false := by
  cases site <;> cases leader <;> rfl

/-- The groups of a block meet. -/
theorem meet {site : Site} {first : UInt32}
    (h : BlockLog graph σ block (.enter site) passes marks)
    (hleader : Admits graph.numNodes true first block.pickup block.base σ (.enter site))
    (hfits : σ.Fits graph.numNodes c.lanesPerGroup block.pickup block.base)
    (hpickup : block'.pickup = block.pickup) (hbase : block'.base = block.base) :
    BlockLog graph (after graph.numNodes c.lanesPerGroup block.pickup block.base site) block'
      (afterSite true site) passes marks := by
  have hsearching := isSearching_afterSite true site
  have hentered : (Phase.enter site).isSearching = false := rfl
  have hafter : σ ≠ leave ∧
      after graph.numNodes c.lanesPerGroup block.pickup block.base site ≠ found ∧
      (after graph.numNodes c.lanesPerGroup block.pickup block.base site = leave ↔
        σ = found ∧ graph.numNodes ≤ block.pickup.node.index) := by
    cases hleader with
    | enterFound =>
        rcases after_nodeLeave_cases graph.numNodes c.lanesPerGroup block.pickup block.base with
          ⟨hdone, h⟩ | ⟨hnode, -, h⟩ | ⟨hnode, -, -, h⟩ | ⟨hnode, -, -, h⟩ <;> simp [*]
    | enterClaimed =>
        rcases after_claimLeave_cases graph.numNodes c.lanesPerGroup block.pickup block.pickup
          block.base with ⟨-, h⟩ | ⟨-, h⟩ <;> simp [h]
    | enterStart | enterSeek | enterNarrow | enterSpent | enterWide | enterSettled =>
        simp [after]
    | enterSearch _ | enterCollect _ | enterClaim _ | gone _ _ _ _ => contradiction
  obtain ⟨hleave, hfound, hleaves⟩ := hafter
  have hnone : σ = found ∧ graph.numNodes ≤ block.pickup.node.index → block.base = noWork := by
    rintro ⟨rfl, hdone⟩
    exact hfits.resolve_left (Nat.not_lt.2 hdone)
  refine h.keep (.refl graph) hpickup ?_ ?_ (fun hpicking => ?_) (fun hdone _ hstays => ?_)
    (fun held hcase => ?_) (fun cursor hcase => ?_)
  · simp only [isOpen, hbase, hsearching, hentered, hleaves, hleave, ne_eq, not_false_eq_true,
      and_true, decide_eq_decide, and_iff_left_iff_imp]
    exact fun hwork hdone => hwork (hnone hdone)
  · simp [hasLeft, hfound, hentered, hleaves, hleave]
  · cases site <;> contradiction
  · exact ⟨fun hσ => hstays (hleaves.2 ⟨hσ, hdone⟩), hleave⟩
  · rw [hcase] at hsearching
    contradiction
  · rw [hcase] at hsearching
    contradiction

/-- A run has just started, and no block has picked up a node. -/
theorem start (hbase : block.base = noWork) (hlead : lead.isSearching = false) :
    BlockLog graph gather block lead [] [] := by
  refine ⟨?_, by simp, List.Pairwise.nil, by simp, fun hheld => ?_, fun _ _ _ => rfl,
    fun held hcase => ?_, fun cursor hcase => ?_⟩
  · simp [isOpen, hasLeft, hbase]
  · rcases hheld with hopen | hpicking
    · simp [isOpen, hbase] at hopen
    · cases lead <;> contradiction
  · rw [hcase] at hlead
    contradiction
  · rw [hcase] at hlead
    contradiction

/-- What the trace tells in the end of a block that has left. -/
theorem marks_of_leave (h : BlockLog graph leave block lead passes marks) :
    marks = passes.flatMap Pass.marks ++ [.exit ⟨UInt32.ofNat graph.numNodes⟩] := by
  rw [h.marks_eq]
  simp [isOpen, hasLeft]

end BlockLog
end LaunchState
end Lockstep
