import Lockstep.Proofs.Launch.Coherence
import Lockstep.Proofs.TaskGraph.Order

/-!
# What the blocks know of the graph

A block works from its own notes, which may be older than the graph.  They stay right
all the same: what has been noted of a node never changes, and a block that stops
claiming of its node has seen that no offset is left.
-/

namespace Lockstep
namespace LaunchState

open Stage

variable {η : Type} {c : LaunchConfig} {s : LaunchState η} {g b : Nat}

/-- Whether the stage and the places of a block tell that all offsets of its node have
been claimed. -/
def IsSpent (c : LaunchConfig) (b : Nat) (block : BlockState) (place : Nat → Phase) :
    Stage → Prop
  | .seek | .spent => True
  | .narrow => ∃ g ∈ c.party (some b), place g = .enter .nodeEnter
  | .search => ∀ held, place (c.groupAt b 0) ≠ .claimFirst held
  | .found => block.base = noWork
  | .claimed => block.pickup.total ≤ block.base
  | _ => False

/-- What holds between the notes of a block and the graph. -/
structure Reads (c : LaunchConfig) (graph : TaskGraph η) (b : Nat) (σ : Stage)
    (block : BlockState) (place : Nat → Phase) : Prop where
  cached : block.pickup.node.index < graph.numNodes →
    block.pickup = graph.pickup block.pickup.node.index ∧
      block.pickup.node.index ≤ graph.cursor.toNat
  fresh : σ = gather → graph.numNodes ≤ block.pickup.node.index
  done : graph.numNodes ≤ block.pickup.node.index → σ = found ∨ σ = leave →
    graph.numNodes ≤ graph.cursor.toNat
  ahead : ∀ cursor, place (c.groupAt b 0) = .pickUp cursor →
    cursor.index ≤ graph.cursor.toNat ∧ (block.pickup.node.index < graph.numNodes →
      block.pickup.node.index < cursor.index)
  spent : block.pickup.node.index < graph.numNodes → IsSpent c b block place σ →
    graph.total block.pickup.node.index ≤ graph.claimed block.pickup.node.index

/-- A group that stands where the group that has moved does not stand was there before. -/
theorem eq_of_update {place : Nat → Phase} {p q : Phase} {g' : Nat}
    (h : Function.update place g p g' = q) (hp : p ≠ q) : place g' = q := by
  by_cases hne : g' = g
  · rw [hne, Function.update_self] at h
    exact absurd h hp
  · rwa [Function.update_of_ne hne] at h

section Reading

variable {graph graph' : TaskGraph η} {σ σ' : Stage} {block block' : BlockState}
  {place place' : Nat → Phase} {q p : Phase}

theorem IsSpent.of_update (hp : p ≠ .enter .nodeEnter)
    (h : IsSpent c b block (Function.update place g p) narrow) :
    IsSpent c b block place narrow := by
  obtain ⟨g', hmem, hcase⟩ := h
  exact ⟨g', hmem, eq_of_update hcase hp⟩

theorem Reads.of_pickup (h : Reads c graph b σ block place) (hgrows : graph.Grows graph')
    (hpickup : block'.pickup = block.pickup) (hfresh : σ' = gather → σ = gather)
    (hdone : graph.numNodes ≤ block.pickup.node.index → σ' = found ∨ σ' = leave →
      σ = found ∨ σ = leave)
    (hahead : ∀ cursor, place' (c.groupAt b 0) = .pickUp cursor →
      cursor.index ≤ graph'.cursor.toNat ∧ (block.pickup.node.index < graph.numNodes →
        block.pickup.node.index < cursor.index))
    (hspent : block.pickup.node.index < graph.numNodes → IsSpent c b block' place' σ' →
      IsSpent c b block place σ ∨
        graph'.total block.pickup.node.index ≤ graph'.claimed block.pickup.node.index) :
    Reads c graph' b σ' block' place' := by
  have hnodes := hgrows.specs.numNodes
  have hcursor := hgrows.cursor_le
  refine ⟨?_, ?_, ?_, ?_, ?_⟩
  · rw [hpickup, hnodes]
    intro hnode
    obtain ⟨hcached, hle⟩ := h.cached hnode
    exact ⟨by rw [hgrows.pickup _ hle, ← hcached], hle.trans hcursor⟩
  · rw [hpickup, hnodes]
    exact fun hσ => h.fresh (hfresh hσ)
  · rw [hpickup, hnodes]
    exact fun hnode hσ => (h.done hnode (hdone hnode hσ)).trans hcursor
  · rw [hpickup, hnodes]
    exact hahead
  · rw [hpickup, hnodes]
    intro hnode hnow
    have hle := (h.cached hnode).2
    rcases hspent hnode hnow with hbefore | hclaimed
    · rw [hgrows.total hle]
      exact (h.spent hnode hbefore).trans (hgrows.claimed_le _ hle)
    · exact hclaimed

theorem Reads.grow (hpos : 0 < c.groupsPerBlock.toNat) (h : Reads c graph b σ block place)
    (hgrows : graph.Grows graph') (hpickup : block'.pickup = block.pickup)
    (hbase : block'.base = block.base) (hplace : ∀ g ∈ c.party (some b), place' g = place g) :
    Reads c graph' b σ block' place' := by
  have hlead : place' (c.groupAt b 0) = place (c.groupAt b 0) :=
    hplace _ ((LaunchConfig.mem_party_some hpos).2 (LaunchConfig.blockOf_groupAt hpos b hpos))
  refine h.of_pickup hgrows hpickup id (fun _ => id) (fun cursor hcase => ?_) fun _ hspent =>
    .inl ?_
  · rw [hlead] at hcase
    exact ⟨(h.ahead cursor hcase).1.trans hgrows.cursor_le, (h.ahead cursor hcase).2⟩
  · cases σ with
    | narrow =>
        obtain ⟨g, hmem, hcase⟩ := hspent
        exact ⟨g, hmem, by rw [← hplace g hmem, hcase]⟩
    | search => exact fun held => hlead ▸ hspent held
    | found => exact hbase.symm.trans hspent
    | claimed =>
        have hspent : block'.pickup.total ≤ block'.base := hspent
        rwa [hpickup, hbase] at hspent
    | _ => exact hspent

theorem Reads.ahead_of_update (h : Reads c graph b σ block place) (hgrows : graph.Grows graph')
    (hp : ∀ cursor, p ≠ .pickUp cursor) (cursor : NodeId)
    (hcase : Function.update place g p (c.groupAt b 0) = .pickUp cursor) :
    cursor.index ≤ graph'.cursor.toNat ∧ (block.pickup.node.index < graph.numNodes →
      block.pickup.node.index < cursor.index) := by
  have hold := eq_of_update hcase (hp cursor)
  exact ⟨(h.ahead cursor hold).1.trans hgrows.cursor_le, (h.ahead cursor hold).2⟩

theorem Reads.go_gone (h : Reads c graph b σ block place) (hp : p.isGone = true)
    (hled : g = c.groupAt b 0 → σ.isLed = false) :
    Reads c graph b σ block (Function.update place g p) := by
  refine h.of_pickup (.refl graph) rfl id (fun _ => id)
    (h.ahead_of_update (.refl graph) fun _ => Phase.ne_of_isGone hp rfl) fun _ hspent => .inl ?_
  cases σ with
  | narrow => exact IsSpent.of_update (Phase.ne_of_isGone hp rfl) hspent
  | search =>
      have hlead : c.groupAt b 0 ≠ g := fun hlead => absurd (hled hlead.symm) (by decide)
      simpa only [IsSpent, Function.update_of_ne hlead] using hspent
  | _ => exact hspent

/-- A claim that comes back empty tells that all offsets have been claimed. -/
theorem Reads.total_le_claimed (h : Reads c graph b σ block place) (hgrows : graph.Grows graph')
    {batch base : UInt32} (hclaim : graph.Claim block.pickup.node batch base graph')
    (hnode : block.pickup.node.index < graph.numNodes) (hspent : block.pickup.total ≤ base) :
    graph'.total block.pickup.node.index ≤ graph'.claimed block.pickup.node.index := by
  have hle := (h.cached hnode).2
  rw [hgrows.total hle, TaskGraph.total, ← (h.cached hnode).1]
  refine (UInt32.le_iff_toNat_le.1 hspent).trans (le_trans ?_ (hgrows.claimed_le _ hle))
  rw [hclaim.base_eq]
  exact Nat.min_le_left _ _

/-- A move keeps the notes of its block right. -/
theorem Reads.turn
    (hturn : Turn c g s (s.block (c.blockOf g)) σ q σ' p block' graph) (hplace : place g = q)
    (hbegun : q ≠ .init) (hgrows : s.graph.Grows graph)
    (hfits : σ.Fits s.graph.numNodes c.lanesPerGroup (s.block (c.blockOf g)).pickup
      (s.block (c.blockOf g)).base)
    (h : Reads c s.graph (c.blockOf g) σ (s.block (c.blockOf g)) place) :
    Reads c graph (c.blockOf g) σ' block' (Function.update place g p) := by
  have hahead := h.ahead_of_update (p := p) (g := g) hgrows
  -- A block in search of a node has given up its old one.
  have hsearch : c.isLeader g = true → (∀ held, q ≠ .claimFirst held) →
      IsSpent c (c.blockOf g) (s.block (c.blockOf g)) place search := by
    intro hleader hq held
    rw [LaunchConfig.groupAt_of_isLeader hleader, hplace]
    exact hq held
  cases hturn with
  | init | initFault => exact absurd rfl hbegun
  | seekDecide | seekIdle | seekReleased | seekFetch | foundExit | foundStart | wideDecide
  | wideRead | wideAssign | wideExecute | wideFault | wideExecuted | wideTally | collect
  | collectFetch | settledFetch | spentRead | leave =>
      exact h.of_pickup hgrows rfl id (fun _ => id) (hahead (by simp)) fun _ => .inl
  | narrowDecide | narrowAssign | narrowExecute | narrowFault | narrowExecuted | narrowTally
  | narrowReport | narrowReportFault | narrowFetch | narrowClaim =>
      exact h.of_pickup hgrows rfl id (fun _ => id) (hahead (by simp)) fun _ hspent =>
        .inl (IsSpent.of_update (by simp) hspent)
  | collectReport | collectReportFault =>
      refine h.of_pickup hgrows rfl (by simp) (fun _ hσ => ?_) (hahead (by simp)) fun _ hspent =>
        absurd hspent id
      rcases hσ with hσ | hσ <;> contradiction
  | narrowSpent hclaim hspent =>
      obtain ⟨-, hclaim⟩ := TaskGraph.claim_cases hclaim
      exact h.of_pickup hgrows rfl id (fun _ => id) (hahead (by simp)) fun hnode _ =>
        .inr (h.total_le_claimed hgrows hclaim hnode hspent)
  | searchLeave hleader =>
      exact h.of_pickup hgrows rfl id (fun _ => id) (hahead (by simp)) fun _ _ =>
        .inl (hsearch hleader (by simp))
  | searchNew hleader hcursor hnew =>
      have hlead := LaunchConfig.groupAt_of_isLeader hleader
      refine h.of_pickup hgrows rfl id (fun _ => id) (fun cursor hcase => ?_) fun _ _ =>
        .inl (hsearch hleader (by simp))
      rw [hlead, Function.update_self] at hcase
      obtain rfl := Phase.pickUp.inj hcase
      refine ⟨Nat.le_refl _, fun hnode => lt_of_le_of_ne (h.cached hnode).2 fun heq => hnew ?_⟩
      exact UInt32.toNat_inj.1 heq.symm
  | searchSame hleader hcursor hsame =>
      refine h.of_pickup hgrows rfl (by simp) (fun hnode _ => ?_) (hahead (by simp)) fun _ _ =>
        .inl (hsearch hleader (by simp))
      rw [hsame] at hcursor
      exact absurd hnode hcursor
  | @searchDone hleader hdone =>
      have hlead := LaunchConfig.groupAt_of_isLeader hleader
      refine ⟨fun hnode => absurd hdone (Nat.not_le.2 hnode), by simp, fun _ _ => hdone,
        fun cursor hcase => ?_, fun hnode => absurd hdone (Nat.not_le.2 hnode)⟩
      rw [hlead, Function.update_self] at hcase
      exact absurd hcase (by simp)
  | @searchPickUp hleader cursor hcursor =>
      have hlead := LaunchConfig.groupAt_of_isLeader hleader
      have hle := (h.ahead cursor (by rw [hlead, hplace])).1
      refine ⟨fun _ => ?_, by simp, by simp, fun other hcase => ?_, fun _ hspent => ?_⟩
      · rw [TaskGraph.pickup_node_index]
        exact ⟨rfl, hle⟩
      · rw [hlead, Function.update_self] at hcase
        exact absurd hcase (by simp)
      · have hspent := hspent (s.graph.pickup cursor.index)
        rw [hlead, Function.update_self] at hspent
        exact absurd rfl hspent
  | searchClaim hleader hnode hclaim =>
      obtain ⟨-, hclaim⟩ := TaskGraph.claim_cases hclaim
      refine h.of_pickup hgrows rfl (by simp) (fun hnone _ => ?_) (hahead (by simp))
        fun _ hspent => .inr ?_
      · exact absurd hnone (Nat.not_le.2 hnode)
      · apply h.total_le_claimed hgrows hclaim hnode
        have hbase : _ = noWork := hspent
        exact (le_noWork _).trans_eq hbase.symm
  | claim _ hclaim =>
      obtain ⟨-, hclaim⟩ := TaskGraph.claim_cases hclaim
      refine h.of_pickup hgrows rfl (by simp) (fun hnone _ => ?_) (hahead (by simp))
        fun hnode hspent => .inr ?_
      · exact absurd hnone (Nat.not_le.2 hfits.2.2)
      · exact h.total_le_claimed hgrows hclaim hnode hspent

theorem Reads.meet {site : Site} {first : UInt32} (hpos : 0 < c.groupsPerBlock.toNat)
    (h : Reads c graph b σ block place) (hpickup : block'.pickup = block.pickup)
    (hleader : Admits graph.numNodes true first block.pickup block.base σ (.enter site))
    (hfits : σ.Fits graph.numNodes c.lanesPerGroup block.pickup block.base)
    (hplace : ∀ g ∈ c.party (some b), place g = .enter site)
    (hplace' : ∀ g ∈ c.party (some b), place' g = afterSite (c.isLeader g) site) :
    Reads c graph b (after graph.numNodes c.lanesPerGroup block.pickup block.base site) block'
      place' := by
  have hlead : c.groupAt b 0 ∈ c.party (some b) :=
    (LaunchConfig.mem_party_some hpos).2 (LaunchConfig.blockOf_groupAt hpos b hpos)
  have hahead : ∀ cursor, place' (c.groupAt b 0) ≠ .pickUp cursor := by
    intro cursor
    rw [hplace' _ hlead]
    cases site <;> simp only [afterSite] <;> (try split) <;> simp
  have hold : place (c.groupAt b 0) = .enter site := hplace _ hlead
  refine h.of_pickup (.refl graph) hpickup (fun hσ => absurd hσ (after_ne_gather _ _ _ _ _))
    (fun hnone hσ => ?_) (fun cursor hcase => absurd hcase (hahead cursor)) fun hnode hspent => ?_
  · cases hleader with
    | enterFound => exact .inl rfl
    | enterStart | enterSeek | enterNarrow | enterWide | enterSettled | enterSpent =>
        rcases hσ with hσ | hσ <;> contradiction
    | enterClaimed => exact absurd hnone (Nat.not_le.2 hfits.2)
    | enterSearch _ | enterCollect _ | enterClaim _ | gone _ _ _ _ => contradiction
  · cases hleader with
    | enterStart => exact absurd (h.fresh rfl) (Nat.not_le.2 hnode)
    | enterSeek | enterSpent => exact .inl trivial
    | enterNarrow => exact .inl ⟨_, hlead, hold⟩
    | enterFound =>
        rcases after_nodeLeave_cases graph.numNodes c.lanesPerGroup block.pickup block.base with
          ⟨-, h⟩ | ⟨-, hbase, -⟩ | ⟨-, -, -, h⟩ | ⟨-, -, -, h⟩
        · rw [h] at hspent
          exact absurd hspent id
        · exact .inl hbase
        · rw [h] at hspent
          exact absurd hspent id
        · rw [h] at hspent
          obtain ⟨g, hmem, hcase⟩ := hspent
          rw [hplace' g hmem] at hcase
          exact absurd hcase (by simp [afterSite])
    | enterWide | enterSettled => exact absurd hspent id
    | enterClaimed =>
        rcases after_claimLeave_cases graph.numNodes c.lanesPerGroup block.pickup block.pickup
          block.base with ⟨hbase, -⟩ | ⟨-, h⟩
        · exact .inl hbase
        · rw [h] at hspent
          exact absurd hspent id
    | enterSearch _ | enterCollect _ | enterClaim _ | gone _ _ _ _ => contradiction

end Reading

end LaunchState
end Lockstep
