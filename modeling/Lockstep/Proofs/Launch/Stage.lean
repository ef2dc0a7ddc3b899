import Lockstep.Proofs.Launch.Place

/-!
# Stages of a block

Between two meetings at its barrier a block is in one stage, which tells what each of
its groups may be doing and which site they come to next.  The stage is not part of the
state: it follows the steps of the leader and the meetings.
-/

namespace Lockstep

/-- What a block is about, from one meeting of its groups to the next.  A block without work
`seek`s.  The leader looks for a node in `search` and has looked in `found`.  In `narrow` the
groups claim and report for themselves.  A `wide` pass serves one claim together; the leader
reports it in `collect` and has done so in `settled`, it claims the next one in `claim` and
has done so in `claimed`, and the block is `spent` when that claim came back empty. -/
inductive Stage where
  | gather
  | seek
  | narrow
  | search
  | found
  | wide
  | collect
  | settled
  | claim
  | claimed
  | spent
  | leave
deriving DecidableEq

namespace Stage

/-- The stage that begins when the groups of a block have met at a site. -/
def after (numNodes : Nat) (lanes : UInt32) (p : Pickup) (base : UInt32) : Site → Stage
  | .start => seek
  | .nodeEnter => search
  | .nodeLeave =>
      if numNodes ≤ p.node.index then leave
      else if base = noWork then seek
      else if lanes < p.threadsPerInvocation then wide
      else narrow
  | .finish _ => collect
  | .claimEnter _ => claim
  | .claimLeave _ => if p.total ≤ base then spent else wide

theorem after_ne_gather (numNodes : Nat) (lanes : UInt32) (p : Pickup) (base : UInt32)
    (site : Site) : after numNodes lanes p base site ≠ gather := by
  cases site <;> simp only [after] <;> (repeat' split) <;> exact fun h => Stage.noConfusion h

/-- What a block does next depends on the node that its leader found. -/
theorem after_nodeLeave_cases (numNodes : Nat) (lanes : UInt32) (p : Pickup) (base : UInt32) :
    (numNodes ≤ p.node.index ∧ after numNodes lanes p base .nodeLeave = leave) ∨
      (p.node.index < numNodes ∧ base = noWork ∧ after numNodes lanes p base .nodeLeave = seek) ∨
      (p.node.index < numNodes ∧ base ≠ noWork ∧ lanes < p.threadsPerInvocation ∧
        after numNodes lanes p base .nodeLeave = wide) ∨
      (p.node.index < numNodes ∧ base ≠ noWork ∧ ¬ lanes < p.threadsPerInvocation ∧
        after numNodes lanes p base .nodeLeave = narrow) := by
  simp only [after]
  split
  · rename_i hdone
    exact .inl ⟨hdone, rfl⟩
  · rename_i hnode
    refine .inr ?_
    have hnode := Nat.lt_of_not_le hnode
    split
    · rename_i hbase
      exact .inl ⟨hnode, hbase, rfl⟩
    · rename_i hbase
      refine .inr ?_
      split
      · rename_i hwide
        exact .inl ⟨hnode, hbase, hwide, rfl⟩
      · rename_i hnarrow
        exact .inr ⟨hnode, hbase, hnarrow, rfl⟩

theorem after_claimLeave_cases (numNodes : Nat) (lanes : UInt32) (p held : Pickup)
    (base : UInt32) :
    (p.total ≤ base ∧ after numNodes lanes p base (.claimLeave held) = spent) ∨
      (¬ p.total ≤ base ∧ after numNodes lanes p base (.claimLeave held) = wide) := by
  simp only [after]
  split
  · rename_i hspent
    exact .inl ⟨hspent, rfl⟩
  · rename_i hwork
    exact .inr ⟨hwork, rfl⟩

/-- What holds of the pickup and the base of a block in a stage. -/
def Fits (numNodes : Nat) (lanes : UInt32) (p : Pickup) (base : UInt32) : Stage → Prop
  | gather | seek => base = noWork
  | narrow => base ≠ noWork ∧ ¬ lanes < p.threadsPerInvocation ∧ p.node.index < numNodes
  | search => True
  | found => p.node.index < numNodes ∨ base = noWork
  | wide | collect | settled | claim =>
      base ≠ noWork ∧ lanes < p.threadsPerInvocation ∧ p.node.index < numNodes
  | claimed => lanes < p.threadsPerInvocation ∧ p.node.index < numNodes
  | spent => lanes < p.threadsPerInvocation ∧ p.node.index < numNodes ∧ p.total ≤ base
  | leave => numNodes ≤ p.node.index

/-- The stages in which the others depend on what the leader does next.  The leader
cannot fault in them. -/
def isLed : Stage → Bool
  | search | collect | claim => true
  | _ => false

/-- Where a group may stand in a stage of its block, which has picked up `p` and last
claimed `base`.  The group's lanes count their threads from `first` on. -/
inductive Admits (numNodes : Nat) (leader : Bool) (first : UInt32) (p : Pickup) (base : UInt32) :
    Stage → Phase → Prop where
  | init : Admits numNodes leader first p base gather .init
  | enterStart : Admits numNodes leader first p base gather (.enter .start)
  | decideSeek (h : p.node.index < numNodes) : Admits numNodes leader first p base seek .decide
  | idle : Admits numNodes leader first p base seek .idle
  | fetchSeek : Admits numNodes leader first p base seek .fetch
  | enterSeek : Admits numNodes leader first p base seek (.enter .nodeEnter)
  | decideNarrow : Admits numNodes leader first p base narrow .decide
  | assignNarrow (own count : UInt32) :
      Admits numNodes leader first p base narrow (.assign p.node own count)
  | executeNarrow (pending : List (UInt32 × Work)) (executed : LaneMask) :
      Admits numNodes leader first p base narrow (.execute pending executed)
  | tallyNarrow (executed : LaneMask) :
      Admits numNodes leader first p base narrow (.tally executed)
  | reportNarrow (finished : UInt32) :
      Admits numNodes leader first p base narrow (.report p.node finished)
  | fetchNarrow : Admits numNodes leader first p base narrow .fetch
  | claimForGroup : Admits numNodes leader first p base narrow (.claimForGroup p)
  | enterNarrow : Admits numNodes leader first p base narrow (.enter .nodeEnter)
  | noteLeave (h : leader = true) : Admits numNodes leader first p base search .noteLeave
  | readCursor (h : leader = true) :
      Admits numNodes leader first p base search (.readCursor p.node)
  | pickUp (h : leader = true) (cursor : NodeId) (hcursor : cursor.index < numNodes) :
      Admits numNodes leader first p base search (.pickUp cursor)
  | claimFirst (h : leader = true) (hnode : p.node.index < numNodes) :
      Admits numNodes leader first p base search (.claimFirst p)
  | enterSearch (h : leader = false) :
      Admits numNodes leader first p base search (.enter .nodeLeave)
  | noteExit (h : leader = true) (cursor : NodeId) :
      Admits numNodes leader first p base found (.noteExit cursor)
  | noteStart (h : leader = true) : Admits numNodes leader first p base found (.noteStart p)
  | enterFound : Admits numNodes leader first p base found (.enter .nodeLeave)
  | decideWide : Admits numNodes leader first p base wide .decide
  | readBaseWide (h : ¬ p.total ≤ base) :
      Admits numNodes leader first p base wide (.readBase p)
  | assignWide : Admits numNodes leader first p base wide (.assign p.node base first)
  | executeWide (pending : List (UInt32 × Work)) (executed : LaneMask) :
      Admits numNodes leader first p base wide (.execute pending executed)
  | tallyWide (executed : LaneMask) : Admits numNodes leader first p base wide (.tally executed)
  | enterWide : Admits numNodes leader first p base wide (.enter (.finish p))
  | collect (h : leader = true) : Admits numNodes leader first p base collect (.collect p)
  | reportCollect (h : leader = true) (finished : UInt32) :
      Admits numNodes leader first p base collect (.report p.node finished)
  | fetchCollect (h : leader = false) : Admits numNodes leader first p base collect .fetch
  | enterCollect (h : leader = false) :
      Admits numNodes leader first p base collect (.enter (.claimEnter p))
  | fetchSettled : Admits numNodes leader first p base settled .fetch
  | enterSettled : Admits numNodes leader first p base settled (.enter (.claimEnter p))
  | claimForBlock (h : leader = true) :
      Admits numNodes leader first p base claim (.claimForBlock p)
  | enterClaim (h : leader = false) :
      Admits numNodes leader first p base claim (.enter (.claimLeave p))
  | enterClaimed : Admits numNodes leader first p base claimed (.enter (.claimLeave p))
  | readBaseSpent : Admits numNodes leader first p base spent (.readBase p)
  | enterSpent : Admits numNodes leader first p base spent (.enter .nodeEnter)
  | decideLeave : Admits numNodes leader first p base leave .decide
  | exited : Admits numNodes leader first p base leave .exited
  | gone (stage : Stage) (phase : Phase) (hphase : phase.isGone = true)
      (hleader : leader = false ∨ stage.isLed = false) :
      Admits numNodes leader first p base stage phase

section Admits

variable {numNodes : Nat} {leader : Bool} {first lanes base : UInt32} {p : Pickup} {stage : Stage}

theorem Admits.site_eq {leader' : Bool} {first' : UInt32} {site site' : Site}
    (h : Admits numNodes leader first p base stage (.enter site))
    (h' : Admits numNodes leader' first' p base stage (.enter site')) : site = site' := by
  cases h <;> cases h' <;> first | rfl | contradiction

theorem Admits.not_led {site : Site} (h : Admits numNodes leader first p base stage (.enter site)) :
    leader = false ∨ stage.isLed = false := by
  cases h <;> first | exact .inr rfl | exact .inl ‹_› | contradiction

theorem Admits.not_led_of_isGone {phase : Phase}
    (h : Admits numNodes leader first p base stage phase) (hphase : phase.isGone = true) :
    leader = false ∨ stage.isLed = false := by
  cases h <;> first | assumption | contradiction

/-- While the leader of a block looks for a node, the others wait for it, whatever it
notes for the block. -/
theorem Admits.of_search {p' : Pickup} {base' : UInt32} {phase : Phase}
    (h : Admits numNodes false first p base search phase) :
    Admits numNodes false first p' base' search phase ∧
      Admits numNodes false first p' base' found phase := by
  cases h with
  | enterSearch _ => exact ⟨.enterSearch rfl, .enterFound⟩
  | gone _ _ hphase _ => exact ⟨.gone _ _ hphase (.inl rfl), .gone _ _ hphase (.inl rfl)⟩
  | _ => contradiction

theorem Admits.of_claim {base' : UInt32} {phase : Phase}
    (h : Admits numNodes false first p base claim phase) :
    Admits numNodes false first p base' claimed phase := by
  cases h with
  | enterClaim _ => exact .enterClaimed
  | gone _ _ hphase _ => exact .gone _ _ hphase (.inl rfl)
  | _ => contradiction

theorem Admits.of_collect {phase : Phase}
    (h : Admits numNodes false first p base Stage.collect phase) :
    Admits numNodes false first p base settled phase := by
  cases h with
  | fetchCollect _ => exact .fetchSettled
  | enterCollect _ => exact .enterSettled
  | gone _ _ hphase _ => exact .gone _ _ hphase (.inl rfl)
  | _ => contradiction

/-- A stage in which the leader comes to a barrier may end, and what the groups do next
belongs to the stage that follows. -/
theorem Admits.afterSite {first' : UInt32} {site : Site}
    (hleader : Admits numNodes true first' p base stage (.enter site)) :
    Admits numNodes leader first p base (after numNodes lanes p base site)
      (LaunchState.afterSite leader site) := by
  have hsearch : Admits numNodes leader first p base search
      (if leader then .noteLeave else .enter .nodeLeave) := by
    cases leader
    · exact .enterSearch rfl
    · exact .noteLeave rfl
  cases hleader with
  | enterStart => exact .fetchSeek
  | enterSeek => exact hsearch
  | enterNarrow => exact hsearch
  | enterSpent => exact hsearch
  | enterFound =>
      rcases after_nodeLeave_cases numNodes lanes p base with
        ⟨-, h⟩ | ⟨hnode, -, h⟩ | ⟨-, -, -, h⟩ | ⟨-, -, -, h⟩ <;> rw [h]
      · exact .decideLeave
      · exact .decideSeek hnode
      · exact .decideWide
      · exact .decideNarrow
  | enterWide =>
      cases leader
      · exact .fetchCollect rfl
      · exact .collect rfl
  | enterSettled =>
      cases leader
      · exact .enterClaim rfl
      · exact .claimForBlock rfl
  | enterClaimed =>
      rcases after_claimLeave_cases numNodes lanes p p base with ⟨-, h⟩ | ⟨hwork, h⟩ <;> rw [h]
      · exact .readBaseSpent
      · exact .readBaseWide hwork
  | enterSearch _ | enterCollect _ | enterClaim _ | gone _ _ _ _ => contradiction

theorem le_noWork (total : UInt32) : total ≤ noWork :=
  UInt32.le_iff_toNat_le.2 (Nat.le_of_lt_succ total.toNat_lt)

theorem base_ne_noWork_of_lt {total base : UInt32} (h : ¬ total ≤ base) : base ≠ noWork := by
  rintro rfl
  exact h (le_noWork total)

theorem Fits.after {first' : UInt32} {site : Site}
    (hleader : Admits numNodes true first' p base stage (.enter site))
    (hfits : stage.Fits numNodes lanes p base) :
    (after numNodes lanes p base site).Fits numNodes lanes p base := by
  cases hleader with
  | enterStart => exact hfits
  | enterSeek | enterNarrow | enterSpent => trivial
  | enterFound =>
      rcases after_nodeLeave_cases numNodes lanes p base with
        ⟨hdone, h⟩ | ⟨-, hbase, h⟩ | ⟨hnode, hbase, hwide, h⟩ | ⟨hnode, hbase, hnarrow, h⟩ <;>
        rw [h]
      · exact hdone
      · exact hbase
      · exact ⟨hbase, hwide, hnode⟩
      · exact ⟨hbase, hnarrow, hnode⟩
  | enterWide => exact hfits
  | enterSettled => exact hfits
  | enterClaimed =>
      rcases after_claimLeave_cases numNodes lanes p p base with ⟨hspent, h⟩ | ⟨hwork, h⟩ <;>
        rw [h]
      · exact ⟨hfits.1, hfits.2, hspent⟩
      · exact ⟨base_ne_noWork_of_lt hwork, hfits.1, hfits.2⟩
  | enterSearch _ | enterCollect _ | enterClaim _ | gone _ _ _ _ => contradiction

end Admits
end Stage
end Lockstep
