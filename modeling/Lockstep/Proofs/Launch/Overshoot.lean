import Lockstep.Proofs.Launch.Coherence
import Lockstep.Proofs.Launch.Ledger
import Lockstep.Proofs.Launch.Share
import Lockstep.Proofs.TaskGraph.Order

/-!
# Claims behind the last offset

Claims go on after the offsets of a node have run out, but a block picks up each node at
most once and every group stops claiming at the first claim that comes back empty.  The
allowance of a block bounds what it may still claim in vain, so that the claim counter of
a node stays far below its word.
-/

namespace Lockstep

def Stage.isPast : Stage → Bool
  | found | leave => true
  | _ => false

namespace LaunchState

open Stage

variable {η : Type} {c : LaunchConfig} {d : Dispatcher η} {s s' : LaunchState η} {g b : Nat}

def width (c : LaunchConfig) : Nat := c.groupsPerBlock.toNat * c.lanesPerGroup.toNat

def groupAllowance (c : LaunchConfig) (phase : Phase) : Nat :=
  if phase = .enter .nodeEnter ∨ phase.isGone = true then 0 else c.lanesPerGroup.toNat

def ownAllowance (c : LaunchConfig) (b : Nat) (block : BlockState) (place : Nat → Phase) :
    Stage → Nat
  | .narrow => ((c.party (some b)).map fun g => groupAllowance c (place g)).sum
  | .search =>
      match place (c.groupAt b 0) with
      | .claimFirst _ => 2 * width c
      | _ => 0
  | .found => if block.base = noWork then 0 else width c
  | .wide | .collect | .settled | .claim => width c
  | .claimed => if block.pickup.total ≤ block.base then 0 else width c
  | _ => 0

/-- What a block may still claim in vain of the node at an index. -/
def allowance (c : LaunchConfig) (numNodes b : Nat) (σ : Stage) (block : BlockState)
    (place : Nat → Phase) (i : Nat) : Nat :=
  if block.pickup.node.index < numNodes then
    if block.pickup.node.index < i then 2 * width c
    else if i < block.pickup.node.index then 0
    else ownAllowance c b block place σ
  else if σ.isPast then 0
  else 2 * width c

theorem sum_groupAllowance_le (c : LaunchConfig) (b : Nat) (place : Nat → Phase) :
    ((c.party (some b)).map fun g => groupAllowance c (place g)).sum ≤ width c := by
  have hsum := sum_map_le (show ∀ g ∈ c.party (some b),
      groupAllowance c (place g) ≤ c.lanesPerGroup.toNat from fun g _ => by
    unfold groupAllowance
    split <;> omega)
  rwa [LaunchConfig.length_party_some] at hsum

theorem ownAllowance_le (c : LaunchConfig) (b : Nat) (block : BlockState) (place : Nat → Phase)
    (σ : Stage) : ownAllowance c b block place σ ≤ 2 * width c := by
  cases σ with
  | narrow =>
      have hsum := sum_groupAllowance_le c b place
      simp only [ownAllowance]
      omega
  | search =>
      simp only [ownAllowance]
      split <;> omega
  | found | claimed =>
      simp only [ownAllowance]
      split <;> omega
  | _ => simp [ownAllowance, Nat.two_mul]

theorem allowance_le (c : LaunchConfig) (numNodes b : Nat) (σ : Stage) (block : BlockState)
    (place : Nat → Phase) (i : Nat) : allowance c numNodes b σ block place i ≤ 2 * width c := by
  have hown := ownAllowance_le c b block place σ
  unfold allowance
  split
  · split
    · exact le_rfl
    · split <;> omega
  · split <;> omega

section Allowances

variable {numNodes : Nat} {σ σ' : Stage} {block block' : BlockState} {place place' : Nat → Phase}
  {q p : Phase} {graph : TaskGraph η}

theorem allowance_mono (hnode : block'.pickup.node = block.pickup.node)
    (hown : ownAllowance c b block' place' σ' ≤ ownAllowance c b block place σ)
    (hσ : numNodes ≤ block.pickup.node.index → σ.isPast = true → σ'.isPast = true) (i : Nat) :
    allowance c numNodes b σ' block' place' i ≤ allowance c numNodes b σ block place i := by
  unfold allowance
  rw [hnode]
  split
  · split
    · exact le_rfl
    · split
      · exact le_rfl
      · exact hown
  · rename_i hnone
    split
    · exact Nat.zero_le _
    · rename_i hpast
      rw [if_neg fun h => hpast (hσ (Nat.le_of_not_lt hnone) h)]

theorem allowance_past (hnode : numNodes ≤ block.pickup.node.index) (hσ : σ.isPast = true)
    (i : Nat) : allowance c numNodes b σ block place i = 0 := by
  unfold allowance
  rw [if_neg (Nat.not_lt.2 hnode), if_pos hσ]

theorem allowance_self (block : BlockState) (place : Nat → Phase) (σ : Stage) {i : Nat}
    (hi : i = block.pickup.node.index) (hnode : i < numNodes) :
    allowance c numNodes b σ block place i = ownAllowance c b block place σ := by
  unfold allowance
  rw [← hi, if_pos hnode, if_neg (lt_irrefl _), if_neg (lt_irrefl _)]

theorem ownAllowance_narrow (block block' : BlockState) (place : Nat → Phase)
    (hmem : g ∈ c.party (some b)) (p : Phase) :
    ownAllowance c b block' (Function.update place g p) narrow + groupAllowance c (place g) =
      ownAllowance c b block place narrow + groupAllowance c p := by
  have hsum := sum_map_change (LaunchConfig.party_nodup (some b)) hmem
    (show ∀ g' ∈ c.party (some b), g' ≠ g →
      groupAllowance c (Function.update place g p g') = groupAllowance c (place g') from
      fun g' _ hne => by rw [Function.update_of_ne hne])
  rw [Function.update_self] at hsum
  exact hsum

/-- A claim that comes back empty is paid for by the allowance, and no move adds to it. -/
theorem allowance_turn (hpos : 0 < c.groupsPerBlock.toNat)
    (hturn : Turn c g s (s.block (c.blockOf g)) σ q σ' p block' graph) (hplace : place g = q)
    (hahead : ∀ cursor, q = .pickUp cursor →
      (s.block (c.blockOf g)).pickup.node.index < s.graph.numNodes →
        (s.block (c.blockOf g)).pickup.node.index < cursor.index) (i : Nat) :
    allowance c s.graph.numNodes (c.blockOf g) σ' block' (Function.update place g p) i ≤
      allowance c s.graph.numNodes (c.blockOf g) σ (s.block (c.blockOf g)) place i := by
  have hmem : g ∈ c.party (some (c.blockOf g)) := (LaunchConfig.mem_party_some hpos).2 rfl
  have hnarrow : ∀ {block'}, groupAllowance c p ≤ groupAllowance c (place g) →
      ownAllowance c (c.blockOf g) block' (Function.update place g p) narrow ≤
        ownAllowance c (c.blockOf g) (s.block (c.blockOf g)) place narrow := by
    intro block' hle
    have hsum := ownAllowance_narrow (s.block (c.blockOf g)) block' place hmem p
    omega
  cases hturn with
  | narrowDecide | narrowAssign | narrowExecute | narrowFault | narrowExecuted | narrowTally
  | narrowReport | narrowReportFault | narrowFetch | narrowSpent | narrowClaim =>
      refine allowance_mono rfl (hnarrow ?_) (fun _ h => h) i
      rw [hplace]
      simp [groupAllowance, Phase.isGone]
  | searchLeave hleader | searchNew hleader =>
      refine allowance_mono rfl ?_ (fun _ h => h) i
      simp [ownAllowance, LaunchConfig.groupAt_of_isLeader hleader]
  | searchDone _ h =>
      refine (allowance_past ?_ rfl i).le.trans (Nat.zero_le _)
      exact h
  | searchSame =>
      refine allowance_mono (by rfl) ?_ (fun _ _ => rfl) i
      simp [ownAllowance]
  | @searchPickUp _ cursor hcursor =>
      -- The node is new to the block, which may claim of it as of the nodes behind it.
      have hbefore : cursor.index ≤ i →
          allowance c s.graph.numNodes (c.blockOf g) search (s.block (c.blockOf g)) place i =
            2 * width c := by
        intro hi
        unfold allowance
        split
        · rename_i hnode
          rw [if_pos ((hahead cursor rfl hnode).trans_le hi)]
        · rfl
      have hafter := allowance_le c s.graph.numNodes (c.blockOf g) search
        { s.block (c.blockOf g) with pickup := s.graph.pickup cursor.index }
        (Function.update place g (.claimFirst (s.graph.pickup cursor.index))) i
      rcases Nat.lt_or_ge i cursor.index with hi | hi
      · unfold allowance
        simp only [TaskGraph.pickup_node_index]
        rw [if_pos hcursor, if_neg (by omega), if_pos hi]
        exact Nat.zero_le _
      · rw [hbefore hi]
        exact hafter
  | searchClaim hleader =>
      refine allowance_mono (by rfl) ?_ (fun _ _ => rfl) i
      simp only [ownAllowance, LaunchConfig.groupAt_of_isLeader hleader, hplace]
      split <;> omega
  | claim =>
      refine allowance_mono (by rfl) ?_ (fun _ h => absurd h (by decide)) i
      simp only [ownAllowance]
      split <;> omega
  | _ => exact allowance_mono rfl le_rfl (fun _ h => h) i

theorem claimed_le_of_lt {total base : UInt32} {claimed claimed' batch : Nat}
    (hbase : base.toNat = min claimed (2 ^ 32 - 1)) (hwork : ¬ total ≤ base)
    (hle : claimed' ≤ claimed + batch) (hbatch : batch ≤ width c) :
    claimed' ≤ 2 ^ 32 + width c := by
  have htotal := total.toNat_lt
  rw [UInt32.le_iff_toNat_le] at hwork
  omega

/-- Claims behind the last offset are paid for by the allowance of the block. -/
theorem claimed_turn (hc : c.Valid)
    (hturn : Turn c g s (s.block (c.blockOf g)) σ q σ' p block' graph) (hplace : place g = q)
    (hfits : σ.Fits s.graph.numNodes c.lanesPerGroup (s.block (c.blockOf g)).pickup
      (s.block (c.blockOf g)).base)
    (hahead : ∀ cursor, q = .pickUp cursor →
      (s.block (c.blockOf g)).pickup.node.index < s.graph.numNodes →
        (s.block (c.blockOf g)).pickup.node.index < cursor.index)
    (hbegun : q ≠ .init)
    (hreport : ∀ node finished, q = .report node finished →
      ∀ i, graph.claimed i ≤ s.graph.claimed i) (i : Nat) :
    graph.claimed i + allowance c s.graph.numNodes (c.blockOf g) σ' block'
        (Function.update place g p) i ≤
      s.graph.claimed i + allowance c s.graph.numNodes (c.blockOf g) σ
        (s.block (c.blockOf g)) place i ∨
    graph.claimed i ≤ 2 ^ 32 + width c := by
  have hmem : g ∈ c.party (some (c.blockOf g)) :=
    (LaunchConfig.mem_party_some hc.groups_pos).2 rfl
  obtain ⟨hblock, hgroup, hlanes⟩ : _ ≤ width c ∧ _ ∧ _ ≤ width c :=
    LaunchConfig.batch_le hc (s.block (c.blockOf g)).pickup.threadsPerInvocation
  have hallowance := allowance_turn hc.groups_pos hturn hplace hahead i
  cases hturn with
  | init | initFault => exact absurd rfl hbegun
  | narrowReport | narrowReportFault | collectReport | collectReportFault =>
      exact .inl (Nat.add_le_add (hreport _ _ rfl i) hallowance)
  | narrowClaim h hwork =>
      obtain ⟨-, hclaim⟩ := TaskGraph.claim_cases h
      rcases hclaim.claimed_cases i with ⟨hi, hle⟩ | hle
      · exact .inr (claimed_le_of_lt (hi ▸ hclaim.base_eq) hwork hle (hgroup.trans hlanes))
      · exact .inl (Nat.add_le_add hle hallowance)
  | narrowSpent h hspent =>
      obtain ⟨-, hclaim⟩ := TaskGraph.claim_cases h
      rcases hclaim.claimed_cases i with ⟨hi, hle⟩ | hle
      · have hsum := ownAllowance_narrow (s.block (c.blockOf g)) (s.block (c.blockOf g)) place hmem
          (.enter .nodeEnter)
        have hold : groupAllowance c (place g) = c.lanesPerGroup.toNat := by
          rw [hplace]
          simp [groupAllowance, Phase.isGone]
        have hnew : groupAllowance c (.enter .nodeEnter) = 0 := if_pos (.inl rfl)
        have hnode := hi ▸ hfits.2.2
        rw [allowance_self _ _ _ hi hnode, allowance_self _ _ _ hi hnode]
        omega
      · exact .inl (Nat.add_le_add hle hallowance)
  | @searchClaim hleader hnode base graph h =>
      obtain ⟨-, hclaim⟩ := TaskGraph.claim_cases h
      rcases hclaim.claimed_cases i with ⟨hi, hle⟩ | hle
      · have hold :
            ownAllowance c (c.blockOf g) (s.block (c.blockOf g)) place search = 2 * width c := by
          simp [ownAllowance, LaunchConfig.groupAt_of_isLeader hleader, hplace]
        have hnew : ownAllowance c (c.blockOf g) { s.block (c.blockOf g) with base }
            (Function.update place g (.noteStart (s.block (c.blockOf g)).pickup)) found ≤
              width c := by
          simp only [ownAllowance]
          split <;> omega
        rw [allowance_self { s.block (c.blockOf g) with base } _ found hi (hi ▸ hnode),
          allowance_self _ _ search hi (hi ▸ hnode)]
        omega
      · exact .inl (Nat.add_le_add hle hallowance)
  | @claim _ base graph h =>
      obtain ⟨-, hclaim⟩ := TaskGraph.claim_cases h
      rcases hclaim.claimed_cases i with ⟨hi, hle⟩ | hle
      · by_cases hwork : (s.block (c.blockOf g)).pickup.total ≤ base
        · have hold :
              ownAllowance c (c.blockOf g) (s.block (c.blockOf g)) place claim = width c := rfl
          have hnew : ownAllowance c (c.blockOf g) { s.block (c.blockOf g) with base }
              (Function.update place g (.enter (.claimLeave (s.block (c.blockOf g)).pickup)))
              claimed = 0 := if_pos hwork
          have hnode := hi ▸ hfits.2.2
          rw [allowance_self { s.block (c.blockOf g) with base } _ claimed hi hnode,
            allowance_self _ _ claim hi hnode]
          omega
        · exact .inr (claimed_le_of_lt (hi ▸ hclaim.base_eq) hwork hle hblock)
      · exact .inl (Nat.add_le_add hle hallowance)
  | _ => exact .inl (Nat.add_le_add_left hallowance _)

theorem allowance_gone (hmem : g ∈ c.party (some b)) (hp : p.isGone = true)
    (hled : g = c.groupAt b 0 → σ.isLed = false) (i : Nat) :
    allowance c numNodes b σ block (Function.update place g p) i ≤
      allowance c numNodes b σ block place i := by
  refine allowance_mono rfl ?_ (fun _ h => h) i
  cases σ with
  | narrow =>
      have hsum := ownAllowance_narrow block block place hmem p
      have hnone : groupAllowance c p = 0 := if_pos (.inr hp)
      omega
  | search =>
      have hne : c.groupAt b 0 ≠ g := fun heq => absurd (hled heq.symm) (by decide)
      simp only [ownAllowance, Function.update_of_ne hne]
      exact le_rfl
  | _ => exact le_rfl

theorem allowance_meet {site : Site} {first : UInt32} (hpos : 0 < c.groupsPerBlock.toNat)
    (hpickup : block'.pickup = block.pickup)
    (hleader : Admits numNodes true first block.pickup block.base σ (.enter site))
    (hplace' : ∀ g ∈ c.party (some b), place' g = afterSite (c.isLeader g) site) (i : Nat) :
    allowance c numNodes b (after numNodes c.lanesPerGroup block.pickup block.base site) block'
        place' i ≤ allowance c numNodes b σ block place i := by
  have hsearch : site = .nodeEnter → ownAllowance c b block' place' search = 0 := by
    rintro rfl
    have hlead := hplace' (c.groupAt b 0) ((LaunchConfig.mem_party_some hpos).2
      (LaunchConfig.blockOf_groupAt hpos b hpos))
    rw [LaunchConfig.isLeader_groupAt b hpos] at hlead
    simp [ownAllowance, hlead, afterSite]
  cases hleader with
  | enterStart | enterWide | enterSettled =>
      refine allowance_mono (by rw [hpickup]) ?_ ?_ i
      · exact le_rfl
      · exact fun _ h => absurd h (by decide)
  | enterSeek | enterNarrow | enterSpent =>
      refine allowance_mono (by rw [hpickup]) ?_ (fun _ h => absurd h (by decide)) i
      simp only [after]
      rw [hsearch rfl]
      exact Nat.zero_le _
  | enterFound =>
      rcases after_nodeLeave_cases numNodes c.lanesPerGroup block.pickup block.base with
        ⟨-, h⟩ | ⟨hnode, -, h⟩ | ⟨hnode, hbase, -, h⟩ | ⟨hnode, hbase, -, h⟩ <;> rw [h]
      · exact allowance_mono (by rw [hpickup]) (Nat.zero_le _) (fun _ _ => rfl) i
      · exact allowance_mono (by rw [hpickup]) (Nat.zero_le _)
          (fun hdone => absurd hnode (Nat.not_lt.2 hdone)) i
      · refine allowance_mono (by rw [hpickup]) ?_
          (fun hdone => absurd hnode (Nat.not_lt.2 hdone)) i
        simp [ownAllowance, hbase]
      · refine allowance_mono (by rw [hpickup]) ?_
          (fun hdone => absurd hnode (Nat.not_lt.2 hdone)) i
        simpa [ownAllowance, hbase] using sum_groupAllowance_le c b place'
  | enterClaimed =>
      rcases after_claimLeave_cases numNodes c.lanesPerGroup block.pickup block.pickup block.base
        with ⟨-, h⟩ | ⟨hwork, h⟩ <;> rw [h]
      · exact allowance_mono (by rw [hpickup]) (Nat.zero_le _) (fun _ h => absurd h (by decide)) i
      · refine allowance_mono (by rw [hpickup]) ?_ (fun _ h => absurd h (by decide)) i
        simp [ownAllowance, hwork]
  | enterSearch _ | enterCollect _ | enterClaim _ | gone _ _ _ _ => contradiction

end Allowances

end LaunchState
end Lockstep
