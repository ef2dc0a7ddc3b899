import Lockstep.Proofs.Launch.Coherence
import Lockstep.Proofs.Launch.Share

/-!
# What the groups hold

The place of a group and the stage of its block tell what the group holds.  In a wide
pass everybody holds a share of the block's claim until the leader has reported it; in a
narrow stage a group holds whole invocations.
-/

namespace Lockstep
namespace LaunchState

open Stage

variable {η : Type} {c : LaunchConfig} {d : Dispatcher η} {s s' : LaunchState η} {g b : Nat}

/-- The lanes that still have work are different from each other, fit a mask, and have
not been counted yet. -/
structure Fresh (pending : List (UInt32 × Work)) (executed : LaneMask) : Prop where
  nodup : (pending.map Prod.fst).Nodup
  lt : ∀ lane ∈ pending.map Prod.fst, lane < 64
  free : ∀ lane ∈ pending.map Prod.fst, executed.has lane = false

def Working (c : LaunchConfig) (p : Pickup) (base : UInt32) (g : Nat) :
    Phase → (ran left lost : List Work) → Prop
  | .decide, ran, left, lost | .readBase _, ran, left, lost =>
      ran = [] ∧ left = share c p base g ∧ lost = []
  | .assign _ own first, ran, left, lost =>
      ran = [] ∧ left = (p.assign own first c.lanesPerGroup).map Prod.snd ∧ lost = []
  | .execute pending executed, ran, left, lost =>
      left = pending.map Prod.snd ∧ executed.count = ran.length ∧ Fresh pending executed ∧
        lost = []
  | .tally executed, ran, left, lost => left = [] ∧ executed.count = ran.length ∧ lost = []
  | .report _ finished, ran, left, lost =>
      left = [] ∧ finished.toNat * p.threads = ran.length ∧ lost = []
  | .enter (.finish _), _, left, lost => left = [] ∧ lost = []
  | .aborting .., _, left, lost | .released, _, left, lost | .faulted _, _, left, lost =>
      lost.Sublist left
  | _, ran, left, lost => ran = [] ∧ left = [] ∧ lost = []

/-- What a group has run, has left and has lost in a stage of its block. -/
def Holding (c : LaunchConfig) (p : Pickup) (base : UInt32) (g : Nat) :
    Stage → Phase → (ran left lost : List Work) → Prop
  | .found, _, ran, left, lost | .claimed, _, ran, left, lost =>
      ran = [] ∧ left = share c p base g ∧ lost = []
  | .collect, _, ran, left, lost => ran = share c p base g ∧ left = [] ∧ lost = []
  | .wide, phase, ran, left, lost =>
      Working c p base g phase ran left lost ∧ ran ++ left = share c p base g
  | .narrow, phase, ran, left, lost =>
      Working c p base g phase ran left lost ∧ ∃ lo hi, ran ++ left = p.span lo hi
  | _, _, ran, left, lost => ran = [] ∧ left = [] ∧ lost = []

def counted (p : Pickup) (phase : Phase) (ran : List Work) : Nat :=
  if phase = .enter (.finish p) then ran.length else 0

/-- What the count of finished threads of a block is about. -/
def Tallied (c : LaunchConfig) (b : Nat) (block : BlockState) (place : Nat → Phase)
    (ran : Nat → List Work) : Stage → Prop
  | .wide => (∀ g ∈ c.party (some b), (place g).isGone = false) →
      block.finishedThreads.toNat =
        ((c.party (some b)).map fun g => counted block.pickup (place g) (ran g)).sum
  | .collect =>
      match place (c.groupAt b 0) with
      | .report _ finished => block.finishedThreads = 0 ∧
          finished.toNat * block.pickup.threads =
            ((c.party (some b)).flatMap (share c block.pickup block.base)).length
      | _ => block.finishedThreads.toNat =
          ((c.party (some b)).flatMap (share c block.pickup block.base)).length
  | _ => block.finishedThreads = 0

/-- What holds of the work of one block. -/
structure Held (c : LaunchConfig) (b : Nat) (σ : Stage) (block : BlockState)
    (place : Nat → Phase) (l : Ledger) : Prop where
  tiles : c.Tiles block.pickup.threadsPerInvocation
  holding : ∀ g ∈ c.party (some b),
    Holding c block.pickup block.base g σ (place g) (l.ran g) (l.left g) (l.lost g)
  tallied : Tallied c b block place l.ran σ

section Ledgers

variable {l : Ledger}

theorem nextLedger_same {q : Phase} (hphase : s.phase g = q) (hq : q.isPosting = false) :
    nextLedger c d s g l = l := by
  cases q with
  | execute pending executed =>
      cases pending with
      | nil => simp only [nextLedger, hphase]
      | cons => contradiction
  | claimForGroup | claimForBlock | claimFirst | report => contradiction
  | _ => simp only [nextLedger, hphase]

theorem nextLedger_of_isOver (h : (s.phase g).isOver = true) : nextLedger c d s g l = l := by
  cases hphase : s.phase g <;> rw [hphase] at h <;>
    first | contradiction | simp only [nextLedger, hphase]

theorem nextLedger_claimForGroup {held : Pickup} {base : UInt32} {graph : TaskGraph η}
    (hphase : s.phase g = .claimForGroup held)
    (h : s.graph.claim held.node (c.lanesPerGroup / held.threadsPerInvocation) =
      .ok (base, graph)) :
    nextLedger c d s g l = l.deal [g] fun _ => ownShare c held base := by
  simp only [nextLedger, hphase, h]

theorem nextLedger_claim {held : Pickup} {base : UInt32} {graph : TaskGraph η}
    (hphase : s.phase g = .claimForBlock held ∨ s.phase g = .claimFirst held)
    (h : s.graph.claim held.node (c.blockWidth / held.threadsPerInvocation) =
      .ok (base, graph)) :
    nextLedger c d s g l = l.deal (c.party (some (c.blockOf g))) (share c held base) := by
  rcases hphase with hphase | hphase <;> simp only [nextLedger, hphase, h]

theorem nextLedger_execute {lane : UInt32} {work : Work} {pending : List (UInt32 × Work)}
    {executed executed' : LaneMask}
    (hphase : s.phase g = .execute ((lane, work) :: pending) executed)
    (h : (step c d g s).phase g = .execute pending executed') :
    nextLedger c d s g l = l.finish g work := by
  simp only [nextLedger, hphase, h]

theorem nextLedger_fault {lane : UInt32} {work : Work} {pending : List (UInt32 × Work)}
    {executed : LaneMask} {fault : Fault}
    (hphase : s.phase g = .execute ((lane, work) :: pending) executed)
    (h : (step c d g s).phase g = .aborting fault 0) :
    nextLedger c d s g l = l.lose g work := by
  simp only [nextLedger, hphase, h]

theorem nextLedger_report {node : NodeId} {finished : UInt32}
    (hphase : s.phase g = .report node finished) :
    nextLedger c d s g l =
      if c.lanesPerGroup < (s.block (c.blockOf g)).pickup.threadsPerInvocation then
        l.settle (c.party (some (c.blockOf g)))
      else l.settle [g] := by
  simp only [nextLedger, hphase]

end Ledgers

section Turns

variable {l : Ledger} {place : Nat → Phase} {σ σ' : Stage} {q p : Phase} {block' : BlockState}
  {graph : TaskGraph η}

theorem Fresh.assign {lanes : UInt32} (hlanes : lanes.toNat ≤ 64) (p : Pickup)
    (base first : UInt32) : Fresh (p.assign base first lanes) .empty := by
  obtain ⟨hnodup, hlt⟩ := p.assign_lanes base first lanes
  refine ⟨hnodup, fun lane hlane => ?_, fun lane _ => LaneMask.has_empty lane⟩
  have hlane := UInt32.lt_iff_toNat_lt.1 (hlt lane hlane)
  exact UInt32.lt_iff_toNat_lt.2 (hlane.trans_le hlanes)

theorem Fresh.next {lane : UInt32} {work : Work} {pending : List (UInt32 × Work)}
    {executed executed' : LaneMask} (h : Fresh ((lane, work) :: pending) executed)
    (hset : executed.set lane = .ok executed') :
    executed'.count = executed.count + 1 ∧ Fresh pending executed' := by
  have hmem : lane ∈ ((lane, work) :: pending).map Prod.fst := List.mem_cons_self ..
  obtain ⟨m, hm, hcount, hhas⟩ := executed.set_of_lt (h.lt lane hmem) (h.free lane hmem)
  obtain rfl : m = executed' := Except.ok.inj (hm.symm.trans hset)
  have hnodup := List.nodup_cons.1 h.nodup
  refine ⟨hcount, hnodup.2, fun other hother => h.lt other (List.mem_cons_of_mem _ hother),
    fun other hother => ?_⟩
  have hne : other.toNat ≠ lane.toNat := by
    intro heq
    exact hnodup.1 (UInt32.toNat_inj.1 heq ▸ hother)
  rw [hhas, h.free other (List.mem_cons_of_mem _ hother)]
  simpa using hne

theorem Held.turn_self (hc : c.Valid)
    (hturn : Turn c g s (s.block (c.blockOf g)) σ q σ' p block' graph)
    (hphase : s.phase g = q) (hm : Moved c g p block' graph s (step c d g s))
    (hfits : σ.Fits s.graph.numNodes c.lanesPerGroup (s.block (c.blockOf g)).pickup
      (s.block (c.blockOf g)).base)
    (htiles : c.Tiles (s.block (c.blockOf g)).pickup.threadsPerInvocation)
    (hmem : g ∈ c.party (some (c.blockOf g)))
    (h : Holding c (s.block (c.blockOf g)).pickup (s.block (c.blockOf g)).base g σ q (l.ran g)
      (l.left g) (l.lost g)) :
    Holding c block'.pickup block'.base g σ' p ((nextLedger c d s g l).ran g)
      ((nextLedger c d s g l).left g) ((nextLedger c d s g l).lost g) := by
  have hnow : (step c d g s).phase g = p := by rw [hm.phase, if_pos rfl]
  cases hturn with
  | narrowAssign =>
      rw [nextLedger_same hphase rfl]
      obtain ⟨⟨hran, hleft, hlost⟩, hspan⟩ := h
      exact ⟨⟨hleft, by rw [hran]; exact LaneMask.count_empty, Fresh.assign hc.lanes_le _ _ _,
        hlost⟩, hspan⟩
  | wideAssign =>
      rw [nextLedger_same hphase rfl]
      obtain ⟨⟨hran, hleft, hlost⟩, hshare⟩ := h
      exact ⟨⟨hleft, by rw [hran]; exact LaneMask.count_empty, Fresh.assign hc.lanes_le _ _ _,
        hlost⟩, hshare⟩
  | narrowExecute hset | wideExecute hset =>
      rw [nextLedger_execute hphase hnow]
      obtain ⟨⟨hleft, hcount, hfresh, hlost⟩, hhand⟩ := h
      obtain ⟨hcount', hfresh'⟩ := hfresh.next hset
      simp only [Ledger.finish, Function.update_self]
      refine ⟨⟨by simp [hleft], by simp [hcount', hcount], hfresh', hlost⟩, ?_⟩
      rw [hleft] at hhand ⊢
      simpa using hhand
  | narrowFault | wideFault =>
      rw [nextLedger_fault hphase hnow]
      obtain ⟨⟨hleft, -, -, -⟩, hhand⟩ := h
      refine ⟨?_, hhand⟩
      simp only [Working, Ledger.lose, Function.update_self]
      rw [hleft]
      exact List.singleton_sublist.2 (List.mem_cons_self ..)
  | narrowExecuted | wideExecuted =>
      rw [nextLedger_same hphase rfl]
      obtain ⟨⟨hleft, hcount, -, hlost⟩, hhand⟩ := h
      exact ⟨⟨hleft, hcount, hlost⟩, hhand⟩
  | narrowTally =>
      rename_i executed
      rw [nextLedger_same hphase rfl]
      obtain ⟨⟨hleft, hcount, hlost⟩, lo, hi, hspan⟩ := h
      refine ⟨⟨hleft, ?_, hlost⟩, lo, hi, hspan⟩
      have hlength := congrArg List.length hspan
      rw [hleft, List.append_nil, Pickup.length_span] at hlength
      rw [UInt32.toNat_div, executed.toNat_count, hcount, hlength]
      exact Nat.div_mul_cancel (Dvd.intro_left _ rfl)
  | narrowReport =>
      rw [nextLedger_report hphase, if_neg hfits.2.1]
      obtain ⟨⟨hleft, -, hlost⟩, -⟩ := h
      exact ⟨⟨by simp, hleft, hlost⟩, 0, 0, by simp [hleft]⟩
  | narrowReportFault =>
      rw [nextLedger_report hphase, if_neg hfits.2.1]
      obtain ⟨⟨hleft, -, hlost⟩, -⟩ := h
      refine ⟨?_, 0, 0, by simp [hleft]⟩
      simp only [Working, Ledger.lost_settle, hlost]
      exact List.nil_sublist _
  | narrowSpent hclaim hspent =>
      rw [nextLedger_claimForGroup hphase hclaim]
      obtain ⟨⟨hran, -, hlost⟩, -⟩ := h
      have hnone := ownShare_eq_nil (c := c) hspent
      exact ⟨⟨hran, by simp [hnone], hlost⟩, 0, 0, by simp [hran, hnone]⟩
  | narrowClaim hclaim _ =>
      rw [nextLedger_claimForGroup hphase hclaim]
      obtain ⟨⟨hran, -, hlost⟩, -⟩ := h
      have hspan := fun base => ownShare_eq_span htiles hfits.2.1 base
      exact ⟨⟨hran, by simp [ownShare], hlost⟩, _, _, by simpa [hran] using hspan _⟩
  | searchDone | searchSame =>
      rw [nextLedger_same hphase rfl]
      obtain ⟨hran, hleft, hlost⟩ := h
      exact ⟨hran, by rw [hleft, share_eq_nil hc (le_noWork _)], hlost⟩
  | searchClaim _ _ hclaim =>
      rw [nextLedger_claim (.inr hphase) hclaim]
      obtain ⟨hran, -, hlost⟩ := h
      exact ⟨hran, by simp only [Ledger.deal, hmem, if_true], hlost⟩
  | claim _ hclaim =>
      rw [nextLedger_claim (.inl hphase) hclaim]
      obtain ⟨hran, -, hlost⟩ := h
      exact ⟨hran, by simp only [Ledger.deal, hmem, if_true], hlost⟩
  | wideTally =>
      rw [nextLedger_same hphase rfl]
      obtain ⟨⟨hleft, -, hlost⟩, hshare⟩ := h
      exact ⟨⟨hleft, hlost⟩, hshare⟩
  | collectReport | collectReportFault =>
      rw [nextLedger_report hphase, if_pos hfits.2.1]
      obtain ⟨-, hleft, hlost⟩ := h
      exact ⟨by simp [Ledger.settle, hmem], hleft, hlost⟩
  | _ =>
      rw [nextLedger_same hphase rfl]
      exact h

theorem Held.turn_other {g' : Nat} {phase : Phase} (hc : c.Valid)
    (hturn : Turn c g s (s.block (c.blockOf g)) σ q σ' p block' graph)
    (hphase : s.phase g = q) (hm : Moved c g p block' graph s (step c d g s))
    (hfits : σ.Fits s.graph.numNodes c.lanesPerGroup (s.block (c.blockOf g)).pickup
      (s.block (c.blockOf g)).base)
    (hne : g' ≠ g) (hmem : g' ∈ c.party (some (c.blockOf g)))
    (h : Holding c (s.block (c.blockOf g)).pickup (s.block (c.blockOf g)).base g' σ phase (l.ran g')
      (l.left g') (l.lost g')) :
    Holding c block'.pickup block'.base g' σ' phase ((nextLedger c d s g l).ran g')
      ((nextLedger c d s g l).left g') ((nextLedger c d s g l).lost g') := by
  have hnow : (step c d g s).phase g = p := by rw [hm.phase, if_pos rfl]
  cases hturn with
  | narrowExecute | wideExecute =>
      rw [nextLedger_execute hphase hnow]
      simpa [Ledger.finish, hne] using h
  | narrowFault | wideFault =>
      rw [nextLedger_fault hphase hnow]
      simpa [Ledger.lose, hne] using h
  | narrowReport | narrowReportFault =>
      rw [nextLedger_report hphase, if_neg hfits.2.1]
      simpa [hne] using h
  | narrowSpent hclaim _ | narrowClaim hclaim _ =>
      rw [nextLedger_claimForGroup hphase hclaim]
      simpa [hne] using h
  | searchDone | searchSame =>
      rw [nextLedger_same hphase rfl]
      obtain ⟨hran, hleft, hlost⟩ := h
      exact ⟨hran, by rw [hleft, share_eq_nil hc (le_noWork _)], hlost⟩
  | searchClaim _ _ hclaim =>
      rw [nextLedger_claim (.inr hphase) hclaim]
      obtain ⟨hran, -, hlost⟩ := h
      exact ⟨hran, by simp [hmem], hlost⟩
  | claim _ hclaim =>
      rw [nextLedger_claim (.inl hphase) hclaim]
      obtain ⟨hran, -, hlost⟩ := h
      exact ⟨hran, by simp [hmem], hlost⟩
  | collectReport | collectReportFault =>
      rw [nextLedger_report hphase, if_pos hfits.2.1]
      obtain ⟨-, hleft, hlost⟩ := h
      exact ⟨by simp [hmem], hleft, hlost⟩
  | _ =>
      rw [nextLedger_same hphase rfl]
      exact h

theorem calm_of_update (hgone : (place g).isGone = false)
    (hcalm : ∀ g' ∈ c.party (some b), (Function.update place g p g').isGone = false) :
    ∀ g' ∈ c.party (some b), (place g').isGone = false := by
  intro g' hmem
  have hg' := hcalm g' hmem
  by_cases hne : g' = g
  · rw [hne, hgone]
  · rwa [Function.update_of_ne hne] at hg'

theorem Tallied.quiet {block : BlockState} {ran ran' : Nat → List Work}
    (h : Tallied c b block place ran .wide) (hgone : (place g).isGone = false)
    (hq : place g ≠ .enter (.finish block.pickup)) (hp : p ≠ .enter (.finish block.pickup))
    (hran : ∀ g', g' ≠ g → ran' g' = ran g') :
    Tallied c b block (Function.update place g p) ran' .wide := by
  intro hcalm
  rw [h (calm_of_update hgone hcalm)]
  congr 1
  apply List.map_congr_left
  intro g' _
  by_cases hne : g' = g
  · subst hne
    rw [Function.update_self, counted, counted, if_neg hq, if_neg hp]
  · rw [Function.update_of_ne hne, hran g' hne]

theorem Tallied.add {block : BlockState} {ran : Nat → List Work} {count : UInt32} (hc : c.Valid)
    (h : Tallied c b block place ran .wide) (hmem : g ∈ c.party (some b))
    (hgone : (place g).isGone = false) (hq : place g ≠ .enter (.finish block.pickup))
    (hran : ∀ g' ∈ c.party (some b), (ran g').length ≤ c.lanesPerGroup.toNat)
    (hcount : count.toNat = (ran g).length) :
    Tallied c b { block with finishedThreads := block.finishedThreads + count }
      (Function.update place g (.enter (.finish block.pickup))) ran .wide := by
  intro hcalm
  have hsum := sum_map_change (LaunchConfig.party_nodup (some b)) hmem
    (show ∀ g' ∈ c.party (some b), g' ≠ g →
      counted block.pickup (Function.update place g (.enter (.finish block.pickup)) g') (ran g') =
        counted block.pickup (place g') (ran g') from
      fun g' _ hne => by rw [Function.update_of_ne hne])
  have hbound := sum_map_le (show ∀ g' ∈ c.party (some b),
      counted block.pickup (Function.update place g (.enter (.finish block.pickup)) g') (ran g') ≤
        c.lanesPerGroup.toNat from fun g' hmem' => by
      unfold counted
      split
      · exact hran g' hmem'
      · exact Nat.zero_le _)
  have hwidth := hc.width_lt
  rw [LaunchConfig.length_party_some] at hbound
  rw [← h (calm_of_update hgone hcalm), Function.update_self, counted, if_neg hq, counted,
    if_pos rfl, Nat.add_zero] at hsum
  -- The sum does not wrap: every group adds at most its lanes.
  have hadd : (block.finishedThreads + count).toNat =
      block.finishedThreads.toNat + count.toNat := by
    rw [UInt32.toNat_add]
    exact Nat.mod_eq_of_lt (by omega)
  change (block.finishedThreads + count).toNat = _
  rw [hadd, hcount, ← hsum]

theorem Held.turn_tallied (hc : c.Valid)
    (hturn : Turn c g s (s.block (c.blockOf g)) σ q σ' p block' graph)
    (hphase : s.phase g = q) (hm : Moved c g p block' graph s (step c d g s))
    (h : Held c (c.blockOf g) σ (s.block (c.blockOf g)) place l) (hplace : place g = q) :
    Tallied c (c.blockOf g) block' (Function.update place g p) (nextLedger c d s g l).ran σ' := by
  have hnow : (step c d g s).phase g = p := by rw [hm.phase, if_pos rfl]
  have hmem : g ∈ c.party (some (c.blockOf g)) :=
    (LaunchConfig.mem_party_some hc.groups_pos).2 rfl
  have htallied := h.tallied
  cases hturn with
  | wideDecide | wideRead | wideAssign | wideExecuted =>
      rw [nextLedger_same hphase rfl]
      exact htallied.quiet (by rw [hplace]; rfl) (by rw [hplace]; simp) (by simp) fun _ _ => rfl
  | wideExecute =>
      rw [nextLedger_execute hphase hnow]
      exact htallied.quiet (by rw [hplace]; rfl) (by rw [hplace]; simp) (by simp)
        fun g' hne => by simp [Ledger.finish, hne]
  | wideFault =>
      intro hcalm
      have hgone := hcalm g hmem
      rw [Function.update_self] at hgone
      exact absurd hgone (by simp [Phase.isGone])
  | wideTally =>
      rename_i executed
      rw [nextLedger_same hphase rfl]
      have hself := h.holding g hmem
      rw [hplace] at hself
      obtain ⟨⟨-, hcount, -⟩, -⟩ := hself
      refine htallied.add hc hmem (by rw [hplace]; rfl) (by rw [hplace]; simp) (fun g' hmem' => ?_)
        (executed.toNat_count.trans hcount)
      have hlength := congrArg List.length (h.holding g' hmem').2
      rw [List.length_append] at hlength
      exact (Nat.le_add_right _ _).trans (hlength.le.trans (length_share_le hc _ _ g'))
  | collect hleader =>
      have hlead := LaunchConfig.groupAt_of_isLeader hleader
      have hlength := congrArg List.length (flatMap_share_eq_span hc h.tiles
        (s.block (c.blockOf g)).base (c.blockOf g))
      rw [Pickup.length_span] at hlength
      simp only [Tallied, hlead, hplace, Function.update_self] at htallied ⊢
      refine ⟨trivial, ?_⟩
      rw [UInt32.toNat_div, htallied, hlength]
      exact Nat.div_mul_cancel (Dvd.intro_left _ rfl)
  | collectReport hleader | collectReportFault hleader =>
      have hlead := LaunchConfig.groupAt_of_isLeader hleader
      simp only [Tallied, hlead, hplace] at htallied
      exact htallied.1
  | collectFetch hleader =>
      have hlead : c.groupAt (c.blockOf g) 0 ≠ g := by
        intro hlead
        have hrank := LaunchConfig.isLeader_groupAt (c := c) (c.blockOf g) hc.groups_pos
        rw [hlead, hleader] at hrank
        exact absurd hrank (by decide)
      simpa only [Tallied, Function.update_of_ne hlead] using htallied
  | _ => exact htallied

/-- A move of a group keeps account of the work of its block. -/
theorem Held.turn (hc : c.Valid) (hnodes : ∀ i, c.Tiles (s.graph.pickup i).threadsPerInvocation)
    (hturn : Turn c g s (s.block (c.blockOf g)) σ q σ' p block' graph)
    (hphase : s.phase g = q) (hm : Moved c g p block' graph s (step c d g s))
    (hfits : σ.Fits s.graph.numNodes c.lanesPerGroup (s.block (c.blockOf g)).pickup
      (s.block (c.blockOf g)).base)
    (h : Held c (c.blockOf g) σ (s.block (c.blockOf g)) place l) (hplace : place g = q) :
    Held c (c.blockOf g) σ' block' (Function.update place g p) (nextLedger c d s g l) := by
  refine ⟨?_, fun g' hmem => ?_, h.turn_tallied hc hturn hphase hm hplace⟩
  · cases hturn with
    | searchPickUp => exact hnodes _
    | _ => exact h.tiles
  · by_cases hne : g' = g
    · subst hne
      have hself := h.holding g' hmem
      rw [hplace] at hself
      rw [Function.update_self]
      exact Held.turn_self hc hturn hphase hm hfits h.tiles hmem hself
    · rw [Function.update_of_ne hne]
      exact Held.turn_other hc hturn hphase hm hfits hne hmem (h.holding g' hmem)

end Turns

section Meetings

variable {l l' : Ledger} {place place' : Nat → Phase} {σ : Stage} {block block' : BlockState}

theorem Held.congr (hc : c.Valid) (h : Held c b σ block place l)
    (hpickup : block'.pickup = block.pickup) (hbase : block'.base = block.base)
    (hfinished : block'.finishedThreads = block.finishedThreads)
    (hplace : ∀ g ∈ c.party (some b), place' g = place g)
    (hledger : ∀ g ∈ c.party (some b), l'.ran g = l.ran g ∧ l'.left g = l.left g ∧
      l'.lost g = l.lost g) : Held c b σ block' place' l' := by
  refine ⟨hpickup ▸ h.tiles, fun g hmem => ?_, ?_⟩
  · obtain ⟨hran, hleft, hlost⟩ := hledger g hmem
    rw [hpickup, hbase, hplace g hmem, hran, hleft, hlost]
    exact h.holding g hmem
  · have htallied := h.tallied
    cases σ with
    | wide =>
        intro hcalm
        rw [hfinished, htallied fun g hmem => by rw [← hplace g hmem]; exact hcalm g hmem, hpickup]
        congr 1
        apply List.map_congr_left
        intro g hmem
        rw [hplace g hmem, (hledger g hmem).1]
    | collect =>
        have hlead : c.groupAt b 0 ∈ c.party (some b) :=
          (LaunchConfig.mem_party_some hc.groups_pos).2
            (LaunchConfig.blockOf_groupAt hc.groups_pos b hc.groups_pos)
        simp only [Tallied] at htallied ⊢
        rwa [hplace _ hlead, hpickup, hbase, hfinished]
    | _ => exact hfinished.trans htallied

theorem Held.go_gone {p : Phase} (h : Held c b σ block place l) (hmem : g ∈ c.party (some b))
    (hold : (∃ site, place g = .enter site) ∨ (place g).isGone = true) (hp : p.isGone = true)
    (hled : g = c.groupAt b 0 → σ.isLed = false) :
    Held c b σ block (Function.update place g p) l := by
  have hworking : ∀ ran left lost, Working c block.pickup block.base g (place g) ran left lost →
      Working c block.pickup block.base g p ran left lost := by
    intro ran left lost hw
    have hsub : lost.Sublist left := by
      rcases hold with ⟨site, hsite⟩ | hgone
      · rw [hsite] at hw
        have hlost : lost = [] := by
          cases site with
          | finish => exact hw.2
          | start | claimEnter | claimLeave | nodeEnter | nodeLeave => exact hw.2.2
        rw [hlost]
        exact List.nil_sublist _
      · cases hq : place g <;> rw [hq] at hw hgone <;> first | exact hw | contradiction
    cases p <;> first | exact hsub | contradiction
  refine ⟨h.tiles, fun g' hmem => ?_, ?_⟩
  · have hholding := h.holding g' hmem
    by_cases hne : g' = g
    · subst hne
      rw [Function.update_self]
      cases σ with
      | wide | narrow => exact ⟨hworking _ _ _ hholding.1, hholding.2⟩
      | _ => exact hholding
    · rwa [Function.update_of_ne hne]
  · have htallied := h.tallied
    cases σ with
    | wide =>
        intro hcalm
        have hgone := hcalm g hmem
        rw [Function.update_self, hp] at hgone
        exact absurd hgone (by decide)
    | collect =>
        have hne : c.groupAt b 0 ≠ g := fun heq => absurd (hled heq.symm) (by decide)
        simpa only [Tallied, Function.update_of_ne hne] using htallied
    | _ => exact htallied

theorem Held.meet_holding {site : Site} {first : UInt32} {numNodes : Nat} (hc : c.Valid)
    (htiles : c.Tiles block.pickup.threadsPerInvocation)
    (hleader : Admits numNodes true first block.pickup block.base σ (.enter site))
    (hfits : σ.Fits numNodes c.lanesPerGroup block.pickup block.base)
    {ran left lost : List Work}
    (h : Holding c block.pickup block.base g σ (.enter site) ran left lost) :
    Holding c block.pickup block.base g
      (after numNodes c.lanesPerGroup block.pickup block.base site)
      (afterSite (c.isLeader g) site) ran left lost := by
  have hnone : block.pickup.total ≤ block.base → share c block.pickup block.base g = [] :=
    fun hspent => share_eq_nil hc hspent g
  cases hleader with
  | enterStart | enterSeek | enterSpent | enterSettled => exact h
  | enterNarrow => exact h.1
  | enterFound =>
      obtain ⟨hran, hleft, hlost⟩ := h
      rcases after_nodeLeave_cases numNodes c.lanesPerGroup block.pickup block.base with
        ⟨hdone, h⟩ | ⟨-, hbase, h⟩ | ⟨-, -, -, h⟩ | ⟨-, -, hnarrow, h⟩ <;> rw [h]
      · have hbase := hfits.resolve_left (Nat.not_lt.2 hdone)
        exact ⟨hran, hleft.trans (hnone (hbase ▸ le_noWork _)), hlost⟩
      · exact ⟨hran, hleft.trans (hnone (hbase ▸ le_noWork _)), hlost⟩
      · exact ⟨⟨hran, hleft, hlost⟩, by rw [hran, hleft, List.nil_append]⟩
      · obtain ⟨lo, hi, hspan⟩ := share_eq_span hc htiles hnarrow block.base g
        exact ⟨⟨hran, hleft, hlost⟩, lo, hi, by rw [hran, hleft, List.nil_append, hspan]⟩
  | enterWide =>
      obtain ⟨⟨hleft, hlost⟩, hshare⟩ := h
      rw [hleft, List.append_nil] at hshare
      exact ⟨hshare, hleft, hlost⟩
  | enterClaimed =>
      obtain ⟨hran, hleft, hlost⟩ := h
      rcases after_claimLeave_cases numNodes c.lanesPerGroup block.pickup block.pickup block.base
        with ⟨hspent, h⟩ | ⟨-, h⟩ <;> rw [h]
      · exact ⟨hran, hleft.trans (hnone hspent), hlost⟩
      · exact ⟨⟨hran, hleft, hlost⟩, by rw [hran, hleft, List.nil_append]⟩
  | enterSearch _ | enterCollect _ | enterClaim _ | gone _ _ _ _ => contradiction

/-- At the end of a wide pass all threads of its claim have been counted. -/
theorem Held.finishedThreads_of_met {site : Site} (h : Held c b .wide block place l)
    (hplace : ∀ g ∈ c.party (some b), place g = .enter site)
    (hsite : site = .finish block.pickup) :
    block.finishedThreads.toNat =
      ((c.party (some b)).flatMap (share c block.pickup block.base)).length := by
  subst hsite
  rw [h.tallied fun g hmem => by rw [hplace g hmem]; rfl, List.length_flatMap]
  congr 1
  apply List.map_congr_left
  intro g hmem
  have hholding := h.holding g hmem
  rw [hplace g hmem] at hholding ⊢
  obtain ⟨⟨hleft, -⟩, hshare⟩ := hholding
  rw [hleft, List.append_nil] at hshare
  rw [counted, if_pos rfl, hshare]

theorem Held.meet_tallied {site : Site} {first : UInt32} {numNodes : Nat}
    (hpos : 0 < c.groupsPerBlock.toNat) (h : Held c b σ block place l)
    (hpickup : block'.pickup = block.pickup) (hbase : block'.base = block.base)
    (hfinished : block'.finishedThreads = block.finishedThreads)
    (hleader : Admits numNodes true first block.pickup block.base σ (.enter site))
    (hplace : ∀ g ∈ c.party (some b), place g = .enter site)
    (hplace' : ∀ g ∈ c.party (some b), place' g = afterSite (c.isLeader g) site) :
    Tallied c b block' place' l.ran
      (after numNodes c.lanesPerGroup block.pickup block.base site) := by
  have hwide : block.finishedThreads = 0 → (∀ g ∈ c.party (some b), ∀ held,
      place' g ≠ .enter (.finish held)) → Tallied c b block' place' l.ran wide := by
    intro hzero hother _
    have hsum : ((c.party (some b)).map fun g => counted block'.pickup (place' g) (l.ran g)) =
        (c.party (some b)).map fun _ => 0 :=
      List.map_congr_left fun g hmem => if_neg (hother g hmem _)
    rw [hfinished, hzero, hsum]
    simp
  have htallied := h.tallied
  cases hleader with
  | enterStart | enterSeek | enterSpent | enterSettled | enterNarrow =>
      exact hfinished.trans htallied
  | enterFound =>
      rcases after_nodeLeave_cases numNodes c.lanesPerGroup block.pickup block.base with
        ⟨-, h⟩ | ⟨-, -, h⟩ | ⟨-, -, -, h⟩ | ⟨-, -, -, h⟩ <;> rw [h]
      · exact hfinished.trans htallied
      · exact hfinished.trans htallied
      · exact hwide htallied fun g hmem held => by simp [hplace' g hmem, afterSite]
      · exact hfinished.trans htallied
  | enterClaimed =>
      rcases after_claimLeave_cases numNodes c.lanesPerGroup block.pickup block.pickup block.base
        with ⟨-, h⟩ | ⟨-, h⟩ <;> rw [h]
      · exact hfinished.trans htallied
      · exact hwide htallied fun g hmem held => by simp [hplace' g hmem, afterSite]
  | enterWide =>
      have hlead : c.groupAt b 0 ∈ c.party (some b) :=
        (LaunchConfig.mem_party_some hpos).2 (LaunchConfig.blockOf_groupAt hpos b hpos)
      have hcollect : place' (c.groupAt b 0) = .collect block.pickup := by
        rw [hplace' _ hlead, LaunchConfig.isLeader_groupAt b hpos]
        rfl
      simp only [after, Tallied, hcollect]
      rw [hfinished, hpickup, hbase]
      exact h.finishedThreads_of_met hplace rfl
  | enterSearch _ | enterCollect _ | enterClaim _ | gone _ _ _ _ => contradiction

/-- When the groups of a block have met, they hold what the next stage wants. -/
theorem Held.meet {site : Site} {first : UInt32} {numNodes : Nat} (hc : c.Valid)
    (h : Held c b σ block place l)
    (hpickup : block'.pickup = block.pickup) (hbase : block'.base = block.base)
    (hfinished : block'.finishedThreads = block.finishedThreads)
    (hleader : Admits numNodes true first block.pickup block.base σ (.enter site))
    (hfits : σ.Fits numNodes c.lanesPerGroup block.pickup block.base)
    (hplace : ∀ g ∈ c.party (some b), place g = .enter site)
    (hplace' : ∀ g ∈ c.party (some b), place' g = afterSite (c.isLeader g) site) :
    Held c b (after numNodes c.lanesPerGroup block.pickup block.base site) block' place' l := by
  refine ⟨hpickup ▸ h.tiles, fun g hmem => ?_,
    h.meet_tallied hc.groups_pos hpickup hbase hfinished hleader hplace hplace'⟩
  rw [hpickup, hbase, hplace' g hmem]
  exact Held.meet_holding hc h.tiles hleader hfits (hplace g hmem ▸ h.holding g hmem)

end Meetings

end LaunchState
end Lockstep
