import Lockstep.Proofs.Engine.Accepted
import Lockstep.Proofs.Lane.Tiling
import Lockstep.Proofs.Launch.Ballot
import Mathlib.Algebra.BigOperators.Ring.List

/-!
# Passes

What the lanes of a block, or of one group, get of a claim.  Main statement: for launch
shapes and nodes that pass the checks, each offset below the total comes with each thread
just once, the ballots count the lanes that ran, and what is reported after the pass is the
number of offsets below the total.
-/

namespace Lockstep
namespace LaunchConfig

variable {c : LaunchConfig}

/-- The shape of one block.  How a block shares out a claim does not depend on the number of
blocks, so the number of all groups, which may overflow, does not matter. -/
def oneBlock (c : LaunchConfig) : LaunchConfig := { c with numBlocks := 1 }

theorem issue?_oneBlock (h : c.issue? = none) : c.oneBlock.issue? = none := by
  unfold issue? at h
  split at h
  · contradiction
  · exact h

theorem numGroups_oneBlock (c : LaunchConfig) : c.oneBlock.numGroups < 2 ^ 32 := by
  have hgroups := c.groupsPerBlock.toNat_lt
  change 1 * c.groupsPerBlock.toNat < 2 ^ 32
  omega

end LaunchConfig

namespace LaunchState

variable {η : Type} {c : LaunchConfig} {d : Dispatcher η} {s : LaunchState η} {g : Nat}
  {p : Pickup} {base first : UInt32} {ballot : LaneMask}

theorem sharesOut_block (hc : c.Valid) (htiles : c.Tiles p.threadsPerInvocation) (base : UInt32)
    (b : Nat) : p.SharesOut base c.lanesPerGroup
      (c.groupsPerBlock.toNat * c.lanesPerGroup.toNat / p.threads)
      ((c.party (some b)).map c.firstThread) := by
  refine .of_span (fun first hfirst => ?_) ?_
  · obtain ⟨g, -, rfl⟩ := List.mem_map.1 hfirst
    rw [LaunchConfig.firstThread_toNat hc]
    exact (rank_add_le hc g).trans_lt hc.width_lt
  · have hspan := flatMap_share_eq_span hc htiles base b
    rw [UInt32.toNat_div, LaunchConfig.blockWidth_toNat hc] at hspan
    rw [List.flatMap_map]
    exact hspan

theorem sharesOut_group (htiles : c.Tiles p.threadsPerInvocation)
    (hnarrow : ¬ c.lanesPerGroup < p.threadsPerInvocation) (base : UInt32) :
    p.SharesOut base c.lanesPerGroup (c.lanesPerGroup.toNat / p.threads) [0] := by
  refine .of_span (fun first hfirst => ?_) ?_
  · obtain rfl := List.mem_singleton.1 hfirst
    simpa using c.lanesPerGroup.toNat_lt
  · have hspan := ownShare_eq_span htiles hnarrow base
    rw [UInt32.toNat_div] at hspan
    rw [List.flatMap_singleton]
    exact hspan

/-- A group that serves a narrow claim of its block gets whole invocations. -/
theorem threads_dvd_length_assign (hc : c.Valid) (htiles : c.Tiles p.threadsPerInvocation)
    (hnarrow : ¬ c.lanesPerGroup < p.threadsPerInvocation) (base : UInt32) (g : Nat) :
    p.threads ∣ (p.assign base (c.firstThread g) c.lanesPerGroup).length := by
  obtain ⟨lo, hi, hspan⟩ := share_eq_span hc htiles hnarrow base g
  have hlength := congrArg List.length hspan
  rw [share, List.length_map, Pickup.length_span] at hlength
  exact ⟨_, hlength.trans (Nat.mul_comm _ _)⟩

/-! ## Ballots of a pass -/

/-- A group that sets out to run what its lanes have been `given` comes to this ballot. -/
def Casts (c : LaunchConfig) (d : Dispatcher η) (g : Nat) (given : List (UInt32 × Work))
    (ballot : LaneMask) : Prop :=
  ∃ s schedule, Sized c s ∧ s.phase g = .execute given .empty ∧
    schedule.count g = given.length + 1 ∧ (follow c d schedule s).phase g = .tally ballot

/-- The ballot names just the lanes that have been given work. -/
def IsBallotOf (given : List (UInt32 × Work)) (ballot : LaneMask) : Prop :=
  ballot.count = given.length ∧
    ∀ lane < 64, ballot.contains lane = .ok (decide (lane ∈ given.map Prod.fst))

theorem fails_or_isBallotOf (hlanes : c.lanesPerGroup.toNat ≤ 64) (h : Sized c s)
    (hphase : s.phase g = .execute (p.assign base first c.lanesPerGroup) .empty)
    {schedule : List Nat}
    (hsteps : schedule.count g = (p.assign base first c.lanesPerGroup).length + 1) :
    Fails c d g (p.assign base first c.lanesPerGroup) schedule s ∨
      ∃ ballot, (follow c d schedule s).phase g = .tally ballot ∧
        IsBallotOf (p.assign base first c.lanesPerGroup) ballot := by
  rcases h.ballot hphase (Fresh.assign hlanes p base first) hsteps with
    hfails | ⟨ballot, hend, hcount, hmem⟩
  · exact .inl hfails
  · refine .inr ⟨ballot, hend, by simpa using hcount, fun lane hlane => ?_⟩
    have hhas : ballot.has lane =
        decide (lane ∈ (p.assign base first c.lanesPerGroup).map Prod.fst) :=
      Bool.eq_iff_iff.2 (by simpa using hmem lane)
    rw [ballot.contains_eq hlane, hhas]

theorem Casts.isBallotOf (hlanes : c.lanesPerGroup.toNat ≤ 64)
    (h : Casts c d g (p.assign base first c.lanesPerGroup) ballot) :
    IsBallotOf (p.assign base first c.lanesPerGroup) ballot := by
  obtain ⟨s, schedule, hsized, hphase, hsteps, hend⟩ := h
  rcases fails_or_isBallotOf hlanes hsized hphase hsteps with ⟨hgone, -⟩ | ⟨ballot', hend', hballot⟩
  · rw [hend] at hgone
    contradiction
  · obtain rfl := Phase.tally.inj (hend.symm.trans hend')
    exact hballot

theorem sum_div_threads {groups : List Nat} {count : Nat → Nat} {threads : Nat}
    (hpos : 0 < threads) (h : ∀ g ∈ groups, threads ∣ count g) :
    (groups.map fun g => count g / threads).sum = (groups.map count).sum / threads := by
  have hmul : (groups.map count).sum = (groups.map fun g => count g / threads).sum * threads := by
    rw [← List.sum_map_mul_right]
    congr 1
    exact List.map_congr_left fun g hg => (Nat.div_mul_cancel (h g hg)).symm
  rw [hmul, Nat.mul_div_cancel _ hpos]

end LaunchState

namespace Engine

open LaunchState

variable {η : Type} {e : Engine η} {c : LaunchConfig} {d : Dispatcher η} {g : Nat}

/-- What the leader of a block reports after a pass is the number of offsets below the total
that the block had claimed. -/
theorem IsAccepted.collected (h : e.IsAccepted) {s₀ : LaunchState η} (hs₀ : e.launch? = .ok s₀)
    (schedule : List Nat) {p : Pickup}
    (hphase : (follow e.config.launch e.dispatcher schedule s₀).phase g = .collect p) :
    let c := e.config.launch
    let s := follow c e.dispatcher schedule s₀
    ∃ n, (step c e.dispatcher g s).phase g = .report p.node n ∧
      n.toNat = (p.offsets (s.block (c.blockOf g)).base
        (c.groupsPerBlock.toNat * c.lanesPerGroup.toNat / p.threads)).length := by
  intro c s
  obtain ⟨stage, hreached⟩ := h.reached hs₀ schedule
  have hlive := hreached.onCourse.live hreached.coherent (g := g) (by rw [hphase]; rfl)
    (by rw [hphase]; simp)
  obtain ⟨hg, -, -, htiles, hthreads⟩ := hlive.collected hreached.coherent hphase
  rw [flatMap_share_eq_span hreached.valid htiles, Pickup.length_span, UInt32.toNat_div,
    LaunchConfig.blockWidth_toNat hreached.valid] at hthreads
  refine ⟨(s.block (c.blockOf g)).finishedThreads / p.threadsPerInvocation, ?_, ?_⟩
  · have hgroups : s.groups.size = c.numGroups := hreached.coherent.groups_size
    have hphase' : s.phase g = .collect p := hphase
    simp only [step, hphase']
    rw [phase_goto (by simpa [setBlock, hgroups] using hg), if_pos rfl]
  · rw [UInt32.toNat_div, hthreads, Pickup.length_offsets]
    exact Nat.mul_div_cancel _ htiles.pos

/-- For a launch shape and a node that pass the checks, and any claim of the node: the lanes
of a block, and those of one group when an invocation fits a group, share out the claim.  A
group runs its lanes until an invocation faults, or its ballot names just the lanes that have
been given work.  The ballots of a pass, divided by the threads of an invocation, make the
number of offsets below the total that have been claimed, and so does what the leader of a
block reports. -/
theorem lanes_tile_claims {width : Nat} {graph : TaskGraph η} {spec : NodeSpec η}
    (hissue : c.issue? = none) (hwidth : c.blockThreads = .ok width)
    (hgraph : checkGraph c width d graph = .ok ()) (hspec : spec ∈ graph.specs) (p : Pickup)
    (hthreads : p.threadsPerInvocation = spec.threadsPerInvocation) (base : UInt32) :
    (∀ b, p.SharesOut base c.lanesPerGroup (width / p.threads)
      ((c.party (some b)).map c.firstThread)) ∧
    (p.threadsPerInvocation ≤ c.lanesPerGroup →
      p.SharesOut base c.lanesPerGroup (c.lanesPerGroup.toNat / p.threads) [0]) ∧
    (∀ first g schedule, ∀ s : LaunchState η, Sized c s →
      s.phase g = .execute (p.assign base first c.lanesPerGroup) .empty →
      schedule.count g = (p.assign base first c.lanesPerGroup).length + 1 →
      Fails c d g (p.assign base first c.lanesPerGroup) schedule s ∨
        ∃ ballot, (follow c d schedule s).phase g = .tally ballot ∧
          IsBallotOf (p.assign base first c.lanesPerGroup) ballot) ∧
    (∀ b, ∀ ballot : Nat → LaneMask, (∀ g ∈ c.party (some b),
        Casts c d g (p.assign base (c.firstThread g) c.lanesPerGroup) (ballot g)) →
      ((c.party (some b)).map fun g => (ballot g).count).sum / p.threads =
        (p.offsets base (width / p.threads)).length ∧
      (p.threadsPerInvocation ≤ c.lanesPerGroup →
        ((c.party (some b)).map fun g => (ballot g).count / p.threads).sum =
          (p.offsets base (width / p.threads)).length)) ∧
    (p.threadsPerInvocation ≤ c.lanesPerGroup → ∀ g ballot,
      Casts c d g (p.assign base 0 c.lanesPerGroup) ballot →
      ballot.count / p.threads =
        (p.offsets base (c.lanesPerGroup.toNat / p.threads)).length) ∧
    ∀ (e : Engine η) (s₀ : LaunchState η) (schedule : List Nat) (g : Nat), e.config.launch = c →
      e.IsAccepted → e.launch? = .ok s₀ →
      (follow c e.dispatcher schedule s₀).phase g = .collect p →
      ((follow c e.dispatcher schedule s₀).block (c.blockOf g)).base = base →
      ∃ n, (step c e.dispatcher g (follow c e.dispatcher schedule s₀)).phase g =
          .report p.node n ∧
        n.toNat = (p.offsets base (width / p.threads)).length := by
  obtain ⟨hlt, rfl⟩ := LaunchConfig.blockThreads_eq_ok hwidth
  have hone : c.oneBlock.Valid :=
    valid_of_issue? (LaunchConfig.issue?_oneBlock hissue) hlt c.numGroups_oneBlock
  have htiles : c.oneBlock.Tiles p.threadsPerInvocation := by
    rw [hthreads]
    exact (checked_of_checkGraph (c := c.oneBlock) hgraph hspec).tiles
  have hlanes : c.lanesPerGroup.toNat ≤ 64 := hone.lanes_le
  have hpos : 0 < p.threads := htiles.pos
  have hnarrow : p.threadsPerInvocation ≤ c.lanesPerGroup →
      ¬ c.oneBlock.lanesPerGroup < p.threadsPerInvocation := fun hle => UInt32.not_lt.2 hle
  have hblock := sharesOut_block hone htiles base
  refine ⟨hblock, fun hle => sharesOut_group htiles (hnarrow hle) base,
    fun first g schedule s hsized hphase hsteps => ?_, fun b ballot hcasts => ?_,
    fun hle g ballot hcasts => ?_, ?_⟩
  · exact fails_or_isBallotOf hlanes hsized hphase hsteps
  · have hcount : ∀ g ∈ c.party (some b), (ballot g).count =
        (p.assign base (c.firstThread g) c.lanesPerGroup).length := fun g hg =>
      ((hcasts g hg).isBallotOf hlanes).1
    have hsum : ((c.party (some b)).map fun g => (ballot g).count).sum / p.threads =
        (p.offsets base (c.groupsPerBlock.toNat * c.lanesPerGroup.toNat / p.threads)).length := by
      have hlength := (hblock b).length
      rw [List.map_map] at hlength
      rw [List.map_congr_left hcount]
      exact Nat.div_eq_of_eq_mul_left hpos hlength
    refine ⟨hsum, fun hle => ?_⟩
    rw [sum_div_threads hpos fun g hg => ?_, hsum]
    rw [hcount g hg]
    exact threads_dvd_length_assign hone htiles (hnarrow hle) base g
  · have hlength := (sharesOut_group htiles (hnarrow hle) base).length
    rw [List.map_singleton, List.sum_singleton] at hlength
    rw [(hcasts.isBallotOf hlanes).1]
    exact Nat.div_eq_of_eq_mul_left hpos hlength
  · rintro e s₀ schedule g rfl haccepted hs₀ hphase rfl
    exact haccepted.collected hs₀ schedule hphase

namespace Sample

/-- Eight groups of three lanes: the eight threads of an invocation fill no whole groups. -/
def oddShape : LaunchConfig := ⟨1, 8, 3⟩

def wideSpec : NodeSpec Unit := (NodeSpec.fixed ⟨0⟩ 5).withThreadsPerInvocation 8

def widePickup : Pickup := ⟨⟨0⟩, ⟨0⟩, 4294967295, 8⟩

/-- The second group of the block is about to run its share of a claim at the end of the
words. -/
def odd : LaunchState Unit :=
  (LaunchState.initial oddShape (.ofSpecs [wideSpec]) engine.device engine.trace).goto 1
    (.execute (widePickup.assign 4294967293 (oddShape.firstThread 1) oddShape.lanesPerGroup) .empty)

end Sample

/-- Of a claim at the end of the words, two offsets are below the total; the third one is
beyond what an offset can be. -/
theorem lanes_tile_claims_sample :
    Sample.oddShape.issue? = none ∧ Sample.oddShape.blockThreads = .ok 24 ∧
      checkGraph Sample.oddShape 24 Sample.dispatcher (.ofSpecs [Sample.wideSpec]) = .ok () ∧
      Sample.wideSpec ∈ (TaskGraph.ofSpecs [Sample.wideSpec]).specs ∧
      Sample.widePickup.threadsPerInvocation = Sample.wideSpec.threadsPerInvocation ∧
      Sample.widePickup.SharesOut 4294967293 3 3
        ((Sample.oddShape.party (some 0)).map Sample.oddShape.firstThread) ∧
      (Sample.widePickup.offsets 4294967293 3).length = 2 ∧
      IsBallotOf (Sample.widePickup.assign 4294967293 (Sample.oddShape.firstThread 1) 3) ⟨7⟩ := by
  have hissue : Sample.oddShape.issue? = none := rfl
  have hwidth : Sample.oddShape.blockThreads = .ok 24 := rfl
  have hgraph : checkGraph Sample.oddShape 24 Sample.dispatcher (.ofSpecs [Sample.wideSpec]) =
      .ok () := rfl
  have hspec : Sample.wideSpec ∈ (TaskGraph.ofSpecs [Sample.wideSpec]).specs :=
    List.mem_singleton_self _
  have hthreads : Sample.widePickup.threadsPerInvocation = Sample.wideSpec.threadsPerInvocation :=
    rfl
  obtain ⟨hblock, -, hruns, -⟩ :=
    lanes_tile_claims hissue hwidth hgraph hspec Sample.widePickup hthreads 4294967293
  have hbatch : 24 / Sample.widePickup.threads = 3 := by decide +kernel
  have hend : (follow Sample.oddShape Sample.dispatcher [1, 0, 1, 1, 5, 1] Sample.odd).phase 1 =
      .tally ⟨7⟩ := by decide +kernel
  have hsteps : [1, 0, 1, 1, 5, 1].count 1 = (Sample.widePickup.assign 4294967293
      (Sample.oddShape.firstThread 1) Sample.oddShape.lanesPerGroup).length + 1 := by
    decide +kernel
  refine ⟨hissue, hwidth, hgraph, hspec, hthreads, hbatch ▸ hblock 0, by decide +kernel, ?_⟩
  rcases hruns _ 1 [1, 0, 1, 1, 5, 1] Sample.odd ⟨rfl, rfl⟩ rfl hsteps with
    ⟨hgone, -⟩ | ⟨ballot, htally, hballot⟩
  · rw [hend] at hgone
    exact absurd hgone Bool.false_ne_true
  · obtain rfl := Phase.tally.inj (hend.symm.trans htally)
    exact hballot

end Engine
end Lockstep
