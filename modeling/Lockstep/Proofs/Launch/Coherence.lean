import Lockstep.Proofs.Lane.Mask
import Lockstep.Proofs.Launch.Turn

/-!
# Coherence

In every reachable state each block is in a stage that allows the places of all its
groups, and each barrier has counted exactly the groups that wait at it.  The stages are
a function of the steps taken, so that a run comes with one course of stages.
-/

namespace Lockstep
namespace LaunchState

open Stage

variable {η : Type} {c : LaunchConfig} {d : Dispatcher η} {s s' : LaunchState η} {g : Nat}
  {stage : Nat → Stage}

def stages (c : LaunchConfig) (d : Dispatcher η) : (schedule : List Nat) → LaunchState η →
    (Nat → Stage) → Nat → Stage
  | [], _, stage => stage
  | g :: schedule, s, stage => stages c d schedule (step c d g s) (nextStage c s g stage)

/-- Whether a group may stand at a place while its block is in a stage. -/
def Allows (c : LaunchConfig) (s : LaunchState η) (σ : Stage) (g : Nat) : Phase → Prop :=
  Admits s.graph.numNodes (c.isLeader g) (c.firstThread g) (s.block (c.blockOf g)).pickup
    (s.block (c.blockOf g)).base σ

/-- Every group stands where the stage of its block allows, and each gate has counted just
the groups that wait at it. -/
structure Coherent (c : LaunchConfig) (s : LaunchState η) (stage : Nat → Stage) : Prop where
  groups_size : s.groups.size = c.numGroups
  blocks_size : s.blocks.size = c.numBlocks.toNat
  parties : ∀ k, c.IsGate k → (s.gate k).parties = (c.party k).length
  arrived : ∀ k, c.IsGate k → (s.gate k).aborted = false →
    (s.gate k).arrived = (c.party k).countP (s.waitsAt c k)
  short : ∀ k, c.IsGate k → (s.gate k).aborted = false → (s.gate k).arrived < (s.gate k).parties
  allows : ∀ g < c.numGroups, s.Allows c (stage (c.blockOf g)) g (s.place c g)
  fits : ∀ b < c.numBlocks.toNat,
    (stage b).Fits s.graph.numNodes c.lanesPerGroup (s.block b).pickup (s.block b).base
  gather : ∀ b < c.numBlocks.toNat, ∀ b' < c.numBlocks.toNat, stage b = gather → stage b' = gather

/-- What a meeting at a site does to the groups of its gate, and to the others. -/
structure Meeting (c : LaunchConfig) (g : Nat) (site : Site) (s s' : LaunchState η) : Prop where
  before : ∀ g' < c.numGroups, site.gate (c.blockOf g') = site.gate (c.blockOf g) →
    s.place c g' = .enter site
  after : ∀ g' < c.numGroups, site.gate (c.blockOf g') = site.gate (c.blockOf g) →
    s'.place c g' = afterSite (c.isLeader g') site
  free : ∀ g' < c.numGroups, site.gate (c.blockOf g') = site.gate (c.blockOf g) →
    s'.waitsAt c (site.gate (c.blockOf g)) g' = false
  away : ∀ g' < c.numGroups, site.gate (c.blockOf g') ≠ site.gate (c.blockOf g) →
    s'.place c g' = s.place c g'

namespace Coherent

theorem of_moved {p : Phase} {block : BlockState} {graph : TaskGraph η} {σ : Stage}
    (h : Coherent c s stage) (hg : g < c.numGroups) (hm : Moved c g p block graph s s')
    (hp : ∀ site n, p ≠ .waiting site n)
    (hwait : ∀ k, c.IsGate k → (s.gate k).aborted = false → s.waitsAt c k g = false)
    (hnodes : graph.numNodes = s.graph.numNodes)
    (hσ : σ = Stage.gather ↔ stage (c.blockOf g) = Stage.gather)
    (hself : Admits s.graph.numNodes (c.isLeader g) (c.firstThread g) block.pickup block.base σ p)
    (hothers : ∀ g' < c.numGroups, g' ≠ g → c.blockOf g' = c.blockOf g →
      Admits s.graph.numNodes (c.isLeader g') (c.firstThread g') block.pickup block.base σ
        (s.place c g'))
    (hfits : σ.Fits s.graph.numNodes c.lanesPerGroup block.pickup block.base) :
    Coherent c s' (Function.update stage (c.blockOf g) σ) := by
  have hcount : ∀ k, c.IsGate k → (s.gate k).aborted = false →
      (c.party k).countP (s'.waitsAt c k) = (c.party k).countP (s.waitsAt c k) := by
    intro k hk haborted
    apply List.countP_congr
    intro g' _
    by_cases hne : g' = g
    · subst hne
      rw [hm.waitsAt_self hp, hwait k hk haborted]
    · rw [hm.waitsAt_other hne]
  have hb := LaunchConfig.blockOf_lt hg
  refine ⟨hm.groups_size.trans h.groups_size, hm.blocks_size.trans h.blocks_size, ?_, ?_, ?_, ?_,
    ?_, ?_⟩
  · intro k hk
    rw [hm.gate]
    exact h.parties k hk
  · intro k hk haborted
    rw [hm.gate] at haborted ⊢
    rw [hcount k hk haborted]
    exact h.arrived k hk haborted
  · intro k hk haborted
    rw [hm.gate] at haborted ⊢
    exact h.short k hk haborted
  · intro g' hg'
    unfold Allows
    rw [hm.graph, hnodes, hm.block]
    by_cases hne : g' = g
    · subst hne
      rw [if_pos rfl, Function.update_self, hm.place_self hp]
      exact hself
    · rw [hm.place_other hne]
      by_cases hblock : c.blockOf g' = c.blockOf g
      · rw [if_pos hblock, hblock, Function.update_self]
        exact hothers g' hg' hne hblock
      · rw [if_neg hblock, Function.update_of_ne hblock]
        exact h.allows g' hg'
  · intro b hb'
    rw [hm.graph, hnodes, hm.block]
    by_cases hblock : b = c.blockOf g
    · rw [if_pos hblock, hblock, Function.update_self]
      exact hfits
    · rw [if_neg hblock, Function.update_of_ne hblock]
      exact h.fits b hb'
  · -- The stage of this block is still the first one, or still another one.
    have hkeep : ∀ b, Function.update stage (c.blockOf g) σ b = Stage.gather ↔
        stage b = Stage.gather := by
      intro b
      by_cases hblock : b = c.blockOf g
      · rw [hblock, Function.update_self, hσ]
      · rw [Function.update_of_ne hblock]
    intro b hb₁ b' hb₂ hgather
    rw [hkeep] at hgather ⊢
    exact h.gather b hb₁ b' hb₂ hgather

theorem of_moved_same {p : Phase} {block : BlockState} {graph : TaskGraph η}
    (h : Coherent c s stage) (hg : g < c.numGroups) (hm : Moved c g p block graph s s')
    (hp : ∀ site n, p ≠ .waiting site n)
    (hwait : ∀ k, c.IsGate k → (s.gate k).aborted = false → s.waitsAt c k g = false)
    (hnodes : graph.numNodes = s.graph.numNodes)
    (hpickup : block.pickup = (s.block (c.blockOf g)).pickup)
    (hbase : block.base = (s.block (c.blockOf g)).base)
    (hself : s.Allows c (stage (c.blockOf g)) g p) : Coherent c s' stage := by
  have hlocal := h.of_moved hg hm hp hwait hnodes
    (Iff.refl (stage (c.blockOf g) = Stage.gather))
    (by rwa [hpickup, hbase])
    (by
      intro g' hg' _ hblock
      rw [hpickup, hbase]
      have h' := h.allows g' hg'
      unfold Allows at h'
      rwa [hblock] at h')
    (by
      rw [hpickup, hbase]
      exact h.fits _ (LaunchConfig.blockOf_lt hg))
  rwa [Function.update_eq_self] at hlocal

theorem of_met {p : Phase} {k : Option Nat} {barrier : Barrier} (h : Coherent c s stage)
    (hm : Met c g p k barrier s s')
    (hgen : barrier.generation = (s.gate k).generation)
    (hparties : barrier.parties = (s.gate k).parties)
    (hself : g < c.numGroups → s.Allows c (stage (c.blockOf g)) g (s'.place c g))
    (hwait : ∀ k', k' ≠ k → s'.waitsAt c k' g = s.waitsAt c k' g)
    (harrived : c.IsGate k → barrier.aborted = false →
      barrier.arrived = (c.party k).countP (s'.waitsAt c k) ∧ barrier.arrived < barrier.parties) :
    Coherent c s' stage := by
  refine ⟨hm.groups_size.trans h.groups_size, hm.blocks_size.trans h.blocks_size, ?_, ?_, ?_, ?_,
    ?_, h.gather⟩
  · intro k' hk'
    rw [hm.gate]
    split
    · rename_i hk
      subst hk
      exact hparties.trans (h.parties k' hk')
    · exact h.parties k' hk'
  · intro k' hk' haborted
    rw [hm.gate] at haborted ⊢
    by_cases hk : k' = k
    · subst hk
      rw [if_pos rfl] at haborted ⊢
      exact (harrived hk' haborted).1
    · rw [if_neg hk] at haborted ⊢
      rw [h.arrived k' hk' haborted]
      apply List.countP_congr
      intro g' _
      by_cases hne : g' = g
      · rw [hne, hwait k' hk]
      · rw [hm.waitsAt_other hgen hne]
  · intro k' hk' haborted
    rw [hm.gate] at haborted ⊢
    by_cases hk : k' = k
    · subst hk
      rw [if_pos rfl] at haborted ⊢
      exact (harrived hk' haborted).2
    · rw [if_neg hk] at haborted ⊢
      exact h.short k' hk' haborted
  · intro g' hg'
    unfold Allows
    rw [hm.graph, hm.pickup, hm.base]
    by_cases hne : g' = g
    · subst hne
      exact hself hg'
    · rw [hm.place_other hgen hne]
      exact h.allows g' hg'
  · intro b hb
    rw [hm.graph, hm.pickup, hm.base]
    exact h.fits b hb

theorem all_wait {k : Option Nat} (h : Coherent c s stage) (hk : c.IsGate k)
    (hmem : g ∈ c.party k) (hself : s.waitsAt c k g = false)
    (haborted : (s.gate k).aborted = false) (hlast : (s.gate k).arrived + 1 = (s.gate k).parties)
    {g' : Nat} (hmem' : g' ∈ c.party k) (hne : g' ≠ g) : s.waitsAt c k g' = true := by
  have hcount := countP_or_eq (s.waitsAt c k) hself (c.party k)
  rw [(LaunchConfig.party_nodup k).count, if_pos hmem, ← h.arrived k hk haborted, hlast,
    h.parties k hk] at hcount
  simpa [hne] using List.countP_eq_length.1 hcount g' hmem'

theorem stage_eq {site : Site} (h : Coherent c s stage) (hg : g < c.numGroups) {g' : Nat}
    (hg' : g' < c.numGroups) (hplace : s.place c g = .enter site)
    (hgate : site.gate (c.blockOf g') = site.gate (c.blockOf g)) :
    stage (c.blockOf g') = stage (c.blockOf g) := by
  cases site with
  | start =>
      have hallows := h.allows g hg
      rw [hplace] at hallows
      unfold Allows at hallows
      have hgather : stage (c.blockOf g) = Stage.gather := by
        generalize stage (c.blockOf g) = σ at hallows
        cases hallows with
        | enterStart => rfl
        | gone => contradiction
      rw [hgather]
      exact h.gather _ (LaunchConfig.blockOf_lt hg) _ (LaunchConfig.blockOf_lt hg') hgather
  | claimEnter | claimLeave | nodeEnter | nodeLeave | finish =>
      rw [show c.blockOf g' = c.blockOf g from Option.some.inj hgate]

theorem site_eq {site site' : Site} (h : Coherent c s stage) (hg : g < c.numGroups) {g' : Nat}
    (hg' : g' < c.numGroups) (hplace : s.place c g = .enter site)
    (hplace' : s.place c g' = .enter site')
    (hgate : site.gate (c.blockOf g') = site.gate (c.blockOf g)) : site' = site := by
  have hallows := h.allows g hg
  have hallows' := h.allows g' hg'
  unfold Allows at hallows hallows'
  rw [hplace] at hallows
  rw [hplace', h.stage_eq hg hg' hplace hgate] at hallows'
  cases site with
  | start =>
      generalize stage (c.blockOf g) = σ at hallows hallows'
      cases hallows with
      | enterStart =>
          cases hallows' with
          | enterStart => rfl
          | gone => contradiction
      | gone => contradiction
  | claimEnter | claimLeave | nodeEnter | nodeLeave | finish =>
      rw [show c.blockOf g' = c.blockOf g from Option.some.inj hgate] at hallows'
      exact hallows'.site_eq hallows

theorem place_of_meet {site : Site} (h : Coherent c s stage) (hg : g < c.numGroups)
    (hplace : s.place c g = .enter site)
    (hwaits : ∀ g' ∈ c.party (site.gate (c.blockOf g)), g' ≠ g →
      s.waitsAt c (site.gate (c.blockOf g)) g' = true)
    {g' : Nat} (hg' : g' < c.numGroups)
    (hgate : site.gate (c.blockOf g') = site.gate (c.blockOf g)) :
    s.place c g' = .enter site := by
  by_cases hne : g' = g
  · rw [hne, hplace]
  · obtain ⟨site', _, _, _, _, hplace'⟩ :=
      place_of_waitsAt (hwaits g' ((LaunchConfig.mem_party_gate_iff hg' site _).2 hgate) hne)
    rw [hplace', h.site_eq hg hg' hplace hplace' hgate]

/-- The meeting at a gate: the last group arrives and all go on. -/
theorem meeting {site : Site} (h : Coherent c s stage) (hg : g < c.numGroups)
    (hphase : s.phase g = .enter site) (hmeets : s.Meets (c.blockOf g) site)
    (hm : Met c g (afterSite (c.isLeader g) site) (site.gate (c.blockOf g))
      { s.gate (site.gate (c.blockOf g)) with
        arrived := 0
        generation := (s.gate (site.gate (c.blockOf g))).generation + 1 } s s') :
    Meeting c g site s s' := by
  have hmem := LaunchConfig.mem_party_gate hg site
  have hplace : s.place c g = .enter site := place_of_phase hphase (by simp)
  have hself : ∀ k, s.waitsAt c k g = false := waitsAt_of_phase hphase (by simp)
  have hwaits : ∀ g' ∈ c.party (site.gate (c.blockOf g)), g' ≠ g →
      s.waitsAt c (site.gate (c.blockOf g)) g' = true := fun g' hmem' hne =>
    h.all_wait (LaunchConfig.isGate_gate hg site) hmem (hself _) hmeets.1 hmeets.2 hmem' hne
  have hplaces : ∀ g' < c.numGroups, site.gate (c.blockOf g') = site.gate (c.blockOf g) →
      s.place c g' = .enter site := fun g' hg' hgate => h.place_of_meet hg hplace hwaits hg' hgate
  have hgone : ∀ g' < c.numGroups, site.gate (c.blockOf g') = site.gate (c.blockOf g) →
      s'.place c g' = afterSite (c.isLeader g') site ∧
        s'.waitsAt c (site.gate (c.blockOf g)) g' = false := by
    intro g' hg' hgate'
    by_cases hne : g' = g
    · rw [hne]
      exact ⟨place_of_phase hm.phase_self (afterSite_ne_waiting _ _),
        waitsAt_of_phase hm.phase_self (afterSite_ne_waiting _ _) _⟩
    · have hmem' := (LaunchConfig.mem_party_gate_iff hg' site _).2 hgate'
      obtain ⟨site', n, hphase', hsite, hn, hplace'⟩ := place_of_waitsAt (hwaits g' hmem' hne)
      obtain rfl : site' = site := by
        rw [hplaces g' hg' hgate'] at hplace'
        exact (Phase.enter.inj hplace').symm
      have hover : (s'.gate (site'.gate (c.blockOf g))).generation ≠ n := by
        rw [hm.gate, if_pos rfl, hn]
        exact Nat.succ_ne_self _
      have hnow := (hm.phase_other hne).trans hphase'
      constructor
      · rw [place_of_waiting hnow, hsite, if_neg hover]
      · unfold waitsAt
        rw [hnow]
        exact decide_eq_false fun hn' => hover hn'.2.symm
  refine ⟨hplaces, fun g' hg' hgate => (hgone g' hg' hgate).1,
    fun g' hg' hgate => (hgone g' hg' hgate).2, fun g' hg' hgate' => ?_⟩
  apply hm.place_away (fun hne => hgate' (by rw [hne]))
  intro site' n hphase' hsite
  -- Whoever waits at the gate belongs to it.
  have hmem' := LaunchConfig.mem_party_gate hg' site'
  rw [hsite] at hmem'
  exact hgate' ((LaunchConfig.mem_party_gate_iff hg' site _).1 hmem')

theorem leader_meets {site : Site} (h : Coherent c s stage) (hg : g < c.numGroups)
    (hmeeting : Meeting c g site s s') {b : Nat} (hb : b < c.numBlocks.toNat)
    (hgate : site.gate b = site.gate (c.blockOf g)) :
    Admits s.graph.numNodes true (c.firstThread (c.groupAt b 0)) (s.block b).pickup
      (s.block b).base (stage b) (.enter site) := by
  have hpos := LaunchConfig.groups_pos hg
  have hblock := LaunchConfig.blockOf_groupAt hpos b hpos
  have hlt := LaunchConfig.groupAt_lt hb hpos
  have hallows := h.allows _ hlt
  rw [hmeeting.before _ hlt (by rw [hblock, hgate])] at hallows
  unfold Allows at hallows
  rwa [hblock, LaunchConfig.isLeader_groupAt b hpos] at hallows

theorem meet {site : Site} (h : Coherent c s stage) (hg : g < c.numGroups)
    (hphase : s.phase g = .enter site) (hmeets : s.Meets (c.blockOf g) site)
    (hm : Met c g (afterSite (c.isLeader g) site) (site.gate (c.blockOf g))
      { s.gate (site.gate (c.blockOf g)) with
        arrived := 0
        generation := (s.gate (site.gate (c.blockOf g))).generation + 1 } s s') :
    Coherent c s' fun b =>
      if site.gate b = site.gate (c.blockOf g) then
        after s.graph.numNodes c.lanesPerGroup (s.block b).pickup (s.block b).base site
      else stage b := by
  have hmeeting := h.meeting hg hphase hmeets hm
  have hplace : s.place c g = .enter site := place_of_phase hphase (by simp)
  have hself : ∀ k, s.waitsAt c k g = false := waitsAt_of_phase hphase (by simp)
  have hself' : ∀ k, s'.waitsAt c k g = false :=
    waitsAt_of_phase hm.phase_self (afterSite_ne_waiting _ _)
  have hpos := LaunchConfig.groups_pos hg
  refine ⟨hm.groups_size.trans h.groups_size, hm.blocks_size.trans h.blocks_size, ?_, ?_, ?_, ?_,
    ?_, ?_⟩
  · intro k hk
    rw [hm.gate]
    split
    · rename_i hk'
      subst hk'
      exact h.parties _ hk
    · exact h.parties k hk
  · intro k hk haborted'
    by_cases hk' : k = site.gate (c.blockOf g)
    · subst hk'
      rw [hm.gate, if_pos rfl]
      refine (List.countP_eq_zero.2 fun g' hmem' => ?_).symm
      have hg' := LaunchConfig.party_lt hpos hk hmem'
      rw [hmeeting.free g' hg' ((LaunchConfig.mem_party_gate_iff hg' site _).1 hmem')]
      exact Bool.false_ne_true
    · rw [hm.gate, if_neg hk'] at haborted' ⊢
      rw [h.arrived k hk haborted']
      apply List.countP_congr
      intro g' _
      by_cases hne : g' = g
      · rw [hne, hself, hself']
      · rw [hm.waitsAt_away hne hk']
  · intro k hk haborted'
    by_cases hk' : k = site.gate (c.blockOf g)
    · subst hk'
      rw [hm.gate, if_pos rfl]
      exact hmeets.2 ▸ Nat.succ_pos _
    · rw [hm.gate, if_neg hk'] at haborted' ⊢
      exact h.short k hk haborted'
  · intro g' hg'
    unfold Allows
    rw [hm.graph, hm.pickup, hm.base]
    by_cases hgate' : site.gate (c.blockOf g') = site.gate (c.blockOf g)
    · rw [if_pos hgate', hmeeting.after g' hg' hgate']
      exact (h.leader_meets hg hmeeting (LaunchConfig.blockOf_lt hg') hgate').afterSite
    · rw [if_neg hgate', hmeeting.away g' hg' hgate']
      exact h.allows g' hg'
  · intro b hb
    rw [hm.graph, hm.pickup, hm.base]
    by_cases hgate' : site.gate b = site.gate (c.blockOf g)
    · rw [if_pos hgate']
      exact Fits.after (h.leader_meets hg hmeeting hb hgate') (h.fits b hb)
    · rw [if_neg hgate']
      exact h.fits b hb
  · intro b hb b' hb' hgather
    split at hgather
    · exact absurd hgather (after_ne_gather _ _ _ _ _)
    · rename_i hgate'
      have hallows := h.allows g hg
      rw [hplace] at hallows
      unfold Allows at hallows
      rw [h.gather b hb _ (LaunchConfig.blockOf_lt hg) hgather] at hallows
      cases hallows with
      | enterStart => exact absurd rfl hgate'
      | gone _ _ hphase' _ => exact absurd hphase' Bool.false_ne_true

theorem step_enter {site : Site} (h : Coherent c s stage) (hg : g < c.numGroups)
    (hphase : s.phase g = .enter site) (harrives : Arrives c g site s s') :
    Coherent c s' (nextStage c s g stage) := by
  have hplace : s.place c g = .enter site := place_of_phase hphase (by simp)
  have hallows := h.allows g hg
  rw [hplace] at hallows
  have hself : ∀ k, s.waitsAt c k g = false := waitsAt_of_phase hphase (by simp)
  have hk := LaunchConfig.isGate_gate hg site
  have hmem := LaunchConfig.mem_party_gate hg site
  rw [nextStage_of_enter hphase]
  cases harrives with
  | turnedAway haborted hm =>
      rw [if_neg fun hmeets => Bool.false_ne_true (hmeets.1.symm.trans haborted)]
      exact h.of_moved_same hg hm (by simp) (fun k _ _ => hself k) rfl rfl rfl
        (.gone _ _ rfl hallows.not_led)
  | waits hmeets haborted hm =>
      rw [if_neg hmeets]
      have hphase' := hm.phase_self
      have hgen := hm.generation rfl
      have hwait : ∀ k, s'.waitsAt c k g =
          decide (site.gate (c.blockOf g) = k) := by
        intro k
        unfold waitsAt
        rw [hphase', hgen]
        by_cases hk' : site.gate (c.blockOf g) = k <;> simp [hk']
      have hcount : (c.party (site.gate (c.blockOf g))).countP
          (s'.waitsAt c (site.gate (c.blockOf g))) =
          (s.gate (site.gate (c.blockOf g))).arrived + 1 := by
        have hone := countP_or_eq _ (hself (site.gate (c.blockOf g)))
          (c.party (site.gate (c.blockOf g)))
        rw [(LaunchConfig.party_nodup _).count, if_pos hmem, ← h.arrived _ hk haborted] at hone
        rw [← hone]
        apply List.countP_congr
        intro g' _
        by_cases hne : g' = g
        · simp [hne, hwait]
        · rw [hm.waitsAt_other rfl hne]
          simp [hne]
      refine h.of_met hm rfl rfl ?_ (fun k hk' => ?_) fun _ _ => ⟨hcount.symm, ?_⟩
      · rw [place_of_waiting hphase', hgen, if_pos rfl]
        exact fun _ => hallows
      · rw [hwait, hself]
        exact decide_eq_false (Ne.symm hk')
      · exact lt_of_le_of_ne (h.short _ hk haborted) fun hlast => hmeets ⟨haborted, hlast⟩
  | meets hmeets hm =>
      rw [if_pos hmeets]
      exact h.meet hg hphase hmeets hm

theorem step_waiting {site : Site} {n : Nat} (h : Coherent c s stage) (hg : g < c.numGroups)
    (hphase : s.phase g = .waiting site n) (hlooks : Looks c g site n s s') :
    Coherent c s' stage := by
  have hallows := h.allows g hg
  rw [place_of_waiting hphase] at hallows
  have hself : ∀ k, site.gate (c.blockOf g) ≠ k ∨ n ≠ (s.gate k).generation →
      s.waitsAt c k g = false := by
    intro k hk
    unfold waitsAt
    rw [hphase]
    exact decide_eq_false (not_and_or.2 hk)
  cases hlooks with
  | blocked _ _ hs => rwa [hs]
  | released hn hm =>
      rw [if_neg hn] at hallows
      refine h.of_moved_same hg hm (afterSite_ne_waiting _ _) (fun k _ _ => hself k ?_) rfl rfl rfl
        hallows
      by_cases hk : site.gate (c.blockOf g) = k
      · exact .inr fun h' => hn (by rw [hk, h'])
      · exact .inl hk
  | sentAway hn haborted hm =>
      rw [if_pos hn] at hallows
      refine h.of_moved_same hg hm (by simp) (fun k _ hk => hself k (.inl ?_)) rfl rfl rfl
        (.gone _ _ rfl hallows.not_led)
      rintro rfl
      exact Bool.false_ne_true (hk.symm.trans haborted)

/-! ## Aborts -/

theorem mark (h : Coherent c s stage) : Coherent c { s with aborted := true } stage :=
  ⟨h.groups_size, h.blocks_size, h.parties, h.arrived, h.short, h.allows, h.fits, h.gather⟩

theorem step_aborting {fault : Fault} {n : Nat} (h : Coherent c s stage) (hg : g < c.numGroups)
    (hphase : s.phase g = .aborting fault n) (hreleases : Releases c g fault s s' n) :
    Coherent c s' stage := by
  have hallows := h.allows g hg
  rw [place_of_phase hphase (by simp)] at hallows
  have hself : ∀ k, s.waitsAt c k g = false := waitsAt_of_phase hphase (by simp)
  have hgone : ∀ p : Phase, p.isGone = true → s.Allows c (stage (c.blockOf g)) g p :=
    fun p hp => .gone _ _ hp (hallows.not_led_of_isGone rfl)
  have habort : ∀ (k : Option Nat) (n' : Nat),
      Met c g (.aborting fault n') k (s.gate k).abort s s' →
      Coherent c s' stage := by
    intro k n' hm
    have hphase' := hm.phase_self
    refine h.of_met hm rfl rfl (fun _ => ?_) (fun k' _ => ?_) fun _ haborted => ?_
    · rw [place_of_phase hphase' (by simp)]
      exact hgone _ rfl
    · rw [hself, waitsAt_of_phase hphase' (by simp)]
    · exact Bool.noConfusion haborted
  cases hreleases with
  | mark hm =>
      exact h.mark.of_moved_same hg hm (by simp) (fun k _ _ => hself k) rfl rfl rfl (hgone _ rfl)
  | start hm => exact habort none _ hm
  | block b _ hm => exact habort (some b) _ hm
  | done _ _ hm =>
      exact h.of_moved_same hg hm (by simp) (fun k _ _ => hself k) rfl rfl rfl (hgone _ rfl)

theorem stage_of_exited (h : Coherent c s stage) (hg : g < c.numGroups)
    (hexited : s.phase g = .exited) : stage (c.blockOf g) = Stage.leave := by
  have hallows := h.allows g hg
  rw [place_of_phase hexited (by simp)] at hallows
  unfold Allows at hallows
  generalize stage (c.blockOf g) = σ at hallows
  cases hallows with
  | exited => rfl
  | gone => contradiction

/-! ## Steps and runs -/

theorem turn {p q : Phase} {block : BlockState} {graph : TaskGraph η} (h : Coherent c s stage)
    (hg : g < c.numGroups) (hphase : s.phase g = q) (hq : ∀ site n, q ≠ .waiting site n)
    (hmove : Move c g s (s.block (c.blockOf g)) q p block graph) :
    ∃ σ', Turn c g s (s.block (c.blockOf g)) (stage (c.blockOf g)) q σ' p block graph := by
  have hallows := h.allows g hg
  rw [place_of_phase hphase hq] at hallows
  exact turn_of_move hmove hallows (h.fits _ (LaunchConfig.blockOf_lt hg))

theorem step_turn {p q : Phase} {block : BlockState} {graph : TaskGraph η} {σ' : Stage}
    (h : Coherent c s stage) (hg : g < c.numGroups) (hphase : s.phase g = q)
    (hq : ∀ site n, q ≠ .waiting site n)
    (hturn : Turn c g s (s.block (c.blockOf g)) (stage (c.blockOf g)) q σ' p block graph)
    (hm : Moved c g p block graph s s') :
    Coherent c s' (Function.update stage (c.blockOf g) σ') := by
  refine h.of_moved hg hm hturn.ne_waiting (fun k _ _ => waitsAt_of_phase hphase hq k)
    hturn.sameSpecs.numNodes hturn.gather_iff hturn.allows (fun g' hg' hne hblock => ?_)
    (hturn.fits (h.fits _ (LaunchConfig.blockOf_lt hg)))
  have hallows := h.allows g' hg'
  unfold Allows at hallows
  rw [hblock] at hallows
  rcases hturn.follow with ⟨hσ, hpickup, hbase⟩ | ⟨hleader, hfollow⟩
  · rwa [hσ, hpickup, hbase]
  · have hfollower := LaunchConfig.isLeader_eq_false hleader hne hblock
    rw [hfollower] at hallows ⊢
    exact hfollow _ _ hallows

theorem sameSpecs_step (h : Coherent c s stage) (g : Nat) :
    s.graph.SameSpecs (step c d g s).graph := by
  cases stepped (d := d) h.groups_size h.blocks_size g with
  | @moves q p block graph hg hphase hapart hmove hm =>
      have hq : ∀ site n, q ≠ .waiting site n := by
        rintro site n rfl
        exact Bool.false_ne_true hapart
      obtain ⟨σ', hturn⟩ := h.turn hg hphase hq hmove
      rw [hm.graph]
      exact hturn.sameSpecs
  | arrives _ _ harrives =>
      cases harrives with
      | turnedAway _ hm | waits _ _ hm | meets _ hm => rw [hm.graph]
  | looks _ _ hlooks =>
      cases hlooks with
      | blocked _ _ hs => rw [hs]
      | released _ hm | sentAway _ _ hm => rw [hm.graph]
  | releases _ _ hreleases =>
      cases hreleases with
      | mark hm | start hm | block _ _ hm | done _ _ hm => rw [hm.graph]
  | stays _ hs => rw [hs]

/-- Every step keeps a launch coherent. -/
theorem step (h : Coherent c s stage) (g : Nat) :
    Coherent c (step c d g s) (nextStage c s g stage) := by
  cases stepped (d := d) h.groups_size h.blocks_size g with
  | @moves q p block graph hg hphase hapart hmove hm =>
      have hq : ∀ site n, q ≠ .waiting site n := by
        rintro site n rfl
        exact Bool.false_ne_true hapart
      obtain ⟨σ', hturn⟩ := h.turn hg hphase hq hmove
      rw [hturn.nextStage_eq hphase rfl]
      exact h.step_turn hg hphase hq hturn hm
  | arrives hg hphase harrives => exact h.step_enter hg hphase harrives
  | looks hg hphase hlooks =>
      simp only [nextStage, hphase]
      exact h.step_waiting hg hphase hlooks
  | releases hg hphase hreleases =>
      simp only [nextStage, hphase]
      exact h.step_aborting hg hphase hreleases
  | stays hphase hs =>
      rwa [hs, nextStage_of_isOver hphase]

theorem initial (hpos : 0 < c.numGroups) (graph : TaskGraph η) (device : Device η)
    (trace : DeviceTrace) : Coherent c (.initial c graph device trace) fun _ => .gather := by
  have hgroups := LaunchConfig.groups_pos hpos
  have hphase : ∀ g < c.numGroups, (LaunchState.initial c graph device trace).phase g =
      if g = 0 then .init else .enter .start := by
    intro g hg
    by_cases h : g = 0
    · subst h
      simp [LaunchState.initial, phase, hpos]
    · simp [LaunchState.initial, phase, hg, h, Ne.symm h]
  have hwaiting : ∀ g < c.numGroups, ∀ site n,
      (LaunchState.initial c graph device trace).phase g ≠ .waiting site n := by
    intro g hg site n
    rw [hphase g hg]
    split <;> simp
  have hblock : ∀ b < c.numBlocks.toNat, (LaunchState.initial c graph device trace).block b =
      .initial c.groupsPerBlock.toNat := by
    intro b hb
    simp [LaunchState.initial, LaunchState.block, hb]
  have hgate : ∀ k, c.IsGate k → (LaunchState.initial c graph device trace).gate k =
      .new (c.party k).length := by
    intro k hk
    cases k with
    | none => simp [LaunchState.gate, LaunchState.initial, LaunchConfig.party]
    | some b =>
        simp only [LaunchState.gate, hblock b hk, LaunchConfig.party, List.length_range']
        rfl
  refine ⟨by simp [LaunchState.initial], by simp [LaunchState.initial], ?_, ?_, ?_, ?_, ?_,
    fun _ _ _ _ _ => rfl⟩
  · intro k hk
    rw [hgate k hk]
    rfl
  · intro k hk _
    rw [hgate k hk]
    refine (List.countP_eq_zero.2 fun g hg => ?_).symm
    rw [waitsAt_of_phase rfl (hwaiting g (LaunchConfig.party_lt hgroups hk hg))]
    exact Bool.false_ne_true
  · intro k hk _
    rw [hgate k hk]
    cases k with
    | none => simpa [Barrier.new, LaunchConfig.party] using hpos
    | some b => simpa [Barrier.new, LaunchConfig.party] using hgroups
  · intro g hg
    rw [place_of_phase rfl (hwaiting g hg), hphase g hg]
    split
    · exact .init
    · exact .enterStart
  · intro b hb
    rw [hblock b hb]
    rfl

/-- Every reachable state is coherent, with the stages that the run went through. -/
theorem follow (h : Coherent c s stage) (schedule : List Nat) :
    Coherent c (follow c d schedule s) (stages c d schedule s stage) := by
  induction schedule generalizing s stage with
  | nil => exact h
  | cons g schedule ih => exact ih (h.step g)

theorem sameSpecs_follow (h : Coherent c s stage) (schedule : List Nat) :
    s.graph.SameSpecs (LaunchState.follow c d schedule s).graph := by
  induction schedule generalizing s stage with
  | nil => exact .refl _
  | cons g schedule ih => exact (h.sameSpecs_step g).trans (ih (h.step g))

end Coherent
end LaunchState
end Lockstep
