import Lockstep.Launch.History
import Lockstep.Proofs.Launch.Abort

/-!
# Agreement at the barriers

The groups of a block that wait together wait at one site, they leave together, and
somebody can always go on.  This holds for every launch, every graph and every order of
steps, whatever the invocations do.
-/

namespace Lockstep
namespace LaunchState

open Stage

variable {η : Type} {c : LaunchConfig} {d : Dispatcher η} {s s' : LaunchState η} {g g' : Nat}
  {stage : Nat → Stage}

/-- Whether a group has arrived at a site for the present generation of its barrier. -/
def IsWaiting (c : LaunchConfig) (s : LaunchState η) (g : Nat) (site : Site) : Prop :=
  s.phase g = .waiting site (s.barrierAt (c.blockOf g) site).generation

/-- Whether a group would find, if it looked now, that it still has to wait. -/
def IsBlocked (c : LaunchConfig) (s : LaunchState η) (g : Nat) : Prop :=
  ∃ site n, s.phase g = .waiting site n ∧
    (s.barrierAt (c.blockOf g) site).poll n = .blocked

def IsAborted (s : LaunchState η) : Prop :=
  ∃ g, (∃ fault n, s.phase g = .aborting fault n) ∨ ∃ fault, s.phase g = .faulted fault

theorem not_isAborted (h : ∀ g < s.groups.size, (s.phase g).isGone = false) : ¬ s.IsAborted := by
  have hall : ∀ g, (s.phase g).isGone = false := by
    intro g
    by_cases hg : g < s.groups.size
    · exact h g hg
    · simp [phase, hg, Phase.isGone]
  rintro ⟨g, ⟨fault, n, hphase⟩ | ⟨fault, hphase⟩⟩
  · have hg := hall g
    rw [hphase] at hg
    contradiction
  · have hg := hall g
    rw [hphase] at hg
    contradiction

theorem IsBlocked.waitsAt (h : s.IsBlocked c g) :
    ∃ site, s.place c g = .enter site ∧
      (s.gate (site.gate (c.blockOf g))).aborted = false ∧
      s.waitsAt c (site.gate (c.blockOf g)) g = true := by
  obtain ⟨site, n, hphase, hpoll⟩ := h
  rw [barrierAt_eq_gate, Barrier.poll] at hpoll
  split at hpoll
  · exact absurd hpoll (by simp)
  · rename_i hn
    have hn := not_not.1 hn
    split at hpoll
    · exact absurd hpoll (by simp)
    · rename_i haborted
      refine ⟨site, by rw [place_of_waiting hphase, if_pos hn], eq_false_of_ne_true haborted, ?_⟩
      unfold LaunchState.waitsAt
      rw [hphase]
      exact decide_eq_true ⟨rfl, hn.symm⟩

theorem Contained.isAborted (h : Contained c s) (hgone : (s.phase g).isGone = true) :
    s.IsAborted := by
  have hcause : ∀ g n, (s.phase g).sent c.numBlocks.toNat = some n → s.IsAborted := by
    intro g n hn
    cases hphase : s.phase g <;> rw [hphase] at hn <;> simp [Phase.sent] at hn
    · exact ⟨g, .inl ⟨_, _, hphase⟩⟩
    · exact ⟨g, .inr ⟨_, hphase⟩⟩
  cases hphase : s.phase g with
  | aborting fault n => exact ⟨g, .inl ⟨_, _, hphase⟩⟩
  | faulted fault => exact ⟨g, .inr ⟨_, hphase⟩⟩
  | released =>
      obtain ⟨g', n, hsent⟩ := h.cause (.inr (.inr ⟨g, hphase⟩))
      exact hcause g' n hsent
  | _ =>
      rw [hphase] at hgone
      exact absurd hgone Bool.false_ne_true

/-- A group that faulted and is through with its releases has opened all gates. -/
theorem Contained.gate_aborted {fault : Fault} {k : Option Nat} (h : Contained c s)
    (hphase : s.phase g = .faulted fault) (hk : c.IsGate k) : (s.gate k).aborted = true := by
  have hsent := h.sent g (c.numBlocks.toNat + 2) (by rw [hphase]; rfl)
  cases k with
  | none => exact hsent.start (by omega)
  | some b => exact hsent.block b (Nat.add_lt_add_right hk 2)

namespace Coherent

theorem leaves (h : Coherent c s stage) (hg : g < c.numGroups) (hexited : s.phase g = .exited)
    (hg' : g' < c.numGroups) (hblock : c.blockOf g' = c.blockOf g) :
    s.graph.numNodes ≤ (s.block (c.blockOf g')).pickup.node.index ∧
      (s.place c g' = .decide ∨ s.phase g' = .exited ∨ (s.phase g').isGone = true) := by
  have hallows' := h.allows g' hg'
  have hfits := h.fits _ (LaunchConfig.blockOf_lt hg')
  have hstage := h.stage_of_exited hg hexited
  unfold Allows at hallows'
  rw [hblock, hstage] at hallows' hfits
  rw [hblock]
  refine ⟨hfits, ?_⟩
  generalize hplace : s.place c g' = p at hallows'
  cases hallows' with
  | decideLeave => exact .inl rfl
  | exited => exact .inr (.inl ((phase_of_isOver (by rw [hplace]; rfl)).trans hplace))
  | gone _ _ hgone _ =>
      rw [← hplace] at hgone
      exact .inr (.inr ((phase_of_isGone hgone).symm ▸ hgone))

theorem step_decide (hg : g < s.groups.size) (hphase : s.phase g = .decide)
    (hdone : s.graph.numNodes ≤ (s.block (c.blockOf g)).pickup.node.index) :
    (LaunchState.step c d g s).phase g = .exited := by
  simp only [LaunchState.step, hphase, hdone, if_true]
  rw [phase_goto hg, if_pos rfl]

theorem step_exited (hphase : s.phase g = .exited) : LaunchState.step c d g s = s := by
  simp only [LaunchState.step, hphase]

/-- When one group of a block has left, the others are at most two steps from leaving. -/
theorem exits (h : Coherent c s stage) (hg : g < c.numGroups) (hexited : s.phase g = .exited)
    (hg' : g' < c.numGroups) (hblock : c.blockOf g' = c.blockOf g)
    (hgone : (s.phase g').isGone = false) :
    (LaunchState.follow c d [g', g'] s).phase g' = .exited := by
  have hgs : g' < s.groups.size := h.groups_size ▸ hg'
  have hsize := (h.step (d := d) g').groups_size
  obtain ⟨hdone, hplace | hphase | hgone'⟩ := h.leaves hg hexited hg' hblock
  · simp only [follow_cons, follow_nil]
    cases hphase : s.phase g' with
    | decide =>
        have hfirst := step_decide (d := d) hgs hphase hdone
        rw [step_exited hfirst, hfirst]
    | waiting site n =>
        rw [place_of_waiting hphase] at hplace
        cases step_looks (c := c) (d := d) hgs hphase with
        | blocked hn _ _ | sentAway hn _ _ =>
            rw [if_pos hn] at hplace
            exact absurd hplace (by simp)
        | released hn hm =>
            rw [if_neg hn] at hplace
            refine step_decide (hsize ▸ hg') ?_ ?_
            · rw [hm.phase, if_pos rfl, hplace]
            · rwa [hm.graph, hm.block, if_pos rfl]
    | _ =>
        rw [place_of_phase hphase (by simp)] at hplace
        exact absurd hplace (by simp)
  · rw [follow_cons, step_exited hphase, follow_cons, step_exited hphase]
    exact hphase
  · exact absurd (hgone.symm.trans hgone') Bool.false_ne_true

/-- At a gate that is not aborted somebody is missing. -/
theorem exists_missing {k : Option Nat} (h : Coherent c s stage) (hk : c.IsGate k)
    (haborted : (s.gate k).aborted = false) : ∃ g ∈ c.party k, s.waitsAt c k g = false := by
  by_contra hnone
  have hall : (c.party k).countP (s.waitsAt c k) = (c.party k).length := by
    apply List.countP_eq_length.2
    intro g hmem
    by_contra hmissing
    exact hnone ⟨g, hmem, eq_false_of_ne_true hmissing⟩
  rw [← h.arrived _ hk haborted, ← h.parties _ hk] at hall
  exact absurd hall (h.short _ hk haborted).ne

/-- Who comes to a barrier does so with no group of the gate exited. -/
theorem not_exited {site : Site} (h : Coherent c s stage) (hg : g < c.numGroups)
    (hplace : s.place c g = .enter site) (hg' : g' < c.numGroups)
    (hgate : site.gate (c.blockOf g') = site.gate (c.blockOf g)) : s.phase g' ≠ .exited := by
  intro hexited
  have hallows := h.allows g hg
  unfold Allows at hallows
  rw [hplace, ← h.stage_eq hg hg' hplace hgate, h.stage_of_exited hg' hexited] at hallows
  cases hallows with
  | gone _ _ hgone _ => exact Bool.false_ne_true hgone

theorem exists_free (h : Coherent c s stage) (hcontained : Contained c s)
    (hover : s.isOver = false) :
    ∃ g < c.numGroups, (s.phase g).isOver = false ∧ ¬ s.IsBlocked c g := by
  by_contra hstuck
  have hblocked : ∀ g < c.numGroups, (s.phase g).isOver = false → s.IsBlocked c g := by
    intro g hg hgo
    by_contra hfree
    exact hstuck ⟨g, hg, hgo, hfree⟩
  obtain ⟨g, hg, hgo⟩ : ∃ g < c.numGroups, (s.phase g).isOver = false := by
    obtain ⟨g, hg, hgo⟩ := Array.all_eq_false.1 hover
    exact ⟨g, h.groups_size ▸ hg, by simpa [phase, hg] using hgo⟩
  obtain ⟨site, hplace, haborted, -⟩ := (hblocked g hg hgo).waitsAt
  have hk := LaunchConfig.isGate_gate hg site
  have hcalm : ∀ g', (s.phase g').isGone = false := by
    intro g'
    apply eq_false_of_ne_true
    intro hgone
    obtain ⟨g'', ⟨fault, n, hphase⟩ | ⟨fault, hphase⟩⟩ := hcontained.isAborted hgone
    · have hlt : g'' < c.numGroups := by
        by_contra hge
        simp [phase, h.groups_size, hge] at hphase
      obtain ⟨_, _, hwaiting, -⟩ := hblocked g'' hlt (by rw [hphase]; rfl)
      rw [hphase] at hwaiting
      contradiction
    · have hopen := hcontained.gate_aborted hphase hk
      exact Bool.false_ne_true (haborted.symm.trans hopen)
  obtain ⟨g', hmem, hmissing⟩ := h.exists_missing hk haborted
  have hg' := LaunchConfig.party_lt (LaunchConfig.groups_pos hg) hk hmem
  have hgate := (LaunchConfig.mem_party_gate_iff hg' site _).1 hmem
  cases hover' : (s.phase g').isOver with
  | true =>
      have hgone := hcalm g'
      have hexited : s.phase g' = .exited := by
        cases hphase : s.phase g' <;> rw [hphase] at hover' hgone <;> first | rfl | contradiction
      exact h.not_exited hg hplace hg' hgate hexited
  | false =>
      obtain ⟨site', hplace', -, hwaits⟩ := (hblocked g' hg' hover').waitsAt
      rw [h.site_eq hg hg' hplace hplace' hgate, hgate, hmissing] at hwaits
      exact absurd hwaits Bool.false_ne_true

end Coherent

theorem not_isBlocked_of_exited (h : Coherent c s stage) (hg : g < c.numGroups)
    (hexited : s.phase g = .exited) (hg' : g' < c.numGroups)
    (hblock : c.blockOf g' = c.blockOf g) : ¬ s.IsBlocked c g' := by
  intro hblocked
  obtain ⟨site, hplace, -⟩ := hblocked.waitsAt
  obtain ⟨_, _, hphase, -⟩ := hblocked
  obtain ⟨-, hdecide | hphase' | hgone⟩ := h.leaves hg hexited hg' hblock
  · rw [hplace] at hdecide
    exact absurd hdecide (by simp)
  · rw [hphase] at hphase'
    exact absurd hphase' (by simp)
  · rw [hphase] at hgone
    exact absurd hgone Bool.false_ne_true

theorem isOver_of_no_groups (hc : c.numGroups = 0) (graph : TaskGraph η) (device : Device η)
    (trace : DeviceTrace) (schedule : List Nat) :
    (follow c d schedule (.initial c graph device trace)).isOver = true := by
  have hphase : ∀ g, (LaunchState.initial c graph device trace).phase g = .exited := by
    intro g
    simp [LaunchState.initial, phase, hc]
  have hstay : follow c d schedule (.initial c graph device trace) =
      .initial c graph device trace := by
    induction schedule with
    | nil => rfl
    | cons g schedule ih => rw [follow_cons, Coherent.step_exited (hphase g), ih]
  rw [hstay]
  simp [isOver, LaunchState.initial, hc]

/-- In every reachable state of every launch: the groups of a block that have arrived at a
barrier in its present generation stand at one site and hold the same pickup; when a
group of a block has exited nobody of the block is held back by the barrier, and unless
a group has faulted each of them is at most two steps from its own exit, with no barrier
in between; and as long as the launch is not over, some group that is not through is not
blocked. -/
theorem barriers_agree (c : LaunchConfig) (d : Dispatcher η) (graph : TaskGraph η)
    (device : Device η) (trace : DeviceTrace) (schedule : List Nat) :
    let s := follow c d schedule (.initial c graph device trace)
    (∀ g < c.numGroups, ∀ g' < c.numGroups, c.blockOf g' = c.blockOf g →
      ∀ site site', s.IsWaiting c g site → s.IsWaiting c g' site' → site' = site) ∧
    (∀ g < c.numGroups, ∀ g' < c.numGroups, c.blockOf g' = c.blockOf g →
      s.phase g = .exited →
        ¬ s.IsBlocked c g' ∧ (¬ s.IsAborted → (follow c d [g', g'] s).phase g' = .exited)) ∧
    (s.isOver = false → ∃ g < c.numGroups, (s.phase g).isOver = false ∧ ¬ s.IsBlocked c g) := by
  intro s
  rcases Nat.eq_zero_or_pos c.numGroups with hc | hc
  · refine ⟨fun g hg => ?_, fun g hg => ?_, fun hover => ?_⟩
    · omega
    · omega
    · exact absurd (hover.symm.trans (isOver_of_no_groups hc graph device trace schedule))
        Bool.false_ne_true
  have hcoherent : Coherent c s _ := (Coherent.initial hc graph device trace).follow schedule
  have hcontained : Contained c s :=
    (Contained.initial graph device trace).follow (Coherent.initial hc graph device trace) schedule
  refine ⟨?_, ?_, hcoherent.exists_free hcontained⟩
  · intro g hg g' hg' hblock site site' hwaits hwaits'
    have hplace : ∀ {g site}, s.IsWaiting c g site → s.place c g = .enter site := by
      intro g site hwaits
      rw [place_of_waiting hwaits, barrierAt_eq_gate, if_pos rfl]
    apply hcoherent.site_eq hg hg' (hplace hwaits) (hplace hwaits')
    rw [hblock]
  · intro g hg g' hg' hblock hexited
    refine ⟨not_isBlocked_of_exited hcoherent hg hexited hg' hblock, fun hcalm => ?_⟩
    refine hcoherent.exits hg hexited hg' hblock (eq_false_of_ne_true fun hgone => ?_)
    exact hcalm (hcontained.isAborted hgone)

end LaunchState
end Lockstep
