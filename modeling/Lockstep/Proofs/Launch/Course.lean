import Lockstep.Proofs.Launch.Live

/-!
# The course of a launch

A launch stays quiet until its first group has started the run; from then on the
invariant of launches under way holds in every state that a schedule leads to.
-/

namespace Lockstep
namespace LaunchState

open Stage

variable {η : Type} {c : LaunchConfig} {d : Dispatcher η} {s s' : LaunchState η} {g : Nat}
  {stage stage' : Nat → Stage} {l : Ledger}

/-- What holds of a launch that has not started its run, or could not. -/
structure Quiet (c : LaunchConfig) (s : LaunchState η) (stage : Nat → Stage) (l : Ledger) :
    Prop where
  first : s.phase 0 = .init ∨ (s.phase 0).isGone = true
  others : ∀ g, s.phase g = .init → g = 0
  tiles : ∀ i, c.Tiles (s.graph.pickup i).threadsPerInvocation
  gather : ∀ b < c.numBlocks.toNat, stage b = gather
  pickup : ∀ b < c.numBlocks.toNat, (s.block b).pickup = (BlockState.initial 0).pickup
  finishedThreads : ∀ b < c.numBlocks.toNat, (s.block b).finishedThreads = 0
  ledger : l = .empty

def OnCourse (c : LaunchConfig) (s : LaunchState η) (stage : Nat → Stage) (l : Ledger) : Prop :=
  Quiet c s stage l ∨ Live c s stage l

namespace Quiet

theorem of_phase {p : Phase} (h : Quiet c s stage l)
    (hphase : ∀ g', s'.phase g' = if g' = g then p else s.phase g') (hp : p ≠ .init)
    (hfirst : g = 0 → p.isGone = true) (hspecs : s.graph.SameSpecs s'.graph)
    (hstage : ∀ b < c.numBlocks.toNat, stage' b = Stage.gather)
    (hnotes : s.SameNotes s') : Quiet c s' stage' l := by
  refine ⟨?_, fun g' hg' => ?_, fun i => ?_, hstage,
    fun b hb => (hnotes.pickup b).trans (h.pickup b hb),
    fun b hb => (hnotes.finishedThreads b).trans (h.finishedThreads b hb), h.ledger⟩
  · rw [hphase]
    split
    · rename_i hg
      exact .inr (hfirst hg.symm)
    · exact h.first
  · rw [hphase] at hg'
    split at hg'
    · exact absurd hg' hp
    · exact h.others g' hg'
  · rw [hspecs.threadsPerInvocation]
    exact h.tiles i

theorem place (h : Quiet c s stage l) (hcoherent : Coherent c s stage) (hg : g < c.numGroups) :
    s.place c g = .init ∨ s.place c g = .enter .start ∨ (s.place c g).isGone = true := by
  have hallows := hcoherent.allows g hg
  unfold Allows at hallows
  rw [h.gather _ (LaunchConfig.blockOf_lt hg)] at hallows
  generalize s.place c g = p at hallows
  cases hallows with
  | init => exact .inl rfl
  | enterStart => exact .inr (.inl rfl)
  | gone _ _ hphase _ => exact .inr (.inr hphase)

/-- The run starts: no work has been claimed, and the first node with work is current. -/
theorem start {p : Phase} {graph : TaskGraph η} {trace : DeviceTrace} (hc : c.Valid)
    (h : Quiet c s stage l)
    (hinit : s.graph.init s.device.shared s.trace = (.ok (), graph, trace))
    (hphase : s.phase g = .init) (hp : p ≠ .init)
    (hm : Moved c g p (s.block (c.blockOf g)) graph s s') (hcoherent : Coherent c s' stage')
    (hstage : ∀ b < c.numBlocks.toNat, stage' b = Stage.gather) : Live c s' stage' l := by
  obtain rfl := h.ledger
  have hbegun := TaskGraph.begun_of_init hinit
  have hspecs := TaskGraph.sameSpecs_init hinit
  have hblock := hm.block_self
  have hnone : ∀ b < c.numBlocks.toNat, s'.graph.numNodes ≤ (s'.block b).pickup.node.index := by
    intro b hb
    have hlt := s'.graph.numNodes_lt
    rw [hblock, h.pickup b hb]
    exact Nat.le_of_lt_succ hlt
  have hplace : ∀ b < c.numBlocks.toNat, ∀ cursor,
      s'.place c (c.groupAt b 0) ≠ .pickUp cursor := by
    intro b hb cursor hcase
    have hallows := hcoherent.allows _ (LaunchConfig.groupAt_lt hb hc.groups_pos)
    unfold Allows at hallows
    rw [hcase, LaunchConfig.blockOf_groupAt hc.groups_pos b hc.groups_pos, hstage b hb] at hallows
    cases hallows with
    | gone _ _ hgone _ => exact absurd hgone Bool.false_ne_true
  refine ⟨fun g' heq => ?_, fun i => ?_, fun b hb => ?_, fun b hb => ?_, fun i => ?_, ?_, ?_, ?_⟩
  · rw [hm.phase] at heq
    split at heq
    · exact hp heq
    · rename_i hne
      exact hne ((h.others g' heq).trans (h.others g hphase).symm)
  · rw [hm.graph, hspecs.threadsPerInvocation]
    exact h.tiles i
  · exact ⟨fun hnode => absurd (hnone b hb) (Nat.not_le.2 hnode), fun _ => hnone b hb,
      fun _ hσ => by simp [hstage b hb] at hσ,
      fun cursor hcase => absurd hcase (hplace b hb cursor),
      fun hnode => absurd (hnone b hb) (Nat.not_le.2 hnode)⟩
  · rw [hstage b hb, hblock]
    refine ⟨?_, fun _ _ => ⟨rfl, rfl, rfl⟩, h.finishedThreads b hb⟩
    rw [h.pickup b hb]
    exact ⟨Nat.one_pos, fun _ => Nat.one_dvd _, Nat.one_dvd _⟩
  · have hsum := sum_map_le (show ∀ b ∈ List.range c.numBlocks.toNat,
        allowance c s'.graph.numNodes b (stage' b) (s'.block b) (s'.place c) i ≤ 2 * width c from
      fun b _ => allowance_le ..)
    rw [List.length_range] at hsum
    simp only [allowances, room, hm.graph, (hbegun.untouched i).1] at hsum ⊢
    omega
  · rw [hm.graph]
    exact .of_begun hbegun
  · rw [hm.graph]
    exact fun _ => hbegun.current
  · rw [hm.graph]
    exact hbegun.resolved

theorem step_enter {site : Site} (h : Quiet c s stage l) (hcoherent : Coherent c s stage)
    (hg : g < c.numGroups) (hg₀ : g ≠ 0) (hphase : s.phase g = .enter site)
    (harrives : Arrives c g site s s') :
    Quiet c s' (nextStage c s g stage) l ∧ s'.graph = s.graph := by
  rw [nextStage_of_enter hphase]
  cases harrives with
  | turnedAway haborted hm =>
      rw [if_neg fun hmeets => Bool.false_ne_true (hmeets.1.symm.trans haborted)]
      exact ⟨h.of_phase hm.phase (by simp) (fun hg => absurd hg hg₀) (hm.graph ▸ .refl _) h.gather
        hm.sameNotes, hm.graph⟩
  | waits hmeets _ hm =>
      rw [if_neg hmeets]
      exact ⟨h.of_phase hm.phase (by simp) (fun hg => absurd hg hg₀) (hm.graph ▸ .refl _) h.gather
        hm.sameNotes, hm.graph⟩
  | meets hmeets hm =>
      -- The first group is missing.
      have hfirst := (hcoherent.meeting hg hphase hmeets hm).before 0 (Nat.zero_lt_of_lt hg)
      have hplace : s.place c g = .enter site := place_of_phase hphase (by simp)
      obtain rfl : site = .start := by
        rcases h.place hcoherent hg with hplace' | hplace' | hplace' <;> rw [hplace] at hplace'
        · contradiction
        · exact Phase.enter.inj hplace'
        · contradiction
      have hplace := hfirst rfl
      rcases h.first with hinit | hgone
      · rw [place_of_phase hinit (by simp)] at hplace
        contradiction
      · rw [place_of_phase rfl fun site n heq => by
          rw [heq] at hgone
          contradiction] at hplace
        rw [hplace] at hgone
        contradiction

theorem step_waiting {site : Site} {n : Nat} (h : Quiet c s stage l)
    (hcoherent : Coherent c s stage) (hg : g < c.numGroups) (hg₀ : g ≠ 0)
    (hphase : s.phase g = .waiting site n) (hlooks : Looks c g site n s s') :
    Quiet c s' stage l ∧ s'.graph = s.graph := by
  cases hlooks with
  | blocked _ _ hs => exact ⟨by rwa [hs], by rw [hs]⟩
  | released hn hm =>
      have hplace := h.place hcoherent hg
      rw [place_of_waiting hphase, if_neg hn] at hplace
      rcases hplace with hplace | hplace | hplace <;> cases site <;>
        simp only [afterSite] at hplace <;> (try split at hplace) <;>
        first | contradiction | cases hplace
  | sentAway _ _ hm =>
      exact ⟨h.of_phase hm.phase (by simp) (fun hg => absurd hg hg₀) (hm.graph ▸ .refl _) h.gather
        hm.sameNotes, hm.graph⟩

theorem step_aborting {fault : Fault} {n : Nat} (h : Quiet c s stage l)
    (hreleases : Releases c g fault s s' n) : Quiet c s' stage l ∧ s'.graph = s.graph := by
  cases hreleases with
  | mark hm =>
      obtain ⟨hpickup, hbase, hfinished⟩ := Moved.sameNotes (s := { s with aborted := true }) hm
      exact ⟨h.of_phase hm.phase (by simp) (fun _ => rfl) (hm.graph ▸ .refl _) h.gather
        ⟨hpickup, hbase, hfinished⟩, hm.graph⟩
  | done _ _ hm =>
      exact ⟨h.of_phase hm.phase (by simp) (fun _ => rfl) (hm.graph ▸ .refl _) h.gather
        hm.sameNotes, hm.graph⟩
  | start hm | block _ _ hm =>
      exact ⟨h.of_phase hm.phase (by simp) (fun _ => rfl) (hm.graph ▸ .refl _) h.gather
        hm.sameNotes, hm.graph⟩

theorem turn_of_move {p q : Phase} {block : BlockState} {graph : TaskGraph η}
    (h : Quiet c s stage l)
    (hcoherent : Coherent c s stage) (hg : g < c.numGroups) (hphase : s.phase g = q)
    (hapart : q.isApart = true) (hmove : Move c g s (s.block (c.blockOf g)) q p block graph) :
    ∃ σ', Turn c g s (s.block (c.blockOf g)) Stage.gather q σ' p block graph ∧
      nextStage c s g stage = Function.update stage (c.blockOf g) σ' := by
  have hq : ∀ site n, q ≠ .waiting site n := by
    rintro site n rfl
    contradiction
  obtain ⟨σ', hturn⟩ := hcoherent.turn hg hphase hq hmove
  have hstage := hturn.nextStage_eq hphase rfl
  rw [h.gather _ (LaunchConfig.blockOf_lt hg)] at hturn
  exact ⟨σ', hturn, hstage⟩

/-- Only the start of the run is left to do. -/
theorem phase_of_isApart (h : Quiet c s stage l) (hcoherent : Coherent c s stage)
    (hapart : (s.phase g).isApart = true) : s.phase g = .init := by
  cases stepped (d := ⟨#[]⟩) hcoherent.groups_size hcoherent.blocks_size g with
  | moves hg hphase hapart hmove _ =>
      obtain ⟨_, hturn, -⟩ := h.turn_of_move hcoherent hg hphase hapart hmove
      rw [hphase]
      cases hturn with
      | init | initFault => rfl
  | arrives _ hphase _ | looks _ hphase _ | releases _ hphase _ =>
      rw [hphase] at hapart
      contradiction
  | stays hphase _ =>
      cases hq : s.phase g <;> rw [hq] at hphase hapart <;> contradiction

theorem not_isPosting (h : Quiet c s stage l) (hcoherent : Coherent c s stage) (g : Nat) :
    (s.phase g).isPosting = false := by
  apply eq_false_of_ne_true
  intro hposting
  have hapart : (s.phase g).isApart = true := by
    cases hq : s.phase g <;> rw [hq] at hposting <;> first | rfl | contradiction
  rw [h.phase_of_isApart hcoherent hapart] at hposting
  contradiction

theorem stay (h : Quiet c s stage l) (hcoherent : Coherent c s stage)
    (hphase₀ : s.phase g ≠ .init) :
    Quiet c (step c d g s) (nextStage c s g stage) (nextLedger c d s g l) ∧
      (step c d g s).graph = s.graph := by
  have hfirst : ∀ {p : Phase}, s.phase g = p → p.isGone = false → g ≠ 0 := by
    rintro p hphase hgone rfl
    rcases h.first with hinit | hgone'
    · exact hphase₀ hinit
    · rw [hphase, hgone] at hgone'
      contradiction
  rw [nextLedger_same rfl (h.not_isPosting hcoherent g)]
  cases stepped (d := d) hcoherent.groups_size hcoherent.blocks_size g with
  | moves hg hphase hapart hmove hm =>
      obtain ⟨_, hturn, -⟩ := h.turn_of_move hcoherent hg hphase hapart hmove
      cases hturn with
      | init | initFault => exact absurd hphase hphase₀
  | arrives hg hphase harrives =>
      exact h.step_enter hcoherent hg (hfirst hphase rfl) hphase harrives
  | looks hg hphase hlooks =>
      simp only [nextStage, hphase]
      exact h.step_waiting hcoherent hg (hfirst hphase rfl) hphase hlooks
  | releases _ hphase hreleases =>
      simp only [nextStage, hphase]
      exact h.step_aborting hreleases
  | stays hphase hs =>
      rw [hs, nextStage_of_isOver hphase]
      exact ⟨h, rfl⟩

/-- The first group starts the run, or fails to. -/
theorem begin (hc : c.Valid) (h : Quiet c s stage l) (hcoherent : Coherent c s stage)
    (hphase₀ : s.phase g = .init) :
    (Live c (step c d g s) (nextStage c s g stage) (nextLedger c d s g l) ∧
      ∃ trace, s.graph.init s.device.shared s.trace = (.ok (), (step c d g s).graph, trace)) ∨
    Quiet c (step c d g s) (nextStage c s g stage) (nextLedger c d s g l) ∧
      ((step c d g s).phase 0).isGone = true ∧ ∃ fault trace,
        s.graph.init s.device.shared s.trace = (.error fault, (step c d g s).graph, trace) := by
  have hnext := hcoherent.step (d := d) g
  rw [nextLedger_same rfl (h.not_isPosting hcoherent g)]
  cases stepped (d := d) hcoherent.groups_size hcoherent.blocks_size g with
  | moves hg hphase hapart hmove hm =>
      obtain ⟨σ', hturn, hstage⟩ := h.turn_of_move hcoherent hg hphase hapart hmove
      rw [hstage] at hnext ⊢
      have hgather : ∀ b < c.numBlocks.toNat,
          Function.update stage (c.blockOf g) Stage.gather b = Stage.gather := by
        intro b hb
        by_cases hblock : b = c.blockOf g
        · rw [hblock, Function.update_self]
        · rw [Function.update_of_ne hblock, h.gather b hb]
      have hself := hm.phase g
      rw [if_pos rfl] at hself
      cases hturn with
      | @init _ trace hinit =>
          refine .inl ⟨h.start hc hinit hphase (by simp) hm hnext hgather, trace, ?_⟩
          rw [hm.graph]
          exact hinit
      | @initFault fault _ trace hinit =>
          refine .inr ⟨h.of_phase hm.phase (by simp) (fun _ => rfl)
            (hm.graph ▸ TaskGraph.sameSpecs_init hinit) hgather
            hm.sameNotes, ?_, fault, trace, ?_⟩
          · rw [← h.others g hphase, hself]
            rfl
          · rw [hm.graph]
            exact hinit
  | arrives _ hphase _ | looks _ hphase _ | releases _ hphase _ =>
      rw [hphase₀] at hphase
      contradiction
  | stays hphase _ =>
      rw [hphase₀] at hphase
      contradiction

theorem step (hc : c.Valid) (h : Quiet c s stage l) (hcoherent : Coherent c s stage) (g : Nat) :
    OnCourse c (step c d g s) (nextStage c s g stage) (nextLedger c d s g l) := by
  by_cases hphase : s.phase g = .init
  · rcases h.begin hc hcoherent hphase with ⟨h, -⟩ | ⟨h, -⟩
    · exact .inr h
    · exact .inl h
  · exact .inl (h.stay hcoherent hphase).1

end Quiet

namespace Live

theorem not_led (hpos : 0 < c.groupsPerBlock.toNat) (hcoherent : Coherent c s stage)
    (hg : g < c.numGroups)
    (hplace : (∃ site, s.place c g = .enter site) ∨ (s.place c g).isGone = true) :
    g = c.groupAt (c.blockOf g) 0 → (stage (c.blockOf g)).isLed = false := by
  intro hlead
  have hallows := hcoherent.allows g hg
  unfold Allows at hallows
  have hleader : c.isLeader g = true := by
    rw [hlead, LaunchConfig.isLeader_groupAt _ hpos]
    rfl
  have hled : c.isLeader g = false ∨ (stage (c.blockOf g)).isLed = false := by
    rcases hplace with ⟨site, hplace⟩ | hplace
    · rw [hplace] at hallows
      exact hallows.not_led
    · exact hallows.not_led_of_isGone hplace
  exact hled.resolve_left fun hfollower => absurd (hleader.symm.trans hfollower) (by decide)

theorem step_enter {site : Site} (hc : c.Valid) (h : Live c s stage l)
    (hcoherent : Coherent c s stage) (hg : g < c.numGroups) (hphase : s.phase g = .enter site)
    (harrives : Arrives c g site s s') : Live c s' (nextStage c s g stage) l := by
  have hplace : s.place c g = .enter site := place_of_phase hphase (by simp)
  rw [nextStage_of_enter hphase]
  cases harrives with
  | turnedAway haborted hm =>
      rw [if_neg fun hmeets => Bool.false_ne_true (hmeets.1.symm.trans haborted)]
      exact h.of_gone hc hm.graph hm.sameNotes hm.phase (fun _ hne => hm.place_other hne) rfl
        (.inl ⟨site, hplace⟩) (not_led hc.groups_pos hcoherent hg (.inl ⟨site, hplace⟩))
  | waits hmeets _ hm =>
      rw [if_neg hmeets]
      exact h.of_places hc hm.graph hm.sameNotes hm.phase (by simp) (by rw [hphase]; rfl)
        (place_of_waits hphase hm rfl)
  | meets hmeets hm =>
      rw [if_pos hmeets]
      exact h.meet hc hcoherent hg hphase hm (hcoherent.meeting hg hphase hmeets hm)

theorem step_waiting {site : Site} {n : Nat} (hc : c.Valid) (h : Live c s stage l)
    (hcoherent : Coherent c s stage) (hg : g < c.numGroups)
    (hphase : s.phase g = .waiting site n) (hlooks : Looks c g site n s s') :
    Live c s' stage l := by
  have hplace := place_of_waiting (c := c) hphase
  cases hlooks with
  | blocked _ _ hs => rwa [hs]
  | released hn hm =>
      exact h.of_places hc hm.graph hm.sameNotes hm.phase (afterSite_ne_init _ _)
        (by rw [hphase]; rfl) (place_of_released hphase hn hm)
  | sentAway hn _ hm =>
      rw [if_pos hn] at hplace
      exact h.of_gone hc hm.graph hm.sameNotes hm.phase (fun _ hne => hm.place_other hne) rfl
        (.inl ⟨site, hplace⟩) (not_led hc.groups_pos hcoherent hg (.inl ⟨site, hplace⟩))

theorem step_aborting {fault : Fault} {n : Nat} (hc : c.Valid) (h : Live c s stage l)
    (hcoherent : Coherent c s stage) (hg : g < c.numGroups)
    (hphase : s.phase g = .aborting fault n) (hreleases : Releases c g fault s s' n) :
    Live c s' stage l := by
  have hgone : (s.place c g).isGone = true := by
    rw [place_of_phase hphase (by simp)]
    rfl
  have hled := not_led hc.groups_pos hcoherent hg (.inr hgone)
  cases hreleases with
  | mark hm =>
      obtain ⟨hpickup, hbase, hfinished⟩ := Moved.sameNotes (s := { s with aborted := true }) hm
      exact h.of_gone hc hm.graph ⟨hpickup, hbase, hfinished⟩ hm.phase
        (fun _ hne => hm.place_other hne) rfl (.inr hgone) hled
  | start hm | block _ _ hm =>
      exact h.of_gone hc hm.graph hm.sameNotes hm.phase (fun _ hne => hm.place_other rfl hne)
        rfl (.inr hgone) hled
  | done _ _ hm =>
      exact h.of_gone hc hm.graph hm.sameNotes hm.phase (fun _ hne => hm.place_other hne) rfl
        (.inr hgone) hled

theorem step (hc : c.Valid) (h : Live c s stage l) (hcoherent : Coherent c s stage) (g : Nat) :
    Live c (step c d g s) (nextStage c s g stage) (nextLedger c d s g l) := by
  cases stepped (d := d) hcoherent.groups_size hcoherent.blocks_size g with
  | @moves q p block graph hg hphase hapart hmove hm =>
      have hq : ∀ site n, q ≠ .waiting site n := by
        rintro site n rfl
        exact absurd hapart Bool.false_ne_true
      obtain ⟨σ', hturn⟩ := hcoherent.turn hg hphase hq hmove
      rw [hturn.nextStage_eq hphase rfl]
      exact h.turn hc hcoherent hg hphase hapart hturn hm
  | arrives hg hphase harrives =>
      rw [nextLedger_same hphase rfl]
      exact h.step_enter hc hcoherent hg hphase harrives
  | looks hg hphase hlooks =>
      rw [nextLedger_same hphase rfl]
      simp only [nextStage, hphase]
      exact h.step_waiting hc hcoherent hg hphase hlooks
  | releases hg hphase hreleases =>
      rw [nextLedger_same hphase rfl]
      simp only [nextStage, hphase]
      exact h.step_aborting hc hcoherent hg hphase hreleases
  | stays hphase hs => rwa [hs, nextStage_of_isOver hphase, nextLedger_of_isOver hphase]

end Live

namespace OnCourse

theorem initial (hc : c.Valid) {graph : TaskGraph η} (device : Device η) (trace : DeviceTrace)
    (htiles : ∀ i, c.Tiles (graph.pickup i).threadsPerInvocation) :
    OnCourse c (.initial c graph device trace) (fun _ => gather) .empty := by
  have hpos : 0 < c.numGroups := Nat.mul_pos hc.blocks_pos hc.groups_pos
  have hblock : ∀ b < c.numBlocks.toNat, (LaunchState.initial c graph device trace).block b =
      .initial c.groupsPerBlock.toNat := by
    intro b hb
    simp [LaunchState.initial, LaunchState.block, hb]
  refine .inl ⟨.inl ?_, fun g hg => ?_, htiles, fun _ _ => rfl, fun b hb => ?_, fun b hb => ?_, rfl⟩
  · simp [LaunchState.initial, phase, hpos]
  · by_contra hne
    by_cases hlt : g < c.numGroups <;>
      simp [LaunchState.initial, phase, hlt, Ne.symm hne] at hg
  · rw [hblock b hb]
    rfl
  · rw [hblock b hb]
    rfl

theorem step (hc : c.Valid) (h : OnCourse c s stage l) (hcoherent : Coherent c s stage) (g : Nat) :
    OnCourse c (step c d g s) (nextStage c s g stage) (nextLedger c d s g l) := by
  rcases h with h | h
  · exact h.step hc hcoherent g
  · exact .inr (h.step hc hcoherent g)

/-- Every reachable state is on course, with the stages and the ledger of the run. -/
theorem follow (hc : c.Valid) (h : OnCourse c s stage l) (hcoherent : Coherent c s stage)
    (schedule : List Nat) :
    OnCourse c (follow c d schedule s) (stages c d schedule s stage) (ledger c d schedule s l) := by
  induction schedule generalizing s stage l with
  | nil => exact h
  | cons g schedule ih => exact ih (h.step hc hcoherent g) (hcoherent.step g)

end OnCourse
end LaunchState
end Lockstep
