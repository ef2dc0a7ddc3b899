import Lockstep.Proofs.Launch.InOrder
import Lockstep.Proofs.TaskGraph.BadCount

/-!
# Where faults come from

What the groups of a launch under way divide, report and look up is always in order, so
a group faults only in an invocation of its own or over the count of a dynamic node.
Once a group has faulted its fault stays, and the step that raised it is part of the
schedule.
-/

namespace Lockstep
namespace Phase

/-- The fault that ends a group, from the step that raises it on. -/
def raised? : Phase → Option Fault
  | aborting fault _ | faulted fault => some fault
  | _ => none

theorem isOver_of_isApart {q : Phase} (h : q.isApart = true) : q.isOver = false := by
  cases q <;> first | rfl | contradiction

end Phase

namespace LaunchState

open Stage

variable {η : Type} {c : LaunchConfig} {d : Dispatcher η} {s s' : LaunchState η} {g : Nat}
  {stage : Nat → Stage} {l : Ledger} {fault : Fault} {place : Nat → Phase}

/-- What the next step of a group divides, if it does: the number of threads that have run
for a node, with the node as the block has picked it up. -/
def divided? (c : LaunchConfig) (s : LaunchState η) (g : Nat) : Option (Pickup × UInt32) :=
  let block := s.block (c.blockOf g)
  match s.phase g with
  | .tally executed =>
      if c.lanesPerGroup < block.pickup.threadsPerInvocation then none
      else some (block.pickup, UInt32.ofNat executed.count)
  | .collect held => some (held, block.finishedThreads)
  | _ => none

/-- What makes the next step of a group fault. -/
inductive Raises (c : LaunchConfig) (d : Dispatcher η) (s : LaunchState η) (g : Nat)
    (fault : Fault) : Prop where
  | invocation {lane : UInt32} {work : Work} {pending : List (UInt32 × Work)}
      {executed : LaneMask} {invocation : Invocation η} {context : InvocationContext η}
      {data : NodeData η} (hphase : s.phase g = .execute ((lane, work) :: pending) executed)
      (hget : d.get? work.func = some invocation)
      (h : (invocation context data work.invocationOffset s.device).1 = .error fault)
  | count (hphase : s.phase g = .init ∨ ∃ node n, s.phase g = .report node n)
      (h : s.graph.BadCount s.device.shared fault)

theorem OnCourse.live (h : OnCourse c s stage l) (hcoherent : Coherent c s stage)
    (hapart : (s.phase g).isApart = true) (hbegun : s.phase g ≠ .init) : Live c s stage l := by
  rcases h with hquiet | hlive
  · exact absurd (hquiet.phase_of_isApart hcoherent hapart) hbegun
  · exact hlive

theorem isApart_of_divided? {threads : Pickup × UInt32}
    (hdivided : s.divided? c g = some threads) :
    (s.phase g).isApart = true ∧ s.phase g ≠ .init := by
  unfold divided? at hdivided
  split at hdivided
  · rename_i hphase
    rw [hphase]
    exact ⟨rfl, by simp⟩
  · rename_i hphase
    rw [hphase]
    exact ⟨rfl, by simp⟩
  · contradiction

/-- A leader that collects finds the threads of all shares of the block's claim counted. -/
theorem Live.collected (h : Live c s stage l) (hcoherent : Coherent c s stage)
    {held : Pickup} (hphase : s.phase g = .collect held) :
    g < c.numGroups ∧ (s.block (c.blockOf g)).pickup = held ∧
      held.node.index < s.graph.numNodes ∧ c.Tiles held.threadsPerInvocation ∧
      (s.block (c.blockOf g)).finishedThreads.toNat =
        ((c.party (some (c.blockOf g))).flatMap
          (share c held (s.block (c.blockOf g)).base)).length := by
  have hg := hcoherent.lt_numGroups (g := g) (by rw [hphase]; rfl)
  have hb := LaunchConfig.blockOf_lt hg
  have hheld := h.held _ hb
  have htallied := hheld.tallied
  have hfits := hcoherent.fits _ hb
  have hplace : s.place c g = .collect held := place_of_phase hphase (by simp)
  have hallows := hcoherent.allows g hg
  unfold Allows at hallows
  generalize stage (c.blockOf g) = σ at hallows htallied hfits
  rw [hplace] at hallows
  cases hallows with
  | collect hleader =>
      simp only [Tallied, LaunchConfig.groupAt_of_isLeader hleader, hplace] at htallied
      exact ⟨hg, rfl, hfits.2.2, hheld.tiles, htallied⟩
  | gone => contradiction

theorem Live.divided (hc : c.Valid) (h : Live c s stage l) (hcoherent : Coherent c s stage)
    {p : Pickup} {threads : UInt32} (hdivided : s.divided? c g = some (p, threads)) :
    p.node.index < s.graph.numNodes ∧ p = s.graph.pickup p.node.index ∧
      p.threads ∣ threads.toNat := by
  have hg := hcoherent.lt_numGroups (Phase.isOver_of_isApart (isApart_of_divided? hdivided).1)
  have hb := LaunchConfig.blockOf_lt hg
  have hcached := (h.reads _ hb).cached
  unfold divided? at hdivided
  split at hdivided
  · rename_i executed hphase
    have hholding := (h.held _ hb).holding g ((LaunchConfig.mem_party_some hc.groups_pos).2 rfl)
    have hfits := hcoherent.fits _ hb
    have hallows := hcoherent.allows g hg
    unfold Allows at hallows
    generalize stage (c.blockOf g) = σ at hallows hholding hfits
    rw [place_of_phase hphase (by simp)] at hallows hholding
    dsimp only at hdivided
    split at hdivided
    · contradiction
    rename_i hnarrow
    obtain ⟨rfl, rfl⟩ := Prod.mk.inj (Option.some.inj hdivided)
    cases hallows with
    | tallyNarrow =>
        obtain ⟨⟨hleft, hcount, -⟩, lo, hi, hspan⟩ := hholding
        refine ⟨hfits.2.2, (hcached hfits.2.2).1, ?_⟩
        rw [hleft, List.append_nil] at hspan
        rw [executed.toNat_count, hcount, hspan, Pickup.length_span]
        exact Dvd.intro_left _ rfl
    | tallyWide => exact absurd hfits.2.1 hnarrow
    | gone => contradiction
  · rename_i held hphase
    obtain ⟨rfl, rfl⟩ := Prod.mk.inj (Option.some.inj hdivided)
    obtain ⟨-, hpickup, hnode, htiles, hthreads⟩ := h.collected hcoherent hphase
    rw [← hpickup] at hnode ⊢
    refine ⟨hnode, (hcached hnode).1, ?_⟩
    rw [hpickup, hthreads, flatMap_share_eq_span hc htiles, Pickup.length_span]
    exact Dvd.intro_left _ rfl
  · contradiction

theorem Live.report_le (hc : c.Valid) (h : Live c s stage l) (hcoherent : Coherent c s stage)
    {id : NodeId} {finished : UInt32} (hphase : s.phase g = .report id finished) :
    id.index < s.graph.numNodes ∧ finished.toNat ≤ s.graph.remaining id.index := by
  cases stepped (d := .empty) hcoherent.groups_size hcoherent.blocks_size g with
  | @moves q p block graph hg hq hapart hmove hm =>
      obtain rfl : q = .report id finished := hq.symm.trans hphase
      obtain ⟨σ', hturn⟩ := hcoherent.turn hg hphase (by simp) hmove
      have hb := LaunchConfig.blockOf_lt hg
      obtain ⟨hposts, -⟩ := h.posts hc hcoherent hg hphase hapart hturn hm
      generalize nextLedger c .empty s g l = l' at hposts
      cases hposts with
      | nothing _ hreport => exact absurd hphase (hreport _ _)
      | claims _ hreport => exact absurd hphase (hreport _ _)
      | finishes hwork | loses hwork =>
          rw [hphase] at hwork
          contradiction
      | reports hphase' hnodup hsub hnode hreport hran hfinished =>
          obtain ⟨rfl, rfl⟩ := Phase.report.inj (hphase.symm.trans hphase')
          have hsub := List.Subset.trans hsub (LaunchConfig.party_subset hc.groups_pos hb)
          obtain ⟨hcached, -⟩ := (h.reads _ hb).cached hnode
          exact ⟨hnode, (h.balanced.reported hnode hcached (h.held _ hb).tiles.pos hnodup hsub
            hreport hran hfinished).1⟩
  | arrives _ hq | looks _ hq | releases _ hq =>
      rw [hphase] at hq
      contradiction
  | stays hq =>
      rw [hphase] at hq
      contradiction

theorem Live.node_of_pending (hc : c.Valid) (h : Live c s stage l)
    (hcoherent : Coherent c s stage) {pending : List (UInt32 × Work)} {executed : LaneMask}
    (hphase : s.phase g = .execute pending executed) {w : Work}
    (hw : w ∈ pending.map Prod.snd) :
    ∃ node, s.graph.node w.node = .ok node ∧ node.spec.func = w.func := by
  obtain ⟨hg, hleft, -⟩ := h.executing hc hcoherent hphase
  rw [← hleft] at hw
  obtain ⟨hclaimed, -⟩ := h.balanced.of_hand hg (List.mem_append_right _ hw)
  obtain ⟨hi, -, -, hfunc⟩ := h.balanced.mem_claimedWork.1 hclaimed
  obtain ⟨node, hnode⟩ := TaskGraph.exists_node (hi.trans_le s.graph.numNodes_le)
  refine ⟨node, TaskGraph.node_eq_ok hnode, ?_⟩
  rw [hfunc, TaskGraph.pickup, hnode]

theorem invoke_error {lane : UInt32} {work : Work} {node : Node η} {invocation : Invocation η}
    (hnode : s.graph.node work.node = .ok node) (hget : d.get? work.func = some invocation)
    (h : (invoke c d g lane work s).1 = .error fault) :
    ∃ context, (invocation context node.spec.data work.invocationOffset s.device).1 =
      .error fault := by
  simp only [invoke, hnode, hget] at h
  exact ⟨_, h⟩

/-- A group that runs its lanes faults only if the invocation does: its mask takes the lane. -/
theorem step_execute {lane : UInt32} {work : Work} {pending : List (UInt32 × Work)}
    {executed : LaneMask} (hg : g < s.groups.size)
    (hphase : s.phase g = .execute ((lane, work) :: pending) executed)
    (hfresh : Fresh ((lane, work) :: pending) executed)
    (h : (step c d g s).phase g = .aborting fault 0) :
    (invoke c d g lane work s).1 = .error fault := by
  have hmem : lane ∈ ((lane, work) :: pending).map Prod.fst := List.mem_cons_self ..
  obtain ⟨executed', hset, -, -⟩ := executed.set_of_lt (hfresh.lt lane hmem) (hfresh.free lane hmem)
  obtain ⟨result, t, hinvoke, hgroups, -⟩ := invoke_eq c d g lane work s
  simp only [step, hphase, hinvoke, hset] at h
  rw [hinvoke]
  have hphase_goto : ∀ p, (t.goto g p).phase g = p := fun p => by
    simp [goto, phase, hgroups, hg]
  cases result with
  | ok =>
      rw [hphase_goto] at h
      contradiction
  | error fault' =>
      rw [hphase_goto] at h
      obtain ⟨rfl, -⟩ := Phase.aborting.inj h
      rfl

@[simp] theorem raised?_afterSite (leader : Bool) (site : Site) :
    (afterSite leader site).raised? = none := by
  cases site <;> cases leader <;> rfl

/-- A step of another group leaves the fault of a group as it is, and so does any step that
makes no move. -/
theorem raised?_step (hgroups : s.groups.size = c.numGroups)
    (hblocks : s.blocks.size = c.numBlocks.toNat) {g' : Nat}
    (h : ((step c d g s).phase g').raised? = some fault) :
    (s.phase g').raised? = some fault ∨ g' = g ∧ ∃ p block graph, g < c.numGroups ∧
      (s.phase g).isApart = true ∧
      Move c g s (s.block (c.blockOf g)) (s.phase g) p block graph ∧
      Moved c g p block graph s (step c d g s) ∧ p.raised? = some fault := by
  have hother : ∀ {p : Phase},
      (∀ i, (step c d g s).phase i = if i = g then p else s.phase i) →
      (s.phase g').raised? = some fault ∨ g' = g ∧ p.raised? = some fault := by
    intro p hphase
    rw [hphase] at h
    split at h
    · rename_i hg'
      exact .inr ⟨hg', h⟩
    · exact .inl h
  have hnone : ∀ {p : Phase},
      (∀ i, (step c d g s).phase i = if i = g then p else s.phase i) → p.raised? = none →
      (s.phase g').raised? = some fault := by
    intro p hphase hp
    rcases hother hphase with hold | ⟨-, hnew⟩
    · exact hold
    · rw [hp] at hnew
      contradiction
  have hkeep : ∀ {p : Phase} {fault'},
      (∀ i, (step c d g s).phase i = if i = g then p else s.phase i) →
      p.raised? = some fault' → (s.phase g).raised? = some fault' →
      (s.phase g').raised? = some fault := by
    intro p fault' hphase hp hq
    rcases hother hphase with hold | ⟨rfl, hnew⟩
    · exact hold
    · rw [hq, ← hp, hnew]
  cases stepped (d := d) hgroups hblocks g with
  | moves hg hphase hapart hmove hm =>
      subst hphase
      rcases hother hm.phase with hold | ⟨rfl, hnew⟩
      · exact .inl hold
      · exact .inr ⟨rfl, _, _, _, hg, hapart, hmove, hm, hnew⟩
  | arrives _ _ harrives =>
      cases harrives with
      | turnedAway _ hm => exact .inl (hnone hm.phase rfl)
      | waits _ _ hm => exact .inl (hnone hm.phase rfl)
      | meets _ hm => exact .inl (hnone hm.phase (raised?_afterSite _ _))
  | looks _ _ hlooks =>
      cases hlooks with
      | blocked _ _ hs =>
          rw [hs] at h
          exact .inl h
      | released _ hm => exact .inl (hnone hm.phase (raised?_afterSite _ _))
      | sentAway _ _ hm => exact .inl (hnone hm.phase rfl)
  | releases _ hphase hreleases =>
      have hq := congrArg Phase.raised? hphase
      cases hreleases with
      | mark hm | done _ _ hm => exact .inl (hkeep hm.phase rfl hq)
      | start hm | block _ _ hm => exact .inl (hkeep hm.phase rfl hq)
  | stays _ hs =>
      rw [hs] at h
      exact .inl h

/-- A fault is raised by an invocation or by the count of a dynamic node. -/
theorem OnCourse.raises (hc : c.Valid) (h : OnCourse c s stage l)
    (hcoherent : Coherent c s stage) (hcounted : s.graph.Counted)
    (hregistered : ∀ id node, s.graph.node id = .ok node →
      ∃ invocation, d.get? node.spec.func = some invocation) {g' : Nat}
    (hnew : ((LaunchState.step c d g s).phase g').raised? = some fault) :
    (s.phase g').raised? = some fault ∨ g' = g ∧ Raises c d s g fault := by
  rcases raised?_step hcoherent.groups_size hcoherent.blocks_size hnew with
    hold | ⟨rfl, p, block, graph, hg, hapart, hmove, hm, hp⟩
  · exact .inl hold
  refine .inr ⟨rfl, ?_⟩
  have hq : ∀ site n, s.phase g' ≠ .waiting site n := by
    intro site n heq
    rw [heq] at hapart
    contradiction
  rcases h with hquiet | hlive
  · obtain ⟨σ', hturn, -⟩ := hquiet.turn_of_move hcoherent hg rfl hapart hmove
    generalize hphase : s.phase g' = q at hturn
    cases hturn with
    | init => contradiction
    | initFault hinit =>
        obtain rfl := Option.some.inj hp
        exact .count (.inl hphase) (TaskGraph.init_error hcounted hinit)
  obtain ⟨σ', hturn⟩ := hcoherent.turn hg rfl hq hmove
  have hnow : (LaunchState.step c d g' s).phase g' = p := by rw [hm.phase, if_pos rfl]
  have hinvocation : ∀ {lane work pending executed}, p = .aborting fault 0 →
      s.phase g' = .execute ((lane, work) :: pending) executed → Raises c d s g' fault := by
    intro lane work pending executed hfault hphase
    obtain ⟨-, -, hfresh⟩ := hlive.executing hc hcoherent hphase
    obtain ⟨node, hnode, hfunc⟩ :=
      hlive.node_of_pending hc hcoherent hphase (List.mem_cons_self ..)
    obtain ⟨invocation, hget⟩ := hregistered _ node hnode
    rw [hfunc] at hget
    have herror := step_execute (hcoherent.groups_size ▸ hg) hphase hfresh (hnow.trans hfault)
    obtain ⟨context, herror⟩ := invoke_error hnode hget herror
    exact .invocation hphase hget herror
  have hcount : ∀ {id finished graph' trace}, s.phase g' = .report id finished →
      s.graph.report s.device.shared s.trace id finished (c.originOf g') =
        (.error fault, graph', trace) → Raises c d s g' fault := by
    intro id finished graph' trace hphase hreport
    obtain ⟨hid, hle⟩ := hlive.report_le hc hcoherent hphase
    exact .count (.inr ⟨_, _, hphase⟩)
      (TaskGraph.report_error hcounted (hid.trans_le s.graph.numNodes_le) hle hreport)
  generalize hphase : s.phase g' = q at hturn
  generalize stage (c.blockOf g') = σ at hturn
  cases hturn with
  | initFault hinit => exact absurd hphase (hlive.begun g')
  | narrowFault | wideFault =>
      obtain rfl := Option.some.inj hp
      exact hinvocation rfl hphase
  | narrowReportFault hreport | collectReportFault _ hreport =>
      obtain rfl := Option.some.inj hp
      exact hcount hphase hreport
  | _ => contradiction

/-! ## Runs -/

theorem raised?_initial (graph : TaskGraph η) (device : Device η) (trace : DeviceTrace) (g : Nat) :
    ((initial c graph device trace).phase g).raised? = none := by
  by_cases hg : g < c.numGroups
  · by_cases hfirst : g = 0
    · subst hfirst
      simp [initial, phase, hg, Phase.raised?]
    · simp [initial, phase, hg, Ne.symm hfirst, Phase.raised?]
  · simp [initial, phase, hg, Phase.raised?]

/-- What a state shows that its initial state did not show, some step of the schedule has
brought about. -/
theorem exists_step {P : LaunchState η → Prop} {R : LaunchState η → Nat → Prop}
    (hstart : ¬ P s)
    (hstep : ∀ schedule g, P (step c d g (follow c d schedule s)) →
      P (follow c d schedule s) ∨ R (follow c d schedule s) g) (schedule : List Nat)
    (h : P (follow c d schedule s)) :
    ∃ before g after, schedule = before ++ g :: after ∧ R (follow c d before s) g := by
  induction schedule using List.reverseRecOn with
  | nil => exact absurd h hstart
  | append_singleton schedule g ih =>
      rw [follow_append] at h
      rcases hstep schedule g h with hold | hnew
      · obtain ⟨before, g', after, rfl, hR⟩ := ih hold
        exact ⟨before, g', after ++ [g], by simp, hR⟩
      · exact ⟨schedule, g, [], rfl, hnew⟩

end LaunchState
end Lockstep
