import Lockstep.Proofs.Launch.Frame
import Lockstep.Proofs.Launch.Passes
import Lockstep.Proofs.Launch.Performed
import Lockstep.Proofs.TaskGraph.Noted
import Lockstep.Proofs.Trace.Kept

/-!
# What a launch notes

The notes of each step of a launch, and what they make of the trace: the records of the nodes
follow the counters of the graph, and those of each block its passes.
-/

namespace Lockstep
namespace LaunchState

open Stage

variable {η : Type} {c : LaunchConfig} {d : Dispatcher η} {s s' : LaunchState η} {g : Nat}
  {stage : Nat → Stage} {l : Ledger} {notes : List TraceNote}

/-- What a group of a launch under way notes with its next step, if the step does not fault. -/
def notesAt (c : LaunchConfig) (s : LaunchState η) (g : Nat) : List TraceNote :=
  match s.phase g with
  | .report node finished =>
      match s.graph.report s.device.shared s.trace node finished (c.originOf g) with
      | (.ok retired, next, _) => s.graph.reportNotes next node (c.originOf g) retired
      | _ => []
  | phase => (passMarks (s.block (c.blockOf g)) phase).map (⟨·, c.originOf g⟩)

theorem invoke_trace (c : LaunchConfig) (d : Dispatcher η) (g : Nat) (lane : UInt32) (work : Work)
    (s : LaunchState η) : (invoke c d g lane work s).2.trace = s.trace := by
  unfold invoke
  split <;> rfl

theorem step_trace (c : LaunchConfig) (d : Dispatcher η) (g : Nat) (s : LaunchState η) :
    (step c d g s).trace =
      match s.phase g with
      | .init => (s.graph.init s.device.shared s.trace).2.2
      | .report node finished =>
          (s.graph.report s.device.shared s.trace node finished (c.originOf g)).2.2
      | phase => s.trace.noteAll
          ((passMarks (s.block (c.blockOf g)) phase).map (⟨·, c.originOf g⟩)) := by
  cases hphase : s.phase g with
  | execute pending executed =>
      rcases pending with - | ⟨⟨lane, work⟩, pending⟩
      · simp only [step, hphase]
        rfl
      · have htrace := invoke_trace c d g lane work s
        simp only [step, hphase]
        split <;> exact htrace
  | aborting fault n =>
      simp only [step, hphase]
      rcases n with _ | _ | b
      · rfl
      · rfl
      · simp only [releaseNext]
        split <;> rfl
  | enter site =>
      simp only [step, hphase]
      cases site <;> split <;> rfl
  | noteLeave =>
      simp only [step, hphase, passMarks]
      split <;> rfl
  | _ =>
      simp only [step, hphase]
      repeat' split
      all_goals rfl

/-- A step at a gate notes nothing. -/
theorem step_trace_of_gate (hgate : (s.phase g).isApart = false) :
    notesAt c s g = [] ∧ (step c d g s).trace = s.trace := by
  rw [step_trace, notesAt]
  cases hphase : s.phase g <;> rw [hphase] at hgate <;>
    first | contradiction | exact ⟨rfl, rfl⟩

theorem isBlock_of_mem_passMarks {block : BlockState} {q : Phase} {m : Mark}
    (h : m ∈ passMarks block q) : m.event.isBlock = true := by
  unfold passMarks at h
  split at h
  · split at h
    · exact absurd h List.not_mem_nil
    · rw [List.mem_singleton.1 h]
      rfl
  · rw [List.mem_singleton.1 h]
    rfl
  · rw [List.mem_singleton.1 h]
    rfl
  · exact absurd h List.not_mem_nil

theorem length_passMarks_le (block : BlockState) (q : Phase) : (passMarks block q).length ≤ 1 := by
  unfold passMarks
  repeat' split
  all_goals simp

/-- A report notes what becomes of nodes, and everything else what becomes of the block. -/
theorem notesAt_cases (c : LaunchConfig) (s : LaunchState η) (g : Nat) :
    ((∃ node n, s.phase g = .report node n) ∧ (notesAt c s g).length ≤ 2 ∧
      ∀ n ∈ notesAt c s g, n.mark.event.isNode = true) ∨
    (∀ node n, s.phase g ≠ .report node n) ∧ notesAt c s g =
      (passMarks (s.block (c.blockOf g)) (s.phase g)).map (⟨·, c.originOf g⟩) := by
  cases hphase : s.phase g with
  | report node finished =>
      refine .inl ⟨⟨_, _, rfl⟩, ?_⟩
      simp only [notesAt, hphase]
      split
      · exact ⟨TaskGraph.length_reportNotes_le .., fun _ => TaskGraph.isNode_of_mem_reportNotes⟩
      · exact ⟨Nat.zero_le _, fun _ hn => absurd hn List.not_mem_nil⟩
  | _ =>
      refine .inr ⟨by simp, ?_⟩
      simp only [notesAt, hphase]

theorem length_notesAt_le (c : LaunchConfig) (s : LaunchState η) (g : Nat) :
    (notesAt c s g).length ≤ 2 := by
  rcases notesAt_cases c s g with ⟨-, hlength, -⟩ | ⟨-, hnotes⟩
  · exact hlength
  · rw [hnotes, List.length_map]
    exact (length_passMarks_le _ _).trans (Nat.le_succ 1)

theorem ne_calibration_of_mem_notesAt {n : TraceNote} (h : n ∈ notesAt c s g) :
    n.mark.event ≠ .calibration := by
  intro hevent
  rcases notesAt_cases c s g with ⟨-, -, hnode⟩ | ⟨-, hnotes⟩
  · have hnode := hnode n h
    rw [hevent] at hnode
    contradiction
  · rw [hnotes] at h
    obtain ⟨m, hm, rfl⟩ := List.mem_map.1 h
    have hblock := isBlock_of_mem_passMarks hm
    rw [hevent] at hblock
    contradiction

theorem nodeMarks_notesAt (hreport : ∀ node n, s.phase g ≠ .report node n) :
    TraceNote.nodeMarks (notesAt c s g) = [] := by
  rcases notesAt_cases c s g with ⟨⟨node, n, hphase⟩, -⟩ | ⟨-, hnotes⟩
  · exact absurd hphase (hreport node n)
  · rw [hnotes]
    exact TraceNote.nodeMarks_map _ fun m hm =>
      DeviceEvent.isNode_of_isBlock (isBlock_of_mem_passMarks hm)

theorem blockMarks_notesAt (hblock : c.blockOf g < 2 ^ 32) (b : Nat) :
    TraceNote.blockMarks b (notesAt c s g) =
      if c.blockOf g = b then passMarks (s.block (c.blockOf g)) (s.phase g) else [] := by
  rcases notesAt_cases c s g with ⟨⟨node, n, hphase⟩, -, hnode⟩ | ⟨-, hnotes⟩
  · rw [TraceNote.blockMarks_eq_nil fun n hn => DeviceEvent.isBlock_of_isNode (hnode n hn), hphase]
    exact (ite_self _).symm
  · have horigin : (c.originOf g).block.toNat = c.blockOf g := UInt32.toNat_ofNat_of_lt' hblock
    rw [hnotes, TraceNote.blockMarks_map _ (fun _ => isBlock_of_mem_passMarks), horigin]

/-- Only leaders note what becomes of a block. -/
theorem Turn.passMarks_eq_nil {σ σ' : Stage} {block block' : BlockState} {q p : Phase}
    {graph : TaskGraph η} (h : Turn c g s block σ q σ' p block' graph)
    (hfollower : c.isLeader g = false) : passMarks block q = [] := by
  cases h with
  | searchLeave hleader | foundExit hleader | foundStart hleader =>
      rw [hfollower] at hleader
      contradiction
  | _ => rfl

theorem Balanced.total_pos {graph : TaskGraph η} {i : Nat} (h : Balanced c graph l)
    (hi : i < graph.numNodes) (hpos : 0 < graph.threads i) (hremaining : 0 < graph.remaining i) :
    0 < graph.total i := by
  have hdue := h.due i hi
  have hmul := Nat.mul_pos hremaining hpos
  by_contra hzero
  rw [Nat.eq_zero_of_not_pos hzero, Nat.zero_mul] at hdue
  omega

/-- What a move that does not fault notes, and what has been noted of the nodes then. -/
theorem Posts.noted {pickup : Pickup} {p : Phase} {graph : TaskGraph η} {l' : Ledger}
    (hposts : Posts c s g pickup l p graph l') (hgraph : (step c d g s).graph = graph)
    (hbegun : s.phase g ≠ .init) (hcalm : p.isGone = false) (h : Balanced c s.graph l)
    (hsub : c.party (some (c.blockOf g)) ⊆ List.range c.numGroups)
    (hcached : pickup.node.index < s.graph.numNodes →
      pickup = s.graph.pickup pickup.node.index ∧ pickup.node.index ≤ s.graph.cursor.toNat)
    (hpos : 0 < pickup.threads) :
    (step c d g s).trace = s.trace.noteAll (notesAt c s g) ∧
      graph.nodeLog = s.graph.nodeLog ++ TraceNote.nodeMarks (notesAt c s g) := by
  have hsame : (∀ node n, s.phase g ≠ .report node n) → graph.nodeLog = s.graph.nodeLog →
      (step c d g s).trace = s.trace.noteAll (notesAt c s g) ∧
        graph.nodeLog = s.graph.nodeLog ++ TraceNote.nodeMarks (notesAt c s g) := by
    intro hreport hlog
    rw [nodeMarks_notesAt hreport, List.append_nil]
    refine ⟨?_, hlog⟩
    rw [step_trace, notesAt]
    cases hphase : s.phase g with
    | init => exact absurd hphase hbegun
    | report node n => exact absurd hphase (hreport node n)
    | _ => rfl
  have hworks : ∀ {work}, (s.phase g).work? = some work → ∀ node n, s.phase g ≠ .report node n := by
    intro work hwork node n hphase
    rw [hphase] at hwork
    contradiction
  cases hposts with
  | nothing _ hreport => exact hsame hreport rfl
  | finishes hwork | loses hwork => exact hsame (hworks hwork) rfl
  | claims _ hreport _ _ _ hclaim =>
      exact hsame hreport (TaskGraph.nodeLog_congr hclaim.specs hclaim.cursor hclaim.pickup)
  | @reports _ finished result _ trace lo hi hphase hnodup hsub' hnode hreport hran hfinished
      hgone =>
      obtain ⟨hcached, hcursor⟩ := hcached hnode
      obtain ⟨hle, hreported⟩ := h.reported hnode hcached hpos hnodup
        (List.Subset.trans hsub' hsub) hreport hran hfinished
      cases result with
      | error fault =>
          rw [hgone rfl] at hcalm
          contradiction
      | ok retired =>
          have hnotes : notesAt c s g =
              s.graph.reportNotes graph pickup.node (c.originOf g) retired := by
            simp only [notesAt, hphase, hreport]
          have htotal : 0 < s.graph.remaining pickup.node.index →
              0 < s.graph.total pickup.node.index := by
            apply h.total_pos hnode
            rw [TaskGraph.threads, ← hcached]
            exact hpos
          rw [hnotes, TraceNote.nodeMarks_eq_map fun _ => TaskGraph.isNode_of_mem_reportNotes]
          refine ⟨?_, hreported.nodeLog hreport h.ordered hcursor hnode hle htotal⟩
          rw [step_trace, hphase]
          simp only [hreport]
          exact TaskGraph.report_trace hreport hnode

/-! ## Launches under way -/

/-- No group has faulted or has been sent home. -/
def IsCalm (s : LaunchState η) : Prop := ∀ g, (s.phase g).isGone = false

/-- What holds of the trace of a launch under way, which has been told of `notes` since the
calibration. -/
structure Traced (c : LaunchConfig) (s : LaunchState η) (stage : Nat → Stage)
    (notes : List TraceNote) : Prop where
  holds : s.trace.Holds (.calibration :: notes)
  nodes : TraceNote.nodeMarks notes = s.graph.nodeLog
  blocks : ∀ b < c.numBlocks.toNat, ∃ passes, BlockLog s.graph (stage b) (s.block b)
    (s.place c (c.groupAt b 0)) passes (TraceNote.blockMarks b notes)
  told : ∀ n ∈ notes, n.mark.event ≠ .calibration

/-- A launch that is calm has been calm before. -/
theorem Coherent.calm_of_step (h : Coherent c s stage) (hcalm : (LaunchState.step c d g s).IsCalm) :
    s.IsCalm := by
  intro g'
  have hsized : Sized c s := ⟨h.groups_size, h.blocks_size⟩
  refine eq_false_of_ne_true fun hgone => ?_
  have hgone' := hsized.isGone_step (d := d) hgone g
  rw [hcalm g'] at hgone'
  contradiction

namespace Traced

variable {stage' : Nat → Stage} {more : List TraceNote}

theorem append (h : Traced c s stage notes) (htrace : s'.trace = s.trace.noteAll more)
    (hfew : more.length < 2 ^ 32) (hkept : s'.trace.dropped = 0)
    (hnodes : s'.graph.nodeLog = s.graph.nodeLog ++ TraceNote.nodeMarks more)
    (htold : ∀ n ∈ more, n.mark.event ≠ .calibration)
    (hblocks : ∀ b < c.numBlocks.toNat, ∀ passes marks,
      BlockLog s.graph (stage b) (s.block b) (s.place c (c.groupAt b 0)) passes marks →
      ∃ passes', BlockLog s'.graph (stage' b) (s'.block b) (s'.place c (c.groupAt b 0)) passes'
        (marks ++ TraceNote.blockMarks b more)) : Traced c s' stage' (notes ++ more) := by
  refine ⟨?_, ?_, fun b hb => ?_, fun n hn => ?_⟩
  · rw [htrace] at hkept ⊢
    exact h.holds.noteAll hfew hkept
  · rw [TraceNote.nodeMarks_append, h.nodes, hnodes]
  · obtain ⟨passes, hlog⟩ := h.blocks b hb
    rw [TraceNote.blockMarks_append]
    exact hblocks b hb passes _ hlog
  · rcases List.mem_append.1 hn with hn | hn
    · exact h.told n hn
    · exact htold n hn

theorem gate (h : Traced c s stage notes) (hgate : (s.phase g).isApart = false)
    (hkept : (step c d g s).trace.dropped = 0) (hgraph : (step c d g s).graph = s.graph)
    (hblocks : ∀ b < c.numBlocks.toNat, ∀ passes marks,
      BlockLog s.graph (stage b) (s.block b) (s.place c (c.groupAt b 0)) passes marks →
      BlockLog s.graph (stage' b) ((step c d g s).block b)
        ((step c d g s).place c (c.groupAt b 0)) passes marks) :
    Traced c (step c d g s) stage' (notes ++ notesAt c s g) := by
  obtain ⟨hnotes, htrace⟩ := step_trace_of_gate (c := c) (d := d) hgate
  rw [hnotes]
  refine h.append htrace (by decide) hkept ?_ (by simp) fun b hb passes marks hlog => ?_
  · rw [hgraph]
    exact (List.append_nil _).symm
  · rw [hgraph]
    exact ⟨passes, (hblocks b hb passes marks hlog).silent⟩

end Traced

namespace Live

theorem blockLog {graph : TaskGraph η} {b : Nat} {passes : List Pass} {marks : List Mark}
    (h : Live c s stage l) (hb : b < c.numBlocks.toNat) (hgrows : s.graph.Grows graph)
    (hpickup : (s'.block b).pickup = (s.block b).pickup)
    (hbase : (s'.block b).base = (s.block b).base)
    (hplace : s'.place c (c.groupAt b 0) = s.place c (c.groupAt b 0))
    (hlog : BlockLog s.graph (stage b) (s.block b) (s.place c (c.groupAt b 0)) passes marks) :
    BlockLog graph (stage b) (s'.block b) (s'.place c (c.groupAt b 0)) passes marks := by
  rw [hplace]
  exact hlog.grow hgrows (fun hnode => ((h.reads b hb).cached hnode).2) hpickup hbase

theorem traced_turn {p q : Phase} {block' : BlockState} {graph : TaskGraph η} {σ' : Stage}
    (hc : c.Valid) (h : Live c s stage l) (hcoherent : Coherent c s stage)
    (ht : Traced c s stage notes) (hg : g < c.numGroups) (hphase : s.phase g = q)
    (hapart : q.isApart = true)
    (hturn : Turn c g s (s.block (c.blockOf g)) (stage (c.blockOf g)) q σ' p block' graph)
    (hm : Moved c g p block' graph s (LaunchState.step c d g s)) (hcalm : p.isGone = false)
    (hkept : (LaunchState.step c d g s).trace.dropped = 0) :
    Traced c (LaunchState.step c d g s) (Function.update stage (c.blockOf g) σ')
      (notes ++ notesAt c s g) := by
  have hb := LaunchConfig.blockOf_lt hg
  have hq : ∀ site n, q ≠ .waiting site n := by
    rintro site n rfl
    contradiction
  have hplace : s.place c g = q := place_of_phase hphase hq
  obtain ⟨hposts, hposted⟩ := h.posts hc hcoherent hg hphase hapart hturn hm
  obtain ⟨htrace, hnodes⟩ := hposts.noted hm.graph (h.begun g) hcalm h.balanced
    (LaunchConfig.party_subset hc.groups_pos hb) (h.reads _ hb).cached (h.held _ hb).tiles.pos
  have hfew := (length_notesAt_le c s g).trans_lt (show 2 < 2 ^ 32 by decide)
  refine ht.append htrace hfew hkept (by rw [hm.graph, hnodes])
    (fun _ => ne_calibration_of_mem_notesAt) fun b hb' passes marks hlog => ?_
  rw [hm.graph, blockMarks_notesAt (hb.trans (UInt32.toNat_lt _))]
  by_cases hblock : b = c.blockOf g
  · subst hblock
    rw [if_pos rfl, Function.update_self, hphase, hm.block, if_pos rfl]
    by_cases hleader : c.isLeader g = true
    · have hlead := LaunchConfig.groupAt_of_isLeader hleader
      rw [hlead, hplace] at hlog
      rw [hlead, hm.place_self hturn.ne_waiting]
      exact hlog.turn hleader hturn hplace hposted.grows h.balanced.ordered.cursor_le
        (h.reads _ hb) (hcoherent.fits _ hb)
    · obtain ⟨hσ, hpickup, hbase⟩ := hturn.follow.resolve_right fun hleads => hleader hleads.1
      have hne : c.groupAt (c.blockOf g) 0 ≠ g := by
        intro hlead
        apply hleader
        rw [← hlead]
        exact LaunchConfig.isLeader_groupAt _ hc.groups_pos
      rw [hturn.passMarks_eq_nil (eq_false_of_ne_true hleader), hσ, hm.place_other hne]
      exact ⟨passes, (hlog.grow hposted.grows (fun hnode => ((h.reads _ hb).cached hnode).2) hpickup
        hbase).silent⟩
  · have hne : c.groupAt b 0 ≠ g := by
      rintro rfl
      exact hblock (LaunchConfig.blockOf_groupAt hc.groups_pos b hc.groups_pos).symm
    have hsame : (LaunchState.step c d g s).block b = s.block b := by rw [hm.block, if_neg hblock]
    rw [if_neg (Ne.symm hblock), Function.update_of_ne hblock]
    exact ⟨passes, (h.blockLog hb' hposted.grows (by rw [hsame]) (by rw [hsame])
      (hm.place_other hne) hlog).silent⟩

theorem traced_meet {site : Site} {barrier : Barrier} (hc : c.Valid) (h : Live c s stage l)
    (hcoherent : Coherent c s stage) (ht : Traced c s stage notes) (hg : g < c.numGroups)
    (hphase : s.phase g = .enter site)
    (hm : Met c g (afterSite (c.isLeader g) site) (site.gate (c.blockOf g)) barrier s
      (LaunchState.step c d g s))
    (hmeeting : Meeting c g site s (LaunchState.step c d g s))
    (hkept : (LaunchState.step c d g s).trace.dropped = 0) :
    Traced c (LaunchState.step c d g s) (fun b =>
      if site.gate b = site.gate (c.blockOf g) then
        after s.graph.numNodes c.lanesPerGroup (s.block b).pickup (s.block b).base site
      else stage b) (notes ++ notesAt c s g) := by
  refine ht.gate (by rw [hphase]; rfl) hkept hm.graph fun b hb passes marks hlog => ?_
  have hlt := LaunchConfig.groupAt_lt hb hc.groups_pos
  have hblock := LaunchConfig.blockOf_groupAt hc.groups_pos b hc.groups_pos
  by_cases hgate : site.gate b = site.gate (c.blockOf g)
  · have hleader := LaunchConfig.isLeader_groupAt (c := c) b hc.groups_pos
    rw [hmeeting.before _ hlt (by rw [hblock, hgate])] at hlog
    rw [if_pos hgate, hmeeting.after _ hlt (by rw [hblock, hgate]), hleader]
    exact hlog.meet (hcoherent.leader_meets hg hmeeting hb hgate) (hcoherent.fits b hb)
      (hm.pickup b) (hm.base b)
  · rw [if_neg hgate]
    exact h.blockLog hb (.refl _) (hm.pickup b) (hm.base b)
      (hmeeting.away _ hlt (by rwa [hblock])) hlog

/-- A step of a launch that stays calm and drops no record. -/
theorem traced_step (hc : c.Valid) (h : Live c s stage l) (hcoherent : Coherent c s stage)
    (ht : Traced c s stage notes) (hcalm : (LaunchState.step c d g s).IsCalm)
    (hkept : (LaunchState.step c d g s).trace.dropped = 0) :
    Traced c (LaunchState.step c d g s) (nextStage c s g stage) (notes ++ notesAt c s g) := by
  have hself := hcalm g
  cases stepped (d := d) hcoherent.groups_size hcoherent.blocks_size g with
  | @moves q p block graph hg hphase hapart hmove hm =>
      have hq : ∀ site n, q ≠ .waiting site n := by
        rintro site n rfl
        contradiction
      obtain ⟨σ', hturn⟩ := hcoherent.turn hg hphase hq hmove
      rw [hm.phase, if_pos rfl] at hself
      rw [hturn.nextStage_eq hphase rfl]
      exact h.traced_turn hc hcoherent ht hg hphase hapart hturn hm hself hkept
  | arrives hg hphase harrives =>
      rw [nextStage_of_enter hphase]
      cases harrives with
      | turnedAway _ hm =>
          rw [hm.phase, if_pos rfl] at hself
          contradiction
      | waits hmeets _ hm =>
          rw [if_neg hmeets]
          exact ht.gate (by rw [hphase]; rfl) hkept hm.graph fun b hb _ _ =>
            h.blockLog hb (.refl _) (hm.pickup b) (hm.base b) (place_of_waits hphase hm rfl _)
      | meets hmeets hm =>
          rw [if_pos hmeets]
          exact h.traced_meet hc hcoherent ht hg hphase hm
            (hcoherent.meeting hg hphase hmeets hm) hkept
  | looks _ hphase hlooks =>
      have hgate : (s.phase g).isApart = false := by rw [hphase]; rfl
      simp only [nextStage, hphase]
      cases hlooks with
      | blocked _ _ hs =>
          refine ht.gate hgate hkept (by rw [hs]) fun _ _ _ _ hlog => ?_
          rwa [hs]
      | released hn hm =>
          exact ht.gate hgate hkept hm.graph fun b hb _ _ =>
            h.blockLog hb (.refl _) (hm.sameNotes.pickup b) (hm.sameNotes.base b)
              (place_of_released hphase hn hm _)
      | sentAway _ _ hm =>
          rw [hm.phase, if_pos rfl] at hself
          contradiction
  | releases _ _ hreleases =>
      cases hreleases with
      | mark hm | done _ _ hm =>
          rw [hm.phase, if_pos rfl] at hself
          contradiction
      | start hm | block _ _ hm =>
          rw [hm.phase, if_pos rfl] at hself
          contradiction
  | stays hphase hs =>
      rw [nextStage_of_isOver hphase]
      have hgate : (s.phase g).isApart = false := by
        cases hq : s.phase g <;> rw [hq] at hphase <;> first | rfl | contradiction
      refine ht.gate hgate hkept (by rw [hs]) fun _ _ _ _ hlog => ?_
      rwa [hs]

end Live

/-! ## Whole launches -/

theorem Coherent.calm_of_follow (h : Coherent c s stage) {schedule : List Nat}
    (hcalm : (LaunchState.follow c d schedule s).IsCalm) : s.IsCalm := by
  induction schedule generalizing s stage with
  | nil => exact hcalm
  | cons g schedule ih => exact h.calm_of_step (ih (h.step g) hcalm)

theorem keeps_of_keepsEvents {schedule : List Nat} (h : keepsEvents c d schedule s = true) :
    s.keeps = true := by
  cases schedule with
  | nil => exact h
  | cons g schedule =>
      rw [keepsEvents, Bool.and_eq_true] at h
      exact h.1

/-- What holds of a launch that is traced, from before its run on. -/
def OnRecord (c : LaunchConfig) (s : LaunchState η) (stage : Nat → Stage) (l : Ledger) : Prop :=
  (Quiet c s stage l ∧ s.phase 0 = .init ∧ s.trace.enabled = true) ∨
    Live c s stage l ∧ ∃ notes, Traced c s stage notes

/-- The trace tells of the start of a run and of its first node. -/
theorem Quiet.traced_begin (hpos : 0 < c.groupsPerBlock.toNat) (h : Quiet c s stage l)
    (hcoherent : Coherent c s stage) (hphase : s.phase g = .init)
    (henabled : s.trace.enabled = true) (hkept : (LaunchState.step c d g s).trace.dropped = 0)
    (hinit : ∃ trace, s.graph.init s.device.shared s.trace =
      (.ok (), (LaunchState.step c d g s).graph, trace)) :
    Traced c (LaunchState.step c d g s) (nextStage c s g stage)
      ((LaunchState.step c d g s).graph.openingNotes .first) := by
  have hnext := hcoherent.step (d := d) g
  have hstage : nextStage c s g stage = stage := by simp only [nextStage, hphase]
  obtain ⟨trace, hinit⟩ := hinit
  have hbegun := TaskGraph.begun_of_init hinit
  have htrace : (LaunchState.step c d g s).trace = trace := by
    rw [step_trace, hphase]
    simp only [hinit]
  rw [TaskGraph.init_trace hinit] at htrace
  have hfew := TaskGraph.length_openingNotes_le (LaunchState.step c d g s).graph .first
  have hnode : ∀ n ∈ (LaunchState.step c d g s).graph.openingNotes .first,
      n.mark.event.isNode = true :=
    fun _ => TaskGraph.isNode_of_mem_openingNotes
  refine ⟨?_, ?_, fun b hb => ⟨[], ?_⟩, fun n hn hevent => ?_⟩
  · rw [htrace] at hkept ⊢
    exact DeviceTrace.holds_reset henabled (by omega) hkept
  · rw [TraceNote.nodeMarks_eq_map hnode, TaskGraph.map_mark_openingNotes, hbegun.nodeLog]
  · have hfits := hnext.fits b hb
    have hallows := hnext.allows _ (LaunchConfig.groupAt_lt hb hpos)
    unfold Allows at hallows
    rw [LaunchConfig.blockOf_groupAt hpos b hpos, hstage, h.gather b hb] at hallows
    rw [hstage, h.gather b hb] at hfits
    rw [hstage, h.gather b hb,
      TraceNote.blockMarks_eq_nil fun n hn => DeviceEvent.isBlock_of_isNode (hnode n hn)]
    refine .start hfits ?_
    generalize (LaunchState.step c d g s).place c (c.groupAt b 0) = p at hallows
    cases hallows with
    | init | enterStart => rfl
    | gone _ _ hgone _ => cases p <;> first | rfl | contradiction
  · have hnode := hnode n hn
    rw [hevent] at hnode
    contradiction

namespace OnRecord

theorem initial (hc : c.Valid) {graph : TaskGraph η} (device : Device η) {trace : DeviceTrace}
    (henabled : trace.enabled = true)
    (htiles : ∀ i, c.Tiles (graph.pickup i).threadsPerInvocation) :
    OnRecord c (.initial c graph device trace) (fun _ => gather) .empty := by
  have hpos : 0 < c.numGroups := Nat.mul_pos hc.blocks_pos hc.groups_pos
  have hphase : (LaunchState.initial c graph device trace).phase 0 = .init := by
    simp [LaunchState.initial, phase, hpos]
  rcases OnCourse.initial hc device trace htiles with h | h
  · exact .inl ⟨h, hphase, henabled⟩
  · exact absurd hphase (h.begun 0)

theorem step (hc : c.Valid) (h : OnRecord c s stage l) (hcoherent : Coherent c s stage)
    (hcalm : (LaunchState.step c d g s).IsCalm) (hkept : (LaunchState.step c d g s).keeps = true) :
    OnRecord c (LaunchState.step c d g s) (nextStage c s g stage) (nextLedger c d s g l) := by
  have hdropped : (LaunchState.step c d g s).phase 0 ≠ .init →
      (LaunchState.step c d g s).trace.dropped = 0 := by
    intro hbegun
    unfold keeps at hkept
    simpa [hbegun] using hkept
  rcases h with ⟨h, hinit, henabled⟩ | ⟨h, notes, ht⟩
  · by_cases hphase : s.phase g = .init
    · rcases h.begin (d := d) hc hcoherent hphase with ⟨hlive, hinit⟩ | ⟨-, hgone, -⟩
      · exact .inr ⟨hlive, _, h.traced_begin hc.groups_pos hcoherent hphase henabled
          (hdropped (hlive.begun 0)) hinit⟩
      · exact absurd (hgone.symm.trans (hcalm 0)) (by decide)
    · have hgate : (s.phase g).isApart = false :=
        eq_false_of_ne_true fun hapart => hphase (h.phase_of_isApart hcoherent hapart)
      have hquiet := (h.stay (d := d) hcoherent hphase).1
      refine .inl ⟨hquiet, hquiet.first.resolve_right fun hgone => ?_, ?_⟩
      · exact absurd (hgone.symm.trans (hcalm 0)) (by decide)
      · rw [(step_trace_of_gate (c := c) hgate).2, henabled]
  · have hlive := h.step (d := d) hc hcoherent g
    exact .inr ⟨hlive, _, h.traced_step hc hcoherent ht hcalm (hdropped (hlive.begun 0))⟩

/-- Along a schedule that leads to a calm state, the trace tells what has become of the nodes
and of the blocks. -/
theorem follow (hc : c.Valid) (h : OnRecord c s stage l) (hcoherent : Coherent c s stage)
    {schedule : List Nat} (hcalm : (LaunchState.follow c d schedule s).IsCalm)
    (hkept : keepsEvents c d schedule s = true) :
    OnRecord c (LaunchState.follow c d schedule s) (stages c d schedule s stage)
      (ledger c d schedule s l) := by
  induction schedule generalizing s stage l with
  | nil => exact h
  | cons g schedule ih =>
      have hnext := hcoherent.step (d := d) g
      rw [keepsEvents, Bool.and_eq_true] at hkept
      exact ih (h.step hc hcoherent (hnext.calm_of_follow hcalm) (keeps_of_keepsEvents hkept.2))
        hnext hcalm hkept.2

/-- When all groups have exited, the trace has told of all nodes, and of the end of every
block. -/
theorem finished (hc : c.Valid) (h : OnRecord c s stage l) (hcoherent : Coherent c s stage)
    (hexited : ∀ g < c.numGroups, s.phase g = .exited) :
    Live c s stage l ∧ ∃ notes, s.trace.Holds (.calibration :: notes) ∧
      (∀ n ∈ notes, n.mark.event ≠ .calibration) ∧
      TraceNote.nodeMarks notes = s.graph.nodeMarks ∧
      ∀ b < c.numBlocks.toNat, ∃ passes : List Pass,
        TraceNote.blockMarks b notes =
          passes.flatMap Pass.marks ++ [.exit ⟨UInt32.ofNat s.graph.numNodes⟩] ∧
        passes.Pairwise (fun a b => a.pickup.node.index < b.pickup.node.index) ∧
        ∀ a ∈ passes, a.IsOf s.graph := by
  have hpos : 0 < c.numGroups := Nat.mul_pos hc.blocks_pos hc.groups_pos
  rcases h with ⟨-, hinit, -⟩ | ⟨h, notes, ht⟩
  · rw [hexited 0 hpos] at hinit
    contradiction
  · have hdone := (OnCourse.finished hc (.inr h) hcoherent hexited).2
    have hcursor := Nat.le_antisymm h.balanced.ordered.cursor_le hdone
    refine ⟨h, notes, ht.holds, ht.told, ?_, fun b hb => ?_⟩
    · rw [ht.nodes, TaskGraph.nodeLog_eq_nodeMarks hcursor]
    · obtain ⟨passes, hlog⟩ := ht.blocks b hb
      have hlt := LaunchConfig.groupAt_lt hb hc.groups_pos
      have hleave := hcoherent.stage_of_exited hlt (hexited _ hlt)
      rw [LaunchConfig.blockOf_groupAt hc.groups_pos b hc.groups_pos] at hleave
      rw [hleave] at hlog
      exact ⟨passes, hlog.marks_of_leave, hlog.increasing, hlog.isOf⟩

end OnRecord

end LaunchState
end Lockstep
