import Lockstep.Proofs.Launch.Performed
import Lockstep.Proofs.TaskGraph.Asked

/-!
# The counts that a launch asks for

Which accessors a launch calls along a schedule, and what holds at the time: the launch
has passed all earlier nodes, and has nothing of the node itself.
-/

namespace Lockstep
namespace LaunchState

open Stage

variable {η : Type} {c : LaunchConfig} {d : Dispatcher η} {s : LaunchState η} {g g' : Nat}
  {stage : Nat → Stage} {l l' : Ledger} {log : List Nat} {graph : TaskGraph η}

def asksAt (s : LaunchState η) (g : Nat) : List Nat :=
  match s.phase g with
  | .init => s.graph.rewound.askedFrom s.device.shared 0
  | .report node finished => s.graph.askedBy s.device.shared node finished
  | _ => []

/-- The dynamic nodes whose counts a launch asks for along a schedule. -/
def asks (c : LaunchConfig) (d : Dispatcher η) : (schedule : List Nat) → LaunchState η → List Nat
  | [], _ => []
  | g :: schedule, s => asksAt s g ++ asks c d schedule (step c d g s)

theorem asksAt_eq_nil (hinit : s.phase g ≠ .init) (hreport : ∀ node n, s.phase g ≠ .report node n) :
    asksAt s g = [] := by
  unfold asksAt
  split
  · contradiction
  · rename_i hphase
    exact absurd hphase (hreport _ _)
  · rfl

theorem Coherent.begun_step (h : Coherent c s stage) (g : Nat) (hbegun : s.phase g' ≠ .init) :
    (LaunchState.step c d g s).phase g' ≠ .init := by
  have hother : ∀ {p : Phase}, p ≠ .init →
      (∀ g', (LaunchState.step c d g s).phase g' = if g' = g then p else s.phase g') →
      (LaunchState.step c d g s).phase g' ≠ .init := by
    intro p hp hphase
    rw [hphase]
    split
    · exact hp
    · exact hbegun
  have hafter : ∀ site, afterSite (c.isLeader g) site ≠ .init := by
    intro site
    cases site <;> simp only [afterSite] <;> (try split) <;> simp
  cases stepped (d := d) h.groups_size h.blocks_size g with
  | @moves q p block graph hg hphase hapart hmove hm =>
      have hq : ∀ site n, q ≠ .waiting site n := by
        rintro site n rfl
        contradiction
      obtain ⟨σ', hturn⟩ := h.turn hg hphase hq hmove
      exact hother hturn.ne_init hm.phase
  | arrives _ _ harrives =>
      cases harrives with
      | turnedAway _ hm => exact hother (by simp) hm.phase
      | waits _ _ hm => exact hother (by simp) hm.phase
      | meets _ hm => exact hother (hafter _) hm.phase
  | looks _ _ hlooks =>
      cases hlooks with
      | blocked _ _ hs => rwa [hs]
      | released _ hm => exact hother (hafter _) hm.phase
      | sentAway _ _ hm => exact hother (by simp) hm.phase
  | releases _ _ hreleases =>
      cases hreleases with
      | mark hm | done _ _ hm => exact hother (by simp) hm.phase
      | start hm | block _ _ hm => exact hother (by simp) hm.phase
  | stays _ hs => rwa [hs]

/-! ## The log of a launch -/

/-- What the counts asked for so far are. -/
inductive Logged (c : LaunchConfig) (s : LaunchState η) (stage : Nat → Stage) (l : Ledger) :
    List Nat → Prop where
  | waits (h : Quiet c s stage l) (hinit : s.phase 0 = .init) : Logged c s stage l []
  | failed (h : Quiet c s stage l) (hbegun : s.phase 0 ≠ .init) (m : Nat)
      (hm : m ≤ s.graph.numNodes) :
      Logged c s stage l ((List.range m).filter s.graph.isCounted)
  | runs {log : List Nat} (h : Live c s stage l) (hasked : s.graph.Asked log) :
      Logged c s stage l log

theorem Logged.nodup (h : Logged c s stage l log) : log.Nodup := by
  cases h with
  | waits => exact List.nodup_nil
  | failed => exact List.nodup_range.filter _
  | runs _ hasked => exact hasked.nodup

theorem Quiet.asksAt_eq_nil (h : Quiet c s stage l) (hcoherent : Coherent c s stage)
    (hinit : s.phase g ≠ .init) : asksAt s g = [] := by
  apply LaunchState.asksAt_eq_nil hinit
  intro node n hphase
  have hposting := h.not_isPosting hcoherent g
  rw [hphase] at hposting
  contradiction

theorem Quiet.logged_begin (hc : c.Valid) (h : Quiet c s stage l) (hcoherent : Coherent c s stage)
    (hphase : s.phase g = .init) :
    Logged c (LaunchState.step c d g s) (nextStage c s g stage) (nextLedger c d s g l)
      (asksAt s g) := by
  have hasks : asksAt s g = s.graph.rewound.askedFrom s.device.shared 0 := by
    simp only [asksAt, hphase]
  have hspecs := hcoherent.sameSpecs_step (d := d) g
  rw [hasks]
  rcases h.begin hc hcoherent hphase with
    ⟨hlive, trace, hinit⟩ | ⟨hquiet, hgone, fault, trace, hinit⟩
  · exact .runs hlive (.of_begun hinit)
  · have hbegun : (LaunchState.step c d g s).phase 0 ≠ .init := by
      intro hcase
      rw [hcase] at hgone
      contradiction
    rcases TaskGraph.init_cases s.graph s.device.shared s.trace with
      ⟨_, _, heq, -⟩ | ⟨_, _, j, -, hj, hasked⟩
    · rw [hinit] at heq
      exact absurd heq (by simp)
    · rw [hasked, ← funext hspecs.isCounted]
      exact .failed hquiet hbegun (j + 1) (hspecs.numNodes ▸ hj)

theorem Posts.asked {pickup : Pickup} {p : Phase} (hposts : Posts c s g pickup l p graph l')
    (hbegun : s.phase g ≠ .init) (h : Balanced c s.graph l) (hlog : s.graph.Asked log)
    (hsub : c.party (some (c.blockOf g)) ⊆ List.range c.numGroups)
    (hcached : pickup.node.index < s.graph.numNodes →
      pickup = s.graph.pickup pickup.node.index ∧ pickup.node.index ≤ s.graph.cursor.toNat)
    (hpos : 0 < pickup.threads) :
    graph.Asked (log ++ asksAt s g) ∧ ∀ j ∈ asksAt s g, s.graph.cursor.toNat < j := by
  have hnone : (∀ node n, s.phase g ≠ .report node n) → graph.Asked log →
      graph.Asked (log ++ asksAt s g) ∧ ∀ j ∈ asksAt s g, s.graph.cursor.toNat < j := by
    intro hreport hlog
    rw [asksAt_eq_nil hbegun hreport, List.append_nil]
    exact ⟨hlog, fun _ hj => absurd hj List.not_mem_nil⟩
  have hworks : ∀ {work}, (s.phase g).work? = some work → ∀ node n, s.phase g ≠ .report node n := by
    intro work hwork node n hphase
    rw [hphase] at hwork
    contradiction
  cases hposts with
  | nothing _ hreport => exact hnone hreport hlog
  | finishes hwork | loses hwork => exact hnone (hworks hwork) hlog
  | claims _ hreport _ _ _ hclaim => exact hnone hreport (hlog.claim hclaim)
  | @reports _ finished _ _ _ _ _ hphase hnodup hsub' hnode hreport hran hfinished =>
      obtain ⟨hcached, hcursor⟩ := hcached hnode
      obtain ⟨hle, hreported⟩ := h.reported hnode hcached hpos hnodup
        (List.Subset.trans hsub' hsub) hreport hran hfinished
      have hasks : asksAt s g = s.graph.askedBy s.device.shared pickup.node finished := by
        simp only [asksAt, hphase]
      rw [hasks]
      exact ⟨hlog.report h.ordered hcursor hle hreported,
        fun _ => hreported.lt_of_mem h.ordered hcursor hle⟩

theorem Live.asked_step (hc : c.Valid) (h : Live c s stage l) (hcoherent : Coherent c s stage)
    (hlog : s.graph.Asked log) (g : Nat) :
    (LaunchState.step c d g s).graph.Asked (log ++ asksAt s g) ∧
      ∀ j ∈ asksAt s g, s.graph.cursor.toNat < j := by
  have hsame : ∀ {q : Phase}, s.phase g = q → (∀ node n, q ≠ .report node n) →
      (LaunchState.step c d g s).graph = s.graph →
      (LaunchState.step c d g s).graph.Asked (log ++ asksAt s g) ∧
        ∀ j ∈ asksAt s g, s.graph.cursor.toNat < j := by
    intro q hphase hreport hgraph
    rw [hgraph, asksAt_eq_nil (h.begun g) (hphase ▸ hreport), List.append_nil]
    exact ⟨hlog, fun _ hj => absurd hj List.not_mem_nil⟩
  cases stepped (d := d) hcoherent.groups_size hcoherent.blocks_size g with
  | @moves q p block graph hg hphase hapart hmove hm =>
      have hq : ∀ site n, q ≠ .waiting site n := by
        rintro site n rfl
        contradiction
      obtain ⟨σ', hturn⟩ := hcoherent.turn hg hphase hq hmove
      have hb := LaunchConfig.blockOf_lt hg
      rw [hm.graph]
      apply (h.posts hc hcoherent hg hphase hapart hturn hm).1.asked (h.begun g) h.balanced hlog
        (LaunchConfig.party_subset hc.groups_pos hb) (h.reads _ hb).cached
      exact (h.held _ hb).tiles.pos
  | arrives _ hphase harrives =>
      cases harrives with
      | turnedAway _ hm | waits _ _ hm | meets _ hm => exact hsame hphase (by simp) hm.graph
  | looks _ hphase hlooks =>
      cases hlooks with
      | blocked _ _ hs => exact hsame hphase (by simp) (by rw [hs])
      | released _ hm | sentAway _ _ hm => exact hsame hphase (by simp) hm.graph
  | releases _ hphase hreleases =>
      cases hreleases with
      | mark hm | start hm | block _ _ hm | done _ _ hm => exact hsame hphase (by simp) hm.graph
  | stays hphase hs =>
      refine hsame rfl (fun node n hcase => ?_) (by rw [hs])
      rw [hcase] at hphase
      contradiction

namespace Logged

theorem initial (hc : c.Valid) {graph : TaskGraph η} (device : Device η) (trace : DeviceTrace)
    (htiles : ∀ i, c.Tiles (graph.pickup i).threadsPerInvocation) :
    Logged c (.initial c graph device trace) (fun _ => gather) .empty [] := by
  have hpos : 0 < c.numGroups := Nat.mul_pos hc.blocks_pos hc.groups_pos
  have hphase : (LaunchState.initial c graph device trace).phase 0 = .init := by
    simp [LaunchState.initial, phase, hpos]
  rcases OnCourse.initial hc device trace htiles with h | h
  · exact .waits h hphase
  · exact absurd hphase (h.begun 0)

theorem step (hc : c.Valid) (h : Logged c s stage l log) (hcoherent : Coherent c s stage)
    (g : Nat) : Logged c (LaunchState.step c d g s) (nextStage c s g stage) (nextLedger c d s g l)
      (log ++ asksAt s g) := by
  cases h with
  | waits h hinit =>
      by_cases hphase : s.phase g = .init
      · exact h.logged_begin hc hcoherent hphase
      · rw [h.asksAt_eq_nil hcoherent hphase]
        have hstay := (h.stay (d := d) hcoherent hphase).1
        by_cases hinit' : (LaunchState.step c d g s).phase 0 = .init
        · exact .waits hstay hinit'
        · exact .failed hstay hinit' 0 (Nat.zero_le _)
  | failed h hbegun m hm =>
      have hphase : s.phase g ≠ .init := by
        intro hphase
        obtain rfl := h.others g hphase
        contradiction
      obtain ⟨hstay, hgraph⟩ := h.stay (d := d) hcoherent hphase
      rw [h.asksAt_eq_nil hcoherent hphase, List.append_nil, ← hgraph]
      exact .failed hstay (hcoherent.begun_step g hbegun) m (hgraph ▸ hm)
  | runs h hasked => exact .runs (h.step hc hcoherent g) (h.asked_step hc hcoherent hasked g).1

theorem follow (hc : c.Valid) (h : Logged c s stage l log) (hcoherent : Coherent c s stage)
    (schedule : List Nat) :
    Logged c (follow c d schedule s) (stages c d schedule s stage) (ledger c d schedule s l)
      (log ++ asks c d schedule s) := by
  induction schedule generalizing s stage l log with
  | nil => rwa [asks, List.append_nil]
  | cons g schedule ih =>
      rw [asks, ← List.append_assoc]
      exact ih (h.step hc hcoherent g) (hcoherent.step g)

theorem eq_all (hc : c.Valid) (h : Logged c s stage l log) (hcoherent : Coherent c s stage)
    (hexited : ∀ g < c.numGroups, s.phase g = .exited) :
    log = (List.range s.graph.numNodes).filter s.graph.isCounted := by
  have hfirst := hexited 0 (Nat.mul_pos hc.blocks_pos hc.groups_pos)
  cases h with
  | waits _ hinit =>
      rw [hfirst] at hinit
      contradiction
  | failed h hbegun =>
      have hgone := h.first.resolve_left hbegun
      rw [hfirst] at hgone
      contradiction
  | runs h hasked => exact hasked.eq_all (OnCourse.finished hc (.inr h) hcoherent hexited).2

end Logged
end LaunchState
end Lockstep
