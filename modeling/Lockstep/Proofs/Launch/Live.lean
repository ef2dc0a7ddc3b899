import Lockstep.Proofs.Launch.Balance
import Lockstep.Proofs.Launch.Overshoot
import Lockstep.Proofs.Launch.Reading
import Mathlib.Algebra.Order.BigOperators.Group.List

/-!
# Launches under way

The invariant of a launch whose run has started, put together from what holds of each
block and of the launch as a whole.  A move of a group concerns its own block and the
graph; the other blocks only see the graph go on.
-/

namespace Lockstep
namespace LaunchState

open Stage

variable {η : Type} {c : LaunchConfig} {d : Dispatcher η} {s s' : LaunchState η} {g : Nat}
  {stage stage' : Nat → Stage} {l : Ledger}

def room (c : LaunchConfig) : Nat := 2 ^ 32 + width c + c.numBlocks.toNat * (2 * width c)

theorem room_add_lt (hc : c.Valid) :
    room c + c.groupsPerBlock.toNat * c.lanesPerGroup.toNat < 2 ^ 64 := by
  have hwidth := hc.width_lt
  have hlanes := Nat.mul_le_mul_left c.numGroups hc.lanes_le
  have hgroups := hc.numGroups_lt
  have hall : c.numBlocks.toNat * (c.groupsPerBlock.toNat * c.lanesPerGroup.toNat) =
      c.numGroups * c.lanesPerGroup.toNat := (Nat.mul_assoc ..).symm
  rw [room, width, Nat.mul_left_comm, hall]
  omega

/-- What all blocks may still claim in vain of the node at an index. -/
def allowances (c : LaunchConfig) (s : LaunchState η) (stage : Nat → Stage) (i : Nat) : Nat :=
  ((List.range c.numBlocks.toNat).map fun b =>
    allowance c s.graph.numNodes b (stage b) (s.block b) (s.place c) i).sum

/-- The invariant of a launch whose run has started.  The claims of a node stay below a word
because blocks claim in vain only so often. -/
structure Live (c : LaunchConfig) (s : LaunchState η) (stage : Nat → Stage) (l : Ledger) :
    Prop where
  begun : ∀ g, s.phase g ≠ .init
  tiles : ∀ i, c.Tiles (s.graph.pickup i).threadsPerInvocation
  reads : ∀ b < c.numBlocks.toNat, Reads c s.graph b (stage b) (s.block b) (s.place c)
  held : ∀ b < c.numBlocks.toNat, Held c b (stage b) (s.block b) (s.place c) l
  bounded : ∀ i, s.graph.claimed i + allowances c s stage i ≤ room c
  balanced : Balanced c s.graph l
  current : (∀ g, (s.phase g).isGone = false) → s.graph.cursor.toNat < s.graph.numNodes →
    0 < s.graph.remaining s.graph.cursor.toNat
  resolved : ∀ i ≤ s.graph.cursor.toNat, i < s.graph.numNodes → s.graph.IsResolved i

theorem allowance_congr (hpos : 0 < c.groupsPerBlock.toNat) {numNodes b : Nat} {σ : Stage}
    {block block' : BlockState} {place place' : Nat → Phase}
    (hpickup : block'.pickup = block.pickup) (hbase : block'.base = block.base)
    (hplace : ∀ g ∈ c.party (some b), place' g = place g) (i : Nat) :
    allowance c numNodes b σ block' place' i = allowance c numNodes b σ block place i := by
  have hlead := hplace _ ((LaunchConfig.mem_party_some hpos).2
    (LaunchConfig.blockOf_groupAt hpos b hpos))
  have hown : ownAllowance c b block' place' σ = ownAllowance c b block place σ := by
    cases σ with
    | narrow =>
        simp only [ownAllowance]
        congr 1
        exact List.map_congr_left fun g hmem => by rw [hplace g hmem]
    | search => simp only [ownAllowance, hlead]
    | found => simp only [ownAllowance, hbase]
    | claimed => simp only [ownAllowance, hpickup, hbase]
    | _ => rfl
  unfold allowance
  rw [hpickup, hown]

namespace Live

theorem of_blocks {p : Phase} (h : Live c s stage l) (hgraph : s'.graph = s.graph)
    (hphase : ∀ g', s'.phase g' = if g' = g then p else s.phase g') (hp : p ≠ .init)
    (hgone : (s.phase g).isGone = true → p.isGone = true)
    (hblocks : ∀ b < c.numBlocks.toNat,
      Reads c s.graph b (stage' b) (s'.block b) (s'.place c) ∧
      Held c b (stage' b) (s'.block b) (s'.place c) l ∧
      ∀ i, allowance c s.graph.numNodes b (stage' b) (s'.block b) (s'.place c) i ≤
        allowance c s.graph.numNodes b (stage b) (s.block b) (s.place c) i) :
    Live c s' stage' l := by
  refine ⟨fun g' heq => ?_, hgraph ▸ h.tiles, fun b hb => ?_, fun b hb => (hblocks b hb).2.1,
    fun i => ?_, hgraph ▸ h.balanced, fun hcalm => ?_, hgraph ▸ h.resolved⟩
  · rw [hphase] at heq
    split at heq
    · exact hp heq
    · exact h.begun g' heq
  · rw [hgraph]
    exact (hblocks b hb).1
  · refine (Nat.add_le_add_left ?_ _).trans (hgraph ▸ h.bounded i)
    unfold allowances
    rw [hgraph]
    exact List.sum_le_sum fun b hb => (hblocks b (List.mem_range.1 hb)).2.2 i
  · rw [hgraph]
    apply h.current
    intro g'
    have hcalm' := hcalm g'
    rw [hphase] at hcalm'
    split at hcalm'
    · rename_i hself
      rw [hself]
      exact eq_false_of_ne_true fun hg => absurd ((hgone hg).symm.trans hcalm') (by decide)
    · exact hcalm'

theorem block_same (h : Live c s stage l) (hc : c.Valid) {b : Nat} (hb : b < c.numBlocks.toNat)
    (hnotes : s.SameNotes s') (hplace : ∀ g ∈ c.party (some b), s'.place c g = s.place c g) :
    Reads c s.graph b (stage b) (s'.block b) (s'.place c) ∧
      Held c b (stage b) (s'.block b) (s'.place c) l ∧
      ∀ i, allowance c s.graph.numNodes b (stage b) (s'.block b) (s'.place c) i ≤
        allowance c s.graph.numNodes b (stage b) (s.block b) (s.place c) i := by
  have hpickup := hnotes.pickup b
  have hbase := hnotes.base b
  refine ⟨(h.reads b hb).grow hc.groups_pos (.refl _) hpickup hbase hplace,
    (h.held b hb).congr hc hpickup hbase (hnotes.finishedThreads b) hplace
      fun _ _ => ⟨rfl, rfl, rfl⟩, fun i => ?_⟩
  exact (allowance_congr hc.groups_pos hpickup hbase hplace i).le

theorem of_places {p : Phase} (h : Live c s stage l) (hc : c.Valid) (hgraph : s'.graph = s.graph)
    (hnotes : s.SameNotes s') (hphase : ∀ g', s'.phase g' = if g' = g then p else s.phase g')
    (hp : p ≠ .init) (hcalm : (s.phase g).isGone = false)
    (hplace : ∀ g, s'.place c g = s.place c g) : Live c s' stage l :=
  h.of_blocks hgraph hphase hp (fun hgone => absurd (hgone.symm.trans hcalm) (by decide))
    fun _ hb => h.block_same hc hb hnotes fun g _ => hplace g

theorem of_gone {p : Phase} (h : Live c s stage l) (hc : c.Valid) (hgraph : s'.graph = s.graph)
    (hnotes : s.SameNotes s') (hphase : ∀ g', s'.phase g' = if g' = g then p else s.phase g')
    (hplace : ∀ g' ≠ g, s'.place c g' = s.place c g') (hp : p.isGone = true)
    (hold : (∃ site, s.place c g = .enter site) ∨ (s.place c g).isGone = true)
    (hled : g = c.groupAt (c.blockOf g) 0 → (stage (c.blockOf g)).isLed = false) :
    Live c s' stage l := by
  have hself : s'.phase g = p := by rw [hphase, if_pos rfl]
  have hplaces : s'.place c = Function.update (s.place c) g p := by
    funext g'
    by_cases heq : g' = g
    · rw [heq, Function.update_self]
      exact place_of_phase hself fun _ _ => Phase.ne_of_isGone hp rfl
    · rw [Function.update_of_ne heq, hplace g' heq]
  apply h.of_blocks hgraph hphase (Phase.ne_of_isGone hp rfl) (fun _ => hp)
  intro b hb
  by_cases hblock : b = c.blockOf g
  · subst hblock
    have hmem : g ∈ c.party (some (c.blockOf g)) :=
      (LaunchConfig.mem_party_some hc.groups_pos).2 rfl
    have hall : ∀ g' ∈ c.party (some (c.blockOf g)),
        s'.place c g' = Function.update (s.place c) g p g' := fun g' _ => by rw [hplaces]
    have hpickup := hnotes.pickup (c.blockOf g)
    have hbase := hnotes.base (c.blockOf g)
    refine ⟨((h.reads _ hb).go_gone hp hled).grow hc.groups_pos (.refl _) hpickup hbase hall,
      ((h.held _ hb).go_gone hmem hold hp hled).congr hc hpickup hbase
        (hnotes.finishedThreads _) hall fun _ _ => ⟨rfl, rfl, rfl⟩, fun i => ?_⟩
    rw [allowance_congr hc.groups_pos hpickup hbase hall]
    exact allowance_gone hmem hp hled i
  · exact h.block_same hc hb hnotes fun g' hmem =>
      hplace g' (LaunchConfig.ne_of_mem_party hc.groups_pos hmem hblock)

theorem meet {site : Site} {barrier : Barrier} (h : Live c s stage l) (hc : c.Valid)
    (hcoherent : Coherent c s stage) (hg : g < c.numGroups) (hphase : s.phase g = .enter site)
    (hm : Met c g (afterSite (c.isLeader g) site) (site.gate (c.blockOf g)) barrier s s')
    (hmeeting : Meeting c g site s s') :
    Live c s' (fun b =>
      if site.gate b = site.gate (c.blockOf g) then
        after s.graph.numNodes c.lanesPerGroup (s.block b).pickup (s.block b).base site
      else stage b) l := by
  have hparty : ∀ b < c.numBlocks.toNat, ∀ g' ∈ c.party (some b),
      g' < c.numGroups ∧ c.blockOf g' = b := fun b hb g' hmem =>
    ⟨LaunchConfig.party_lt hc.groups_pos (k := some b) hb hmem,
      (LaunchConfig.mem_party_some hc.groups_pos).1 hmem⟩
  refine h.of_blocks hm.graph hm.phase (afterSite_ne_init _ _)
    (fun hgone => by rw [hphase] at hgone; contradiction) fun b hb => ?_
  by_cases hgate : site.gate b = site.gate (c.blockOf g)
  · rw [if_pos hgate]
    have hleader := hcoherent.leader_meets hg hmeeting hb hgate
    have hfits := hcoherent.fits b hb
    have hplace : ∀ g' ∈ c.party (some b), s.place c g' = .enter site := fun g' hmem => by
      obtain ⟨hg', hblock⟩ := hparty b hb g' hmem
      exact hmeeting.before g' hg' (by rw [hblock, hgate])
    have hplace' : ∀ g' ∈ c.party (some b), s'.place c g' = afterSite (c.isLeader g') site :=
      fun g' hmem => by
        obtain ⟨hg', hblock⟩ := hparty b hb g' hmem
        exact hmeeting.after g' hg' (by rw [hblock, hgate])
    exact ⟨(h.reads b hb).meet hc.groups_pos (hm.pickup b) hleader hfits hplace hplace',
      (h.held b hb).meet hc (hm.pickup b) (hm.base b) (hm.finishedThreads b) hleader hfits hplace
        hplace', allowance_meet hc.groups_pos (hm.pickup b) hleader hplace'⟩
  · rw [if_neg hgate]
    apply h.block_same hc hb hm.sameNotes
    intro g' hmem
    obtain ⟨hg', hblock⟩ := hparty b hb g' hmem
    exact hmeeting.away g' hg' (by rwa [hblock])

theorem posts {p q : Phase} {block' : BlockState} {graph : TaskGraph η} {σ' : Stage}
    (h : Live c s stage l) (hc : c.Valid) (hcoherent : Coherent c s stage) (hg : g < c.numGroups)
    (hphase : s.phase g = q) (hapart : q.isApart = true)
    (hturn : Turn c g s (s.block (c.blockOf g)) (stage (c.blockOf g)) q σ' p block' graph)
    (hm : Moved c g p block' graph s (step c d g s)) :
    Posts c s g (s.block (c.blockOf g)).pickup l p graph (nextLedger c d s g l) ∧
      Posted c s g p graph (nextLedger c d s g l) := by
  have hb := LaunchConfig.blockOf_lt hg
  have hheld := h.held _ hb
  have hq : ∀ site n, q ≠ .waiting site n := by
    rintro site n rfl
    exact absurd hapart Bool.false_ne_true
  have hroom : ∀ i,
      s.graph.claimed i + c.groupsPerBlock.toNat * c.lanesPerGroup.toNat < 2 ^ 64 := by
    intro i
    have hle := (Nat.le_add_right _ _).trans (h.bounded i)
    exact (Nat.add_le_add_right hle _).trans_lt (room_add_lt hc)
  have hposts := hturn.posts hc hphase hm (hphase ▸ h.begun g) (hcoherent.fits _ hb) hheld
    (place_of_phase hphase hq)
  exact ⟨hposts, hposts.posted hg (LaunchConfig.party_subset hc.groups_pos hb) h.balanced
    (h.reads _ hb).cached hroom hheld.tiles.pos⟩

/-- The claims of a move are paid for by the allowance of its block. -/
theorem bounded_turn {p q : Phase} {block' : BlockState} {graph : TaskGraph η} {σ' : Stage}
    (h : Live c s stage l) (hc : c.Valid) (hcoherent : Coherent c s stage) (hg : g < c.numGroups)
    (hplace : s.place c g = q) (hbegun : q ≠ .init)
    (hturn : Turn c g s (s.block (c.blockOf g)) (stage (c.blockOf g)) q σ' p block' graph)
    (hm : Moved c g p block' graph s s')
    (hreport : ∀ node finished, q = .report node finished →
      ∀ i, graph.claimed i ≤ s.graph.claimed i) (i : Nat) :
    s'.graph.claimed i + allowances c s' (Function.update stage (c.blockOf g) σ') i ≤ room c := by
  have hb := LaunchConfig.blockOf_lt hg
  have hplaces := hm.place_eq hturn.ne_waiting
  have hchange := sum_map_change List.nodup_range (List.mem_range.2 hb)
    (show ∀ b ∈ List.range c.numBlocks.toNat, b ≠ c.blockOf g →
      allowance c s.graph.numNodes b (Function.update stage (c.blockOf g) σ' b) (s'.block b)
          (s'.place c) i =
        allowance c s.graph.numNodes b (stage b) (s.block b) (s.place c) i from fun b _ hne => by
      rw [Function.update_of_ne hne, hm.block, if_neg hne]
      refine allowance_congr hc.groups_pos rfl rfl (fun g' hmem => hm.place_other ?_) i
      exact LaunchConfig.ne_of_mem_party hc.groups_pos hmem hne)
  rw [Function.update_self, hm.block, if_pos rfl, hplaces] at hchange
  have hahead : ∀ cursor, q = .pickUp cursor →
      (s.block (c.blockOf g)).pickup.node.index < s.graph.numNodes →
        (s.block (c.blockOf g)).pickup.node.index < cursor.index := by
    rintro cursor rfl
    have hlead := LaunchConfig.groupAt_of_isLeader hturn.isLeader_of_pickUp
    exact ((h.reads _ hb).ahead cursor (by rw [hlead, hplace])).2
  have hsum := sum_map_le (show ∀ b ∈ List.range c.numBlocks.toNat,
      allowance c s.graph.numNodes b (Function.update stage (c.blockOf g) σ' b) (s'.block b)
        (Function.update (s.place c) g p) i ≤ 2 * width c from fun b _ => allowance_le ..)
  rw [List.length_range] at hsum
  have hbounded := h.bounded i
  have hclaimed := claimed_turn hc hturn hplace (hcoherent.fits _ hb) hahead hbegun hreport i
  have hnodes := hturn.sameSpecs.numNodes
  simp only [allowances, room, hm.graph, hnodes, hplaces] at hbounded hchange ⊢
  omega

/-- A move of a group. -/
theorem turn {p q : Phase} {block' : BlockState} {graph : TaskGraph η} {σ' : Stage}
    (h : Live c s stage l) (hc : c.Valid) (hcoherent : Coherent c s stage) (hg : g < c.numGroups)
    (hphase : s.phase g = q) (hapart : q.isApart = true)
    (hturn : Turn c g s (s.block (c.blockOf g)) (stage (c.blockOf g)) q σ' p block' graph)
    (hm : Moved c g p block' graph s (step c d g s)) :
    Live c (step c d g s) (Function.update stage (c.blockOf g) σ') (nextLedger c d s g l) := by
  have hb := LaunchConfig.blockOf_lt hg
  have hbegun : q ≠ .init := hphase ▸ h.begun g
  have hq : ∀ site n, q ≠ .waiting site n := by
    rintro site n rfl
    exact absurd hapart Bool.false_ne_true
  have hplace : s.place c g = q := place_of_phase hphase hq
  have hfits := hcoherent.fits _ hb
  obtain ⟨hposts, hposted⟩ := h.posts hc hcoherent hg hphase hapart hturn hm
  have hplaces := hm.place_eq hturn.ne_waiting
  have hother : ∀ {b}, b ≠ c.blockOf g → ∀ g' ∈ c.party (some b),
      (step c d g s).place c g' = s.place c g' := fun hne g' hmem =>
    hm.place_other (LaunchConfig.ne_of_mem_party hc.groups_pos hmem hne)
  refine ⟨fun g' heq => ?_, fun i => ?_, fun b hb' => ?_, fun b hb' => ?_, ?_, ?_, ?_, ?_⟩
  · rw [hm.phase] at heq
    split at heq
    · exact hturn.ne_init heq
    · exact h.begun g' heq
  · rw [hm.graph, hturn.sameSpecs.threadsPerInvocation]
    exact h.tiles i
  · rw [hm.graph, hm.block]
    by_cases hblock : b = c.blockOf g
    · subst hblock
      rw [if_pos rfl, Function.update_self, hplaces]
      exact (h.reads _ hb).turn hturn hplace hbegun hposted.grows hfits
    · rw [if_neg hblock, Function.update_of_ne hblock]
      exact (h.reads b hb').grow hc.groups_pos hposted.grows rfl rfl (hother hblock)
  · rw [hm.block]
    by_cases hblock : b = c.blockOf g
    · subst hblock
      rw [if_pos rfl, Function.update_self, hplaces]
      exact (h.held _ hb).turn hc h.tiles hturn hphase hm hfits hplace
    · rw [if_neg hblock, Function.update_of_ne hblock]
      apply (h.held b hb').congr hc rfl rfl rfl (hother hblock)
      intro g' hmem
      apply hposts.other hc.groups_pos
      rwa [(LaunchConfig.mem_party_some hc.groups_pos).1 hmem]
  · exact h.bounded_turn hc hcoherent hg hplace hbegun hturn hm
      fun node n hcase => hposted.claimed_le ⟨node, n, hphase.trans hcase⟩
  · rw [hm.graph]
    exact hposted.balanced
  · rw [hm.graph]
    intro hcalm
    refine hposted.current ?_ (h.current fun g' => ?_)
    · have hself := hcalm g
      rwa [hm.phase, if_pos rfl] at hself
    · by_cases hne : g' = g
      · rw [hne, hphase]
        cases q <;> first | rfl | contradiction
      · have hcalm' := hcalm g'
        rwa [hm.phase, if_neg hne] at hcalm'
  · rw [hm.graph]
    exact hposted.resolved h.resolved

end Live

end LaunchState
end Lockstep
