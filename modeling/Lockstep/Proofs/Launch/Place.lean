import Lockstep.Launch.Step
import Mathlib.Algebra.Group.Nat.Defs
import Mathlib.Data.List.Range
import Mathlib.Logic.Function.Basic

/-!
# Places and gates

A group that waits at a barrier has in effect gone on as soon as the generation it
waits for is over, whether or not it has looked.  The place of a group takes that into
account.  A gate is one barrier together with the groups that meet at it: the barrier
of the launch, or the barrier of one block.
-/

namespace Lockstep

namespace Site

def gate (b : Nat) : Site → Option Nat
  | start => none
  | _ => some b

end Site

namespace LaunchConfig

structure Valid (c : LaunchConfig) : Prop where
  blocks_pos : 0 < c.numBlocks.toNat
  groups_pos : 0 < c.groupsPerBlock.toNat
  lanes_pos : 0 < c.lanesPerGroup.toNat
  lanes_le : c.lanesPerGroup.toNat ≤ 64
  width_lt : c.groupsPerBlock.toNat * c.lanesPerGroup.toNat < 2 ^ 32
  numGroups_lt : c.numGroups < 2 ^ 32

def groupAt (c : LaunchConfig) (b r : Nat) : Nat := b * c.groupsPerBlock.toNat + r

/-- The groups that meet at the barrier of the launch, or at that of a block. -/
def party (c : LaunchConfig) : Option Nat → List Nat
  | none => List.range c.numGroups
  | some b => List.range' (c.groupAt b 0) c.groupsPerBlock.toNat

/-- The gates of a launch: one for all, and one for each block. -/
def IsGate (c : LaunchConfig) : Option Nat → Prop
  | none => True
  | some b => b < c.numBlocks.toNat

section Groups

variable {c : LaunchConfig} {g : Nat}

theorem blockOf_lt (hg : g < c.numGroups) : c.blockOf g < c.numBlocks.toNat :=
  Nat.div_lt_of_lt_mul (by rwa [Nat.mul_comm])

theorem groupAt_lt {b r : Nat} (hb : b < c.numBlocks.toNat) (hr : r < c.groupsPerBlock.toNat) :
    c.groupAt b r < c.numGroups := by
  unfold groupAt numGroups
  calc b * c.groupsPerBlock.toNat + r < b * c.groupsPerBlock.toNat + c.groupsPerBlock.toNat := by
        omega
    _ = (b + 1) * c.groupsPerBlock.toNat := (Nat.succ_mul _ _).symm
    _ ≤ _ := Nat.mul_le_mul_right _ hb

theorem rankOf_groupAt (b : Nat) {r : Nat} (hr : r < c.groupsPerBlock.toNat) :
    c.rankOf (c.groupAt b r) = r := by
  unfold rankOf groupAt
  rw [Nat.mul_comm, Nat.mul_add_mod, Nat.mod_eq_of_lt hr]

theorem isLeader_groupAt (b : Nat) {r : Nat} (hr : r < c.groupsPerBlock.toNat) :
    c.isLeader (c.groupAt b r) = (r == 0) := by
  rw [isLeader, rankOf_groupAt b hr]

theorem groupAt_blockOf (g : Nat) : c.groupAt (c.blockOf g) (c.rankOf g) = g := by
  unfold groupAt blockOf rankOf
  rw [Nat.mul_comm]
  exact Nat.div_add_mod g _

theorem groupAt_of_isLeader (hleader : c.isLeader g = true) : c.groupAt (c.blockOf g) 0 = g := by
  have hrank : c.rankOf g = 0 := by simpa [isLeader] using hleader
  rw [← hrank, groupAt_blockOf]

theorem isLeader_eq_false {g' : Nat} (hleader : c.isLeader g = true) (hne : g' ≠ g)
    (hblock : c.blockOf g' = c.blockOf g) : c.isLeader g' = false := by
  refine eq_false_of_ne_true fun hleader' => hne ?_
  rw [← groupAt_of_isLeader hleader, ← groupAt_of_isLeader hleader', hblock]

theorem party_nodup (k : Option Nat) : (c.party k).Nodup := by
  cases k with
  | none => exact List.nodup_range
  | some b => exact List.nodup_range'

theorem length_party_some (b : Nat) : (c.party (some b)).length = c.groupsPerBlock.toNat := by
  simp [party]

section Positive

variable (hc : 0 < c.groupsPerBlock.toNat)
include hc

theorem rankOf_lt (g : Nat) : c.rankOf g < c.groupsPerBlock.toNat := Nat.mod_lt _ hc

theorem blockOf_groupAt (b : Nat) {r : Nat} (hr : r < c.groupsPerBlock.toNat) :
    c.blockOf (c.groupAt b r) = b := by
  unfold blockOf groupAt
  rw [Nat.mul_comm, Nat.mul_add_div hc, Nat.div_eq_of_lt hr, Nat.add_zero]

theorem mem_party_some {b g : Nat} : g ∈ c.party (some b) ↔ c.blockOf g = b := by
  simp only [party, List.mem_range'_1]
  constructor
  · rintro ⟨h₁, h₂⟩
    obtain ⟨r, rfl⟩ := Nat.exists_eq_add_of_le h₁
    have hr : r < c.groupsPerBlock.toNat := by omega
    exact blockOf_groupAt hc b hr
  · rintro rfl
    have h := groupAt_blockOf (c := c) g
    have hr := rankOf_lt hc g
    unfold groupAt at h ⊢
    omega

theorem party_lt {k : Option Nat} (hk : c.IsGate k) {g : Nat} (hg : g ∈ c.party k) :
    g < c.numGroups := by
  cases k with
  | none => exact List.mem_range.1 hg
  | some b =>
      obtain rfl := (mem_party_some hc).1 hg
      rw [← groupAt_blockOf (c := c) g]
      exact groupAt_lt hk (rankOf_lt hc g)

theorem ne_of_mem_party {b g g' : Nat} (hmem : g' ∈ c.party (some b)) (hne : b ≠ c.blockOf g) :
    g' ≠ g := by
  rintro rfl
  exact hne ((mem_party_some hc).1 hmem).symm

theorem party_subset {b : Nat} (hb : b < c.numBlocks.toNat) :
    c.party (some b) ⊆ List.range c.numGroups :=
  fun _ hmem => List.mem_range.2 (party_lt hc (k := some b) hb hmem)

end Positive

theorem groups_pos (hg : g < c.numGroups) : 0 < c.groupsPerBlock.toNat := by
  rcases Nat.eq_zero_or_pos c.groupsPerBlock.toNat with h | h
  · rw [numGroups, h, Nat.mul_zero] at hg
    exact absurd hg (Nat.not_lt_zero g)
  · exact h

theorem isGate_gate (hg : g < c.numGroups) (site : Site) : c.IsGate (site.gate (c.blockOf g)) := by
  cases site with
  | start => trivial
  | claimEnter | claimLeave | nodeEnter | nodeLeave | finish => exact blockOf_lt hg

theorem mem_party_gate_iff (hg : g < c.numGroups) (site : Site) (b : Nat) :
    g ∈ c.party (site.gate b) ↔ site.gate (c.blockOf g) = site.gate b := by
  cases site with
  | start => simpa [party, Site.gate] using hg
  | claimEnter | claimLeave | nodeEnter | nodeLeave | finish =>
      exact (mem_party_some (groups_pos hg)).trans (Option.some.injEq ..).symm.to_iff

theorem mem_party_gate (hg : g < c.numGroups) (site : Site) :
    g ∈ c.party (site.gate (c.blockOf g)) :=
  (mem_party_gate_iff hg site _).2 rfl

theorem firstThread_toNat (hc : c.Valid) (g : Nat) :
    (c.firstThread g).toNat = c.rankOf g * c.lanesPerGroup.toNat := by
  have hr := rankOf_lt hc.groups_pos g
  have hrank : (UInt32.ofNat (c.rankOf g)).toNat = c.rankOf g :=
    UInt32.toNat_ofNat_of_lt' (hr.trans (UInt32.toNat_lt _))
  have hlt : c.rankOf g * c.lanesPerGroup.toNat < 2 ^ 32 :=
    (Nat.mul_le_mul_right _ hr.le).trans_lt hc.width_lt
  rw [firstThread, UInt32.toNat_mul, hrank, Nat.mod_eq_of_lt hlt]

theorem blockWidth_toNat (hc : c.Valid) :
    c.blockWidth.toNat = c.groupsPerBlock.toNat * c.lanesPerGroup.toNat := by
  rw [blockWidth, UInt32.toNat_mul, Nat.mod_eq_of_lt hc.width_lt]

theorem batch_le (hc : c.Valid) (threads : UInt32) :
    (c.blockWidth / threads).toNat ≤ c.groupsPerBlock.toNat * c.lanesPerGroup.toNat ∧
      (c.lanesPerGroup / threads).toNat ≤ c.lanesPerGroup.toNat ∧
      c.lanesPerGroup.toNat ≤ c.groupsPerBlock.toNat * c.lanesPerGroup.toNat := by
  rw [UInt32.toNat_div, UInt32.toNat_div, blockWidth_toNat hc]
  exact ⟨Nat.div_le_self _ _, Nat.div_le_self _ _, Nat.le_mul_of_pos_left _ hc.groups_pos⟩

end Groups
end LaunchConfig

namespace Phase

def isGone : Phase → Bool
  | aborting .. | released | faulted _ => true
  | _ => false

theorem ne_of_isGone {p q : Phase} (hp : p.isGone = true) (hq : q.isGone = false) : p ≠ q := by
  rintro rfl
  exact Bool.false_ne_true (hq.symm.trans hp)

end Phase

namespace LaunchState

variable {η : Type} {c : LaunchConfig} {d : Dispatcher η} {s : LaunchState η} {g : Nat}

def gate (s : LaunchState η) : Option Nat → Barrier
  | none => s.start
  | some b => (s.block b).barrier

theorem barrierAt_eq_gate (s : LaunchState η) (b : Nat) (site : Site) :
    s.barrierAt b site = s.gate (site.gate b) := by
  cases site <;> rfl

/-- Where a group stands, once it has seen that the generation it waited for is over. -/
def place (c : LaunchConfig) (s : LaunchState η) (g : Nat) : Phase :=
  match s.phase g with
  | .waiting site generation =>
      if (s.barrierAt (c.blockOf g) site).generation = generation then .enter site
      else afterSite (c.isLeader g) site
  | phase => phase

/-- Whether a group waits at a gate for the present generation to end. -/
def waitsAt (c : LaunchConfig) (s : LaunchState η) (k : Option Nat) (g : Nat) : Bool :=
  match s.phase g with
  | .waiting site generation =>
      decide (site.gate (c.blockOf g) = k ∧ generation = (s.gate k).generation)
  | _ => false

/-! ## Access to the parts of a state -/

theorem phase_goto (hg : g < s.groups.size) (p : Phase) (g' : Nat) :
    (s.goto g p).phase g' = if g' = g then p else s.phase g' := by
  unfold goto phase
  by_cases h : g' = g
  · subst h
    simp [hg]
  · simp [h, Ne.symm h]

theorem block_setBlock {b : Nat} (hb : b < s.blocks.size) (block : BlockState) (b' : Nat) :
    (s.setBlock b block).block b' = if b' = b then block else s.block b' := by
  unfold setBlock LaunchState.block
  by_cases h : b' = b
  · subst h
    simp [hb]
  · simp [h, Ne.symm h]

theorem place_of_phase {p : Phase} (h : s.phase g = p) (hp : ∀ site n, p ≠ .waiting site n) :
    s.place c g = p := by
  unfold place
  rw [h]
  split
  · rename_i site n
    exact absurd rfl (hp site n)
  · rfl

theorem waitsAt_of_phase {p : Phase} (h : s.phase g = p) (hp : ∀ site n, p ≠ .waiting site n)
    (k : Option Nat) : s.waitsAt c k g = false := by
  unfold waitsAt
  rw [h]
  split
  · rename_i site n
    exact absurd rfl (hp site n)
  · rfl

theorem afterSite_ne_init (leader : Bool) (site : Site) : afterSite leader site ≠ .init := by
  cases site <;> cases leader <;> simp [afterSite]

theorem afterSite_ne_waiting (leader : Bool) (site : Site) (site' : Site) (n : Nat) :
    afterSite leader site ≠ .waiting site' n := by
  cases site <;> cases leader <;> simp [afterSite]

theorem place_of_waiting {site : Site} {n : Nat} (h : s.phase g = .waiting site n) :
    s.place c g = if (s.gate (site.gate (c.blockOf g))).generation = n then .enter site
      else afterSite (c.isLeader g) site := by
  unfold place
  rw [h, ← barrierAt_eq_gate]

theorem place_eq_phase_or (s : LaunchState η) (g : Nat) :
    s.place c g = s.phase g ∨ (∃ site, s.place c g = .enter site) ∨
      ∃ leader site, s.place c g = afterSite leader site := by
  cases hphase : s.phase g with
  | waiting site n =>
      rw [place_of_waiting hphase]
      split
      · exact .inr (.inl ⟨site, rfl⟩)
      · exact .inr (.inr ⟨_, site, rfl⟩)
  | _ => exact .inl (place_of_phase hphase (by simp))

theorem phase_of_isOver (h : (s.place c g).isOver = true) : s.phase g = s.place c g := by
  rcases place_eq_phase_or (c := c) s g with h' | ⟨site, h'⟩ | ⟨leader, site, h'⟩
  · exact h'.symm
  · rw [h'] at h
    exact absurd h Bool.false_ne_true
  · rw [h'] at h
    cases site <;> cases leader <;> exact absurd h Bool.false_ne_true

theorem phase_of_isGone (h : (s.place c g).isGone = true) : s.phase g = s.place c g := by
  rcases place_eq_phase_or (c := c) s g with h' | ⟨site, h'⟩ | ⟨leader, site, h'⟩
  · exact h'.symm
  · rw [h'] at h
    exact absurd h Bool.false_ne_true
  · rw [h'] at h
    cases site <;> cases leader <;> exact absurd h Bool.false_ne_true

theorem place_of_waitsAt {k : Option Nat} (h : s.waitsAt c k g = true) :
    ∃ site n, s.phase g = .waiting site n ∧ site.gate (c.blockOf g) = k ∧
      n = (s.gate k).generation ∧ s.place c g = .enter site := by
  unfold waitsAt at h
  split at h
  · rename_i site n hphase
    obtain ⟨hk, hn⟩ := of_decide_eq_true h
    exact ⟨site, n, hphase, hk, hn, by rw [place_of_waiting hphase, hk, hn, if_pos rfl]⟩
  · exact absurd h Bool.false_ne_true

theorem setBarrierAt_barrierAt {b : Nat} (hb : b < s.blocks.size) (site : Site) :
    s.setBarrierAt b site (s.barrierAt b site) = s := by
  have hblocks : s.blocks.setIfInBounds b (s.block b) = s.blocks := by
    apply Array.ext_getElem?
    intro i
    by_cases hi : i = b
    · subst hi
      simp [LaunchState.block, hb]
    · simp [Ne.symm hi]
  have hblock : s.setBlock b (s.block b) = s := by
    rw [setBlock, hblocks]
  cases site with
  | start => rfl
  | claimEnter | claimLeave | nodeEnter | nodeLeave | finish => exact hblock

/-- A step that leaves alone what the blocks have noted. -/
structure SameNotes (s s' : LaunchState η) : Prop where
  pickup : ∀ b, (s'.block b).pickup = (s.block b).pickup
  base : ∀ b, (s'.block b).base = (s.block b).base
  finishedThreads : ∀ b, (s'.block b).finishedThreads = (s.block b).finishedThreads

/-- A step that takes one group to another place.  It meets nobody: it may change the
graph and what the group's block has noted, but no barrier. -/
structure Moved (c : LaunchConfig) (g : Nat) (p : Phase) (block : BlockState)
    (graph : TaskGraph η) (s s' : LaunchState η) : Prop where
  groups_size : s'.groups.size = s.groups.size
  blocks_size : s'.blocks.size = s.blocks.size
  phase : ∀ g', s'.phase g' = if g' = g then p else s.phase g'
  gate : ∀ k, s'.gate k = s.gate k
  block : ∀ b, s'.block b = if b = c.blockOf g then block else s.block b
  graph : s'.graph = graph
  aborted : s'.aborted = s.aborted

theorem moved_goto (hg : g < s.groups.size) (p : Phase) {t : LaunchState η}
    (hgroups : t.groups = s.groups) (hblocks : t.blocks = s.blocks) (hstart : t.start = s.start)
    (haborted : t.aborted = s.aborted) :
    Moved c g p (s.block (c.blockOf g)) t.graph s (t.goto g p) := by
  obtain ⟨graph, device, trace, blocks, start, aborted, groups⟩ := t
  subst hgroups hblocks hstart haborted
  refine ⟨by simp [goto], rfl, fun g' => phase_goto hg p g', fun k => by cases k <;> rfl,
    fun b => ?_, rfl, rfl⟩
  split
  · rename_i h
    rw [h]
    rfl
  · rfl

theorem moved_setBlock (hg : g < s.groups.size) (hb : c.blockOf g < s.blocks.size) (p : Phase)
    {t : LaunchState η} (block : BlockState) (hgroups : t.groups = s.groups)
    (hblocks : t.blocks = s.blocks) (hstart : t.start = s.start)
    (haborted : t.aborted = s.aborted)
    (hbarrier : block.barrier = (s.block (c.blockOf g)).barrier) :
    Moved c g p block t.graph s ((t.setBlock (c.blockOf g) block).goto g p) := by
  obtain ⟨graph, device, trace, blocks, start, aborted, groups⟩ := t
  subst hgroups hblocks hstart haborted
  have hblock : ∀ b, ((LaunchState.setBlock ⟨graph, device, trace, s.blocks, s.start, s.aborted,
      s.groups⟩ (c.blockOf g) block).goto g p).block b =
        if b = c.blockOf g then block else s.block b := fun b => block_setBlock hb block b
  refine ⟨by simp [goto, setBlock], by simp [goto, setBlock], fun g' => phase_goto hg p g',
    fun k => ?_, hblock, rfl, rfl⟩
  cases k with
  | none => rfl
  | some b =>
      change BlockState.barrier _ = BlockState.barrier _
      rw [hblock]
      split
      · rename_i h
        rw [h, hbarrier]
      · rfl

namespace Moved

variable {s' : LaunchState η} {p : Phase} {block : BlockState} {graph : TaskGraph η}

theorem block_self (h : Moved c g p (s.block (c.blockOf g)) graph s s') (b : Nat) :
    s'.block b = s.block b := by
  rw [h.block]
  split
  · rename_i hb
    rw [hb]
  · rfl

theorem sameNotes (h : Moved c g p (s.block (c.blockOf g)) graph s s') : s.SameNotes s' :=
  ⟨fun b => by rw [h.block_self], fun b => by rw [h.block_self], fun b => by rw [h.block_self]⟩

theorem place_self (h : Moved c g p block graph s s') (hp : ∀ site n, p ≠ .waiting site n) :
    s'.place c g = p :=
  place_of_phase (by rw [h.phase, if_pos rfl]) hp

theorem place_other (h : Moved c g p block graph s s') {g' : Nat} (hne : g' ≠ g) :
    s'.place c g' = s.place c g' := by
  have hphase : s'.phase g' = s.phase g' := by rw [h.phase, if_neg hne]
  unfold place
  rw [hphase]
  cases s.phase g' <;> simp only [barrierAt_eq_gate, h.gate]

theorem place_eq (h : Moved c g p block graph s s') (hp : ∀ site n, p ≠ .waiting site n) :
    s'.place c = Function.update (s.place c) g p := by
  funext g'
  by_cases hne : g' = g
  · rw [hne, Function.update_self, h.place_self hp]
  · rw [Function.update_of_ne hne, h.place_other hne]

theorem waitsAt_self (h : Moved c g p block graph s s') (hp : ∀ site n, p ≠ .waiting site n)
    (k : Option Nat) : s'.waitsAt c k g = false :=
  waitsAt_of_phase (by rw [h.phase, if_pos rfl]) hp k

theorem waitsAt_other (h : Moved c g p block graph s s') {g' : Nat} (hne : g' ≠ g)
    (k : Option Nat) : s'.waitsAt c k g' = s.waitsAt c k g' := by
  unfold waitsAt
  rw [h.phase, if_neg hne, h.gate]

end Moved

/-- A step of one group at a gate.  What the blocks have noted stays as it is. -/
structure Met (c : LaunchConfig) (g : Nat) (p : Phase) (k : Option Nat) (barrier : Barrier)
    (s s' : LaunchState η) : Prop where
  groups_size : s'.groups.size = s.groups.size
  blocks_size : s'.blocks.size = s.blocks.size
  phase : ∀ g', s'.phase g' = if g' = g then p else s.phase g'
  gate : ∀ k', s'.gate k' = if k' = k then barrier else s.gate k'
  pickup : ∀ b, (s'.block b).pickup = (s.block b).pickup
  base : ∀ b, (s'.block b).base = (s.block b).base
  finishedThreads : ∀ b, (s'.block b).finishedThreads = (s.block b).finishedThreads
  graph : s'.graph = s.graph
  aborted : s'.aborted = s.aborted

theorem met_start (hg : g < s.groups.size) (p : Phase) (barrier : Barrier) :
    Met c g p none barrier s ({ s with start := barrier }.goto g p) := by
  refine ⟨by simp [goto], rfl, fun g' => phase_goto hg p g', fun k => ?_, fun _ => rfl,
    fun _ => rfl, fun _ => rfl, rfl, rfl⟩
  cases k <;> rfl

theorem met_block {b : Nat} (hg : g < s.groups.size) (hb : b < s.blocks.size) (p : Phase)
    (barrier : Barrier) :
    Met c g p (some b) barrier s ((s.setBlock b { s.block b with barrier }).goto g p) := by
  have hblock : ∀ b', ((s.setBlock b { s.block b with barrier }).goto g p).block b' =
      if b' = b then { s.block b with barrier } else s.block b' :=
    fun b' => block_setBlock hb _ b'
  refine ⟨by simp [goto, setBlock], by simp [goto, setBlock], fun g' => phase_goto hg p g',
    fun k => ?_, fun b' => ?_, fun b' => ?_, fun b' => ?_, rfl, rfl⟩
  · cases k with
    | none => rfl
    | some b' =>
        change BlockState.barrier _ = _
        rw [hblock]
        by_cases h : b' = b <;> simp [h, LaunchState.gate]
  all_goals
    rw [hblock]
    split
    · rename_i h
      rw [h]
    · rfl

theorem met_setBarrierAt (hg : g < s.groups.size) (hb : c.blockOf g < s.blocks.size) (p : Phase)
    (site : Site) (barrier : Barrier) :
    Met c g p (site.gate (c.blockOf g)) barrier s
      ((s.setBarrierAt (c.blockOf g) site barrier).goto g p) := by
  cases site with
  | start => exact met_start hg p barrier
  | claimEnter | claimLeave | nodeEnter | nodeLeave | finish => exact met_block hg hb p barrier

namespace Met

variable {s' : LaunchState η} {p : Phase} {k : Option Nat} {barrier : Barrier}

theorem sameNotes (h : Met c g p k barrier s s') : s.SameNotes s' :=
  ⟨h.pickup, h.base, h.finishedThreads⟩

theorem phase_self (h : Met c g p k barrier s s') : s'.phase g = p := by
  rw [h.phase, if_pos rfl]

theorem phase_other (h : Met c g p k barrier s s') {g' : Nat} (hne : g' ≠ g) :
    s'.phase g' = s.phase g' := by
  rw [h.phase, if_neg hne]

theorem generation (h : Met c g p k barrier s s')
    (hgen : barrier.generation = (s.gate k).generation) (k' : Option Nat) :
    (s'.gate k').generation = (s.gate k').generation := by
  rw [h.gate]
  split
  · rename_i hk
    rw [hk, hgen]
  · rfl

theorem place_other (h : Met c g p k barrier s s')
    (hgen : barrier.generation = (s.gate k).generation) {g' : Nat} (hne : g' ≠ g) :
    s'.place c g' = s.place c g' := by
  unfold place
  rw [h.phase_other hne]
  cases s.phase g' <;> simp only [barrierAt_eq_gate, h.generation hgen]

theorem waitsAt_other (h : Met c g p k barrier s s')
    (hgen : barrier.generation = (s.gate k).generation) {g' : Nat} (hne : g' ≠ g)
    (k' : Option Nat) : s'.waitsAt c k' g' = s.waitsAt c k' g' := by
  unfold waitsAt
  rw [h.phase_other hne, h.generation hgen]

theorem place_away (h : Met c g p k barrier s s') {g' : Nat} (hne : g' ≠ g)
    (haway : ∀ site n, s.phase g' = .waiting site n → site.gate (c.blockOf g') ≠ k) :
    s'.place c g' = s.place c g' := by
  have hphase := h.phase_other hne
  cases hcase : s.phase g' with
  | waiting site n =>
      rw [place_of_waiting hcase, place_of_waiting (hphase.trans hcase), h.gate,
        if_neg (haway site n hcase)]
  | _ => rw [place_of_phase hcase (by simp), place_of_phase (hphase.trans hcase) (by simp)]

theorem waitsAt_away (h : Met c g p k barrier s s') {g' : Nat} (hne : g' ≠ g) {k' : Option Nat}
    (hk : k' ≠ k) : s'.waitsAt c k' g' = s.waitsAt c k' g' := by
  unfold waitsAt
  rw [h.phase_other hne, h.gate, if_neg hk]

end Met
end LaunchState
end Lockstep
