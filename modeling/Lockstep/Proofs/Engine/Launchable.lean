import Lockstep.Proofs.Arena.Division
import Lockstep.Proofs.Engine.Accepted
import Lockstep.Proofs.Layout.Demand

/-!
# Launchable configurations

The checks of a configuration look at its fields one by one.  Whether an engine can be made
and run also depends on products and sums of them: the width of a block and the number of
groups have to fit 32-bit words, and the host span has to be one that can be allocated.
Where they do, no group or thread number overflows.
-/

namespace Lockstep

namespace LaunchConfig

variable {c : LaunchConfig}

/-- The lanes of a block, in a number without bound. -/
def width (c : LaunchConfig) : Nat := c.groupsPerBlock.toNat * c.lanesPerGroup.toNat

theorem blockThreads_of_lt (h : c.width < 2 ^ 32) : c.blockThreads = .ok c.width := if_pos h

theorem blockThreads_of_le (h : 2 ^ 32 ≤ c.width) : c.blockThreads = .error .mulOverflow :=
  if_neg (Nat.not_lt.2 h)

theorem totalGroups_of_lt (h : c.numGroups < 2 ^ 32) : c.totalGroups = .ok c.numGroups := if_pos h

theorem totalGroups_of_le (h : 2 ^ 32 ≤ c.numGroups) : c.totalGroups = .error .mulOverflow :=
  if_neg (Nat.not_lt.2 h)

/-- The words that number a group and its block and threads are wide enough. -/
theorem originOf_groupAt (hc : c.Valid) {b r : Nat} (hb : b < c.numBlocks.toNat)
    (hr : r < c.groupsPerBlock.toNat) :
    (c.originOf (c.groupAt b r)).block.toNat = b ∧
      (c.originOf (c.groupAt b r)).group.toNat = b * c.groupsPerBlock.toNat + r := by
  have hgroup := groupAt_lt hb hr
  rw [originOf, blockOf_groupAt hc.groups_pos b hr]
  exact ⟨UInt32.toNat_ofNat_of_lt' (hb.trans c.numBlocks.toNat_lt),
    UInt32.toNat_ofNat_of_lt' (hgroup.trans hc.numGroups_lt)⟩

theorem thread_toNat (hc : c.Valid) (b : Nat) {r : Nat} (hr : r < c.groupsPerBlock.toNat)
    {lane : UInt32} (hlane : lane < c.lanesPerGroup) :
    (c.firstThread (c.groupAt b r) + lane).toNat = r * c.lanesPerGroup.toNat + lane.toNat ∧
      r * c.lanesPerGroup.toNat + lane.toNat < c.width := by
  have hlane := UInt32.lt_iff_toNat_lt.1 hlane
  have hmul := Nat.mul_le_mul_right c.lanesPerGroup.toNat (Nat.succ_le_of_lt hr)
  rw [Nat.succ_mul] at hmul
  have hlt : r * c.lanesPerGroup.toNat + lane.toNat < c.width :=
    (Nat.add_lt_add_left hlane _).trans_le hmul
  refine ⟨?_, hlt⟩
  rw [UInt32.toNat_add, firstThread_toNat hc, rankOf_groupAt b hr]
  exact Nat.mod_eq_of_lt (hlt.trans hc.width_lt)

end LaunchConfig

namespace Engine

section Launching

variable {η : Type} {config : EngineConfig} {shared : Shared η}

section New

variable (hvalid : config.validate = .ok ()) (hstorage : shared.storage.config = config.state)
include hvalid hstorage

theorem new_of_le (hwidth : 2 ^ 32 ≤ config.launch.width) (graph : TaskGraph η)
    (d : Dispatcher η) : Engine.new config shared graph d = .error .mulOverflow := by
  unfold Engine.new
  rw [hvalid]
  simp only [hstorage, ne_eq, not_true_eq_false, if_false,
    LaunchConfig.blockThreads_of_le hwidth]
  rfl

theorem new_of_lt (hwidth : config.launch.width < 2 ^ 32) (graph : TaskGraph η)
    (d : Dispatcher η) :
    (∃ result, Engine.new config shared graph d = .ok result) ↔
      (∃ error, checkGraph config.launch config.launch.width d graph = .error error) ∨
        (LaunchLayout.ideal config).IsBackable := by
  have halign := Word.pos_of_isPowerOfTwo (EngineConfig.isPowerOfTwo_of_validate hvalid)
  rw [← LaunchLayout.exists_arena_iff halign config.state.numWorlds]
  unfold Engine.new
  rw [hvalid]
  simp only [hstorage, ne_eq, not_true_eq_false, if_false, LaunchConfig.blockThreads_of_lt hwidth,
    bind, Except.bind]
  cases hgraph : checkGraph config.launch config.launch.width d graph with
  | error error => exact ⟨fun _ => .inl ⟨error, rfl⟩, fun _ => ⟨_, rfl⟩⟩
  | ok =>
      cases hlayout : LaunchLayout.compute config with
      | error fault => simp
      | ok layout =>
          cases harena : RunArena.new layout config.state.numWorlds with
          | error fault => simp [harena]
          | ok arena => simp [harena, pure, Except.pure]

end New

theorem run_of_le {e : Engine η} (h : 2 ^ 32 ≤ e.config.launch.numGroups) :
    e.run.1 = .faulted .mulOverflow := by
  unfold Engine.run
  simp only [note, LaunchConfig.totalGroups_of_le h]

theorem launch?_of_lt {e : Engine η} (h : e.config.launch.numGroups < 2 ^ 32) :
    ∃ s₀, e.launch? = .ok s₀ := by
  unfold launch?
  rw [LaunchConfig.totalGroups_of_lt h]
  exact ⟨_, rfl⟩

/-- For a configuration that passes its checks, and storage that was made for it: an engine
is made, or the graph refused, unless the width of a block overflows, or the graph is
accepted and the host span cannot be backed.  An engine starts its groups unless their
number overflows.  If neither product overflows, then the numbers of blocks, groups and
threads are what they stand for, and all are words. -/
theorem launchable (hvalid : config.validate = .ok ())
    (hstorage : shared.storage.config = config.state) (graph : TaskGraph η) (d : Dispatcher η) :
    let c := config.launch
    ((∃ result, Engine.new config shared graph d = .ok result) ↔
      c.width < 2 ^ 32 ∧ ((∃ error, checkGraph c c.width d graph = .error error) ∨
        (LaunchLayout.ideal config).IsBackable)) ∧
    ((∃ n, c.blockThreads = .ok n) ↔ c.width < 2 ^ 32) ∧
    (∀ e : Engine η, e.config = config →
      (c.numGroups < 2 ^ 32 → ∃ s₀, e.launch? = .ok s₀) ∧
      (2 ^ 32 ≤ c.numGroups → e.run.1 = .faulted .mulOverflow)) ∧
    (c.width < 2 ^ 32 → c.numGroups < 2 ^ 32 →
      ∀ b < c.numBlocks.toNat, ∀ r < c.groupsPerBlock.toNat,
        b * c.groupsPerBlock.toNat + r < 2 ^ 32 ∧
        (c.originOf (c.groupAt b r)).block.toNat = b ∧
        (c.originOf (c.groupAt b r)).group.toNat = b * c.groupsPerBlock.toNat + r ∧
        ∀ lane < c.lanesPerGroup,
          (c.firstThread (c.groupAt b r) + lane).toNat = r * c.lanesPerGroup.toNat + lane.toNat ∧
          r * c.lanesPerGroup.toNat + lane.toNat < c.width) := by
  intro c
  refine ⟨?_, ?_, ?_, fun hwidth hcount b hb r hr => ?_⟩
  · rcases Nat.lt_or_ge c.width (2 ^ 32) with hwidth | hwidth
    · rw [new_of_lt hvalid hstorage hwidth, and_iff_right hwidth]
    · rw [new_of_le hvalid hstorage hwidth]
      exact ⟨fun ⟨_, h⟩ => by contradiction, fun h => absurd h.1 (Nat.not_lt.2 hwidth)⟩
  · rcases Nat.lt_or_ge c.width (2 ^ 32) with hwidth | hwidth
    · exact ⟨fun _ => hwidth, fun _ => ⟨_, LaunchConfig.blockThreads_of_lt hwidth⟩⟩
    · rw [LaunchConfig.blockThreads_of_le hwidth]
      exact ⟨fun ⟨_, h⟩ => by contradiction, fun h => absurd h (Nat.not_lt.2 hwidth)⟩
  · rintro e rfl
    exact ⟨launch?_of_lt, run_of_le⟩
  · have hc : c.Valid := valid_of_issue? (launch_of_validate hvalid) hwidth hcount
    obtain ⟨hblock, hgroup⟩ := LaunchConfig.originOf_groupAt hc hb hr
    exact ⟨(LaunchConfig.groupAt_lt hb hr).trans hcount, hblock, hgroup,
      fun lane hlane => LaunchConfig.thread_toNat hc b hr hlane⟩

end Launching

namespace Sample

/-- The sample configuration with another launch shape and temporary region. -/
def shaped (launch : LaunchConfig) (tmpAllocBytes : UInt64) : EngineConfig :=
  { config with launch, tmpAllocBytes }

def engineOf (c : EngineConfig) (graph : TaskGraph Unit) :
    Except Fault (Except EngineError (Engine Unit)) :=
  Engine.new c shared graph dispatcher

end Sample

theorem launchable_sample :
    (Sample.shaped ⟨3, 5, 7⟩ 1000).validate = .ok () ∧
      Sample.shared.storage.config = (Sample.shaped ⟨3, 5, 7⟩ 1000).state ∧
      (∃ result, Sample.engineOf (Sample.shaped ⟨3, 5, 7⟩ 1000) Sample.graph = .ok result) ∧
      ((⟨3, 5, 7⟩ : LaunchConfig).originOf 14).group.toNat = 14 ∧
      ((⟨3, 5, 7⟩ : LaunchConfig).firstThread 14 + 6).toNat = 34 := by
  have hvalid : (Sample.shaped ⟨3, 5, 7⟩ 1000).validate = .ok () := by decide
  have hstorage : Sample.shared.storage.config = (Sample.shaped ⟨3, 5, 7⟩ 1000).state := rfl
  obtain ⟨hnew, -, -, hids⟩ := launchable hvalid hstorage Sample.graph Sample.dispatcher
  obtain ⟨-, -, hgroup, hthreads⟩ := hids (by decide) (by decide) 2 (by decide) 4 (by decide)
  refine ⟨hvalid, hstorage, hnew.2 ⟨by decide, .inr (.inr (by decide))⟩, hgroup, ?_⟩
  exact (hthreads 6 (by decide)).1

/-- Configurations that pass their checks: the width of a block overflows, the temporary region
is larger than an allocation or a layout can be, and the number of groups overflows when the
engine runs. -/
theorem valid_not_launchable :
    ((Sample.shaped ⟨1, 2147483648, 2⟩ 0).validate = .ok () ∧
      Sample.engineOf (Sample.shaped ⟨1, 2147483648, 2⟩ 0) (.ofSpecs []) =
        .error .mulOverflow) ∧
    ((Sample.shaped ⟨1, 1, 1⟩ 0x8000000000000000).validate = .ok () ∧
      Sample.engineOf (Sample.shaped ⟨1, 1, 1⟩ 0x8000000000000000) (.ofSpecs []) =
        .error .arenaLayout) ∧
    ((Sample.shaped ⟨1, 1, 1⟩ 0xFFFFFFFFFFFFFFFF).validate = .ok () ∧
      Sample.engineOf (Sample.shaped ⟨1, 1, 1⟩ 0xFFFFFFFFFFFFFFFF) (.ofSpecs []) =
        .error .addOverflow) ∧
    (Sample.shaped ⟨65536, 65536, 1⟩ 0).validate = .ok () ∧
      ∃ e, Sample.engineOf (Sample.shaped ⟨65536, 65536, 1⟩ 0) (.ofSpecs []) = .ok (.ok e) ∧
        e.run.1 = .faulted .mulOverflow :=
  ⟨⟨by decide, rfl⟩, ⟨by decide, rfl⟩, ⟨by decide, rfl⟩, by decide, _, rfl, rfl⟩

end Engine
end Lockstep
