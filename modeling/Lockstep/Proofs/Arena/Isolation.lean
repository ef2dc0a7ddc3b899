import Lockstep.Arena.History
import Lockstep.Proofs.Arena.Division

/-!
# Isolation of replicas and blocks

Each write goes to the bytes that it names and to no others.  A replica holds the last value
written to each of its bytes, and a temporary block what was last filled into it.
-/

namespace Lockstep

namespace ArenaCall

theorem lastWritten_concat (stride : Nat) (world : WorldId) (i : Nat) (calls : List ArenaCall)
    (call : ArenaCall) :
    lastWritten stride world i (calls ++ [call]) =
      (call.byte? stride world i).getD (lastWritten stride world i calls) := by
  rw [lastWritten, List.filterMap_append, List.filterMap_cons, List.filterMap_nil]
  cases call.byte? stride world i with
  | none =>
      rw [List.append_nil, Option.getD_none]
      rfl
  | some b => rw [List.getLast?_concat, Option.getD_some, Option.getD_some]

theorem byte?_of_writesTo {call : ArenaCall} {world : WorldId} (h : call.writesTo world = false)
    (stride i : Nat) : call.byte? stride world i = none := by
  cases call with
  | write other position bytes =>
      have hne : other ≠ world := by simpa [writesTo] using h
      rw [byte?, if_neg fun hin => hne hin.1]
  | alloc | fill | reset => rfl

end ArenaCall

/-- A write into a replica changes the bytes that the call names and no other byte of any
replica. -/
theorem RunArena.byte_write_replica (a : RunArena) (m : Memory) {world other : WorldId}
    {position i : Nat} {bytes : List UInt8} (hfits : position + bytes.length ≤ a.layout.worldStride)
    (hi : i < a.layout.worldStride) :
    (m.write (a.worldStart world + position) bytes).byte (a.worldStart other + i) =
      ((ArenaCall.write world position bytes).byte? a.layout.worldStride other i).getD
        (m.byte (a.worldStart other + i)) := by
  rw [ArenaCall.byte?, Memory.byte_write]
  by_cases hsame : world = other
  · subst hsame
    by_cases hin : position ≤ i ∧ i < position + bytes.length
    · rw [if_pos (by omega), if_pos ⟨rfl, hfits, hin.1⟩, List.getD_eq_getElem?_getD,
        show a.worldStart world + i - (a.worldStart world + position) = i - position by omega,
        List.getElem?_eq_getElem (by omega), Option.getD_some, Option.getD_some]
    · rw [if_neg (by omega)]
      split
      · rw [List.getElem?_eq_none (by omega), Option.getD_none]
      · rw [Option.getD_none]
  · have hne : world.index ≠ other.index := fun heq =>
      hsame (congrArg WorldId.mk (UInt32.toNat_inj.1 heq))
    have haway : ¬ (a.worldStart world + position ≤ a.worldStart other + i ∧
        a.worldStart other + i < a.worldStart world + position + bytes.length) := by
      rcases Nat.lt_or_gt_of_ne hne with hlt | hlt
      · have hbehind := a.worldStart_add_le hlt
        omega
      · have hbefore := a.worldStart_add_le hlt
        omega
    rw [if_neg haway, if_neg fun hin => hsame hin.1, Option.getD_none]

/-! ## Blocks side by side -/

namespace TmpBlock

variable {blocks : List TmpBlock} {block : TmpBlock} {k position : Nat} {bytes : List UInt8}

/-- Whether blocks lie one behind the other. -/
def Apart (blocks : List TmpBlock) : Prop := blocks.Pairwise fun b b' => b.stop ≤ b'.start

theorem Apart.of_ne (h : Apart blocks) {j : Nat} {other : TmpBlock} (hother : blocks[j]? = some other)
    (hblock : blocks[k]? = some block) (hne : j ≠ k) :
    other.stop ≤ block.start ∨ block.stop ≤ other.start := by
  obtain ⟨hj, rfl⟩ := List.getElem?_eq_some_iff.1 hother
  obtain ⟨hk, rfl⟩ := List.getElem?_eq_some_iff.1 hblock
  rcases Nat.lt_or_gt_of_ne hne with hlt | hlt
  · exact .inl (List.pairwise_iff_getElem.1 h j k hj hk hlt)
  · exact .inr (List.pairwise_iff_getElem.1 h k j hk hj hlt)

theorem stop_fill (h : position + bytes.length ≤ block.contents.length) :
    (block.fill position bytes).stop = block.stop := by
  rw [stop, stop, fill, Bytes.length_overwrite h]

theorem mem_set {other new : TmpBlock} (h : other ∈ blocks.set k new) :
    (∃ j ≠ k, blocks[j]? = some other) ∨ other = new := by
  obtain ⟨j, hj⟩ := List.mem_iff_getElem?.1 h
  by_cases hjk : k = j
  · subst hjk
    rw [List.getElem?_set_self'] at hj
    obtain ⟨_, -, rfl⟩ := Option.map_eq_some_iff.1 hj
    exact .inr rfl
  · rw [List.getElem?_set_ne hjk] at hj
    exact .inl ⟨j, Ne.symm hjk, hj⟩

theorem Apart.fill (h : Apart blocks) (hblock : blocks[k]? = some block)
    (hfits : position + bytes.length ≤ block.contents.length) :
    Apart (blocks.set k (block.fill position bytes)) := by
  obtain ⟨hk, rfl⟩ := List.getElem?_eq_some_iff.1 hblock
  -- A fill moves neither end of its block.
  have hends : (blocks.set k (blocks[k].fill position bytes)).map (fun b => (b.start, b.stop)) =
      blocks.map fun b => (b.start, b.stop) := by
    rw [List.map_set, stop_fill hfits]
    have hlength : k < (blocks.map fun b => (b.start, b.stop)).length := by simpa using hk
    refine Eq.trans ?_ (List.set_getElem_self hlength)
    rw [List.getElem_map]
    rfl
  have hpairwise : ∀ l : List TmpBlock, Apart l ↔
      (l.map fun b => (b.start, b.stop)).Pairwise fun e e' => e.2 ≤ e'.1 := by
    intro l
    rw [List.pairwise_map, Apart]
  rwa [hpairwise, hends, ← hpairwise]

end TmpBlock

/-! ## Sessions -/

namespace ArenaSession

open ArenaCall

variable {s : ArenaSession} {a : RunArena} {align : Nat} {calls : List ArenaCall}

/-- A session after bytes have been written to its memory. -/
def wrote (s : ArenaSession) (addr : Nat) (bytes : List UInt8) (blocks : List TmpBlock) :
    ArenaSession :=
  ⟨{ s.arena with memory := s.arena.memory.write addr bytes }, blocks⟩

theorem next_write {world : WorldId} (h : world.raw < s.arena.numWorlds) (position : Nat)
    (bytes : List UInt8) :
    s.next (.write world position bytes) =
      if position + bytes.length ≤ s.arena.layout.worldStride then
        s.wrote (s.arena.worldStart world + position) bytes s.blocks
      else s := by
  rw [next, RunArena.writeWorld?_eq h]
  by_cases hfits : position + bytes.length ≤ s.arena.layout.worldStride
  · rw [if_pos hfits, if_pos hfits]
    rfl
  · rw [if_neg hfits, if_neg hfits]

theorem next_fill {k : Nat} {block : TmpBlock} (h : s.blocks[k]? = some block) (position : Nat)
    (bytes : List UInt8) :
    s.next (.fill k position bytes) =
      if position + bytes.length ≤ block.contents.length then
        s.wrote (s.arena.tmpOffset + (block.start + position)) bytes
          (s.blocks.set k (block.fill position bytes))
      else s := by
  simp only [next, h]
  rfl

/-- What holds of a session after some calls: each replica and each block holds what belongs
in it, and the blocks lie one behind the other in the part of the region that is used. -/
structure Isolated (a : RunArena) (calls : List ArenaCall) (s : ArenaSession) : Prop where
  plan : a.SamePlan s.arena
  replicas : ∀ world, world.raw < a.numWorlds → ∀ i < a.layout.worldStride,
    s.arena.memory.byte (a.worldStart world + i) = lastWritten a.layout.worldStride world i calls
  blocks : ∀ block ∈ s.blocks,
    s.arena.memory.read (a.tmpOffset + block.start) block.contents.length = block.contents
  within : ∀ block ∈ s.blocks, block.stop ≤ s.arena.tmp.used
  apart : TmpBlock.Apart s.blocks
  used_le : s.arena.tmp.used ≤ a.tmp.capacity

namespace Isolated

theorem start (hmemory : a.memory = .zeroed) (hused : a.tmp.used = 0) :
    Isolated a [] (start a) where
  plan := ⟨rfl, rfl, rfl, rfl⟩
  replicas world _ i _ := by
    rw [ArenaSession.start, hmemory, Memory.byte_zeroed]
    rfl
  blocks _ hblock := absurd hblock (List.not_mem_nil)
  within _ hblock := absurd hblock (List.not_mem_nil)
  apart := .nil
  used_le := by
    rw [ArenaSession.start, hused]
    exact Nat.zero_le _

variable (h : Isolated a calls s)
include h

theorem worldData? {world : WorldId} (hworld : world.raw < a.numWorlds) :
    s.arena.worldData? world = some (replica a.layout.worldStride world calls) := by
  rw [RunArena.worldData?, RunArena.worldOffset?_of_lt (h.plan.numWorlds ▸ hworld),
    h.plan.worldStart, h.plan.layout]
  refine congrArg some (List.map_congr_left fun i hi => ?_)
  exact h.replicas world hworld i (List.mem_range.1 hi)

theorem tmpRead {block : TmpBlock} (hblock : block ∈ s.blocks) :
    s.arena.tmpRead block.start block.contents.length = block.contents := by
  rw [RunArena.tmpRead, h.plan.tmpOffset]
  exact h.blocks block hblock

/-- A call that writes into no replica counts for nothing there. -/
theorem replicas_concat {call : ArenaCall} (hcall : ∀ world, world.raw < a.numWorlds → ∀ i,
    call.byte? a.layout.worldStride world i = none) :
    ∀ world, world.raw < a.numWorlds → ∀ i < a.layout.worldStride,
      s.arena.memory.byte (a.worldStart world + i) =
        lastWritten a.layout.worldStride world i (calls ++ [call]) := by
  intro world hworld i hi
  rw [lastWritten_concat, hcall world hworld, Option.getD_none]
  exact h.replicas world hworld i hi

theorem refuse {call : ArenaCall} (hcall : ∀ world, world.raw < a.numWorlds → ∀ i,
    call.byte? a.layout.worldStride world i = none) : Isolated a (calls ++ [call]) s where
  __ := h
  replicas := h.replicas_concat hcall

theorem reset : Isolated a (calls ++ [.reset]) (s.next .reset) where
  plan := ⟨h.plan.layout, h.plan.span, h.plan.numWorlds, h.plan.capacity⟩
  replicas := h.replicas_concat fun _ _ _ => rfl
  blocks _ hblock := absurd hblock (List.not_mem_nil)
  within _ hblock := absurd hblock (List.not_mem_nil)
  apart := .nil
  used_le := Nat.zero_le _

theorem alloc (bytes align : Nat) :
    Isolated a (calls ++ [.alloc bytes align]) (s.next (.alloc bytes align)) := by
  cases halloc : s.arena.alloc bytes align with
  | none =>
      rw [next, halloc]
      exact h.refuse fun _ _ _ => rfl
  | some result =>
      obtain ⟨start, arena⟩ := result
      obtain ⟨hused, hfits, rfl⟩ := RunArena.alloc_eq_some halloc
      simp only [next, halloc]
      refine ⟨⟨h.plan.layout, h.plan.span, h.plan.numWorlds, h.plan.capacity⟩,
        h.replicas_concat fun _ _ _ => rfl, fun block hblock => ?_, fun block hblock => ?_, ?_,
        h.plan.capacity ▸ hfits⟩
      · rcases List.mem_append.1 hblock with hold | hnew
        · exact h.blocks block hold
        · obtain rfl := List.mem_singleton.1 hnew
          simp only [RunArena.tmpRead, Memory.length_read, RunArena.tmpOffset, h.plan.layout,
            h.plan.span]
      · rcases List.mem_append.1 hblock with hold | hnew
        · have hstop := h.within block hold
          change _ ≤ start + bytes
          omega
        · obtain rfl := List.mem_singleton.1 hnew
          simp [TmpBlock.stop, RunArena.tmpRead]
      · refine List.pairwise_append.2 ⟨h.apart, List.pairwise_singleton .., ?_⟩
        intro block hold new hnew
        obtain rfl := List.mem_singleton.1 hnew
        exact (h.within block hold).trans hused

variable (hdivided : a.Divided align)
include hdivided

theorem write (world : WorldId) (position : Nat) (bytes : List UInt8) :
    Isolated a (calls ++ [.write world position bytes])
      (s.next (.write world position bytes)) := by
  rcases UInt32.lt_or_le world.raw a.numWorlds with hworld | hworld
  swap
  · rw [next, RunArena.writeWorld?_of_le (h.plan.numWorlds ▸ hworld)]
    apply h.refuse
    rintro other hother i
    refine byte?_of_writesTo (beq_false_of_ne ?_) _ i
    rintro rfl
    exact UInt32.not_le.2 hother hworld
  rw [next_write (h.plan.numWorlds ▸ hworld), h.plan.layout, h.plan.worldStart]
  by_cases hfits : position + bytes.length ≤ a.layout.worldStride
  swap
  · rw [if_neg hfits]
    exact h.refuse fun other _ i => if_neg fun hin => hfits hin.2.1
  rw [if_pos hfits]
  have hroom := hdivided.worldStart_le world hworld
  refine ⟨⟨h.plan.layout, h.plan.span, h.plan.numWorlds, h.plan.capacity⟩,
    fun other hother i hi => ?_, fun block hblock => ?_, h.within, h.apart, h.used_le⟩
  · rw [lastWritten_concat, ← h.replicas other hother i hi]
    exact a.byte_write_replica s.arena.memory hfits hi
  · refine (Memory.read_write_apart _ (.inl ?_)).trans (h.blocks block hblock)
    omega

/-- A fill stays within its block, and so away from all replicas and all other blocks. -/
theorem fill (k position : Nat) (bytes : List UInt8) :
    Isolated a (calls ++ [.fill k position bytes]) (s.next (.fill k position bytes)) := by
  cases hblock : s.blocks[k]? with
  | none =>
      simp only [next, hblock]
      exact h.refuse fun _ _ _ => rfl
  | some block =>
      rw [next_fill hblock, h.plan.tmpOffset]
      by_cases hfits : position + bytes.length ≤ block.contents.length
      swap
      · rw [if_neg hfits]
        exact h.refuse fun _ _ _ => rfl
      rw [if_pos hfits]
      have hmem : block ∈ s.blocks := List.mem_of_getElem? hblock
      refine ⟨⟨h.plan.layout, h.plan.span, h.plan.numWorlds, h.plan.capacity⟩,
        fun world hworld i hi => ?_, fun other hother => ?_, fun other hother => ?_, ?_, h.used_le⟩
      · have hroom := hdivided.worldStart_le world hworld
        have haway : ¬ (a.tmpOffset + (block.start + position) ≤ a.worldStart world + i ∧
            a.worldStart world + i < a.tmpOffset + (block.start + position) + bytes.length) := by
          omega
        refine (Memory.byte_write ..).trans ((if_neg haway).trans ?_)
        exact h.replicas_concat (fun _ _ _ => rfl) world hworld i hi
      · rcases TmpBlock.mem_set hother with ⟨j, hj, hget⟩ | rfl
        · refine (Memory.read_write_apart _ ?_).trans (h.blocks other (List.mem_of_getElem? hget))
          have hapart := h.apart.of_ne hget hblock hj
          rw [TmpBlock.stop, TmpBlock.stop] at hapart
          omega
        · rw [TmpBlock.fill, Bytes.length_overwrite hfits, ← Nat.add_assoc]
          refine (Memory.read_write_within _ _ hfits).trans ?_
          rw [h.blocks block hmem]
      · rcases TmpBlock.mem_set hother with ⟨j, -, hget⟩ | rfl
        · exact h.within other (List.mem_of_getElem? hget)
        · rw [TmpBlock.stop_fill hfits]
          exact h.within block hmem
      · exact h.apart.fill hblock hfits

theorem step (call : ArenaCall) : Isolated a (calls ++ [call]) (s.next call) := by
  cases call with
  | write world position bytes => exact h.write hdivided world position bytes
  | alloc bytes align => exact h.alloc bytes align
  | fill k position bytes => exact h.fill hdivided k position bytes
  | reset => exact h.reset

theorem after (later : List ArenaCall) : Isolated a (calls ++ later) (s.after later) := by
  induction later generalizing calls s with
  | nil => rwa [List.append_nil]
  | cons call later ih =>
      have hstep := ih (h.step hdivided call)
      rwa [List.append_assoc] at hstep

/-- A call leaves the replicas alone that it does not write to. -/
theorem worldData?_next {call : ArenaCall} {world : WorldId} (hworld : world.raw < a.numWorlds)
    (hcall : call.writesTo world = false) :
    (s.next call).arena.worldData? world = s.arena.worldData? world := by
  rw [(h.step hdivided call).worldData? hworld, h.worldData? hworld]
  refine congrArg some (List.map_congr_left fun i _ => ?_)
  rw [lastWritten_concat, byte?_of_writesTo hcall, Option.getD_none]

/-- A call leaves the blocks alone that it does not fill. -/
theorem tmpRead_next {call : ArenaCall} {k : Nat} {block : TmpBlock}
    (hblock : s.blocks[k]? = some block) (hcall : call.fills k = false) :
    (s.next call).arena.tmpRead block.start block.contents.length = block.contents := by
  have hstep := h.step hdivided call
  have hmem : block ∈ s.blocks := List.mem_of_getElem? hblock
  cases call with
  | write world position bytes =>
      apply hstep.tmpRead
      rcases UInt32.lt_or_le world.raw s.arena.numWorlds with hworld | hworld
      · rw [next_write hworld]
        split
        · exact hmem
        · exact hmem
      · rwa [next, RunArena.writeWorld?_of_le hworld]
  | alloc bytes align =>
      apply hstep.tmpRead
      rw [next]
      split
      · exact List.mem_append_left _ hmem
      · exact hmem
  | fill j position bytes =>
      have hne : j ≠ k := by simpa [ArenaCall.fills] using hcall
      apply hstep.tmpRead
      rw [next]
      split
      · split
        · exact List.mem_of_getElem? ((List.getElem?_set_ne hne).trans hblock)
        · exact hmem
      · exact hmem
  | reset => exact h.tmpRead hmem

end Isolated
end ArenaSession

/-- An arena that was made for a valid configuration keeps its replicas and its temporary
blocks apart, whatever is written, handed out, filled and taken back.  All of them lie
inside the allocation, each replica at a multiple of its alignment.  A replica reads as it
was last written, byte for byte, and a block as it was last filled; replicas that do not
exist answer nothing. -/
theorem RunArena.keeps_apart {c : EngineConfig} {layout : LaunchLayout} {a : RunArena}
    (hvalid : c.validate = .ok ()) (hlayout : LaunchLayout.compute c = .ok layout)
    (hnew : RunArena.new layout c.state.numWorlds = .ok a) (calls : List ArenaCall) :
    let s := (ArenaSession.start a).after calls
    (∀ world, world.raw < c.state.numWorlds →
      ∃ start, s.arena.worldOffset? world = some start ∧ c.worldDataAlign.toNat ∣ start ∧
        start + layout.worldStride ≤ s.arena.len ∧
        s.arena.worldData? world = some (ArenaCall.replica layout.worldStride world calls)) ∧
    (∀ world, c.state.numWorlds ≤ world.raw → s.arena.worldData? world = none ∧
      ∀ position bytes, s.arena.writeWorld? world position bytes = none) ∧
    (∀ block ∈ s.blocks, s.arena.tmpOffset + block.stop ≤ s.arena.len ∧
      s.arena.tmpRead block.start block.contents.length = block.contents) ∧
    TmpBlock.Apart s.blocks ∧
    ∀ call,
      (∀ world, world.raw < c.state.numWorlds → call.writesTo world = false →
        (s.next call).arena.worldData? world = s.arena.worldData? world) ∧
      ∀ k block, s.blocks[k]? = some block → call.fills k = false →
        (s.next call).arena.tmpRead block.start block.contents.length = block.contents := by
  have hdivided := RunArena.divided_of_new hvalid hlayout hnew
  obtain ⟨span, -, ha⟩ := RunArena.new_ok hnew
  intro s
  have h : s.Isolated a calls :=
    (ArenaSession.Isolated.start (by rw [ha]) (by rw [ha])).after hdivided calls
  subst ha
  have hplan := hdivided.congr h.plan
  refine ⟨fun world hworld => ?_, fun world hworld => ⟨?_, ?_⟩, fun block hblock => ⟨?_, ?_⟩,
    h.apart, fun call => ⟨fun world hworld => ?_, fun k block hblock => ?_⟩⟩
  · have hexists : world.raw < s.arena.numWorlds := h.plan.numWorlds ▸ hworld
    refine ⟨_, RunArena.worldOffset?_of_lt hexists, hplan.dvd_worldStart world, ?_, ?_⟩
    · have hroom := hplan.worldStart_le world hexists
      have hlen := hplan.len_eq
      rw [h.plan.layout] at hroom
      change s.arena.worldStart world + layout.worldStride ≤ _ at hroom
      omega
    · exact h.worldData? hworld
  · rw [RunArena.worldData?, RunArena.worldOffset?_of_le (h.plan.numWorlds ▸ hworld),
      Option.map_none]
  · exact RunArena.writeWorld?_of_le (h.plan.numWorlds ▸ hworld)
  · have hstop := h.within block hblock
    have hused := h.used_le
    have hlen := hplan.len_eq
    have hcapacity := h.plan.capacity
    omega
  · exact h.tmpRead hblock
  · exact h.worldData?_next hdivided hworld
  · exact h.tmpRead_next hdivided hblock

namespace RunArena.Sample

def config : EngineConfig where
  state := { StateConfig.default with numWorlds := 3 }
  launch := .default
  worldDataBytes := 5
  worldDataAlign := 4
  tmpAllocBytes := 40
  printCapacity := 0
  trace := ⟨false, 0⟩

def placed : LaunchLayout where
  scheduler := ⟨0, 32, 8⟩
  storage := ⟨32, 320, 8⟩
  worldData := ⟨352, 24, 4⟩
  worldStride := 8
  tmpAlloc := ⟨384, 40, 64⟩
  print := ⟨424, 0, 8⟩
  trace := ⟨424, 0, 8⟩
  totalBytes := 424
  maxAlign := 64

def arena : RunArena := ⟨placed, ⟨320, 104, 64⟩, 3, .zeroed, ⟨40, 0⟩⟩

def calls : List ArenaCall :=
  [.alloc 24 1, .fill 0 16 [6, 6, 6, 6], .reset, .write ⟨1⟩ 2 [7, 8], .alloc 3 1, .alloc 4 16,
    .fill 0 0 [1, 2, 3], .fill 1 1 [9], .write ⟨1⟩ 3 [5], .write ⟨2⟩ 6 [1, 2, 3]]

def session : ArenaSession := (ArenaSession.start arena).after calls

end RunArena.Sample

open RunArena.Sample in
theorem RunArena.keeps_apart_sample :
    config.validate = .ok () ∧ LaunchLayout.compute config = .ok placed ∧
      RunArena.new placed config.state.numWorlds = .ok arena ∧
      session.arena.worldData? ⟨1⟩ = some [0, 0, 7, 5, 0, 0, 0, 0] ∧
      session.arena.worldData? ⟨2⟩ = some [0, 0, 0, 0, 0, 0, 0, 0] ∧
      session.arena.worldData? ⟨3⟩ = none ∧
      session.blocks.map TmpBlock.start = [0, 16] ∧ TmpBlock.Apart session.blocks ∧
      session.arena.tmpRead 0 3 = [1, 2, 3] := by
  have hvalid : config.validate = .ok () := by decide
  have hlayout : LaunchLayout.compute config = .ok placed := by decide
  have hnew : RunArena.new placed config.state.numWorlds = .ok arena := rfl
  obtain ⟨hreplicas, hnone, hblocks, hapart, -⟩ := RunArena.keeps_apart hvalid hlayout hnew calls
  have hfirst : session.blocks[0]? = some ⟨0, [1, 2, 3]⟩ := by decide +kernel
  refine ⟨hvalid, hlayout, hnew, ?_, ?_, (hnone ⟨3⟩ (by decide)).1, by decide +kernel, hapart,
    (hblocks _ (List.mem_of_getElem? hfirst)).2⟩
  · obtain ⟨-, -, -, -, hdata⟩ := hreplicas ⟨1⟩ (by decide)
    exact hdata.trans (by decide)
  · obtain ⟨-, -, -, -, hdata⟩ := hreplicas ⟨2⟩ (by decide)
    exact hdata.trans (by decide)

end Lockstep
