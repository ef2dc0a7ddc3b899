import Lockstep.Config.Engine

/-!
# Launch layout

A launch asks for one block of memory.  Its regions are placed one after another,
each at the next multiple of its own alignment.  Offsets and sizes are 64-bit
words: a layout that does not fit them faults.
-/

namespace Lockstep

structure Region where
  offset : Nat
  bytes : Nat
  align : Nat
deriving DecidableEq

namespace Region

def stop (r : Region) : Except Fault Nat := Word.add Word.size64 r.offset r.bytes

def form : Json.RecordForm Region where
  fields := [
    .of "offset" (.natBelow Word.size64) offset fun r n => { r with offset := n },
    .of "bytes" (.natBelow Word.size64) bytes fun r n => { r with bytes := n },
    .of "align" (.natBelow Word.size64) align fun r n => { r with align := n }]
  initial := ⟨0, 0, 0⟩
  complete := true

end Region

structure LaunchLayout where
  scheduler : Region
  storage : Region
  worldData : Region
  worldStride : Nat
  tmpAlloc : Region
  print : Region
  trace : Region
  totalBytes : Nat
  maxAlign : Nat
deriving DecidableEq

namespace LaunchLayout

def schedulerBytes : Nat := 32

def storageBytes : Nat := 320

def wordAlign : Nat := 8

def tmpAlign : Nat := 64

def printSlotBytes : Nat := 256

def traceRecordBytes : Nat := 32

structure Placement where
  cursor : Nat
  maxAlign : Nat

def Placement.place (p : Placement) (bytes align : Nat) : Except Fault (Region × Placement) := do
  let offset ← Word.mul Word.size64 (Word.ceilDiv p.cursor align) align
  let cursor ← Word.add Word.size64 offset bytes
  return (⟨offset, bytes, align⟩, ⟨cursor, max p.maxAlign align⟩)

def compute (c : EngineConfig) : Except Fault LaunchLayout := do
  let (scheduler, p) ← Placement.place ⟨0, 1⟩ schedulerBytes wordAlign
  let (storage, p) ← p.place storageBytes wordAlign
  let worldStride := c.worldDataStride
  let worldBytes ← Word.mul Word.size64 c.state.numWorlds.toNat worldStride
  let (worldData, p) ← p.place worldBytes c.worldDataAlign.toNat
  let (tmpAlloc, p) ← p.place c.tmpAllocBytes.toNat tmpAlign
  let (print, p) ← p.place (c.printCapacity.toNat * printSlotBytes) wordAlign
  let records := if c.trace.enabled then c.trace.capacity.toNat else 0
  let (trace, p) ← p.place (records * traceRecordBytes) wordAlign
  return {
    scheduler, storage, worldData, worldStride, tmpAlloc, print, trace
    totalBytes := p.cursor
    maxAlign := p.maxAlign }

/-- The part that the host backs with memory: replica data and the temporary
region, from an offset that suits both. -/
def hostSpan (l : LaunchLayout) : Except Fault Region := do
  let align := max l.worldData.align l.tmpAlloc.align
  let offset := l.worldData.offset / align * align
  return ⟨offset, (← l.tmpAlloc.stop) - offset, align⟩

/-- The regions in the order of their placement. -/
def regions (l : LaunchLayout) : List Region :=
  [l.scheduler, l.storage, l.worldData, l.tmpAlloc, l.print, l.trace]

def form : Json.RecordForm LaunchLayout where
  fields := [
    .of "scheduler" Region.form.codec scheduler fun l r => { l with scheduler := r },
    .of "storage" Region.form.codec storage fun l r => { l with storage := r },
    .of "world_data" Region.form.codec worldData fun l r => { l with worldData := r },
    .of "world_stride" (.natBelow Word.size64) worldStride fun l n => { l with worldStride := n },
    .of "tmp_alloc" Region.form.codec tmpAlloc fun l r => { l with tmpAlloc := r },
    .of "print" Region.form.codec print fun l r => { l with print := r },
    .of "trace" Region.form.codec trace fun l r => { l with trace := r },
    .of "total_bytes" (.natBelow Word.size64) totalBytes fun l n => { l with totalBytes := n },
    .of "max_align" (.natBelow Word.size64) maxAlign fun l n => { l with maxAlign := n }]
  initial :=
    let none := Region.form.initial
    ⟨none, none, none, 0, none, none, none, 0, 0⟩
  complete := true

end LaunchLayout
end Lockstep
