import Lockstep.Proofs.Bytes
import Lockstep.Proofs.Trace.Laps
import Lockstep.Trace.File

/-!
# Reading traces back

As long as the buffer has room for them, the records of a device trace are read from the words
of the buffer and from the bytes of the file as they were asked for.  A host trace is read from
its file by cutting it in the middle: the events are in one half, and their times in the other.
-/

namespace Lockstep

namespace PackedRecord

theorem toNat_eq_halves (w : UInt64) : w.toNat = (low w).toNat + (high w).toNat * 2 ^ 32 := by
  have hw : w.toNat < 2 ^ 64 := w.toNat_lt
  have hlow : (low w).toNat = w.toNat % 2 ^ 32 := UInt64.toNat_toUInt32 w
  have hhigh : (high w).toNat = w.toNat / 2 ^ 32 := by
    rw [high, UInt64.toNat_toUInt32, UInt64.toNat_shiftRight]
    simp only [UInt64.reduceToNat, Nat.reduceMod, Nat.shiftRight_eq_div_pow]
    omega
  rw [hlow, hhigh]
  omega

theorem words_unpack (p : PackedRecord) : p.unpack.words = p.words := by
  simp only [DeviceRecord.words, words, toNat_eq_halves p.eventFunc, toNat_eq_halves p.countNode,
    toNat_eq_halves p.origin, unpack]

end PackedRecord

namespace FileField

/-- Fields that fill the bytes from a place on, without gaps. -/
def Consecutive : (start : Nat) → List FileField → Prop
  | _, [] => True
  | start, field :: fields => field.offset = start ∧ Consecutive (start + field.width) fields

def bytes (field : FileField) : List UInt8 := Bytes.ofNat field.width field.value

theorem length_bytes (field : FileField) : field.bytes.length = field.width :=
  Bytes.length_ofNat ..

theorem Consecutive.le_offset {start : Nat} {fields : List FileField}
    (h : Consecutive start fields) {field : FileField} (hmem : field ∈ fields) :
    start ≤ field.offset := by
  induction fields generalizing start with
  | nil => exact absurd hmem List.not_mem_nil
  | cons head fields ih =>
      rcases List.mem_cons.1 hmem with rfl | hmem
      · exact h.1.ge
      · exact (Nat.le_add_right ..).trans (ih h.2 hmem)

/-- A field is found at its place. -/
theorem Consecutive.take_drop {start : Nat} {fields : List FileField}
    (h : Consecutive start fields) {field : FileField} (hmem : field ∈ fields) :
    ((fields.flatMap bytes).drop (field.offset - start)).take field.width = field.bytes := by
  induction fields generalizing start with
  | nil => exact absurd hmem List.not_mem_nil
  | cons head fields ih =>
      obtain ⟨rfl, hrest⟩ := h
      rw [List.flatMap_cons]
      rcases List.mem_cons.1 hmem with rfl | hmem
      · rw [Nat.sub_self, List.drop_zero, List.take_left' field.length_bytes]
      · have hbehind := hrest.le_offset hmem
        have hskip : field.offset - head.offset =
            head.bytes.length + (field.offset - (head.offset + head.width)) := by
          rw [length_bytes]
          omega
        rw [hskip, List.drop_length_add_append, ih hrest hmem]

theorem Consecutive.stop_le {start : Nat} {fields : List FileField}
    (h : Consecutive start fields) {field : FileField} (hmem : field ∈ fields) :
    field.offset + field.width ≤ start + (fields.flatMap bytes).length := by
  induction fields generalizing start with
  | nil => exact absurd hmem List.not_mem_nil
  | cons head fields ih =>
      obtain ⟨rfl, hrest⟩ := h
      rw [List.flatMap_cons, List.length_append, length_bytes, ← Nat.add_assoc]
      rcases List.mem_cons.1 hmem with rfl | hmem
      · exact Nat.le_add_right ..
      · exact ih hrest hmem

end FileField

namespace DeviceRecord

theorem bytes_eq_fields (r : DeviceRecord) : r.bytes = r.fields.flatMap FileField.bytes := by
  simp only [bytes, fields, List.flatMap_cons, List.flatMap_nil, List.append_assoc,
    List.append_nil]
  rfl

theorem consecutive_fields (r : DeviceRecord) : FileField.Consecutive 0 r.fields :=
  ⟨rfl, rfl, rfl, rfl, rfl, rfl, rfl, trivial⟩

theorem take_drop_bytes (r : DeviceRecord) {field : FileField} (h : field ∈ r.fields) :
    (r.bytes.drop field.offset).take field.width = Bytes.ofNat field.width field.value := by
  rw [bytes_eq_fields]
  exact r.consecutive_fields.take_drop h

theorem length_bytes (r : DeviceRecord) : r.bytes.length = LaunchLayout.traceRecordBytes := by
  simp [bytes, LaunchLayout.traceRecordBytes]

theorem ofBytes_bytes (r : DeviceRecord) : ofBytes r.bytes = r := by
  have hword : ∀ (offset : Nat) (w : UInt32), ⟨offset, 4, w.toNat⟩ ∈ r.fields →
      Bytes.toUInt32 (r.bytes.drop offset) = w := by
    intro offset w hmem
    rw [Bytes.toUInt32, r.take_drop_bytes hmem]
    exact Bytes.ofNat_toNat_ofNat32 w
  have htime : Bytes.toUInt64 (r.bytes.drop 24) = r.timestamp := by
    have hmem : (⟨24, 8, r.timestamp.toNat⟩ : FileField) ∈ r.fields := by simp [fields]
    rw [Bytes.toUInt64, r.take_drop_bytes hmem]
    exact Bytes.ofNat_toNat_ofNat64 r.timestamp
  have hfirst := hword 0 r.event (by simp [fields])
  rw [List.drop_zero] at hfirst
  rw [ofBytes, hfirst, hword 4 r.func (by simp [fields]),
    hword 8 r.numInvocations (by simp [fields]), hword 12 r.node (by simp [fields]),
    hword 16 r.block (by simp [fields]), hword 20 r.group (by simp [fields]), htime]

theorem fits_of_mem {r : DeviceRecord} {field : FileField} (h : field ∈ r.fields) :
    field.offset + field.width ≤ LaunchLayout.traceRecordBytes := by
  have hstop := r.consecutive_fields.stop_le h
  rwa [← bytes_eq_fields, length_bytes, Nat.zero_add] at hstop

/-- Each byte of a number stands in the record, the least significant one first. -/
theorem getElem?_bytes (r : DeviceRecord) {field : FileField} (h : field ∈ r.fields) {k : Nat}
    (hk : k < field.width) :
    r.bytes[field.offset + k]? = some (field.value / 256 ^ k).toUInt8 := by
  have hbytes := congrArg (·[k]?) (r.take_drop_bytes h)
  simp only [List.getElem?_take_of_lt hk, List.getElem?_drop] at hbytes
  rw [hbytes, Bytes.getElem?_ofNat hk]

end DeviceRecord

namespace TimedNote

theorem ofRecord?_record (n : TimedNote) : ofRecord? n.record = some n := by
  simp only [ofRecord?, record, TraceNote.recordAt, DeviceRecord.note?, DeviceRecord.kind?,
    DeviceEvent.ofRaw?_raw, Option.map_some]

end TimedNote

namespace TraceCall

theorem foldl_ask (calls : List TraceCall) (noted : List TimedNote) :
    calls.foldl ask (noted.map TimedNote.record) =
      (calls.foldl noteTimed noted).map TimedNote.record := by
  induction calls generalizing noted with
  | nil => rfl
  | cons call calls ih =>
      have hstep : ask (noted.map TimedNote.record) call =
          (noteTimed noted call).map TimedNote.record := by
        cases call with
        | reset now => rfl
        | record note now => simp [ask, noteTimed, TimedNote.record]
      rw [List.foldl_cons, List.foldl_cons, hstep, ih]

theorem asked_eq (calls : List TraceCall) : asked calls = (noted calls).map TimedNote.record :=
  foldl_ask calls []

end TraceCall

namespace DeviceTrace

variable {t : DeviceTrace} {capacity : UInt32} {calls : List TraceCall}

theorem records_of_fits (h : (TraceCall.noted calls).length ≤ capacity.toNat) :
    ((new capacity).performAll calls).records = (TraceCall.noted calls).map TimedNote.record ∧
      ((new capacity).performAll calls).len.toNat = (TraceCall.noted calls).length := by
  have hlaps := laps_new capacity calls
  have hlength : (TraceCall.asked calls).length = (TraceCall.noted calls).length := by
    rw [TraceCall.asked_eq, List.length_map]
  have hlap : (TraceCall.asked calls).length < Word.size32 :=
    hlength ▸ h.trans_lt capacity.toNat_lt
  constructor
  · rw [hlaps.records, TraceCall.lap_of_lt hlap, ← TraceCall.asked_eq,
      List.take_of_length_le (hlength ▸ h)]
  · rw [hlaps.len, Nat.mod_eq_of_lt hlap, hlength]

theorem length_fileBytes (t : DeviceTrace) : t.fileBytes.length = 32 * t.records.length :=
  Bytes.length_flatMap DeviceRecord.length_bytes t.records

theorem filePieces_fileBytes (t : DeviceTrace) :
    filePieces t.fileBytes = t.records.map DeviceRecord.bytes := by
  have hcount : t.fileBytes.length / LaunchLayout.traceRecordBytes = t.records.length := by
    rw [length_fileBytes]
    exact Nat.mul_div_cancel_left _ (by decide)
  rw [filePieces, hcount]
  exact Bytes.pieces_flatMap DeviceRecord.length_bytes (by decide) t.records

theorem map_ofBytes_filePieces (t : DeviceTrace) :
    (filePieces t.fileBytes).map DeviceRecord.ofBytes = t.records := by
  rw [filePieces_fileBytes, List.map_map]
  exact (List.map_congr_left fun r _ => r.ofBytes_bytes).trans (List.map_id _)

/-- The file of a trace tells its records. -/
theorem records_eq_of_fileBytes {t' : DeviceTrace} (h : t.fileBytes = t'.fileBytes) :
    t.records = t'.records := by
  rw [← t.map_ofBytes_filePieces, h, t'.map_ofBytes_filePieces]

theorem getElem?_fileBytes {i k : Nat} {r : DeviceRecord} (hr : t.records[i]? = some r)
    {field : FileField} (hfield : field ∈ r.fields) (hk : k < field.width) :
    t.fileBytes[32 * i + (field.offset + k)]? = some (field.value / 256 ^ k).toUInt8 := by
  have hfits := DeviceRecord.fits_of_mem hfield
  have hbyte := Bytes.getElem?_flatMap DeviceRecord.length_bytes hr
    (show field.offset + k < LaunchLayout.traceRecordBytes by omega)
  rw [r.getElem?_bytes hfield hk] at hbyte
  exact hbyte

theorem map_ofRecord? (noted : List TimedNote) :
    (noted.map TimedNote.record).map TimedNote.ofRecord? = noted.map some := by
  rw [List.map_map]
  exact List.map_congr_left fun n _ => n.ofRecord?_record

/-- For every buffer and every sequence of resets and records with arbitrary words, as long as the
buffer has room for the notes since the last reset: each of them is kept in four words and read
back with its kind, all its numbers and its time, and the trace file has 32 bytes for each, with
every number at its place, least significant byte first.  Cut into pieces of 32 bytes it reads
back as the records, so that no other notes have the same file. -/
theorem file_reads_back (capacity : UInt32) (calls : List TraceCall)
    (hfits : (TraceCall.noted calls).length ≤ capacity.toNat) :
    let t := (new capacity).performAll calls
    let noted := TraceCall.noted calls
    let file := t.fileBytes
    (t.slots.toList.take noted.length).map PackedRecord.words =
      noted.map (·.record.words) ∧
    t.records = noted.map TimedNote.record ∧
    t.records.map TimedNote.ofRecord? = noted.map some ∧
    t.writeTo true = .ok ⟨fileSuffix, file⟩ ∧
    file.length = 32 * noted.length ∧
    (∀ i n, noted[i]? = some n → ∀ field ∈ n.record.fields, ∀ k < field.width,
      file[32 * i + (field.offset + k)]? = some (field.value / 256 ^ k).toUInt8) ∧
    (∀ piece ∈ filePieces file, piece.length = 32) ∧
    (filePieces file).map DeviceRecord.ofBytes = t.records ∧
    ∀ (capacity' : UInt32) (calls' : List TraceCall),
      (TraceCall.noted calls').length ≤ capacity'.toNat → TraceCall.noted calls' ≠ noted →
      ((new capacity').performAll calls').fileBytes ≠ file := by
  intro t noted file
  obtain ⟨hrecords, hlen⟩ := records_of_fits hfits
  have hread : t.records.map TimedNote.ofRecord? = noted.map some := by
    rw [hrecords]
    exact map_ofRecord? noted
  refine ⟨?_, hrecords, hread, rfl, ?_, ?_, ?_, t.map_ofBytes_filePieces, ?_⟩
  · have hwords := congrArg (List.map DeviceRecord.words) hrecords
    rw [records, hlen, List.map_map, List.map_map] at hwords
    rw [← List.map_congr_left fun p _ => p.words_unpack]
    exact hwords
  · rw [t.length_fileBytes, hrecords, List.length_map]
  · intro i n hn field hfield k hk
    apply getElem?_fileBytes _ hfield hk
    rw [hrecords, List.getElem?_map, hn, Option.map_some]
  · intro piece hpiece
    rw [filePieces_fileBytes] at hpiece
    obtain ⟨r, -, rfl⟩ := List.mem_map.1 hpiece
    exact r.length_bytes
  · intro capacity' calls' hfits' hne hfile
    obtain ⟨hrecords', -⟩ := records_of_fits hfits'
    have hsame := congrArg (List.map TimedNote.ofRecord?) (records_eq_of_fileBytes hfile)
    rw [hread, hrecords', map_ofRecord?] at hsame
    exact hne (List.map_injective_iff.2 (Option.some_injective _) hsame)

namespace Sample

/-- A note with large numbers, all of them different. -/
def wide : TraceNote :=
  ⟨⟨.blockExit, ⟨0x80000001⟩, ⟨0xFFFFFFFE⟩, 0xC0000003⟩, ⟨0xFFFFFFFF, 0x90000005⟩⟩

/-- The same note with count and node the other way round. -/
def crossed : TraceNote :=
  ⟨⟨.blockExit, ⟨0xC0000003⟩, ⟨0xFFFFFFFE⟩, 0x80000001⟩, ⟨0xFFFFFFFF, 0x90000005⟩⟩

/-- More records than a buffer of two takes, and then only one after a reset. -/
def lateNote (note : TraceNote) : List TraceCall :=
  [.record started 1, .record started 2, .record started 3, .reset 0xFFFFFFFF00000001,
    .record note 0x8000000000000000]

end Sample

open Sample in
theorem file_reads_back_sample :
    (TraceCall.noted (lateNote wide)).length ≤ (2 : UInt32).toNat ∧
      (TraceCall.noted (lateNote crossed)).length ≤ (3 : UInt32).toNat ∧
      (filePieces ((new 2).performAll (lateNote wide)).fileBytes).map DeviceRecord.ofBytes =
        [TraceNote.calibration.recordAt 0xFFFFFFFF00000001, wide.recordAt 0x8000000000000000] ∧
      ((new 2).performAll (lateNote wide)).fileBytes[32 * 1 + (12 + 3)]? = some 0x80 ∧
      ((new 3).performAll (lateNote crossed)).fileBytes ≠
        ((new 2).performAll (lateNote wide)).fileBytes := by
  have hfits : (TraceCall.noted (lateNote wide)).length ≤ (2 : UInt32).toNat := by decide
  have hfits' : (TraceCall.noted (lateNote crossed)).length ≤ (3 : UInt32).toNat := by decide
  obtain ⟨-, hrecords, -, -, -, hbyte, -, hread, hother⟩ := file_reads_back 2 (lateNote wide) hfits
  have hnode : (⟨12, 4, 0x80000001⟩ : FileField) ∈
      (TimedNote.mk wide 0x8000000000000000).record.fields := List.mem_of_getElem? (i := 3) rfl
  exact ⟨hfits, hfits', hread.trans hrecords, hbyte 1 _ rfl _ hnode 3 (by decide),
    hother 3 (lateNote crossed) hfits' (by decide)⟩

end DeviceTrace

/-! ## Host trace files -/

theorem HostEvent.ofRaw?_raw (event : HostEvent) : ofRaw? event.raw = some event := by
  cases event <;> rfl

namespace HostTrace

def wordBytes (w : Int64) : List UInt8 := Bytes.ofUInt64 w.toUInt64

theorem length_wordBytes (w : Int64) : (wordBytes w).length = 8 := Bytes.length_ofUInt64 _

theorem words_append (ws : List Int64) (bs : List UInt8) :
    words ws.length (ws.flatMap wordBytes ++ bs) = ws := by
  induction ws with
  | nil => rfl
  | cons w ws ih =>
      rw [List.flatMap_cons, List.append_assoc, List.length_cons, words,
        List.drop_left' (length_wordBytes w), ih, wordBytes, Bytes.toUInt64_append]
      rfl

variable (entries : List (HostEvent × Int64))

theorem encode_eq : encode entries = (entries.map (·.1.raw)).flatMap wordBytes ++
    (entries.map (·.2)).flatMap wordBytes := List.flatMap_append

theorem length_column (ws : List Int64) : (ws.flatMap wordBytes).length = 8 * ws.length :=
  Bytes.length_flatMap length_wordBytes ws

theorem length_encode : (encode entries).length = 16 * entries.length := by
  rw [encode_eq, List.length_append, length_column, length_column, List.length_map,
    List.length_map]
  omega

theorem take_encode : (encode entries).take (8 * entries.length) =
    (entries.map (·.1.raw)).flatMap wordBytes := by
  rw [encode_eq]
  exact List.take_left' (by rw [length_column, List.length_map])

theorem drop_encode : (encode entries).drop (8 * entries.length) =
    (entries.map (·.2)).flatMap wordBytes := by
  rw [encode_eq]
  exact List.drop_left' (by rw [length_column, List.length_map])

theorem words_take_encode :
    words entries.length ((encode entries).take (8 * entries.length)) =
      entries.map (·.1.raw) := by
  have hwords := words_append (entries.map (·.1.raw)) []
  rwa [List.length_map, List.append_nil, ← take_encode] at hwords

theorem words_drop_encode :
    words entries.length ((encode entries).drop (8 * entries.length)) = entries.map (·.2) := by
  have hwords := words_append (entries.map (·.2)) []
  rwa [List.length_map, List.append_nil, ← drop_encode] at hwords

theorem columns_encode :
    columns (encode entries) = (entries.map (·.1.raw), entries.map (·.2)) := by
  have hfirst := words_append (entries.map (·.1.raw)) ((entries.map (·.2)).flatMap wordBytes)
  rw [List.length_map, ← encode_eq] at hfirst
  have hcount : (encode entries).length / 16 = entries.length := by
    rw [length_encode]
    exact Nat.mul_div_cancel_left _ (by decide)
  simp only [columns, hcount]
  rw [hfirst, words_drop_encode]

theorem entriesOf_encode :
    entriesOf (encode entries) = entries.map fun entry => (some entry.1, entry.2) := by
  rw [entriesOf, columns_encode, List.map_map, List.zip_map']
  simp only [Function.comp_apply, HostEvent.ofRaw?_raw]

variable {entries} in
theorem eq_of_encode_eq {entries' : List (HostEvent × Int64)} (h : encode entries' = encode entries) :
    entries' = entries := by
  have hmap := congrArg entriesOf h
  rw [entriesOf_encode, entriesOf_encode] at hmap
  refine List.map_injective_iff.2 (fun entry entry' hsame => ?_) hmap
  obtain ⟨hevent, htime⟩ := Prod.mk.inj hsame
  exact Prod.ext (Option.some.inj hevent) htime

theorem entries_ofEvents : (ofEvents entries).entries.toList = entries := by
  have happend : ∀ (entries : List (HostEvent × Int64)) (t : HostTrace),
      (entries.foldl recordAt t).entries.toList = t.entries.toList ++ entries := by
    intro entries
    induction entries with
    | nil => exact fun t => (List.append_nil _).symm
    | cons entry entries ih =>
        intro t
        rw [List.foldl_cons, ih]
        simp [recordAt, record]
  exact happend entries empty

theorem fileBytes_ofEvents : (ofEvents entries).fileBytes = encode entries := by
  rw [fileBytes, entries_ofEvents]

end HostTrace
end Lockstep
