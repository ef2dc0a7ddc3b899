import Lockstep.Config.Overlay
import Lockstep.Proofs.Json.Forms
import Lockstep.Proofs.Json.Objects
import Lockstep.Proofs.Word

/-!
# Documents over defaults

Main statement: a document that gives some of the settings is read as the default configuration
with just these settings replaced.  It is accepted exactly when the configuration meets all the
rules, and is refused for the first rule that the configuration breaks.
-/

namespace Lockstep

open Json Codec RecordForm

theorem StateConfig.form_open : form.Open where
  faithful := form_faithful
  incomplete := rfl
  apart := .of (fun _ _ => rfl) <| .of (fun _ _ => rfl) <| .of (fun _ _ => rfl) <|
    .of (fun _ _ => rfl) <| .of (fun _ _ => rfl) <| .of (fun _ _ => rfl) <|
      .of (fun _ _ => rfl) trivial

theorem LaunchConfig.form_open : form.Open where
  faithful := form_faithful
  incomplete := rfl
  apart := .of (fun _ _ => rfl) <| .of (fun _ _ => rfl) <| .of (fun _ _ => rfl) trivial

theorem TraceConfig.form_open : form.Open where
  faithful := form_faithful
  incomplete := rfl
  apart := .of (fun _ _ => rfl) <| .of (fun _ _ => rfl) trivial

theorem EngineConfig.form_open : form.Open where
  faithful := form_faithful
  incomplete := rfl
  apart := .of (fun _ _ => rfl) <| .of (fun _ _ => rfl) <| .of (fun _ _ => rfl) <|
    .of (fun _ _ => rfl) <| .of (fun _ _ => rfl) <| .of (fun _ _ => rfl) <|
      .of (fun _ _ => rfl) trivial

theorem StatePatch.serves (p : StatePatch) :
    List.Forall₂ (Field.Serves .default (p.onto .default)) StateConfig.form.fields p.entries :=
  .cons (.uint32 (fun _ _ => rfl) rfl) <| .cons (.uint32 (fun _ _ => rfl) rfl) <|
  .cons (.uint32 (fun _ _ => rfl) rfl) <| .cons (.uint32 (fun _ _ => rfl) rfl) <|
  .cons (.uint32 (fun _ _ => rfl) rfl) <| .cons (.uint32 (fun _ _ => rfl) rfl) <|
  .cons (.uint32 (fun _ _ => rfl) rfl) .nil

theorem TracePatch.serves (p : TracePatch) :
    List.Forall₂ (Field.Serves .default (p.onto .default)) TraceConfig.form.fields p.entries :=
  .cons (.scalar faithful_bool skipsSpace_bool (fun _ _ => rfl) rfl) <|
  .cons (.uint32 (fun _ _ => rfl) rfl) .nil

theorem LaunchPatch.serves (p : LaunchPatch) :
    List.Forall₂ (Field.Serves .default (p.onto .default)) LaunchConfig.form.fields p.entries :=
  .cons (.uint32 (fun _ _ => rfl) rfl) <|
  .cons (.uint32 (fun _ _ => rfl) rfl) <|
  .cons (.uint32 (fun _ _ => rfl) rfl) .nil

theorem EnginePatch.serves (p : EnginePatch) :
    List.Forall₂ (Field.Serves .default (p.onto .default)) EngineConfig.form.fields p.entries :=
  .cons (.of (fun _ _ => rfl) (fun s _ => StateConfig.form_open.accepts s.serves) rfl) <|
  .cons (.of (fun _ _ => rfl) (fun l _ => LaunchConfig.form_open.accepts l.serves) rfl) <|
  .cons (.uint32 (fun _ _ => rfl) rfl) <|
  .cons (.uint32 (fun _ _ => rfl) rfl) <|
  .cons (.scalar faithful_uint64 skipsSpace_uint64 (fun _ _ => rfl) rfl) <|
  .cons (.uint32 (fun _ _ => rfl) rfl) <|
  .cons (.of (fun _ _ => rfl) (fun t _ => TraceConfig.form_open.accepts t.serves) rfl) .nil

theorem EnginePatch.parse_eq {p : EnginePatch} {text : String} (h : IsDocument p.entries text) :
    EngineConfig.form.codec.parse text = .ok (p.onto .default) := by
  obtain @⟨before, object, after, htext, hbefore, hobject, hafter⟩ := h
  have hend := skipSpace_append hafter []
  have hdelimited := delimited_append hafter .nil
  rw [List.append_nil] at hend hdelimited
  have hread := EngineConfig.form_open.accepts p.serves hobject hbefore hdelimited
  rw [Codec.parse, Json.parse, htext, hread]
  change (if (skipSpace after).isEmpty then return p.onto .default
    else throw JsonError.malformed) = _
  rw [hend]
  rfl

/-! ## Rules -/

namespace ConfigRule

/-- The rules are checked one after another, up to the first one that is broken. -/
inductive Checked : List ConfigRule → Except EngineError Unit → Prop
  | nil : Checked [] (.ok ())
  | broken {rule : ConfigRule} (rules : List ConfigRule) (h : ¬ rule.holds) :
      Checked (rule :: rules) (.error rule.error)
  | kept {rule : ConfigRule} {rules : List ConfigRule} {result : Except EngineError Unit}
      (h : rule.holds) (hrules : Checked rules result) : Checked (rule :: rules) result

variable {rule : ConfigRule} {rules before after : List ConfigRule}
  {result : Except EngineError Unit}

theorem Checked.ite {p : Prop} [Decidable p] (hp : p ↔ ¬ rule.holds)
    (h : Checked rules result) :
    Checked (rule :: rules) (if p then .error rule.error else result) := by
  by_cases hbroken : p
  · rw [if_pos hbroken]
    exact .broken rules (hp.1 hbroken)
  · rw [if_neg hbroken]
    exact .kept (not_not.1 fun h => hbroken (hp.2 h)) h

theorem Checked.eq_ok_iff (h : Checked rules result) :
    result = .ok () ↔ ∀ rule ∈ rules, rule.holds := by
  induction h with
  | nil => simp
  | broken _ h => simp [h]
  | kept h _ ih => simp [h, ih]

theorem Checked.eq_error (h : Checked (before ++ rule :: after) result)
    (hbefore : ∀ rule ∈ before, rule.holds) (hrule : ¬ rule.holds) :
    result = .error rule.error := by
  induction before with
  | nil =>
      cases h with
      | broken => rfl
      | kept h => exact absurd h hrule
  | cons first before ih =>
      have hfirst := hbefore first List.mem_cons_self
      cases h with
      | broken _ h => exact absurd hfirst h
      | kept _ h => exact ih h fun rule hmem => hbefore rule (List.mem_cons_of_mem _ hmem)

end ConfigRule

namespace EngineConfig

theorem validate_eq (c : EngineConfig) : c.validate =
    if c.state.numWorlds = 0 then .error (.storage (.invalidConfig .noWorlds))
    else if c.state.maxComponents < 2 then .error (.storage (.invalidConfig .noRoomForBuiltins))
    else if c.state.maxRowsPerTable = 0 then .error (.storage (.invalidConfig .noRows))
    else if c.launch.numBlocks = 0 then .error (.invalidConfig .noBlocks)
    else if c.launch.groupsPerBlock = 0 then .error (.invalidConfig .noGroups)
    else if c.launch.lanesPerGroup = 0 ∨ maxLanesPerGroup < c.launch.lanesPerGroup then
      .error (.invalidConfig (.laneCount c.launch.lanesPerGroup))
    else if ¬ Word.isPowerOfTwo c.worldDataAlign.toNat then
      .error (.invalidConfig (.worldAlign c.worldDataAlign))
    else .ok () := by
  simp only [validate, StateConfig.issue?, LaunchConfig.issue?]
  split_ifs <;> rfl

theorem checked_validate (c : EngineConfig) : ConfigRule.Checked c.rules c.validate := by
  have hzero (n : UInt32) : n = 0 ↔ ¬ 1 ≤ n.toNat := by
    rw [← UInt32.toNat_inj, Nat.one_le_iff_ne_zero, not_not]
    rfl
  rw [validate_eq]
  refine .ite (hzero _) <| .ite ?_ <| .ite (hzero _) <| .ite (hzero _) <| .ite (hzero _) <|
    .ite ?_ <| .ite ?_ .nil
  · exact UInt32.lt_iff_toNat_lt.trans Nat.not_le.symm
  · rw [hzero, UInt32.lt_iff_toNat_lt, ← Nat.not_le, ← not_and_or]
    rfl
  · exact not_congr Word.isPowerOfTwo_iff

end EngineConfig

/-- For every patch and every document that gives just its settings, with members in any order and
unknown ones among them on any level.  The document is read as the patch over the defaults.  It is
accepted exactly when all the rules hold, and otherwise refused for the first one that does not. -/
theorem EngineConfig.document_overlays_defaults (p : EnginePatch) {text : String}
    (h : IsDocument p.entries text) :
    let c := p.onto .default
    form.codec.parse text = .ok c ∧ (ofJson text = .ok c ↔ ∀ rule ∈ c.rules, rule.holds) ∧
      ∀ {before rule after}, c.rules = before ++ rule :: after →
        (∀ rule ∈ before, rule.holds) → ¬ rule.holds → ofJson text = .error rule.error := by
  intro c
  have hparse : form.codec.parse text = .ok c := p.parse_eq h
  have hread := ofJson_of_parse hparse
  have hchecked := c.checked_validate
  refine ⟨hparse, ?_, ?_⟩
  · rw [← hchecked.eq_ok_iff, hread]
    cases c.validate with
    | error e => exact ⟨fun h => by contradiction, fun h => by contradiction⟩
    | ok => exact ⟨fun _ => rfl, fun _ => rfl⟩
  · intro before rule after hrules hbefore hrule
    rw [hrules] at hchecked
    rw [hread, hchecked.eq_error hbefore hrule]
    rfl

namespace SampleDocument

/-- A member with a blank before its name and one before its value. -/
def member (name : String) (value : List Char) : Member :=
  ⟨name, [' '], name.toList, [], ⟨[' '], value, []⟩⟩

def object (members : List Member) : List Char :=
  enclosed '\x7b' '\x7d' [] (members.map Member.text)

def pack : List Item := [⟨[], ['8'], []⟩, ⟨[' '], "\"\\ud800\"".toList, []⟩]

def launch : List Member := [
  member "lanes_per_group" ['6', '5'],
  member "pack" (enclosed '[' ']' [] (pack.map Item.text))]

def note : List Member := [member "state" "-1.5e+3".toList]

def state : List Member := [
  ⟨"max_entities", [], "\\u006dax_entities".toList, [], ⟨[], ['7'], []⟩⟩]

def members : List Member := [
  member "launch" (object launch),
  member "note" (object note),
  member "state" (object state),
  member "trace" (object []),
  member "world_data_align" ['1', '2']]

/-- The document

    { "launch": { "lanes_per_group": 65, "pack": [8, "\ud800"]}, "note": { "state": -1.5e+3},
    "state": {"\u006dax_entities":7}, "trace": {}, "world_data_align": 12}

in one line. -/
def text : String := String.ofList (object members ++ ['\n'])

def patch : EnginePatch where
  state := some { maxEntities := some 7 }
  launch := some { lanesPerGroup := some 65 }
  trace := some {}
  worldDataAlign := some 12

def config : EngineConfig where
  state := { StateConfig.default with maxEntities := 7 }
  launch := { LaunchConfig.default with lanesPerGroup := 65 }
  worldDataBytes := 0
  worldDataAlign := 12
  tmpAllocBytes := 1048576
  printCapacity := 1024
  trace := .default

theorem formed_member {name : String} (h : name.toList.all isPlain = true) (paired : Bool)
    (value : List Char) : (member name value).Formed paired := by
  have hspace : IsBlank [' '] := by decide
  have hnil : IsBlank [] := by decide
  exact ⟨hspace, stringText_of_plain (List.all_eq_true.1 h) paired, hnil, hspace, hnil⟩

theorem isValue_pack : IsValue (enclosed '[' ']' [] (pack.map Item.text)) := by
  have hnil : IsBlank [] := by decide
  have hspace : IsBlank [' '] := by decide
  have hnumber : NumberText ([] ++ (['8'] ++ ([] ++ []))) :=
    .mk (.inl rfl) (by decide) (by decide) .none .none
  have hstring : StringText false [Char.ofNat 0xD800] "\\ud800".toList :=
    .unit rfl nofun .nil
  refine .list hnil (List.forall_mem_cons.2 ⟨⟨hnil, hnil⟩, ?_⟩)
    (List.forall_mem_cons.2 ⟨.number hnumber, ?_⟩)
  · exact List.forall_mem_singleton.2 ⟨hspace, hnil⟩
  · exact List.forall_mem_singleton.2 (.string hstring)

theorem isValue_note : IsValue (object note) := by
  have hnumber : NumberText (['-'] ++ (['1'] ++ (['.', '5'] ++ ('e' :: (['+'] ++ ['3']))))) :=
    .mk (.inr rfl) (by decide) (by decide) (.some (by decide))
      (.some (.inl rfl) (.inr (.inl rfl)) (by decide))
  exact .object (by decide) (List.forall_mem_singleton.2 (formed_member (by decide) false _))
    (List.forall_mem_singleton.2 (.number hnumber))

theorem of_known {entries : List Entry} {name : String} (hname : name ∈ entries.map (·.name))
    {value : List Char} (h : ∀ e ∈ entries, e.name ≠ name) : IsValue value := by
  obtain ⟨e, he, rfl⟩ := List.mem_map.1 hname
  exact absurd rfl (h e he)

theorem isObject_launch : IsObject (LaunchPatch.entries { lanesPerGroup := some 65 })
    (object launch) := by
  refine .mk (by decide) ?_ ?_ ?_
  · exact List.forall_mem_cons.2 ⟨formed_member (by decide) true _,
      List.forall_mem_singleton.2 (formed_member (by decide) true _)⟩
  · exact List.forall_mem_cons.2 ⟨rfl, List.forall_mem_cons.2 ⟨rfl,
      List.forall_mem_singleton.2 ⟨_, rfl, rfl⟩⟩⟩
  · exact List.forall_mem_cons.2 ⟨of_known (by decide),
      List.forall_mem_singleton.2 fun _ => isValue_pack⟩

theorem isObject_state : IsObject (StatePatch.entries { maxEntities := some 7 })
    (object state) := by
  have hnil : IsBlank [] := by decide
  have hkey : StringText true (Char.ofNat 0x6D :: "ax_entities".toList)
      "\\u006dax_entities".toList :=
    .unit rfl (fun _ => ⟨rfl, rfl⟩) (stringText_of_plain (List.all_eq_true.1 (by decide)) true)
  refine .mk hnil ?_ ?_ ?_
  · exact List.forall_mem_singleton.2 ⟨hnil, hkey, hnil, hnil, hnil⟩
  · exact List.forall_mem_cons.2 ⟨rfl, List.forall_mem_cons.2 ⟨rfl, List.forall_mem_cons.2 ⟨rfl,
      List.forall_mem_cons.2 ⟨rfl, List.forall_mem_cons.2 ⟨rfl, List.forall_mem_cons.2 ⟨rfl,
        List.forall_mem_singleton.2 ⟨_, rfl, rfl⟩⟩⟩⟩⟩⟩⟩
  · exact List.forall_mem_singleton.2 (of_known (by decide))

theorem isObject_trace : IsObject (TracePatch.entries {}) (object []) :=
  .mk (by decide) (List.forall_mem_nil _)
    (List.forall_mem_cons.2 ⟨rfl, List.forall_mem_singleton.2 rfl⟩) (List.forall_mem_nil _)

theorem isObject_members : IsObject patch.entries (object members) := by
  refine .mk (by decide) ?_ ?_ ?_
  · exact List.forall_mem_cons.2 ⟨formed_member (by decide) true _,
      List.forall_mem_cons.2 ⟨formed_member (by decide) true _,
      List.forall_mem_cons.2 ⟨formed_member (by decide) true _,
      List.forall_mem_cons.2 ⟨formed_member (by decide) true _,
      List.forall_mem_singleton.2 (formed_member (by decide) true _)⟩⟩⟩⟩
  · exact List.forall_mem_cons.2 ⟨⟨_, rfl, isObject_state⟩,
      List.forall_mem_cons.2 ⟨⟨_, rfl, isObject_launch⟩,
      List.forall_mem_cons.2 ⟨rfl, List.forall_mem_cons.2 ⟨⟨_, rfl, rfl⟩,
      List.forall_mem_cons.2 ⟨rfl, List.forall_mem_cons.2 ⟨rfl,
      List.forall_mem_singleton.2 ⟨_, rfl, isObject_trace⟩⟩⟩⟩⟩⟩⟩
  · exact List.forall_mem_cons.2 ⟨of_known (by decide),
      List.forall_mem_cons.2 ⟨fun _ => isValue_note,
      List.forall_mem_cons.2 ⟨of_known (by decide),
      List.forall_mem_cons.2 ⟨of_known (by decide),
      List.forall_mem_singleton.2 (of_known (by decide))⟩⟩⟩⟩

theorem isDocument_text : IsDocument patch.entries text := by
  have htext : text.toList = [] ++ (object members ++ ['\n']) := String.toList_ofList
  exact .mk htext (by decide) isObject_members (by decide)

end SampleDocument

open SampleDocument in
/-- The lane count is checked before the alignment, and both are wrong. -/
theorem EngineConfig.document_overlays_defaults_sample :
    IsDocument patch.entries text ∧ form.codec.parse text = .ok config ∧
      ofJson text = .error (.invalidConfig (.laneCount 65)) := by
  obtain ⟨hparse, -, hbroken⟩ := document_overlays_defaults patch isDocument_text
  have hrules : (patch.onto default).rules = (patch.onto default).rules.take 5 ++
      ⟨1 ≤ (65 : Nat) ∧ (65 : Nat) ≤ 64, .invalidConfig (.laneCount 65)⟩ ::
        (patch.onto default).rules.drop 6 := rfl
  refine ⟨isDocument_text, hparse, hbroken hrules ?_ (by decide)⟩
  refine List.forall_mem_cons.2 ⟨?_, List.forall_mem_cons.2 ⟨?_, List.forall_mem_cons.2 ⟨?_,
    List.forall_mem_cons.2 ⟨?_, List.forall_mem_singleton.2 ?_⟩⟩⟩⟩
  all_goals exact Nat.le_of_ble_eq_true rfl

end Lockstep
