import Lockstep.Forms
import Lockstep.Proofs.Json.Records

/-!
# Documents read back

Every type with a JSON form reads back what it writes, and the document of a configuration is
accepted exactly when the configuration is valid.
-/

namespace Lockstep

open Json Codec RecordForm

theorem Entity.form_faithful : form.Faithful where
  nodup := by decide
  plain := by decide
  rebuilds _ := .of faithful_uint32 (.of faithful_uint32 rfl)

theorem TypeInfo.form_faithful : form.Faithful where
  nodup := by decide
  plain := by decide
  rebuilds _ := .of faithful_uint32 (.of faithful_uint32 rfl)

theorem DeviceEvent.form_wellNamed : form.WellNamed where
  ofName? a := by cases a <;> decide
  plain a := by cases a <;> decide

theorem HostEvent.form_wellNamed : form.WellNamed where
  ofName? a := by cases a <;> decide
  plain a := by cases a <;> decide

theorem StateConfig.form_faithful : form.Faithful where
  nodup := by decide
  plain := by decide
  rebuilds _ := .of faithful_uint32 <| .of faithful_uint32 <| .of faithful_uint32 <|
    .of faithful_uint32 <| .of faithful_uint32 <| .of faithful_uint32 <| .of faithful_uint32 rfl

theorem LaunchConfig.form_faithful : form.Faithful where
  nodup := by decide
  plain := by decide
  rebuilds _ := .of faithful_uint32 (.of faithful_uint32 (.of faithful_uint32 rfl))

theorem TraceConfig.form_faithful : form.Faithful where
  nodup := by decide
  plain := by decide
  rebuilds _ := .of faithful_bool (.of faithful_uint32 rfl)

theorem EngineConfig.form_faithful : form.Faithful where
  nodup := by decide
  plain := by decide
  rebuilds _ := .of StateConfig.form_faithful.codec <| .of LaunchConfig.form_faithful.codec <|
    .of faithful_uint32 <| .of faithful_uint32 <| .of faithful_uint64 <| .of faithful_uint32 <|
    .of TraceConfig.form_faithful.codec rfl

/-- A configuration that was read is checked. -/
theorem EngineConfig.ofJson_of_parse {text : String} {c : EngineConfig}
    (h : form.codec.parse text = .ok c) : ofJson text = c.validate.map fun () => c := by
  rw [ofJson, h]
  dsimp only
  cases c.validate <;> rfl

theorem EngineConfig.ofJson_text (c : EngineConfig) :
    ofJson (form.codec.text c) = c.validate.map fun () => c :=
  ofJson_of_parse (form_faithful.codec.readsBack c)

/-- Each type with a JSON form reads its own documents back.  The document of a configuration
is accepted exactly when the configuration is valid, and refused for its own error. -/
theorem documents_read_back :
    Entity.form.codec.ReadsBack ∧ WorldId.codec.ReadsBack ∧ ComponentId.codec.ReadsBack ∧
      ArchetypeId.codec.ReadsBack ∧ TypeInfo.form.codec.ReadsBack ∧ FuncId.codec.ReadsBack ∧
      NodeId.codec.ReadsBack ∧ DeviceEvent.form.codec.ReadsBack ∧ HostEvent.form.codec.ReadsBack ∧
      StateConfig.form.codec.ReadsBack ∧ LaunchConfig.form.codec.ReadsBack ∧
      TraceConfig.form.codec.ReadsBack ∧ EngineConfig.form.codec.ReadsBack ∧
      ∀ c : EngineConfig,
        let document := EngineConfig.form.codec.text c
        (EngineConfig.ofJson document = .ok c ↔ c.validate = .ok ()) ∧
          ∀ e, c.validate = .error e → EngineConfig.ofJson document = .error e := by
  refine ⟨Entity.form_faithful.codec.readsBack, (faithful_uint32.map fun _ => rfl).readsBack,
    (faithful_uint32.map fun _ => rfl).readsBack, (faithful_uint32.map fun _ => rfl).readsBack,
    TypeInfo.form_faithful.codec.readsBack, (faithful_uint32.map fun _ => rfl).readsBack,
    (faithful_uint32.map fun _ => rfl).readsBack, DeviceEvent.form_wellNamed.codec.readsBack,
    HostEvent.form_wellNamed.codec.readsBack, StateConfig.form_faithful.codec.readsBack,
    LaunchConfig.form_faithful.codec.readsBack, TraceConfig.form_faithful.codec.readsBack,
    EngineConfig.form_faithful.codec.readsBack, fun c => ?_⟩
  intro document
  have hread : EngineConfig.ofJson document = c.validate.map fun () => c :=
    EngineConfig.ofJson_text c
  rw [hread]
  cases c.validate with
  | ok valid => exact ⟨⟨fun _ => rfl, fun _ => rfl⟩, nofun⟩
  | error e =>
      refine ⟨⟨nofun, nofun⟩, fun e' he => ?_⟩
      cases he
      rfl

end Lockstep
