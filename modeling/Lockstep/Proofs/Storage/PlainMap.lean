import Lockstep.Proofs.Storage.Simulation

/-!
# A storage is a plain map

As long as rows are taken by creations only, and nobody overwrites the owners of the rows, a
storage answers like a map from entities to values.  An entity is in it from its creation
until it is destroyed or its archetype is cleared.  Slots that are used again, rows that are
used again after a clear and creations that fail do not show.
-/

namespace Lockstep

/-- The exchanges neither destroy the entity nor clear its archetype. -/
def Spared (e : Entity) (a : ArchetypeId) (exchanges : List StorageExchange) : Prop :=
  ∀ x ∈ exchanges, x.destroys e = false ∧ x.clears a = false

theorem spared_cons {e : Entity} {a : ArchetypeId} {x : StorageExchange}
    {exchanges : List StorageExchange} :
    Spared e a (x :: exchanges) ↔
      (x.destroys e = false ∧ x.clears a = false) ∧ Spared e a exchanges :=
  List.forall_mem_cons

namespace Storage

theorem lastSet_cons (e : Entity) (c : ComponentId) (x : StorageExchange)
    (xs : List StorageExchange) :
    lastSet e c (x :: xs) = (lastSet e c xs).or (x.sets? e c) := by
  have hfold : ∀ last, xs.foldl (fun last x => (x.sets? e c).or last) last =
      (lastSet e c xs).or last := by
    unfold lastSet
    induction xs with
    | nil => exact fun last => rfl
    | cons x xs ih =>
        intro last
        rw [List.foldl_cons, List.foldl_cons, ih, ih ((x.sets? e c).or none), Option.or_none,
          Option.or_assoc]
  rw [lastSet, List.foldl_cons, hfold, Option.or_none]

/-- The owner of a row is not set. -/
theorem lastSet_entity {xs : List StorageExchange} (h : ∀ x ∈ xs, x.call.setsOwner = false)
    (e : Entity) : lastSet e .entity xs = none := by
  induction xs with
  | nil => rfl
  | cons x xs ih =>
      obtain ⟨hx, h⟩ := List.forall_mem_cons.1 h
      rw [lastSet_cons, ih h, Option.none_or]
      unfold StorageExchange.sets?
      split
      · rename_i e' c value
        have hc : c ≠ .entity := by simpa [StorageCall.setsOwner] using hx
        exact if_neg fun hboth => hc hboth.2
      · rfl

end Storage

namespace StorageView

variable {v v' : StorageView} {xs : List StorageExchange} {e : Entity}
  {location : EntityLocation} {a : ArchetypeId} {c : ComponentId}

inductive Run : StorageView → List StorageExchange → StorageView → Prop
  | nil (v : StorageView) : Run v [] v
  | cons {v v' v'' : StorageView} {x : StorageExchange} {r : Option UInt32}
      {xs : List StorageExchange} (change : v.Change x r v') (rest : Run v' xs v'') :
      Run v (x :: xs) v''

namespace Run

theorem split {ys : List StorageExchange} (h : v.Run (xs ++ ys) v') :
    ∃ between, v.Run xs between ∧ between.Run ys v' := by
  induction xs generalizing v with
  | nil => exact ⟨v, .nil v, h⟩
  | cons x xs ih =>
      cases h with
      | cons change rest =>
          obtain ⟨between, hfirst, hsecond⟩ := ih rest
          exact ⟨between, .cons change hfirst, hsecond⟩

/-- An entity that is located after a run was made in it, or was there from the start. -/
theorem made_or_located (h : v.Run xs v') (howner : ∀ x ∈ xs, x.call.setsOwner = false)
    (htakes : ∀ x ∈ xs, x.call.takesRows = false) (hafter : v'.Located e location) :
    (∃ before world after,
        xs = before ++ ⟨.makeEntity location.archetype world, .entity e⟩ :: after ∧
          Spared e location.archetype after) ∨
      v.Located e location ∧ Spared e location.archetype xs := by
  induction h with
  | nil v => exact .inr ⟨hafter, by simp [Spared]⟩
  | @cons v v' v'' x r xs change rest ih =>
      -- The last creation is found first: the first exchange counts only when none follows it.
      obtain ⟨hxowner, howner⟩ := List.forall_mem_cons.1 howner
      obtain ⟨hxtakes, htakes⟩ := List.forall_mem_cons.1 htakes
      rcases ih howner htakes hafter with ⟨before, world, after, rfl, hspared⟩ | ⟨hlocated, hspared⟩
      · exact .inl ⟨x :: before, world, after, rfl, hspared⟩
      · rcases change.made_or_located hxowner hxtakes hlocated with ⟨world, rfl⟩ | ⟨hbefore, hx⟩
        · exact .inl ⟨[], world, xs, rfl, hspared⟩
        · exact .inr ⟨hbefore, spared_cons.2 ⟨hx, hspared⟩⟩

theorem located (h : v.Run xs v') (howner : ∀ x ∈ xs, x.call.setsOwner = false)
    (hbefore : v.Located e location) (hspared : Spared e location.archetype xs) :
    v'.Located e location := by
  induction h with
  | nil => exact hbefore
  | cons change rest ih =>
      obtain ⟨hxowner, howner⟩ := List.forall_mem_cons.1 howner
      obtain ⟨⟨hdestroys, hclears⟩, hspared⟩ := spared_cons.1 hspared
      exact ih howner (change.located hxowner hbefore hdestroys hclears) hspared

theorem rows (h : v.Run xs v') (htakes : ∀ x ∈ xs, x.call.takesRows = false) (a : ArchetypeId) :
    v'.rows a = xs.foldl
      (fun n x => if x.clears a then 0 else if x.makesIn a then n + 1 else n) (v.rows a) := by
  induction h with
  | nil => rfl
  | cons change rest ih =>
      obtain ⟨hxtakes, htakes⟩ := List.forall_mem_cons.1 htakes
      rw [ih htakes, change.rows hxtakes, List.foldl_cons]

theorem live (h : v.Run xs v') :
    v'.live + xs.countP (·.frees) = v.live + xs.countP (·.makes) := by
  induction h with
  | nil => rfl
  | @cons v v' v'' x r xs change rest ih =>
      have hstep := change.live
      rw [List.countP_cons, List.countP_cons]
      omega

theorem cell (h : v.Run xs v') (howner : ∀ x ∈ xs, x.call.setsOwner = false)
    (hbefore : v.Located e location) (hspared : Spared e location.archetype xs)
    (c : ComponentId) :
    v'.cells location c = (Storage.lastSet e c xs).or (v.cells location c) := by
  induction h with
  | nil => rfl
  | @cons v v' v'' x r xs change rest ih =>
      obtain ⟨hxowner, howner⟩ := List.forall_mem_cons.1 howner
      obtain ⟨⟨hdestroys, hclears⟩, hspared⟩ := spared_cons.1 hspared
      rw [ih howner (change.located hxowner hbefore hdestroys hclears) hspared,
        change.cell hbefore, Storage.lastSet_cons, Option.or_assoc]

theorem fresh (h : v.Run xs v') (hclears : ∀ x ∈ xs, x.clears a = false) (hfresh : v.Fresh a) :
    v'.Fresh a := by
  induction h with
  | nil => exact hfresh
  | cons change rest ih =>
      obtain ⟨hx, hclears⟩ := List.forall_mem_cons.1 hclears
      exact ih hclears (change.fresh hx hfresh)

end Run
end StorageView

namespace Storage

variable {s : Storage}

theorem run_after (hs : s.WellFormed) (calls : List StorageCall) :
    s.view.Run (s.exchanges calls) (s.after calls).view := by
  induction calls generalizing s with
  | nil => exact .nil _
  | cons call calls ih =>
      obtain ⟨hchange, hs'⟩ := simulates hs call
      exact .cons hchange (ih hs')

theorem call_mem_of_exchange {calls : List StorageCall} {x : StorageExchange}
    (hx : x ∈ s.exchanges calls) : x.call ∈ calls := by
  induction calls generalizing s with
  | nil => contradiction
  | cons call calls ih =>
      rcases List.mem_cons.1 hx with rfl | hx
      · exact List.mem_cons_self
      · exact List.mem_cons_of_mem _ (ih hx)

/-- What the storage tells of an entity that was made in an archetype and is still there. -/
structure Holds (s : Storage) (e : Entity) (a : ArchetypeId) (world : WorldId)
    (before after : List StorageExchange) : Prop where
  location : s.entityLocation e = some ⟨a, rowsOf a before⟩
  entity : s.getComponent e .entity .entity = .ok (.ofEntity e)
  world : ∀ info : TypeInfo, info.Fits .worldId →
    (s.getComponent e .worldId info).map Value.bytes =
      .ok ((lastSet e .worldId after).getD (Bytes.ofUInt32 world.raw))
  /-- A component of the archetype holds what it was set to last. -/
  set : ∀ archetype c layout info bytes, s.archetype a = .ok archetype →
    archetype.hasComponent c = true → c.isBuiltin = false → s.registry.info? c = some layout →
    info.Fits layout → lastSet e c after = some bytes →
      (s.getComponent e c info).map Value.bytes = .ok bytes
  /-- A component that was not set holds zeros, unless the row was used before a clear. -/
  unset : ∀ archetype c layout info, s.archetype a = .ok archetype →
    archetype.hasComponent c = true → c.isBuiltin = false → s.registry.info? c = some layout →
    info.Fits layout → lastSet e c after = none → (∀ x ∈ before, x.clears a = false) →
      (s.getComponent e c info).map Value.bytes = .ok (List.replicate info.size 0)

/-- The storage answers as its history tells. -/
structure Tells (s : Storage) (history : List StorageExchange) : Prop where
  isValid : ∀ e, s.isValid e = true ↔ ∃ before a world after,
    history = before ++ ⟨.makeEntity a world, .entity e⟩ :: after ∧ Spared e a after
  holds : ∀ e before a world after,
    history = before ++ ⟨.makeEntity a world, .entity e⟩ :: after → Spared e a after →
      s.Holds e a world before after
  numRows : ∀ a, s.numRows a =
    if a.index < s.archetypes.size then .ok (rowsOf a history) else .error (.unknownArchetype a)
  numEntities : s.numEntities + history.countP (·.frees) = history.countP (·.makes)

section history

variable {before after history : List StorageExchange} {e : Entity} {a : ArchetypeId}
  {world : WorldId}

theorem getComponent_eq (hs : s.WellFormed) {location : EntityLocation} {archetype : Archetype}
    {c : ComponentId} {layout info : TypeInfo} {bytes : List UInt8}
    (hlocated : s.view.Located e location) (h : s.archetype location.archetype = .ok archetype)
    (hhas : archetype.hasComponent c = true) (hlayout : s.registry.info? c = some layout)
    (hfits : info.Fits layout) (hcell : s.view.cells location c = some bytes) :
    (s.getComponent e c info).map Value.bytes = .ok bytes := by
  obtain ⟨col, hcol⟩ := Option.isSome_iff_exists.1 hhas
  obtain ⟨value, hget, -, hvalue⟩ :=
    getComponent_ok hs hlocated (archetype_eq_ok.1 h) hcol hlayout hfits
  rw [hget, Except.map, Option.some.inj (hvalue.symm.trans hcell)]

theorem holds_of_made (hs : s.WellFormed)
    (h : StorageView.Run .empty (before ++ ⟨.makeEntity a world, .entity e⟩ :: after) s.view)
    (howner : ∀ x ∈ before ++ ⟨.makeEntity a world, .entity e⟩ :: after,
      x.call.setsOwner = false)
    (htakes : ∀ x ∈ before ++ ⟨.makeEntity a world, .entity e⟩ :: after,
      x.call.takesRows = false)
    (hspared : Spared e a after) : s.Holds e a world before after := by
  obtain ⟨v, hbefore, hmade⟩ := h.split
  obtain ⟨-, howner⟩ := List.forall_mem_append.1 howner
  obtain ⟨-, howner⟩ := List.forall_mem_cons.1 howner
  obtain ⟨htakes, -⟩ := List.forall_mem_append.1 htakes
  have hrows : v.rows a = rowsOf a before := hbefore.rows htakes a
  obtain _ | ⟨change, hafter⟩ := hmade
  rw [change.settles] at hafter
  have hsettled := v.located_settle e a world
  have hlocated := hafter.located howner hsettled hspared
  have hcell := hafter.cell howner hsettled hspared
  obtain ⟨archetype, harchetype, -⟩ := exists_of_row_lt hlocated.row_lt
  have harchetype : s.archetype a = .ok archetype := archetype_eq_ok.2 harchetype
  constructor
  · rw [← hrows]
    exact (entityLocation_eq_some hs).2 hlocated
  · obtain ⟨value, hget, hinfo, hvalue⟩ := getComponent_ok hs hlocated
      (archetype_eq_ok.1 harchetype) Archetype.columnIndex_entity hs.entityInfo
      (TypeInfo.fits_self _)
    rw [hcell, lastSet_entity howner, v.owner_settle, Option.none_or] at hvalue
    rw [hget, Value.eq_of_bytes (.ofEntity e) hinfo (Option.some.inj hvalue).symm]
  · intro info hfits
    apply getComponent_eq hs hlocated harchetype rfl hs.worldIdInfo hfits
    rw [hcell, v.world_settle, Option.or_some]
  · intro archetype c layout info bytes harchetype hhas _ hlayout hfits hlast
    apply getComponent_eq hs hlocated harchetype hhas hlayout hfits
    rw [hcell, hlast, Option.some_or]
  · intro archetype c layout info harchetype hhas hbuiltin hlayout hfits hlast hclears
    obtain ⟨col, hcol⟩ := Option.isSome_iff_exists.1 hhas
    obtain ⟨value, hget, hinfo, hvalue⟩ :=
      getComponent_ok hs hlocated (archetype_eq_ok.1 harchetype) hcol hlayout hfits
    -- Without a clear the entity has got a row that nobody has used.
    have hfresh : v.Fresh a := hbefore.fresh hclears fun row c bytes _ hnone => nomatch hnone
    rw [hcell, hlast, Option.none_or, StorageView.cells_settle_user hbuiltin] at hvalue
    have hzero := hfresh _ c value.bytes (Nat.le_refl _) hvalue
    rw [hget, Except.map, List.eq_replicate_iff.2 ⟨hinfo ▸ value.length_bytes, hzero⟩]

end history

/-- After any registrations, creations, destructions, clears, queries and settings of values,
successful or not, a storage answers like a plain map from entities to values. -/
theorem plain_map {config : StateConfig} {s₀ : Storage} (hnew : Storage.new config = .ok s₀)
    (calls : List StorageCall)
    (hcalls : ∀ call ∈ calls, call.setsOwner = false ∧ call.takesRows = false) :
    (s₀.after calls).Tells (s₀.exchanges calls) := by
  obtain ⟨hs₀, hview⟩ := wellFormed_of_new hnew
  have hs := wellFormed_after hs₀ calls
  have hrun : StorageView.Run .empty (s₀.exchanges calls) (s₀.after calls).view :=
    hview ▸ run_after hs₀ calls
  have howner : ∀ x ∈ s₀.exchanges calls, x.call.setsOwner = false :=
    fun x hx => (hcalls _ (call_mem_of_exchange hx)).1
  have htakes : ∀ x ∈ s₀.exchanges calls, x.call.takesRows = false :=
    fun x hx => (hcalls _ (call_mem_of_exchange hx)).2
  have hholds : ∀ e before a world after,
      s₀.exchanges calls = before ++ ⟨.makeEntity a world, .entity e⟩ :: after →
      Spared e a after → (s₀.after calls).Holds e a world before after :=
    fun e before a world after hhistory hspared =>
      holds_of_made hs (hhistory ▸ hrun) (hhistory ▸ howner) (hhistory ▸ htakes) hspared
  refine ⟨fun e => ⟨fun hvalid => ?_, ?_⟩, hholds, fun a => ?_, ?_⟩
  · obtain ⟨location, hlocated⟩ := (isValid_iff hs).1 hvalid
    rcases hrun.made_or_located howner htakes hlocated with
      ⟨before, world, after, hhistory, hspared⟩ | ⟨hempty, -⟩
    · exact ⟨before, _, world, after, hhistory, hspared⟩
    · exact absurd hempty.row_lt (Nat.not_lt_zero _)
  · rintro ⟨before, a, world, after, hhistory, hspared⟩
    rw [isValid, (hholds e before a world after hhistory hspared).location, Option.isSome_some]
  · have hrows : (s₀.after calls).view.rows a = rowsOf a (s₀.exchanges calls) :=
      hrun.rows htakes a
    rw [numRows_eq, hrows]
  · exact hrun.live.trans (Nat.zero_add _)

namespace Sample

/-- Room for a single entity. -/
def config : StateConfig where
  numWorlds := 1
  maxRowsPerTable := 4
  maxComponents := 2
  maxArchetypes := 1
  maxArchetypeComponents := 1
  maxQueryData := 1
  maxEntities := 1

def start : Storage := ⟨config, .builtins 2, #[], #[], .empty 1, .empty 1⟩

def calls : List StorageCall :=
  [.registerArchetype [], .makeEntity ⟨0⟩ ⟨0⟩, .destroyEntity ⟨0, 0⟩, .clearTemporaries ⟨0⟩,
    .makeEntity ⟨0⟩ ⟨3⟩, .makeEntity ⟨0⟩ ⟨3⟩]

/-- What is answered before the second entity is made, in the slot and the row of the first. -/
def before : List StorageExchange :=
  [⟨.registerArchetype [], .archetype ⟨0⟩⟩, ⟨.makeEntity ⟨0⟩ ⟨0⟩, .entity ⟨0, 0⟩⟩,
    ⟨.destroyEntity ⟨0, 0⟩, .destroyed true⟩, ⟨.clearTemporaries ⟨0⟩, .done⟩]

/-- What is answered after that: there is no room for a third. -/
def after : List StorageExchange := [⟨.makeEntity ⟨0⟩ ⟨3⟩, .refused (.entityCapacity 1)⟩]

end Sample

theorem plain_map_sample :
    let s := Sample.start.after Sample.calls
    Storage.new Sample.config = .ok Sample.start ∧
      s.entityLocation ⟨0, 1⟩ = some ⟨⟨0⟩, 0⟩ ∧
      (s.getComponent ⟨0, 1⟩ .worldId .worldId).map Value.bytes = .ok [3, 0, 0, 0] ∧
      s.numEntities = 1 := by
  intro s
  have hnew : Storage.new Sample.config = .ok Sample.start := rfl
  have hhistory : Sample.start.exchanges Sample.calls =
      Sample.before ++ ⟨.makeEntity ⟨0⟩ ⟨3⟩, .entity ⟨0, 1⟩⟩ :: Sample.after := by decide +kernel
  have htells := plain_map hnew Sample.calls (by decide)
  have hholds := htells.holds ⟨0, 1⟩ Sample.before ⟨0⟩ ⟨3⟩ Sample.after hhistory
    (by unfold Spared; decide)
  have hcount := htells.numEntities
  rw [hhistory] at hcount
  exact ⟨hnew, hholds.location, hholds.world .worldId (TypeInfo.fits_self _),
    Nat.add_right_cancel hcount⟩

end Storage
end Lockstep
