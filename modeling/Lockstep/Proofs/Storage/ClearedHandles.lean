import Lockstep.Proofs.Storage.Simulation

/-!
# Cleared handles

A clear touches neither the slots of its entities nor their rows.  What keeps a cleared
handle from validating is that its row is not in use, and that an entity which takes the row
puts its own handle there.  A row that is handed out directly keeps the old handle, and with
it the old entity is back.
-/

namespace Lockstep

/-- The slot of an entity after a number of releases; without any, it still names the row of
the entity. -/
structure EntitySlot.Ages (slot : EntitySlot) (e : Entity) (location : EntityLocation) (k : Nat) :
    Prop where
  generation : slot.generation = e.generation + UInt32.ofNat k
  unreleased : k = 0 → slot.occupancy = .live (some location)

namespace StorageView

variable {v v' : StorageView} {x : StorageExchange} {r : Option UInt32} {e e' : Entity}
  {location location' : EntityLocation} {k : Nat}

theorem ages_settle (v : StorageView) (e : Entity) (a : ArchetypeId) (world : WorldId) :
    ((v.settle e a world).slots e.index).Ages e ⟨a, v.rows a⟩ 0 := by
  rw [slots_settle_self]
  exact ⟨(UInt32.add_zero _).symm, fun _ => rfl⟩

theorem slot_of_ages (h : (v.slots e.index).Ages e location 0) :
    v.slots e.index = ⟨e.generation, .live (some location)⟩ := by
  obtain ⟨hgeneration, hoccupancy⟩ := h
  have hgeneration : (v.slots e.index).generation = e.generation :=
    hgeneration.trans (UInt32.add_zero _)
  rw [← hgeneration, ← hoccupancy rfl]

theorem ages_setSlot {i generation : UInt32} {occupancy : Occupancy}
    (h : (v.slots e.index).Ages e location k) (hslot : v.slots i = ⟨generation, occupancy⟩) :
    ((v.setSlot i ⟨generation + 1, .free⟩).slots e.index).Ages e location
      (k + if some i = some e.index then 1 else 0) := by
  by_cases hi : e.index = i
  · subst hi
    rw [if_pos rfl, slots_setSlot_self]
    have hgeneration := h.generation
    rw [hslot] at hgeneration
    refine ⟨?_, fun hzero => absurd hzero (Nat.succ_ne_zero k)⟩
    rw [UInt32.ofNat_add, ← UInt32.add_assoc, ← hgeneration]
    rfl
  · rw [if_neg fun hsame => hi (Option.some.inj hsame).symm, slots_setSlot_ne hi]
    exact h

theorem Change.ages (h : v.Change x r v') (hages : (v.slots e.index).Ages e location k) :
    (v'.slots e.index).Ages e location (k + if r = some e.index then 1 else 0) := by
  cases h with
  | adds => exact hages
  | returns idle free => exact ages_setSlot hages free
  | @makes e' a world free =>
      rw [if_neg nofun]
      by_cases hi : e.index = e'.index
      · have hk : k ≠ 0 := by
          rintro rfl
          exact ne_of_free free (slot_of_ages hages) hi
        have hgeneration := hages.generation
        rw [hi, free] at hgeneration
        rw [hi, slots_settle_self]
        exact ⟨hgeneration, fun hzero => absurd hzero hk⟩
      · rw [slots_settle_ne hi]
        exact hages
  | destroys slot count => exact ages_setSlot hages slot
  | clears => exact hages
  | sets => exact hages
  | takes => exact hages

/-- The row names somebody else. -/
def Overwritten (v : StorageView) (e : Entity) (location : EntityLocation) : Prop :=
  ∃ owner, (v.cells location .entity).map Entity.ofBytes = some owner ∧ owner ≠ e

/-- The row is not in use, or it names somebody else. -/
def Gone (v : StorageView) (e : Entity) (location : EntityLocation) : Prop :=
  location.row < v.rows location.archetype → v.Overwritten e location

/-- An entity whose slot has been released less than a full round is not located, if
without any release its row is gone. -/
theorem not_located (hages : (v.slots e.index).Ages e location k) (hk : k < 2 ^ 32)
    (hgone : k = 0 → v.Gone e location) : ¬ v.Located e location' := by
  intro hlocated
  have hk : k = 0 := by
    have hgeneration := hages.generation
    rw [hlocated.slot] at hgeneration
    have hround : UInt32.ofNat k = 0 := by simpa using hgeneration
    have hround := congrArg UInt32.toNat hround
    rwa [UInt32.toNat_ofNat_of_lt' hk] at hround
  subst hk
  obtain rfl : location = location' := by
    simpa using (slot_of_ages hages).symm.trans hlocated.slot
  obtain ⟨owner, howner, hne⟩ := hgone rfl hlocated.row_lt
  exact hne (Option.some.inj (howner.symm.trans hlocated.owner))

theorem overwritten_settle {a : ArchetypeId} {world : WorldId}
    (hfree : v.slots e'.index = ⟨e'.generation, .free⟩)
    (hages : (v.slots e.index).Ages e ⟨a, v.rows a⟩ 0) :
    (v.settle e' a world).Overwritten e ⟨a, v.rows a⟩ := by
  refine ⟨e', (v.located_settle e' a world).owner, ?_⟩
  rintro rfl
  exact ne_of_free hfree (slot_of_ages hages) rfl

theorem Change.overwritten (h : v.Change x r v') (howner : x.call.setsOwner = false)
    (hages : (v.slots e.index).Ages e location 0) (hover : v.Overwritten e location) :
    v'.Overwritten e location := by
  obtain ⟨owner, hcell, hne⟩ := hover
  cases h with
  | adds idle old_or_zero =>
      rcases old_or_zero location .entity with hsame | ⟨-, hnone, -⟩
      · exact ⟨owner, (congrArg _ hsame).trans hcell, hne⟩
      · rw [hnone] at hcell
        contradiction
  | returns => exact ⟨owner, hcell, hne⟩
  | @makes e' a world free =>
      by_cases hsame : location = ⟨a, v.rows a⟩
      · subst hsame
        exact overwritten_settle free hages
      · exact ⟨owner, (cells_settle_ne hsame _).symm ▸ hcell, hne⟩
  | destroys => exact ⟨owner, hcell, hne⟩
  | clears => exact ⟨owner, hcell, hne⟩
  | @sets e' location' c value located =>
      have hc : c ≠ .entity := by simpa [StorageCall.setsOwner] using howner
      exact ⟨owner, (cells_write_ne (.inr hc.symm)).symm ▸ hcell, hne⟩
  | takes => exact ⟨owner, hcell, hne⟩

/-- A row that is gone stays so unless it is handed out directly. -/
theorem Change.gone (h : v.Change x r v') (howner : x.call.setsOwner = false)
    (hages : (v.slots e.index).Ages e location 0) (hgone : v.Gone e location)
    (hhands : x.handsOut location.archetype location.row = false) : v'.Gone e location := by
  by_cases hrow : location.row < v.rows location.archetype
  · exact fun _ => h.overwritten howner hages (hgone hrow)
  · intro hrow'
    cases h with
    | adds => exact absurd hrow' hrow
    | returns => exact absurd hrow' hrow
    | @makes e' a world free =>
        by_cases hsame : location = ⟨a, v.rows a⟩
        · subst hsame
          exact overwritten_settle free hages
        · exact absurd ((row_lt_settle hsame).1 hrow') hrow
    | destroys => exact absurd hrow' hrow
    | @clears a =>
        by_cases ha : location.archetype = a
        · subst ha
          rw [rows_setRows_self] at hrow'
          exact absurd hrow' (Nat.not_lt_zero _)
        · rw [rows_setRows_ne ha] at hrow'
          exact absurd hrow' hrow
    | sets => exact absurd hrow' hrow
    | @takes a count =>
        by_cases ha : location.archetype = a
        · subst ha
          rw [rows_setRows_self] at hrow'
          simp [StorageExchange.handsOut] at hhands
          omega
        · rw [rows_setRows_ne ha] at hrow'
          exact absurd hrow' hrow

/-- An entity that takes the row puts its own handle there. -/
theorem Change.overwritten_of_makesIn (h : v.Change x r v')
    (hages : (v.slots e.index).Ages e location 0)
    (hmakes : x.makesIn location.archetype = true)
    (hrow : v.rows location.archetype = location.row) : v'.Overwritten e location := by
  cases h with
  | adds idle =>
      rw [x.makesIn_of_isIdle idle] at hmakes
      contradiction
  | returns idle =>
      rw [x.makesIn_of_isIdle idle] at hmakes
      contradiction
  | @makes e' a world free =>
      obtain ⟨a', row⟩ := location
      obtain rfl : a = a' := eq_of_beq hmakes
      obtain rfl : v.rows a = row := hrow
      exact overwritten_settle free hages
  | destroys => contradiction
  | clears => contradiction
  | sets => contradiction
  | takes => contradiction

end StorageView

namespace Storage

variable {s : Storage} {e : Entity} {location : EntityLocation} {k : Nat}

theorem after_append (s : Storage) (calls calls' : List StorageCall) :
    s.after (calls ++ calls') = (s.after calls).after calls' := List.foldl_append

theorem releasesOf_append (s : Storage) (i : UInt32) (calls calls' : List StorageCall) :
    s.releasesOf i (calls ++ calls') =
      s.releasesOf i calls + (s.after calls).releasesOf i calls' := by
  induction calls generalizing s with
  | nil => exact (Nat.zero_add _).symm
  | cons call calls ih =>
      rw [List.cons_append, releasesOf, releasesOf, ih, Nat.add_assoc]
      rfl

theorem ages_after (hs : s.WellFormed) (calls : List StorageCall)
    (hages : (s.view.slots e.index).Ages e location k) :
    ((s.after calls).view.slots e.index).Ages e location (k + s.releasesOf e.index calls) := by
  induction calls generalizing s k with
  | nil => exact hages
  | cons call calls ih =>
      obtain ⟨hchange, hs'⟩ := simulates hs call
      rw [releasesOf, ← Nat.add_assoc]
      exact ih hs' (hchange.ages hages)

theorem overwritten_after (hs : s.WellFormed) {calls : List StorageCall}
    (howner : ∀ call ∈ calls, call.setsOwner = false)
    (hages : (s.view.slots e.index).Ages e location 0) (hreleases : s.releasesOf e.index calls = 0)
    (hover : s.view.Overwritten e location) : (s.after calls).view.Overwritten e location := by
  induction calls generalizing s with
  | nil => exact hover
  | cons call calls ih =>
      obtain ⟨hchange, hs'⟩ := simulates hs call
      obtain ⟨hcall, howner⟩ := List.forall_mem_cons.1 howner
      obtain ⟨hreleased, hreleases⟩ := Nat.add_eq_zero_iff.1 hreleases
      have hages' := hchange.ages hages
      rw [hreleased] at hages'
      exact ih hs' howner hages' hreleases (hchange.overwritten hcall hages hover)

/-- A row that is gone stays so as long as it is not handed out before an entity is made in
it. -/
theorem gone_after (hs : s.WellFormed) {calls : List StorageCall}
    (howner : ∀ call ∈ calls, call.setsOwner = false)
    (hages : (s.view.slots e.index).Ages e location 0) (hreleases : s.releasesOf e.index calls = 0)
    (hexposes : s.exposes location calls = false) (hgone : s.view.Gone e location) :
    (s.after calls).view.Gone e location := by
  induction calls generalizing s with
  | nil => exact hgone
  | cons call calls ih =>
      obtain ⟨hchange, hs'⟩ := simulates hs call
      obtain ⟨hcall, howner⟩ := List.forall_mem_cons.1 howner
      obtain ⟨hreleased, hreleases⟩ := Nat.add_eq_zero_iff.1 hreleases
      have hages' := hchange.ages hages
      rw [hreleased] at hages'
      unfold exposes at hexposes
      dsimp only at hexposes
      split at hexposes
      · contradiction
      · rename_i hhands
        split at hexposes
        · -- An entity takes the row: from now on the handle there is another one, and the row
          -- may come and go.
          rename_i htaken
          obtain ⟨hmakes, hrows⟩ := Bool.and_eq_true_iff.1 htaken
          have hover := hchange.overwritten_of_makesIn hages hmakes
            (rows_of_numRows (eq_of_beq hrows))
          exact fun _ => overwritten_after hs' howner hages' hreleases hover
        · exact ih hs' howner hages' hreleases hexposes
            (hchange.gone hcall hages hgone (Bool.eq_false_of_not_eq_true hhands))

theorem view_clear (s : Storage) (a : ArchetypeId) :
    (s.perform (.clearTemporaries a)).2.view = s.view.setRows a 0 := by
  cases h : s.archetypes[a.index]? with
  | none =>
      have harchetype : s.archetype a = .error (.unknownArchetype a) := by
        rw [Storage.archetype, h]
      have hperform : (s.perform (.clearTemporaries a)).2 = s := by
        simp [perform_clearTemporaries, clearTemporaries, harchetype, bind, Except.bind]
      have hrows : s.view.rows a = 0 := by simp [view, h]
      rw [hperform, ← hrows]
      exact StorageView.ext rfl rfl (Function.update_eq_self ..).symm rfl
  | some archetype =>
      have hperform : (s.perform (.clearTemporaries a)).2 = s.setTable a archetype.table.clear := by
        simp [perform_clearTemporaries, clearTemporaries, archetype_eq_ok.2 h, bind, Except.bind,
          pure, Except.pure]
      rw [hperform]
      exact view_setTable_of_bytesAt h fun _ _ => rfl

/-- The storage refuses a handle in every way. -/
structure Refuses (s : Storage) (e : Entity) : Prop where
  isValid : s.isValid e = false
  entityLocation : s.entityLocation e = none
  getComponent : ∀ c info, s.getComponent e c info = .error (.staleEntity e)
  setComponent : ∀ c value, s.setComponent e c value = .error (.staleEntity e)

theorem refuses_of_not_located (hs : s.WellFormed) (h : ∀ location, ¬ s.view.Located e location) :
    s.Refuses e := by
  have hnone : s.entityLocation e = none :=
    Option.eq_none_iff_forall_ne_some.2 fun location hlocation =>
      h location ((entityLocation_eq_some hs).1 hlocation)
  have hstale := locateComponent_stale hnone
  constructor
  · rw [Storage.isValid, hnone, Option.isSome_none]
  · exact hnone
  · intro c info
    rw [Storage.getComponent, hstale]
    rfl
  · intro c value
    rw [Storage.setComponent, hstale]
    rfl

/-- An entity is made, and at some later time its archetype is cleared.  Its handle is
refused from then on, whatever is made, destroyed, cleared, set or taken, until its slot has
been released a full round or its row is handed out directly before an entity takes it. -/
theorem cleared_handle_refused {config : StateConfig} {s₀ s₁ : Storage}
    (hnew : Storage.new config = .ok s₀) {before : List StorageCall} {a : ArchetypeId}
    {world : WorldId} {e : Entity} {row : Nat}
    (hmade : (s₀.after before).perform (.makeEntity a world) = (.entity e, s₁))
    (hlocation : s₁.entityLocation e = some ⟨a, row⟩) {during later : List StorageCall}
    (howner : ∀ call ∈ later, call.setsOwner = false)
    (hexposes : (s₁.after (during ++ [.clearTemporaries a])).exposes ⟨a, row⟩ later = false)
    (hreleases : s₁.releasesOf e.index (during ++ [.clearTemporaries a] ++ later) < 2 ^ 32) :
    (s₁.after (during ++ [.clearTemporaries a] ++ later)).Refuses e := by
  have hs := wellFormed_after (wellFormed_of_new hnew).1 before
  obtain ⟨hchange, hs₁⟩ := simulates hs (.makeEntity a world)
  rw [hmade] at hchange hs₁
  have hsettle := hchange.settles
  have hages : (s₁.view.slots e.index).Ages e ⟨a, row⟩ 0 := by
    rw [entityLocation_of_made hs hmade, Option.some.injEq] at hlocation
    rw [hsettle, ← hlocation]
    exact StorageView.ages_settle ..
  have hs₂ := wellFormed_after hs₁ (during ++ [.clearTemporaries a])
  have hages₂ := ages_after hs₁ (during ++ [.clearTemporaries a]) hages
  have hgone₂ : (s₁.after (during ++ [.clearTemporaries a])).view.Gone e ⟨a, row⟩ := by
    intro hrow
    have hview : (s₁.after (during ++ [.clearTemporaries a])).view =
        (s₁.after during).view.setRows a 0 := by
      rw [after_append]
      exact view_clear (s₁.after during) a
    rw [hview, StorageView.rows_setRows_self] at hrow
    exact absurd hrow (Nat.not_lt_zero _)
  have hs₃ := wellFormed_after hs₂ later
  have hages₃ := ages_after hs₂ later hages₂
  rw [Nat.zero_add, ← releasesOf_append] at hages₃
  rw [after_append]
  refine refuses_of_not_located hs₃ fun location => ?_
  -- Once the slot has been released its generation is another one.  What is left is the case
  -- that nobody has destroyed the entity.
  refine StorageView.not_located hages₃ hreleases fun hzero => ?_
  rw [releasesOf_append] at hzero
  obtain ⟨hzero₂, hzero₃⟩ := Nat.add_eq_zero_iff.1 hzero
  rw [hzero₂] at hages₂
  exact gone_after hs₂ howner hages₂ hzero₃ hexposes hgone₂

namespace Cleared

def config : StateConfig where
  numWorlds := 1
  maxRowsPerTable := 4
  maxComponents := 2
  maxArchetypes := 1
  maxArchetypeComponents := 1
  maxQueryData := 1
  maxEntities := 2

def start : Storage := ⟨config, .builtins 2, #[], #[], .empty 1, .empty 2⟩

theorem start_eq : Storage.new config = .ok start := rfl

/-- The first entity lives in the first row. -/
def made : Storage :=
  ((start.after [.registerArchetype []]).perform (.makeEntity ⟨0⟩ ⟨0⟩)).2

theorem made_eq : (start.after [.registerArchetype []]).perform (.makeEntity ⟨0⟩ ⟨0⟩) =
    (.entity ⟨0, 0⟩, made) := Prod.ext rfl rfl

theorem location_made : made.entityLocation ⟨0, 0⟩ = some ⟨⟨0⟩, 0⟩ := by
  have hs := wellFormed_after (wellFormed_of_new start_eq).1 [.registerArchetype []]
  have hrows : (start.after [.registerArchetype []]).view.rows ⟨0⟩ = 0 := by decide +kernel
  rw [entityLocation_of_made hs made_eq, hrows]

/-- Another entity takes the row before it is handed out. -/
def later : List StorageCall :=
  [.makeEntity ⟨0⟩ ⟨0⟩, .clearTemporaries ⟨0⟩, .allocRows ⟨0⟩ 1]

end Cleared

theorem cleared_handle_refused_sample :
    Cleared.made.isValid ⟨0, 0⟩ = true ∧
      (Cleared.made.after ([] ++ [.clearTemporaries ⟨0⟩] ++ Cleared.later)).Refuses ⟨0, 0⟩ := by
  refine ⟨by rw [isValid, Cleared.location_made, Option.isSome_some], ?_⟩
  exact cleared_handle_refused Cleared.start_eq Cleared.made_eq Cleared.location_made (by decide)
    (by decide +kernel) (by decide +kernel)

/-- An entity whose row is handed out directly after the clear is back. -/
theorem isValid_of_handed_out {s : Storage} (hs : s.WellFormed) {e : Entity} {a : ArchetypeId}
    {row count first : Nat} (hlocation : s.entityLocation e = some ⟨a, row⟩)
    (hrows : ((s.perform (.clearTemporaries a)).2.perform (.allocRows a count)).1 = .rows first)
    (hrow : row < count) :
    (s.after [.clearTemporaries a, .allocRows a count]).isValid e = true := by
  obtain ⟨hslot, -, howner⟩ := (entityLocation_eq_some hs).1 hlocation
  have hcleared := (simulates hs (.clearTemporaries a)).wellFormed
  obtain ⟨hchange, hs'⟩ := simulates hcleared (.allocRows a count)
  rw [hrows, view_clear] at hchange
  have hview := hchange.rows_taken
  rw [StorageView.rows_setRows_self, Nat.zero_add] at hview
  refine (isValid_iff hs').2 ⟨⟨a, row⟩, ?_⟩
  rw [hview]
  exact ⟨hslot, (StorageView.rows_setRows_self ..).symm ▸ hrow, howner⟩

/-- A direct allocation right after the clear brings the handle back. -/
theorem cleared_handle_returns :
    ¬ ∀ (config : StateConfig) (s₀ s₁ : Storage) (before during later : List StorageCall)
        (a : ArchetypeId) (world : WorldId) (e : Entity), Storage.new config = .ok s₀ →
      (s₀.after before).perform (.makeEntity a world) = (.entity e, s₁) →
      (∀ call ∈ later, call.setsOwner = false) →
      s₁.releasesOf e.index (during ++ [.clearTemporaries a] ++ later) < 2 ^ 32 →
      (s₁.after (during ++ [.clearTemporaries a] ++ later)).Refuses e := by
  intro hclaim
  have hrefuses := hclaim Cleared.config _ _ [.registerArchetype []] [] [.allocRows ⟨0⟩ 1] ⟨0⟩ ⟨0⟩
    ⟨0, 0⟩ Cleared.start_eq Cleared.made_eq (by decide) (by decide +kernel)
  have hmade := wellFormed_after (wellFormed_of_new Cleared.start_eq).1
    [.registerArchetype [], .makeEntity ⟨0⟩ ⟨0⟩]
  have hrows : ((Cleared.made.perform (.clearTemporaries ⟨0⟩)).2.perform (.allocRows ⟨0⟩ 1)).1 =
      .rows 0 := by decide +kernel
  have hvalid := isValid_of_handed_out hmade Cleared.location_made hrows Nat.one_pos
  exact Bool.false_ne_true (hrefuses.isValid.symm.trans hvalid)

end Storage
end Lockstep
