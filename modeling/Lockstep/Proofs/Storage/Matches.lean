import Lockstep.Query
import Mathlib.Data.List.Basic

/-!
# Matches in the shared buffer

A search lists the archetypes that have all the components, each with their columns.  The
words of the matches form a block of the buffer, every match as long as the others, and are
read back from there.  A block stays where it is when the buffer grows.
-/

namespace Lockstep

/-- The matches are the archetypes that have all the components, in ascending order, each
with the columns of the components in the order of the request. -/
structure Exact (components : List ComponentId) (archetypes : List Archetype)
    (found : List QueryMatch) : Prop where
  ascending : (found.map QueryMatch.archetype).Pairwise (· < ·)
  mem_iff : ∀ i, i ∈ found.map QueryMatch.archetype ↔
    ∃ archetype, archetypes[i]? = some archetype ∧
      ∀ c ∈ components, archetype.hasComponent c = true
  columns : ∀ m ∈ found, ∃ archetype, archetypes[m.archetype]? = some archetype ∧
    m.columns.map some = components.map archetype.columnIndex

namespace Exact

variable {components : List ComponentId} {archetypes : List Archetype} {found : List QueryMatch}

theorem length_columns (h : Exact components archetypes found) {m : QueryMatch}
    (hm : m ∈ found) : m.columns.length = components.length := by
  obtain ⟨archetype, -, hcolumns⟩ := h.columns m hm
  simpa using congrArg List.length hcolumns

theorem length_words (h : Exact components archetypes found) :
    (found.flatMap QueryMatch.words).length = found.length * (components.length + 1) := by
  have hwords : found.map (fun m => m.words.length) =
      List.replicate found.length (components.length + 1) := by
    refine List.eq_replicate_iff.2 ⟨List.length_map _, fun n hn => ?_⟩
    obtain ⟨m, hm, rfl⟩ := List.mem_map.1 hn
    exact congrArg Nat.succ (h.length_columns hm)
  rw [List.length_flatMap, hwords, List.sum_replicate_nat]

/-- Matches that fit into as many words as a word counts are fewer than that, and unless there
are none, so are the components. -/
theorem length_lt (h : Exact components archetypes found)
    (hwords : (found.flatMap QueryMatch.words).length < UInt32.size) :
    found.length < UInt32.size ∧ (found ≠ [] → components.length < UInt32.size) := by
  rw [h.length_words] at hwords
  refine ⟨?_, fun hfound => ?_⟩
  · calc
      found.length ≤ found.length * (components.length + 1) :=
        Nat.le_mul_of_pos_right _ (Nat.succ_pos _)
      _ < UInt32.size := hwords
  · calc
      components.length < components.length + 1 := Nat.lt_succ_self _
      _ ≤ found.length * (components.length + 1) :=
        Nat.le_mul_of_pos_left _ (List.length_pos_iff.2 hfound)
      _ < UInt32.size := hwords

end Exact

namespace QueryCache

variable {cache cache' : QueryCache} {components : List ComponentId} {archetypes : List Archetype}
  {resolved : ResolvedQuery} {found : List QueryMatch}

theorem map_some_filterMap_columnIndex {archetype : Archetype}
    (h : ∀ c ∈ components, archetype.hasComponent c = true) :
    (components.filterMap archetype.columnIndex).map some =
      components.map archetype.columnIndex := by
  induction components with
  | nil => rfl
  | cons c components ih =>
      obtain ⟨hc, hrest⟩ := List.forall_mem_cons.1 h
      obtain ⟨col, hcol⟩ := Option.isSome_iff_exists.1 hc
      rw [List.filterMap_cons_some hcol, List.map_cons, List.map_cons, ih hrest, hcol]

theorem mem_scan {m : QueryMatch} : m ∈ scan components archetypes ↔
    ∃ archetype, archetypes[m.archetype]? = some archetype ∧
      (∀ c ∈ components, archetype.hasComponent c = true) ∧
      m.columns = components.filterMap archetype.columnIndex := by
  rw [scan, List.mem_filterMap]
  constructor
  · rintro ⟨⟨archetype, index⟩, hmem, hsome⟩
    dsimp only at hsome
    split at hsome
    · rename_i hall
      obtain rfl := Option.some.inj hsome
      exact ⟨archetype, List.mk_mem_zipIdx_iff_getElem?.1 hmem, List.all_eq_true.1 hall, rfl⟩
    · contradiction
  · rintro ⟨archetype, harchetype, hall, hcolumns⟩
    refine ⟨(archetype, m.archetype), List.mk_mem_zipIdx_iff_getElem?.2 harchetype, ?_⟩
    dsimp only
    rw [if_pos (List.all_eq_true.2 hall), ← hcolumns]

theorem ascending_scan (components : List ComponentId) (archetypes : List Archetype) :
    ((scan components archetypes).map QueryMatch.archetype).Pairwise (· < ·) := by
  have hplaces : archetypes.zipIdx.Pairwise fun a b => a.2 < b.2 := by
    have hrange := List.pairwise_lt_range' (s := 0) (n := archetypes.length)
    rwa [← List.zipIdx_map_snd, List.pairwise_map] at hrange
  rw [List.pairwise_map, scan, List.pairwise_filterMap]
  refine hplaces.imp ?_
  intro a b hab m hm m' hm'
  dsimp only at hm hm'
  split at hm
  · split at hm'
    · obtain rfl := Option.some.inj hm
      obtain rfl := Option.some.inj hm'
      exact hab
    · contradiction
  · contradiction

theorem exact_scan (components : List ComponentId) (archetypes : List Archetype) :
    Exact components archetypes (scan components archetypes) := by
  refine ⟨ascending_scan components archetypes, fun i => ?_, fun m hm => ?_⟩
  · rw [List.mem_map]
    constructor
    · rintro ⟨m, hm, rfl⟩
      obtain ⟨archetype, harchetype, hall, -⟩ := mem_scan.1 hm
      exact ⟨archetype, harchetype, hall⟩
    · rintro ⟨archetype, harchetype, hall⟩
      exact ⟨⟨i, components.filterMap archetype.columnIndex⟩,
        mem_scan.2 ⟨archetype, harchetype, hall, rfl⟩, rfl⟩
  · obtain ⟨archetype, harchetype, hall, hcolumns⟩ := mem_scan.1 hm
    refine ⟨archetype, harchetype, ?_⟩
    rw [hcolumns]
    exact map_some_filterMap_columnIndex hall

/-- The words of the matches stand in the buffer where the query says. -/
structure Stores (cache : QueryCache) (resolved : ResolvedQuery) (found : List QueryMatch) :
    Prop where
  numMatching : resolved.numMatching.toNat = found.length
  stride : ∀ m ∈ found, m.words.length = resolved.stride
  block : ∃ before after, before.length = resolved.offset.toNat ∧
    cache.data.toList = before ++ (found.flatMap QueryMatch.words ++ after)

/-- Matches of equal length are read back one by one. -/
theorem filterMap_extract (data before after : List Nat) (stride : Nat)
    (hstride : ∀ m ∈ found, m.words.length = stride)
    (hdata : data = before ++ (found.flatMap QueryMatch.words ++ after)) :
    (List.range found.length).filterMap (fun i =>
      QueryMatch.ofWords? ((data.drop (before.length + i * stride)).take stride)) = found := by
  induction found generalizing before with
  | nil => rfl
  | cons m found ih =>
      obtain ⟨hm, hfound⟩ := List.forall_mem_cons.1 hstride
      rw [List.flatMap_cons, List.append_assoc, ← List.append_assoc before] at hdata
      have hrest := ih (before ++ m.words) hfound hdata
      have hfirst : (data.drop before.length).take stride = m.words := by
        rw [hdata, List.append_assoc, List.drop_left, ← hm, List.take_left]
      rw [List.length_cons, List.range_succ_eq_map, List.filterMap_cons, Nat.zero_mul,
        Nat.add_zero, hfirst, List.filterMap_map]
      refine congrArg (m :: ·) (Eq.trans ?_ hrest)
      refine List.filterMap_congr fun i _ => ?_
      rw [Function.comp_apply, List.length_append, hm, Nat.succ_mul, Nat.add_comm (i * stride),
        Nat.add_assoc]

theorem Stores.matchesOf (h : cache.Stores resolved found) : cache.matchesOf resolved = found := by
  obtain ⟨before, after, hoffset, hdata⟩ := h.block
  have hread := filterMap_extract cache.data.toList before after resolved.stride h.stride hdata
  rw [QueryCache.matchesOf, h.numMatching]
  refine Eq.trans ?_ hread
  refine List.filterMap_congr fun i _ => ?_
  dsimp only
  rw [← hoffset, Array.toList_extract, List.extract_eq_take_drop, Nat.add_sub_cancel_left]

/-- The number of components is exact unless there are no matches to read back. -/
theorem Stores.numComponents (h : cache.Stores resolved found)
    (hexact : Exact components archetypes found) (hfound : found ≠ []) :
    resolved.numComponents.toNat = components.length := by
  obtain ⟨m, hm⟩ := List.exists_mem_of_ne_nil found hfound
  have hstride : m.columns.length + 1 = resolved.numComponents.toNat + 1 := h.stride m hm
  rw [← Nat.succ.inj hstride, hexact.length_columns hm]

/-- A block stays where it is when the buffer grows. -/
theorem Stores.append (h : cache.Stores resolved found) {words : List Nat}
    (hdata : cache'.data.toList = cache.data.toList ++ words) : cache'.Stores resolved found := by
  obtain ⟨before, after, hoffset, hblock⟩ := h.block
  refine ⟨h.numMatching, h.stride, before, after ++ words, hoffset, ?_⟩
  rw [hdata, hblock, List.append_assoc, List.append_assoc]

/-- The buffer keeps within its bound. -/
def Bounded (cache : QueryCache) : Prop := cache.data.size ≤ cache.maxData.toNat

theorem Bounded.congr (h : cache.Bounded) (hdata : cache'.data = cache.data)
    (hmax : cache'.maxData = cache.maxData) : cache'.Bounded := by
  rw [Bounded, hdata, hmax]
  exact h

theorem Bounded.toNat_offset (h : cache.Bounded) :
    (UInt32.ofNat cache.data.size).toNat = cache.data.size :=
  UInt32.toNat_ofNat_of_lt' (Nat.lt_of_le_of_lt h cache.maxData.toNat_lt)

/-- No count is cut of matches that there is room for. -/
theorem Bounded.stores (h : cache.Bounded) (hexact : Exact components archetypes found)
    (hroom : cache.data.size + (found.flatMap QueryMatch.words).length ≤ cache.maxData.toNat)
    (hdata : cache'.data.toList = cache.data.toList ++ found.flatMap QueryMatch.words) :
    cache'.Stores ⟨.ofNat cache.data.size, .ofNat found.length, .ofNat components.length⟩
      found := by
  have hwords : (found.flatMap QueryMatch.words).length < UInt32.size := by
    calc
      (found.flatMap QueryMatch.words).length ≤ cache.maxData.toNat :=
        Nat.le_trans (Nat.le_add_left _ _) hroom
      _ < UInt32.size := cache.maxData.toNat_lt_size
  obtain ⟨hmatching, hcomponents⟩ := hexact.length_lt hwords
  refine ⟨UInt32.toNat_ofNat_of_lt' hmatching, fun m hm => ?_, cache.data.toList, [], ?_, ?_⟩
  · have hexactly : (UInt32.ofNat components.length).toNat = components.length :=
      UInt32.toNat_ofNat_of_lt' (hcomponents (List.ne_nil_of_mem hm))
    rw [ResolvedQuery.stride, hexactly, ← hexact.length_columns hm]
    rfl
  · exact h.toNat_offset.symm
  · rw [List.append_nil]
    exact hdata

/-! ## Requests -/

/-- What the cache does with a request. -/
inductive Resolved (cache : QueryCache) (components : List ComponentId)
    (archetypes : List Archetype) : Except StorageError ResolvedQuery × QueryCache → Prop
  | recalls {resolved : ResolvedQuery} (hit : cache.bySignature.lookup components = some resolved) :
      Resolved cache components archetypes (.ok resolved, cache)
  | overflows {cache' : QueryCache} {e : StorageError} (hdata : cache'.data = cache.data)
      (hmax : cache'.maxData = cache.maxData) (hmemo : cache'.bySignature = cache.bySignature) :
      Resolved cache components archetypes (.error e, cache')
  | learns {resolved : ResolvedQuery} {cache' : QueryCache} {words : List Nat}
      (miss : cache.bySignature.lookup components = none)
      (hdata : cache'.data.toList = cache.data.toList ++ words)
      (hmemo : cache'.bySignature = (components, resolved) :: cache.bySignature)
      (hcomponents : resolved.numComponents = .ofNat components.length)
      (stores : cache.Bounded →
        cache'.Bounded ∧ cache'.Stores resolved (scan components archetypes)) :
      Resolved cache components archetypes (.ok resolved, cache')

theorem resolve_cases (cache : QueryCache) (components : List ComponentId)
    (archetypes : List Archetype) :
    Resolved cache components archetypes (cache.resolve components archetypes) := by
  unfold resolve
  split
  · rename_i resolved hit
    exact .recalls hit
  · rename_i miss
    dsimp only
    split
    · exact .overflows rfl rfl rfl
    · rename_i hroom
      have hdata : (cache.data ++ ((scan components archetypes).flatMap
          QueryMatch.words).toArray).toList =
            cache.data.toList ++ (scan components archetypes).flatMap QueryMatch.words := by
        rw [Array.toList_append]
      refine .learns miss hdata rfl rfl fun hbounded => ?_
      rw [hbounded.toNat_offset] at hroom
      have hroom := Nat.le_of_not_lt hroom
      refine ⟨?_, hbounded.stores (exact_scan components archetypes) hroom hdata⟩
      rw [Bounded, Array.size_append, List.size_toArray]
      exact hroom

end QueryCache
end Lockstep
