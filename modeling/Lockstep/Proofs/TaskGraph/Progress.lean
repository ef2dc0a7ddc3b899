import Lockstep.Proofs.TaskGraph.Counters
import Lockstep.TaskGraph.History

/-!
# Claims, reports and the search for work

What each operation of a task graph does, said of the counters.  A search that meets
only nodes without invocations so far leaves them as they are and starts at most one.
-/

namespace Lockstep
namespace TaskGraph

variable {η : Type}

def rewound (g : TaskGraph η) : TaskGraph η := { g with nodes := g.nodes.map Node.rewound }

theorem init_eq (g : TaskGraph η) (shared : Shared η) (trace : DeviceTrace) :
    g.init shared trace = g.rewound.advanceFrom shared trace.reset .first 0 := rfl

theorem sameSpecs_rewound (g : TaskGraph η) : SameSpecs g g.rewound :=
  SameSpecs.of_specs (by simp [specs, rewound, Node.rewound, Node.idle, Function.comp_def])

@[simp] theorem total_rewound (g : TaskGraph η) (i : Nat) : g.rewound.total i = 0 := by
  cases h : g.nodes[i]? <;> simp [total, pickup, rewound, h, Node.rewound, Node.idle]

@[simp] theorem remaining_rewound (g : TaskGraph η) (i : Nat) : g.rewound.remaining i = 0 := by
  cases h : g.nodes[i]? <;> simp [remaining, rewound, h, Node.rewound, Node.idle]

@[simp] theorem claimed_rewound (g : TaskGraph η) (i : Nat) : g.rewound.claimed i = 0 := by
  cases h : g.nodes[i]? <;> simp [claimed, rewound, h, Node.rewound, Node.idle]

theorem map_spec_scan (shared : Shared η) (stop index : Nat) (nodes : List (Node η)) :
    (scan shared stop index nodes).2.map Node.spec = nodes.map Node.spec := by
  induction nodes generalizing index with
  | nil => rfl
  | cons node rest ih =>
      simp only [scan]
      split
      · rfl
      · split
        · rfl
        · split
          · simpa [Node.skipped] using ih (index + 1)
          · rfl

theorem sameSpecs_advanceFrom (g : TaskGraph η) (shared : Shared η) (trace : DeviceTrace)
    (origin : TraceOrigin) (start : Nat) :
    SameSpecs g (g.advanceFrom shared trace origin start).2.1 := by
  have hspecs : (g.nodes.toList.take start ++
      (scan shared g.numNodes start (g.nodes.toList.drop start)).2).map Node.spec = g.specs := by
    rw [List.map_append, map_spec_scan, ← List.map_append, List.take_append_drop, specs]
  apply SameSpecs.of_specs
  rw [← hspecs]
  unfold advanceFrom
  rcases scan shared g.numNodes start (g.nodes.toList.drop start) with ⟨_ | _ | _, tail⟩ <;>
    simp [specs]

theorem sameSpecs_claim {g g' : TaskGraph η} {id : NodeId} {batch base : UInt32}
    (h : g.claim id batch = .ok (base, g')) : SameSpecs g g' := by
  unfold claim at h
  cases hnode : g.node id with
  | error fault => simp [hnode, bind, Except.bind] at h
  | ok node =>
      simp only [hnode, bind, Except.bind, pure, Except.pure, Except.ok.injEq, Prod.mk.injEq] at h
      rw [← h.2]
      exact SameSpecs.put (getElem?_of_node hnode) rfl

theorem sameSpecs_init {g g' : TaskGraph η} {shared : Shared η} {trace trace' : DeviceTrace}
    {result : Except Fault Unit} (h : g.init shared trace = (result, g', trace')) :
    SameSpecs g g' := by
  obtain rfl : (g.init shared trace).2.1 = g' := by rw [h]
  rw [init_eq]
  exact (sameSpecs_rewound g).trans (sameSpecs_advanceFrom _ _ _ _ _)

theorem sameSpecs_report {g g' : TaskGraph η} {shared : Shared η} {trace trace' : DeviceTrace}
    {id : NodeId} {finished : UInt32} {origin : TraceOrigin} {result : Except Fault Bool}
    (h : g.report shared trace id finished origin = (result, g', trace')) : SameSpecs g g' := by
  obtain rfl : (g.report shared trace id finished origin).2.1 = g' := by rw [h]
  unfold report
  split
  · exact .refl g
  · split
    · exact .refl g
    · rename_i node hnode
      have hput :
          SameSpecs g (g.put id.index { node with remaining := node.remaining - finished }) :=
        SameSpecs.put (getElem?_of_node hnode) rfl
      dsimp only
      split
      · exact hput
      · split
        · exact hput
        · exact hput.trans (sameSpecs_advanceFrom _ _ _ _ _)

theorem sameSpecs_perform (g : TaskGraph η) (call : GraphCall η) :
    SameSpecs g (g.perform call).2 := by
  cases call with
  | claim id batch =>
      cases hclaim : g.claim id batch with
      | error fault =>
          rw [perform, hclaim]
      | ok result =>
          rw [perform, hclaim]
          exact sameSpecs_claim hclaim
  | report shared trace id finished origin => exact sameSpecs_report rfl

/-! ## Claims -/

/-- What a claim of `batch` offsets that answered `base` did to the graph. -/
structure Claim (g : TaskGraph η) (id : NodeId) (batch base : UInt32) (g' : TaskGraph η) :
    Prop where
  base_eq : base.toNat = min (g.claimed id.index) (2 ^ 32 - 1)
  cursor : g'.cursor = g.cursor
  specs : SameSpecs g g'
  pickup : ∀ i, g'.pickup i = g.pickup i
  remaining : ∀ i, g'.remaining i = g.remaining i
  claimed : ∀ i, g'.claimed i =
    if i = id.index then (g.claimed i + batch.toNat) % 2 ^ 64 else g.claimed i

theorem claim_of_lt (g : TaskGraph η) (id : NodeId) (batch : UInt32)
    (h : id.index < g.nodes.size) :
    ∃ base g', g.claim id batch = .ok (base, g') ∧ Claim g id batch base g' := by
  obtain ⟨node, hnode⟩ := exists_node h
  have hclaimed : g.claimed id.index = node.claimed.toNat := by simp [claimed, hnode]
  refine ⟨if node.claimed.toNat < Word.size32 then node.claimed.toUInt32
      else UInt32.ofNat (Word.size32 - 1),
    g.put id.index { node with claimed := node.claimed + batch.toUInt64 }, ?_, ?_⟩
  · unfold claim
    rw [node_eq_ok hnode]
    rfl
  · refine ⟨?_, rfl, SameSpecs.put hnode rfl, fun i => pickup_put_of_total_eq hnode i rfl rfl,
      fun i => ?_, fun i => ?_⟩
    · rw [hclaimed]
      split
      · rename_i hlt
        have hlt : node.claimed.toNat < 2 ^ 32 := hlt
        rw [UInt64.toNat_toUInt32, Nat.mod_eq_of_lt hlt]
        omega
      · rename_i hle
        have hle : ¬ node.claimed.toNat < 2 ^ 32 := hle
        change 2 ^ 32 - 1 = _
        omega
    · rw [remaining_put hnode]
      split
      · rename_i hi
        simp [hi, remaining, hnode]
      · rfl
    · rw [claimed_put hnode]
      split
      · rename_i hi
        rw [hi, hclaimed, UInt64.toNat_add, UInt32.toNat_toUInt64]
      · rfl

theorem size_le_of_claim {g : TaskGraph η} {id : NodeId} {batch : UInt32} {fault : Fault}
    (h : g.claim id batch = .error fault) : g.nodes.size ≤ id.index := by
  by_contra hlt
  obtain ⟨base, g', hclaim, _⟩ := claim_of_lt g id batch (Nat.lt_of_not_le hlt)
  rw [h] at hclaim
  exact absurd hclaim (by simp)

/-! ## The search for work -/

/-- The nodes whose counts a search for work asks for, from the nodes alone. -/
def asked (shared : Shared η) (stop : Nat) : (index : Nat) → (nodes : List (Node η)) → List Nat
  | _, [] => []
  | index, node :: rest =>
      if stop ≤ index then []
      else
        (if node.spec.isDynamic && node.spec.data.hasCount then [index] else []) ++
          match node.spec.resolve ⟨UInt32.ofNat index⟩ shared with
          | .ok count => if count = 0 then asked shared stop (index + 1) rest else []
          | .error _ => []

def resolveNoting (s : NodeSpec η) (index : Nat) (shared : Shared η) :
    Except Fault UInt32 × List Nat :=
  if s.isDynamic then
    match s.data.count with
    | none => (.error (.missingCount (UInt32.ofNat index)), [])
    | some count =>
        let n := count shared
        (if 0 ≤ n ∧ n < Word.size32 then .ok (UInt32.ofNat n.toNat)
          else .error (.invalidCount (UInt32.ofNat index) n), [index])
  else (.ok s.fixedCount, [])

/-- The search for work, with a note for each call of an accessor. -/
def scanNoting (shared : Shared η) (stop : Nat) : (index : Nat) → (nodes : List (Node η)) →
    (Except Fault (Option NodeStart) × List (Node η)) × List Nat
  | _, [] => ((.ok none, []), [])
  | index, node :: rest =>
      if stop ≤ index then ((.ok none, node :: rest), [])
      else
        match resolveNoting node.spec index shared with
        | (.error fault, notes) => ((.error fault, node :: rest), notes)
        | (.ok count, notes) =>
            if count = 0 then
              let ((found, rest), later) := scanNoting shared stop (index + 1) rest
              ((found, node.skipped :: rest), notes ++ later)
            else ((.ok (some ⟨index, node.spec.func, count⟩), node.started count :: rest), notes)

theorem resolveNoting_eq (s : NodeSpec η) (index : Nat) (shared : Shared η) :
    resolveNoting s index shared = (s.resolve ⟨UInt32.ofNat index⟩ shared,
      if s.isDynamic && s.data.hasCount then [index] else []) := by
  unfold resolveNoting NodeSpec.resolve NodeData.dynamicCount NodeData.hasCount
  split
  · rename_i hdynamic
    cases hcount : s.data.count <;> simp [hdynamic]
  · rename_i hfixed
    simp [hfixed]

/-- The search for work calls the accessors that `asked` lists, in this order and each of
them once. -/
theorem scanNoting_eq (shared : Shared η) (stop index : Nat) (nodes : List (Node η)) :
    scanNoting shared stop index nodes =
      (scan shared stop index nodes, asked shared stop index nodes) := by
  induction nodes generalizing index with
  | nil => rfl
  | cons node rest ih =>
      simp only [scanNoting, scan, asked, resolveNoting_eq]
      split
      · rfl
      · cases hresolve : node.spec.resolve ⟨UInt32.ofNat index⟩ shared with
        | error fault => simp
        | ok count => by_cases hcount : count = 0 <;> simp [hcount, ih]

/-- A search that finds work ends at a node that it has just started. -/
theorem scan_found {shared : Shared η} {stop index : Nat} {nodes tail : List (Node η)}
    {s : NodeStart} (h : scan shared stop index nodes = (.ok (some s), tail)) :
    ∃ (i : Nat) (node : Node η), s.index = index + i ∧ index + i < stop ∧ s.func = node.spec.func ∧
      tail[i]? = some (node.started s.count) := by
  induction nodes generalizing index tail with
  | nil => simp [scan] at h
  | cons node rest ih =>
      unfold scan at h
      split at h
      · simp at h
      · rename_i hstop
        split at h
        · simp at h
        · rename_i count hcount
          split at h
          · rcases hrest : scan shared stop (index + 1) rest with ⟨found, tail'⟩
            rw [hrest] at h
            obtain ⟨rfl, rfl⟩ := Prod.mk.inj h
            obtain ⟨i, node', hs, hlt, hfunc, hnode'⟩ := ih hrest
            exact ⟨i + 1, node', by omega, by omega, hfunc, hnode'⟩
          · obtain ⟨hs, rfl⟩ := Prod.mk.inj h
            obtain rfl := Option.some.inj (Except.ok.inj hs)
            exact ⟨0, node, rfl, Nat.lt_of_not_le hstop, rfl, rfl⟩

theorem getElem?_drop_nodes (g : TaskGraph η) (start k : Nat) :
    (g.nodes.toList.drop start)[k]? = g.nodes[start + k]? := by
  rw [List.getElem?_drop, Array.getElem?_toList]

theorem getElem?_take_append (g : TaskGraph η) {start : Nat} (hstart : start ≤ g.nodes.size)
    (tail : List (Node η)) (k : Nat) :
    (g.nodes.toList.take start ++ tail).toArray[start + k]? = tail[k]? := by
  have hlength : (g.nodes.toList.take start).length = start := by
    rw [List.length_take, Array.length_toList]
    omega
  rw [List.getElem?_toArray, List.getElem?_append_right (by omega), hlength,
    Nat.add_sub_cancel_left]

/-- A search that ends well has found nothing, or a node that it has just started. -/
theorem advanceFrom_ok {g g' : TaskGraph η} {shared : Shared η} {trace trace' : DeviceTrace}
    {origin : TraceOrigin} {start : Nat}
    (h : g.advanceFrom shared trace origin start = (.ok (), g', trace'))
    (hstart : start ≤ g.numNodes) :
    (g'.cursor.toNat = g.numNodes ∧ trace' = trace) ∨
    ∃ (node : Node η) (count : UInt32), g'.cursor.toNat < g.numNodes ∧
      g'.nodes[g'.cursor.toNat]? = some (node.started count) ∧
      trace' = trace.record .nodeStart node.spec.func count ⟨g'.cursor⟩ origin := by
  have hsize := g.numNodes_le
  unfold advanceFrom at h
  rcases hscan : scan shared g.numNodes start (g.nodes.toList.drop start) with ⟨_ | _ | s, tail⟩
  · simp [hscan] at h
  · simp only [hscan, Prod.mk.injEq, true_and] at h
    obtain ⟨rfl, rfl⟩ := h
    refine .inl ⟨?_, rfl⟩
    rw [Nat.max_eq_right hstart]
    exact UInt32.toNat_ofNat_of_lt' g.numNodes_lt
  · obtain ⟨i, node, hs, hlt, hfunc, hnode⟩ := scan_found hscan
    simp only [hscan, Prod.mk.injEq, true_and] at h
    obtain ⟨rfl, rfl⟩ := h
    have hcursor : (UInt32.ofNat s.index).toNat = start + i := by
      rw [hs, UInt32.toNat_ofNat_of_lt' (hlt.trans g.numNodes_lt)]
    refine .inr ⟨node, s.count, hcursor.trans_lt hlt, ?_, by rw [hfunc]⟩
    rw [hcursor, getElem?_take_append g (hstart.trans hsize), hnode]

def Passed (shared : Shared η) (index : Nat) (nodes : List (Node η)) (m : Nat) : Prop :=
  ∀ k < m, ∀ node, nodes[k]? = some node →
    node.spec.resolve ⟨UInt32.ofNat (index + k)⟩ shared = .ok 0

theorem Passed.cons {shared : Shared η} {index m : Nat} {node : Node η} {nodes : List (Node η)}
    (hnode : node.spec.resolve ⟨UInt32.ofNat index⟩ shared = .ok 0)
    (h : Passed shared (index + 1) nodes m) : Passed shared index (node :: nodes) (m + 1) := by
  intro k hk other hother
  cases k with
  | zero =>
      obtain rfl : node = other := by simpa using hother
      exact hnode
  | succ k =>
      rw [← Nat.add_assoc, Nat.add_right_comm]
      exact h k (Nat.lt_of_succ_lt_succ hk) other (by simpa using hother)

/-- How a search among nodes without invocations ends: behind the last node, at a node
that it starts, or at a node whose count cannot be had.  `counted` tells the nodes with
an accessor for their count. -/
inductive ScanEnd (shared : Shared η) (stop index : Nat) (nodes : List (Node η))
    (counted : Nat → Bool) : Prop where
  | nothing (hpassed : Passed shared index nodes (stop - index))
      (hscan : scan shared stop index nodes = (.ok none, nodes))
      (hasked : asked shared stop index nodes =
        (List.range' index (stop - index)).filter counted)
  | starts (m : Nat) (node : Node η) (count : UInt32) (hpassed : Passed shared index nodes m)
      (hnode : nodes[m]? = some node) (hm : index + m < stop) (hcount : count ≠ 0)
      (hresolve : node.spec.resolve ⟨UInt32.ofNat (index + m)⟩ shared = .ok count)
      (hscan : scan shared stop index nodes =
        (.ok (some ⟨index + m, node.spec.func, count⟩), nodes.set m (node.started count)))
      (hasked : asked shared stop index nodes = (List.range' index (m + 1)).filter counted)
  | faults (m : Nat) (node : Node η) (fault : Fault) (hpassed : Passed shared index nodes m)
      (hnode : nodes[m]? = some node) (hm : index + m < stop)
      (hresolve : node.spec.resolve ⟨UInt32.ofNat (index + m)⟩ shared = .error fault)
      (hscan : scan shared stop index nodes = (.error fault, nodes))
      (hasked : asked shared stop index nodes = (List.range' index (m + 1)).filter counted)

theorem skipped_of_total_eq_zero {node : Node η} (h : node.total = 0) : node.skipped = node := by
  cases node
  simp_all [Node.skipped]

/-- A search goes on behind a node that counts nothing. -/
theorem ScanEnd.cons {shared : Shared η} {stop index : Nat} {counted : Nat → Bool} {node : Node η}
    {rest : List (Node η)} (hlt : index < stop) (hzero : node.total = 0)
    (hresolve : node.spec.resolve ⟨UInt32.ofNat index⟩ shared = .ok 0)
    (hcounted : counted index = (node.spec.isDynamic && node.spec.data.hasCount))
    (h : ScanEnd shared stop (index + 1) rest counted) :
    ScanEnd shared stop index (node :: rest) counted := by
  have hstop : ¬ stop ≤ index := Nat.not_le.2 hlt
  have hskip := skipped_of_total_eq_zero hzero
  have hasked : asked shared stop index (node :: rest) =
      [index].filter counted ++ asked shared stop (index + 1) rest := by
    simp [asked, hstop, hresolve, List.filter_cons, hcounted]
  have hgo : ∀ n, (List.range' index (n + 1)).filter counted =
      [index].filter counted ++ (List.range' (index + 1) n).filter counted := by
    intro n
    rw [List.range'_succ, ← List.filter_append]
    rfl
  cases h with
  | nothing hpassed hscan hasked' =>
      have hsucc : stop - index = stop - (index + 1) + 1 := by omega
      refine .nothing ?_ (by simp [scan, hstop, hresolve, hscan, hskip]) ?_
      · rw [hsucc]
        exact hpassed.cons hresolve
      · rw [hasked, hasked', hsucc, hgo]
  | starts m n count hpassed hn hm hcount hresolve' hscan hasked' =>
      refine .starts (m + 1) n count (hpassed.cons hresolve) (by simpa using hn)
        (by omega) hcount (by rwa [← Nat.add_assoc, Nat.add_right_comm]) ?_ ?_
      · simp [scan, hstop, hresolve, hscan, hskip, Nat.add_assoc, Nat.add_comm 1]
      · rw [hasked, hasked', ← hgo]
  | faults m n fault hpassed hn hm hresolve' hscan hasked' =>
      refine .faults (m + 1) n fault (hpassed.cons hresolve) (by simpa using hn)
        (by omega) (by rwa [← Nat.add_assoc, Nat.add_right_comm]) ?_ ?_
      · simp [scan, hstop, hresolve, hscan, hskip]
      · rw [hasked, hasked', ← hgo]

theorem scan_end (shared : Shared η) (stop : Nat) (counted : Nat → Bool) (nodes : List (Node η)) :
    ∀ index, stop ≤ index + nodes.length → (∀ node ∈ nodes, node.total = 0) →
      (∀ k node, nodes[k]? = some node →
        counted (index + k) = (node.spec.isDynamic && node.spec.data.hasCount)) →
      ScanEnd shared stop index nodes counted := by
  induction nodes with
  | nil =>
      intro index hlen _ _
      have hlen : stop - index = 0 := by simpa [Nat.sub_eq_zero_iff_le] using hlen
      exact .nothing (fun k hk => by omega) rfl (by simp [asked, hlen])
  | cons node rest ih =>
      intro index hlen hzero hcounted
      by_cases hstop : stop ≤ index
      · have hlen : stop - index = 0 := Nat.sub_eq_zero_of_le hstop
        exact .nothing (fun k hk => by omega) (by simp [scan, hstop])
          (by simp [asked, hstop, hlen])
      have hhere : counted index = (node.spec.isDynamic && node.spec.data.hasCount) :=
        hcounted 0 node rfl
      have hrest := ih (index + 1) (by simp only [List.length_cons] at hlen; omega)
        (fun n hn => hzero n (List.mem_cons_of_mem _ hn)) fun k n hk => by
          rw [Nat.add_right_comm, Nat.add_assoc]
          exact hcounted (k + 1) n (by simpa using hk)
      cases hresolve : node.spec.resolve ⟨UInt32.ofNat index⟩ shared with
      | error fault =>
          refine .faults 0 node fault (fun k hk => absurd hk (Nat.not_lt_zero k)) rfl (by omega)
            hresolve ?_ ?_
          · simp [scan, hstop, hresolve]
          · simp [asked, hstop, hresolve, List.filter_cons, hhere]
      | ok count =>
          by_cases hcount : count = 0
          · subst hcount
            exact hrest.cons (Nat.lt_of_not_le hstop) (hzero node (List.mem_cons_self ..)) hresolve
              hhere
          · refine .starts 0 node count (fun k hk => absurd hk (Nat.not_lt_zero k)) rfl (by omega)
              hcount hresolve ?_ ?_
            · simp [scan, hstop, hresolve, hcount]
            · simp [asked, hstop, hresolve, hcount, List.filter_cons, hhere]

/-- The calls of accessors that the search for work from `start` on notes. -/
def askedFrom (g : TaskGraph η) (shared : Shared η) (start : Nat) : List Nat :=
  (scanNoting shared g.numNodes start (g.nodes.toList.drop start)).2

theorem askedFrom_eq (g : TaskGraph η) (shared : Shared η) (start : Nat) :
    g.askedFrom shared start = asked shared g.numNodes start (g.nodes.toList.drop start) := by
  rw [askedFrom, scanNoting_eq]

/-- Whether the total of the node at an index is its count at a moment. -/
def ResolvedIn (g : TaskGraph η) (shared : Shared η) (i : Nat) : Prop :=
  ∀ node, g.nodes[i]? = some node →
    node.spec.resolve ⟨UInt32.ofNat i⟩ shared = .ok node.total

def IsResolved (g : TaskGraph η) (i : Nat) : Prop :=
  ∀ node, g.nodes[i]? = some node →
    ∃ shared, node.spec.resolve ⟨UInt32.ofNat i⟩ shared = .ok node.total

theorem ResolvedIn.isResolved {g : TaskGraph η} {shared : Shared η} {i : Nat}
    (h : g.ResolvedIn shared i) : g.IsResolved i :=
  fun node hnode => ⟨shared, h node hnode⟩

theorem ResolvedIn.put {g : TaskGraph η} {shared : Shared η} {last i : Nat} {node old : Node η}
    (hold : g.nodes[last]? = some old)
    (hnode : node.spec.resolve ⟨UInt32.ofNat last⟩ shared = .ok node.total)
    (h : i ≠ last → g.ResolvedIn shared i) : (g.put last node).ResolvedIn shared i := by
  intro other hother
  rw [getElem?_put hold] at hother
  split at hother
  · rename_i heq
    obtain rfl := Option.some.inj hother
    rw [heq]
    exact hnode
  · rename_i hne
    exact h hne other hother

/-- A search for work ended at the index `last`: it made that node current, or it found
none and `last` is the number of nodes. -/
structure Advanced (g : TaskGraph η) (start last : Nat) (g' : TaskGraph η) : Prop where
  specs : SameSpecs g g'
  cursor : g'.cursor.toNat = last
  start_le : start ≤ last
  last_le : last ≤ g.numNodes
  pickup : ∀ i, i ≠ last ∨ last = g.numNodes → g'.pickup i = g.pickup i
  remaining : ∀ i, i ≠ last ∨ last = g.numNodes → g'.remaining i = g.remaining i
  claimed : ∀ i, i ≠ last ∨ last = g.numNodes → g'.claimed i = g.claimed i
  fresh : last < g.numNodes →
    0 < g'.total last ∧ g'.remaining last = g'.total last ∧ g'.claimed last = 0
  resolved : ∀ i, start ≤ i → i ≤ last → i < g.numNodes → g'.IsResolved i

theorem Advanced.of_nothing {g : TaskGraph η} {shared : Shared η} {start : Nat}
    (hstart : start ≤ g.numNodes)
    (hresolved : ∀ i, start ≤ i → i < g.numNodes → g.ResolvedIn shared i) :
    Advanced g start g.numNodes { g with cursor := UInt32.ofNat g.numNodes } := by
  have hcursor := UInt32.toNat_ofNat_of_lt' g.numNodes_lt
  exact ⟨⟨rfl, fun _ => rfl⟩, hcursor, hstart, Nat.le_refl _, fun _ _ => rfl, fun _ _ => rfl,
    fun _ _ => rfl, fun h => absurd h (Nat.lt_irrefl _),
    fun i hi _ hN => (hresolved i hi hN).isResolved⟩

theorem Advanced.of_started {g : TaskGraph η} {shared : Shared η} {start last : Nat}
    {node : Node η} {count : UInt32} (hstart : start ≤ last) (hlast : last < g.numNodes)
    (hnode : g.nodes[last]? = some node) (hcount : count ≠ 0)
    (hresolved : ∀ i, start ≤ i → i ≤ last →
      (g.put last (node.started count)).ResolvedIn shared i) :
    Advanced g start last
      { g.put last (node.started count) with cursor := UInt32.ofNat last } := by
  have hcount : 0 < count.toNat := Nat.pos_of_ne_zero fun h => hcount (UInt32.toNat_inj.1 h)
  have hspecs : SameSpecs g (g.put last (node.started count)) := SameSpecs.put hnode rfl
  have hp : ∀ i, (g.put last (node.started count)).pickup i =
      if i = last then { g.pickup last with total := count } else g.pickup i :=
    fun i => pickup_put hnode i rfl
  have hr : ∀ i, (g.put last (node.started count)).remaining i =
      if i = last then count.toNat else g.remaining i := fun i => remaining_put hnode i
  have hc : ∀ i, (g.put last (node.started count)).claimed i =
      if i = last then 0 else g.claimed i := fun i => claimed_put hnode i
  have ht : (g.put last (node.started count)).total last = count.toNat := by
    rw [total, hp, if_pos rfl]
  have hne : ∀ {i}, i ≠ last ∨ last = g.numNodes → i ≠ last := by omega
  exact ⟨⟨hspecs.size, hspecs.spec⟩, UInt32.toNat_ofNat_of_lt' (hlast.trans g.numNodes_lt),
    hstart, hlast.le, fun i hi => (hp i).trans (if_neg (hne hi)),
    fun i hi => (hr i).trans (if_neg (hne hi)),
    fun i hi => (hc i).trans (if_neg (hne hi)), fun _ => ⟨hcount.trans_eq ht.symm,
      ((hr _).trans (if_pos rfl)).trans ht.symm, (hc _).trans (if_pos rfl)⟩,
    fun i hi hle _ => (hresolved i hi hle).isResolved⟩

theorem take_append_set_drop (g : TaskGraph η) (start m : Nat) (node : Node η) :
    (g.nodes.toList.take start ++ (g.nodes.toList.drop start).set m node).toArray =
      (g.put (start + m) node).nodes := by
  apply Array.toList_inj.1
  rw [List.set_drop, ← List.take_set_of_le (Nat.le_add_right start m), List.take_append_drop]
  simp [put]

/-- The nodes that a search has passed over have the count zero, which is their total. -/
theorem Passed.resolvedIn {g : TaskGraph η} {shared : Shared η} {start m : Nat}
    (h : Passed shared start (g.nodes.toList.drop start) m)
    (hzero : ∀ i, start ≤ i → g.total i = 0) {i : Nat} (hi : start ≤ i) (him : i < start + m) :
    g.ResolvedIn shared i := by
  intro node hnode
  obtain ⟨k, rfl⟩ := Nat.exists_eq_add_of_le hi
  have htotal : node.total = 0 :=
    UInt32.toNat_inj.1 ((total_of_getElem? hnode).symm.trans (hzero _ hi))
  rw [htotal]
  exact h k (by omega) node (by rw [getElem?_drop_nodes, hnode])

/-- Looking for work behind the nodes in use either moves the cursor or faults, and a
fault leaves the graph alone.  The nodes looked at have the counts of this moment. -/
theorem advanceFrom_cases (g : TaskGraph η) (shared : Shared η) (trace : DeviceTrace)
    (origin : TraceOrigin) {start : Nat} (hstart : start ≤ g.numNodes)
    (hzero : ∀ i, start ≤ i → g.total i = 0) :
    (∃ g' trace' last, g.advanceFrom shared trace origin start = (.ok (), g', trace') ∧
      Advanced g start last g' ∧
      (∀ i, start ≤ i → i ≤ last → i < g.numNodes → g'.ResolvedIn shared i) ∧
      g.askedFrom shared start =
        (List.range' start (min (last + 1) g.numNodes - start)).filter g.isCounted) ∨
    ∃ fault j node, g.advanceFrom shared trace origin start = (.error fault, g, trace) ∧
      start ≤ j ∧ j < g.numNodes ∧ (∀ i, start ≤ i → i < j → g.ResolvedIn shared i) ∧
      g.nodes[j]? = some node ∧ node.spec.resolve ⟨UInt32.ofNat j⟩ shared = .error fault ∧
      g.askedFrom shared start = (List.range' start (j + 1 - start)).filter g.isCounted := by
  have hsize := g.numNodes_le
  have hscan := scan_end shared g.numNodes g.isCounted (g.nodes.toList.drop start) start
    (by simp only [List.length_drop, Array.length_toList]; omega)
    (by
      intro node hnode
      obtain ⟨k, hk⟩ := List.mem_iff_getElem?.1 hnode
      rw [getElem?_drop_nodes] at hk
      exact UInt32.toNat_inj.1 ((total_of_getElem? hk).symm.trans (hzero _ (Nat.le_add_right _ _))))
    (by
      intro k node hk
      rw [getElem?_drop_nodes] at hk
      rw [isCounted, hk])
  have hsame : (g.nodes.toList.take start ++ g.nodes.toList.drop start).toArray = g.nodes := by
    rw [List.take_append_drop, Array.toArray_toList]
  cases hscan with
  | nothing hpassed hscan hasked =>
      have hresolved : ∀ i, start ≤ i → i < g.numNodes → g.ResolvedIn shared i :=
        fun i hi hN => hpassed.resolvedIn hzero hi (by omega)
      refine .inl ⟨{ g with cursor := UInt32.ofNat g.numNodes }, trace, g.numNodes, ?_,
        .of_nothing hstart hresolved, fun i hi _ hN => hresolved i hi hN, ?_⟩
      · simp only [advanceFrom, hscan, hsame, Nat.max_eq_right hstart]
      · rw [askedFrom_eq, hasked]
        congr 2
        omega
  | starts m node count hpassed hnode hm hcount hresolve hscan hasked =>
      rw [getElem?_drop_nodes] at hnode
      have hresolved : ∀ i, start ≤ i → i ≤ start + m →
          (g.put (start + m) (node.started count)).ResolvedIn shared i :=
        fun i hi hle => .put hnode hresolve fun hne => hpassed.resolvedIn hzero hi (by omega)
      refine .inl ⟨{ g.put (start + m) (node.started count) with
        cursor := UInt32.ofNat (start + m) },
        trace.record .nodeStart node.spec.func count ⟨UInt32.ofNat (start + m)⟩ origin,
        start + m, ?_, .of_started (Nat.le_add_right _ _) hm hnode hcount hresolved,
        fun i hi hle _ => hresolved i hi hle, ?_⟩
      · simp only [advanceFrom, hscan, take_append_set_drop]
      · rw [askedFrom_eq, hasked]
        congr 2
        omega
  | faults m node fault hpassed hnode hm hresolve hscan hasked =>
      rw [getElem?_drop_nodes] at hnode
      refine .inr ⟨fault, start + m, node, ?_, Nat.le_add_right _ _, hm,
        fun i hi him => hpassed.resolvedIn hzero hi him, hnode, hresolve, ?_⟩
      · simp only [advanceFrom, hscan, hsame]
      · rw [askedFrom_eq, hasked]
        congr 2
        omega

/-! ## Reports -/

structure Lowered (g : TaskGraph η) (i finished : Nat) (g' : TaskGraph η) : Prop where
  specs : SameSpecs g g'
  cursor : g'.cursor = g.cursor
  pickup : ∀ j, g'.pickup j = g.pickup j
  claimed : ∀ j, g'.claimed j = g.claimed j
  remaining : ∀ j, g'.remaining j = if j = i then g.remaining i - finished else g.remaining j

theorem Lowered.of_put {g : TaskGraph η} {i : Nat} {node : Node η} {finished : UInt32}
    (hnode : g.nodes[i]? = some node) (hle : finished ≤ node.remaining) :
    Lowered g i finished.toNat
      (g.put i { node with remaining := node.remaining - finished }) := by
  refine ⟨SameSpecs.put hnode rfl, rfl, fun j => pickup_put_of_total_eq hnode j rfl rfl,
    fun j => ?_, fun j => ?_⟩
  · rw [claimed_put hnode]
    split
    · rename_i hj
      simp [hj, TaskGraph.claimed, hnode]
    · rfl
  · have hremaining : g.remaining i = node.remaining.toNat := by
      rw [TaskGraph.remaining, hnode]
    rw [remaining_put hnode, UInt32.toNat_sub_of_le _ _ hle, hremaining]

/-- A report that ends well leaves the trace alone, or it retires the node and searches for
work behind it. -/
theorem report_ok {g g' : TaskGraph η} {shared : Shared η} {trace trace' : DeviceTrace}
    {id : NodeId} {finished : UInt32} {origin : TraceOrigin} {retired : Bool}
    (h : g.report shared trace id finished origin = (.ok retired, g', trace')) :
    (retired = false ∧ trace' = trace ∧
      (finished.toNat = 0 ∨ finished.toNat ≠ g.remaining id.index)) ∨
    (retired = true ∧ 0 < finished.toNat ∧ finished.toNat = g.remaining id.index ∧
      ∃ node low, g.nodes[id.index]? = some node ∧ SameSpecs g low ∧
        low.advanceFrom shared (trace.record .nodeFinish node.spec.func node.total id origin) origin
          (id.index + 1) = (.ok (), g', trace')) := by
  unfold report at h
  split at h
  · rename_i hzero
    obtain ⟨hresult, hrest⟩ := Prod.mk.inj h
    obtain ⟨-, rfl⟩ := Prod.mk.inj hrest
    exact .inl ⟨(Except.ok.inj hresult).symm, rfl, .inl (congrArg UInt32.toNat hzero)⟩
  rename_i hpos
  split at h
  · simp at h
  rename_i node hnode
  have hget := getElem?_of_node hnode
  have hremaining : g.remaining id.index = node.remaining.toNat := by simp [remaining, hget]
  dsimp only at h
  split at h
  · simp at h
  split at h
  · rename_i hne
    obtain ⟨hresult, hrest⟩ := Prod.mk.inj h
    obtain ⟨-, rfl⟩ := Prod.mk.inj hrest
    refine .inl ⟨(Except.ok.inj hresult).symm, rfl, .inr fun heq => hne ?_⟩
    exact UInt32.toNat_inj.1 (hremaining.symm.trans heq.symm)
  · rename_i hall
    have hall := Decidable.not_not.1 hall
    have hsame : SameSpecs g (g.put id.index { node with remaining := node.remaining - finished }) :=
      .put hget rfl
    generalize hlow : g.put id.index { node with remaining := node.remaining - finished } = low at hsame
    simp only [put] at hlow
    rw [hlow] at h
    rcases hfound : low.advanceFrom shared
        (trace.record .nodeFinish node.spec.func node.total id origin) origin (id.index + 1)
      with ⟨_ | _, next, trace₂⟩
    · simp [hfound, Except.map] at h
    · rw [hfound] at h
      obtain ⟨hresult, hrest⟩ := Prod.mk.inj h
      obtain ⟨rfl, rfl⟩ := Prod.mk.inj hrest
      exact .inr ⟨(Except.ok.inj hresult).symm,
        Nat.pos_of_ne_zero fun hzero => hpos (UInt32.toNat_inj.1 hzero), by rw [hremaining, hall],
        node, low, hget, hsame, hfound⟩

def askedBy (g : TaskGraph η) (shared : Shared η) (id : NodeId) (finished : UInt32) : List Nat :=
  if finished = 0 then []
  else
    match g.node id with
    | .error _ => []
    | .ok node =>
        if node.remaining = finished then
          (g.put id.index { node with remaining := node.remaining - finished }).askedFrom shared
            (id.index + 1)
        else []

theorem report_zero (g : TaskGraph η) (shared : Shared η) (trace : DeviceTrace) (id : NodeId)
    (origin : TraceOrigin) :
    g.report shared trace id 0 origin = (.ok false, g, trace) ∧ g.askedBy shared id 0 = [] :=
  ⟨rfl, rfl⟩

/-- A report of no more than remains lowers the remaining count, and looks for the next
node with work when nothing remains. -/
theorem report_of_le (g : TaskGraph η) (shared : Shared η) (trace : DeviceTrace) (id : NodeId)
    (origin : TraceOrigin) {finished : UInt32} (h : id.index < g.nodes.size)
    (hpos : 0 < finished.toNat) (hle : finished.toNat ≤ g.remaining id.index) :
    ∃ g', Lowered g id.index finished.toNat g' ∧
      (finished.toNat < g.remaining id.index →
        g.report shared trace id finished origin = (.ok false, g', trace) ∧
          g.askedBy shared id finished = []) ∧
      (finished.toNat = g.remaining id.index →
        (∃ node, g.nodes[id.index]? = some node ∧ g.report shared trace id finished origin =
          let (result, next, trace) := g'.advanceFrom shared
            (trace.record .nodeFinish node.spec.func node.total id origin) origin (id.index + 1)
          (result.map fun _ => true, next, trace)) ∧
        g.askedBy shared id finished = g'.askedFrom shared (id.index + 1)) := by
  obtain ⟨node, hnode⟩ := exists_node h
  have hremaining : g.remaining id.index = node.remaining.toNat := by simp [remaining, hnode]
  rw [hremaining] at hle ⊢
  have hfinished : finished ≠ 0 := by
    rintro rfl
    exact absurd hpos (Nat.lt_irrefl 0)
  have hover : ¬ node.remaining < finished := by
    rw [UInt32.lt_iff_toNat_lt]
    omega
  refine ⟨g.put id.index { node with remaining := node.remaining - finished },
    .of_put hnode (UInt32.le_iff_toNat_le.2 hle), ?_, ?_⟩
  · intro hlt
    have hne : node.remaining ≠ finished := by
      rintro rfl
      exact absurd hlt (Nat.lt_irrefl _)
    refine ⟨?_, by simp only [askedBy, if_neg hfinished, node_eq_ok hnode, if_neg hne]⟩
    simp only [report, if_neg hfinished, node_eq_ok hnode, if_neg hover, ne_eq, hne,
      not_false_eq_true, if_true]
    rfl
  · intro heq
    obtain rfl : finished = node.remaining := UInt32.toNat_inj.1 heq
    refine ⟨⟨node, hnode, ?_⟩,
      by simp only [askedBy, if_neg hfinished, node_eq_ok hnode, if_true]⟩
    simp only [report, if_neg hfinished, node_eq_ok hnode, if_neg hover, ne_eq,
      not_true_eq_false, if_false]
    rfl

end TaskGraph
end Lockstep
