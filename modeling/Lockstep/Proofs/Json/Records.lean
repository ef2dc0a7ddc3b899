import Lockstep.Proofs.Json.Scalars
import Mathlib.Data.List.Nodup

/-!
# Records read back

A record is written with its fields in order and read one member after another.  Each member
brings the record that is being read one field closer to the one that was written.
-/

namespace Lockstep
namespace Json
namespace RecordForm

variable {α : Type} {form : RecordForm α} {fields : List (Field α)} {field : Field α} {a a' b : α}
  {fuel : Nat} {first : Bool} {seen : List String} {cs rest : List Char}

theorem readMembers_close (hnext : nextMember first cs = .ok (.close rest))
    (hend : form.mayEnd seen = true) :
    form.readMembers (fuel + 1) first seen a cs = .ok (a, rest) := by
  simp only [readMembers, hnext, bind, Except.bind, hend, if_true]
  rfl

/-- A known member that comes for the first time is taken over. -/
theorem readMembers_key {key afterKey value tail : List Char}
    (hnext : nextMember first cs = .ok (.key rest))
    (hkey : stringBody true [] rest = .ok (key, afterKey))
    (hcolon : afterColon afterKey = .ok value) (hfield : form.field? key = some field)
    (hnew : field.key ∉ seen) (hread : field.read a value = .ok (a', tail)) :
    form.readMembers (fuel + 1) first seen a cs =
      form.readMembers fuel false (field.key :: seen) a' tail := by
  have hcontains : seen.contains field.key = false := by simpa using hnew
  simp only [readMembers, hnext, hkey, hfield, hcontains, hcolon, hread, bind, Except.bind,
    Bool.false_eq_true, if_false]

theorem field?_key (hkeys : (form.fields.map (·.key)).Nodup) (hfield : field ∈ form.fields) :
    form.field? field.key.toList = some field := by
  cases hfound : form.field? field.key.toList with
  | none => exact absurd (List.find?_eq_none.1 hfound field hfield) (by simp)
  | some found =>
      have hkey := List.find?_some hfound
      rw [beq_iff_eq, String.toList_inj] at hkey
      exact congrArg some
        (List.inj_on_of_nodup_map hkeys (List.mem_of_find?_eq_some hfound) hfield hkey)

/-- The members of a record between its braces. -/
def members (b : α) : (first : Bool) → List (Field α) → List Char
  | _, [] => []
  | first, field :: fields =>
      (if first then [] else [',']) ++ quoted field.key ++ ':' :: field.write b ++
        members b false fields

theorem intercalate_members (b : α) (fields : List (Field α)) :
    [','].intercalate (fields.map fun field => quoted field.key ++ ':' :: field.write b) =
      members b true fields := by
  -- A comma stands before each member but the first, so the second member is told apart, too.
  induction fields with
  | nil => rfl
  | cons field fields ih =>
      cases fields with
      | nil => simp [List.intercalate, members]
      | cons next fields =>
          have hcomma : members b false (next :: fields) = ',' :: members b true (next :: fields) :=
            rfl
          rw [members, hcomma, ← ih]
          simp [List.intercalate]

theorem write_append (b : α) (rest : List Char) : form.write b ++ rest =
    '\x7b' :: (members b true form.fields ++ '\x7d' :: rest) := by
  rw [write, intercalate_members, List.append_assoc]
  rfl

theorem nextMember_members (b : α) (first : Bool) (field : Field α) (fields : List (Field α))
    (rest : List Char) :
    nextMember first (members b first (field :: fields) ++ rest) =
      .ok (.key (field.key.toList ++ '"' :: ':' ::
        (field.write b ++ (members b false fields ++ rest)))) := by
  have htext : members b first (field :: fields) ++ rest =
      (if first then [] else [',']) ++ '"' :: (field.key.toList ++ '"' :: ':' ::
        (field.write b ++ (members b false fields ++ rest))) := by
    simp [members, quoted]
  rw [htext]
  cases first <;> rfl

/-- Each member takes up some of the text. -/
theorem length_le_members (b : α) (first : Bool) (fields : List (Field α)) :
    fields.length ≤ (members b first fields).length := by
  induction fields generalizing first with
  | nil => exact Nat.le_refl 0
  | cons field fields ih =>
      have hfields := ih false
      simp only [members, quoted, List.length_append, List.length_cons]
      omega

theorem delimited_members (b : α) (fields : List (Field α)) (rest : List Char) :
    Delimited (members b false fields ++ '\x7d' :: rest) := by
  cases fields with
  | nil => exact .brace rest
  | cons field fields => exact .comma _

/-- Reading the fields of `b` back, one after another, turns `a` into `b`. -/
def Rebuilds (b : α) : List (Field α) → α → Prop
  | [], a => a = b
  | field :: fields, a => ∃ a',
      (∀ {rest : List Char}, Delimited rest →
        field.read a (field.write b ++ rest) = .ok (a', rest)) ∧ Rebuilds b fields a'

theorem Rebuilds.of {β : Type} {key : String} {codec : Codec β} {get : α → β} {set : α → β → α}
    (h : codec.Faithful) (hfields : Rebuilds b fields (set a (get b))) :
    Rebuilds b (.of key codec get set :: fields) a := by
  refine ⟨set a (get b), fun hrest => ?_, hfields⟩
  simp only [Field.of, h (get b) hrest, Except.map]

/-- The keys can be told apart, none needs an escape, and no field is lost. -/
structure Faithful (form : RecordForm α) : Prop where
  nodup : (form.fields.map (·.key)).Nodup
  plain : (form.fields.all fun field => field.key.toList.all isPlain) = true
  rebuilds : ∀ b, Rebuilds b form.fields form.initial

namespace Faithful

theorem key_notMem (h : form.Faithful) {done : List (Field α)}
    (hfields : form.fields = done ++ field :: fields) :
    field.key ∉ (done.map (·.key)).reverse := by
  have hnodup := h.nodup
  rw [hfields, List.map_append, List.map_cons] at hnodup
  rw [List.mem_reverse]
  exact fun hmem => List.disjoint_of_nodup_append hnodup hmem List.mem_cons_self

/-- The fields that are `done` have been seen, and the other members are read. -/
theorem readMembers (h : form.Faithful) (done : List (Field α))
    (hfields : form.fields = done ++ fields) (hfuel : fields.length < fuel)
    (hrebuilds : Rebuilds b fields a) (first : Bool) (rest : List Char) :
    form.readMembers fuel first (done.map (·.key)).reverse a
      (members b first fields ++ '\x7d' :: rest) = .ok (b, rest) := by
  induction fields generalizing fuel done first a with
  | nil =>
      obtain ⟨fuel, rfl⟩ := Nat.exists_eq_succ_of_ne_zero (Nat.ne_of_gt hfuel)
      have hend : form.mayEnd (done.map (·.key)).reverse = true := by
        simp only [mayEnd, Bool.or_eq_true, List.all_eq_true, List.contains_iff_mem,
          List.mem_reverse, hfields, List.append_nil]
        exact .inr fun field hfield => List.mem_map_of_mem hfield
      rw [← (show a = b from hrebuilds)]
      exact readMembers_close rfl hend
  | cons field fields ih =>
      obtain ⟨fuel, rfl⟩ := Nat.exists_eq_succ_of_ne_zero (Nat.ne_of_gt (Nat.zero_lt_of_lt hfuel))
      obtain ⟨a', hread, hrebuilds⟩ := hrebuilds
      have hmem : field ∈ form.fields := hfields ▸ List.mem_append_right done List.mem_cons_self
      have hplain := List.all_eq_true.1 (List.all_eq_true.1 h.plain field hmem)
      have hkey := stringBody_append (stringText_of_plain hplain true) []
        (':' :: (field.write b ++ (members b false fields ++ '\x7d' :: rest)))
      have hrest := ih (done ++ [field]) (hfields.trans (List.append_cons ..))
        (Nat.lt_of_succ_lt_succ hfuel) hrebuilds false
      rw [List.map_append, List.reverse_append] at hrest
      rw [← hrest]
      exact readMembers_key (nextMember_members ..) hkey rfl (field?_key h.nodup hmem)
        (h.key_notMem hfields) (hread (delimited_members b fields rest))

theorem codec (h : form.Faithful) : form.codec.Faithful := by
  intro b rest _
  have hread : form.read ('\x7b' :: (members b true form.fields ++ '\x7d' :: rest)) =
      form.readMembers ((members b true form.fields ++ '\x7d' :: rest).length + 1) true []
        form.initial (members b true form.fields ++ '\x7d' :: rest) := rfl
  have hfuel : form.fields.length <
      (members b true form.fields ++ '\x7d' :: rest).length + 1 := by
    have hlength := length_le_members b true form.fields
    rw [List.length_append]
    omega
  have hmembers := h.readMembers [] rfl hfuel (h.rebuilds b) true rest
  exact (congrArg form.read (write_append b rest)).trans (hread.trans hmembers)

end Faithful
end RecordForm
end Json
end Lockstep
