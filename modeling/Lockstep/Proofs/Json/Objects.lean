import Lockstep.Proofs.Json.Records
import Lockstep.Proofs.Json.Skip

/-!
# Records read from objects

Main statement: an object that names some fields of a record, in any order and among other
members, is read as the record in which these fields have the values that were given and the
others the ones they have from the start.  What a record holds is told from the texts that its
fields are written as.
-/

namespace Lockstep
namespace Json

namespace Codec

variable {α β : Type} {codec : Codec α}

/-- The text is read as the value, whatever blanks stand before it. -/
def Accepts (codec : Codec α) (text : List Char) (a : α) : Prop :=
  ∀ {space rest : List Char}, IsBlank space → Delimited rest →
    codec.read (space ++ (text ++ rest)) = .ok (a, rest)

/-- The reader does not look at blanks. -/
def SkipsSpace (codec : Codec α) : Prop :=
  ∀ {space : List Char}, IsBlank space → ∀ cs, codec.read (space ++ cs) = codec.read cs

theorem Faithful.accepts (h : codec.Faithful) (hspace : codec.SkipsSpace) (a : α) :
    codec.Accepts (codec.write a) a := by
  intro space rest hblank hrest
  rw [hspace hblank, h a hrest]

theorem SkipsSpace.map (h : codec.SkipsSpace) (f : α → β) (g : β → α) :
    (codec.map f g).SkipsSpace := by
  intro space hspace cs
  simp only [Codec.map, h hspace]

theorem skipsSpace_natBelow (bound : Nat) : (natBelow bound).SkipsSpace := by
  intro space hspace cs
  simp only [natBelow, Json.natBelow, skipSpace_append hspace]

theorem skipsSpace_uint32 : uint32.SkipsSpace := SkipsSpace.map (skipsSpace_natBelow _) _ _

theorem skipsSpace_uint64 : uint64.SkipsSpace := SkipsSpace.map (skipsSpace_natBelow _) _ _

theorem skipsSpace_bool : bool.SkipsSpace := by
  intro space hspace cs
  simp only [bool, boolean, skipSpace_append hspace]

end Codec

theorem RecordForm.skipsSpace {α : Type} (form : RecordForm α) : form.codec.SkipsSpace := by
  intro space hspace cs
  simp only [codec, read, skipSpace_append hspace]

namespace Field

variable {α β γ : Type} {field : Field α} {a a' b : α} {seen seen' : List String} {m : Member}
  {members : List Member}

/-- Whatever was read before, reading the text leaves the field as it is in `b`. -/
def Reads (field : Field α) (b : α) (text : List Char) : Prop :=
  ∀ a {space rest : List Char}, IsBlank space → Delimited rest →
    ∃ a', field.read a (space ++ (text ++ rest)) = .ok (a', rest) ∧ field.write a' = field.write b

theorem Reads.of {key : String} {codec : Codec β} {get : α → β} {set : α → β → α}
    (hset : ∀ a v, get (set a v) = v) {text : List Char} (h : codec.Accepts text (get b)) :
    (Field.of key codec get set).Reads b text := by
  intro a space rest hspace hrest
  refine ⟨set a (get b), ?_, ?_⟩
  · simp only [Field.of, h hspace hrest, Except.map]
  · simp only [Field.of, hset]

/-- Of the members that are left, none is for the field, and it is as in `b`, or one is, and that
one makes it so. -/
inductive Awaits (field : Field α) (b a : α) (seen : List String) (members : List Member) : Prop
  | settled (hnone : named field.key members = []) (hwrite : field.write a = field.write b)
  | due {m : Member} (hone : named field.key members = [m]) (hnew : field.key ∉ seen)
      (hreads : field.Reads b m.item.value)

theorem Awaits.this (h : field.Awaits b a seen (m :: members)) (hname : m.name = field.key) :
    field.key ∉ seen ∧ field.Reads b m.item.value ∧ named field.key members = [] := by
  have hnamed : named field.key (m :: members) = m :: named field.key members :=
    List.filter_cons_of_pos (beq_iff_eq.2 hname)
  cases h with
  | settled hnone =>
      rw [hnamed] at hnone
      contradiction
  | due hone hnew hreads =>
      rw [hnamed] at hone
      obtain ⟨rfl, hnone⟩ := List.cons.inj hone
      exact ⟨hnew, hreads, hnone⟩

theorem Awaits.other (h : field.Awaits b a seen (m :: members)) (hname : m.name ≠ field.key)
    (hwrite : field.write a' = field.write a) (hseen : field.key ∈ seen' → field.key ∈ seen) :
    field.Awaits b a' seen' members := by
  have hnamed : named field.key (m :: members) = named field.key members :=
    List.filter_cons_of_neg (by simpa using hname)
  cases h with
  | settled hnone hb => exact .settled (hnamed ▸ hnone) (hwrite.trans hb)
  | due hone hnew hreads => exact .due (hnamed ▸ hone) (fun h => hnew (hseen h)) hreads

/-- What the entry says about the field in `b`: it has the value that is given, or the one it has
in `initial`. -/
structure Serves (initial b : α) (field : Field α) (e : Entry) : Prop where
  name : e.name = field.key
  none : e.value = none → field.write initial = field.write b
  some {IsText : List Char → Prop} : e.value = some IsText →
    ∀ {text : List Char}, IsText text → field.Reads b text

theorem Serves.of {key : String} {codec : Codec β} {get : α → β} {set : α → β → α} {initial : α}
    {x? : Option γ} {value : γ → β} {IsText : γ → List Char → Prop}
    (hset : ∀ a v, get (set a v) = v)
    (haccepts : ∀ x {text : List Char}, IsText x text → codec.Accepts text (value x))
    (hget : get b = x?.elim (get initial) value) :
    Serves initial b (.of key codec get set) ⟨key, x?.map IsText⟩ where
  name := rfl
  none hnone := by
    rw [Option.map_eq_none_iff] at hnone
    subst hnone
    exact congrArg codec.write hget.symm
  some {IsText'} hsome {text} htext := by
    obtain ⟨x, rfl, rfl⟩ := Option.map_eq_some_iff.1 hsome
    exact .of hset (hget ▸ haccepts x htext)

theorem Serves.scalar {key : String} {codec : Codec β} {get : α → β} {set : α → β → α}
    {initial : α} {v? : Option β} (h : codec.Faithful) (hspace : codec.SkipsSpace)
    (hset : ∀ a v, get (set a v) = v) (hget : get b = v?.getD (get initial)) :
    Serves initial b (.of key codec get set) ⟨key, v?.map fun v text => text = codec.write v⟩ := by
  have helim : get b = v?.elim (get initial) id := by
    cases v? <;> exact hget
  refine .of hset (fun v text htext => ?_) helim
  rw [htext]
  exact h.accepts hspace v

theorem Serves.uint32 {key : String} {get : α → UInt32} {set : α → UInt32 → α} {initial : α}
    {n? : Option UInt32} (hset : ∀ a n, get (set a n) = n) (hget : get b = n?.getD (get initial)) :
    Serves initial b (.of key .uint32 get set) (.number UInt32.toNat key n?) :=
  .scalar Codec.faithful_uint32 Codec.skipsSpace_uint32 hset hget

theorem Serves.awaits {initial : α} {e : Entry} (h : Serves initial b field e)
    (he : e.IsIn members) : field.Awaits b initial [] members := by
  unfold Entry.IsIn at he
  split at he
  next hvalue => exact .settled (h.name ▸ he) (h.none hvalue)
  next IsText hvalue =>
    obtain ⟨m, hone, htext⟩ := he
    exact .due (h.name ▸ hone) List.not_mem_nil (h.some hvalue htext)

end Field

namespace RecordForm

variable {α : Type} {form : RecordForm α} {field : Field α} {a a' b : α} {fuel : Nat}
  {first : Bool} {seen : List String} {cs rest : List Char} {m : Member} {members : List Member}

def texts (form : RecordForm α) (a : α) : List (List Char) := form.fields.map (·.write a)

/-- Each of the fields, from the place `i` on, is set in its own place. -/
def Apart (form : RecordForm α) : (i : Nat) → List (Field α) → Prop
  | _, [] => True
  | i, field :: fields =>
      (∀ {a a' cs rest}, field.read a cs = .ok (a', rest) →
        ∃ text, form.texts a' = (form.texts a).set i text) ∧ form.Apart (i + 1) fields

theorem Apart.of {β : Type} {key : String} {codec : Codec β} {get : α → β} {set : α → β → α}
    {i : Nat} {fields : List (Field α)}
    (hset : ∀ a v, form.texts (set a v) = (form.texts a).set i (codec.write v))
    (h : form.Apart (i + 1) fields) : form.Apart i (.of key codec get set :: fields) := by
  refine ⟨fun {a a' cs rest} hread => ?_, h⟩
  cases hcodec : codec.read cs with
  | error e =>
      simp only [Field.of, hcodec, Except.map] at hread
      contradiction
  | ok result =>
      obtain ⟨v, tail⟩ := result
      simp only [Field.of, hcodec, Except.map] at hread
      cases hread
      exact ⟨_, hset a v⟩

theorem Apart.texts {i j : Nat} {fields : List (Field α)} (h : form.Apart i fields)
    (hfield : fields[j]? = some field) (hread : field.read a cs = .ok (a', rest)) :
    ∃ text, form.texts a' = (form.texts a).set (i + j) text := by
  induction fields generalizing i j with
  | nil => contradiction
  | cons next fields ih =>
      cases j with
      | zero =>
          cases hfield
          exact h.1 hread
      | succ j =>
          rw [Nat.add_comm j 1, ← Nat.add_assoc]
          exact ih h.2 hfield

/-- A record that can be read from an object with only some of its fields. -/
structure Open (form : RecordForm α) : Prop where
  faithful : form.Faithful
  incomplete : form.complete = false
  apart : form.Apart 0 form.fields

namespace Open

theorem write_eq (h : form.Open) {other : Field α} (hfield : field ∈ form.fields)
    (hother : other ∈ form.fields) (hkey : other.key ≠ field.key)
    (hread : field.read a cs = .ok (a', rest)) : other.write a' = other.write a := by
  obtain ⟨i, hi⟩ := List.mem_iff_getElem?.1 hfield
  obtain ⟨j, hj⟩ := List.mem_iff_getElem?.1 hother
  obtain ⟨text, htexts⟩ := h.apart.texts hi hread
  rw [Nat.zero_add] at htexts
  have hne : i ≠ j := by
    rintro rfl
    rw [hi] at hj
    cases hj
    exact hkey rfl
  have hplace := congrArg (·[j]?) htexts
  simpa [texts, List.getElem?_set_ne hne, hj] using hplace

theorem ext (h : form.Open) (hwrite : ∀ field ∈ form.fields, field.write a = field.write b) :
    a = b := by
  have htext : form.write a = form.write b := by
    have hmembers : form.fields.map (fun field => quoted field.key ++ ':' :: field.write a) =
        form.fields.map fun field => quoted field.key ++ ':' :: field.write b :=
      List.map_congr_left fun field hfield => by rw [hwrite field hfield]
    rw [write, write, hmembers]
  have ha := h.faithful.codec a .nil
  have hb := h.faithful.codec b .nil
  change form.codec.read (form.write a ++ []) = _ at ha
  rw [htext] at ha
  cases ha.symm.trans hb
  rfl

end Open

/-- An unknown member is passed over. -/
theorem readMembers_skip {key afterKey value tail : List Char}
    (hnext : nextMember first cs = .ok (.key rest))
    (hkey : stringBody true [] rest = .ok (key, afterKey))
    (hcolon : afterColon afterKey = .ok value) (hfield : form.field? key = none)
    (hskip : skipValue value = .ok tail) :
    form.readMembers (fuel + 1) first seen a cs = form.readMembers fuel false seen a tail := by
  simp only [readMembers, hnext, hkey, hfield, hcolon, hskip, bind, Except.bind]

theorem field?_eq_none (h : ∀ field ∈ form.fields, field.key ≠ m.name) :
    form.field? m.name.toList = none := by
  refine List.find?_eq_none.2 fun field hfield => ?_
  rw [beq_iff_eq, String.toList_inj]
  exact h field hfield

/-- The members that are left, with the comma that stands before each but the first. -/
def memberTexts : (first : Bool) → List Member → List Char
  | _, [] => []
  | first, m :: members =>
      (if first then [] else [',']) ++ (m.text ++ memberTexts false members)

theorem memberTexts_false (members : List Member) :
    memberTexts false members = (members.map Member.text).flatMap (',' :: ·) := by
  induction members with
  | nil => rfl
  | cons m members ih =>
      rw [memberTexts, ih]
      rfl

theorem memberTexts_true (members : List Member) :
    memberTexts true members = separated (members.map Member.text) := by
  cases members with
  | nil => rfl
  | cons m members =>
      rw [memberTexts, memberTexts_false]
      rfl

theorem memberTexts_cons (first : Bool) (m : Member) (members : List Member) (rest : List Char) :
    memberTexts first (m :: members) ++ rest =
      (if first then [] else [',']) ++ (m.before ++ '"' :: (m.key ++ '"' :: (m.afterKey ++ ':' ::
        (m.item.before ++ (m.item.value ++
          (m.item.after ++ (memberTexts false members ++ rest))))))) := by
  simp [memberTexts, Member.text, Item.text]

theorem delimited_memberTexts (members : List Member) (hrest : Delimited rest) :
    Delimited (memberTexts false members ++ rest) := by
  rw [memberTexts_false]
  exact delimited_flatMap _ hrest

theorem length_le_memberTexts (first : Bool) (members : List Member) :
    members.length ≤ (memberTexts first members).length := by
  induction members generalizing first with
  | nil => exact Nat.le_refl 0
  | cons m members ih =>
      have hmembers := ih false
      simp only [memberTexts, Member.text, List.length_append, List.length_cons]
      omega

theorem nextMember_close {space : List Char} (hspace : IsBlank space) (first : Bool)
    (rest : List Char) : nextMember first (space ++ '\x7d' :: rest) = .ok (.close rest) := by
  rw [nextMember, skipSpace_append hspace]
  rfl

theorem nextMember_key {space before : List Char} (hspace : IsBlank space)
    (hbefore : IsBlank before) (first : Bool) (cs : List Char) :
    nextMember first (space ++ ((if first then [] else [',']) ++ (before ++ '"' :: cs))) =
      .ok (.key cs) := by
  rw [nextMember, skipSpace_append hspace]
  cases first with
  | true =>
      rw [if_pos rfl, List.nil_append, skipSpace_append hbefore]
      rfl
  | false =>
      rw [if_neg Bool.false_ne_true, List.cons_append, List.nil_append, skipSpace_cons (by decide)]
      simp only [Bool.false_eq_true, if_false, skipSpace_append hbefore]
      rfl

/-! ## Objects -/

/-- What is left of the object makes the record that has been read so far the record `b`. -/
structure Awaits (form : RecordForm α) (b a : α) (seen : List String) (members : List Member) :
    Prop where
  formed : ∀ m ∈ members, m.Formed true
  fields : ∀ field ∈ form.fields, field.Awaits b a seen members
  others : ∀ m ∈ members, (∀ field ∈ form.fields, field.key ≠ m.name) → IsValue m.item.value

namespace Awaits

theorem skip (h : form.Awaits b a seen (m :: members))
    (hother : ∀ field ∈ form.fields, field.key ≠ m.name) : form.Awaits b a seen members where
  formed m hm := h.formed m (List.mem_cons_of_mem _ hm)
  fields field hfield := (h.fields field hfield).other (hother field hfield).symm rfl id
  others m hm := h.others m (List.mem_cons_of_mem _ hm)

theorem take (hform : form.Open) (h : form.Awaits b a seen (m :: members))
    (hfield : field ∈ form.fields) (hname : m.name = field.key)
    (hread : field.read a cs = .ok (a', rest)) (hwrite : field.write a' = field.write b) :
    form.Awaits b a' (field.key :: seen) members where
  formed m hm := h.formed m (List.mem_cons_of_mem _ hm)
  fields other hother := by
    by_cases hkey : other.key = field.key
    · obtain rfl := List.inj_on_of_nodup_map hform.faithful.nodup hother hfield hkey
      exact .settled ((h.fields other hother).this hname).2.2 hwrite
    · refine (h.fields other hother).other (fun hm => hkey (hm.symm.trans hname))
        (hform.write_eq hfield hother hkey hread) fun hmem => ?_
      exact (List.mem_cons.1 hmem).resolve_left hkey
  others m hm := h.others m (List.mem_cons_of_mem _ hm)

/-- With no member left, the record is complete. -/
theorem eq (hform : form.Open) (h : form.Awaits b a seen []) : a = b := by
  refine hform.ext fun field hfield => ?_
  cases h.fields field hfield with
  | settled _ hwrite => exact hwrite
  | due hone => contradiction

theorem readMembers (hform : form.Open) (h : form.Awaits b a seen members)
    (hfuel : members.length < fuel) {space : List Char} (hspace : IsBlank space) (first : Bool)
    (rest : List Char) :
    form.readMembers fuel first seen a (space ++ (memberTexts first members ++ '\x7d' :: rest)) =
      .ok (b, rest) := by
  induction members generalizing fuel first seen a space with
  | nil =>
      obtain ⟨fuel, rfl⟩ := Nat.exists_eq_succ_of_ne_zero (Nat.ne_of_gt hfuel)
      have hend : form.mayEnd seen = true := by
        rw [mayEnd, hform.incomplete]
        rfl
      rw [← h.eq hform]
      exact readMembers_close (nextMember_close hspace first rest) hend
  | cons m members ih =>
      obtain ⟨fuel, rfl⟩ := Nat.exists_eq_succ_of_ne_zero (Nat.ne_of_gt (Nat.zero_lt_of_lt hfuel))
      have hfuel := Nat.lt_of_succ_lt_succ hfuel
      have hm := h.formed m List.mem_cons_self
      have htail := delimited_memberTexts members (.brace rest)
      have hdelimited := delimited_append hm.item.after htail
      rw [memberTexts_cons]
      -- A known member settles its field; an unknown one leaves what is awaited as it is.
      by_cases hknown : ∃ field ∈ form.fields, field.key = m.name
      · obtain ⟨field, hfield, hname⟩ := hknown
        obtain ⟨hnew, hreads, -⟩ := (h.fields field hfield).this hname.symm
        obtain ⟨a', hread, hwrite⟩ := hreads a hm.item.before hdelimited
        have hfound : form.field? m.name.toList = some field := by
          rw [← hname]
          exact field?_key hform.faithful.nodup hfield
        rw [readMembers_key (nextMember_key hspace hm.before first _)
          (stringBody_append hm.key [] _) (afterColon_append hm.afterKey _) hfound hnew hread]
        exact ih (h.take hform hfield hname.symm hread hwrite) hfuel hm.item.after false
      · have hother : ∀ field ∈ form.fields, field.key ≠ m.name :=
          fun field hfield hname => hknown ⟨field, hfield, hname⟩
        have hvalue := h.others m List.mem_cons_self hother
        rw [readMembers_skip (nextMember_key hspace hm.before first _)
          (stringBody_append hm.key [] _) (afterColon_append hm.afterKey _) (field?_eq_none hother)
          (skipValue_append hvalue hm.item.before hdelimited)]
        exact ih (h.skip hother) hfuel hm.item.after false

end Awaits

theorem exists_of_forall₂ {β γ : Type} {R : β → γ → Prop} {bs : List β} {cs : List γ} {b : β}
    (h : List.Forall₂ R bs cs) (hb : b ∈ bs) : ∃ c ∈ cs, R b c := by
  induction h with
  | nil => contradiction
  | cons hR _ ih =>
      rcases List.mem_cons.1 hb with rfl | hb
      · exact ⟨_, List.mem_cons_self, hR⟩
      · obtain ⟨c, hc, hR⟩ := ih hb
        exact ⟨c, List.mem_cons_of_mem _ hc, hR⟩

/-- An object is read as the record that its entries ask for. -/
theorem Open.accepts (hform : form.Open) {entries : List Entry}
    (hserves : List.Forall₂ (Field.Serves form.initial b) form.fields entries) {text : List Char}
    (htext : IsObject entries text) : form.codec.Accepts text b := by
  intro before rest hbefore _
  obtain @⟨space, members, hspace, hformed, hentries, hothers⟩ := htext
  have hawaits : form.Awaits b form.initial [] members := by
    refine ⟨hformed, fun field hfield => ?_, fun m hm hother => hothers m hm fun e he => ?_⟩
    · obtain ⟨e, he, hfield⟩ := exists_of_forall₂ hserves hfield
      exact hfield.awaits (hentries e he)
    · obtain ⟨field, hfield, hserved⟩ := exists_of_forall₂ hserves.flip he
      rw [hserved.name]
      exact hother field hfield
  obtain ⟨inner, hinner⟩ :
      ∃ inner, inner = space ++ (memberTexts true members ++ '\x7d' :: rest) := ⟨_, rfl⟩
  have htext : enclosed '\x7b' '\x7d' space (members.map Member.text) ++ rest =
      '\x7b' :: inner := by
    simp [enclosed, ← memberTexts_true, hinner]
  have hfuel : members.length < inner.length + 1 := by
    have hlength := length_le_memberTexts true members
    simp only [hinner, List.length_append, List.length_cons]
    omega
  have hread : form.read ('\x7b' :: inner) =
      form.readMembers (inner.length + 1) true [] form.initial inner := rfl
  have hmembers := hawaits.readMembers hform hfuel hspace true rest
  rw [form.skipsSpace hbefore, htext]
  rw [← hinner] at hmembers
  exact hread.trans hmembers

end RecordForm
end Json
end Lockstep
