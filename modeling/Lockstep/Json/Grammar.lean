import Lockstep.Json.Reader

/-!
# JSON texts

Which texts are values, said without a reader.  Blanks may stand between any two parts of a
text, an object names its members in any order, and values may be nested to any depth.
-/

namespace Lockstep
namespace Json

def IsBlank (cs : List Char) : Prop := ∀ c ∈ cs, isSpace c = true

instance (cs : List Char) : Decidable (IsBlank cs) :=
  decidable_of_iff (cs.all isSpace = true) List.all_eq_true

/-- A character that stands for itself between quotes. -/
def isPlain (c : Char) : Bool := c != '"' && c != '\\' && decide (32 ≤ c.toNat)

/-- What stands between the quotes of a string.  In a string whose text matters (`paired`), the
halves of a surrogate pair stand together. -/
inductive StringText (paired : Bool) : (value text : List Char) → Prop
  | nil : StringText paired [] []
  | plain {c : Char} {value text : List Char} (hc : isPlain c = true)
      (h : StringText paired value text) : StringText paired (c :: value) (c :: text)
  | escape {e c : Char} {value text : List Char} (he : simpleEscape? e = some c)
      (h : StringText paired value text) : StringText paired (c :: value) ('\\' :: e :: text)
  | unit {a b c d : Char} {unit : Nat} {value text : List Char}
      (hunit : hexWord? a b c d = some unit)
      (halone : paired = true → isLeadSurrogate unit = false ∧ isTrailSurrogate unit = false)
      (h : StringText paired value text) :
      StringText paired (Char.ofNat unit :: value) ('\\' :: 'u' :: a :: b :: c :: d :: text)
  | pair {a b c d e f g h : Char} {lead trail : Nat} {value text : List Char}
      (hpaired : paired = true) (hlead : hexWord? a b c d = some lead)
      (hislead : isLeadSurrogate lead = true) (htrail : hexWord? e f g h = some trail)
      (histrail : isTrailSurrogate trail = true) (htext : StringText paired value text) :
      StringText paired (pairedChar lead trail :: value)
        ('\\' :: 'u' :: a :: b :: c :: d :: '\\' :: 'u' :: e :: f :: g :: h :: text)

structure IsDigits (ds : List Char) : Prop where
  ne_nil : ds ≠ []
  digits : ∀ c ∈ ds, isDigit c = true

instance (ds : List Char) : Decidable (IsDigits ds) :=
  decidable_of_iff (ds ≠ [] ∧ ds.all isDigit = true)
    ⟨fun h => ⟨h.1, List.all_eq_true.1 h.2⟩, fun h => ⟨h.ne_nil, List.all_eq_true.2 h.digits⟩⟩

inductive FractionText : List Char → Prop
  | none : FractionText []
  | some {ds : List Char} (h : IsDigits ds) : FractionText ('.' :: ds)

inductive ExponentText : List Char → Prop
  | none : ExponentText []
  | some {e : Char} {sign ds : List Char} (he : e = 'e' ∨ e = 'E')
      (hsign : sign = [] ∨ sign = ['+'] ∨ sign = ['-']) (h : IsDigits ds) :
      ExponentText (e :: (sign ++ ds))

/-- Numbers may have any size, and only a zero begins with a zero. -/
inductive NumberText : List Char → Prop
  | mk {minus whole fraction exponent : List Char} (hminus : minus = [] ∨ minus = ['-'])
      (hwhole : IsDigits whole) (hzero : whole.head? = some '0' → whole = ['0'])
      (hfraction : FractionText fraction) (hexponent : ExponentText exponent) :
      NumberText (minus ++ (whole ++ (fraction ++ exponent)))

/-- A value between blanks. -/
structure Item where
  before : List Char
  value : List Char
  after : List Char

namespace Item

def text (x : Item) : List Char := x.before ++ (x.value ++ x.after)

structure Spaced (x : Item) : Prop where
  before : IsBlank x.before
  after : IsBlank x.after

end Item

/-- A member of an object, part by part. -/
structure Member where
  name : String
  before : List Char
  /-- The name as it stands between its quotes. -/
  key : List Char
  afterKey : List Char
  item : Item

namespace Member

def text (m : Member) : List Char :=
  m.before ++ '"' :: (m.key ++ '"' :: (m.afterKey ++ ':' :: m.item.text))

structure Formed (paired : Bool) (m : Member) : Prop where
  before : IsBlank m.before
  key : StringText paired m.name.toList m.key
  afterKey : IsBlank m.afterKey
  item : m.item.Spaced

end Member

def separated : List (List Char) → List Char
  | [] => []
  | text :: texts => text ++ texts.flatMap (',' :: ·)

def enclosed (opening closing : Char) (space : List Char) (texts : List (List Char)) :
    List Char :=
  opening :: (space ++ (separated texts ++ [closing]))

/-- A value of any kind. -/
inductive IsValue : List Char → Prop
  | null : IsValue "null".toList
  | true : IsValue "true".toList
  | false : IsValue "false".toList
  | number {text : List Char} (h : NumberText text) : IsValue text
  | string {value text : List Char} (h : StringText false value text) :
      IsValue ('"' :: (text ++ ['"']))
  | list {space : List Char} {items : List Item} (hspace : IsBlank space)
      (hspaced : ∀ x ∈ items, x.Spaced) (hvalues : ∀ x ∈ items, IsValue x.value) :
      IsValue (enclosed '[' ']' space (items.map Item.text))
  | object {space : List Char} {members : List Member} (hspace : IsBlank space)
      (hformed : ∀ m ∈ members, m.Formed false) (hvalues : ∀ m ∈ members, IsValue m.item.value) :
      IsValue (enclosed '\x7b' '\x7d' space (members.map Member.text))

def named (name : String) (members : List Member) : List Member :=
  members.filter (·.name == name)

/-- What is said under a name: nothing, or a value that has one of these texts. -/
structure Entry where
  name : String
  value : Option (List Char → Prop)

namespace Entry

/-- The members say this under the name, and say it once. -/
def IsIn (e : Entry) (members : List Member) : Prop :=
  match e.value with
  | none => named e.name members = []
  | some IsText => ∃ m, named e.name members = [m] ∧ IsText m.item.value

end Entry

/-- An object that says under each of the names what its entry asks for.  Members of other names
may stand among these, in any number and with any values. -/
inductive IsObject (entries : List Entry) : List Char → Prop
  | mk {space : List Char} {members : List Member} (hspace : IsBlank space)
      (hformed : ∀ m ∈ members, m.Formed true) (hentries : ∀ e ∈ entries, e.IsIn members)
      (hothers : ∀ m ∈ members, (∀ e ∈ entries, e.name ≠ m.name) → IsValue m.item.value) :
      IsObject entries (enclosed '\x7b' '\x7d' space (members.map Member.text))

/-- A text that is such an object with blanks around it. -/
inductive IsDocument (entries : List Entry) (text : String) : Prop
  | mk {before object after : List Char} (htext : text.toList = before ++ (object ++ after))
      (hbefore : IsBlank before) (hobject : IsObject entries object) (hafter : IsBlank after)

namespace Entry

def number {α : Type} (value : α → Nat) (name : String) (n : Option α) : Entry :=
  ⟨name, n.map fun n text => text = Nat.toDigits 10 (value n)⟩

def flag (name : String) (b : Option Bool) : Entry :=
  ⟨name, b.map fun b text => text = (if b then "true" else "false").toList⟩

def object {α : Type} (entries : α → List Entry) (name : String) (a : Option α) : Entry :=
  ⟨name, a.map fun a => IsObject (entries a)⟩

end Entry
end Json
end Lockstep
