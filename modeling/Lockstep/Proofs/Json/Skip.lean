import Lockstep.Proofs.Json.Scalars

/-!
# Values that are skipped

Main statement: a value of any kind is skipped as a whole, whatever stands behind it, and the
brackets that are open around it stay open.
-/

namespace Lockstep
namespace Json

variable {cs rest : List Char}

theorem skipSpace_append {space : List Char} (h : IsBlank space) (cs : List Char) :
    skipSpace (space ++ cs) = skipSpace cs :=
  List.dropWhile_append_of_pos h

theorem delimited_append {space : List Char} (h : IsBlank space) (hrest : Delimited rest) :
    Delimited (space ++ rest) := by
  cases space with
  | nil => exact hrest
  | cons c space => exact .blank (h c List.mem_cons_self) _

theorem afterColon_append {space : List Char} (h : IsBlank space) (cs : List Char) :
    afterColon (space ++ ':' :: cs) = .ok cs := by
  rw [afterColon, skipSpace_append h]
  rfl

theorem fraction_append {text : List Char} (h : FractionText text)
    (hdigit : ∀ c ∈ rest.head?, isDigit c = false) (hpoint : ∀ c ∈ rest.head?, c ≠ '.')
    (atEnd : JsonError) : ∃ ds, fraction atEnd (text ++ rest) = .ok (ds, rest) := by
  cases h with
  | none =>
      refine ⟨[], ?_⟩
      rw [List.nil_append]
      unfold fraction
      split
      · exact absurd rfl (hpoint '.' rfl)
      · rfl
  | some h => exact ⟨_, digits_append h hdigit atEnd⟩

theorem exponent_signless {e d : Char} (he : e = 'e' ∨ e = 'E') (hd : isDigit d = true)
    (cs : List Char) (atEnd : JsonError) : exponent atEnd (e :: d :: cs) =
      (do let (ds, rest) ← digits atEnd (d :: cs); return (some (false, ds), rest)) := by
  refine (if_pos he).trans ?_
  split
  · rename_i hminus
    obtain ⟨rfl, -⟩ := List.cons.inj hminus
    contradiction
  · rename_i hplus
    obtain ⟨rfl, -⟩ := List.cons.inj hplus
    contradiction
  · rfl

theorem exponent_append {text : List Char} (h : ExponentText text) (hrest : Delimited rest)
    (atEnd : JsonError) : ∃ e, exponent atEnd (text ++ rest) = .ok (e, rest) := by
  cases h with
  | none => exact ⟨_, exponent_of_delimited hrest atEnd⟩
  | @some e sign ds he hsign h =>
      have hdigits := digits_append h (fun c hc => (hrest.stops c hc).1) atEnd
      rcases hsign with rfl | rfl | rfl
      · obtain ⟨d, ds, rfl⟩ := List.exists_cons_of_ne_nil h.ne_nil
        have hd := h.digits d List.mem_cons_self
        refine ⟨some (false, d :: ds), (exponent_signless he hd (ds ++ rest) atEnd).trans ?_⟩
        rw [← List.cons_append, hdigits]
        rfl
      · refine ⟨some (false, ds), (if_pos he).trans ?_⟩
        change (do
          let (ds, rest) ← digits atEnd (ds ++ rest)
          return (some (false, ds), rest)) = _
        rw [hdigits]
        rfl
      · refine ⟨some (true, ds), (if_pos he).trans ?_⟩
        change (do
          let (ds, rest) ← digits atEnd (ds ++ rest)
          return (some (true, ds), rest)) = _
        rw [hdigits]
        rfl

/-- Behind the whole part comes a point, an exponent or the end of the number. -/
theorem head?_exponent {text : List Char} (h : ExponentText text) (hrest : Delimited rest) :
    ∀ c ∈ (text ++ rest).head?, isDigit c = false ∧ c ≠ '.' := by
  intro c hc
  cases h with
  | none => exact ⟨(hrest.stops c hc).1, (hrest.stops c hc).2.1⟩
  | some he =>
      obtain rfl := Option.some.inj hc
      rcases he with rfl | rfl <;> decide

theorem head?_fraction {text : List Char} (h : FractionText text)
    (hrest : ∀ c ∈ rest.head?, isDigit c = false) :
    ∀ c ∈ (text ++ rest).head?, isDigit c = false := by
  intro c hc
  cases h with
  | none => exact hrest c hc
  | some =>
      obtain rfl := Option.some.inj hc
      decide

theorem unsignedNumeral_append {whole fraction exponent : List Char} (hwhole : IsDigits whole)
    (hzero : whole.head? = some '0' → whole = ['0']) (hfraction : FractionText fraction)
    (hexponent : ExponentText exponent) (hrest : Delimited rest) (atEnd : JsonError)
    (negative : Bool) : ∃ n, unsignedNumeral atEnd negative
      (whole ++ (fraction ++ (exponent ++ rest))) = .ok (n, rest) := by
  have hexponent' := head?_exponent hexponent hrest
  have hfraction' := head?_fraction hfraction fun c hc => (hexponent' c hc).1
  obtain ⟨f, hf⟩ := fraction_append hfraction (fun c hc => (hexponent' c hc).1)
    (fun c hc => (hexponent' c hc).2) atEnd
  obtain ⟨e, he⟩ := exponent_append hexponent hrest atEnd
  refine ⟨⟨negative, whole, f, e⟩, ?_⟩
  simp only [unsignedNumeral, digits_append hwhole hfraction', bind, Except.bind]
  split
  · cases hzero rfl
  · simp only [hf, he]
    rfl

theorem numeral_append {text : List Char} (h : NumberText text) (hrest : Delimited rest)
    (atEnd : JsonError) : ∃ n, numeral atEnd (text ++ rest) = .ok (n, rest) := by
  obtain ⟨hminus, hwhole, hzero, hfraction, hexponent⟩ := h
  have hunsigned := unsignedNumeral_append hwhole hzero hfraction hexponent hrest atEnd
  simp only [List.append_assoc]
  rcases hminus with rfl | rfl
  · obtain ⟨d, ds, rfl⟩ := List.exists_cons_of_ne_nil hwhole.ne_nil
    have hd := hwhole.digits d List.mem_cons_self
    obtain ⟨n, hn⟩ := hunsigned false
    refine ⟨n, ?_⟩
    rw [← hn, List.nil_append, List.cons_append, numeral]
    rintro tail ⟨⟩
    contradiction
  · exact hunsigned true

namespace Bracket

def closing : Bracket → Char
  | list => ']'
  | object => '\x7d'

/-- What may come behind the opening bracket. -/
def first : Bracket → Expected
  | list => .item
  | object => .member

/-- What may come behind a comma. -/
def further : Bracket → Expected
  | list => .value
  | object => .key

end Bracket

section Steps

variable {expected expected' : Expected} {brackets brackets' : List Bracket} {c : Char}
  {tail : List Char}

theorem skip_next (cs : List Char) : skip .next [] cs = .ok cs := by
  rw [skip]

/-- As long as the value is not complete, the next character says how to go on. -/
theorem skip_of_open (hopen : expected = .next → brackets ≠ []) (cs : List Char) :
    skip expected brackets cs =
      match skipSpace cs with
      | [] => .error .truncated
      | c :: rest => (skipStep expected brackets c rest).bind
          fun (expected, brackets, rest) => skip expected brackets rest := by
  rw [skip]
  · split
    · rename_i hspace
      rw [hspace]
    · rename_i c rest hspace
      split
      · rename_i hstep
        simp only [hspace, hstep, Except.bind]
      · rename_i hstep
        simp only [hspace, hstep, Except.bind]
  · rintro rfl rfl
    exact hopen rfl rfl

theorem skip_space {space : List Char} (hspace : IsBlank space)
    (hopen : expected = .next → brackets ≠ []) (cs : List Char) :
    skip expected brackets (space ++ cs) = skip expected brackets cs := by
  rw [skip_of_open hopen, skip_of_open hopen, skipSpace_append hspace]

/-- Blanks inside a list or an object. -/
theorem skip_inside {space : List Char} (hspace : IsBlank space) {b : Bracket} (cs : List Char) :
    skip expected (b :: brackets) (space ++ cs) = skip expected (b :: brackets) cs :=
  skip_space hspace (fun _ => List.cons_ne_nil _ _) cs

theorem skip_step (hc : isSpace c = false) {rest' : List Char}
    (hstep : skipStep expected brackets c rest = .ok (expected', brackets', rest'))
    (hopen : expected = .next → brackets ≠ []) :
    skip expected brackets (c :: rest) = skip expected' brackets' rest' := by
  rw [skip_of_open hopen, skipSpace_cons hc]
  dsimp only
  rw [hstep]
  rfl

theorem skip_congr (hc : isSpace c = false)
    (hstep : skipStep expected brackets c rest = skipStep expected' brackets c rest)
    (hopen : expected = .next → brackets ≠ []) (hopen' : expected' = .next → brackets ≠ []) :
    skip expected brackets (c :: rest) = skip expected' brackets (c :: rest) := by
  rw [skip_of_open hopen, skip_of_open hopen', skipSpace_cons hc]
  dsimp only
  rw [hstep]

theorem skipStep_item (hc : c ≠ ']') (brackets : List Bracket) (rest : List Char) :
    skipStep .item brackets c rest = skipStep .value brackets c rest := by
  unfold skipStep
  split
  all_goals first
    | contradiction
    | rfl

theorem skip_key {key cs : List Char} (hkey : stringBody false [] rest = .ok (key, tail))
    (hcolon : afterColon tail = .ok cs) (brackets : List Bracket) :
    skip .key brackets ('"' :: rest) = skip .value brackets cs := by
  refine skip_step (by decide) ?_ nofun
  change (do
    let (_, rest) ← stringBody false [] rest
    return (Expected.value, brackets, ← afterColon rest)) = _
  rw [hkey]
  change (do return (Expected.value, brackets, ← afterColon tail)) = _
  rw [hcolon]
  rfl

theorem skip_value (hc : isSpace c = false) (hopening : opening c rest = .ok (none, tail))
    (brackets : List Bracket) :
    skip .value brackets (c :: rest) = skip .next brackets tail := by
  refine skip_step hc ?_ nofun
  unfold skipStep
  dsimp only
  rw [hopening]
  rfl

theorem skip_open {b : Bracket} (hc : isSpace c = false)
    (hopening : opening c rest = .ok (some b, tail)) (brackets : List Bracket) :
    skip .value brackets (c :: rest) = skip b.first (b :: brackets) tail := by
  refine skip_step hc ?_ nofun
  unfold skipStep
  dsimp only
  rw [hopening]
  cases b <;> rfl

end Steps

section Parts

variable {b : Bracket} {brackets : List Bracket}

theorem skip_comma (cs : List Char) :
    skip .next (b :: brackets) (',' :: cs) = skip b.further (b :: brackets) cs := by
  refine skip_step (by decide) ?_ fun _ => List.cons_ne_nil _ _
  cases b <;> rfl

theorem skip_close (cs : List Char) :
    skip .next (b :: brackets) (b.closing :: cs) = skip .next brackets cs := by
  refine skip_step (by cases b <;> decide) ?_ fun _ => List.cons_ne_nil _ _
  cases b <;> rfl

theorem skip_empty (cs : List Char) :
    skip b.first (b :: brackets) (b.closing :: cs) = skip .next brackets cs := by
  refine skip_step (by cases b <;> decide) ?_ fun _ => List.cons_ne_nil _ _
  cases b <;> rfl

theorem delimited_closing (cs : List Char) : Delimited (b.closing :: cs) := by
  cases b with
  | list => exact .bracket cs
  | object => exact .brace cs

/-- A part is skipped up to the comma or the bracket after it, and a first part like any other. -/
structure SkipsPart (b : Bracket) (brackets : List Bracket) (text : List Char) : Prop where
  first (rest : List Char) :
    skip b.first (b :: brackets) (text ++ rest) = skip b.further (b :: brackets) (text ++ rest)
  further {rest : List Char} (hrest : Delimited rest) :
    skip b.further (b :: brackets) (text ++ rest) = skip .next (b :: brackets) rest

theorem delimited_flatMap (texts : List (List Char)) (hrest : Delimited rest) :
    Delimited (texts.flatMap (',' :: ·) ++ rest) := by
  cases texts with
  | nil => exact hrest
  | cons text texts => exact .comma _

theorem skip_flatMap {texts : List (List Char)} (h : ∀ t ∈ texts, SkipsPart b brackets t)
    (rest : List Char) :
    skip .next (b :: brackets) (texts.flatMap (',' :: ·) ++ b.closing :: rest) =
      skip .next brackets rest := by
  induction texts with
  | nil => exact skip_close rest
  | cons text texts ih =>
      have htext := h text List.mem_cons_self
      have hrest := delimited_flatMap texts (delimited_closing (b := b) rest)
      rw [List.flatMap_cons, List.append_assoc, List.cons_append, skip_comma,
        htext.further hrest]
      exact ih fun t ht => h t (List.mem_cons_of_mem _ ht)

theorem skip_separated {texts : List (List Char)} (h : ∀ t ∈ texts, SkipsPart b brackets t)
    (rest : List Char) :
    skip b.first (b :: brackets) (separated texts ++ b.closing :: rest) =
      skip .next brackets rest := by
  cases texts with
  | nil => exact skip_empty rest
  | cons text texts =>
      have htext := h text List.mem_cons_self
      have hrest := delimited_flatMap texts (delimited_closing (b := b) rest)
      rw [separated, List.append_assoc, htext.first, htext.further hrest]
      exact skip_flatMap (fun t ht => h t (List.mem_cons_of_mem _ ht)) rest

theorem skip_enclosed {space : List Char} {texts : List (List Char)} {c : Char}
    (hc : isSpace c = false) (hopening : ∀ rest, opening c rest = .ok (some b, rest))
    (hspace : IsBlank space) (h : ∀ t ∈ texts, SkipsPart b brackets t) (rest : List Char) :
    skip .value brackets (enclosed c b.closing space texts ++ rest) = skip .next brackets rest := by
  have htext : enclosed c b.closing space texts ++ rest =
      c :: (space ++ (separated texts ++ b.closing :: rest)) := by
    simp [enclosed]
  rw [htext, skip_open hc (hopening _), skip_inside hspace, skip_separated h]

end Parts

/-! ## Values -/

/-- The reader passes over the text where a value is due. -/
def IsSkipped (text : List Char) : Prop :=
  ∀ (brackets : List Bracket) {rest : List Char}, Delimited rest →
    skip .value brackets (text ++ rest) = skip .next brackets rest

theorem NumberText.exists_cons {text : List Char} (h : NumberText text) :
    ∃ c tail, text = c :: tail ∧ (c = '-' ∨ isDigit c = true) := by
  obtain ⟨hminus, hwhole, -, -, -⟩ := h
  rcases hminus with rfl | rfl
  · obtain ⟨d, ds, rfl⟩ := List.exists_cons_of_ne_nil hwhole.ne_nil
    exact ⟨d, _, rfl, .inr (hwhole.digits d List.mem_cons_self)⟩
  · exact ⟨'-', _, rfl, .inl rfl⟩

theorem isSpace_of_number {c : Char} (hc : c = '-' ∨ isDigit c = true) : isSpace c = false := by
  rcases hc with rfl | hc
  · decide
  · exact isSpace_of_isDigit hc

theorem opening_number {c : Char} (hc : c = '-' ∨ isDigit c = true) (rest : List Char) :
    opening c rest = (none, ·) <$> (Prod.snd <$> numeral .malformed (c :: rest)) := by
  have hne {d : Char} (hminus : d ≠ '-') (hd : isDigit d = false) : c ≠ d := by
    rintro rfl
    rcases hc with rfl | hc
    · exact hminus rfl
    · exact absurd hc (Bool.eq_false_iff.1 hd)
  rw [opening, if_neg (hne (by decide) (by decide)), if_neg (hne (by decide) (by decide)),
    if_neg (hne (by decide) (by decide)), if_neg (hne (by decide) (by decide)),
    if_neg (hne (by decide) (by decide)), if_neg (hne (by decide) (by decide)), if_pos hc]

/-- A value does not begin with a blank or with the end of a list. -/
theorem exists_cons_of_isValue {text : List Char} (h : IsValue text) :
    ∃ c tail, text = c :: tail ∧ isSpace c = false ∧ c ≠ ']' := by
  cases h with
  | null => exact ⟨'n', _, rfl, by decide, by decide⟩
  | true => exact ⟨'t', _, rfl, by decide, by decide⟩
  | false => exact ⟨'f', _, rfl, by decide, by decide⟩
  | number h =>
      obtain ⟨c, tail, rfl, hc⟩ := h.exists_cons
      refine ⟨c, tail, rfl, isSpace_of_number hc, ?_⟩
      rintro rfl
      rcases hc with hc | hc <;> contradiction
  | string h => exact ⟨'"', _, rfl, by decide, by decide⟩
  | list => exact ⟨'[', _, rfl, by decide, by decide⟩
  | object => exact ⟨'\x7b', _, rfl, by decide, by decide⟩

theorem isSkipped_number {text : List Char} (h : NumberText text) : IsSkipped text := by
  intro brackets rest hrest
  obtain ⟨n, hn⟩ := numeral_append h hrest .malformed
  obtain ⟨c, tail, rfl, hc⟩ := h.exists_cons
  refine skip_value (isSpace_of_number hc) ?_ brackets
  rw [opening_number hc]
  change (none, ·) <$> (Prod.snd <$> numeral .malformed (c :: tail ++ rest)) = _
  rw [hn]
  rfl

theorem isSkipped_string {value text : List Char} (h : StringText false value text) :
    IsSkipped ('"' :: (text ++ ['"'])) := by
  intro brackets rest _
  have hbody := stringBody_append h [] rest
  rw [List.cons_append, List.append_assoc]
  refine skip_value (by decide) ?_ brackets
  change (none, ·) <$> (Prod.snd <$> stringBody false [] (text ++ '"' :: rest)) = _
  rw [hbody]
  rfl

theorem skipsPart_item {x : Item} (hx : x.Spaced) (hvalue : IsValue x.value)
    (h : IsSkipped x.value) (brackets : List Bracket) : SkipsPart .list brackets x.text where
  first rest := by
    obtain ⟨c, tail, hc, hspace, hne⟩ := exists_cons_of_isValue hvalue
    simp only [Item.text, List.append_assoc]
    rw [skip_inside hx.before, skip_inside hx.before, hc, List.cons_append]
    exact skip_congr hspace (skipStep_item hne _ _) nofun nofun
  further {rest} hrest := by
    simp only [Item.text, List.append_assoc]
    rw [skip_inside hx.before]
    exact (h _ (delimited_append hx.after hrest)).trans (skip_inside hx.after rest)

theorem skipsPart_member {m : Member} (hm : m.Formed false) (h : IsSkipped m.item.value)
    (brackets : List Bracket) : SkipsPart .object brackets m.text where
  first rest := by
    simp only [Member.text, List.append_assoc, List.cons_append]
    rw [skip_inside hm.before, skip_inside hm.before]
    exact skip_congr (by decide) rfl nofun nofun
  further {rest} hrest := by
    simp only [Member.text, Item.text, List.append_assoc, List.cons_append]
    rw [skip_inside hm.before]
    refine (skip_key (stringBody_append hm.key [] _) (afterColon_append hm.afterKey _) _).trans ?_
    rw [skip_inside hm.item.before]
    exact (h _ (delimited_append hm.item.after hrest)).trans (skip_inside hm.item.after rest)

theorem isSkipped_of_isValue {text : List Char} (h : IsValue text) : IsSkipped text := by
  induction h with
  | null => exact fun brackets rest _ => skip_value (by decide) rfl brackets
  | true => exact fun brackets rest _ => skip_value (by decide) rfl brackets
  | false => exact fun brackets rest _ => skip_value (by decide) rfl brackets
  | number h => exact isSkipped_number h
  | string h => exact isSkipped_string h
  | @list space items hspace hspaced hvalues ih =>
      intro brackets rest _
      refine skip_enclosed (b := .list) (by decide) (fun _ => rfl) hspace ?_ rest
      intro t ht
      obtain ⟨x, hx, rfl⟩ := List.mem_map.1 ht
      exact skipsPart_item (hspaced x hx) (hvalues x hx) (ih x hx) brackets
  | @object space members hspace hformed _ ih =>
      intro brackets rest _
      refine skip_enclosed (b := .object) (by decide) (fun _ => rfl) hspace ?_ rest
      intro t ht
      obtain ⟨m, hm, rfl⟩ := List.mem_map.1 ht
      exact skipsPart_member (hformed m hm) (ih m hm) brackets

theorem skipValue_append {text : List Char} (h : IsValue text) {space : List Char}
    (hspace : IsBlank space) (hrest : Delimited rest) :
    skipValue (space ++ (text ++ rest)) = .ok rest := by
  have hopen : Expected.value = .next → ([] : List Bracket) ≠ [] := nofun
  rw [skipValue, skip_space hspace hopen, isSkipped_of_isValue h [] hrest, skip_next]

end Json
end Lockstep
