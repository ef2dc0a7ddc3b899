import Lockstep.Json.Codec
import Lockstep.Json.Grammar
import Mathlib.Data.List.Basic

/-!
# Scalars read back

A reader takes just the text that was written and leaves the rest, if what comes next cannot
belong to it: in a document, a number is followed by a blank, a comma, a closing bracket or by
nothing.
-/

namespace Lockstep
namespace Json

/-- The text after a value of a document. -/
inductive Delimited : List Char → Prop
  | nil : Delimited []
  | blank {c : Char} (hc : isSpace c = true) (rest : List Char) : Delimited (c :: rest)
  | comma (rest : List Char) : Delimited (',' :: rest)
  | bracket (rest : List Char) : Delimited (']' :: rest)
  | brace (rest : List Char) : Delimited ('\x7d' :: rest)

theorem isSpace_iff {c : Char} :
    isSpace c = true ↔ c = ' ' ∨ c = '\n' ∨ c = '\t' ∨ c = '\r' := by
  simp only [isSpace, Bool.or_eq_true, beq_iff_eq, or_assoc]

/-- No number goes on with such a text. -/
theorem Delimited.stops {rest : List Char} (h : Delimited rest) :
    ∀ c ∈ rest.head?, isDigit c = false ∧ c ≠ '.' ∧ c ≠ 'e' ∧ c ≠ 'E' := by
  intro c hc
  cases h with
  | nil => contradiction
  | blank hspace =>
      obtain rfl := Option.some.inj hc
      rcases isSpace_iff.1 hspace with rfl | rfl | rfl | rfl <;> decide
  | comma | bracket | brace =>
      obtain rfl := Option.some.inj hc
      decide

theorem skipSpace_cons {c : Char} (hc : isSpace c = false) (cs : List Char) :
    skipSpace (c :: cs) = c :: cs :=
  List.dropWhile_cons_of_neg (Bool.eq_false_iff.1 hc)

section Numbers

variable {n : Nat} {rest : List Char}

theorem isDigit_of_mem_toDigits {c : Char} (hc : c ∈ Nat.toDigits 10 n) : isDigit c = true := by
  have hdigit := Nat.isDigit_of_mem_toDigits (by decide) (by decide) hc
  simpa [isDigit, Char.isDigit, Char.le_def] using hdigit

theorem isSpace_of_isDigit {c : Char} (hc : isDigit c = true) : isSpace c = false := by
  refine Bool.eq_false_iff.2 fun hspace => ?_
  rcases isSpace_iff.1 hspace with rfl | rfl | rfl | rfl <;> exact absurd hc (by decide)

theorem digitsValue_toDigits (n : Nat) : digitsValue (Nat.toDigits 10 n) = n :=
  Nat.ofDigitChars_toDigits (by decide) (by decide)

theorem head?_toDigits_ne (hn : 0 < n) : (Nat.toDigits 10 n).head? ≠ some '0' := by
  induction n using Nat.strongRecOn with
  | _ n ih =>
      by_cases hlt : n < 10
      · rw [Nat.toDigits_of_lt_base hlt]
        have hall : ∀ d < 10, 0 < d → [Nat.digitChar d].head? ≠ some '0' := by decide
        exact hall n hlt hn
      · rw [Nat.toDigits_of_base_le (by decide) (Nat.le_of_not_lt hlt),
          List.head?_append_of_ne_nil _ Nat.toDigits_ne_nil]
        exact ih (n / 10) (Nat.div_lt_self hn (by decide)) (by omega)

theorem digits_append {ds : List Char} (h : IsDigits ds)
    (hrest : ∀ c ∈ rest.head?, isDigit c = false) (atEnd : JsonError) :
    digits atEnd (ds ++ rest) = .ok (ds, rest) := by
  have hstop : rest.takeWhile isDigit = [] ∧ rest.dropWhile isDigit = rest := by
    cases rest with
    | nil => exact ⟨rfl, rfl⟩
    | cons c rest =>
        have hc := hrest c rfl
        exact ⟨List.takeWhile_cons_of_neg (Bool.eq_false_iff.1 hc),
          List.dropWhile_cons_of_neg (Bool.eq_false_iff.1 hc)⟩
  have htake : (ds ++ rest).takeWhile isDigit = ds := by
    rw [List.takeWhile_append_of_pos h.digits, hstop.1, List.append_nil]
  have hdrop : (ds ++ rest).dropWhile isDigit = rest := by
    rw [List.dropWhile_append_of_pos h.digits, hstop.2]
  rw [digits, htake, hdrop]
  cases ds with
  | nil => exact absurd rfl h.ne_nil
  | cons d ds => rfl

theorem isDigits_toDigits (n : Nat) : IsDigits (Nat.toDigits 10 n) :=
  ⟨Nat.toDigits_ne_nil, fun _ => isDigit_of_mem_toDigits⟩

theorem digits_toDigits (n : Nat) (hrest : Delimited rest) (atEnd : JsonError) :
    digits atEnd (Nat.toDigits 10 n ++ rest) = .ok (Nat.toDigits 10 n, rest) :=
  digits_append (isDigits_toDigits n) (fun c hc => (hrest.stops c hc).1) atEnd

theorem fraction_of_delimited (hrest : Delimited rest) (atEnd : JsonError) :
    fraction atEnd rest = .ok ([], rest) := by
  unfold fraction
  split
  · exact absurd rfl (hrest.stops '.' rfl).2.1
  · rfl

theorem exponent_of_delimited (hrest : Delimited rest) (atEnd : JsonError) :
    exponent atEnd rest = .ok (none, rest) := by
  cases rest with
  | nil => rfl
  | cons c rest =>
      obtain ⟨-, -, hlower, hupper⟩ := hrest.stops c rfl
      exact if_neg (not_or.2 ⟨hlower, hupper⟩)

/-- A number is written without a leading zero. -/
theorem unsignedNumeral_toDigits (n : Nat) (hrest : Delimited rest) (atEnd : JsonError)
    (negative : Bool) :
    unsignedNumeral atEnd negative (Nat.toDigits 10 n ++ rest) =
      .ok (⟨negative, Nat.toDigits 10 n, [], none⟩, rest) := by
  simp only [unsignedNumeral, digits_toDigits n hrest, bind, Except.bind]
  split
  next d ds hzero =>
    -- A zero with more digits after it is no number, and none is written so.
    rcases Nat.eq_zero_or_pos n with rfl | hn
    · rw [Nat.toDigits_of_lt_base (by decide)] at hzero
      simp at hzero
    · exact absurd (congrArg List.head? hzero) (head?_toDigits_ne hn)
  next =>
    rw [fraction_of_delimited hrest]
    dsimp only
    rw [exponent_of_delimited hrest]
    rfl

theorem exists_toDigits_eq_cons (n : Nat) :
    ∃ c cs, Nat.toDigits 10 n = c :: cs ∧ isDigit c = true := by
  obtain ⟨c, cs, hdigits⟩ := List.exists_cons_of_ne_nil (Nat.toDigits_ne_nil (n := n) (b := 10))
  exact ⟨c, cs, hdigits, isDigit_of_mem_toDigits (hdigits ▸ List.mem_cons_self)⟩

theorem numeral_toDigits (n : Nat) (hrest : Delimited rest) (atEnd : JsonError) :
    numeral atEnd (Nat.toDigits 10 n ++ rest) =
      .ok (⟨false, Nat.toDigits 10 n, [], none⟩, rest) := by
  obtain ⟨c, cs, hdigits, hc⟩ := exists_toDigits_eq_cons n
  rw [← unsignedNumeral_toDigits n hrest atEnd false, hdigits, List.cons_append, numeral]
  rintro tail ⟨⟩
  contradiction

theorem le_ofDigitChars (ds : List Char) (n : Nat) : n ≤ Nat.ofDigitChars 10 ds n := by
  induction ds generalizing n with
  | nil => exact Nat.le_refl n
  | cons d ds ih =>
      have hle : n ≤ 10 * n + (d.toNat - '0'.toNat) := by omega
      exact Nat.le_trans hle (ih _)

/-- Numbers below the bound are not cut short. -/
theorem foldl_pushWhole {ds : List Char} {n : Nat}
    (h : Nat.ofDigitChars 10 ds n < 0x10000000000000000) :
    ds.foldl Numeral.Scaled.pushWhole ⟨n, 0, true⟩ = ⟨Nat.ofDigitChars 10 ds n, 0, true⟩ := by
  induction ds generalizing n with
  | nil => rfl
  | cons d ds ih =>
      have hlt : 10 * n + digitValue d < 0x10000000000000000 :=
        Nat.lt_of_le_of_lt (le_ofDigitChars ds _) h
      have hpush : Numeral.Scaled.pushWhole ⟨n, 0, true⟩ d = ⟨10 * n + digitValue d, 0, true⟩ := by
        simp [Numeral.Scaled.pushWhole, hlt]
      rw [List.foldl_cons, hpush]
      exact ih h

theorem round53_le (n : Nat) : Numeral.round53 n ≤ 2 * n + 1 := by
  have hunit : 1 <<< (n.log2 + 1 - 53) ≤ n + 1 := by
    rw [Nat.shiftLeft_eq, Nat.one_mul]
    rcases Nat.eq_zero_or_pos n with rfl | hn
    · decide
    · have hlog := Nat.log2_self_le (Nat.ne_of_gt hn)
      have hpow := Nat.pow_le_pow_right (n := 2) (by decide)
        (show n.log2 + 1 - 53 ≤ n.log2 by omega)
      omega
  have hkept := Nat.div_mul_le_self n (1 <<< (n.log2 + 1 - 53))
  rw [Numeral.round53]
  split
  · rw [Nat.add_one_mul]
    omega
  · omega

/-- No 64-bit number is too large for the range of numbers. -/
theorem isHuge_toDigits (hn : n < 0x10000000000000000) :
    (⟨false, Nat.toDigits 10 n, [], none⟩ : Numeral).isHuge = false := by
  have hvalue : Nat.ofDigitChars 10 (Nat.toDigits 10 n) 0 = n := digitsValue_toDigits n
  have hbelow : Nat.ofDigitChars 10 (Nat.toDigits 10 n) 0 < 0x10000000000000000 := by
    rw [hvalue]
    exact hn
  have hfold := foldl_pushWhole hbelow
  have hscaled : (⟨false, Nat.toDigits 10 n, [], none⟩ : Numeral).scaled = ⟨n, 0, true⟩ := by
    simp only [Numeral.scaled, hfold, hvalue, List.foldl_nil]
  -- The power of ten is zero, so the digits alone would have to be out of range.
  have hone : Numeral.round53 (Nat.pow 10 (0 : Int).toNat) = 1 := by decide
  have hbound : 2 * 0x10000000000000000 ≤ (1 <<< 1024) - (1 <<< 970) := by decide +kernel
  have hlt : Numeral.round53 n * 1 < (1 <<< 1024) - (1 <<< 970) := by
    have hround := round53_le n
    refine Nat.lt_of_lt_of_le ?_ hbound
    omega
  simp only [Numeral.isHuge, hscaled, hone, Nat.not_le_of_lt hlt]
  simp

theorem natBelow_toDigits {bound : Nat} (hn : n < bound) (hbound : bound ≤ 0x10000000000000000)
    (hrest : Delimited rest) : natBelow bound (Nat.toDigits 10 n ++ rest) = .ok (n, rest) := by
  obtain ⟨c, cs, hdigits, hc⟩ := exists_toDigits_eq_cons n
  have hnumber : number (Nat.toDigits 10 n ++ rest) =
      .ok (⟨false, Nat.toDigits 10 n, [], none⟩, rest) := by
    simp only [number, numeral_toDigits n hrest, bind, Except.bind,
      isHuge_toDigits (Nat.lt_of_lt_of_le hn hbound)]
    rfl
  have hnatural : (⟨false, Nat.toDigits 10 n, [], none⟩ : Numeral).natural? = some n := by
    simp [Numeral.natural?, digitsValue_toDigits]
  rw [hdigits, List.cons_append] at hnumber ⊢
  rw [hdigits] at hnatural
  rw [natBelow, skipSpace_cons (isSpace_of_isDigit hc)]
  dsimp only
  rw [if_pos (.inr hc)]
  simp only [hnumber, hnatural, hn, bind, Except.bind, if_true]
  rfl

end Numbers

/-- A string is read up to its closing quote. -/
theorem stringBody_append {paired : Bool} {value cs : List Char} (h : StringText paired value cs)
    (text rest : List Char) :
    stringBody paired text (cs ++ '"' :: rest) = .ok (text.reverse ++ value, rest) := by
  induction h generalizing text with
  | nil => simp [stringBody]
  | @plain c value cs hc _ ih =>
      simp only [isPlain, Bool.and_eq_true, bne_iff_ne, decide_eq_true_eq] at hc
      obtain ⟨⟨hquote, hescape⟩, hcontrol⟩ := hc
      rw [List.cons_append, stringBody]
      · rw [if_neg (Nat.not_lt_of_le hcontrol), ih, List.reverse_cons, List.append_assoc]
        rfl
      all_goals
        intros
        contradiction
  | @escape e c value cs he _ ih =>
      have hne : e ≠ 'u' := by
        rintro rfl
        contradiction
      rw [List.cons_append, List.cons_append, stringBody]
      · rw [he]
        dsimp only
        rw [ih, List.reverse_cons, List.append_assoc]
        rfl
      all_goals
        intros
        contradiction
  | @unit a b c d unit value cs hunit halone _ ih =>
      simp only [List.cons_append, stringBody, hunit]
      have hrest := ih (Char.ofNat unit :: text)
      rw [List.reverse_cons, List.append_assoc] at hrest
      cases hpaired : paired with
      | false => simpa [hpaired] using hrest
      | true =>
          obtain ⟨hlead, htrail⟩ := halone hpaired
          simpa [hpaired, hlead, htrail] using hrest
  | @pair a b c d e f g h lead trail value cs hpaired hlead hislead htrail histrail _ ih =>
      have hnot : isTrailSurrogate lead = false := by
        simp only [isLeadSurrogate, decide_eq_true_eq] at hislead
        simp only [isTrailSurrogate, decide_eq_false_iff_not]
        omega
      have hrest := ih (pairedChar lead trail :: text)
      rw [List.reverse_cons, List.append_assoc] at hrest
      simp only [List.cons_append, stringBody, hlead, htrail]
      simpa [hpaired, hislead, hnot, histrail] using hrest

theorem stringText_of_plain {cs : List Char} (hplain : ∀ c ∈ cs, isPlain c = true)
    (paired : Bool) : StringText paired cs cs := by
  induction cs with
  | nil => exact .nil
  | cons c cs ih =>
      have hcs := ih fun c hc => hplain c (List.mem_cons_of_mem _ hc)
      exact .plain (hplain c List.mem_cons_self) hcs

namespace Codec

variable {α β : Type} {codec : Codec α}

/-- The reader takes back what was written, and the rest stays. -/
def Faithful (codec : Codec α) : Prop :=
  ∀ (a : α) {rest : List Char}, Delimited rest → codec.read (codec.write a ++ rest) = .ok (a, rest)

/-- The text of a value is a document of that value. -/
def ReadsBack (codec : Codec α) : Prop := ∀ a, codec.parse (codec.text a) = .ok a

theorem Faithful.readsBack (h : codec.Faithful) : codec.ReadsBack := by
  intro a
  have hread := h a .nil
  rw [List.append_nil] at hread
  rw [parse, Json.parse, text, String.toList_ofList, hread]
  rfl

theorem Faithful.map (h : codec.Faithful) {f : α → β} {g : β → α} (hfg : ∀ b, f (g b) = b) :
    (codec.map f g).Faithful := by
  intro b rest hrest
  simp only [Codec.map, h (g b) hrest, Except.map, hfg]

theorem faithful_uint32 : uint32.Faithful := by
  intro n rest hrest
  have hread : Json.natBelow Word.size32 (Nat.toDigits 10 n.toNat ++ rest) = .ok (n.toNat, rest) :=
    natBelow_toDigits n.toNat_lt (by decide) hrest
  simp only [uint32, Codec.map, natBelow, hread, Except.map, UInt32.ofNat_toNat]

theorem faithful_uint64 : uint64.Faithful := by
  intro n rest hrest
  have hread : Json.natBelow Word.size64 (Nat.toDigits 10 n.toNat ++ rest) = .ok (n.toNat, rest) :=
    natBelow_toDigits n.toNat_lt (by decide) hrest
  simp only [uint64, Codec.map, natBelow, hread, Except.map, UInt64.ofNat_toNat]

theorem faithful_bool : bool.Faithful := by
  intro b rest _
  cases b <;> rfl

end Codec

namespace EnumForm

variable {α : Type} {form : EnumForm α}

/-- The names can be told apart, and none needs an escape. -/
structure WellNamed (form : EnumForm α) : Prop where
  ofName? : ∀ a, form.ofName? (form.name a).toList = some a
  plain : ∀ a, (form.name a).toList.all isPlain = true

theorem WellNamed.codec (h : form.WellNamed) : form.codec.Faithful := by
  intro a rest _
  have hwrite : form.codec.write a ++ rest = '"' :: ((form.name a).toList ++ '"' :: rest) := by
    simp [EnumForm.codec, quoted]
  have hname : form.readName ((form.name a).toList ++ '"' :: rest) = .ok (a, rest) := by
    have hplain := List.all_eq_true.1 (h.plain a)
    simp only [readName, stringBody_append (stringText_of_plain hplain true), List.reverse_nil,
      List.nil_append, h.ofName? a, bind, Except.bind]
    rfl
  rw [hwrite, ← hname]
  rfl

end EnumForm
end Json
end Lockstep
