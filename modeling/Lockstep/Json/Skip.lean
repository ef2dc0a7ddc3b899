import Lockstep.Json.Reader

/-!
# Skipping JSON values

A value that nobody asked for has to be well-formed, and nothing more: numbers
may have any size, and the halves of surrogate pairs may stand alone.  Open lists
and objects are kept on a stack, so values may be nested to any depth.
-/

namespace Lockstep
namespace Json

inductive Bracket where
  | list
  | object
deriving DecidableEq

/-- What may come next while a value is skipped. -/
inductive Expected where
  | value
  | item
  | member
  | key
  | next
deriving DecidableEq

theorem length_skipSpace_le (cs : List Char) : (skipSpace cs).length ≤ cs.length :=
  (List.dropWhile_sublist _).length_le

theorem length_word {ws cs rest : List Char} (h : word ws cs = .ok ((), rest)) :
    rest.length ≤ cs.length := by
  induction ws generalizing cs with
  | nil => simp only [word, Except.ok.injEq, Prod.mk.injEq, true_and] at h; simp [h]
  | cons w ws ih =>
      cases cs with
      | nil => simp [word] at h
      | cons c cs =>
          simp only [word] at h
          split at h
          · have := ih h; simp; omega
          · simp at h

theorem length_stringBody {paired : Bool} {text cs out rest : List Char}
    (h : stringBody paired text cs = .ok (out, rest)) : rest.length ≤ cs.length := by
  fun_induction stringBody paired text cs <;>
    (simp only [List.length_cons, List.length_nil]; grind)

theorem length_digits {atEnd : JsonError} {cs ds rest : List Char}
    (h : digits atEnd cs = .ok (ds, rest)) : rest.length < cs.length := by
  have split := congrArg List.length (List.takeWhile_append_dropWhile (p := isDigit) (l := cs))
  simp only [List.length_append] at split
  simp only [digits] at h
  split at h
  · simp at h
  · rename_i hne
    simp only [Except.ok.injEq, Prod.mk.injEq] at h
    have : 0 < (cs.takeWhile isDigit).length := List.length_pos_iff.mpr hne
    rw [← h.2]; omega

theorem length_fraction {atEnd : JsonError} {cs ds rest : List Char}
    (h : fraction atEnd cs = .ok (ds, rest)) : rest.length ≤ cs.length := by
  unfold fraction at h
  split at h
  · have := length_digits h; simp; omega
  · simp only [Except.ok.injEq, Prod.mk.injEq] at h; simp [h.2]

theorem length_exponent {atEnd : JsonError} {cs rest : List Char}
    {e : Option (Bool × List Char)} (h : exponent atEnd cs = .ok (e, rest)) :
    rest.length ≤ cs.length := by
  have bound {b : Bool} {tail : List Char}
      (h : (digits atEnd tail >>= fun p => pure (some (b, p.1), p.2)) = Except.ok (e, rest)) :
      rest.length < tail.length := by
    cases hd : digits atEnd tail with
    | error e => rw [hd] at h; simp [bind, Except.bind] at h
    | ok p =>
        obtain ⟨ds, tail⟩ := p
        rw [hd] at h
        simp only [bind, Except.bind, pure, Except.pure, Except.ok.injEq, Prod.mk.injEq] at h
        rw [← h.2]
        exact length_digits hd
  unfold exponent at h
  split at h
  · split at h
    · split at h
      all_goals
        have := bound h
        simp only [List.length_cons] at *
        omega
    · simp only [Except.ok.injEq, Prod.mk.injEq] at h; simp [← h.2]
  · simp only [Except.ok.injEq, Prod.mk.injEq] at h; simp [← h.2]

theorem length_unsignedNumeral {atEnd : JsonError} {negative : Bool} {cs rest : List Char}
    {n : Numeral} (h : unsignedNumeral atEnd negative cs = .ok (n, rest)) :
    rest.length < cs.length := by
  unfold unsignedNumeral at h
  cases hd : digits atEnd cs with
  | error e => rw [hd] at h; simp [bind, Except.bind] at h
  | ok p =>
      obtain ⟨whole, tail⟩ := p
      have hw := length_digits hd
      rw [hd] at h
      simp only [bind, Except.bind] at h
      split at h
      · simp [throw, throwThe, MonadExceptOf.throw] at h
      · cases hf : fraction atEnd tail with
        | error e => rw [hf] at h; simp at h
        | ok p =>
            obtain ⟨fr, tail⟩ := p
            have hfr := length_fraction hf
            rw [hf] at h
            simp only at h
            cases he : exponent atEnd tail with
            | error e => rw [he] at h; simp at h
            | ok p =>
                obtain ⟨ex, tail⟩ := p
                have hex := length_exponent he
                rw [he] at h
                simp only [pure, Except.pure, Except.ok.injEq, Prod.mk.injEq] at h
                rw [← h.2]; omega

theorem length_numeral {atEnd : JsonError} {cs rest : List Char} {n : Numeral}
    (h : numeral atEnd cs = .ok (n, rest)) : rest.length < cs.length := by
  unfold numeral at h
  split at h
  · have := length_unsignedNumeral h; simp; omega
  · exact length_unsignedNumeral h

theorem length_afterColon {cs rest : List Char} (h : afterColon cs = .ok rest) :
    rest.length < cs.length := by
  have := length_skipSpace_le cs
  simp only [afterColon] at h
  split at h
  · simp at h
  · rename_i heq
    simp only [Except.ok.injEq] at h
    rw [heq] at this
    simp only [List.length_cons] at this
    rw [← h]; omega
  · simp at h

/-- Reads the start of a value whose first character is `c`: an opening bracket,
or else a complete scalar. -/
def opening (c : Char) (rest : List Char) : Except JsonError (Option Bracket × List Char) :=
  if c = '[' then .ok (some .list, rest)
  else if c = '\x7b' then .ok (some .object, rest)
  else (none, ·) <$>
    if c = '"' then Prod.snd <$> stringBody false [] rest
    else if c = 'n' then Prod.snd <$> word "ull".toList rest
    else if c = 't' then Prod.snd <$> word "rue".toList rest
    else if c = 'f' then Prod.snd <$> word "alse".toList rest
    else if c = '-' ∨ isDigit c then Prod.snd <$> numeral .malformed (c :: rest)
    else .error .malformed

def skipStep (expected : Expected) (brackets : List Bracket) (c : Char) (rest : List Char) :
    Except JsonError (Expected × List Bracket × List Char) :=
  match expected, c, brackets with
  | .item, ']', _ :: outer => .ok (.next, outer, rest)
  | .member, '\x7d', _ :: outer => .ok (.next, outer, rest)
  | .next, ']', .list :: outer => .ok (.next, outer, rest)
  | .next, '\x7d', .object :: outer => .ok (.next, outer, rest)
  | .next, ',', .list :: _ => .ok (.value, brackets, rest)
  | .next, ',', .object :: _ => .ok (.key, brackets, rest)
  | .next, _, _ => .error .malformed
  | .member, '"', _ | .key, '"', _ => do
      let (_, rest) ← stringBody false [] rest
      return (.value, brackets, ← afterColon rest)
  | .member, _, _ | .key, _, _ => .error .malformed
  | .item, _, _ | .value, _, _ => do
      match ← opening c rest with
      | (some .list, rest) => return (.item, .list :: brackets, rest)
      | (some .object, rest) => return (.member, .object :: brackets, rest)
      | (none, rest) => return (.next, brackets, rest)

theorem length_opening {c : Char} {rest rest' : List Char} {b : Option Bracket}
    (h : opening c rest = .ok (b, rest')) : rest'.length ≤ rest.length := by
  have lift {α : Type} {x : Except JsonError (α × List Char)}
      (h : (none, ·) <$> (Prod.snd <$> x) = Except.ok (b, rest')) :
      ∃ a, x = .ok (a, rest') := by
    cases x with
    | error e => simp [Functor.map, Except.map] at h
    | ok p =>
        simp only [Functor.map, Except.map, Except.ok.injEq, Prod.mk.injEq] at h
        exact ⟨p.1, by rw [← h.2]⟩
  unfold opening at h
  split at h
  · simp_all
  split at h
  · simp_all
  split at h
  · obtain ⟨a, h⟩ := lift h; exact length_stringBody h
  split at h
  · obtain ⟨a, h⟩ := lift h; exact length_word h
  split at h
  · obtain ⟨a, h⟩ := lift h; exact length_word h
  split at h
  · obtain ⟨a, h⟩ := lift h; exact length_word h
  split at h
  · obtain ⟨a, h⟩ := lift h
    have := length_numeral h
    simp only [List.length_cons] at this
    omega
  · simp [Functor.map, Except.map] at h

theorem length_skipStep {expected expected' : Expected} {brackets brackets' : List Bracket}
    {c : Char} {rest rest' : List Char}
    (h : skipStep expected brackets c rest = .ok (expected', brackets', rest')) :
    rest'.length ≤ rest.length := by
  have keyStep (h : (do
      let (_, rest) ← stringBody false [] rest
      return (Expected.value, brackets, ← afterColon rest)) =
        Except.ok (expected', brackets', rest')) : rest'.length ≤ rest.length := by
    cases hs : stringBody false [] rest with
    | error e => rw [hs] at h; simp [bind, Except.bind] at h
    | ok p =>
        obtain ⟨text, tail⟩ := p
        have h1 := length_stringBody hs
        rw [hs] at h
        simp only [bind, Except.bind] at h
        cases hc : afterColon tail with
        | error e => rw [hc] at h; simp at h
        | ok r =>
            have h2 := length_afterColon hc
            rw [hc] at h
            simp only [pure, Except.pure, Except.ok.injEq, Prod.mk.injEq] at h
            rw [← h.2.2]; omega
  have valueStep (h : (do
      match ← opening c rest with
      | (some .list, rest) => return (Expected.item, Bracket.list :: brackets, rest)
      | (some .object, rest) => return (Expected.member, Bracket.object :: brackets, rest)
      | (none, rest) => return (Expected.next, brackets, rest)) =
        Except.ok (expected', brackets', rest')) : rest'.length ≤ rest.length := by
    cases ho : opening c rest with
    | error e => rw [ho] at h; simp [bind, Except.bind] at h
    | ok p =>
        obtain ⟨bracket, tail⟩ := p
        have := length_opening ho
        rw [ho] at h
        simp only [bind, Except.bind] at h
        split at h <;>
          (simp only [pure, Except.pure, Except.ok.injEq, Prod.mk.injEq] at h; simp_all)
  unfold skipStep at h
  split at h
  all_goals first
    | exact keyStep h
    | exact valueStep h
    | (simp only [Except.ok.injEq, Prod.mk.injEq] at h; simp [h.2.2])
    | simp at h

/-- Skips what is `expected` and then whatever the open brackets still need, and
answers the text after it. -/
def skip (expected : Expected) (brackets : List Bracket) (cs : List Char) :
    Except JsonError (List Char) :=
  match expected, brackets with
  | .next, [] => .ok cs
  | expected, brackets =>
      match hs : skipSpace cs with
      | [] => .error .truncated
      | c :: rest =>
          match h : skipStep expected brackets c rest with
          | .error e => .error e
          | .ok (expected, brackets, rest') =>
              have : rest'.length < cs.length := by
                have h1 := length_skipStep h
                have h2 := length_skipSpace_le cs
                rw [hs, List.length_cons] at h2
                omega
              skip expected brackets rest'
termination_by cs.length

def skipValue (cs : List Char) : Except JsonError (List Char) := skip .value [] cs

end Json
end Lockstep
