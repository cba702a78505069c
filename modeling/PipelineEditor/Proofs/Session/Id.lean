import PipelineEditor.Proofs.Wire.Basic
import PipelineEditor.Session.Id

/-!
# Reading back identifiers

An identifier is written in groups of digits with hyphens between them.  The groups have known
lengths, so that the hyphens are found where they were put and the digits are what is left.  The
form is not mistaken for one of the other three: it starts with a digit, and with its hyphens it
is longer than 32 characters.

* `SessionId.unhyphenated?_hyphenated` — the hyphens are taken out again;
* `SessionId.ofText?_text` — **the identifier is read from its written form**.
-/

namespace PipelineEditor

open Wire

namespace SessionId

theorem digit?_digitChar (d : Fin 16) : digit? (Nat.digitChar d.val) = some d := by
  revert d
  decide

theorem mapM_digit? (ds : List (Fin 16)) :
    (ds.map fun d => Nat.digitChar d.val).mapM digit? = some ds := by
  induction ds with
  | nil => rfl
  | cons d ds ih =>
    rw [List.map_cons, List.mapM_cons, digit?_digitChar, ih]
    rfl

/-- The first group has its length, and the others have theirs together. -/
theorem length_groups {n : Nat} {rest : List Nat} {cs : List Char}
    (h : cs.length = (n :: rest).foldr (· + ·) 0) :
    (cs.take n).length = n ∧ (cs.drop n).length = rest.foldr (· + ·) 0 := by
  rw [List.length_take, List.length_drop, h, List.foldr_cons]
  omega

/-- The hyphens are found where they were put. -/
theorem unhyphenated?_hyphenated : ∀ {lengths : List Nat} {cs : List Char}, lengths ≠ [] →
    cs.length = lengths.foldr (· + ·) 0 → unhyphenated? lengths (hyphenated lengths cs) = some cs
  | [], _, hne, _ => (hne rfl).elim
  | [n], cs, _, hlength => by
    have hn : cs.length = n := hlength
    rw [hyphenated, unhyphenated?, List.take_of_length_le (Nat.le_of_eq hn), if_pos hn]
  | n :: m :: rest, cs, _, hlength => by
    obtain ⟨hn, hrest⟩ := length_groups hlength
    have hdrop : (cs.take n ++ '-' :: hyphenated (m :: rest) (cs.drop n)).drop n =
        '-' :: hyphenated (m :: rest) (cs.drop n) := List.drop_left' hn
    have htake : (cs.take n ++ '-' :: hyphenated (m :: rest) (cs.drop n)).take n = cs.take n :=
      List.take_left' hn
    rw [hyphenated, unhyphenated?, hdrop, htake]
    · simp only []
      rw [unhyphenated?_hyphenated (List.cons_ne_nil m rest) hrest, Option.map_some,
        List.take_append_drop]
    · exact nofun
    · exact nofun

/-- One hyphen is put between two groups. -/
theorem length_hyphenated : ∀ {lengths : List Nat} {cs : List Char},
    cs.length = lengths.foldr (· + ·) 0 →
    (hyphenated lengths cs).length = lengths.foldr (· + ·) 0 + (lengths.length - 1)
  | [], _, _ => rfl
  | [n], cs, hlength => by
    have hn : cs.length = n := hlength
    rw [hyphenated, List.take_of_length_le (Nat.le_of_eq hn), hn]
    rfl
  | n :: m :: rest, cs, hlength => by
    obtain ⟨hn, hrest⟩ := length_groups hlength
    have hlonger := length_hyphenated hrest
    rw [hyphenated, List.length_append, hn, List.length_cons, hlonger]
    · simp only [List.length_cons, List.foldr_cons]
      omega
    · exact nofun

theorem ofDigits?_digits (id : SessionId) :
    ofDigits? (id.digits.map fun d => Nat.digitChar d.val) = some id := by
  rw [ofDigits?, mapM_digit?]
  exact dif_pos id.count

/-- **The identifier is read from its written form.** -/
theorem ofText?_text (id : SessionId) : ofText? id.text = some id := by
  have hlength : (id.digits.map fun d => Nat.digitChar d.val).length =
      groupLengths.foldr (· + ·) 0 := by
    rw [List.length_map, id.count]
    rfl
  have hchars : id.text.toList =
      hyphenated groupLengths (id.digits.map fun d => Nat.digitChar d.val) :=
    String.toList_ofList
  have htext : id.text.toList.length = 36 := by
    rw [hchars, length_hyphenated hlength]
    rfl
  have hplain : (unhyphenated? groupLengths id.text.toList).bind ofDigits? = some id := by
    rw [hchars, unhyphenated?_hyphenated (by decide) hlength, Option.bind_some, ofDigits?_digits]
  -- a text in groups starts with a digit, so that neither of the two marks stands in front
  obtain ⟨d, hfirst⟩ : ∃ d : Fin 16, id.text.toList.head? = some (Nat.digitChar d.val) := by
    cases hdigits : id.digits with
    | nil => exact absurd id.count (by rw [hdigits]; decide)
    | cons d ds =>
      refine ⟨d, ?_⟩
      rw [hchars, hdigits]
      rfl
  have hmarks : ∀ d : Fin 16, Nat.digitChar d.val ≠ '{' ∧ Nat.digitChar d.val ≠ 'u' := by decide
  unfold ofText?
  split
  next hbrace =>
    rw [hbrace] at hfirst
    exact absurd (Option.some.inj hfirst).symm (hmarks d).1
  next hmark =>
    rw [hmark] at hfirst
    exact absurd (Option.some.inj hfirst).symm (hmarks d).2
  next => rw [if_neg (by omega), hplain]

instance : Exact SessionId := ⟨ofText?_text⟩

end SessionId

end PipelineEditor
