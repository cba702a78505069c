import PipelineEditor.Proofs.Json.Reading

/-!
# Reading back the compact form

The compact text of a JSON value is read as that value again, whatever stands behind it, as long
as its numbers are integers and no container stands inside 127 others.  The compact form is put
together from the texts of its parts without any space, so the containers come back when their parts
do; what is left are the scalars.  The digits of an integer name it.  Real numbers are left out,
since their shortest digits would have to be shown to round to them.

* `Numeral.scan?_intText` — **an integer comes back** from its text;
* `Json.Nests` — the values with integers only and a bounded number of nested containers;
* `Json.Nests.readsBack` — **such a value comes back** from its compact form;
* `Source.parse?_compact` — the same for a whole text.
-/

namespace PipelineEditor

/-! ## Integers -/

namespace Numeral

theorem digitChar_value : ∀ d < 10, (Nat.digitChar d).toNat - 48 = d := by
  decide

theorem natOf_append (digits : List Char) (c : Char) :
    natOf (digits ++ [c]) = 10 * natOf digits + (c.toNat - 48) := by
  simp only [natOf, List.foldl_append, List.foldl_cons, List.foldl_nil]

/-- **The decimal digits of a number name it.** -/
theorem natOf_toDigits (n : Nat) : natOf (Nat.toDigits 10 n) = n := by
  induction n using Nat.strongRecOn with
  | ind n ih =>
    by_cases h : n < 10
    · rw [Nat.toDigits_of_lt_base h]
      show 10 * 0 + ((Nat.digitChar n).toNat - 48) = n
      rw [digitChar_value n h]
      omega
    · rw [Nat.toDigits_of_base_le (by decide) (Nat.le_of_not_lt h), natOf_append,
        ih (n / 10) (by omega), digitChar_value (n % 10) (Nat.mod_lt n (by decide))]
      omega

theorem isDigit_of_mem_toDigits {n : Nat} {c : Char} (hc : c ∈ Nat.toDigits 10 n) :
    c.isDigit = true :=
  Nat.isDigit_of_mem_toDigits (by decide) (by decide) hc

/-- A number other than zero is written without a leading zero. -/
theorem head?_toDigits {n : Nat} (h : n ≠ 0) : (Nat.toDigits 10 n).head? ≠ some '0' := by
  induction n using Nat.strongRecOn with
  | ind n ih =>
    by_cases hn : n < 10
    · have hdigit : ∀ d < 10, d ≠ 0 → Nat.digitChar d ≠ '0' := by decide
      rw [Nat.toDigits_of_lt_base hn, List.head?_cons]
      exact fun heq => hdigit n hn h (Option.some.inj heq)
    · rw [Nat.toDigits_of_base_le (by decide) (Nat.le_of_not_lt hn), List.head?_append]
      cases hd : Nat.toDigits 10 (n / 10) with
      | nil => exact absurd hd Nat.toDigits_ne_nil
      | cons c rest =>
        have hhead := ih (n / 10) (by omega) (by omega)
        rw [hd] at hhead
        exact hhead

theorem toDigits_no_leading_zero (n : Nat) :
    ¬ (Nat.toDigits 10 n = [] ∨
      ((Nat.toDigits 10 n).head? = some '0' ∧ (Nat.toDigits 10 n).length ≠ 1)) := by
  rintro (hnil | ⟨hzero, hlong⟩)
  · exact Nat.toDigits_ne_nil hnil
  · by_cases h : n = 0
    · subst h
      exact hlong (by decide)
    · exact head?_toDigits h hzero

/-- No digit is a minus. -/
theorem takeMinus_toDigits (n : Nat) :
    takeMinus (Nat.toDigits 10 n) = (false, Nat.toDigits 10 n) := by
  unfold takeMinus
  split
  next rest h =>
    have hminus : '-' ∈ Nat.toDigits 10 n := by rw [h]; exact List.mem_cons_self
    exact absurd (isDigit_of_mem_toDigits hminus) (by decide)
  · rfl

/-- The digits of a number, with or without a sign, are a numeral without further parts. -/
theorem scan?_of_takeMinus {cs : List Char} {negative : Bool} {n : Nat}
    (h : takeMinus cs = (negative, Nat.toDigits 10 n)) :
    scan? cs = some ⟨negative, Nat.toDigits 10 n, none, none⟩ := by
  have hdigits : ∀ c ∈ Nat.toDigits 10 n, c.isDigit = true := fun _ => isDigit_of_mem_toDigits
  have hwhole : (Nat.toDigits 10 n).takeWhile Char.isDigit = Nat.toDigits 10 n := by
    have happend : (Nat.toDigits 10 n ++ []).takeWhile Char.isDigit = Nat.toDigits 10 n ++ [] :=
      List.takeWhile_append_of_pos hdigits
    rwa [List.append_nil] at happend
  have hrest : (Nat.toDigits 10 n).dropWhile Char.isDigit = [] := by
    have happend : (Nat.toDigits 10 n ++ []).dropWhile Char.isDigit = [] :=
      List.dropWhile_append_of_pos hdigits
    rwa [List.append_nil] at happend
  unfold scan?
  simp only [h, hwhole, hrest]
  rw [if_neg (toDigits_no_leading_zero n)]
  rfl

/-- **An integer is read back from its text.** -/
theorem scan?_intText {n : Int} (h : FitsWord n) :
    ∃ m, scan? (Number.intText n) = some m ∧ m.value? = some (.int n h) := by
  refine ⟨⟨decide (n < 0), Nat.toDigits 10 n.natAbs, none, none⟩, ?_, ?_⟩
  · refine scan?_of_takeMinus ?_
    unfold Number.intText
    split
    next hn => rw [decide_eq_true hn]; rfl
    next hn => rw [decide_eq_false hn]; exact takeMinus_toDigits n.natAbs
  · have hvalue : (if n < 0 then -(n.natAbs : Int) else (n.natAbs : Int)) = n := by
      split <;> omega
    have hzero : ¬ (n < 0 ∧ n.natAbs = 0) := by omega
    simp only [value?, natOf_toDigits, decide_eq_true_eq, hvalue, if_neg hzero, dif_pos h]

/-- The text of an integer is made of the characters of numerals, and there is one. -/
theorem intText_chars (n : Int) : ∃ c cs, Number.intText n = c :: cs ∧
    ∀ d ∈ c :: cs, isNumeralChar d = true := by
  have hdigits : ∀ d ∈ Nat.toDigits 10 n.natAbs, isNumeralChar d = true := by
    intro d hd
    simp only [isNumeralChar, isDigit_of_mem_toDigits hd, Bool.true_or]
  unfold Number.intText
  split
  · refine ⟨'-', _, rfl, fun d hd => ?_⟩
    rcases List.mem_cons.mp hd with rfl | hd
    · rfl
    · exact hdigits d hd
  · cases hcs : Nat.toDigits 10 n.natAbs with
    | nil => exact absurd hcs Nat.toDigits_ne_nil
    | cons c cs => exact ⟨c, cs, rfl, hcs ▸ hdigits⟩

end Numeral
/-! ## Values -/

namespace Json

/-- A value whose numbers are integers, with at most so many containers inside one another. -/
inductive Nests : Json → Nat → Prop where
  | null (n : Nat) : Nests .null n
  | bool (b : Bool) (n : Nat) : Nests (.bool b) n
  | int (i : Int) (h : FitsWord i) (n : Nat) : Nests (.number (.int i h)) n
  | string (s : String) (n : Nat) : Nests (.string s) n
  | array {n : Nat} {elements : List Json} (h : ∀ j ∈ elements, Nests j n) :
      Nests (.array elements) (n + 1)
  | object {n : Nat} {members : List (String × Json)} (h : ∀ m ∈ members, Nests m.2 n) :
      Nests (.object members) (n + 1)

open Json.Parser

/-- A value comes back from its compact form, inside as many containers as leave room for `n`
more, and with two calls to spare for every character. -/
def ReadsBack (j : Json) (n : Nat) : Prop :=
  ∀ fuel depth rest, depth + n ≤ depthLimit → 2 * j.compactChars.length ≤ fuel →
    EndsNumeral rest → value? fuel depth (j.compactChars ++ rest) = some (j.toSource, rest)

/-! ### Scalars -/

theorem takeWhile_numeral {cs rest : List Char} (hcs : ∀ c ∈ cs, Numeral.isNumeralChar c = true)
    (hrest : EndsNumeral rest) : (cs ++ rest).takeWhile Numeral.isNumeralChar = cs := by
  rw [List.takeWhile_append_of_pos hcs]
  cases rest with
  | nil => rw [List.takeWhile_nil, List.append_nil]
  | cons c after =>
    rw [List.takeWhile_cons_of_neg (by rw [hrest c after rfl]; decide), List.append_nil]

theorem dropWhile_numeral {cs rest : List Char} (hcs : ∀ c ∈ cs, Numeral.isNumeralChar c = true)
    (hrest : EndsNumeral rest) : (cs ++ rest).dropWhile Numeral.isNumeralChar = rest := by
  rw [List.dropWhile_append_of_pos hcs]
  cases rest with
  | nil => rfl
  | cons c after => rw [List.dropWhile_cons_of_neg (by rw [hrest c after rfl]; decide)]

/-- What starts like a numeral is read as one. -/
theorem value?_numeral {c : Char} (hc : Numeral.isNumeralChar c = true) (fuel depth : Nat)
    (cs : List Char) :
    value? (fuel + 1) depth (c :: cs) =
      (Numeral.scan? ((c :: cs).takeWhile Numeral.isNumeralChar)).map fun n =>
        (match n.value? with
          | some v => .number v
          | none => .unreadable, (c :: cs).dropWhile Numeral.isNumeralChar) := by
  -- no other form of a value starts with a character of numerals
  have hother : ∀ {d : Char} {after : List Char}, Numeral.isNumeralChar d = false →
      c :: cs ≠ d :: after := by
    intro d after hd heq
    rw [(List.cons.inj heq).1, hd] at hc
    cases hc
  rw [value?, skipSpace_cons (isSpace_of_isNumeralChar hc)]
  split
  next h => exact absurd h (hother (by decide))
  next h => exact absurd h (hother (by decide))
  next h => exact absurd h (hother (by decide))
  unfold scalar?
  split
  next h => exact absurd h (hother (by decide))
  next h => exact absurd h (hother (by decide))
  next h => exact absurd h (hother (by decide))
  · rfl

theorem readsBack_int (i : Int) (h : FitsWord i) (n : Nat) :
    ReadsBack (.number (.int i h)) n := by
  intro fuel depth rest _ hfuel hrest
  have hchars : (Json.number (.int i h)).compactChars = Number.intText i := by
    rw [compactChars, Number.text]
  obtain ⟨c, cs, htext, hnumeral⟩ := Numeral.intText_chars i
  obtain ⟨m, hscan, hvalue⟩ := Numeral.scan?_intText h
  rw [hchars, htext, List.length_cons] at hfuel
  cases fuel with
  | zero => omega
  | succ fuel =>
    rw [hchars, htext, List.cons_append, value?_numeral (hnumeral c List.mem_cons_self),
      ← List.cons_append, takeWhile_numeral hnumeral hrest, dropWhile_numeral hnumeral hrest,
      ← htext, hscan]
    simp only [Option.map_some, hvalue, toSource]

theorem readsBack_string (s : String) (n : Nat) : ReadsBack (.string s) n := by
  rw [ReadsBack, compactChars]
  exact readAs_string s n

/-! ### Containers -/

/-- Elements that come back come back one after the other, up to the closing bracket. -/
theorem elements_readAs {n : Nat} {j : Json} {js : List Json}
    (hread : ∀ k ∈ j :: js, ReadsBack k n) :
    ElementsReadAs (j.compactChars ++ moreElements js) (j :: js) n := by
  induction js generalizing j with
  | nil =>
    rw [moreElements]
    exact ElementsReadAs.last (hread j List.mem_cons_self) space_nil
  | cons k ks ih =>
    rw [moreElements]
    exact ElementsReadAs.cons (hread j List.mem_cons_self)
      (ih fun l hl => hread l (List.mem_cons_of_mem _ hl))

/-- Members whose values come back come back one after the other, up to the closing brace. -/
theorem members_readAs {n : Nat} {name : String} {j : Json} {ms : List (String × Json)}
    (hread : ∀ m ∈ (name, j) :: ms, ReadsBack m.2 n) :
    MembersReadAs (quote name.toList ++ ':' :: (j.compactChars ++ moreMembers ms))
      ((name, j) :: ms) n := by
  have hj : ReadsBack j n := hread (name, j) List.mem_cons_self
  induction ms generalizing name j with
  | nil =>
    rw [moreMembers]
    exact MembersReadAs.last name hj space_nil
  | cons m ms ih =>
    obtain ⟨other, k⟩ := m
    have hrest : ∀ l ∈ (other, k) :: ms, ReadsBack l.2 n := fun l hl =>
      hread l (List.mem_cons_of_mem _ hl)
    have hmore := ih hrest (hrest (other, k) List.mem_cons_self)
    have htext : moreMembers ((other, k) :: ms) =
        ',' :: (quote other.toList ++ ':' :: (k.compactChars ++ moreMembers ms)) := by
      simp only [moreMembers, List.cons_append, List.append_assoc]
    rw [htext]
    exact MembersReadAs.cons name hj hmore

theorem readsBack_array {n : Nat} {elements : List Json}
    (hread : ∀ j ∈ elements, ReadsBack j n) : ReadsBack (.array elements) (n + 1) := by
  cases elements with
  | nil => exact ReadAs.noElements space_nil n
  | cons j js =>
    rw [ReadsBack, compactChars]
    exact ReadAs.array (elements_readAs hread)

theorem readsBack_object {n : Nat} {members : List (String × Json)}
    (hread : ∀ m ∈ members, ReadsBack m.2 n) : ReadsBack (.object members) (n + 1) := by
  cases members with
  | nil => exact ReadAs.noMembers space_nil n
  | cons m ms =>
    obtain ⟨name, j⟩ := m
    have htext : (Json.object ((name, j) :: ms)).compactChars =
        '{' :: (quote name.toList ++ ':' :: (j.compactChars ++ moreMembers ms)) := by
      simp only [compactChars, List.cons_append, List.append_assoc]
    rw [ReadsBack, htext]
    exact ReadAs.object (members_readAs hread)

/-- **A value with integers only and not too many nested containers comes back.** -/
theorem Nests.readsBack {j : Json} {n : Nat} (h : Nests j n) : ReadsBack j n := by
  induction h with
  | null n =>
    intro fuel depth rest _ hfuel _
    cases fuel with
    | zero => simp [compactChars] at hfuel
    | succ fuel => rfl
  | bool b n =>
    intro fuel depth rest _ hfuel _
    cases fuel with
    | zero => cases b <;> simp [compactChars] at hfuel
    | succ fuel => cases b <;> rfl
  | int i hi n => exact readsBack_int i hi n
  | string s n => exact readsBack_string s n
  | array _ ih => exact readsBack_array ih
  | object _ ih => exact readsBack_object ih

end Json

/-- **A value comes back from its compact text**, if its numbers are integers and no container
stands inside 127 others. -/
theorem Source.parse?_compact {j : Json} {n : Nat} (h : j.Nests n)
    (hn : n ≤ Json.Parser.depthLimit) : Source.parse? j.compact = some j.toSource := by
  refine Json.ReadAs.parse? h.readsBack hn Json.space_nil ?_
  rw [Json.compact, String.toList_ofList, List.append_nil]

end PipelineEditor
