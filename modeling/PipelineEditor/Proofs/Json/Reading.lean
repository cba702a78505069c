import PipelineEditor.Json.Parser
import PipelineEditor.Json.Printer

/-!
# Reading the parts of a JSON text

A reader goes over a text from part to part, and what it makes of a part depends neither on the
space in front of it nor on what stands behind it, as long as that does not go on with a numeral.
So a text can be put together from texts that are read as known values: from the texts of elements
and members, each behind a comma, comes the text of a container, however it is spread over lines.
No space stands in front of a comma or a colon here.

* `scan?_quoted` — **a quoted text comes back**, whatever characters it has;
* `Space`, `value?_append` — space in front of a value does not count;
* `ReadAs`, `ElementsReadAs`, `MembersReadAs` — texts of a value, of the elements of an array and of
  the members of an object, each up to its closing bracket;
* `ReadAs.array`, `ReadAs.object` — **containers from their parts**;
* `ReadAs.parse?` — **a whole text**.
-/

namespace PipelineEditor

/-! ## Quoted texts -/

namespace Json

theorem numberOf?_control : ∀ n < 32,
    Text.numberOf? 16 ['0', '0', hexDigit (n / 16), hexDigit (n % 16)] = some n := by
  decide

/-- A code below the surrogates names its character, whatever follows. -/
theorem decode?_code {n : Nat} (h : n < 0xD800) (units : List QuotedUnit) :
    decode? (.code n :: units) = (decode? units).map (Char.ofNat n :: ·) := by
  have hhigh : isHighSurrogate n = false := by
    simp only [isHighSurrogate, Bool.and_eq_false_iff, decide_eq_false_iff_not]
    omega
  have hlow : isLowSurrogate n = false := by
    simp only [isLowSurrogate, Bool.and_eq_false_iff, decide_eq_false_iff_not]
    omega
  cases units with
  | nil => simp [decode?, hhigh, hlow]
  | cons u rest => cases u <;> simp [decode?, hhigh, hlow]

/-- A short escape is read as the character that it stands for. -/
theorem scan?_short {e c : Char} (h : shortEscape? e = some c) (hu : e ≠ 'u') (rest : List Char) :
    scan? ('\\' :: e :: rest) = (scan? rest).map fun r => (.char c :: r.1, r.2) := by
  rw [scan?]
  · rw [h]
    cases scan? rest <;> rfl
  · intro a b c d after he _
    exact hu he

theorem scan?_plain {c : Char} (hquote : c ≠ '"') (hslash : c ≠ '\\') (hcontrol : ¬ c.toNat < 32)
    (rest : List Char) :
    scan? (c :: rest) = (scan? rest).map fun r => (.char c :: r.1, r.2) := by
  rw [scan?]
  · rw [if_neg (by rintro (h | h); exact hcontrol h; exact hslash h)]
    cases scan? rest <;> rfl
  · exact hquote
  · intro a b c d after he _
    exact hslash he
  · intro e after he _
    exact hslash he

theorem scan?_control {n : Nat} (h : n < 32) (rest : List Char) :
    scan? ('\\' :: 'u' :: '0' :: '0' :: hexDigit (n / 16) :: hexDigit (n % 16) :: rest)
      = (scan? rest).map fun r => (.code n :: r.1, r.2) := by
  rw [scan?, numberOf?_control n h]
  cases scan? rest <;> rfl

/-- A unit that stands for a written character: it is read where the character was written, and
it names the character. -/
structure Reads (unit : QuotedUnit) (c : Char) : Prop where
  scanned : ∀ rest, scan? (escape c ++ rest) = (scan? rest).map fun r => (unit :: r.1, r.2)
  named : ∀ units, decode? (unit :: units) = (decode? units).map (c :: ·)

/-- The three ways to write a character: a short escape, an escaped code, the character itself. -/
theorem escape_cases (c : Char) :
    (∃ e, escape c = ['\\', e] ∧ e ≠ 'u' ∧ shortEscape? e = some c) ∨
    (escape c = ['\\', 'u', '0', '0', hexDigit (c.toNat / 16), hexDigit (c.toNat % 16)] ∧
      c.toNat < 32) ∨
    (escape c = [c] ∧ c ≠ '"' ∧ c ≠ '\\' ∧ ¬ c.toNat < 32) := by
  have hcode : ∀ n, c.toNat = n → some (Char.ofNat n) = some c := by
    intro n hn
    rw [← hn, Char.ofNat_toNat]
  unfold escape
  split
  next h => exact .inl ⟨'"', rfl, by decide, by rw [h]; rfl⟩
  next hquote =>
  split
  next h => exact .inl ⟨'\\', rfl, by decide, by rw [h]; rfl⟩
  next hslash =>
  split
  next h => exact .inl ⟨'n', rfl, by decide, by rw [h]; rfl⟩
  split
  next h => exact .inl ⟨'r', rfl, by decide, by rw [h]; rfl⟩
  split
  next h => exact .inl ⟨'t', rfl, by decide, by rw [h]; rfl⟩
  split
  next h => exact .inl ⟨'b', rfl, by decide, hcode 8 h⟩
  split
  next h => exact .inl ⟨'f', rfl, by decide, hcode 12 h⟩
  split
  next h => exact .inr (.inl ⟨rfl, h⟩)
  next hcontrol => exact .inr (.inr ⟨rfl, hquote, hslash, hcontrol⟩)

/-- Every character that is written can be read. -/
theorem exists_reads (c : Char) : ∃ unit, Reads unit c := by
  rcases escape_cases c with ⟨e, hescape, hu, hstands⟩ | ⟨hescape, hcontrol⟩ |
    ⟨hescape, hquote, hslash, hcontrol⟩
  · refine ⟨.char c, fun rest => ?_, fun units => by simp only [decode?]⟩
    rw [hescape]
    exact scan?_short hstands hu rest
  · refine ⟨.code c.toNat, fun rest => ?_, fun units => ?_⟩
    · rw [hescape]
      exact scan?_control hcontrol rest
    · rw [decode?_code (by omega), Char.ofNat_toNat]
  · refine ⟨.char c, fun rest => ?_, fun units => by simp only [decode?]⟩
    rw [hescape]
    exact scan?_plain hquote hslash hcontrol rest

/-- **A quoted text comes back**, whatever characters it has and whatever follows it. -/
theorem scan?_quoted (cs : List Char) : ∃ units,
    (∀ rest, scan? (cs.flatMap escape ++ '"' :: rest) = some (units, rest)) ∧
      decode? units = some cs := by
  induction cs with
  | nil => exact ⟨[], fun rest => by rw [List.flatMap_nil, List.nil_append, scan?], rfl⟩
  | cons c rest ih =>
    obtain ⟨units, hscan, hdecode⟩ := ih
    obtain ⟨unit, hunit⟩ := exists_reads c
    refine ⟨unit :: units, fun after => ?_, ?_⟩
    · rw [List.flatMap_cons, List.append_assoc, hunit.scanned, hscan]
      rfl
    · rw [hunit.named, hdecode]
      rfl

/-- The quoted form of a text, and what follows it. -/
theorem quote_append (cs rest : List Char) :
    quote cs ++ rest = '"' :: (cs.flatMap escape ++ '"' :: rest) := by
  simp only [quote, List.cons_append, List.append_assoc, List.nil_append]

/-! ## Space -/

open Json.Parser

/-- Characters that are nothing but space. -/
def Space (cs : List Char) : Prop := ∀ c ∈ cs, isSpace c = true

instance (cs : List Char) : Decidable (Space cs) := List.decidableBAll (isSpace · = true) cs

theorem space_nil : Space [] := nofun

theorem skipSpace_cons {c : Char} (h : isSpace c = false) (cs : List Char) :
    skipSpace (c :: cs) = c :: cs :=
  List.dropWhile_cons_of_neg (by rw [h]; decide)

theorem skipSpace_append {gap : List Char} (h : Space gap) (cs : List Char) :
    skipSpace (gap ++ cs) = skipSpace cs :=
  List.dropWhile_append_of_pos h

/-- Every text is some space and what is left when it is skipped. -/
theorem exists_space (cs : List Char) : ∃ gap, Space gap ∧ cs = gap ++ skipSpace cs := by
  induction cs with
  | nil => exact ⟨[], space_nil, rfl⟩
  | cons c rest ih =>
    cases hc : isSpace c with
    | false => exact ⟨[], space_nil, (skipSpace_cons hc rest).symm⟩
    | true =>
      obtain ⟨gap, hgap, hrest⟩ := ih
      refine ⟨c :: gap, List.forall_mem_cons.mpr ⟨hc, hgap⟩, ?_⟩
      rw [skipSpace, List.dropWhile_cons_of_pos hc, List.cons_append]
      exact congrArg (c :: ·) hrest

/-- **Space in front of a value does not count.** -/
theorem value?_append {gap : List Char} (h : Space gap) (fuel depth : Nat) (cs : List Char) :
    value? fuel depth (gap ++ cs) = value? fuel depth cs := by
  cases fuel with
  | zero => rfl
  | succ fuel => rw [value?, value?, skipSpace_append h]

theorem elements?_append {gap : List Char} (h : Space gap) (fuel depth : Nat)
    (cs : List Char) : elements? fuel depth (gap ++ cs) = elements? fuel depth cs := by
  cases fuel with
  | zero => rfl
  | succ fuel => rw [elements?, elements?, value?_append h]

theorem members?_append {gap : List Char} (h : Space gap) (fuel depth : Nat)
    (cs : List Char) : members? fuel depth (gap ++ cs) = members? fuel depth cs := by
  cases fuel with
  | zero => rfl
  | succ fuel => rw [members?, members?, skipSpace_append h]

theorem elements?_skipSpace (fuel depth : Nat) (cs : List Char) :
    elements? fuel depth (skipSpace cs) = elements? fuel depth cs := by
  obtain ⟨gap, hgap, hcs⟩ := exists_space cs
  have hread := elements?_append hgap fuel depth (skipSpace cs)
  rw [← hcs] at hread
  exact hread.symm

theorem members?_skipSpace (fuel depth : Nat) (cs : List Char) :
    members? fuel depth (skipSpace cs) = members? fuel depth cs := by
  obtain ⟨gap, hgap, hcs⟩ := exists_space cs
  have hread := members?_append hgap fuel depth (skipSpace cs)
  rw [← hcs] at hread
  exact hread.symm

/-! ## Parts -/

/-- Characters that do not go on with a numeral. -/
def EndsNumeral (cs : List Char) : Prop :=
  ∀ c rest, cs = c :: rest → Numeral.isNumeralChar c = false

theorem endsNumeral_cons {c : Char} (h : Numeral.isNumeralChar c = false) (rest : List Char) :
    EndsNumeral (c :: rest) := by
  intro d after heq
  cases heq
  exact h

theorem isSpace_of_isNumeralChar {c : Char} (hc : Numeral.isNumeralChar c = true) :
    isSpace c = false := by
  rw [Bool.eq_false_iff]
  intro h
  simp only [isSpace, Bool.or_eq_true, beq_iff_eq] at h
  rcases h with ((rfl | rfl) | rfl) | rfl <;> exact absurd hc (by decide)

/-- The same holds of them behind some space. -/
theorem EndsNumeral.space {gap rest : List Char} (h : EndsNumeral rest) (hgap : Space gap) :
    EndsNumeral (gap ++ rest) := by
  cases gap with
  | nil => exact h
  | cons c gap =>
    refine endsNumeral_cons (Bool.eq_false_iff.mpr fun hc => ?_) _
    exact absurd (hgap c List.mem_cons_self) (by rw [isSpace_of_isNumeralChar hc]; decide)

/-- A text is read as a value, inside as many containers as leave room for `n` more, and with two
calls to spare for every character. -/
def ReadAs (cs : List Char) (j : Json) (n : Nat) : Prop :=
  ∀ fuel depth rest, depth + n ≤ depthLimit → 2 * cs.length ≤ fuel →
    EndsNumeral rest → value? fuel depth (cs ++ rest) = some (j.toSource, rest)

/-- A text that ends with a closing bracket is read as the elements in front of it. -/
def ElementsReadAs (cs : List Char) (js : List Json) (n : Nat) : Prop :=
  ∀ fuel depth rest, depth + n ≤ depthLimit → 2 * cs.length ≤ fuel →
    elements? fuel depth (cs ++ rest) = some (allToSource js, rest)

/-- A text that ends with a closing brace is read as the members in front of it. -/
def MembersReadAs (cs : List Char) (ms : List (String × Json)) (n : Nat) : Prop :=
  ∀ fuel depth rest, depth + n ≤ depthLimit → 2 * cs.length ≤ fuel →
    members? fuel depth (cs ++ rest) = some (membersToSource ms, rest)

theorem readAs_string (s : String) (n : Nat) : ReadAs (quote s.toList) (.string s) n := by
  intro fuel depth rest _ hfuel _
  obtain ⟨units, hscan, hdecode⟩ := scan?_quoted s.toList
  rw [quote_append]
  cases fuel with
  | zero => simp only [quote, List.length_append, List.length_cons] at hfuel; omega
  | succ fuel =>
    rw [value?, skipSpace_cons (by decide)]
    simp only [hscan, Option.map_some, textSource, hdecode, String.ofList_toList, toSource]

section

variable {cs more gap : List Char} {j : Json} {n : Nat}

theorem ReadAs.space (hgap : Space gap) (h : ReadAs cs j n) : ReadAs (gap ++ cs) j n := by
  intro fuel depth rest hdepth hfuel hrest
  rw [List.length_append] at hfuel
  rw [List.append_assoc, value?_append hgap]
  exact h fuel depth rest hdepth (by omega) hrest

/-! ### Elements -/

theorem ElementsReadAs.space {js : List Json} (hgap : Space gap)
    (h : ElementsReadAs cs js n) : ElementsReadAs (gap ++ cs) js n := by
  intro fuel depth rest hdepth hfuel
  rw [List.length_append] at hfuel
  rw [List.append_assoc, elements?_append hgap]
  exact h fuel depth rest hdepth (by omega)

theorem ElementsReadAs.last (h : ReadAs cs j n) (hgap : Space gap) :
    ElementsReadAs (cs ++ (gap ++ [']'])) [j] n := by
  intro fuel depth rest hdepth hfuel
  simp only [List.length_append, List.length_singleton] at hfuel
  cases fuel with
  | zero => omega
  | succ fuel =>
    have hend := (endsNumeral_cons (by decide : Numeral.isNumeralChar ']' = false) rest).space hgap
    simp only [List.append_assoc, List.cons_append, List.nil_append]
    rw [elements?, h fuel depth _ hdepth (by omega) hend]
    simp only
    rw [skipSpace_append hgap, skipSpace_cons (by decide)]
    rfl

theorem ElementsReadAs.cons {js : List Json} (h : ReadAs cs j n)
    (hmore : ElementsReadAs more js n) : ElementsReadAs (cs ++ ',' :: more) (j :: js) n := by
  intro fuel depth rest hdepth hfuel
  simp only [List.length_append, List.length_cons] at hfuel
  cases fuel with
  | zero => omega
  | succ fuel =>
    have hend := endsNumeral_cons (by decide : Numeral.isNumeralChar ',' = false) (more ++ rest)
    simp only [List.append_assoc, List.cons_append]
    rw [elements?, h fuel depth _ hdepth (by omega) hend]
    simp only
    rw [skipSpace_cons (by decide)]
    simp only [hmore fuel depth rest hdepth (by omega), Option.map_some, allToSource]

/-- **Elements with one separator between them**: a comma, and the same space behind it. -/
theorem ElementsReadAs.intercalate {α : Type} {chars : α → List Char} {json : α → Json} {x : α}
    {xs : List α} (hread : ∀ y ∈ x :: xs, ReadAs (chars y) (json y) n) (hgap : Space gap)
    {ending : List Char} (hending : Space ending) :
    ElementsReadAs ((',' :: gap).intercalate ((x :: xs).map chars) ++ (ending ++ [']']))
      ((x :: xs).map json) n := by
  have hx : ReadAs (chars x) (json x) n := hread x List.mem_cons_self
  induction xs generalizing x with
  | nil =>
    rw [List.map_singleton, List.map_singleton, List.intercalate_singleton]
    exact ElementsReadAs.last hx hending
  | cons y ys ih =>
    have hys : ∀ z ∈ y :: ys, ReadAs (chars z) (json z) n := fun z hz =>
      hread z (List.mem_cons_of_mem _ hz)
    have hmore := (ih hys (hys y List.mem_cons_self)).space hgap
    have htext : (',' :: gap).intercalate ((x :: y :: ys).map chars) ++ (ending ++ [']']) =
        chars x ++ ',' :: (gap ++
          ((',' :: gap).intercalate ((y :: ys).map chars) ++ (ending ++ [']']))) := by
      simp only [List.map_cons, List.intercalate_cons_cons, List.append_assoc, List.cons_append]
    rw [htext]
    exact ElementsReadAs.cons hx hmore

/-- Where elements are read there is no closing bracket yet. -/
theorem skipSpace_ne_of_elements? {fuel depth : Nat} {r : List Source × List Char}
    (h : elements? fuel depth cs = some r) (rest : List Char) : skipSpace cs ≠ ']' :: rest := by
  intro hbracket
  match fuel with
  | 0 => cases h
  | 1 => cases h
  | fuel + 2 =>
    have hnone : value? (fuel + 1) depth cs = none := by
      rw [value?, hbracket]
      rfl
    rw [elements?, hnone] at h
    cases h

/-! ### Members -/

theorem MembersReadAs.space {ms : List (String × Json)} (hgap : Space gap)
    (h : MembersReadAs cs ms n) : MembersReadAs (gap ++ cs) ms n := by
  intro fuel depth rest hdepth hfuel
  rw [List.length_append] at hfuel
  rw [List.append_assoc, members?_append hgap]
  exact h fuel depth rest hdepth (by omega)

/-- How the reading of members goes on behind a member: with more of them after a comma, and not
at all after a closing brace. -/
def afterMember? (fuel depth : Nat) (member : MemberName × Source) (rest : List Char) :
    Option (List (MemberName × Source) × List Char) :=
  match skipSpace rest with
  | ',' :: rest => (members? fuel depth rest).map fun r => (member :: r.1, r.2)
  | '}' :: rest => some ([member], rest)
  | _ => none

theorem members?_member (name : String) (h : ReadAs cs j n) {fuel depth : Nat}
    (hdepth : depth + n ≤ depthLimit) (hfuel : 2 * cs.length ≤ fuel) {rest : List Char}
    (hrest : EndsNumeral rest) :
    members? (fuel + 1) depth (quote name.toList ++ ':' :: (cs ++ rest)) =
      afterMember? fuel depth (.text name, j.toSource) rest := by
  obtain ⟨units, hscan, hdecode⟩ := scan?_quoted name.toList
  have hname : memberName units = .text name := by
    simp only [memberName, hdecode, String.ofList_toList]
  rw [quote_append, members?, skipSpace_cons (by decide)]
  simp only [hscan]
  rw [skipSpace_cons (by decide)]
  simp only [h fuel depth rest hdepth hfuel hrest, hname]
  rfl

theorem MembersReadAs.last (name : String) (h : ReadAs cs j n) (hgap : Space gap) :
    MembersReadAs (quote name.toList ++ ':' :: (cs ++ (gap ++ ['}']))) [(name, j)] n := by
  intro fuel depth rest hdepth hfuel
  simp only [List.length_append, List.length_cons] at hfuel
  cases fuel with
  | zero => omega
  | succ fuel =>
    have hend := (endsNumeral_cons (by decide : Numeral.isNumeralChar '}' = false) rest).space hgap
    simp only [List.append_assoc, List.cons_append, List.nil_append]
    rw [members?_member name h hdepth (by omega) hend, afterMember?, skipSpace_append hgap,
      skipSpace_cons (by decide)]
    rfl

theorem MembersReadAs.cons (name : String) {ms : List (String × Json)} (h : ReadAs cs j n)
    (hmore : MembersReadAs more ms n) :
    MembersReadAs (quote name.toList ++ ':' :: (cs ++ ',' :: more)) ((name, j) :: ms) n := by
  intro fuel depth rest hdepth hfuel
  simp only [List.length_append, List.length_cons] at hfuel
  cases fuel with
  | zero => omega
  | succ fuel =>
    have hend := endsNumeral_cons (by decide : Numeral.isNumeralChar ',' = false) (more ++ rest)
    simp only [List.append_assoc, List.cons_append]
    rw [members?_member name h hdepth (by omega) hend, afterMember?, skipSpace_cons (by decide)]
    simp only [hmore fuel depth rest hdepth (by omega), Option.map_some, membersToSource]

/-- Where members are read there is no closing brace yet. -/
theorem skipSpace_ne_of_members? {fuel depth : Nat} {r : List (MemberName × Source) × List Char}
    (h : members? fuel depth cs = some r) (rest : List Char) : skipSpace cs ≠ '}' :: rest := by
  intro hbrace
  cases fuel with
  | zero => cases h
  | succ fuel =>
    rw [members?, hbrace] at h
    cases h

/-! ### Containers -/

theorem nest_eq_self {depth n : Nat} (h : depth + (n + 1) ≤ depthLimit) (s : Source) :
    nest depth s = s :=
  if_pos (by omega)

theorem ReadAs.noElements (hgap : Space gap) (n : Nat) :
    ReadAs ('[' :: (gap ++ [']'])) (.array []) (n + 1) := by
  intro fuel depth rest hdepth hfuel _
  rw [List.length_cons] at hfuel
  cases fuel with
  | zero => omega
  | succ fuel =>
    simp only [List.cons_append, List.append_assoc, List.nil_append]
    rw [value?, skipSpace_cons (by decide)]
    simp only
    rw [skipSpace_append hgap, skipSpace_cons (by decide)]
    simp only
    rw [nest_eq_self hdepth]
    rfl

theorem ReadAs.noMembers (hgap : Space gap) (n : Nat) :
    ReadAs ('{' :: (gap ++ ['}'])) (.object []) (n + 1) := by
  intro fuel depth rest hdepth hfuel _
  rw [List.length_cons] at hfuel
  cases fuel with
  | zero => omega
  | succ fuel =>
    simp only [List.cons_append, List.append_assoc, List.nil_append]
    rw [value?, skipSpace_cons (by decide)]
    simp only
    rw [skipSpace_append hgap, skipSpace_cons (by decide)]
    simp only
    rw [nest_eq_self hdepth]
    rfl

/-- **An array is read from the text of its elements.** -/
theorem ReadAs.array {js : List Json} (h : ElementsReadAs cs js n) :
    ReadAs ('[' :: cs) (.array js) (n + 1) := by
  intro fuel depth rest hdepth hfuel _
  rw [List.length_cons] at hfuel
  cases fuel with
  | zero => omega
  | succ fuel =>
    have helements := h fuel (depth + 1) rest (by omega) (by omega)
    rw [List.cons_append, value?, skipSpace_cons (by decide)]
    simp only
    split
    next after hbracket => exact absurd hbracket (skipSpace_ne_of_elements? helements after)
    next =>
      rw [elements?_skipSpace, helements, Option.map_some, nest_eq_self hdepth, toSource]

/-- **An object is read from the text of its members.** -/
theorem ReadAs.object {ms : List (String × Json)} (h : MembersReadAs cs ms n) :
    ReadAs ('{' :: cs) (.object ms) (n + 1) := by
  intro fuel depth rest hdepth hfuel _
  rw [List.length_cons] at hfuel
  cases fuel with
  | zero => omega
  | succ fuel =>
    have hmembers := h fuel (depth + 1) rest (by omega) (by omega)
    rw [List.cons_append, value?, skipSpace_cons (by decide)]
    simp only
    split
    next after hbrace => exact absurd hbrace (skipSpace_ne_of_members? hmembers after)
    next =>
      rw [members?_skipSpace, hmembers, Option.map_some, nest_eq_self hdepth, toSource]

/-- **A whole text** may have space behind its value. -/
theorem ReadAs.parse? {text : String} (h : ReadAs cs j n) (hn : n ≤ depthLimit)
    (hgap : Space gap) (htext : text.toList = cs ++ gap) :
    Source.parse? text = some j.toSource := by
  have hend : EndsNumeral (gap ++ []) := EndsNumeral.space (fun _ _ heq => nomatch heq) hgap
  have hskip := skipSpace_append hgap []
  rw [List.append_nil] at hend hskip
  have hread := h (2 * (cs ++ gap).length + 2) 0 gap (by omega)
    (by rw [List.length_append]; omega) hend
  simp only [Source.parse?, htext, document?, hread, hskip]
  exact if_pos rfl

end

end Json

end PipelineEditor
