/-!
# Blank characters

A blank is a character with the Unicode property `White_Space`; there are twenty-five of them.
Surrounding blanks do not count when a type name is read.

* `isBlank` — the table, as a membership test on code points;
* `trim` — a text without the blanks at its two ends;
* `trimChars_eq_self` — characters without a blank at either end are left alone;
* `trim_trim` — **trimming twice is trimming once**.
-/

namespace PipelineEditor.Text

/-- The code points with the property `White_Space`. -/
def blankCodes : List Nat :=
  [0x9, 0xA, 0xB, 0xC, 0xD, 0x20, 0x85, 0xA0, 0x1680,
   0x2000, 0x2001, 0x2002, 0x2003, 0x2004, 0x2005, 0x2006, 0x2007, 0x2008, 0x2009, 0x200A,
   0x2028, 0x2029, 0x202F, 0x205F, 0x3000]

/-- Whether a character has the property `White_Space`. -/
def isBlank (c : Char) : Bool := blankCodes.contains c.toNat

/-- The characters without the blanks in front. -/
def trimFront (cs : List Char) : List Char := cs.dropWhile isBlank

/-- The characters without the blanks at both ends. -/
def trimChars (cs : List Char) : List Char := (trimFront (trimFront cs).reverse).reverse

/-- A text without the blanks at both ends. -/
def trim (s : String) : String := String.ofList (trimChars s.toList)

/-- What is left after dropping blanks in front does not start with one. -/
theorem trimFront_head {cs : List Char} {c : Char} {rest : List Char}
    (h : trimFront cs = c :: rest) : isBlank c = false := by
  induction cs with
  | nil => simp [trimFront] at h
  | cons d ds ih =>
    by_cases hd : isBlank d = true
    · simp only [trimFront, List.dropWhile_cons, hd, if_true] at h
      exact ih h
    · simp only [trimFront, List.dropWhile_cons, hd] at h
      cases h
      simpa using hd

/-- Characters that do not start with a blank are left alone. -/
theorem trimFront_eq_self {cs : List Char} (h : ∀ c rest, cs = c :: rest → isBlank c = false) :
    trimFront cs = cs := by
  cases cs with
  | nil => rfl
  | cons c rest => simp [trimFront, h c rest rfl]

/-- Dropping blanks in front removes a first part and keeps the rest. -/
theorem trimFront_suffix (cs : List Char) : trimFront cs <:+ cs := List.dropWhile_suffix _

/-- Characters without a blank at either end are left alone. -/
theorem trimChars_eq_self {cs : List Char} (hfront : ∀ c ∈ cs.head?, isBlank c = false)
    (hback : ∀ c ∈ cs.getLast?, isBlank c = false) : trimChars cs = cs := by
  have hfirst : trimFront cs = cs := by
    refine trimFront_eq_self fun c rest h => hfront c ?_
    rw [h]
    rfl
  have hlast : trimFront cs.reverse = cs.reverse := by
    refine trimFront_eq_self fun c rest h => hback c ?_
    rw [← List.head?_reverse, h]
    rfl
  rw [trimChars, hfirst, hlast, List.reverse_reverse]

theorem trimChars_cons_of_isBlank {c : Char} (h : isBlank c = true) (cs : List Char) :
    trimChars (c :: cs) = trimChars cs := by
  have hfront : trimFront (c :: cs) = trimFront cs := List.dropWhile_cons_of_pos h
  rw [trimChars, hfront, trimChars]

theorem mem_of_mem_trimChars {c : Char} {cs : List Char} (h : c ∈ trimChars cs) : c ∈ cs :=
  (trimFront_suffix cs).subset <|
    List.mem_reverse.mp ((trimFront_suffix _).subset (List.mem_reverse.mp h))

theorem trimChars_trimChars (cs : List Char) : trimChars (trimChars cs) = trimChars cs := by
  have hfront : trimFront (trimChars cs) = trimChars cs := by
    refine trimFront_eq_self fun c rest h => ?_
    have hpre : trimChars cs <+: trimFront cs := by
      have := trimFront_suffix (trimFront cs).reverse
      have := List.reverse_prefix.mpr this
      simpa [trimChars] using this
    obtain ⟨t, ht⟩ := hpre
    rw [h] at ht
    exact trimFront_head ht.symm
  have hback : trimFront (trimChars cs).reverse = (trimChars cs).reverse := by
    refine trimFront_eq_self fun c rest h => ?_
    have : (trimChars cs).reverse = trimFront (trimFront cs).reverse := by simp [trimChars]
    rw [this] at h
    exact trimFront_head h
  show (trimFront (trimFront (trimChars cs)).reverse).reverse = trimChars cs
  rw [hfront, hback, List.reverse_reverse]

/-- **Trimming twice is trimming once.** -/
theorem trim_trim (s : String) : trim (trim s) = trim s := by
  simp only [trim, String.toList_ofList, trimChars_trimChars]

end PipelineEditor.Text
