import PipelineEditor.Source.Record

/-!
# Identifiers of sessions

A session is known to its host by 32 hexadecimal digits.  They are written in groups of eight,
four, four, four and twelve with hyphens between the groups, in lower case; they are also read
without hyphens, in braces, and behind the mark `urn:uuid:`, in either case.

* `SessionId` — the digits;
* `SessionId.text`, `SessionId.ofText?` — the written form and the reading.
-/

namespace PipelineEditor

/-- The identifier of a session. -/
structure SessionId where
  digits : List (Fin 16)
  count : digits.length = 32
  deriving DecidableEq

namespace SessionId

/-- The lengths of the groups between hyphens. -/
def groupLengths : List Nat := [8, 4, 4, 4, 12]

/-- Writes digits in groups of the given lengths. -/
def hyphenated : List Nat → List Char → List Char
  | [], _ => []
  | [n], cs => cs.take n
  | n :: rest, cs => cs.take n ++ '-' :: hyphenated rest (cs.drop n)

/-- Takes the hyphens between groups of the given lengths out again. -/
def unhyphenated? : List Nat → List Char → Option (List Char)
  | [], _ => none
  | [n], cs => if cs.length = n then some cs else none
  | n :: rest, cs =>
    match cs.drop n with
    | '-' :: after => (unhyphenated? rest after).map (cs.take n ++ ·)
    | _ => none

/-- The value of a hexadecimal digit. -/
def digit? (c : Char) : Option (Fin 16) :=
  (List.finRange 16).find? fun d =>
    Nat.digitChar d.val = c || (Nat.digitChar d.val).toUpper = c

/-- The identifier with the given hexadecimal digits. -/
def ofDigits? (cs : List Char) : Option SessionId :=
  match cs.mapM digit? with
  | some ds => if h : ds.length = 32 then some ⟨ds, h⟩ else none
  | none => none

/-- The identifier that a text in one of the four forms gives. -/
def ofText? (text : String) : Option SessionId :=
  match text.toList with
  | '{' :: rest =>
    match rest.reverse with
    | '}' :: inner => (unhyphenated? groupLengths inner.reverse).bind ofDigits?
    | _ => none
  | 'u' :: 'r' :: 'n' :: ':' :: 'u' :: 'u' :: 'i' :: 'd' :: ':' :: rest =>
    (unhyphenated? groupLengths rest).bind ofDigits?
  | cs =>
    if cs.length = 32 then ofDigits? cs else (unhyphenated? groupLengths cs).bind ofDigits?

/-- The written form of an identifier. -/
def text (id : SessionId) : String :=
  String.ofList (hyphenated groupLengths (id.digits.map fun d => Nat.digitChar d.val))

/-- The identifier whose digits are all zero. -/
def zero : SessionId := ⟨List.replicate 32 0, List.length_replicate⟩

instance : Wire SessionId where
  read? s := (read? s : Option String).bind ofText?
  write id := .string id.text

end SessionId

end PipelineEditor
