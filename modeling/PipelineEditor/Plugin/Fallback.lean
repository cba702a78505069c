import PipelineEditor.Source.Record

/-!
# Why a plugin has no widget configuration

Without a configuration the editor falls back to plain text boxes and says why: there is none, it
is not well formed, or it has the wrong structure.

* `FallbackReason` — the three reasons;
* `FallbackReason.message` — the explanation shown above the text boxes.
-/

namespace PipelineEditor

/-- Why there is no configuration to use. -/
inductive FallbackReason where
  | missing
  | malformed
  | misshapen
  deriving DecidableEq, Repr

namespace FallbackReason

/-- The code under which a reason is written. -/
def code : FallbackReason → String
  | missing => "NO_JSON_FOUND"
  | malformed => "CONFIG_SYNTAX_JSON_ERROR"
  | misshapen => "CONFIG_SEMANTICS_JSON_ERROR"

/-- The reason with a code. -/
def ofCode? (code : String) : Option FallbackReason :=
  if code = "NO_JSON_FOUND" then some missing
  else if code = "CONFIG_SYNTAX_JSON_ERROR" then some malformed
  else if code = "CONFIG_SEMANTICS_JSON_ERROR" then some misshapen
  else none

theorem ofCode?_code (r : FallbackReason) : ofCode? r.code = some r := by
  cases r <;> rfl

/-- A reason is given by its code, or by an object whose only member has the code for its name
and null for its value. -/
instance : Wire FallbackReason where
  read?
    | .string code => ofCode? code
    | .object [(.text code, .null)] => ofCode? code
    | _ => none
  write r := .string r.code

/-- The explanation shown above the text boxes. -/
def message : FallbackReason → String
  | missing =>
    "No widget configuration found for this plugin. All properties are shown as text boxes."
  | malformed =>
    "The widget configuration for this plugin is not valid JSON. All properties are shown as text boxes."
  | misshapen =>
    "The widget configuration for this plugin has an unexpected structure. All properties are shown as text boxes."

end FallbackReason

end PipelineEditor
