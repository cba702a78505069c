import PipelineEditor.Plugin.Fallback

/-!
# What may be wrong with a configuration file

A file cannot be read, is not well formed in its format, or does not have the structure that is
asked for.  Faults in the content of a widget file concern one plugin only and turn into the
reason for its fallback; every other fault stops the loading.

* `LoadFault` — the path of the file and the cause;
* `LoadFault.message` — the explanation, without the details of the format;
* `LoadFault.fallback?` — **the reason to record for the plugin**, if there is one.
-/

namespace PipelineEditor

/-- What is wrong with a file. -/
inductive LoadCause where
  /-- The file is a directory, or its content is no text. -/
  | unreadable
  | malformedToml
  | malformedJson
  | malformedYaml
  | misshapen
  deriving DecidableEq, Repr

/-- A file with something wrong with it. -/
structure LoadFault where
  path : String
  cause : LoadCause
  deriving DecidableEq, Repr

namespace LoadFault

/-- The explanation of a fault. -/
def message (f : LoadFault) : String :=
  (match f.cause with
    | .unreadable => "Failed to read config file at "
    | .malformedToml => "Failed to parse TOML file at "
    | .malformedJson => "Failed to parse JSON file at "
    | .malformedYaml => "Failed to parse YAML file at "
    | .misshapen => "Invalid configuration in ") ++ f.path

/-- The reason to record for the plugin whose widget file has a fault. -/
def fallback? (f : LoadFault) : Option FallbackReason :=
  match f.cause with
  | .unreadable => none
  | .malformedToml => none
  | .malformedJson => some .malformed
  | .malformedYaml => some .malformed
  | .misshapen => some .misshapen

end LoadFault

end PipelineEditor
