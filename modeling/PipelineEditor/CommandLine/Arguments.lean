/-!
# Command lines

The program has four commands, each with options that take a value.  A value is the next
argument, unless that looks like an option, or stands behind an equals sign.  Arguments are
looked at from left to right, and the first one that decides the matter does: a request for help
before a mistake is answered with help.

* `Command` — a command with the values of its options;
* `Invocation` — what a command line asks for;
* `Invocation.ofArguments` — **the meaning of a command line**.
-/

namespace PipelineEditor

/-- A command with the values of its options. -/
inductive Command where
  /-- Print the form of a node. -/
  | reconcile (node root : String)
  /-- Print the output schema that a node ends up with. -/
  | schema (node root : String)
  /-- Check a stored schema. -/
  | validate (schema : String)
  /-- Print the columns on the edges that leave a node. -/
  | edge (nodes source root : String)
  deriving DecidableEq, Repr

/-- What a command line asks for. -/
inductive Invocation where
  | run (command : Command)
  | help
  | version
  | misuse
  deriving DecidableEq, Repr

/-- An option of a command. -/
structure CommandOption where
  name : String
  /-- Whether the value is a path, which may not be empty. -/
  isPath : Bool
  deriving DecidableEq, Repr

namespace CommandOption

/-- The root of the workspace, here if it is not given. -/
def root : CommandOption := ⟨"root", true⟩

/-- Whether an argument cannot be the value of an option. -/
def looksLikeOption (argument : String) : Bool := argument.startsWith "-" && argument ≠ "-"

/-- Splits an argument behind its dashes at the first equals sign. -/
def split (argument : String) : String × Option String :=
  let cs := argument.toList.drop 2
  let name := String.ofList (cs.takeWhile (· != '='))
  match cs.dropWhile (· != '=') with
  | _ :: value => (name, some (String.ofList value))
  | [] => (name, none)

/-- The values that were given, under the names of their options. -/
abbrev Values : Type := List (String × String)

/-- Puts down the value of an option, unless it may not be that or the option has one already. -/
def give? (options : List CommandOption) (given : Values) (name value : String) :
    Option Values :=
  match options.find? fun o => o.name == name with
  | none => none
  | some o =>
    if (o.isPath && value.isEmpty) || (given.lookup name).isSome then none
    else some ((name, value) :: given)

/-- What the arguments of a command come to. -/
inductive Outcome where
  | given (values : Values)
  | help
  | misuse

/-- Reads the arguments of a command. -/
def readAll (options : List CommandOption) : List String → Values → Outcome
  | [], given => .given given
  | argument :: rest, given =>
    if argument == "--" then (if rest.isEmpty then .given given else .misuse)
    else if argument.startsWith "--" then
      let known (name : String) : Bool := options.any fun o => o.name == name
      match split argument with
      | (name, some value) =>
        match give? options given name value with
        | some given => readAll options rest given
        | none => .misuse
      | (name, none) =>
        if name == "help" then .help
        else
          match rest with
          | value :: rest =>
            if !known name || looksLikeOption value then .misuse
            else
              match give? options given name value with
              | some given => readAll options rest given
              | none => .misuse
          | [] => .misuse
    else if argument.startsWith "-h" then .help
    else .misuse

end CommandOption

namespace Command

/-- The options of a command, by its name. -/
def options? : String → Option (List CommandOption)
  | "reconcile" => some [⟨"node", true⟩, CommandOption.root]
  | "schema" => some [⟨"node", true⟩, CommandOption.root]
  | "validate" => some [⟨"schema", true⟩]
  | "edge" => some [⟨"nodes", true⟩, ⟨"source", false⟩, CommandOption.root]
  | _ => none

/-- The command with a name, given the values of its options. -/
def ofValues? (name : String) (values : CommandOption.Values) : Option Command :=
  let root := (values.lookup "root").getD "."
  match name with
  | "reconcile" => (values.lookup "node").map fun node => .reconcile node root
  | "schema" => (values.lookup "node").map fun node => .schema node root
  | "validate" => (values.lookup "schema").map .validate
  | "edge" =>
    match values.lookup "nodes", values.lookup "source" with
    | some nodes, some source => some (.edge nodes source root)
    | _, _ => none
  | _ => none

/-- The path of the file that a command reads. -/
def input : Command → String
  | .reconcile node _ => node
  | .schema node _ => node
  | .validate path => path
  | .edge nodes _ _ => nodes

/-- The root of the workspace that a command looks at. -/
def root? : Command → Option String
  | .reconcile _ root => some root
  | .schema _ root => some root
  | .validate _ => none
  | .edge _ _ root => some root

end Command

namespace Invocation

/-- The meaning of the arguments behind the name of a command. -/
def ofCommand (name : String) (arguments : List String) : Invocation :=
  match Command.options? name with
  | none => misuse
  | some options =>
    match CommandOption.readAll options arguments [] with
    | .help => help
    | .misuse => misuse
    | .given values =>
      match Command.ofValues? name values with
      | some command => run command
      | none => misuse

/-- The meaning of a command line. -/
def ofArguments : List String → Invocation
  | [] => misuse
  | first :: rest =>
    if first == "--help" || (first.startsWith "-h" && !first.startsWith "--") then help
    else if first == "--version" || first.startsWith "-V" then version
    else if first == "help" then
      match rest with
      | [] => help
      | [name] => if (Command.options? name).isSome || name == "help" then help else misuse
      | _ => misuse
    else ofCommand first rest

end Invocation

end PipelineEditor
