import PipelineEditor.CommandLine.Arguments
import PipelineEditor.Form.Arrange
import PipelineEditor.Json.Parser
import PipelineEditor.Json.Printer
import PipelineEditor.Schema.Duplicates
import PipelineEditor.Schema.Edge
import PipelineEditor.Session.Basic
import PipelineEditor.Workspace.Loading

/-!
# What a command reports

A command looks at the configuration of its workspace first and at its own file second, so a
fault of the workspace hides one of the file.  It prints a result, with notices about what the
result had to leave out, or says why there is none.

* `CommandFault` — why there is no result;
* `Report` — what is printed, and the exit code;
* `Command.report` — **the report of a command on the files it reads**.
-/

namespace PipelineEditor

/-- Why a command has no result. -/
inductive CommandFault where
  | workspace (fault : LoadFault)
  | unreadable (path : String)
  | malformed (path : String)
  /-- The node is not there, or nothing is known about its columns. -/
  | noColumns (node : String)
  deriving DecidableEq, Repr

/-- The explanation of a fault. -/
def CommandFault.message : CommandFault → String
  | workspace fault => fault.message
  | unreadable path => "Failed to read " ++ path
  | malformed path => "Failed to parse " ++ path
  | noColumns node => "Node " ++ node ++ " not found or has no readable output schema"

/-- What a command prints. -/
structure Report where
  exitCode : Nat
  output : String
  /-- Remarks about the result. -/
  notices : List String
  /-- Why there is no result. -/
  fault : Option String
  deriving DecidableEq, Repr

namespace Report

/-- The report of a result. -/
def result (lines : List String) (notices : List String) : Report :=
  ⟨0, String.join (lines.map (· ++ "\n")), notices, none⟩

/-- The report of a fault. -/
def failure (fault : CommandFault) : Report := ⟨1, "", [], some fault.message⟩

/-- The report of a command line that asks for nothing the program has. -/
def misuse : Report := ⟨2, "", [], none⟩

/-- The report of a request for the version. -/
def version : Report := result ["hydrator 0.1.0"] []

/-- The report of a request for help. -/
def help : Report :=
  result
    ["Usage: hydrator <COMMAND>", "", "Commands:",
      "  reconcile  --node <NODE> [--root <ROOT>]",
      "  schema     --node <NODE> [--root <ROOT>]",
      "  validate   --schema <SCHEMA>",
      "  edge       --nodes <NODES> --source <SOURCE> [--root <ROOT>]"] []

end Report

namespace Command

/-- The text of a file. -/
def readText (path : String) : Option FileContent → Except CommandFault String
  | some (.text content) => .ok content
  | _ => .error (.unreadable path)

/-- A value of a type that a file holds in JSON. -/
def readJson {α : Type} [Wire α] (path : String) (content : Option FileContent) :
    Except CommandFault α := do
  let text ← readText path content
  match (Source.parse? text).bind read? with
  | some a => .ok a
  | none => .error (.malformed path)

/-- The configuration of the workspace at a path. -/
def readWorkspace (root : String) (files : WorkspaceFiles) : Except CommandFault Workspace :=
  (Workspace.load root files).mapError .workspace

/-- The report on the form of a node. -/
def reportForm (node : Node) (workspace : Workspace) : Report :=
  match workspace.library.fetch node.type node.name with
  | .ok config => .result [(write (Form.arrange node config)).spread] []
  | .error reason => .result [(write (Form.plain node)).spread] [reason.message]

/-- The report on the output schema that a node ends up with. -/
def reportSchema (node : Node) (workspace : Workspace) : Report :=
  let entry := workspace.library.fetch node.type node.name
  let session := (Session.openWith SessionId.zero node workspace.settings entry).1
  match session.node.schema with
  | some text => .result [text] (problemMessages (some text))
  | none => .result ["no schema configured"] []

/-- The report on a stored schema. -/
def reportProblems (text : String) : Report :=
  match problemMessages (some text) with
  | [] => .result ["✓ Schema is valid"] []
  | messages => { Report.result (messages.map ("✗ " ++ ·)) [] with exitCode := 1 }

/-- The report on the columns on the edges that leave a node. -/
def reportEdge (nodes : List Node) (source : String) (workspace : Workspace) :
    Except CommandFault Report :=
  match edgeColumnsFrom? nodes source workspace.settings.implied with
  | some columns => .ok (.result [(write columns).spread] [])
  | none => .error (.noColumns source)

/-- The result of a command, given the files of its workspace and the file that it reads. -/
def result (c : Command) (files : WorkspaceFiles) (content : Option FileContent) :
    Except CommandFault Report :=
  match c with
  | .reconcile node root => do
    let workspace ← readWorkspace root files
    return reportForm (← readJson node content) workspace
  | .schema node root => do
    let workspace ← readWorkspace root files
    return reportSchema (← readJson node content) workspace
  | .validate path => return reportProblems (← readText path content)
  | .edge nodes source root => do
    let workspace ← readWorkspace root files
    reportEdge (← readJson nodes content) source workspace

/-- The report of a command, given the files of its workspace and the file that it reads. -/
def report (c : Command) (files : WorkspaceFiles) (content : Option FileContent) : Report :=
  match c.result files content with
  | .ok r => r
  | .error fault => .failure fault

end Command

end PipelineEditor
