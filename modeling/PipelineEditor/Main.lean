import PipelineEditor.CommandLine.Report

/-!
# The command line program

The outer layer: it finds the files that a command reads, and prints the report.

* `findContent?`, `findWorkspace` — what is found on disk;
* `main` — **one run of the program**.
-/

namespace PipelineEditor

/-- What is found at a path where a file may be. -/
def findContent? (path : String) : IO (Option FileContent) := do
  let place := (← IO.currentDir) / path
  if ← place.pathExists then
    try
      match String.fromUTF8? (← IO.FS.readBinFile place) with
      | some text => return some (.text text)
      | none => return some .unreadable
    catch _ => return some .unreadable
  else return none

/-- The files of the workspace at a path. -/
def findWorkspace (root : String) : IO WorkspaceFiles := do
  let place := (← IO.currentDir) / WorkspaceFiles.widgetDirectory root
  let names ← if ← place.isDir then pure ((← place.readDir).toList.map fun e => e.fileName)
    else pure []
  let files := names.filter fun name => (WidgetLibrary.keyOfFile? name).isSome
  let widgets ← files.mapM fun name => do
    return (name, (← findContent? (WorkspaceFiles.widgetPath root name)).getD .unreadable)
  return ⟨← findContent? (WorkspaceFiles.settingsPath root), widgets⟩

/-- The report that a command line asks for. -/
def findReport : Invocation → IO Report
  | .help => return .help
  | .version => return .version
  | .misuse => return .misuse
  | .run command => do
    let files ← match command.root? with
      | some root => findWorkspace root
      | none => pure WorkspaceFiles.none
    return command.report files (← findContent? command.input)

end PipelineEditor

open PipelineEditor

/-- One run of the program. -/
def main (arguments : List String) : IO UInt32 := do
  let report ← findReport (Invocation.ofArguments arguments)
  IO.print report.output
  for notice in report.notices do
    IO.eprintln ("! " ++ notice)
  if let some fault := report.fault then
    IO.eprintln ("Error: " ++ fault)
  if report == Report.misuse then
    IO.eprintln "For more information, try '--help'."
  return report.exitCode.toUInt32
