import PipelineEditor.Main
import PipelineEditor.Workspace.FileTree
import PipelineEditor.Proofs.Form.Partition
import PipelineEditor.Proofs.Form.Patch
import PipelineEditor.Proofs.Form.Defaults
import PipelineEditor.Proofs.Form.Order
import PipelineEditor.Proofs.Session.Step
import PipelineEditor.Proofs.Session.Groups
import PipelineEditor.Proofs.Session.Mirror
import PipelineEditor.Proofs.Session.Host
import PipelineEditor.Proofs.Session.Implied
import PipelineEditor.Proofs.Session.Implicit
import PipelineEditor.Proofs.Session.Values
import PipelineEditor.Proofs.Session.Protocol
import PipelineEditor.Proofs.Session.Effective
import PipelineEditor.Proofs.Json.ReadBack
import PipelineEditor.Proofs.Schema.ReadBack
import PipelineEditor.Proofs.Schema.WellFormed
import PipelineEditor.Proofs.Schema.Rewrite
import PipelineEditor.Proofs.Session.Written
import PipelineEditor.Proofs.Schema.Edge
import PipelineEditor.Proofs.Session.Overwrite
import PipelineEditor.Proofs.Wire.Basic
import PipelineEditor.Proofs.Schema.TypeName
import PipelineEditor.Proofs.Wire.Descriptors
import PipelineEditor.Proofs.Session.Id
import PipelineEditor.Proofs.Wire.Configurations
import PipelineEditor.Proofs.Wire.RoundTrip
import PipelineEditor.Proofs.Form.DefaultValue
import PipelineEditor.Proofs.Form.Again
import PipelineEditor.Proofs.Session.Mark
import PipelineEditor.Proofs.Schema.Problems
import PipelineEditor.Proofs.Session.Declared
import PipelineEditor.Proofs.Schema.TypeEnd
import PipelineEditor.Proofs.Session.Editing
import PipelineEditor.Proofs.Schema.Embedded
import PipelineEditor.Proofs.Schema.Stream
import PipelineEditor.Proofs.Schema.Padding
import PipelineEditor.Proofs.Form.Metadata
import PipelineEditor.Proofs.Form.Reorder
import PipelineEditor.Proofs.Form.Append
import PipelineEditor.Proofs.Session.Exchange
import PipelineEditor.Proofs.Form.Names
import PipelineEditor.Proofs.Workspace.FileName
import PipelineEditor.Proofs.Workspace.Widgets
import PipelineEditor.Proofs.Workspace.Reordering
import PipelineEditor.Proofs.Schema.NameForm
