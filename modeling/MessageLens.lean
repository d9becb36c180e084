import MessageLens.Annotation.Render
import MessageLens.Command.Run
import MessageLens.Editor.Host
import MessageLens.File.Change
import MessageLens.Hover.Panel
import MessageLens.Main
import MessageLens.Message.Load
import MessageLens.Options.File
import MessageLens.Project.Root
import MessageLens.Project.Settings
import MessageLens.Proofs.Editor.Drawing
import MessageLens.Proofs.Operation
import MessageLens.Proofs.Session.Following
import MessageLens.Proofs.Session.Previews
import MessageLens.Proofs.Timer.Accounts
import MessageLens.Proofs.Timer.Marks
import MessageLens.Reference.Scan
import MessageLens.Session.Step
import MessageLens.Source.Discovery
import MessageLens.Timer.Action
import MessageLens.Watch.Action
import MessageLens.Proofs.Timer.Triggers
import MessageLens.Proofs.Session.Project
import MessageLens.Proofs.Session.Timers
import MessageLens.Proofs.Session.Bursts
import MessageLens.Proofs.Reference.Dotted
import MessageLens.Proofs.Reference.Bracketed
import MessageLens.Proofs.Message.Loading
import MessageLens.Proofs.Session.Recovery
import MessageLens.Proofs.Timer.Stranded
import MessageLens.Proofs.Session.Hovering
import MessageLens.Proofs.Session.Blank
import MessageLens.Proofs.Session.Displayed
import MessageLens.Proofs.Session.Closing
import MessageLens.Proofs.Session.Ownership
import MessageLens.Proofs.Session.Reloading
import MessageLens.Proofs.Session.Forgetting
import MessageLens.Proofs.Session.Selection
import MessageLens.Proofs.Command.Agreement
import MessageLens.Proofs.Watch.Reports
import MessageLens.Proofs.Watch.Stale
import MessageLens.Proofs.Watch.Failing
import MessageLens.Proofs.Reference.Lookup
import MessageLens.Proofs.Command.Hover
import MessageLens.Proofs.Annotation.Views
import MessageLens.Proofs.Project.Loading
import MessageLens.Proofs.Options.Loading
import MessageLens.Proofs.Command.Configuration
import MessageLens.Proofs.Reference.Balanced
import MessageLens.Proofs.Message.Nesting
import MessageLens.Proofs.Options.Spelling
import MessageLens.Proofs.Reference.Linewise
import MessageLens.Proofs.Editor.Rendering
import MessageLens.Proofs.Text.Display
import MessageLens.Proofs.Hover.Panel
import MessageLens.Proofs.Project.Pattern
import MessageLens.Proofs.File.Resolution
import MessageLens.Proofs.Source.Discovery
