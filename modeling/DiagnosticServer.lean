import DiagnosticServer.Table
import DiagnosticServer.Text.Octets
import DiagnosticServer.Text.Blank
import DiagnosticServer.Text.Utf8
import DiagnosticServer.Text.Utf16
import DiagnosticServer.Text.Invisible
import DiagnosticServer.Text.Quoted
import DiagnosticServer.Path.Basic
import DiagnosticServer.Path.Parent
import DiagnosticServer.Path.Normal
import DiagnosticServer.Error
import DiagnosticServer.FileSystem.Basic
import DiagnosticServer.FileSystem.Resolve
import DiagnosticServer.FileSystem.Edit
import DiagnosticServer.Uri.Basic
import DiagnosticServer.Uri.Cursor
import DiagnosticServer.Uri.Address
import DiagnosticServer.Uri.Reader
import DiagnosticServer.Uri.FilePath
import DiagnosticServer.Identity
import DiagnosticServer.Problem
import DiagnosticServer.SourceRoots
import DiagnosticServer.Layout
import DiagnosticServer.Tree.Basic
import DiagnosticServer.Tree.Search
import DiagnosticServer.Tree.Place
import DiagnosticServer.Tree.Faults
import DiagnosticServer.Parse.Outcome
import DiagnosticServer.Parse.Adapter
import DiagnosticServer.Java.CompilationUnit
import DiagnosticServer.Script
import DiagnosticServer.Number.Binary
import DiagnosticServer.Number.Shortest
import DiagnosticServer.Json.Basic
import DiagnosticServer.Json.Printer
import DiagnosticServer.Json.Reader
import DiagnosticServer.Options
import DiagnosticServer.Diagnostic
import DiagnosticServer.Cache.Basic
import DiagnosticServer.Cache.Calls
import DiagnosticServer.Cache.Task
import DiagnosticServer.Session
import DiagnosticServer.Engine
import DiagnosticServer.Server.Capabilities
import DiagnosticServer.Server.Shape
import DiagnosticServer.Server.Message
import DiagnosticServer.Server.Service
import DiagnosticServer.Server.Vocabulary.Basic
import DiagnosticServer.Server.Vocabulary.Abilities
import DiagnosticServer.Server.Vocabulary.Served
import DiagnosticServer.Server.Vocabulary.Unserved
import DiagnosticServer.Proofs.Text.Octets
import DiagnosticServer.Proofs.Tree.Nodes
import DiagnosticServer.Proofs.Text.Pieces
import DiagnosticServer.Proofs.Path.Components
import DiagnosticServer.Proofs.Path.Stack
import DiagnosticServer.Proofs.Path.Normal
import DiagnosticServer.Proofs.Layout.Packages
import DiagnosticServer.Proofs.Layout.Project
import DiagnosticServer.Proofs.Text.Utf8
import DiagnosticServer.Proofs.Path.Texts
import DiagnosticServer.Proofs.FileSystem.Ways
import DiagnosticServer.Proofs.Uri.FilePath
import DiagnosticServer.Proofs.Identity.Canonical
import DiagnosticServer.Proofs.Identity.RoundTrip
import DiagnosticServer.Proofs.Identity.Sharing
import DiagnosticServer.Proofs.Cache.Steps
import DiagnosticServer.Proofs.Cache.Discipline
import DiagnosticServer.Proofs.Cache.Serial
import DiagnosticServer.Proofs.Cache.Freshness
import DiagnosticServer.Proofs.Cache.Reopening
import DiagnosticServer.Proofs.Cache.PushOrder
import DiagnosticServer.Proofs.Cache.Account
import DiagnosticServer.Proofs.Cache.Storage
import DiagnosticServer.Proofs.Cache.Supersession
import DiagnosticServer.Proofs.Cache.Shutdown
import DiagnosticServer.Proofs.Cache.Quiescence
import DiagnosticServer.Proofs.Options
import DiagnosticServer.Proofs.Cache.Inquiry
import DiagnosticServer.Proofs.Cache.Settling
import DiagnosticServer.Proofs.Session.Dialogue
import DiagnosticServer.Proofs.Session.Reports
import DiagnosticServer.Proofs.Session.Calls
import DiagnosticServer.Proofs.Session.Refusals
import DiagnosticServer.Proofs.Session.Openness
import DiagnosticServer.Proofs.Cache.Isolation
import DiagnosticServer.Proofs.Session.Strides
import DiagnosticServer.Proofs.Session.Isolation
import DiagnosticServer.Proofs.Text.Rows
import DiagnosticServer.Proofs.Layout.Roots
import DiagnosticServer.Proofs.Tree.Errors
import DiagnosticServer.Proofs.Layout.Agreement
import DiagnosticServer.Proofs.Text.Positions
import DiagnosticServer.Proofs.Java.PackageName
import DiagnosticServer.Proofs.SourceRoots.Registry
import DiagnosticServer.Proofs.Parse.Containment
import DiagnosticServer.Proofs.Path.Canonical
