/-!
# What the server offers

The answer to a client that starts the server.
-/

namespace DiagnosticServer

/-- What of a changed document a client sends. -/
inductive SyncKind where
  /-- Nothing. -/
  | none
  /-- The whole text. -/
  | full
  /-- The changes. -/
  | incremental
deriving DecidableEq, Repr

/-- The number of a kind. -/
def SyncKind.code : SyncKind → Nat
  | none => 0
  | full => 1
  | incremental => 2

/-- What the server offers and who it is. -/
structure Capabilities where
  /-- Whether it wants to hear of documents being opened and closed. -/
  openClose : Bool
  /-- What it wants of a changed document. -/
  change : SyncKind
  /-- Whether it wants the text of a saved document. -/
  saveIncludesText : Bool
  /-- The name of its diagnostics. -/
  identifier : String
  /-- Whether the diagnostics of one file can depend on other files. -/
  interFileDependencies : Bool
  /-- Whether it gives the diagnostics of a whole workspace. -/
  workspaceDiagnostics : Bool
  /-- Its name. -/
  name : String
  /-- Its version. -/
  version : String
deriving DecidableEq, Repr

/-- What this server offers: whole texts, and diagnostics of single files that depend on the source
roots that other files reveal. -/
def Capabilities.offered : Capabilities where
  openClose := true
  change := .full
  saveIncludesText := true
  identifier := "jml"
  interFileDependencies := true
  workspaceDiagnostics := false
  name := "jml-lsp"
  version := "0.3.0"

end DiagnosticServer
