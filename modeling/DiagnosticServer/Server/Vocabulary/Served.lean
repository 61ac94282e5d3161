import DiagnosticServer.Server.Vocabulary.Abilities

/-!
# Parameters of the methods that are served
-/

namespace DiagnosticServer.Vocabulary

open Shape

/-- A folder that is open in the editor. -/
def folder : Shape := record "WorkspaceFolder" [needs "uri" uri, needs "name" text]

/-- What the client says about itself. -/
def clientInfo : Shape := record "ClientInfo" [needs "name" text, may "version" text]

/-- The parameters of a start. -/
def start : Shape := spread "InitializeParams" [
  may "processId" unsigned, may "rootPath" text, may "rootUri" uri,
  may "initializationOptions" anything, needs "capabilities" abilities,
  may "trace" (word ["off", "messages", "verbose"]), may "workspaceFolders" (list folder),
  may "clientInfo" clientInfo, may "locale" text] [progress]

/-- The parameters of the notice that the client is ready. -/
def started : Shape := record "InitializedParams" []

/-- The parameters of an opening. -/
def opened : Shape := record "DidOpenTextDocumentParams" [
  needs "textDocument" (record "TextDocumentItem" [
    needs "uri" uri, needs "languageId" text, needs "version" signed, needs "text" text])]

/-- The parameters of a change. -/
def changed : Shape := record "DidChangeTextDocumentParams" [
  needs "textDocument" (record "VersionedTextDocumentIdentifier" [
    needs "uri" uri, needs "version" signed]),
  needs "contentChanges" (list (record "TextDocumentContentChangeEvent" [
    may "range" range, may "rangeLength" unsigned, needs "text" text]))]

/-- The parameters of a saving. -/
def saved : Shape := record "DidSaveTextDocumentParams" [inDocument, may "text" text]

/-- The parameters of a closing. -/
def closed : Shape := record "DidCloseTextDocumentParams" [inDocument]

/-- The parameters of a pull. -/
def pull : Shape := spread "DocumentDiagnosticParams" [
  inDocument, may "identifier" text, may "previousResultId" text] [progress, partialResults]

end DiagnosticServer.Vocabulary
