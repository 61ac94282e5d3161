import DiagnosticServer.Server.Vocabulary.Basic

/-!
# The methods that are not served

Every client and server know many methods by name. Beyond those that this server is there for, a
request is understood and then refused, and a notification is heard and passed over.
-/

namespace DiagnosticServer.Vocabulary

open Shape

/-! ## Parts of their parameters -/

/-- A symbol in a hierarchy, with its tags. -/
def hierarchyItem (name : String) (tags : Shape) : Shape := record name [
  needs "name" text, needs "kind" signed, may "tags" tags, may "detail" text, needs "uri" uri,
  needs "range" range, needs "selectionRange" range, may "data" anything]

/-- A message about a place. -/
def diagnostic : Shape := record "Diagnostic" [
  needs "range" range, may "severity" signed, may "code" label,
  may "codeDescription" (record "CodeDescription" [needs "href" uri]), may "source" text,
  needs "message" text,
  may "relatedInformation" (list (record "DiagnosticRelatedInformation" [
    needs "location" location, needs "message" text])),
  may "tags" (list signed), may "data" anything]

/-- A document of some version. -/
def versioned : Shape := record "OptionalVersionedTextDocumentIdentifier" [
  needs "uri" uri, may "version" signed]

/-- Changes of one document. -/
def documentEdit : Shape := record "TextDocumentEdit" [
  needs "textDocument" versioned, needs "edits" (list textEdit)]

/-- A file that is made, renamed or deleted. -/
def fileEdit : Shape := tagged "ResourceOp" "kind" [
  ("create", [
    needs "uri" uri,
    may "options" (record "CreateFileOptions" (mayAll ["overwrite", "ignoreIfExists"] flag)),
    may "annotationId" text]),
  ("rename", [
    needs "oldUri" uri, needs "newUri" uri,
    may "options" (record "RenameFileOptions" (mayAll ["overwrite", "ignoreIfExists"] flag)),
    may "annotationId" text]),
  ("delete", [
    needs "uri" uri,
    may "options" (record "DeleteFileOptions" (mayAll ["recursive", "ignoreIfNotExists"] flag)),
    may "annotationId" text])]

/-- A change of one document or of one file. -/
def documentChange : Shape := oneOf "DocumentChangeOperation" [fileEdit, documentEdit]

/-- Why something is changed. -/
def changeAnnotation : Shape := record "ChangeAnnotation" [
  needs "label" text, may "needsConfirmation" flag, may "description" text]

/-- Changes of many documents. -/
def workspaceEdit : Shape := record "WorkspaceEdit" [
  mayEverywhere "changes" (table uri (list textEdit)),
  may "documentChanges" (oneOf "DocumentChanges" [list documentEdit, list documentChange]),
  may "changeAnnotations" (table text changeAnnotation)]

/-- How texts are laid out, with anything else that the client wants to say about it. -/
def formatting : Shape := spreadTable "FormattingOptions" [
  needs "tabSize" unsigned, needs "insertSpaces" flag, may "trimTrailingWhitespace" flag,
  may "insertFinalNewline" flag, may "trimFinalNewlines" flag]
  (oneOf "FormattingProperty" [flag, signed, text])

/-- A part of a hint. -/
def hintPart : Shape := record "InlayHintLabelPart" [
  needs "value" text, may "tooltip" (prose "InlayHintLabelPartTooltip"), may "location" location,
  may "command" command]

/-- A hint in a text. -/
def hint : Shape := record "InlayHint" [
  needs "position" position, needs "label" (oneOf "InlayHintLabel" [text, list hintPart]),
  may "kind" signed, may "textEdits" (list textEdit), may "tooltip" (prose "InlayHintTooltip"),
  may "paddingLeft" flag, may "paddingRight" flag, may "data" anything]

/-- What is inserted or replaced by a proposal. -/
def proposalEdit : Shape := oneOf "CompletionTextEdit" [
  textEdit,
  record "InsertReplaceEdit" [needs "newText" text, needs "insert" range, needs "replace" range]]

/-- A proposal for how a text may go on. -/
def proposal : Shape := record "CompletionItem" [
  needs "label" text,
  may "labelDetails" (record "CompletionItemLabelDetails" [
    may "detail" text, may "description" text]),
  may "kind" signed, may "detail" text, may "documentation" (prose "Documentation"),
  may "deprecated" flag, may "preselect" flag, may "sortText" text, may "filterText" text,
  may "insertText" text, may "insertTextFormat" signed, may "insertTextMode" signed,
  may "textEdit" proposalEdit, may "additionalTextEdits" (list textEdit), may "command" command,
  may "commitCharacters" (list text), may "data" anything, may "tags" (list signed)]

/-- A proposal for a change. -/
def action : Shape := record "CodeAction" [
  needs "title" text, may "kind" text, may "diagnostics" (list diagnostic),
  may "edit" workspaceEdit, may "command" command, may "isPreferred" flag,
  may "disabled" (record "CodeActionDisabled" [needs "reason" text]), may "data" anything]

/-- A parameter of a signature, given by its text or by where it stands in that of the signature. -/
def parameter : Shape := record "ParameterInformation" [
  needs "label" (oneOf "ParameterLabel" [text, tuple 2 unsigned]),
  may "documentation" (prose "Documentation")]

/-- A signature. -/
def signature : Shape := record "SignatureInformation" [
  needs "label" text, may "documentation" (prose "Documentation"),
  may "parameters" (list parameter), may "activeParameter" unsigned]

/-- The signatures that are shown. -/
def shownSignatures : Shape := record "SignatureHelp" [
  needs "signatures" (list signature), may "activeSignature" unsigned,
  may "activeParameter" unsigned]

/-- A file that comes or goes. Its name is not read as a URI. -/
def file (name : String) : Shape := record name [needs "uri" text]

/-- The parameters of a request about a place. -/
def aboutPosition (name : String) (own : List Field) (parts : List (List Field)) : Shape :=
  spread name own (atPosition :: parts)

/-- The parameters of a request about a document. -/
def aboutDocument (name : String) (more : List Field) : Shape :=
  spread name (inDocument :: more) [progress, partialResults]

/-! ## The methods that are not served -/

/-- The requests that the server understands and does not serve, with their parameters. -/
def unserved : List (String × Shape) := [
  ("textDocument/willSaveWaitUntil", record "WillSaveTextDocumentParams" [
    inDocument, needs "reason" signed]),
  ("textDocument/declaration",
    aboutPosition "GotoDefinitionParams" [] [progress, partialResults]),
  ("textDocument/definition", aboutPosition "GotoDefinitionParams" [] [progress, partialResults]),
  ("textDocument/typeDefinition",
    aboutPosition "GotoDefinitionParams" [] [progress, partialResults]),
  ("textDocument/implementation",
    aboutPosition "GotoDefinitionParams" [] [progress, partialResults]),
  ("textDocument/references", aboutPosition "ReferenceParams" [
    needs "context" (record "ReferenceContext" [needs "includeDeclaration" flag])]
    [progress, partialResults]),
  ("textDocument/prepareCallHierarchy", aboutPosition "CallHierarchyPrepareParams" [] [progress]),
  ("callHierarchy/incomingCalls", spread "CallHierarchyIncomingCallsParams" [
    needs "item" (hierarchyItem "CallHierarchyItem" (list signed))] [progress, partialResults]),
  ("callHierarchy/outgoingCalls", spread "CallHierarchyOutgoingCallsParams" [
    needs "item" (hierarchyItem "CallHierarchyItem" (list signed))] [progress, partialResults]),
  ("textDocument/prepareTypeHierarchy", aboutPosition "TypeHierarchyPrepareParams" [] [progress]),
  ("typeHierarchy/supertypes", spread "TypeHierarchySupertypesParams" [
    needs "item" (hierarchyItem "TypeHierarchyItem" signed)] [progress, partialResults]),
  ("typeHierarchy/subtypes", spread "TypeHierarchySubtypesParams" [
    needs "item" (hierarchyItem "TypeHierarchyItem" signed)] [progress, partialResults]),
  ("textDocument/documentHighlight",
    aboutPosition "DocumentHighlightParams" [] [progress, partialResults]),
  ("textDocument/documentLink", aboutDocument "DocumentLinkParams" []),
  ("documentLink/resolve", record "DocumentLink" [
    needs "range" range, may "target" uri, may "tooltip" text, may "data" anything]),
  ("textDocument/hover", aboutPosition "HoverParams" [] [progress]),
  ("textDocument/codeLens", aboutDocument "CodeLensParams" []),
  ("codeLens/resolve", record "CodeLens" [
    needs "range" range, may "command" command, may "data" anything]),
  ("textDocument/foldingRange", aboutDocument "FoldingRangeParams" []),
  ("textDocument/selectionRange", aboutDocument "SelectionRangeParams" [
    needs "positions" (list position)]),
  ("textDocument/documentSymbol", aboutDocument "DocumentSymbolParams" []),
  ("textDocument/semanticTokens/full", aboutDocument "SemanticTokensParams" []),
  ("textDocument/semanticTokens/full/delta", aboutDocument "SemanticTokensDeltaParams" [
    needs "previousResultId" text]),
  ("textDocument/semanticTokens/range", aboutDocument "SemanticTokensRangeParams" [
    needs "range" range]),
  ("textDocument/inlineValue", spread "InlineValueParams" [
    inDocument, needs "range" range,
    needs "context" (record "InlineValueContext" [
      needs "frameId" signed, needs "stoppedLocation" range])] [progress]),
  ("textDocument/inlayHint", spread "InlayHintParams" [inDocument, needs "range" range]
    [progress]),
  ("inlayHint/resolve", hint),
  ("textDocument/moniker", aboutPosition "MonikerParams" [] [progress, partialResults]),
  ("textDocument/completion", aboutPosition "CompletionParams" [
    may "context" (record "CompletionContext" [
      needs "triggerKind" signed, may "triggerCharacter" text])] [progress, partialResults]),
  ("completionItem/resolve", proposal),
  ("workspace/diagnostic", spread "WorkspaceDiagnosticParams" [
    may "identifier" text,
    needs "previousResultIds" (list (record "PreviousResultId" [
      needs "uri" uri, needs "value" text]))] [progress, partialResults]),
  ("textDocument/signatureHelp", aboutPosition "SignatureHelpParams" [
    may "context" (record "SignatureHelpContext" [
      needs "triggerKind" signed, may "triggerCharacter" text, needs "isRetrigger" flag,
      may "activeSignatureHelp" shownSignatures])] [progress]),
  ("textDocument/codeAction", aboutDocument "CodeActionParams" [
    needs "range" range,
    needs "context" (record "CodeActionContext" [
      needs "diagnostics" (list diagnostic), may "only" (list text), may "triggerKind" signed])]),
  ("codeAction/resolve", action),
  ("textDocument/documentColor", aboutDocument "DocumentColorParams" []),
  ("textDocument/colorPresentation", aboutDocument "ColorPresentationParams" [
    needs "color" (record "Color" [
      needs "red" number, needs "green" number, needs "blue" number, needs "alpha" number]),
    needs "range" range]),
  ("textDocument/formatting", spread "DocumentFormattingParams" [
    inDocument, needs "options" formatting] [progress]),
  ("textDocument/rangeFormatting", spread "DocumentRangeFormattingParams" [
    inDocument, needs "range" range, needs "options" formatting] [progress]),
  ("textDocument/onTypeFormatting", aboutPosition "DocumentOnTypeFormattingParams" [
    needs "ch" text, needs "options" formatting] []),
  ("textDocument/rename", aboutPosition "RenameParams" [needs "newName" text] [progress]),
  ("textDocument/prepareRename", record "TextDocumentPositionParams" atPosition),
  ("textDocument/linkedEditingRange", aboutPosition "LinkedEditingRangeParams" [] [progress]),
  ("workspace/symbol", spread "WorkspaceSymbolParams" [needs "query" text]
    [partialResults, progress]),
  ("workspaceSymbol/resolve", record "WorkspaceSymbol" [
    needs "name" text, needs "kind" signed, may "tags" (list signed), may "containerName" text,
    needs "location" (oneOf "OneOf" [
      location, record "WorkspaceLocation" [needs "uri" uri]]),
    may "data" anything]),
  ("workspace/willCreateFiles", record "CreateFilesParams" [
    needs "files" (list (file "FileCreate"))]),
  ("workspace/willRenameFiles", record "RenameFilesParams" [
    needs "files" (list (record "FileRename" [needs "oldUri" text, needs "newUri" text]))]),
  ("workspace/willDeleteFiles", record "DeleteFilesParams" [
    needs "files" (list (file "FileDelete"))]),
  ("workspace/executeCommand", spread "ExecuteCommandParams" [
    needs "command" text,
    { key := "arguments", presence := .defaulted, shape := list anything }] [progress])]

/-- The notifications that the server hears and does nothing about. -/
def unheeded : List String := [
  "textDocument/willSave", "notebookDocument/didOpen", "notebookDocument/didChange",
  "notebookDocument/didSave", "notebookDocument/didClose", "workspace/didChangeConfiguration",
  "workspace/didChangeWorkspaceFolders", "workspace/didCreateFiles", "workspace/didRenameFiles",
  "workspace/didDeleteFiles", "workspace/didChangeWatchedFiles"]

end DiagnosticServer.Vocabulary
