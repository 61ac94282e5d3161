import DiagnosticServer.Server.Vocabulary.Basic

/-!
# The abilities of clients

What a client says it is able to do when it starts the server. Nothing comes of it here, but it has
to be well formed.
-/

namespace DiagnosticServer.Vocabulary

open Shape

/-! ## Common parts -/

/-- Whether a method can be registered while the server runs. -/
def dynamic : Field := may "dynamicRegistration" flag

/-- Abilities around a method that can only be registered. -/
def registration : Shape := record "DynamicRegistrationClientCapabilities" [dynamic]

/-- Abilities around something that can be refreshed. -/
def refreshing (name : String) : Shape := record name [may "refreshSupport" flag]

/-- The properties that can be asked for later. -/
def lateProperties (name : String) : Shape := record name [needs "properties" (list text)]

/-- The kinds of symbols that are known. -/
def symbolKinds : Shape := record "SymbolKindCapability" [may "valueSet" (list signed)]

/-- The tags that are known. A truth value stands for no tags. -/
def knownTags : Shape
  | .bool value => .ok (.bool value)
  | other => record "TagSupport" [needs "valueSet" (list signed)] other

/-- The field for the tags that are known. -/
def withTags : Field := mayEverywhere "tagSupport" knownTags

/-! ## The workspace -/

/-- Abilities around changes of many documents. -/
def workspaceEditing : Shape := record "WorkspaceEditClientCapabilities" [
  may "documentChanges" flag,
  may "resourceOperations" (list (word ["create", "rename", "delete"])),
  may "failureHandling" (word ["abort", "transactional", "textOnlyTransactional", "undo"]),
  may "normalizesLineEndings" flag,
  may "changeAnnotationSupport" (record "ChangeAnnotationWorkspaceEditClientCapabilities" [
    may "groupsOnLabel" flag])]

/-- Abilities around symbols of the workspace. -/
def symbolSearch : Shape := record "WorkspaceSymbolClientCapabilities" [
  dynamic, may "symbolKind" symbolKinds, withTags,
  may "resolveSupport" (lateProperties "WorkspaceSymbolResolveSupportCapability")]

/-- Abilities around files that come and go. -/
def fileOperations : Shape := record "WorkspaceFileOperationsClientCapabilities" (
  dynamic ::
    mayAll ["didCreate", "willCreate", "didRename", "willRename", "didDelete", "willDelete"] flag)

/-- Abilities around the workspace. -/
def workspace : Shape := record "WorkspaceClientCapabilities" [
  may "applyEdit" flag, may "workspaceEdit" workspaceEditing,
  may "didChangeConfiguration" registration,
  may "didChangeWatchedFiles" (record "DidChangeWatchedFilesClientCapabilities" [
    dynamic, may "relativePatternSupport" flag]),
  may "symbol" symbolSearch, may "executeCommand" registration, may "workspaceFolders" flag,
  may "configuration" flag,
  may "semanticTokens" (refreshing "SemanticTokensWorkspaceClientCapabilities"),
  may "codeLens" (refreshing "CodeLensWorkspaceClientCapabilities"),
  may "fileOperations" fileOperations,
  may "inlineValue" (refreshing "InlineValueWorkspaceClientCapabilities"),
  may "inlayHint" (refreshing "InlayHintWorkspaceClientCapabilities"),
  may "diagnostics" (refreshing "DiagnosticWorkspaceClientCapabilities")]

/-! ## Documents -/

/-- Abilities around the text of documents. -/
def synchronization : Shape := record "TextDocumentSyncClientCapabilities" (
  dynamic :: mayAll ["willSave", "willSaveWaitUntil", "didSave"] flag)

/-- Abilities around single proposals. -/
def proposals : Shape := record "CompletionItemCapability" [
  may "snippetSupport" flag, may "commitCharactersSupport" flag,
  may "documentationFormat" (list markupKind), may "deprecatedSupport" flag,
  may "preselectSupport" flag, withTags, may "insertReplaceSupport" flag,
  may "resolveSupport" (lateProperties "CompletionItemCapabilityResolveSupport"),
  may "insertTextModeSupport" (record "InsertTextModeSupport" [needs "valueSet" (list signed)]),
  may "labelDetailsSupport" flag]

/-- Abilities around proposals. -/
def completion : Shape := record "CompletionClientCapabilities" [
  dynamic, may "completionItem" proposals,
  may "completionItemKind" (record "CompletionItemKindCapability" [
    may "valueSet" (list signed)]),
  may "contextSupport" flag, may "insertTextMode" signed,
  may "completionList" (record "CompletionListCapability" [may "itemDefaults" (list text)])]

/-- Abilities around explanations. -/
def hover : Shape := record "HoverClientCapabilities" [
  dynamic, may "contentFormat" (list markupKind)]

/-- Abilities around signatures. -/
def signatures : Shape := record "SignatureHelpClientCapabilities" [
  dynamic,
  may "signatureInformation" (record "SignatureInformationSettings" [
    may "documentationFormat" (list markupKind),
    may "parameterInformation" (record "ParameterInformationSettings" [
      may "labelOffsetSupport" flag]),
    may "activeParameterSupport" flag]),
  may "contextSupport" flag]

/-- Abilities around symbols of a document. -/
def outline : Shape := record "DocumentSymbolClientCapabilities" [
  dynamic, may "symbolKind" symbolKinds, may "hierarchicalDocumentSymbolSupport" flag, withTags,
  may "labelSupport" flag]

/-- Abilities around finding where something comes from. -/
def goto : Shape := record "GotoCapability" [dynamic, may "linkSupport" flag]

/-- Abilities around proposed changes. -/
def actions : Shape := record "CodeActionClientCapabilities" [
  dynamic,
  may "codeActionLiteralSupport" (record "CodeActionLiteralSupport" [
    needs "codeActionKind" (record "CodeActionKindLiteralSupport" [
      needs "valueSet" (list text)])]),
  may "isPreferredSupport" flag, may "disabledSupport" flag, may "dataSupport" flag,
  may "resolveSupport" (lateProperties "CodeActionCapabilityResolveSupport"),
  may "honorsChangeAnnotations" flag]

/-- Abilities around renaming. -/
def renames : Shape := record "RenameClientCapabilities" [
  dynamic, may "prepareSupport" flag, may "prepareSupportDefaultBehavior" signed,
  may "honorsChangeAnnotations" flag]

/-- Abilities around pushed diagnostics. -/
def pushing : Shape := record "PublishDiagnosticsClientCapabilities" [
  may "relatedInformation" flag, withTags, may "versionSupport" flag,
  may "codeDescriptionSupport" flag, may "dataSupport" flag]

/-- Abilities around pulled diagnostics. -/
def pulling : Shape := record "DiagnosticClientCapabilities" [
  dynamic, may "relatedDocumentSupport" flag, may "relatedInformation" flag,
  may "tagSupport" (record "ClientDiagnosticsTagOptions" [needs "valueSet" (list signed)]),
  may "codeDescriptionSupport" flag, may "dataSupport" flag]

/-- Abilities around folding. -/
def folding : Shape := record "FoldingRangeClientCapabilities" [
  dynamic, may "rangeLimit" unsigned, may "lineFoldingOnly" flag,
  may "foldingRangeKind" (record "FoldingRangeKindCapability" [
    may "valueSet" (list (word ["comment", "imports", "region"]))]),
  may "foldingRange" (record "FoldingRangeCapability" [may "collapsedText" flag])]

/-- Abilities around the meaning of the words of a text. -/
def highlighting : Shape := record "SemanticTokensClientCapabilities" [
  dynamic,
  needs "requests" (record "SemanticTokensClientCapabilitiesRequests" [
    may "range" flag,
    may "full" (oneOf "SemanticTokensFullOptions" [
      flag, spread "SemanticTokensFullOptions" [may "delta" flag] []])]),
  needs "tokenTypes" (list text), needs "tokenModifiers" (list text), needs "formats" (list text),
  may "overlappingTokenSupport" flag, may "multilineTokenSupport" flag,
  may "serverCancelSupport" flag, may "augmentsSyntaxTokens" flag]

/-- Abilities around documents. -/
def documents : Shape := record "TextDocumentClientCapabilities" [
  may "synchronization" synchronization, may "completion" completion, may "hover" hover,
  may "signatureHelp" signatures, may "references" registration,
  may "documentHighlight" registration, may "documentSymbol" outline,
  may "formatting" registration, may "rangeFormatting" registration,
  may "onTypeFormatting" registration, may "declaration" goto, may "definition" goto,
  may "typeDefinition" goto, may "implementation" goto, may "codeAction" actions,
  may "codeLens" registration,
  may "documentLink" (record "DocumentLinkClientCapabilities" [
    dynamic, may "tooltipSupport" flag]),
  may "colorProvider" registration, may "rename" renames, may "publishDiagnostics" pushing,
  may "foldingRange" folding,
  may "selectionRange" (record "SelectionRangeClientCapabilities" [dynamic]),
  may "linkedEditingRange" registration, may "callHierarchy" registration,
  may "semanticTokens" highlighting, may "moniker" registration,
  may "typeHierarchy" registration, may "inlineValue" registration,
  may "inlayHint" (record "InlayHintClientCapabilities" [
    dynamic, may "resolveSupport" (lateProperties "InlayHintResolveClientCapabilities")]),
  may "diagnostic" pulling,
  may "inlineCompletion" (record "InlineCompletionClientCapabilities" [dynamic])]

/-! ## The rest -/

/-- Abilities around notebooks. -/
def notebooks : Shape := record "NotebookDocumentClientCapabilities" [
  needs "synchronization" (record "NotebookDocumentSyncClientCapabilities" [
    dynamic, may "executionSummaryReport" flag])]

/-- Abilities around windows. -/
def window : Shape := record "WindowClientCapabilities" [
  may "workDoneProgress" flag,
  may "showMessage" (record "ShowMessageRequestClientCapabilities" [
    may "messageActionItem" (record "MessageActionItemCapabilities" [
      may "additionalPropertiesSupport" flag])]),
  may "showDocument" (record "ShowDocumentClientCapabilities" [needs "support" flag])]

/-- Abilities of no particular kind. -/
def general : Shape := record "GeneralClientCapabilities" [
  may "regularExpressions" (record "RegularExpressionsClientCapabilities" [
    needs "engine" text, may "version" text]),
  may "markdown" (record "MarkdownClientCapabilities" [
    needs "parser" text, may "version" text, may "allowedTags" (list text)]),
  may "staleRequestSupport" (record "StaleRequestSupportClientCapabilities" [
    needs "cancel" flag, needs "retryOnContentModified" (list text)]),
  may "positionEncodings" (list text)]

/-- What a client is able to do. -/
def abilities : Shape := record "ClientCapabilities" [
  may "workspace" workspace, may "textDocument" documents, may "notebookDocument" notebooks,
  may "window" window, may "general" general, may "offsetEncoding" (list text),
  may "experimental" anything]

end DiagnosticServer.Vocabulary
