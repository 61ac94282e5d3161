import DiagnosticServer.Server.Shape

/-!
# Common parts of parameters

Places, documents, and what else the parameters of many methods are made of.
-/

namespace DiagnosticServer.Vocabulary

open Shape

/-- A place between two characters. -/
def position : Shape := record "Position" [needs "line" unsigned, needs "character" unsigned]

/-- What lies between two places. -/
def range : Shape := record "Range" [needs "start" position, needs "end" position]

/-- What lies between two places of a document. -/
def location : Shape := record "Location" [needs "uri" uri, needs "range" range]

/-- A document. -/
def document : Shape := record "TextDocumentIdentifier" [needs "uri" uri]

/-- The field for a document. -/
def inDocument : Field := needs "textDocument" document

/-- The fields for a place in a document. -/
def atPosition : List Field := [inDocument, needs "position" position]

/-- A number or a text. -/
def label : Shape := oneOf "NumberOrString" [signed, text]

/-- The field for the token under which progress is told. -/
def progress : List Field := [may "workDoneToken" label]

/-- The field for the token under which parts of the answer are sent. -/
def partialResults : List Field := [may "partialResultToken" label]

/-- A kind of markup. -/
def markupKind : Shape := word ["plaintext", "markdown"]

/-- A text with markup. -/
def markup : Shape := record "MarkupContent" [needs "kind" markupKind, needs "value" text]

/-- A text with or without markup. -/
def prose (name : String) : Shape := oneOf name [text, markup]

/-- A command of the client. -/
def command : Shape := record "Command" [
  needs "title" text, needs "command" text, may "arguments" (list anything)]

/-- A change of what lies between two places. -/
def textEdit : Shape := record "TextEdit" [needs "range" range, needs "newText" text]

end DiagnosticServer.Vocabulary
