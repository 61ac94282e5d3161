import DiagnosticServer.Diagnostic
import DiagnosticServer.Server.Vocabulary.Served
import DiagnosticServer.Server.Vocabulary.Unserved

/-!
# Messages of a client

A client sends requests, which have an identifier and are answered, and notifications, which have
none and are not. Both name a method and carry parameters. Here the methods that the server knows
are read from their names and their parameters.
-/

namespace DiagnosticServer

/-- A message as it came in. -/
structure Message where
  /-- The name of the method. -/
  method : String
  /-- The identifier, which only a request has. It may be null. -/
  id : Option Json
  /-- The parameters, if there are any. -/
  params : Option Json

/-- What a client can ask for. -/
inductive Request where
  /-- To be served, with these options. -/
  | start (options : Option Json)
  /-- The diagnostics of a document, by a client that has the report named `previous`. -/
  | pull (uri : Uri) (previous : Option String)
  /-- That the work be ended. -/
  | shutdown
  /-- Something that the server does not do. -/
  | unserved

/-- What a client can tell. -/
inductive Notice where
  /-- It is ready. -/
  | started
  /-- A document was opened. -/
  | opened (uri : Uri) (language text : String)
  /-- A document was changed; each text replaces the whole document. -/
  | changed (uri : Uri) (texts : List String)
  /-- A document was saved, perhaps with its text. -/
  | saved (uri : Uri) (text : Option String)
  /-- A document was closed. -/
  | closed (uri : Uri)
  /-- Something that does not matter to the server. -/
  | unheeded

namespace Params

/-- A field that has to be there. -/
def field (params : Json) (key : String) : Except ParamsFault Json :=
  match params.field? key with
  | some value => .ok value
  | none => .error (.lacks key)

/-- A text that has to be there. -/
def text (params : Json) (key : String) : Except ParamsFault String :=
  match params.field? key with
  | some (.string value) => .ok value
  | _ => .error (.lacks key)

/-- A text that may be there. -/
def text? (params : Json) (key : String) : Option String := (params.field? key).bind Json.text?

/-- The URI of the document that parameters are about. -/
def documentUri (params : Json) : Except ParamsFault Uri := do
  let document ← field params "textDocument"
  match Uri.parse (← text document "uri") with
  | .ok uri => return uri
  | .error fault => throw (.uri fault)

/-- The options among the parameters of a start. A null is as good as none. -/
def startOptions (params : Json) : Option Json :=
  match params.field? "initializationOptions" with
  | some .null => none
  | options => options

/-- The texts of a list of changes. -/
def changeTexts (params : Json) : Except ParamsFault (List String) := do
  match (← field params "contentChanges").items? with
  | some changes => changes.mapM fun change => text change "text"
  | none => throw (.lacks "contentChanges")

/-- The parameters, which have to be there and of a shape, in their normal form. -/
def present (shape : Shape) : Option Json → Except ParamsFault Json
  | some params => shape params
  | none => .error .missing

end Params

/-- What the server can be asked for or told, before the parameters are read. -/
inductive Method where
  /-- The request that starts the serving. -/
  | start
  /-- The request that ends it. -/
  | shutdown
  /-- Another request. -/
  | request (read : Option Json → Except ParamsFault Request)
  /-- A notification. -/
  | notice (read : Option Json → Except ParamsFault Notice)
  /-- The notification that an answer is not wanted any more. -/
  | cancel
  /-- The order to exit. -/
  | exit

namespace Method

/-- Reads the parameters of a start. -/
def readStart (params : Option Json) : Except ParamsFault Request := do
  return .start (Params.startOptions (← Params.present Vocabulary.start params))

/-- Reads the parameters of a shutdown, which are none. A null is as good as none. -/
def readShutdown : Option Json → Except ParamsFault Request
  | none | some .null => .ok .shutdown
  | some params => .error (.unexpected params)

/-- Reads the parameters of a pull. -/
def readPull (params : Option Json) : Except ParamsFault Request := do
  let params ← Params.present Vocabulary.pull params
  return .pull (← Params.documentUri params) (Params.text? params "previousResultId")

/-- Reads the parameters of the notice that the client is ready. -/
def readStarted (params : Option Json) : Except ParamsFault Notice := do
  let _ ← Params.present Vocabulary.started params
  return .started

/-- Reads the parameters of an opening. -/
def readOpened (params : Option Json) : Except ParamsFault Notice := do
  let params ← Params.present Vocabulary.opened params
  let uri ← Params.documentUri params
  let document ← Params.field params "textDocument"
  return .opened uri (← Params.text document "languageId") (← Params.text document "text")

/-- Reads the parameters of a change. -/
def readChanged (params : Option Json) : Except ParamsFault Notice := do
  let params ← Params.present Vocabulary.changed params
  return .changed (← Params.documentUri params) (← Params.changeTexts params)

/-- Reads the parameters of a saving. -/
def readSaved (params : Option Json) : Except ParamsFault Notice := do
  let params ← Params.present Vocabulary.saved params
  return .saved (← Params.documentUri params) (Params.text? params "text")

/-- Reads the parameters of a closing. -/
def readClosed (params : Option Json) : Except ParamsFault Notice := do
  return .closed (← Params.documentUri (← Params.present Vocabulary.closed params))

/-- Reads the parameters of a request that is not served. They have to be of its shape all the
same. -/
def readUnserved (shape : Shape) (params : Option Json) : Except ParamsFault Request := do
  let _ ← Params.present shape params
  return .unserved

/-- Passes over the parameters of a notification that does not matter. -/
def readUnheeded (_ : Option Json) : Except ParamsFault Notice := .ok .unheeded

/-- The method of a name. -/
def ofName? : String → Option Method
  | "initialize" => some .start
  | "shutdown" => some .shutdown
  | "textDocument/diagnostic" => some (.request readPull)
  | "initialized" => some (.notice readStarted)
  | "textDocument/didOpen" => some (.notice readOpened)
  | "textDocument/didChange" => some (.notice readChanged)
  | "textDocument/didSave" => some (.notice readSaved)
  | "textDocument/didClose" => some (.notice readClosed)
  | "$/cancelRequest" => some .cancel
  | "exit" => some .exit
  | name =>
    match Vocabulary.unserved.lookup name with
    | some shape => some (.request (readUnserved shape))
    | none => if Vocabulary.unheeded.contains name then some (.notice readUnheeded) else none

end Method

/-- Why a request is refused. -/
inductive Refusal where
  /-- No method has that name. -/
  | unknownMethod (name : String)
  /-- The server does not do that. -/
  | unserved
  /-- The request cannot be made now or not in this way. -/
  | invalidRequest
  /-- The client has not started the server. -/
  | notStarted
  /-- The parameters cannot be read. -/
  | invalidParams (fault : ParamsFault)
  /-- The request failed. -/
  | failed (cause : Error)

namespace Refusal

/-- The number of a refusal. A URI that names no file is a fault of the parameters. -/
def code : Refusal → Int
  | unknownMethod _ | unserved => -32601
  | invalidRequest => -32600
  | notStarted => -32002
  | invalidParams _ => -32602
  | failed (.invalidUri _) => -32602
  | failed _ => -32603

/-- The words for a refusal. -/
def message : Refusal → String
  | unknownMethod _ | unserved => "Method not found"
  | invalidRequest => "Invalid request"
  | notStarted => "Server not initialized"
  | invalidParams fault => fault.message
  | failed cause => cause.message

/-- What is sent beside the words. -/
def data? : Refusal → Option String
  | unknownMethod name => some name
  | _ => none

end Refusal

end DiagnosticServer
