import ServiceCall.Contract.Document
import ServiceCall.Log.Record
import ServiceCall.Settings.Document

/-!
# Contracts in settings documents

A contract is written as a document of settings: a name, and a list of methods with their
parameters. A method or a parameter is a table, or a list of its parts in their order.
-/

namespace ServiceCall

/-- A part of a document that may be left out or null. -/
def optionalPart? : Option Node → Option (Option String)
  | none => some none
  | some n => n.optionalText?

/-- A parameter as a value of settings. -/
def ParamDocument.ofNode? : Node → Option ParamDocument
  | .table entries => do
    let name ← (entries.lookup "name").bind Node.text?
    let typeName ← (entries.lookup "type").bind Node.text?
    let path ← optionalPart? (entries.lookup "path")
    return { name, typeName, path }
  | .list (name :: typeName :: path :: _) => do
    return { name := ← name.text?, typeName := ← typeName.text?, path := ← path.optionalText? }
  | _ => none

/-- A list of parts that may be left out. -/
def partList? {α : Type} (convert : Node → Option α) : Option Node → Option (List α)
  | none => some []
  | some n => n.items?.bind fun items => items.mapM convert

/-- A method as a value of settings. -/
def MethodDocument.ofNode? : Node → Option MethodDocument
  | .table entries => do
    let name ← (entries.lookup "name").bind Node.text?
    let method ← optionalPart? (entries.lookup "method")
    let path ← optionalPart? (entries.lookup "path")
    let returns ← optionalPart? (entries.lookup "returns")
    let params ← partList? ParamDocument.ofNode? (entries.lookup "params")
    return { name, method, path, returns, params }
  | .list (name :: method :: path :: returns :: rest) => do
    return { name := ← name.text?, method := ← method.optionalText?, path := ← path.optionalText?,
             returns := ← returns.optionalText?,
             params := ← partList? ParamDocument.ofNode? rest.head? }
  | _ => none

/-- A contract as settings. -/
def ContractDocument.ofNode? (root : Node) : Option ContractDocument := do
  let name ← (root.entries.lookup "name").bind Node.text?
  let methods ← partList? MethodDocument.ofNode? (root.entries.lookup "methods")
  return { name, methods }

namespace Contract

/-- The contract that a text holds. -/
def ofText (f : Format) (text : String) : Except ContractError Contract :=
  match (f.settings? text).bind ContractDocument.ofNode? with
  | some d => d.toContract
  | none => .error (.schema .unreadable)

/-- Why a contract could not be loaded. -/
inductive LoadError where
  /-- The document cannot be read, and why if it is not for what it holds. -/
  | unread (path : String) (cause : Files.Error)
  | unfit (path : String)
  /-- The document is no contract. -/
  | unbuilt (cause : ContractError)
deriving DecidableEq, Repr

/-- The text for a reader, without the cause. -/
def LoadError.message : LoadError → String
  | .unread path _ | .unfit path => "Could not read contract file " ++ path
  | .unbuilt _ => "Could not build contract"

/-- The texts of the causes, the nearest first. -/
def LoadError.causes : LoadError → List String
  | .unread _ cause => [cause.message]
  | .unfit path => ["document does not fit, path=" ++ path]
  | .unbuilt cause => [cause.message]

/-- The part that speaks when a contract is loaded. -/
def loadTarget : String := "ws_client::contract::schema"

/-- The contract in the document of a name, with what is told about it. -/
def load (files : Files) (name : String) : List Log.Record × Except LoadError Contract :=
  match files.read name with
  | .error cause => ([], .error (.unread name cause))
  | .ok entries =>
    match ContractDocument.ofNode? (Node.layer (.table []) entries) with
    | none => ([], .error (.unfit name))
    | some d =>
      let told : Log.Record :=
        ⟨.debug, loadTarget, "Loaded contract schema", [("path", name), ("service", d.name)]⟩
      ([told], d.toContract.mapError .unbuilt)

end Contract

end ServiceCall
