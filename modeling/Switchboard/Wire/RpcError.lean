import Switchboard.Record.Form

namespace Switchboard

open Json (Doc)
open Record

structure RpcError where
  code : Int32
  message : String
  data : Option Json
  deriving Inhabited

namespace RpcError

def invalidRequestCode : Int32 := -32600
def internalErrorCode : Int32 := -32603
def serverNotInitializedCode : Int32 := -32002
def requestFailedCode : Int32 := -32803

def ofCode (code : Int32) (message : String) : RpcError := ⟨code, message, none⟩

def notInitialized (message : String) : RpcError := ofCode serverNotInitializedCode message
def invalidRequest (message : String) : RpcError := ofCode invalidRequestCode message
def internalError (message : String) : RpcError := ofCode internalErrorCode message
def requestFailed (message : String) : RpcError := ofCode requestFailedCode message

def withData (e : RpcError) (data : Json) : RpcError := { e with data := some data }

def text (e : RpcError) : String :=
  e.message ++ " (code " ++ toString e.code.toInt ++ ")"

/-- Absent data are not written; `null` that is there is. -/
def toJson (e : RpcError) : Json :=
  .obj <| [("code", .int e.code.toInt)] ++ (e.data.map ("data", ·)).toList ++
    [("message", .str e.message)]

inductive Field
  | code
  | message
  | data
  deriving DecidableEq

abbrev Field.Ty : Field → Type
  | .code => Int32
  | .message => String
  | .data => Option Json

def form (origin : Origin) : Form Field Field.Ty where
  name := "ResponseError"
  fields := [.code, .message, .data]
  complete f := by cases f <;> simp
  key
    | .code => "code"
    | .message => "message"
    | .data => "data"
  read
    | .code => Record.code
    | .message => Record.string
    | .data => Record.optional origin
  fallback
    | .code => none
    | .message => none
    | .data => some none

def read (origin : Origin) (doc : Doc) : Except Problem RpcError := do
  let r ← (form origin).readRecord origin doc
  return ⟨r .code, r .message, r .data⟩

end RpcError

/-- What JSON-RPC and the language server protocol call an error code. -/
inductive ErrorClass
  | parseError
  | invalidRequest
  | methodNotFound
  | invalidParams
  | internalError
  | canceled
  | contentModified
  | server (code : Int)
  deriving DecidableEq

namespace ErrorClass

def ofCode (code : Int) : ErrorClass :=
  if code = -32700 then .parseError
  else if code = -32600 then .invalidRequest
  else if code = -32601 then .methodNotFound
  else if code = -32602 then .invalidParams
  else if code = -32603 then .internalError
  else if code = -32800 then .canceled
  else if code = -32801 then .contentModified
  else .server code

def code : ErrorClass → Int
  | .parseError => -32700
  | .invalidRequest => -32600
  | .methodNotFound => -32601
  | .invalidParams => -32602
  | .internalError => -32603
  | .canceled => -32800
  | .contentModified => -32801
  | .server code => code

def description : ErrorClass → String
  | .parseError => "Parse error"
  | .invalidRequest => "Invalid request"
  | .methodNotFound => "Method not found"
  | .invalidParams => "Invalid params"
  | .internalError => "Internal error"
  | .canceled => "Canceled"
  | .contentModified => "Content modified"
  | .server _ => "Server error"

theorem code_ofCode (code : Int) : (ofCode code).code = code := by
  unfold ofCode
  repeat' split
  all_goals simp_all [ErrorClass.code]

end ErrorClass

structure ClassifiedError where
  kind : ErrorClass
  message : String
  data : Option Json

namespace ClassifiedError

def ofRpcError (e : RpcError) : ClassifiedError := ⟨.ofCode e.code.toInt, e.message, e.data⟩

def toJson (e : ClassifiedError) : Json :=
  .obj <| [("code", .int e.kind.code)] ++ (e.data.map ("data", ·)).toList ++
    [("message", .str e.message)]

end ClassifiedError

end Switchboard
