import Switchboard.Record.Form

namespace Switchboard

open Json (Doc)
open Record

structure ServerInfo where
  name : String := "lspx"
  version : String := "0.1.0"
  deriving DecidableEq

namespace ServerInfo

def toJson (info : ServerInfo) : Json :=
  .obj [("name", .str info.name), ("version", .str info.version)]

inductive Field
  | name
  | version
  deriving DecidableEq

abbrev Field.Ty : Field → Type
  | .name => String
  | .version => String

def form : Form Field Field.Ty where
  name := "ServerInfoSettings"
  fields := [.name, .version]
  complete f := by cases f <;> simp
  key
    | .name => "name"
    | .version => "version"
  read
    | .name => Record.string
    | .version => Record.string
  fallback
    | .name => some ({} : ServerInfo).name
    | .version => some ({} : ServerInfo).version

def read (origin : Origin) (doc : Doc) : Except Problem ServerInfo := do
  let r ← form.readRecord origin doc
  return ⟨r .name, r .version⟩

end ServerInfo

structure Settings where
  serverInfo : ServerInfo := {}
  deriving DecidableEq

namespace Settings

def toJson (s : Settings) : Json := .obj [("server_info", s.serverInfo.toJson)]

inductive Field
  | serverInfo
  deriving DecidableEq

abbrev Field.Ty : Field → Type
  | .serverInfo => ServerInfo

def form (origin : Origin) : Form Field Field.Ty where
  name := "MultiplexerSettings"
  fields := [.serverInfo]
  complete f := by cases f; simp
  key
    | .serverInfo => "server_info"
  read
    | .serverInfo => ServerInfo.read origin
  fallback
    | .serverInfo => some {}

def read (origin : Origin) (doc : Doc) : Except Problem Settings := do
  let r ← (form origin).readRecord origin doc
  return ⟨r .serverInfo⟩

end Settings

end Switchboard
