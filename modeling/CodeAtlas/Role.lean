import CodeAtlas.Path
import CodeAtlas.Text.Casing

/-!
The role of a file in its project, guessed from its name, its folder and its content. Names win
over contents.
-/
namespace CodeAtlas

inductive Role where
  | component | service | utility | page | api | database | config
deriving DecidableEq, Repr

namespace Role

def all : List Role := [component, service, utility, page, api, database, config]

def name : Role → String
  | component => "component"
  | service => "service"
  | utility => "utility"
  | page => "page"
  | api => "api"
  | database => "database"
  | config => "config"

def ofName? (text : String) : Option Role := all.find? (·.name == text)

theorem ofName?_name (r : Role) : ofName? r.name = some r := by cases r <;> rfl

def componentWords : List String := ["component", "widget", "ui", "view", "screen"]
def serviceWords : List String := ["service", "api", "controller", "handler", "manager"]
def pageWords : List String := ["page", "route", "view", "screen"]
def serverWords : List String := ["express", "fastify", "koa"]
def databaseWords : List String := ["mongoose", "sequelize", "prisma"]

def mentions (words : List String) (text : String) : Bool := words.any (Text.contains · text)

def ofFile (path content : String) : Role :=
  let file := Text.lower (Path.fileName path)
  let folder := Text.lower (Path.folderName path)
  if mentions componentWords file || mentions componentWords folder then component
  else if mentions serviceWords file || mentions serviceWords folder then service
  else if mentions pageWords file || mentions pageWords folder then page
  else if mentions serverWords content then api
  else if mentions databaseWords content then database
  else if mentions ["config", "env"] path || Text.contains "config" file then config
  else utility

end Role

end CodeAtlas
