import TableStore.Engine.Execute
import TableStore.Result.Format
import TableStore.Settings

/-!
# Sessions

Several databases over one store. Each has its own settings and its own source
of ids; the store and the log are shared. A session remembers the result of the
last statement, which can be rendered afterwards, and a statement that fails
leaves an empty one.

The level of the log is shared as well: the level that the last opened database
with such a setting asks for holds for all of them.

A database whose root is not usable can be opened. Its statements fail as soon
as they need a key, while the store itself stays open to requests.

## Main definitions

* `Connection`: A database of a session.
* `Session`: Databases over one store.
* `Session.connect`: Opens a database.
* `Session.perform`: Runs a dialogue in a database.
* `Session.request`: Runs a dialogue with the store of a database.
* `Session.tables`: The names of all tables of a database.
* `Session.execute`: Executes a statement in a database.
-/

namespace TableStore

/-- A database of a session: the layout of its keys, whether it uses indexes,
    and its source of ids. Without a layout no key can be built. -/
structure Connection where
  layout : Option KeyLayout
  useIndexes : Bool
  ids : IdSource

/-- The engine of a database. -/
def Connection.engine (connection : Connection) : Engine :=
  ⟨connection.layout.getD ⟨[]⟩, connection.useIndexes⟩

/-- Databases over one store. The lines of the log are in the order in which
    they were added. -/
structure Session (σ : Type) where
  backend : Backend σ
  store : σ
  connections : Members Connection := []
  keepsLines : Bool := true
  log : List String := []
  last : QueryResult := {}

namespace Session

/-- Whether the log keeps lines under a setting of its level. -/
def levelAfter (keeps : Bool) : Value → Except Fault Bool
  | .null => .ok keeps
  | .text level =>
    match keepsLines? level with
    | some b => .ok b
    | none => .error .unknownLogLevel
  | _ => .error .settingNotUsable

/-- Opens a database under a name, with its own id source if one is given and
    else with that of its settings. -/
def connect {σ : Type} (session : Session σ) (name : String) (given : Members Value)
    (ids : Option IdSource) : Except Fault (Session σ) := do
  let settings ← Settings.ofMembers given
  let keeps ← levelAfter session.keepsLines settings.logLevel
  let connection :=
    ⟨settings.layout?, settings.useIndexes, ids.getD settings.idStrategy.source⟩
  .ok { session with
    connections := Members.set session.connections name connection, keepsLines := keeps }

/-- Runs a dialogue on a backend for a database. -/
def converse {σ α : Type} (session : Session σ) (name : String) (connection : Connection)
    (backend : Backend σ) (dialogue : Access α) : Except Fault α × Session σ :=
  let (outcome, after) := dialogue.run backend ⟨session.store, connection.ids, []⟩
  let lines := if session.keepsLines then after.notes.reverse else []
  (outcome, { session with
    store := after.store,
    connections := Members.set session.connections name { connection with ids := after.ids },
    log := session.log ++ lines })

/-- Runs a dialogue in a database. -/
def perform {σ α : Type} (session : Session σ) (name : String) (dialogue : Engine → Access α) :
    Except Fault α × Session σ :=
  match Members.get? session.connections name with
  | none => (.error (.missingMember name), session)
  | some connection =>
    let backend :=
      if connection.layout.isSome then session.backend else session.backend.keyless
    session.converse name connection backend (dialogue connection.engine)

/-- Runs a dialogue with the store of a database, whose keys are given and not
    built. -/
def request {σ α : Type} (session : Session σ) (name : String) (dialogue : Access α) :
    Except Fault α × Session σ :=
  match Members.get? session.connections name with
  | none => (.error (.missingMember name), session)
  | some connection => session.converse name connection session.backend dialogue

/-- What is found under a root that is not usable: nothing in a store without
    keys, and else the root shows. -/
def scanWithoutRoot : Access (List String) := do
  let found ← Access.entries []
  if found.isEmpty then pure [] else Access.fail .settingNotUsable

/-- The names of all tables of a database. -/
def tables {σ : Type} (session : Session σ) (name : String) :
    Except Fault (List String) × Session σ :=
  match Members.get? session.connections name with
  | none => (.error (.missingMember name), session)
  | some connection =>
    match connection.layout with
    | some layout => session.converse name connection session.backend (Catalog.tables layout)
    | none => session.converse name connection session.backend scanWithoutRoot

/-- Executes a statement in a database and remembers its result. -/
def execute {σ : Type} (session : Session σ) (name : String) (sql : Option String) :
    Except Fault QueryResult × Session σ :=
  match session.perform name fun engine => engine.execute sql with
  | (.ok result, session) => (.ok result, { session with last := result })
  | (.error fault, session) => (.error fault, { session with last := {} })

/-- The number of keys in the store. -/
def keyCount {σ : Type} (session : Session σ) : Nat :=
  session.backend.size session.store

end Session

end TableStore
