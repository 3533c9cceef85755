import TableStore.Engine.Plan
import TableStore.Text.Blank

/-!
# Settings

The settings of a database: the root of its keys, whether it uses indexes, the
strategy of its id source, and the level of its log. Settings are given by
name as values, or as variables of an environment with a common stem, which may
be preceded by the lines of a file. Of two settings at fault the flag is
reported first, and then the others in the order of their fields.

Not everything that is accepted can be used. A root may be a number or a truth
value that is not zero, and a level may be bytes; that they are of no use shows
when a key is to be built and when the log is to be set up.

## Main definitions

* `Settings`: The settings of a database.
* `Settings.layout?`: The layout of the keys under the root.
* `Settings.ofMembers`: Settings given by name.
* `Settings.ofVariables`: Settings given by variables.
* `keepsLines?`: Whether a log of a level keeps the lines of statements.
-/

namespace TableStore

/-- Where ids of rows without a primary key come from. -/
inductive IdStrategy where
  | uuid
  | counter
  deriving DecidableEq

/-- The name of an id strategy. -/
def IdStrategy.name : IdStrategy → String
  | uuid => "uuid"
  | counter => "counter"

/-- The id source of a strategy. -/
def IdStrategy.source : IdStrategy → IdSource
  | uuid => .drawing
  | counter => .counting 1 0

/-- The settings of a database. The level of the log is null if it is not
    set. -/
structure Settings where
  root : Value := .bytes KeyLayout.defaultRoot
  useIndexes : Bool := true
  idStrategy : IdStrategy := .uuid
  logLevel : Value := .null
  deriving DecidableEq

/-- The names of the settings. -/
def settingNames : List String := ["root_prefix", "use_indexes", "id_strategy", "log_level"]

namespace Settings

/-- The truth value of a flag, which may be given as a word. -/
def readFlag (name : String) (v : Value) : Except Fault Bool :=
  match v with
  | .bool b => .ok b
  | v =>
    let word := String.ofList (Text.toLower (Text.trimBlanks v.toText.toList))
    if !v.hasText then .error .digitLimit
    else if ["1", "true", "yes", "on"].contains word then .ok true
    else if ["0", "false", "no", "off"].contains word then .ok false
    else .error (.invalidFlag name v)

/-- Whether a value counts as empty: null, what has no items, and zero. -/
def isEmptyValue : Value → Bool
  | .null => true
  | .bool b => !b
  | .int n => n == 0
  | .float d => d.toInt? == some 0
  | .text s => s.isEmpty
  | .bytes b => b.isEmpty
  | .array items => items.isEmpty
  | .object members => members.isEmpty

/-- The root that a value gives. Text stands for its bytes. -/
def readRoot (v : Value) : Except Fault Value :=
  if isEmptyValue v then .error .emptyRootSetting
  else
    match v with
    | .text s => .ok (.bytes (Text.encode s))
    | v => .ok v

/-- The strategy of a name in small letters. -/
def strategyOf (name : String) : Except Fault IdStrategy :=
  if name = "uuid" then .ok .uuid
  else if name = "counter" then .ok .counter
  else .error (.unknownIdStrategy name)

/-- The id strategy that a value gives. -/
def readStrategy : Value → Except Fault IdStrategy
  | .text s => strategyOf (String.ofList (Text.toLower s.toList))
  | .bytes b =>
    .error (.unknownIdStrategy (Text.quoteBytes (b.map fun c =>
      if 65 ≤ c && c ≤ 90 then c + 32 else c)))
  | _ => .error .settingWithoutText

/-- The log level that a value gives, in capitals. -/
def readLevel : Value → Except Fault Value
  | .null => .ok .null
  | .text s => .ok (.text (String.ofList (Text.toUpper s.toList)))
  | .bytes b => .ok (.bytes (b.map fun c => if 97 ≤ c && c ≤ 122 then c - 32 else c))
  | _ => .error .settingWithoutText

/-- What a setting gives, or what it is if it is not given. -/
def readOr {α : Type} (given : Members Value) (name : String) (read : Value → Except Fault α)
    (missing : α) : Except Fault α :=
  match Members.get? given name with
  | some v => read v
  | none => .ok missing

/-- Settings given by name. -/
def ofMembers (given : Members Value) : Except Fault Settings := do
  let unknown := (Members.names given).filter fun name => !settingNames.contains name
  if !unknown.isEmpty then
    .error (.unknownSettings (unknown.mergeSort fun a b => decide (a ≤ b)))
  else
    let useIndexes ← readOr given "use_indexes" (readFlag "use_indexes") true
    let root ← readOr given "root_prefix" readRoot (.bytes KeyLayout.defaultRoot)
    let idStrategy ← readOr given "id_strategy" readStrategy .uuid
    let logLevel ← readOr given "log_level" readLevel .null
    .ok ⟨root, useIndexes, idStrategy, logLevel⟩

/-- The layout of the keys under the root, which only bytes can be. -/
def layout? (settings : Settings) : Option KeyLayout :=
  match settings.root with
  | .bytes root => some ⟨root⟩
  | _ => none

/-- The lines of a text, which end at line feeds and carriage returns. -/
def splitLines : List Char → List (List Char)
  | [] => [[]]
  | c :: s =>
    if c == '\n' || c == '\r' then [] :: splitLines s else Text.consWord c (splitLines s)

/-- The variable that a line gives. A name alone takes the variable's value
    away, and blank lines and comments give nothing. -/
def variableOf? (line : List Char) : Option (String × Option String) :=
  let line := Text.trimBlanks line
  match line with
  | [] => none
  | '#' :: _ => none
  | line =>
    let name := String.ofList (Text.trimBlanks (line.takeWhile (· != '=')))
    match line.dropWhile (· != '=') with
    | [] => some (name, none)
    | _ :: value => some (name, some (String.ofList (Text.trimBlanks value)))

/-- The variables that the lines of a file give; a later line wins. -/
def variablesOf (file : String) : Members (Option String) :=
  Members.ofList ((splitLines file.toList).filterMap variableOf?)

/-- The variable that holds a setting: its name in capitals after a stem. -/
def variableName (stem setting : String) : String :=
  stem ++ String.ofList (Text.toUpper setting.toList)

/-- Settings given by variables with a common stem, where those of the
    environment replace those of a file. A variable that is empty gives
    nothing. -/
def ofVariables (stem : String) (file : Option String) (environment : Members String) :
    Except Fault Settings :=
  let lines := (file.map variablesOf).getD []
  let given := environment.map fun pair => (pair.1, some pair.2)
  let merged := Members.ofList (lines ++ given)
  ofMembers (settingNames.filterMap fun name =>
    match Members.get? merged (variableName stem name) with
    | some (some value) => if value.isEmpty then none else some (name, .text value)
    | _ => none)

end Settings

/-- Whether a log of a level keeps the lines of statements, if the level has
    that name. -/
def keepsLines? (level : String) : Option Bool :=
  if level = "DEBUG" || level = "INFO" then some true
  else if ["NOTSET", "WARN", "WARNING", "ERROR", "FATAL", "CRITICAL"].contains level then some false
  else none

end TableStore
