import Showcase.Deployment
/-!
The arguments of the command line: options, a command, and the operands of the command. An option is given as
`--name value` or `--name=value`; behind `--` everything is an operand.
-/
namespace Showcase.Command

inductive Verb where
  | list
  | view
  | resolve
  | publish
deriving DecidableEq

def Verb.name : Verb → String
  | .list => "list"
  | .view => "show"
  | .resolve => "resolve"
  | .publish => "export"

def Verb.all : List Verb := [.list, .view, .resolve, .publish]

def Verb.ofName? (name : String) : Option Verb := all.find? fun verb => verb.name == name

def helpName : String := "help"

inductive Setting where
  | catalog
  | mode
  | basePath
  | outputDirectory
  | publicDirectory
deriving DecidableEq

def Setting.name : Setting → String
  | .catalog => "catalog"
  | .mode => "mode"
  | .basePath => "base-path"
  | .outputDirectory => "out-dir"
  | .publicDirectory => "public-dir"

def Setting.global : List Setting := [.catalog, .mode, .basePath]

structure Choices where
  catalog : Option String := none
  mode : Option DeployMode := none
  basePath : Option String := none
  outputDirectory : Option String := none
  publicDirectory : Option String := none
deriving DecidableEq

inductive Refusal where
  | usage
  | help
deriving DecidableEq

def once {α : Type} (old : Option α) (value : Option α) : Except Refusal (Option α) :=
  match old, value with
  | none, some value => .ok (some value)
  | _, _ => .error .usage

def pathValue? (raw : String) : Option String := if raw.isEmpty then none else some raw

def Choices.set (choices : Choices) (setting : Setting) (raw : String) : Except Refusal Choices :=
  match setting with
  | .catalog => (once choices.catalog (pathValue? raw)).map fun catalog => { choices with catalog }
  | .mode => (once choices.mode (DeployMode.ofText? raw)).map fun mode => { choices with mode }
  | .basePath => (once choices.basePath (some raw)).map fun basePath => { choices with basePath }
  | .outputDirectory =>
    (once choices.outputDirectory (pathValue? raw)).map fun outputDirectory => { choices with outputDirectory }
  | .publicDirectory =>
    (once choices.publicDirectory (pathValue? raw)).map fun publicDirectory => { choices with publicDirectory }

def Choices.over (inner outer : Choices) : Choices where
  catalog := inner.catalog.or outer.catalog
  mode := inner.mode.or outer.mode
  basePath := inner.basePath.or outer.basePath
  outputDirectory := inner.outputDirectory.or outer.outputDirectory
  publicDirectory := inner.publicDirectory.or outer.publicDirectory

inductive Token where
  | escape
  | long (name : String) (value : Option String)
  | short (letters : List Char)
  | plain (text : String)
deriving DecidableEq

def splitValue (text : List Char) : String × Option String :=
  let name := String.ofList (text.takeWhile (· != '='))
  match text.dropWhile (· != '=') with
  | [] => (name, none)
  | _ :: value => (name, some (String.ofList value))

def Token.ofText (text : String) : Token :=
  match text.toList with
  | ['-', '-'] => .escape
  | '-' :: '-' :: rest => let (name, value) := splitValue rest; .long name value
  | '-' :: c :: rest => .short (c :: rest)
  | _ => .plain text

structure Level where
  settings : List Setting
  operands : Nat

def Level.top : Level := ⟨Setting.global, 0⟩

def Verb.level : Verb → Level
  | .list => ⟨Setting.global, 0⟩
  | .view => ⟨Setting.global, 1⟩
  | .resolve => ⟨Setting.global, 2⟩
  | .publish => ⟨Setting.global ++ [.outputDirectory, .publicDirectory], 0⟩

/-- The arguments read so far. The last option is checked when the next argument that is not its value is read. -/
structure Progress where
  choices : Choices := {}
  pending : Option (Setting × Option String) := none
  operands : List String := []
  literal : Bool := false

namespace Progress

def awaitsValue (progress : Progress) : Bool :=
  match progress.pending with
  | some (_, none) => true
  | _ => false

def settle (progress : Progress) : Except Refusal Progress :=
  match progress.pending with
  | none => .ok progress
  | some (_, none) => .error .usage
  | some (setting, some raw) =>
    (progress.choices.set setting raw).map fun choices => { progress with choices, pending := none }

def addOperand (level : Level) (progress : Progress) (text : String) : Except Refusal Progress := do
  let progress ← progress.settle
  if progress.operands.length < level.operands then
    return { progress with operands := progress.operands ++ [text] }
  else throw .usage

def addOption (level : Level) (progress : Progress) (name : String) (value : Option String) :
    Except Refusal Progress :=
  match level.settings.find? fun setting => setting.name == name with
  | none => .error .usage
  | some setting => do
    let progress ← progress.settle
    match value with
    | none => return { progress with pending := some (setting, none) }
    | some raw => settle { progress with pending := some (setting, some raw) }

def askHelp (progress : Progress) : Except Refusal Progress := do
  let _ ← progress.settle
  throw .help

def step (level : Level) (progress : Progress) (argument : String) : Except Refusal Progress :=
  if progress.literal then progress.addOperand level argument
  else match Token.ofText argument with
    | .escape => .ok { progress with literal := true }
    | .long name value =>
      if name = helpName then if value.isNone then progress.askHelp else .error .usage
      else progress.addOption level name value
    | .short letters => if letters.head? = some 'h' then progress.askHelp else .error .usage
    | .plain text =>
      match progress.pending with
      | some (setting, none) => .ok { progress with pending := some (setting, some text) }
      | _ => progress.addOperand level text

end Progress

def helpRefusal : List String → Refusal
  | [] => .help
  | [name] => if name = helpName ∨ (Verb.ofName? name).isSome then .help else .usage
  | _ => .usage

/-- Reads up to the command. An option that waits for its value takes the name of a command too. -/
def readVerb (progress : Progress) : List String → Except Refusal (Progress × Verb × List String)
  | [] => .error .usage
  | argument :: rest =>
    let further := (progress.step .top argument).bind fun progress => readVerb progress rest
    if progress.literal || progress.awaitsValue then further
    else if argument = helpName then .error (helpRefusal rest)
    else match Verb.ofName? argument with
      | some verb => .ok (progress, verb, rest)
      | none => further

inductive Request where
  | list
  | view (id : String)
  | resolve (base relative : String)
  | publish
deriving DecidableEq

def request? : Verb → List String → Option Request
  | .list, [] => some .list
  | .view, [id] => some (.view id)
  | .resolve, [base, relative] => some (.resolve base relative)
  | .publish, [] => some .publish
  | _, _ => none

def parse (arguments : List String) : Except Refusal (Choices × Request) := do
  let (outer, verb, rest) ← readVerb {} arguments
  let inner ← (← rest.foldlM (Progress.step verb.level) {}).settle
  let outer ← outer.settle
  match request? verb inner.operands with
  | some request => return (inner.choices.over outer.choices, request)
  | none => throw .usage

end Showcase.Command
