/-!
# Command line arguments

The commands and their options, and reading them from a list of arguments. Options may stand before
and after the other arguments; `--` ends them. A short option may have its value attached, a long one
after an equals sign. An option is given at most once unless it is a list.
-/

namespace ActorAudit.CommandLine

inductive Format where
  | text
  | json
  | compact
  | pretty
deriving DecidableEq, Repr

def Format.ofName? : String → Option Format
  | "text" => some .text
  | "json" => some .json
  | "compact" => some .compact
  | "pretty" => some .pretty
  | _ => none

structure CheckFlags where
  format : Format := .text
  /-- Names or codes of rules, between commas. -/
  rules : Option String := none
  exclude : List String := []
  includeGenerated : Bool := false
  sequential : Bool := false
deriving DecidableEq, Repr

inductive Command where
  | check (graphs : List String) (options : CheckFlags)
  | listRules (json : Bool)
  | init (force : Bool)
deriving DecidableEq, Repr

structure Invocation where
  verbose : Bool
  config : Option String
  command : Command
deriving DecidableEq, Repr

inductive Refusal where
  | usage
  | version
  | help
deriving DecidableEq, Repr

/-! ## Options -/

inductive Key where
  | verbose
  | config
  | format
  | rules
  | exclude
  | includeGenerated
  | sequential
  | json
  | force
  | version
  | help
deriving DecidableEq, Repr

namespace Key

def long : Key → String
  | verbose => "verbose"
  | config => "config"
  | format => "format"
  | rules => "rules"
  | exclude => "exclude"
  | includeGenerated => "include-generated"
  | sequential => "sequential"
  | json => "json"
  | force => "force"
  | version => "version"
  | help => "help"

def short? : Key → Option Char
  | verbose => some 'v'
  | config => some 'c'
  | format => some 'f'
  | exclude => some 'e'
  | version => some 'V'
  | help => some 'h'
  | _ => none

def takesValue : Key → Bool
  | config | format | rules | exclude => true
  | _ => false

def accepts (k : Key) (value : String) : Bool :=
  match k with
  | config => !value.isEmpty
  | format => (Format.ofName? value).isSome
  | _ => true

def leading : List Key := [verbose, config, version, help]

def ofCheck : List Key :=
  [verbose, config, format, rules, exclude, includeGenerated, sequential, help]

def ofListRules : List Key := [verbose, config, json, help]

def ofInit : List Key := [verbose, config, force, help]

end Key

/-- Options with their values and other arguments, as far as they are read. -/
structure Bag where
  options : List (Key × String) := []
  operands : List String := []

namespace Bag

def value? (b : Bag) (k : Key) : Option String := b.options.lookup k

def has (b : Bag) (k : Key) : Bool := (b.value? k).isSome

def values (b : Bag) (k : Key) : List String :=
  b.options.filterMap fun (key, value) => if key = k then some value else none

/-- Adds an option; asking for help or the version ends the reading. -/
def addOption (b : Bag) (k : Key) (value : String) : Except Refusal Bag :=
  match k with
  | .version => .error .version
  | .help => .error .help
  | _ =>
    if (b.has k && k ≠ .exclude) || !k.accepts value then .error .usage
    else .ok { b with options := b.options ++ [(k, value)] }

/-- Adds an argument that is no option; none is empty. -/
def addOperand (b : Bag) (s : String) : Except Refusal Bag :=
  if s.isEmpty then .error .usage else .ok { b with operands := b.operands ++ [s] }

end Bag

/-! ## Reading -/

def looksLikeOption (s : String) : Bool :=
  match s.toList with
  | '-' :: _ :: _ => true
  | _ => false

/-- A long option after its dashes: its name and the value after an equals sign. -/
def splitLong (cs : List Char) : String × Option String :=
  let name := cs.takeWhile (· != '=')
  (String.ofList name, ((cs.drop name.length).tail?).map String.ofList)

/-- Reads a cluster of short options. Gives the option that still needs a value. -/
def readCluster (keys : List Key) : List Char → Bag → Except Refusal (Bag × Option Key)
  | [], b => .ok (b, none)
  | c :: cs, b =>
    match keys.find? fun k => k.short? = some c with
    | none => .error .usage
    | some k =>
      if k.takesValue then
        match cs with
        | [] => .ok (b, some k)
        | '=' :: cs => (b.addOption k (String.ofList cs)).map (·, none)
        | cs => (b.addOption k (String.ofList cs)).map (·, none)
      else
        match b.addOption k "" with
        | .ok b => readCluster keys cs b
        | .error r => .error r

/-- Reads one argument that looks like an option. Gives the option that still needs a value. -/
def readOption (keys : List Key) (arg : String) (b : Bag) : Except Refusal (Bag × Option Key) :=
  match arg.toList with
  | '-' :: '-' :: cs =>
    let (name, value?) := splitLong cs
    match keys.find? fun k => k.long = name with
    | none => .error .usage
    | some k =>
      match k.takesValue, value? with
      | true, some v => (b.addOption k v).map (·, none)
      | true, none => .ok (b, some k)
      | false, none => (b.addOption k "").map (·, none)
      | false, some _ => .error .usage
  | '-' :: cs => readCluster keys cs b
  | _ => .error .usage

def addOperands : List String → Bag → Except Refusal Bag
  | [], b => .ok b
  | arg :: args, b =>
    match b.addOperand arg with
    | .ok b => addOperands args b
    | .error r => .error r

/-- Reads the arguments of a command. `pending` is an option that waits for its value. -/
def readArguments (keys : List Key) : Option Key → List String → Bag → Except Refusal Bag
  | some _, [], _ => .error .usage
  | none, [], b => .ok b
  | pending, arg :: args, b =>
    if looksLikeOption arg then
      match pending with
      | some _ => .error .usage
      | none =>
        if arg = "--" then addOperands args b
        else
          match readOption keys arg b with
          | .ok (b, pending) => readArguments keys pending args b
          | .error r => .error r
    else
      match pending with
      | some k =>
        match b.addOption k arg with
        | .ok b => readArguments keys none args b
        | .error r => .error r
      | none =>
        match b.addOperand arg with
        | .ok b => readArguments keys none args b
        | .error r => .error r

/-- Reads the options before a command. Gives the command and its arguments. -/
def readLeading : Option Key → List String → Bag → Except Refusal (Bag × String × List String)
  | _, [], _ => .error .usage
  | pending, arg :: args, b =>
    if looksLikeOption arg then
      match pending with
      | some _ => .error .usage
      | none =>
        if arg = "--" then .error .usage
        else
          match readOption Key.leading arg b with
          | .ok (b, pending) => readLeading pending args b
          | .error r => .error r
    else
      match pending with
      | some k =>
        match b.addOption k arg with
        | .ok b => readLeading none args b
        | .error r => .error r
      | none => .ok (b, arg, args)

def checkFlags (b : Bag) : CheckFlags where
  format := ((b.value? .format).bind Format.ofName?).getD .text
  rules := b.value? .rules
  exclude := b.values .exclude
  includeGenerated := b.has .includeGenerated
  sequential := b.has .sequential

def commandNames : List String := ["check", "list-rules", "init", "help"]

def readHelp : List String → Refusal
  | [] => .help
  | [name] => if name ∈ commandNames then .help else .usage
  | _ => .usage

def readCommand (name : String) (args : List String) : Except Refusal (Bag × Command) :=
  match name with
  | "check" => do
    let b ← readArguments Key.ofCheck none args {}
    if b.operands.isEmpty then .error .usage else return (b, .check b.operands (checkFlags b))
  | "list-rules" => do
    let b ← readArguments Key.ofListRules none args {}
    if b.operands.isEmpty then return (b, .listRules (b.has .json)) else .error .usage
  | "init" => do
    let b ← readArguments Key.ofInit none args {}
    if b.operands.isEmpty then return (b, .init (b.has .force)) else .error .usage
  | "help" => .error (readHelp args)
  | _ => .error .usage

/-- Reads the arguments of a run. An option after the command counts before one in front of it, and
both before the environment; an empty value of the environment is refused wherever it would count. -/
def parse (args : List String) (configVariable : Option String) : Except Refusal Invocation := do
  let (leading, name, args) ← readLeading none args {}
  let (trailing, command) ← readCommand name args
  if configVariable = some "" && !(leading.has .config && trailing.has .config) then .error .usage
  else
    return {
      verbose := leading.has .verbose || trailing.has .verbose
      config := ((trailing.value? .config).or (leading.value? .config)).or configVariable
      command := command }

end ActorAudit.CommandLine
