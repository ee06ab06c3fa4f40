/-!
# The lines of a log

What a run tells besides its result, line by line, with the part of the program that tells it.
-/

namespace ActorAudit.Log

inductive Level where
  | trace
  | debug
  | info
  | warn
  | error
deriving DecidableEq, Repr

namespace Level

def all : List Level := [trace, debug, info, warn, error]

def rank : Level → Nat
  | trace => 0
  | debug => 1
  | info => 2
  | warn => 3
  | error => 4

def name : Level → String
  | trace => "TRACE"
  | debug => "DEBUG"
  | info => "INFO"
  | warn => "WARN"
  | error => "ERROR"

end Level

inductive Origin where
  | command
  | settings
  | audit
  | contracts
deriving DecidableEq, Repr

/-- The name under which filters know the lines of a part. -/
def Origin.name : Origin → String
  | command => "actor_lint::commands::check"
  | settings => "actor_lint::config_resolver"
  | audit => "actor_lint_core::analyzer"
  | contracts => "actor_lint_rules::complex_type_attributes"

structure Line where
  level : Level
  origin : Origin
  text : String
deriving DecidableEq, Repr

/-- A character as a log shows it: those that steer a terminal are shown by number. -/
def shown (c : Char) : List Char :=
  if c.toNat ∈ [0x07, 0x08, 0x0C, 0x1B, 0x7F] then
    ['\\', 'x', Nat.digitChar (c.toNat / 16), Nat.digitChar (c.toNat % 16)]
  else if 0x80 ≤ c.toNat && c.toNat ≤ 0x9F then
    "\\u\x7b".toList ++ Nat.toDigits 16 c.toNat ++ ['}']
  else [c]

def Line.render (l : Line) : String :=
  l.level.name ++ " " ++ String.ofList (l.text.toList.flatMap shown)

end ActorAudit.Log
