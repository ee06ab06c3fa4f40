import ActorAudit.Symbol.Basic

/-!
# Remembered answers

Questions about a graph are answered once and remembered. A `Query` is a question that may use
answers found earlier and leaves its own behind.
-/

namespace ActorAudit

/-- What a type is, as far as serialization is concerned. -/
inductive Classification where
  | primitive
  | enumeration
  | collection (element : TypeId)
  | asyncWrapper (inner : TypeId)
  | record
  | complexObject
  | interface
  | unknown
deriving DecidableEq, Repr

/-- Answers so far: the flattened interfaces and the classification of types. The latest answer for a
type is the one that counts. -/
structure Memo where
  interfaces : List (TypeId × List TypeId) := []
  classes : List (TypeId × Classification) := []
deriving DecidableEq, Repr

namespace Memo

def empty : Memo := {}

def interfaces? (memo : Memo) (id : TypeId) : Option (List TypeId) := memo.interfaces.lookup id

def class? (memo : Memo) (id : TypeId) : Option Classification := memo.classes.lookup id

def recordInterfaces (memo : Memo) (id : TypeId) (all : List TypeId) : Memo :=
  { memo with interfaces := (id, all) :: memo.interfaces }

def recordClass (memo : Memo) (id : TypeId) (c : Classification) : Memo :=
  { memo with classes := (id, c) :: memo.classes }

end Memo

abbrev Query (α : Type) := StateM Memo α

namespace Query

variable {α β : Type}

/-- Whether one of the items passes; later items are not asked about. -/
def any (p : α → Query Bool) : List α → Query Bool
  | [] => pure false
  | a :: as => do
    if ← p a then return true
    any p as

/-- The items that pass; every item is asked about. -/
def filter (p : α → Query Bool) : List α → Query (List α)
  | [] => pure []
  | a :: as => do
    let keep ← p a
    let rest ← filter p as
    return if keep then a :: rest else rest

/-- The answers for a list of questions, asked in order. -/
def each (f : α → Query β) : List α → Query (List β)
  | [] => pure []
  | a :: as => do
    let b ← f a
    let bs ← each f as
    return b :: bs

end Query

end ActorAudit
