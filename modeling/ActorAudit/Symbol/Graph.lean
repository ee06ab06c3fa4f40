import ActorAudit.Symbol.Basic

/-!
# Symbol graphs

All types a front end reports for one compilation, and which of them are declared in it.

`ancestors` climbs from a type to its ancestors, nearest first, until the chain ends, points nowhere
or comes back to a type it has been to. `implementationOf` looks for the method of a class that
implements a method of an interface: a method tied to the interface comes before one that is tied to
none, then the nearer owner, then the earlier position.
-/

namespace ActorAudit

structure Graph where
  types : Array TypeSymbol := #[]
  declarations : List TypeId := []
deriving DecidableEq, Repr

namespace Graph

def size (g : Graph) : Nat := g.types.size

def get? (g : Graph) (id : TypeId) : Option TypeSymbol := g.types[id.toNat]?

def resolves (g : Graph) (id : TypeId) : Bool := (g.get? id).isSome

def nameAt (g : Graph) (id : TypeId) : String :=
  match g.get? id with
  | some d => d.name
  | none => "?"

/-! ## Building -/

def add (g : Graph) (d : TypeSymbol) : TypeId × Graph :=
  (.ofNat g.size, { g with types := g.types.push d })

def pushDeclaration (g : Graph) (id : TypeId) : Graph :=
  { g with declarations := g.declarations ++ [id] }

def declare (g : Graph) (d : TypeSymbol) : TypeId × Graph :=
  let (id, g) := g.add d
  (id, g.pushDeclaration id)

def modify (g : Graph) (id : TypeId) (f : TypeSymbol → TypeSymbol) : Graph :=
  { g with types := g.types.modify id.toNat f }

/-! ## Dangling ids -/

/-- Every pair of a type and an id it mentions that points nowhere, then the declarations that point
nowhere, paired with themselves. -/
def danglingMentions (g : Graph) : List (TypeId × TypeId) :=
  (g.types.toList.zipIdx.flatMap fun (d, i) =>
    (d.mentions.filter fun t => !g.resolves t).map fun t => (TypeId.ofNat i, t)) ++
  (g.declarations.filter fun t => !g.resolves t).map fun t => (t, t)

/-!
## Ids not yet seen

The measure by which climbs and walks over a graph end, cycles or not.
-/

/-- How many positions of the graph have an id that is not in a list. -/
def unseen (g : Graph) (seen : List TypeId) : Nat :=
  (List.range g.size).countP fun i => TypeId.ofNat i ∉ seen

theorem lt_size_of_get? {g : Graph} {id : TypeId} {d : TypeSymbol} (h : g.get? id = some d) :
    id.toNat < g.size := by
  unfold get? at h
  exact (Array.getElem?_eq_some_iff.1 h).1

theorem unseen_mono {g : Graph} {seen seen' : List TypeId} (h : ∀ x ∈ seen, x ∈ seen') :
    g.unseen seen' ≤ g.unseen seen := by
  unfold unseen
  apply List.countP_mono_left
  intro i _ hi
  simp only [decide_eq_true_eq] at *
  exact fun hs => hi (h _ hs)

theorem countP_lt_countP {α : Type} {p q : α → Bool} {l : List α} (h : ∀ x ∈ l, p x → q x) {a : α}
    (ha : a ∈ l) (hp : p a = false) (hq : q a = true) : l.countP p < l.countP q := by
  induction l with
  | nil => simp at ha
  | cons b l ih =>
    have hle : l.countP p ≤ l.countP q :=
      List.countP_mono_left fun x hx => h x (List.mem_cons_of_mem _ hx)
    rcases List.mem_cons.1 ha with rfl | hmem
    · simp only [List.countP_cons, hp, hq]
      simp
      omega
    · have := ih (fun x hx => h x (List.mem_cons_of_mem _ hx)) hmem
      have hb := h b List.mem_cons_self
      simp only [List.countP_cons]
      by_cases hpb : p b
      · simp [hpb, hb hpb, this]
      · simp only [hpb, Bool.false_eq_true, if_false]
        split <;> omega

theorem unseen_lt {g : Graph} {seen seen' : List TypeId} {id : TypeId} {d : TypeSymbol}
    (h : ∀ x ∈ seen, x ∈ seen') (hd : g.get? id = some d) (hn : id ∉ seen) (hm : id ∈ seen') :
    g.unseen seen' < g.unseen seen := by
  unfold unseen
  refine countP_lt_countP (a := id.toNat) ?_ (List.mem_range.2 (lt_size_of_get? hd)) ?_ ?_
  · intro i _ hi
    simp only [decide_eq_true_eq] at *
    exact fun hs => hi (h _ hs)
  · simp [TypeId.ofNat_toNat, hm]
  · simp [TypeId.ofNat_toNat, hn]

/-! ## Ancestors -/

/-- Climbs from an id, stopping at ids already seen and at ids that point nowhere. -/
def climb (g : Graph) (seen : List TypeId) : Option TypeId → List (TypeId × TypeSymbol)
  | none => []
  | some id =>
    if _hs : id ∈ seen then []
    else
      match _hd : g.get? id with
      | none => []
      | some d => (id, d) :: climb g (id :: seen) d.baseType
termination_by g.unseen seen
decreasing_by exact unseen_lt (fun _ h => List.mem_cons_of_mem _ h) _hd _hs List.mem_cons_self

/-- The strict ancestors of a type, nearest first. -/
def ancestors (g : Graph) (id : TypeId) : List (TypeId × TypeSymbol) :=
  match g.get? id with
  | some d => g.climb [id] d.baseType
  | none => []

def lineage (g : Graph) (id : TypeId) : List (TypeId × TypeSymbol) :=
  match g.get? id with
  | some d => (id, d) :: g.climb [id] d.baseType
  | none => []

/-! ## Implementations -/

/-- A method of a type, known by its owner and its position among the owner's methods. -/
structure Implementation where
  owner : TypeId
  position : Nat
  method : Method
deriving DecidableEq, Repr

def Implementation.sameSlot (a b : Implementation) : Bool :=
  a.owner = b.owner && a.position = b.position

/-- The methods of a class and its ancestors, nearest owner first. -/
def inheritedMethods (g : Graph) (id : TypeId) : List Implementation :=
  (g.lineage id).flatMap fun (owner, d) =>
    d.methods.zipIdx.map fun (m, i) => ⟨owner, i, m⟩

def implementationOf (g : Graph) (cls interface : TypeId) (m : Method) : Option Implementation :=
  let candidates := (g.inheritedMethods cls).filter fun c => c.method.hasSignatureOf m
  (candidates.find? fun c => c.method.definingInterface = some interface).or
    (candidates.find? fun c => c.method.definingInterface = none)

end Graph

end ActorAudit
