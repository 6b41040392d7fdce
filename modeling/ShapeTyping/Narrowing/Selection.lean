import ShapeTyping.Narrowing.Registry
/-! Selecting the values of one variant, one at a time. -/
namespace ShapeTyping

/-- The values still to be looked at for one tag. -/
structure Selection (σ : Type) where
  registry : Registry σ
  tag : String
  pending : List Value

namespace Selection

variable {σ : Type}

/-- What a value of a narrowing result contributes: itself if it has the tag, the
error if narrowing failed, and nothing if it is of another variant or of none. -/
def contribution (tag : String) (v : Value) :
    Except NarrowingError (Variant σ) → Option (Except NarrowingError Value)
  | .ok variant => if variant.tag == tag then some (.ok v) else none
  | .error .noMatch => none
  | .error e => some (.error e)

/-- Looks for the next contribution, and leaves the values after it. -/
def nextFrom (r : Registry σ) (tag : String) :
    List Value → StateM σ (Option (Except NarrowingError Value) × List Value)
  | [] => pure (none, [])
  | v :: vs => do
    let result ← r.narrow v
    match contribution tag v result with
    | some item => pure (some item, vs)
    | none => nextFrom r tag vs

def next (s : Selection σ) : StateM σ (Option (Except NarrowingError Value) × Selection σ) := do
  let (item?, pending) ← nextFrom s.registry s.tag s.pending
  pure (item?, { s with pending })

/-- The contributions of all values, in order. -/
def drainFrom (r : Registry σ) (tag : String) :
    List Value → StateM σ (List (Except NarrowingError Value))
  | [] => pure []
  | v :: vs => do
    let result ← r.narrow v
    let items ← drainFrom r tag vs
    pure ((contribution tag v result).toList ++ items)

def drain (s : Selection σ) : StateM σ (List (Except NarrowingError Value) × Selection σ) := do
  let items ← drainFrom s.registry s.tag s.pending
  pure (items, { s with pending := [] })

/-- At least and at most how many items are still to come. -/
def sizeBounds (s : Selection σ) : Nat × Nat := (0, s.pending.length)

end Selection

def Registry.select {σ : Type} (r : Registry σ) (tag : String) (values : List Value) :
    Selection σ :=
  ⟨r, tag, values⟩

end ShapeTyping
