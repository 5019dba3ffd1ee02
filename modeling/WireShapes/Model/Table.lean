/-!
# Tables in order

A `Table` keeps its entries in the order in which their keys first came.  `insert` replaces the
value of a key where it stands and appends a new key at the end.
-/

namespace WireShapes

/-- Keys with their values, in order. -/
structure Table (κ α : Type) where
  entries : List (κ × α)
deriving DecidableEq

namespace Table

variable {κ α : Type} [DecidableEq κ]

def empty : Table κ α := ⟨[]⟩

def keys (t : Table κ α) : List κ := t.entries.map Prod.fst

def values (t : Table κ α) : List α := t.entries.map Prod.snd

def size (t : Table κ α) : Nat := t.entries.length

/-- The value of a key. -/
def get? (t : Table κ α) (key : κ) : Option α :=
  t.entries.lookup key

/-- Replaces the value of the first entry with the key, or appends an entry. -/
def put (key : κ) (value : α) : List (κ × α) → List (κ × α)
  | [] => [(key, value)]
  | (k, v) :: rest => if k = key then (key, value) :: rest else (k, v) :: put key value rest

def insert (t : Table κ α) (key : κ) (value : α) : Table κ α :=
  ⟨put key value t.entries⟩

/-- Changes every value in its place. -/
def mapValues (f : α → α) (t : Table κ α) : Table κ α :=
  ⟨t.entries.map fun (k, v) => (k, f v)⟩

/-- Changes the value of a key in its place. -/
def update (t : Table κ α) (key : κ) (f : α → α) : Table κ α :=
  ⟨t.entries.map fun (k, v) => (k, if k = key then f v else v)⟩

end Table

end WireShapes
