import NeuralSoc.Base.Value
import Mathlib.Data.Finset.Image
import Mathlib.Data.Fintype.Basic
import Mathlib.Logic.Function.Basic

/-!
# Relational databases

Tables with typed columns, keys and references to the `id` of another table. A statement changes the schema, apart
from the data, and the rows, and it fails when the new schema and rows break a constraint. A database holds only
rows that its schema allows. The names of the tables are a finite type.
-/

namespace NeuralSoc.Relational

/-! ## Schemas -/

inductive ColumnType where
  | integer
  | string
  | text
  | float
  | boolean
  | dateTime
  deriving DecidableEq

inductive Cell where
  | null
  | int (n : ℤ)
  | str (s : String)
  | float (x : PyFloat)
  | bool (b : Bool)
  | time (t : ℚ)
  deriving DecidableEq

def Cell.hasType : Cell → ColumnType → Bool
  | .int _, .integer | .str _, .string | .str _, .text | .float _, .float | .bool _, .boolean
  | .time _, .dateTime => true
  | _, _ => false

structure Column (τ : Type) where
  name : String
  type : ColumnType
  nullable : Bool
  references : Option τ
  deriving DecidableEq

/-- An index or a UNIQUE constraint. -/
structure Key where
  name : String
  columns : List String
  unique : Bool
  deriving DecidableEq

structure Shape (τ : Type) where
  columns : Finset (Column τ)
  keys : Finset Key

-- the derived instance does not reduce on equal sets in different orders
instance {τ : Type} [DecidableEq τ] : DecidableEq (Shape τ) := fun a b =>
  decidable_of_iff (a.columns = b.columns ∧ a.keys = b.keys) (by rw [Shape.mk.injEq])

variable {τ : Type}

def Shape.Has (shape : Shape τ) (name : String) : Prop := ∃ c ∈ shape.columns, c.name = name

/-- Every key is over columns of the table. -/
def Shape.Keyed (shape : Shape τ) : Prop := ∀ key ∈ shape.keys, ∀ name ∈ key.columns, shape.Has name

instance (shape : Shape τ) (name : String) : Decidable (shape.Has name) :=
  inferInstanceAs (Decidable (∃ c ∈ shape.columns, c.name = name))

instance (shape : Shape τ) : Decidable shape.Keyed :=
  inferInstanceAs (Decidable (∀ key ∈ shape.keys, ∀ name ∈ key.columns, shape.Has name))

abbrev Schema (τ : Type) := τ → Option (Shape τ)

/-! ## Rows -/

abbrev Row := String → Cell

abbrev Rows (τ : Type) := τ → List Row

/-- A null fits a column that allows it; another value has the type of the column, and a reference finds its row. -/
def Fits (rows : Rows τ) (c : Column τ) (v : Cell) : Prop :=
  if v = .null then c.nullable = true
  else v.hasType c.type = true ∧ ∀ t ∈ c.references, ∃ row ∈ rows t, row "id" = v

instance (rows : Rows τ) (c : Column τ) (v : Cell) : Decidable (Fits rows c v) :=
  inferInstanceAs (Decidable (if v = .null then c.nullable = true
    else v.hasType c.type = true ∧ ∀ t ∈ c.references, ∃ row ∈ rows t, row "id" = v))

/-- Nulls are never equal. -/
def Clash (columns : List String) (a b : Row) : Prop := ∀ name ∈ columns, a name = b name ∧ a name ≠ .null

instance (columns : List String) (a b : Row) : Decidable (Clash columns a b) :=
  inferInstanceAs (Decidable (∀ name ∈ columns, a name = b name ∧ a name ≠ .null))

structure TableOk (rows : Rows τ) (shape : Shape τ) (own : List Row) : Prop where
  keyed : shape.Keyed
  fits : ∀ row ∈ own, ∀ c ∈ shape.columns, Fits rows c (row c.name)
  unique : ∀ key ∈ shape.keys, key.unique = true → own.Pairwise fun a b => ¬ Clash key.columns a b

instance (rows : Rows τ) (shape : Shape τ) (own : List Row) : Decidable (TableOk rows shape own) :=
  decidable_of_iff (shape.Keyed ∧ (∀ row ∈ own, ∀ c ∈ shape.columns, Fits rows c (row c.name)) ∧
      ∀ key ∈ shape.keys, key.unique = true → own.Pairwise fun a b => ¬ Clash key.columns a b)
    ⟨fun h => ⟨h.1, h.2.1, h.2.2⟩, fun h => ⟨h.keyed, h.fits, h.unique⟩⟩

def ConsistentAt (schema : Schema τ) (rows : Rows τ) (t : τ) : Prop :=
  match schema t with
  | none => rows t = []
  | some shape => TableOk rows shape (rows t)

def Consistent (schema : Schema τ) (rows : Rows τ) : Prop := ∀ t, ConsistentAt schema rows t

instance (schema : Schema τ) (rows : Rows τ) (t : τ) : Decidable (ConsistentAt schema rows t) :=
  match h : schema t with
  | none => decidable_of_iff ((rows t).isEmpty = true) (by rw [ConsistentAt, h, List.isEmpty_iff])
  | some shape => decidable_of_iff (TableOk rows shape (rows t)) (by rw [ConsistentAt, h])

instance [Fintype τ] (schema : Schema τ) (rows : Rows τ) : Decidable (Consistent schema rows) :=
  inferInstanceAs (Decidable (∀ t, ConsistentAt schema rows t))

structure Database (τ : Type) where
  schema : Schema τ
  rows : Rows τ
  consistent : Consistent schema rows

def Database.empty : Database τ := ⟨fun _ => none, fun _ => [], fun _ => rfl⟩

/-! ## Statements -/

/-- `createTable` comes with the indexes that are created right after the table, and `dropTable` takes the indexes
of the table along. `rewrite` stands for INSERT, UPDATE and DELETE. -/
inductive Statement (τ : Type) where
  | createTable (t : τ) (shape : Shape τ)
  | dropTable (t : τ)
  | addColumn (t : τ) (column : Column τ) (value : Cell)
  | dropColumn (t : τ) (name : String)
  | setNullable (t : τ) (name : String) (nullable : Bool)
  | createKey (t : τ) (key : Key)
  | dropKey (t : τ) (name : String)
  | rewrite (t : τ) (f : List Row → List Row)

def Shape.References (shape : Shape τ) (t : τ) : Prop := ∃ c ∈ shape.columns, c.references = some t

instance [DecidableEq τ] (shape : Shape τ) (t : τ) : Decidable (shape.References t) :=
  inferInstanceAs (Decidable (∃ c ∈ shape.columns, c.references = some t))

variable [DecidableEq τ]

/-- A statement about a table that is there. -/
def onShape (schema : Schema τ) (t : τ) (f : Shape τ → Except String (Shape τ)) : Except String (Schema τ) := do
  match schema t with
  | none => .error "no such table"
  | some shape => return Function.update schema t (some (← f shape))

def Shape.addColumn (shape : Shape τ) (column : Column τ) : Except String (Shape τ) :=
  if shape.Has column.name then .error "column already exists"
  else .ok { shape with columns := insert column shape.columns }

/-- The keys of a dropped column go with it. -/
def Shape.dropColumn (shape : Shape τ) (name : String) : Except String (Shape τ) :=
  if shape.Has name then
    .ok ⟨shape.columns.filter fun c => c.name ≠ name, shape.keys.filter fun key => name ∉ key.columns⟩
  else .error "no such column"

def Shape.setNullable (shape : Shape τ) (name : String) (nullable : Bool) : Except String (Shape τ) :=
  if shape.Has name then
    .ok { shape with columns := shape.columns.image fun c => if c.name = name then { c with nullable } else c }
  else .error "no such column"

def Shape.createKey (shape : Shape τ) (key : Key) : Except String (Shape τ) :=
  if ∃ k ∈ shape.keys, k.name = key.name then .error "relation already exists"
  else if ∀ name ∈ key.columns, shape.Has name then .ok { shape with keys := insert key shape.keys }
  else .error "no such column"

def Shape.dropKey (shape : Shape τ) (name : String) : Except String (Shape τ) :=
  if ∃ k ∈ shape.keys, k.name = name then .ok { shape with keys := shape.keys.filter fun k => k.name ≠ name }
  else .error "no such index"

variable [Fintype τ]

def Statement.onSchema (schema : Schema τ) : Statement τ → Except String (Schema τ)
  | .createTable t shape =>
      if (schema t).isSome then .error "relation already exists"
      else if ¬ shape.Keyed then .error "no such column"
      else if ∀ c ∈ shape.columns, ∀ r ∈ c.references, r = t ∨ (schema r).isSome = true then
        .ok (Function.update schema t (some shape))
      else .error "no such table"
  | .dropTable t =>
      if (schema t).isNone then .error "no such table"
      else if ∃ r, r ≠ t ∧ ∃ shape ∈ schema r, shape.References t then .error "other objects depend on it"
      else .ok (Function.update schema t none)
  | .addColumn t column _ =>
      if ∀ r ∈ column.references, (schema r).isSome = true then onShape schema t fun shape => shape.addColumn column
      else .error "no such table"
  | .dropColumn t name => onShape schema t fun shape => shape.dropColumn name
  | .setNullable t name nullable => onShape schema t fun shape => shape.setNullable name nullable
  | .createKey t key => onShape schema t fun shape => shape.createKey key
  | .dropKey t name => onShape schema t fun shape => shape.dropKey name
  | .rewrite t _ => onShape schema t .ok

omit [Fintype τ] in
def Statement.onRows (rows : Rows τ) : Statement τ → Rows τ
  | .dropTable t => Function.update rows t []
  | .addColumn t column value =>
      Function.update rows t ((rows t).map fun row => Function.update row column.name value)
  | .dropColumn t name => Function.update rows t ((rows t).map fun row => Function.update row name .null)
  | .rewrite t f => Function.update rows t (f (rows t))
  | _ => rows

def exec (db : Database τ) (s : Statement τ) : Except String (Database τ) :=
  match s.onSchema db.schema with
  | .error e => .error e
  | .ok schema =>
      if h : Consistent schema (s.onRows db.rows) then .ok ⟨schema, s.onRows db.rows, h⟩
      else .error "integrity error"

end NeuralSoc.Relational
