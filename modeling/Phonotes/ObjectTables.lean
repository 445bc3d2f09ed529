import Phonotes.SchemaChanges

/-!
Columns and tables of a Realm file, and what `object_store.cpp` does to them when their
schema changes.

Every class has a table. Its columns are known by their position: one that is to get another
type is put in before the old one, which is then removed behind it, so the positions of the
others stay as the comparison found them.
-/

namespace Phonotes

namespace FileSchema

open Sequences

/-! ### Columns -/

structure Column where
  name : String
  type : PropertyType
  isNullable : Bool
  hasSearchIndex : Bool
  values : List PropertyValue
  deriving DecidableEq, Repr

/-- What a cell of a new column holds. -/
def Property.emptyValue (self : Property) : PropertyValue :=
  if self.isNullable then .null
  else
    match self.type with
    | .int => .int 0
    | .bool => .bool false
    | .string => .string ""

/-- The column that `insert_column` makes, with an index if there has to be one. -/
def Property.newColumn (self : Property) (size : Nat) : Column where
  name := self.name
  type := self.type
  isNullable := self.isNullable
  hasSearchIndex := self.requiresIndex
  values := List.replicate size self.emptyValue

/-- The table of a class, without the prefix `class_` of its name. Every column has a value
for every row. -/
structure Table where
  name : String
  columns : List Column
  size : Nat
  full : ∀ column ∈ columns, column.values.length = size

theorem Table.ext {table table' : Table} (name : table.name = table'.name)
    (columns : table.columns = table'.columns) (size : table.size = table'.size) :
    table = table' := by
  cases table
  cases table'
  cases name
  cases columns
  cases size
  rfl

namespace Table

def insertColumn (self : Table) (property : Property) (ndx : Nat) : Table :=
  { self with
    columns := self.columns.insertIdx ndx (property.newColumn self.size)
    full := by
      intro column member
      by_cases inRange : ndx ≤ self.columns.length
      · rcases (List.mem_insertIdx inRange).mp member with rfl | old
        · exact List.length_replicate
        · exact self.full column old
      · rw [List.insertIdx_of_length_lt (not_le.mp inRange)] at member
        exact self.full column member }

def addColumn (self : Table) (property : Property) : Table :=
  self.insertColumn property self.columns.length

def removeColumn (self : Table) (ndx : Nat) : Table :=
  { self with
    columns := self.columns.eraseIdx ndx
    full := fun column member => self.full column (List.mem_of_mem_eraseIdx member) }

/-- Change a column that keeps its number of values. -/
def modifyColumn (self : Table) (ndx : Nat) (f : Column → Column)
    (keeps : ∀ column, (f column).values.length = column.values.length) : Table :=
  { self with
    columns := self.columns.modify ndx f
    full := by
      intro column member
      obtain ⟨i, held⟩ := List.mem_iff_getElem?.mp member
      rw [List.getElem?_modify] at held
      obtain ⟨old, heldBefore, rfl⟩ := Option.map_eq_some_iff.mp held
      have fits := self.full old (List.mem_of_getElem? heldBefore)
      split_ifs
      · rw [keeps, fits]
      · exact fits }

def get (self : Table) (column row : Nat) : PropertyValue :=
  ((self.columns[column]?).bind fun cells => cells.values[row]?).getD .null

def set (self : Table) (column row : Nat) (value : PropertyValue) : Table :=
  self.modifyColumn column (fun cells => { cells with values := cells.values.set row value })
    fun _ => List.length_set

def addSearchIndex (self : Table) (column : Nat) : Table :=
  self.modifyColumn column (fun cells => { cells with hasSearchIndex := true }) fun _ => rfl

def removeSearchIndex (self : Table) (column : Nat) : Table :=
  self.modifyColumn column (fun cells => { cells with hasSearchIndex := false }) fun _ => rfl

/-! ### The steps of a migration -/

def replaceColumn (self : Table) (oldProperty newProperty : Property) : Table :=
  (self.insertColumn newProperty oldProperty.tableColumn).removeColumn
    (oldProperty.tableColumn + 1)

/-- Row by row, from the column behind. -/
def copyPropertyValues (self : Table) (prop : Property) : Table :=
  (List.range self.size).foldl
    (fun table i => table.set prop.tableColumn i (table.get (prop.tableColumn + 1) i)) self

def makePropertyOptional (self : Table) (property : Property) : Table :=
  let property := { property with isNullable := true }
  ((self.insertColumn property property.tableColumn).copyPropertyValues property).removeColumn
    (property.tableColumn + 1)

def makePropertyRequired (self : Table) (property : Property) : Table :=
  let property := { property with isNullable := false }
  (self.insertColumn property property.tableColumn).removeColumn (property.tableColumn + 1)

/-- `add_initial_columns`: the column of the primary key is there already. -/
def addInitialColumns (self : Table) (object : ObjectSchema) : Table :=
  object.persistedProperties.foldl
    (fun table prop => if prop.isPrimary then table else table.addColumn prop) self

/-- What the appliers do to the table of a change's class. -/
def apply (self : Table) : SchemaChange → Table
  | .addTable _ => self
  | .addInitialProperties object => self.addInitialColumns object
  | .addProperty _ property => self.addColumn property
  | .removeProperty _ property => self.removeColumn property.tableColumn
  | .changePropertyType _ oldProperty newProperty => self.replaceColumn oldProperty newProperty
  | .makePropertyNullable _ property => self.makePropertyOptional property
  | .makePropertyRequired _ property => self.makePropertyRequired property
  | .changePrimaryKey _ _ => self
  | .addIndex _ property => self.addSearchIndex property.tableColumn
  | .removeIndex _ property => self.removeSearchIndex property.tableColumn

end Table

/-! ### Columns after a change -/

/-- What a change makes of the column that it is about. -/
def Column.changed (size : Nat) (c : SchemaChange) (column : Column) : Column :=
  match c with
  | .changePropertyType _ _ newProperty => newProperty.newColumn size
  | .makePropertyNullable _ property =>
      { { property with isNullable := true }.newColumn size with values := column.values }
  | .makePropertyRequired _ property => { property with isNullable := false }.newColumn size
  | .addIndex _ _ => { column with hasSearchIndex := true }
  | .removeIndex _ _ => { column with hasSearchIndex := false }
  | _ => column

/-- The columns that a change brings. -/
def addedColumns (size : Nat) : SchemaChange → List Column
  | .addInitialProperties object =>
      (object.persistedProperties.filter fun prop => !prop.isPrimary).map
        fun prop => prop.newColumn size
  | .addProperty _ property => [property.newColumn size]
  | _ => []

namespace Table

variable {table : Table}

theorem columns_addColumn (property : Property) :
    (table.addColumn property).columns = table.columns ++ [property.newColumn table.size] :=
  List.insertIdx_length_self

theorem columns_replaceColumn {oldProperty newProperty : Property}
    (inRange : oldProperty.tableColumn < table.columns.length) :
    (table.replaceColumn oldProperty newProperty).columns =
      table.columns.set oldProperty.tableColumn (newProperty.newColumn table.size) :=
  eraseIdx_insertIdx_succ inRange _

theorem columns_addInitialColumns (object : ObjectSchema) :
    (table.addInitialColumns object).columns =
        table.columns ++ addedColumns table.size (.addInitialProperties object) ∧
      (table.addInitialColumns object).size = table.size ∧
      (table.addInitialColumns object).name = table.name := by
  simp only [addInitialColumns, addedColumns]
  generalize object.persistedProperties = properties
  induction properties generalizing table with
  | nil => simp
  | cons prop properties ih =>
      rw [List.foldl_cons]
      cases isPrimary : prop.isPrimary with
      | true => simpa [isPrimary] using @ih table
      | false =>
          obtain ⟨columns, size, name⟩ := @ih (table.addColumn prop)
          rw [columns_addColumn] at columns
          refine ⟨?_, size, name⟩
          simpa [isPrimary, addColumn, insertColumn] using columns

/-- One more value has been copied. -/
theorem set_append_drop {source copied : List PropertyValue} {k : Nat}
    (inRange : k < source.length) (same : source.length = copied.length) :
    (source.take k ++ copied.drop k).set k source[k] =
      source.take (k + 1) ++ copied.drop (k + 1) := by
  have lengthTake : (source.take k).length = k := List.length_take_of_le inRange.le
  rw [List.set_append_right _ _ lengthTake.le, lengthTake, Nat.sub_self,
    List.drop_eq_getElem_cons (same ▸ inRange), List.set_cons_zero, List.take_succ_eq_append_getElem
    inRange, List.append_assoc, List.singleton_append]

/-- Copying row by row copies the column. -/
theorem columns_copyPropertyValues {prop : Property} {column source : Column}
    (heldHere : table.columns[prop.tableColumn]? = some column)
    (heldBehind : table.columns[prop.tableColumn + 1]? = some source) :
    (table.copyPropertyValues prop).columns =
        table.columns.set prop.tableColumn { column with values := source.values } ∧
      (table.copyPropertyValues prop).size = table.size ∧
      (table.copyPropertyValues prop).name = table.name := by
  have fits := table.full column (List.mem_of_getElem? heldHere)
  have fitsBehind := table.full source (List.mem_of_getElem? heldBehind)
  have upTo (k : Nat) (le : k ≤ table.size) :
      let copied := (List.range k).foldl (fun table i =>
        table.set prop.tableColumn i (table.get (prop.tableColumn + 1) i)) table
      copied.columns = table.columns.set prop.tableColumn
          { column with values := source.values.take k ++ column.values.drop k } ∧
        copied.size = table.size ∧ copied.name = table.name := by
    induction k with
    | zero =>
        refine ⟨?_, rfl, rfl⟩
        exact (Object.set_of_getElem? heldHere).symm
    | succ k ih =>
        obtain ⟨columns, size, name⟩ := ih (by omega)
        rw [List.range_succ, List.foldl_append, List.foldl_cons, List.foldl_nil]
        generalize (List.range k).foldl _ table = copied at columns size name ⊢
        have inRange : k < source.values.length := by omega
        have inColumns := (List.getElem?_eq_some_iff.mp heldHere).1
        have read : copied.get (prop.tableColumn + 1) k = source.values[k] := by
          simp [get, columns, heldBehind, inRange]
        have write := set_append_drop inRange (fitsBehind.trans fits.symm)
        refine ⟨?_, size, name⟩
        simp only [set, modifyColumn, columns, read, List.modify_eq_set_getElem?,
          List.getElem?_set_self inColumns, List.set_set, Option.map_eq_map, Option.map_some,
          Option.getD_some, write]
  have all : source.values.take table.size = source.values := by
    rw [← fitsBehind, List.take_length]
  have none : column.values.drop table.size = [] := by
    rw [← fits, List.drop_length]
  have whole := upTo table.size le_rfl
  rw [all, none, List.append_nil] at whole
  exact whole

theorem columns_makePropertyOptional {property : Property} {column : Column}
    (held : table.columns[property.tableColumn]? = some column) :
    (table.makePropertyOptional property).columns =
        table.columns.set property.tableColumn
          { { property with isNullable := true }.newColumn table.size with
            values := column.values } ∧
      (table.makePropertyOptional property).size = table.size ∧
      (table.makePropertyOptional property).name = table.name := by
  have inRange := (List.getElem?_eq_some_iff.mp held).1
  let optional : Property := { property with isNullable := true }
  let inserted := table.insertColumn optional optional.tableColumn
  have heldHere : inserted.columns[optional.tableColumn]? =
      some (optional.newColumn table.size) := by
    simp only [inserted, insertColumn, List.getElem?_insertIdx_self]
    exact if_pos inRange.le
  have heldBehind : inserted.columns[optional.tableColumn + 1]? = some column := by
    simp only [inserted, insertColumn]
    rw [List.getElem?_insertIdx_of_gt (Nat.lt_succ_self _)]
    exact held
  obtain ⟨columns, size, name⟩ := columns_copyPropertyValues heldHere heldBehind
  refine ⟨?_, size, name⟩
  have copied : (table.makePropertyOptional property).columns =
      (inserted.copyPropertyValues optional).columns.eraseIdx (property.tableColumn + 1) := rfl
  rw [copied, columns]
  simp only [inserted, insertColumn, set_insertIdx_self]
  exact eraseIdx_insertIdx_succ inRange _

/-- Every change but a removal is an edit of the columns. -/
theorem columns_apply {c : SchemaChange} (kept : c.isNotRemoveProperty = true)
    (inRange : ∀ i, c.column = some i → i < table.columns.length) :
    (table.apply c).columns =
        edit SchemaChange.column (Column.changed table.size) (addedColumns table.size)
          table.columns c ∧
      (table.apply c).size = table.size ∧ (table.apply c).name = table.name := by
  cases c with
  | addTable object => exact ⟨(List.append_nil _).symm, rfl, rfl⟩
  | addInitialProperties object => exact columns_addInitialColumns object
  | addProperty object property => exact ⟨columns_addColumn property, rfl, rfl⟩
  | removeProperty object property => cases kept
  | changePropertyType object oldProperty newProperty =>
      refine ⟨?_, rfl, rfl⟩
      have within := inRange _ rfl
      rw [apply, columns_replaceColumn within]
      simp only [edit, SchemaChange.column, List.modify_eq_set_getElem?, Column.changed,
        List.getElem?_eq_getElem within, Option.map_eq_map, Option.map_some, Option.getD_some]
  | makePropertyNullable object property =>
      have held := List.getElem?_eq_getElem (inRange _ rfl)
      obtain ⟨columns, size, name⟩ := columns_makePropertyOptional held
      refine ⟨?_, size, name⟩
      rw [apply, columns]
      simp only [edit, SchemaChange.column, List.modify_eq_set_getElem?, Column.changed,
        held, Option.map_eq_map, Option.map_some, Option.getD_some]
  | makePropertyRequired object property =>
      refine ⟨?_, rfl, rfl⟩
      have within := inRange _ rfl
      have removed : (table.makePropertyRequired property).columns =
        table.columns.set property.tableColumn
          ({ property with isNullable := false }.newColumn table.size) :=
            eraseIdx_insertIdx_succ within _
      rw [apply, removed]
      simp only [edit, SchemaChange.column, List.modify_eq_set_getElem?, Column.changed,
        List.getElem?_eq_getElem within, Option.map_eq_map, Option.map_some, Option.getD_some]
  | changePrimaryKey object property => exact ⟨(List.append_nil _).symm, rfl, rfl⟩
  | addIndex object property => exact ⟨rfl, rfl, rfl⟩
  | removeIndex object property => exact ⟨rfl, rfl, rfl⟩

theorem name_apply (c : SchemaChange) : (table.apply c).name = table.name := by
  cases c with
  | addInitialProperties object => exact (columns_addInitialColumns object).2.2
  | makePropertyNullable object property =>
      let optional : Property := { property with isNullable := true }
      have ofLoop (rows : List Nat) (table : Table) : (rows.foldl (fun table i =>
          table.set optional.tableColumn i (table.get (optional.tableColumn + 1) i))
            table).name = table.name := by
        induction rows generalizing table with
        | nil => rfl
        | cons i rows ih => exact ih _
      exact ofLoop _ _
  | _ => rfl

theorem columns_foldl_apply {changes : List SchemaChange}
    (kept : ∀ c ∈ changes, c.isNotRemoveProperty = true)
    (inRange : ∀ c ∈ changes, ∀ i, c.column = some i → i < table.columns.length) :
    (changes.foldl apply table).columns =
        changes.foldl (edit SchemaChange.column (Column.changed table.size)
          (addedColumns table.size)) table.columns ∧
      (changes.foldl apply table).size = table.size ∧
      (changes.foldl apply table).name = table.name := by
  induction changes generalizing table with
  | nil => exact ⟨rfl, rfl, rfl⟩
  | cons c changes ih =>
      obtain ⟨columns, size, name⟩ := columns_apply (kept c List.mem_cons_self)
        (inRange c List.mem_cons_self)
      have longer : table.columns.length ≤ (table.apply c).columns.length := by
        rw [columns]
        exact length_le_edit _ _
      obtain ⟨columns', size', name'⟩ := @ih (table.apply c)
        (fun c' member => kept c' (List.mem_cons_of_mem _ member))
        fun c' member i place =>
          (inRange c' (List.mem_cons_of_mem _ member) i place).trans_le longer
      rw [size, columns] at columns'
      exact ⟨columns', size'.trans size, name'.trans name⟩

theorem columns_foldl_removals {changes : List SchemaChange}
    (removals : ∀ c ∈ changes, c.isNotRemoveProperty = false) :
    (changes.foldl apply table).columns =
        (changes.map SchemaChange.getRemovedColumn).foldl List.eraseIdx table.columns ∧
      (changes.foldl apply table).size = table.size ∧
      (changes.foldl apply table).name = table.name := by
  induction changes generalizing table with
  | nil => exact ⟨rfl, rfl, rfl⟩
  | cons c changes ih =>
      cases c with
      | removeProperty object property =>
          exact @ih (table.removeColumn property.tableColumn) fun c' member =>
            removals c' (List.mem_cons_of_mem _ member)
      | _ => exact nomatch removals _ List.mem_cons_self

end Table

/-! ### Reading a table's schema -/

/-- The property that has its values in a column. -/
def Column.property (self : Column) (primaryKey : String) (index : Nat) : Property where
  name := self.name
  type := self.type
  isNullable := self.isNullable
  isPrimary := primaryKey ≠ "" ∧ self.name = primaryKey
  isIndexed := self.hasSearchIndex
  tableColumn := index

/-- `property_for_column_index`. The column for object IDs is not part of the schema. -/
def Table.propertyForColumnIndex (self : Table) (primaryKey : String) (index : Nat) :
    Option Property :=
  (self.columns[index]?).bind fun column =>
    if column.name = "!OID" then none else some (column.property primaryKey index)

/-- `ObjectSchema(Group, name, index)`: `set_primary_key_property` marks the property that
has the name of the primary key. -/
def Table.objectSchema (self : Table) (primaryKey : String) : ObjectSchema where
  name := self.name
  persistedProperties :=
    (List.range self.columns.length).filterMap (self.propertyForColumnIndex primaryKey)
  primaryKey := primaryKey

section Schema

variable {table : Table} {primaryKey : String}

theorem mem_objectSchema_iff {property : Property} :
    property ∈ (table.objectSchema primaryKey).persistedProperties ↔
      ∃ (i : Nat) (column : Column), table.columns[i]? = some column ∧ column.name ≠ "!OID" ∧
        property = column.property primaryKey i := by
  simp only [Table.objectSchema, Table.propertyForColumnIndex, List.mem_filterMap, List.mem_range,
    Option.bind_eq_some_iff]
  constructor
  · rintro ⟨i, -, column, held, isProperty⟩
    split_ifs at isProperty with hidden
    exact ⟨i, column, held, hidden, (Option.some.inj isProperty).symm⟩
  · rintro ⟨i, column, held, visible, rfl⟩
    exact ⟨i, (List.getElem?_eq_some_iff.mp held).1, column, held, if_neg visible⟩

theorem nodup_tableColumn : ((table.objectSchema primaryKey).persistedProperties.map
    fun property => property.tableColumn).Nodup := by
  rw [Table.objectSchema, List.map_filterMap]
  apply List.Nodup.filterMap _ List.nodup_range
  intro i j column isColumn isColumn'
  have index {k : Nat} (isHere : column ∈ Option.map (fun property : Property =>
      property.tableColumn) (table.propertyForColumnIndex primaryKey k)) : column = k := by
    obtain ⟨property, found, rfl⟩ := Option.map_eq_some_iff.mp isHere
    obtain ⟨cells, -, isProperty⟩ := Option.bind_eq_some_iff.mp found
    split_ifs at isProperty
    rw [← Option.some.inj isProperty]
    rfl
  exact (index isColumn).symm.trans (index isColumn')

theorem propertyForName_objectSchema_eq_none_iff {name : String} :
    (table.objectSchema primaryKey).propertyForName name = none ↔
      ∀ column ∈ table.columns, column.name ≠ "!OID" → column.name ≠ name := by
  rw [ObjectSchema.propertyForName, List.find?_eq_none]
  constructor
  · intro missing column member visible isNamed
    obtain ⟨i, held⟩ := List.mem_iff_getElem?.mp member
    exact missing _ (mem_objectSchema_iff.mpr ⟨i, column, held, visible, rfl⟩)
      (decide_eq_true isNamed)
  · intro missing property member isNamed
    obtain ⟨i, column, held, visible, rfl⟩ := mem_objectSchema_iff.mp member
    exact missing column (List.mem_of_getElem? held) visible (of_decide_eq_true isNamed)

end Schema

end FileSchema

end Phonotes
