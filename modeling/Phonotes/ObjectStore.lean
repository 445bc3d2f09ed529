import Mathlib.Data.List.Basic
import Phonotes.Library.KeyedRows
import Phonotes.Library.TransitionSystem
import Phonotes.Realm

/-!
The object store under the Realm: `object_accessor.hpp` and `shared_realm.cpp`.

To the app the note table is a map that `add(_:update:)` overwrites at one key. The
store has rows and columns instead: it looks the primary key up, adds an empty row if
it is not there, and writes the properties one by one, the unchanged ones only if it
is told to. Here are its functions, for any schema with scalar properties, and what
they do to the rows as a map.
-/

namespace Phonotes

open Transaction KeyedRows

/-! ### Properties and values -/

/-- The scalar property types in use. -/
inductive PropertyType where
  | int
  | bool
  | string
  deriving DecidableEq, Repr

/-- A value of a property, boxed or in its column. -/
inductive PropertyValue where
  | null
  | int (value : Int)
  | bool (value : Bool)
  | string (value : String)
  deriving DecidableEq, Repr

/-- The text that `print` gives of a value. -/
def PropertyValue.description : PropertyValue → String
  | .null => "<null>"
  | .int value => toString value
  | .bool value => if value then "1" else "0"
  | .string value => value

structure Property where
  name : String
  type : PropertyType
  isNullable : Bool := false
  isPrimary : Bool := false
  tableColumn : Nat
  deriving DecidableEq, Repr

structure ObjectSchema where
  name : String
  persistedProperties : List Property
  primaryKey : String

namespace ObjectSchema

def propertyForName (self : ObjectSchema) (name : String) : Option Property :=
  self.persistedProperties.find? fun property => property.name = name

def primaryKeyProperty (self : ObjectSchema) : Option Property :=
  self.propertyForName self.primaryKey

/-- The columns belong to one property each, and `isPrimary` marks the property that
is named as the primary key, as `set_primary_key_property` does. -/
structure Valid (schema : ObjectSchema) (primary : Property) : Prop where
  columns : (schema.persistedProperties.map Property.tableColumn).Nodup
  named : schema.primaryKeyProperty = some primary
  isPrimary : ∀ property ∈ schema.persistedProperties,
    property.isPrimary = true ↔ property = primary

theorem Valid.mem {schema : ObjectSchema} {primary : Property} (valid : schema.Valid primary) :
    primary ∈ schema.persistedProperties :=
  List.mem_of_find?_eq_some valid.named

/-- Another property has another column. -/
theorem Valid.column_ne {schema : ObjectSchema} {primary property : Property}
    (valid : schema.Valid primary) (member : property ∈ schema.persistedProperties)
    (other : property.isPrimary = false) : property.tableColumn ≠ primary.tableColumn := by
  intro same
  have isKey := List.inj_on_of_nodup_map valid.columns member valid.mem same
  simp [(valid.isPrimary property member).mpr isKey] at other

end ObjectSchema

/-! ### Tables -/

/-- A row, by column. -/
abbrev Row := Nat → PropertyValue

/-- `emptyRow` is what a new row holds: null where the column allows it, else the zero
of its type. -/
structure Table where
  rows : List Row
  emptyRow : Row

namespace Table

/-- `find_first(column, value)` -/
def findFirst (self : Table) (column : Nat) (value : PropertyValue) : Option Nat :=
  KeyedRows.findFirst (fun row : Row => row column) self.rows value

/-- `add_empty_row()`, which returns the index of the row. -/
def addEmptyRow (self : Table) : Table × Nat :=
  ({ self with rows := self.rows ++ [self.emptyRow] }, self.rows.length)

def set (self : Table) (column row : Nat) (value : PropertyValue) : Table :=
  { self with rows := self.rows.modify row fun cells => Function.update cells column value }

def get (self : Table) (column row : Nat) : PropertyValue :=
  ((self.rows[row]?).map fun cells => cells column).getD .null

def isNull (self : Table) (column row : Nat) : Bool := self.get column row = .null

end Table

/-! ### SharedRealm -/

/-- A `std::logic_error`. -/
structure LogicError where
  what : String
  deriving DecidableEq, Repr

def LogicError.missingPropertyValue (objectType propertyName : String) : LogicError :=
  ⟨"Missing value for property '" ++ objectType ++ "." ++ propertyName ++ "'"⟩

/-- What a commit may throw: an error of the file system has no text here. -/
inductive CommitError where
  | logicError (error : LogicError)
  | systemError
  deriving DecidableEq, Repr

/-- The Realm that the object store hands to a binding: the rows of the one class
there is, in a shared group, and whether a migration is going on. -/
structure SharedRealm where
  group : Versioned Table
  isInMigration : Bool := false

namespace SharedRealm

def isInTransaction (self : SharedRealm) : Bool := self.group.working.isSome

def beginTransaction (self : SharedRealm) : Except LogicError SharedRealm :=
  match self.group.begin with
  | some group => .ok { self with group }
  | none => .error ⟨"The Realm is already in a write transaction"⟩

/-- An error of the file system leaves the transaction as it is. -/
def commitTransaction (self : SharedRealm) (commit : CommitOutcome) :
    Except CommitError SharedRealm :=
  if self.isInTransaction then
    match commit with
    | .succeeds => .ok { self with group := self.group.commit }
    | .throws => .error .systemError
  else .error (.logicError ⟨"Can't commit a non-existing write transaction"⟩)

def cancelTransaction (self : SharedRealm) : Except LogicError SharedRealm :=
  if self.isInTransaction then .ok { self with group := ⟨self.group.committed, none⟩ }
  else .error ⟨"Can't cancel a non-existing write transaction"⟩

end SharedRealm

/-! ### Object::create -/

/-- What a binding tells the store about a value of its own type `α` that is to
become an object. A missing value is not the same as `null`. -/
structure AccessorContext (α : Type*) where
  valueForProperty : α → Property → Nat → Option PropertyValue
  defaultValueForProperty : Property → Option PropertyValue

namespace Object

variable {α : Type*} (ctx : AccessorContext α)

/-- `set_property_value_impl` -/
def setPropertyValueImpl (table : Table) (property : Property) (row : Nat)
    (value : PropertyValue) (updateOnlyDiff : Bool) : Table :=
  if property.isNullable && value = .null then
    if !updateOnlyDiff || !table.isNull property.tableColumn row then
      table.set property.tableColumn row .null
    else table
  else if !updateOnlyDiff || table.get property.tableColumn row ≠ value then
    table.set property.tableColumn row value
  else table

/-- `get_for_primary_key_impl`. The three kinds of column are searched alike. -/
def getForPrimaryKeyImpl (table : Table) (primaryProp : Property)
    (primaryValue : PropertyValue) : Except LogicError (Option Nat) :=
  if primaryValue = .null && !primaryProp.isNullable then
    .error ⟨"Invalid null value for non-nullable primary key."⟩
  else .ok (table.findFirst primaryProp.tableColumn primaryValue)

/-- The value of the primary key: the value's own, or a default, or null. -/
def primaryValue (schema : ObjectSchema) (primaryProp : Property) (value : α) :
    Except LogicError PropertyValue :=
  let given := ctx.valueForProperty value primaryProp
    (schema.persistedProperties.idxOf primaryProp)
  match given.or (ctx.defaultValueForProperty primaryProp) with
  | some primaryValue => .ok primaryValue
  | none =>
      if primaryProp.isNullable then .ok .null
      else .error (.missingPropertyValue schema.name primaryProp.name)

/-- The row that is to be populated. -/
structure Target where
  table : Table
  row : Nat
  created : Bool
  skipPrimary : Bool := true

/-- The first half of `create`: find the row, or add one. A new key of a type that
cannot be one ends the process, which is left out here: such a schema is not valid. -/
def getOrCreateRow (realm : SharedRealm) (table : Table) (schema : ObjectSchema) (value : α)
    (tryUpdate updateOnlyDiff : Bool) (currentRow : Option Nat) : Except LogicError Target :=
  match schema.primaryKeyProperty with
  | some primaryProp =>
      match primaryValue ctx schema primaryProp value with
      | .error e => .error e
      | .ok primaryValue =>
          match getForPrimaryKeyImpl table primaryProp primaryValue with
          | .error e => .error e
          | .ok none =>
              let (table, row) := table.addEmptyRow
              .ok ⟨table.set primaryProp.tableColumn row primaryValue, row, true, true⟩
          | .ok (some row) =>
              if tryUpdate then .ok ⟨table, row, false, true⟩
              else if realm.isInMigration then
                let (table, row) := table.addEmptyRow
                .ok ⟨table, row, true, false⟩
              else .error ⟨"Attempting to create an object of type '" ++ schema.name ++
                "' with an existing primary key value '" ++ primaryValue.description ++ "'."⟩
  | none =>
      match updateOnlyDiff, currentRow with
      | true, some row => .ok ⟨table, row, false, true⟩
      | _, _ =>
          let (table, row) := table.addEmptyRow
          .ok ⟨table, row, true, true⟩

/-- One turn of the loop that populates the row. -/
def populateProperty (schema : ObjectSchema) (value : α) (updateOnlyDiff : Bool)
    (target : Target) (property : Property) (i : Nat) : Except LogicError Table :=
  let given := ctx.valueForProperty value property i
  if !target.created && given.isNone then .ok target.table
  else
    match given.or (ctx.defaultValueForProperty property) with
    | none =>
        if property.isNullable then .ok target.table
        else .error (.missingPropertyValue schema.name property.name)
    | some v =>
        if v = .null && !property.isNullable then
          .error (.missingPropertyValue schema.name property.name)
        else .ok (setPropertyValueImpl target.table property target.row v updateOnlyDiff)

/-- The loop that populates the row. What it has written when it throws stays. -/
def populate (schema : ObjectSchema) (value : α) (updateOnlyDiff : Bool) :
    List (Property × Nat) → Target → Table × Option LogicError
  | [], target => (target.table, none)
  | (property, i) :: properties, target =>
      if target.skipPrimary && property.isPrimary then
        populate schema value updateOnlyDiff properties target
      else
        match populateProperty ctx schema value updateOnlyDiff target property i with
        | .error e => (target.table, some e)
        | .ok table => populate schema value updateOnlyDiff properties { target with table }

/-- `create(ctx, realm, object_schema, value, try_update, update_only_diff, current_row)`,
with the Realm it leaves behind. -/
def create (realm : SharedRealm) (schema : ObjectSchema) (value : α)
    (tryUpdate updateOnlyDiff : Bool) (currentRow : Option Nat) :
    SharedRealm × Except LogicError Nat :=
  match realm.group.working with
  | none =>
      (realm, .error ⟨"Cannot modify managed objects outside of a write transaction."⟩)
  | some table =>
      match getOrCreateRow ctx realm table schema value tryUpdate updateOnlyDiff currentRow with
      | .error e => (realm, .error e)
      | .ok target =>
          let (table, failure) :=
            populate ctx schema value updateOnlyDiff schema.persistedProperties.zipIdx target
          ({ realm with group := ⟨realm.group.committed, some table⟩ },
            match failure with
            | some e => .error e
            | none => .ok target.row)

/-- `get_for_primary_key(ctx, realm, object_schema, primary_value)`: the row of the
object, if it is valid. -/
def getForPrimaryKey (realm : SharedRealm) (schema : ObjectSchema)
    (primaryValue : PropertyValue) : Except LogicError (Option Nat) :=
  match schema.primaryKeyProperty with
  | none => .error ⟨"'" ++ schema.name ++ "' does not have a primary key defined"⟩
  | some primaryProp => getForPrimaryKeyImpl realm.group.current primaryProp primaryValue

/-! ### Writing a property -/

theorem set_of_getElem? {β : Type*} {l : List β} {i : Nat} {b : β} (held : l[i]? = some b) :
    l.set i b = l := by
  obtain ⟨inRange, rfl⟩ := List.getElem?_eq_some_iff.mp held
  exact List.set_getElem_self inRange

/-- Writing a cell writes its row. -/
theorem set_eq_of_row {table : Table} {row : Nat} {cells : Row}
    (held : table.rows[row]? = some cells) (column : Nat) (value : PropertyValue) :
    table.set column row value =
      { table with rows := table.rows.set row (Function.update cells column value) } := by
  simp only [Table.set, List.modify_eq_set_getElem?, held, Option.map_eq_map, Option.map_some,
    Option.getD_some]

theorem set_of_get {table : Table} {column row : Nat} {value : PropertyValue}
    (same : table.get column row = value) : table.set column row value = table := by
  have kept : (table.rows.modify row fun cells => Function.update cells column value) =
      table.rows := by
    apply List.ext_getElem?
    intro i
    rw [List.getElem?_modify]
    split_ifs with isRow
    · subst isRow
      cases held : table.rows[row]? with
      | none => rfl
      | some cells =>
          simp only [Table.get, held, Option.map_some, Option.getD_some] at same
          rw [← same, Option.map_eq_map, Option.map_some, Function.update_eq_self]
    · cases table.rows[i]? <;> rfl
  simp only [Table.set, kept]

/-- Writing only what differs leaves the same table as writing all. -/
theorem setPropertyValueImpl_eq (table : Table) (property : Property) (row : Nat)
    (value : PropertyValue) (updateOnlyDiff : Bool) :
    setPropertyValueImpl table property row value updateOnlyDiff =
      table.set property.tableColumn row value := by
  unfold setPropertyValueImpl
  by_cases isNull : property.isNullable = true ∧ value = .null
  · obtain ⟨nullable, rfl⟩ := isNull
    simp only [nullable, decide_true, Bool.and_self, if_true]
    split_ifs with writes
    · rfl
    · have same : table.get property.tableColumn row = .null := by
        simp only [Table.isNull, Bool.or_eq_true, Bool.not_eq_true', not_or,
          Bool.not_eq_false, decide_eq_true_eq] at writes
        exact writes.2
      exact (set_of_get same).symm
  · have notNull : (property.isNullable && decide (value = .null)) = false := by
      simpa using isNull
    simp only [notNull, Bool.false_eq_true, if_false]
    split_ifs with writes
    · rfl
    · have same : table.get property.tableColumn row = value := by
        simp only [Bool.or_eq_true, Bool.not_eq_true', not_or, Bool.not_eq_false,
          decide_eq_true_eq, not_not] at writes
        exact writes.2
      exact (set_of_get same).symm

/-! ### Populating a row -/

section Populate

variable {ctx} {schema : ObjectSchema} {value : α} {primary : Property}

theorem populateProperty_eq (updateOnlyDiff : Bool) (target : Target) (property : Property)
    (i : Nat) :
    populateProperty ctx schema value updateOnlyDiff target property i =
      populateProperty ctx schema value false target property i := by
  simp only [populateProperty, setPropertyValueImpl_eq]

theorem populate_eq (updateOnlyDiff : Bool) (properties : List (Property × Nat))
    (target : Target) :
    populate ctx schema value updateOnlyDiff properties target =
      populate ctx schema value false properties target := by
  induction properties generalizing target with
  | nil => rfl
  | cons property properties ih =>
      simp only [populate, populateProperty_eq updateOnlyDiff, ih]

/-- Where there is a primary key, writing only what differs makes no difference. -/
theorem create_eq (valid : schema.Valid primary) (realm : SharedRealm)
    (tryUpdate updateOnlyDiff : Bool) (currentRow : Option Nat) :
    create ctx realm schema value tryUpdate updateOnlyDiff currentRow =
      create ctx realm schema value tryUpdate false currentRow := by
  simp only [create, getOrCreateRow, valid.named, populate_eq updateOnlyDiff]

theorem populateProperty_cases {updateOnlyDiff : Bool} {target : Target} {property : Property}
    {i : Nat} {table : Table}
    (ran : populateProperty ctx schema value updateOnlyDiff target property i = .ok table) :
    table = target.table ∨
      ∃ v, table = target.table.set property.tableColumn target.row v := by
  simp only [populateProperty, setPropertyValueImpl_eq] at ran
  cases skipped : !target.created && (ctx.valueForProperty value property i).isNone with
  | true =>
      simp only [skipped, if_true] at ran
      cases ran
      exact Or.inl rfl
  | false =>
      simp only [skipped, Bool.false_eq_true, if_false] at ran
      cases given : (ctx.valueForProperty value property i).or
          (ctx.defaultValueForProperty property) with
      | none =>
          simp only [given] at ran
          split_ifs at ran
          cases ran
          exact Or.inl rfl
      | some v =>
          simp only [given] at ran
          split_ifs at ran
          cases ran
          exact Or.inr ⟨v, rfl⟩

/-- Of the rows, the loop writes the target, and of its cells those of other properties
than the primary key. -/
theorem populate_rows (valid : schema.Valid primary) {properties : List (Property × Nat)}
    {updateOnlyDiff : Bool}
    (among : ∀ property ∈ properties, property.1 ∈ schema.persistedProperties)
    {target : Target} {cells : Row} (held : target.table.rows[target.row]? = some cells)
    (skips : target.skipPrimary = true) :
    ∃ after : Row, after primary.tableColumn = cells primary.tableColumn ∧
      (populate ctx schema value updateOnlyDiff properties target).1 =
        { target.table with rows := target.table.rows.set target.row after } := by
  rw [populate_eq]
  induction properties generalizing target cells with
  | nil =>
      refine ⟨cells, rfl, ?_⟩
      simp only [populate, set_of_getElem? held]
  | cons property properties ih =>
      obtain ⟨property, i⟩ := property
      have member : property ∈ schema.persistedProperties := among (property, i) List.mem_cons_self
      have rest : ∀ property ∈ properties, property.1 ∈ schema.persistedProperties :=
        fun other isOther => among other (List.mem_cons_of_mem _ isOther)
      cases isKey : property.isPrimary with
      | true =>
          simp only [populate, skips, isKey, Bool.and_self, if_true]
          exact ih rest held skips
      | false =>
          simp only [populate, isKey, Bool.and_false, Bool.false_eq_true, if_false]
          cases ran : populateProperty ctx schema value false target property i with
          | error e =>
              refine ⟨cells, rfl, ?_⟩
              simp only [set_of_getElem? held]
          | ok table =>
              dsimp only
              rcases populateProperty_cases ran with rfl | ⟨v, rfl⟩
              · exact ih rest held skips
              · let next : Target :=
                  { target with table := target.table.set property.tableColumn target.row v }
                have heldNow : next.table.rows[next.row]? =
                    some (Function.update cells property.tableColumn v) := by
                  simp only [next, set_eq_of_row held]
                  exact List.getElem?_set_self (List.getElem?_eq_some_iff.mp held).1
                obtain ⟨after, key, same⟩ := ih rest heldNow skips
                refine ⟨after, key.trans ?_, same.trans ?_⟩
                · exact Function.update_of_ne (valid.column_ne member isKey).symm _ _
                · simp only [next, set_eq_of_row held, List.set_set]

end Populate

/-! ### Creating an object -/

section Create

variable {ctx} {realm : SharedRealm} {table : Table} {schema : ObjectSchema} {value : α}
  {primary : Property} {tryUpdate updateOnlyDiff : Bool} {currentRow : Option Nat}

/-- The primary key of a row. -/
def key (primary : Property) (row : Row) : PropertyValue := row primary.tableColumn

theorem getForPrimaryKeyImpl_ok {k : PropertyValue} {found : Option Nat}
    (ran : getForPrimaryKeyImpl table primary k = .ok found) :
    found = KeyedRows.findFirst (key primary) table.rows k := by
  unfold getForPrimaryKeyImpl at ran
  split_ifs at ran
  cases ran
  rfl

/-- A row that is added, with its primary key. -/
theorem addEmptyRow_set (table : Table) (column : Nat) (value : PropertyValue) :
    (table.addEmptyRow.1.set column table.addEmptyRow.2 value).rows =
      table.rows ++ [Function.update table.emptyRow column value] := by
  have held : table.addEmptyRow.1.rows[table.addEmptyRow.2]? = some table.emptyRow := by
    simp [Table.addEmptyRow]
  rw [set_eq_of_row held]
  simp [Table.addEmptyRow]

/-- Outside of a migration, writing the target without its primary key writes the row
of that key, or adds it. -/
theorem upsert_target (valid : schema.Valid primary) (settled : realm.isInMigration = false)
    {target : Target}
    (ran : getOrCreateRow ctx realm table schema value tryUpdate updateOnlyDiff currentRow =
      .ok target) :
    target.skipPrimary = true ∧ target.table.emptyRow = table.emptyRow ∧
      ∃ cells, primaryValue ctx schema primary value = .ok (key primary cells) ∧
        target.table.rows[target.row]? = some cells ∧
        ∀ after, key primary after = key primary cells →
          Upsert (key primary) after table.rows (target.table.rows.set target.row after) := by
  simp only [getOrCreateRow, valid.named] at ran
  cases given : primaryValue ctx schema primary value with
  | error e => simp [given] at ran
  | ok k =>
      simp only [given] at ran
      cases searched : getForPrimaryKeyImpl table primary k with
      | error e => simp [searched] at ran
      | ok found =>
          have isFound := getForPrimaryKeyImpl_ok searched
          cases found with
          | none =>
              simp only [searched, Except.ok.injEq] at ran
              subst ran
              refine ⟨rfl, rfl, Function.update table.emptyRow primary.tableColumn k, ?_, ?_, ?_⟩
              · simp [key]
              · simp only [addEmptyRow_set]
                simp [Table.addEmptyRow]
              · intro after sameKey
                have isKey : key primary after = k := by
                  rw [sameKey]
                  exact Function.update_self ..
                simp only [addEmptyRow_set]
                have atEnd : (table.rows ++
                    [Function.update table.emptyRow primary.tableColumn k]).set
                      table.addEmptyRow.2 after = table.rows ++ [after] := by
                  simp [Table.addEmptyRow]
                rw [atEnd]
                refine .added ?_
                rw [isKey]
                exact isFound.symm
          | some row =>
              simp only [searched, settled, Bool.false_eq_true, if_false] at ran
              split_ifs at ran
              cases ran
              obtain ⟨cells, held, isKey⟩ := getElem?_findFirst isFound.symm
              refine ⟨rfl, rfl, cells, by rw [isKey], held, ?_⟩
              intro after sameKey
              refine .changed ?_
              rw [sameKey, isKey]
              exact isFound.symm

/-- Whatever comes of `create`, the rows are as they were or one was written or added:
also what a `create` that throws has written. -/
theorem create_cases (valid : schema.Valid primary) (settled : realm.isInMigration = false) :
    (create ctx realm schema value tryUpdate updateOnlyDiff currentRow).1 = realm ∨
      ∃ before after cells, realm.group.working = some before ∧
        Upsert (key primary) cells before.rows after.rows ∧
        after.emptyRow = before.emptyRow ∧
        (create ctx realm schema value tryUpdate updateOnlyDiff currentRow).1 =
          { realm with group := ⟨realm.group.committed, some after⟩ } := by
  unfold create
  cases opened : realm.group.working with
  | none => exact Or.inl rfl
  | some before =>
      dsimp only
      cases ran :
          getOrCreateRow ctx realm before schema value tryUpdate updateOnlyDiff currentRow with
      | error e => exact Or.inl rfl
      | ok target =>
          obtain ⟨skips, empty, cells, -, held, upsert⟩ := upsert_target valid settled ran
          have among : ∀ property ∈ schema.persistedProperties.zipIdx,
              property.1 ∈ schema.persistedProperties := by
            rintro ⟨property, i⟩ member
            exact List.mem_of_getElem? (List.mk_mem_zipIdx_iff_getElem?.mp member)
          obtain ⟨after, sameKey, populated⟩ := @populate_rows _ ctx _ value _ valid _
            updateOnlyDiff among _ _ held skips
          right
          refine ⟨before, { target.table with rows := target.table.rows.set target.row after },
            after, rfl, upsert after sameKey, empty, ?_⟩
          simp only [populated]

/-- The value has one for every property, null only where the property allows it. -/
structure Complete (ctx : AccessorContext α) (schema : ObjectSchema) (value : α)
    (values : Property → PropertyValue) : Prop where
  given : ∀ property i, (property, i) ∈ schema.persistedProperties.zipIdx →
    ctx.valueForProperty value property i = some (values property)
  allowed : ∀ property ∈ schema.persistedProperties,
    values property = .null → property.isNullable = true

variable {values : Property → PropertyValue}

theorem populateProperty_of_given {target : Target} {property : Property} {i : Nat}
    {v : PropertyValue} (given : ctx.valueForProperty value property i = some v)
    (allowed : v = .null → property.isNullable = true) :
    populateProperty ctx schema value false target property i =
      .ok (target.table.set property.tableColumn target.row v) := by
  have kept : (decide (v = .null) && !property.isNullable) = false := by
    simpa using allowed
  simp only [populateProperty, given, Option.isNone_some, Bool.and_false, Bool.false_eq_true,
    if_false, Option.some_or, kept, setPropertyValueImpl_eq]

/-- From such a value the loop writes every cell but the primary key's. -/
theorem populate_of_given {properties : List (Property × Nat)}
    (columns : (properties.map fun property => property.1.tableColumn).Nodup)
    (given : ∀ property i, (property, i) ∈ properties →
      ctx.valueForProperty value property i = some (values property) ∧
        (values property = .null → property.isNullable = true))
    {target : Target} {cells : Row} (held : target.table.rows[target.row]? = some cells)
    (skips : target.skipPrimary = true) :
    ∃ after : Row,
      (∀ property ∈ properties, property.1.isPrimary = false →
        after property.1.tableColumn = values property.1) ∧
      (∀ column, (∀ property ∈ properties, property.1.isPrimary = false →
        property.1.tableColumn ≠ column) → after column = cells column) ∧
      populate ctx schema value updateOnlyDiff properties target =
        ({ target.table with rows := target.table.rows.set target.row after }, none) := by
  rw [populate_eq]
  induction properties generalizing target cells with
  | nil =>
      refine ⟨cells, ?_, ?_, ?_⟩
      · intro property member
        cases member
      · intro column _
        rfl
      · simp only [populate, set_of_getElem? held]
  | cons property properties ih =>
      obtain ⟨property, i⟩ := property
      rw [List.map_cons, List.nodup_cons] at columns
      have rest : ∀ other i, (other, i) ∈ properties →
          ctx.valueForProperty value other i = some (values other) ∧
            (values other = .null → other.isNullable = true) :=
        fun other i member => given other i (List.mem_cons_of_mem _ member)
      cases isKey : property.isPrimary with
      | true =>
          obtain ⟨after, wrote, left, populated⟩ := ih columns.2 rest held skips
          refine ⟨after, ?_, ?_, ?_⟩
          · rintro other member notKey
            rcases List.mem_cons.mp member with rfl | later
            · simp [isKey] at notKey
            · exact wrote other later notKey
          · intro column others
            exact left column fun other later =>
              others other (List.mem_cons_of_mem _ later)
          · simp only [populate, skips, isKey, Bool.and_self, if_true]
            exact populated
      | false =>
          obtain ⟨has, allowed⟩ := given property i List.mem_cons_self
          let next : Target :=
            { target with
              table := target.table.set property.tableColumn target.row (values property) }
          have heldNow : next.table.rows[next.row]? =
              some (Function.update cells property.tableColumn (values property)) := by
            simp only [next, set_eq_of_row held]
            exact List.getElem?_set_self (List.getElem?_eq_some_iff.mp held).1
          obtain ⟨after, wrote, left, populated⟩ := ih columns.2 rest heldNow skips
          have later : ∀ other ∈ properties, other.1.isPrimary = false →
              other.1.tableColumn ≠ property.tableColumn := by
            intro other member _ same
            exact columns.1 (List.mem_map.mpr ⟨other, member, same⟩)
          refine ⟨after, ?_, ?_, ?_⟩
          · rintro other member notKey
            rcases List.mem_cons.mp member with rfl | isLater
            · rw [left _ later, Function.update_self]
            · exact wrote other isLater notKey
          · intro column others
            have apart := others (property, i) List.mem_cons_self isKey
            rw [left column fun other isLater => others other (List.mem_cons_of_mem _ isLater),
              Function.update_of_ne (Ne.symm apart)]
          · simp only [populate, isKey, Bool.and_false, Bool.false_eq_true, if_false,
              populateProperty_of_given has allowed]
            refine populated.trans ?_
            simp only [next, set_eq_of_row held, List.set_set]

theorem primaryValue_of_complete (valid : schema.Valid primary)
    (complete : Complete ctx schema value values) :
    primaryValue ctx schema primary value = .ok (values primary) := by
  have atIndex : (primary, schema.persistedProperties.idxOf primary) ∈
      schema.persistedProperties.zipIdx :=
    List.mk_mem_zipIdx_iff_getElem?.mpr (List.getElem?_idxOf valid.mem)
  simp only [primaryValue, complete.given _ _ atIndex, Option.some_or]

/-- With an update policy a complete value always finds its row or makes one. -/
theorem exists_target (valid : schema.Valid primary)
    (complete : Complete ctx schema value values) :
    ∃ target, getOrCreateRow ctx realm table schema value true updateOnlyDiff currentRow =
      .ok target := by
  have allowed : (decide (values primary = .null) && !primary.isNullable) = false := by
    simpa using complete.allowed primary valid.mem
  simp only [getOrCreateRow, valid.named, primaryValue_of_complete valid complete,
    getForPrimaryKeyImpl, allowed, Bool.false_eq_true, if_false]
  cases table.findFirst primary.tableColumn (values primary) with
  | none => exact ⟨_, rfl⟩
  | some row => exact ⟨_, rfl⟩

/-- With an update policy a complete value is written in full to the one row with its
primary key, whichever policy it is. -/
theorem create_of_complete (valid : schema.Valid primary) (settled : realm.isInMigration = false)
    {before : Table} (opened : realm.group.working = some before)
    (complete : Complete ctx schema value values) (updateOnlyDiff : Bool)
    (currentRow : Option Nat) :
    ∃ after cells row,
      create ctx realm schema value true updateOnlyDiff currentRow =
        ({ realm with group := ⟨realm.group.committed, some after⟩ }, .ok row) ∧
      after.rows[row]? = some cells ∧ after.emptyRow = before.emptyRow ∧
      Upsert (key primary) cells before.rows after.rows ∧
      ∀ property ∈ schema.persistedProperties, cells property.tableColumn = values property := by
  obtain ⟨target, ran⟩ : ∃ target, getOrCreateRow ctx realm before schema value true
      updateOnlyDiff currentRow = .ok target := exists_target valid complete
  obtain ⟨skips, empty, old, keyed, held, upsert⟩ := upsert_target valid settled ran
  have columns : (schema.persistedProperties.zipIdx.map fun property =>
      property.1.tableColumn).Nodup := by
    have same := valid.columns
    rw [← List.zipIdx_map_fst 0 schema.persistedProperties, List.map_map] at same
    exact same
  have given : ∀ property i, (property, i) ∈ schema.persistedProperties.zipIdx →
      ctx.valueForProperty value property i = some (values property) ∧
        (values property = .null → property.isNullable = true) := by
    intro property i member
    have among := List.mem_of_getElem? (List.mk_mem_zipIdx_iff_getElem?.mp member)
    exact ⟨complete.given property i member, complete.allowed property among⟩
  obtain ⟨cells, wrote, left, populated⟩ :=
    @populate_of_given _ ctx schema value updateOnlyDiff values _ columns given _ _ held skips
  have isOld : key primary cells = key primary old := by
    refine left primary.tableColumn ?_
    rintro ⟨property, i⟩ member notKey
    exact valid.column_ne (List.mem_of_getElem? (List.mk_mem_zipIdx_iff_getElem?.mp member)) notKey
  refine ⟨{ target.table with rows := target.table.rows.set target.row cells }, cells, target.row,
    ?_, List.getElem?_set_self (List.getElem?_eq_some_iff.mp held).1, empty,
    upsert cells isOld, ?_⟩
  · simp only [create, opened, ran, populated]
  · intro property member
    cases isKey : property.isPrimary with
    | true =>
        obtain rfl := (valid.isPrimary property member).mp isKey
        rw [primaryValue_of_complete valid complete, Except.ok.injEq, ← isOld] at keyed
        exact keyed.symm
    | false =>
        obtain ⟨i, atIndex⟩ := List.mem_iff_getElem?.mp member
        exact wrote (property, i) (List.mk_mem_zipIdx_iff_getElem?.mpr atIndex) isKey

end Create

end Object

/-! ### The class Note -/

namespace Note

def photoIdProperty : Property :=
  { name := "photoId", type := .string, isPrimary := true, tableColumn := 0 }

def hasNoteProperty : Property := { name := "hasNote", type := .bool, tableColumn := 1 }

def noteTitleProperty : Property :=
  { name := "noteTitle", type := .string, isNullable := true, tableColumn := 2 }

def noteDetailProperty : Property :=
  { name := "noteDetail", type := .string, isNullable := true, tableColumn := 3 }

def objectSchema : ObjectSchema where
  name := "Note"
  persistedProperties := [photoIdProperty, hasNoteProperty, noteTitleProperty, noteDetailProperty]
  primaryKey := "photoId"

/-- The value of a property, with `NSNull` for a `nil`. -/
def propertyValue (self : Note) (property : Property) : PropertyValue :=
  match property.name with
  | "photoId" => .string self.photoId
  | "hasNote" => .bool self.hasNote
  | "noteTitle" => self.noteTitle.elim .null .string
  | "noteDetail" => self.noteDetail.elim .null .string
  | _ => .null

/-- `RLMAccessorContext`, for a note that no Realm manages yet: it has a value for each of
its properties. The defaults are those values of a new note that are not `nil`. -/
def accessorContext : AccessorContext Note where
  valueForProperty note property _ := some (note.propertyValue property)
  defaultValueForProperty property :=
    match ({} : Note).propertyValue property with
    | .null => none
    | value => some value

theorem valid_objectSchema : objectSchema.Valid photoIdProperty where
  columns := by decide
  named := rfl
  isPrimary := by decide

theorem complete (note : Note) :
    Object.Complete accessorContext objectSchema note note.propertyValue where
  given _ _ _ := rfl
  allowed property member isNull := by
    simp only [objectSchema, List.mem_cons, List.not_mem_nil, or_false] at member
    rcases member with rfl | rfl | rfl | rfl
    · cases isNull
    · cases isNull
    · rfl
    · rfl

/-- A new row: the columns that allow null hold it. -/
def emptyRow : Row
  | 0 => .string ""
  | 1 => .bool false
  | _ => .null

/-- The notes of a phone that has none. -/
def emptyTable : Table := ⟨[], emptyRow⟩

end Note

/-! ### Runs of the store -/

/-- `RLMUpdatePolicy` -/
inductive UpdatePolicy where
  | error
  | updateChanged
  | updateAll
  deriving DecidableEq, Repr

inductive StoreEvent (α : Type*) where
  | beginTransaction
  | create (value : α) (policy : UpdatePolicy)
  | commitTransaction (commit : CommitOutcome)
  | cancelTransaction

namespace SharedRealm

open TransitionSystem

variable {α : Type*} (ctx : AccessorContext α) (schema : ObjectSchema)

/-- What is thrown leaves the Realm as it is then, and the caller may go on with it. -/
def step (self : SharedRealm) : StoreEvent α → Option SharedRealm
  | .beginTransaction => some (self.beginTransaction.toOption.getD self)
  | .create value policy =>
      some (Object.create ctx self schema value (policy ≠ .error) (policy = .updateChanged)
        none).1
  | .commitTransaction commit => some ((self.commitTransaction commit).toOption.getD self)
  | .cancelTransaction => some (self.cancelTransaction.toOption.getD self)

variable {ctx schema} {primary : Property} {start s s' : SharedRealm} {e : StoreEvent α}

/-- The primary keys of the rows, in their order. -/
def keys (primary : Property) (table : Table) : List PropertyValue :=
  table.rows.map (Object.key primary)

/-- No two rows have one primary key, and each row stands where it stood, in the
working copy too. -/
structure Keyed (primary : Property) (start s : SharedRealm) : Prop where
  settled : s.isInMigration = false
  distinct : (keys primary s.group.current).Nodup
  stays : keys primary start.group.committed <+: keys primary s.group.committed
  grows : keys primary s.group.committed <+: keys primary s.group.current

theorem keyed_step (valid : schema.Valid primary) (keyed : Keyed primary start s)
    (taken : s.step ctx schema e = some s') : Keyed primary start s' := by
  cases e with
  | beginTransaction =>
      obtain rfl := Option.some.inj taken
      by_cases idle : s.group.Idle
      · have same := Versioned.current_of_idle idle
        simp only [beginTransaction, Versioned.begin_of_idle idle, Except.toOption,
          Option.getD_some]
        exact ⟨keyed.settled, same ▸ keyed.distinct, keyed.stays, List.prefix_rfl⟩
      · simp only [beginTransaction, Versioned.begin_of_not_idle idle, Except.toOption,
          Option.getD_none]
        exact keyed
  | create value policy =>
      obtain rfl := Option.some.inj taken
      rcases Object.create_cases valid keyed.settled with
        same | ⟨before, after, cells, opened, upsert, -, same⟩
      · rw [same]
        exact keyed
      · have current : s.group.current = before := by simp [Versioned.current, opened]
        have distinct := keyed.distinct
        have grows := keyed.grows
        rw [current] at distinct grows
        rw [same]
        exact ⟨keyed.settled, upsert.distinct distinct, keyed.stays,
          grows.trans upsert.map_key_prefix⟩
  | commitTransaction commit =>
      obtain rfl := Option.some.inj taken
      cases opened : s.isInTransaction with
      | false =>
          simp only [commitTransaction, opened, Bool.false_eq_true, if_false, Except.toOption,
            Option.getD_none]
          exact keyed
      | true =>
          cases commit with
          | throws =>
              simp only [commitTransaction, opened, if_true, Except.toOption, Option.getD_none]
              exact keyed
          | succeeds =>
              simp only [commitTransaction, opened, if_true, Except.toOption, Option.getD_some]
              exact ⟨keyed.settled, keyed.distinct, keyed.stays.trans keyed.grows,
                List.prefix_rfl⟩
  | cancelTransaction =>
      obtain rfl := Option.some.inj taken
      cases opened : s.isInTransaction with
      | false =>
          simp only [cancelTransaction, opened, Bool.false_eq_true, if_false, Except.toOption,
            Option.getD_none]
          exact keyed
      | true =>
          simp only [cancelTransaction, opened, if_true, Except.toOption, Option.getD_some]
          exact ⟨keyed.settled, keyed.grows.sublist.nodup keyed.distinct, keyed.stays,
            List.prefix_rfl⟩

theorem keyed_of_run (valid : schema.Valid primary)
    {history : List (Transition SharedRealm (StoreEvent α))}
    (run : Run (step ctx schema) start history s) (settled : start.isInMigration = false)
    (idle : start.group.Idle) (distinct : (keys primary start.group.committed).Nodup) :
    Keyed primary start s := by
  have initial : Keyed primary start start := by
    have same := Versioned.current_of_idle idle
    refine ⟨settled, ?_, List.prefix_rfl, ?_⟩
    · rw [same]
      exact distinct
    · rw [same]
  exact run.always initial fun _ _ _ before taken => keyed_step valid before taken

/-- Whatever is created, whichever policy it has and whatever is thrown, along a run no
two rows come to have one primary key, and each committed row keeps its place and key. -/
theorem keys_of_run (valid : schema.Valid primary)
    {history : List (Transition SharedRealm (StoreEvent α))}
    (run : Run (step ctx schema) start history s) (settled : start.isInMigration = false)
    (idle : start.group.Idle) (distinct : (keys primary start.group.committed).Nodup) :
    (keys primary s.group.current).Nodup ∧ (keys primary s.group.committed).Nodup ∧
      keys primary start.group.committed <+: keys primary s.group.committed := by
  have keyed := keyed_of_run valid run settled idle distinct
  exact ⟨keyed.distinct, keyed.grows.sublist.nodup keyed.distinct, keyed.stays⟩

/-- A note is added, added again in part of the same transaction, and a third time in one
that is cancelled. -/
def addedTwice : List (StoreEvent Note) :=
  [.beginTransaction, .create { photoId := "a", hasNote := true } .updateAll,
    .create { photoId := "a", hasNote := true, noteTitle := some "Sunset" } .updateChanged,
    .commitTransaction .succeeds, .beginTransaction, .create { photoId := "b" } .updateAll,
    .cancelTransaction]

theorem keys_of_run_addedTwice :
    ∃ history s,
      play (step Note.accessorContext Note.objectSchema) ⟨⟨Note.emptyTable, none⟩, false⟩
        addedTwice = some (history, s) ∧
      s.group.committed.rows.length = 1 ∧
      (keys Note.photoIdProperty s.group.current).Nodup ∧
      (keys Note.photoIdProperty s.group.committed).Nodup ∧
      keys Note.photoIdProperty Note.emptyTable <+: keys Note.photoIdProperty s.group.committed := by
  have plays : play (step Note.accessorContext Note.objectSchema)
    ⟨⟨Note.emptyTable, none⟩, false⟩ addedTwice = some (_, _) := rfl
  exact ⟨_, _, plays, rfl,
    keys_of_run Note.valid_objectSchema (run_of_play plays) rfl rfl List.nodup_nil⟩

/-! ### Accessors -/

/-- Unless a transaction is cancelled, a step leaves every row its place and key, also a row
that has not been committed. -/
theorem keys_current_step (valid : schema.Valid primary) (settled : s.isInMigration = false)
    (uncancelled : e ≠ .cancelTransaction) (taken : s.step ctx schema e = some s') :
    keys primary s.group.current <+: keys primary s'.group.current := by
  cases e with
  | beginTransaction =>
      obtain rfl := Option.some.inj taken
      by_cases idle : s.group.Idle
      · simp only [beginTransaction, Versioned.begin_of_idle idle, Except.toOption,
          Option.getD_some, Versioned.current_of_idle idle]
        exact List.prefix_rfl
      · simp only [beginTransaction, Versioned.begin_of_not_idle idle, Except.toOption,
          Option.getD_none]
        exact List.prefix_rfl
  | create value policy =>
      obtain rfl := Option.some.inj taken
      rcases Object.create_cases valid settled with
        same | ⟨before, after, cells, opened, upsert, -, same⟩
      · rw [same]
      · have current : s.group.current = before := by simp [Versioned.current, opened]
        rw [same, current]
        exact upsert.map_key_prefix
  | commitTransaction commit =>
      obtain rfl := Option.some.inj taken
      cases opened : s.isInTransaction with
      | false => simp [commitTransaction, opened, Except.toOption]
      | true => cases commit <;>
          simp [commitTransaction, opened, Except.toOption, Versioned.commit, Versioned.current]
  | cancelTransaction => exact absurd rfl uncancelled

/-- A row that is found for a key, also in an open transaction, is found for it later in any
run that cancels nothing, and after a run from an idle Realm even if it does: an accessor
keeps reading the object it was made for, as the object then is. -/
theorem getForPrimaryKey_of_run (valid : schema.Valid primary)
    {history : List (Transition SharedRealm (StoreEvent α))}
    (run : Run (step ctx schema) start history s) (keyed : Keyed primary start start)
    (kept : start.group.Idle ∨ ∀ t ∈ history, t.event ≠ .cancelTransaction)
    {k : PropertyValue} {row : Nat}
    (found : Object.getForPrimaryKey start schema k = .ok (some row)) :
    Object.getForPrimaryKey s schema k = .ok (some row) ∧
      s.group.current.rows[row]? = lookup (Object.key primary) s.group.current.rows k := by
  have grows : keys primary start.group.current <+: keys primary s.group.current := by
    rcases kept with idle | uncancelled
    · have now := run.always keyed fun _ _ _ before taken => keyed_step valid before taken
      rw [Versioned.current_of_idle idle]
      exact now.stays.trans now.grows
    · have now := run.invariant (P := fun s => Keyed primary start s ∧
          keys primary start.group.current <+: keys primary s.group.current)
        ⟨keyed, List.prefix_rfl⟩
        (fun _ _ _ goesOn before taken => ⟨keyed_step valid before.1 taken,
          before.2.trans (keys_current_step valid before.1.settled goesOn taken)⟩) uncancelled
      exact now.2
  simp only [Object.getForPrimaryKey, valid.named, Object.getForPrimaryKeyImpl] at found ⊢
  split_ifs at found ⊢ with isNull
  have isFound := findFirst_of_prefix grows (Except.ok.inj found)
  exact ⟨congrArg Except.ok isFound, (lookup_eq_getElem? isFound).symm⟩

/-- A note has been added and not committed. -/
def oneAdded : SharedRealm :=
  ⟨⟨Note.emptyTable, some ⟨[Function.update Note.emptyRow 0 (.string "a")], Note.emptyRow⟩⟩,
    false⟩

/-- It is added again, another one as well, and the commit fails. -/
def addedAndFailed : List (StoreEvent Note) :=
  [.create { photoId := "a", hasNote := true, noteTitle := some "Sunset" } .updateAll,
    .create { photoId := "b" } .error, .commitTransaction .throws]

theorem getForPrimaryKey_of_run_addedAndFailed :
    ∃ history s,
      play (step Note.accessorContext Note.objectSchema) oneAdded addedAndFailed =
        some (history, s) ∧
      Object.getForPrimaryKey s Note.objectSchema (.string "a") = .ok (some 0) ∧
      s.group.current.rows[0]? =
        lookup (Object.key Note.photoIdProperty) s.group.current.rows (.string "a") := by
  have plays : play (step Note.accessorContext Note.objectSchema) oneAdded addedAndFailed =
    some (_, _) := rfl
  have keyed : Keyed Note.photoIdProperty oneAdded oneAdded :=
    ⟨rfl, List.nodup_singleton _, List.prefix_rfl, List.nil_prefix⟩
  exact ⟨_, _, plays, getForPrimaryKey_of_run Note.valid_objectSchema (run_of_play plays) keyed
    (Or.inr (by simp)) (by decide)⟩

/-- The same event with the policy that writes every property. -/
def writingAll : StoreEvent α → StoreEvent α
  | .create value .updateChanged => .create value .updateAll
  | e => e

theorem step_writingAll (valid : schema.Valid primary) :
    s.step ctx schema (writingAll e) = s.step ctx schema e := by
  cases e with
  | create value policy =>
      cases policy with
      | updateChanged =>
          have same := @Object.create_eq _ ctx _ value _ valid s true true none
          exact congrArg (fun created => some created.1) same.symm
      | _ => rfl
  | _ => rfl

/-- Writing only what differs leads to the same Realm as writing every property. -/
theorem run_writingAll (valid : schema.Valid primary)
    {history : List (Transition SharedRealm (StoreEvent α))}
    (run : Run (step ctx schema) start history s) :
    Run (step ctx schema) start (history.map fun t => { t with event := writingAll t.event })
      s := by
  induction run with
  | nil => exact .nil
  | snoc _ taken ih =>
      rw [List.map_append, List.map_singleton]
      exact ih.snoc ((step_writingAll valid).trans taken)

theorem run_writingAll_addedTwice :
    ∃ history s,
      play (step Note.accessorContext Note.objectSchema) ⟨⟨Note.emptyTable, none⟩, false⟩
        addedTwice = some (history, s) ∧
      Run (step Note.accessorContext Note.objectSchema) ⟨⟨Note.emptyTable, none⟩, false⟩
        (history.map fun t => { t with event := writingAll t.event }) s := by
  have plays : play (step Note.accessorContext Note.objectSchema)
    ⟨⟨Note.emptyTable, none⟩, false⟩ addedTwice = some (_, _) := rfl
  exact ⟨_, _, plays, run_writingAll Note.valid_objectSchema (run_of_play plays)⟩

end SharedRealm

end Phonotes
