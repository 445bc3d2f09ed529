import Phonotes.TableMigration

/-!
Opening the file: `update_schema` of `shared_realm.cpp` and the passes of `object_store.cpp`.

The app opens its file in the automatic mode and without a migration block. A new file gets
its tables, an old one of the same version may get more of them and its indexes, and one of
an earlier version is migrated in two passes. Whatever was in the file, a success leaves the
classes of the app's schema as the schema has them, so the next launch finds nothing to do.
-/

namespace Phonotes

namespace FileSchema

open KeyedRows Sequences

/-! ### The file -/

/-- A file with the tables of the classes, the rows of its table `pk` and the version in its
table `metadata`, where `none` is `NotVersioned`. -/
structure Group where
  tables : List Table := []
  primaryKeys : List (String × String) := []
  schemaVersion : Option Nat := none

/-- What the headers of the sync library leave open about the tables that it creates: whether
there is a column for object IDs in the file, and whether a primary key gets an index. -/
structure SyncTables where
  hasObjectIdColumn : Bool := false
  indexesPrimaryKey : Bool := true

namespace Group

variable (sync : SyncTables)

/-- `table_for_object_type` -/
def tableForObjectType (self : Group) (objectType : String) : Option Table :=
  lookup Table.name self.tables objectType

def getPrimaryKeyForObject (self : Group) (objectType : String) : String :=
  (lookup Prod.fst self.primaryKeys objectType).elim "" Prod.snd

def setPrimaryKeyForObject (self : Group) (objectType primaryKey : String) : Group :=
  match findFirst Prod.fst self.primaryKeys objectType with
  | none =>
      if primaryKey = "" then self
      else { self with primaryKeys := self.primaryKeys ++ [(objectType, primaryKey)] }
  | some row =>
      if primaryKey = "" then { self with primaryKeys := moveLastOver self.primaryKeys row }
      else { self with primaryKeys := self.primaryKeys.set row (objectType, primaryKey) }

/-- The table that `sync::create_table` or `sync::create_table_with_primary_key` makes. -/
def newTable (object : ObjectSchema) : Table where
  name := object.name
  columns :=
    (if sync.hasObjectIdColumn then [⟨"!OID", .int, false, false, []⟩] else []) ++
      object.primaryKeyProperty.elim [] fun pkProperty =>
        [{ pkProperty.newColumn 0 with hasSearchIndex := sync.indexesPrimaryKey }]
  size := 0
  full := by
    intro column member
    rcases List.mem_append.mp member with isId | isKey
    · split_ifs at isId
      · rw [List.mem_singleton.mp isId]
        rfl
      · cases isId
    · cases found : object.primaryKeyProperty with
      | none =>
          rw [found] at isKey
          cases isKey
      | some pkProperty =>
          rw [found] at isKey
          rw [List.mem_singleton.mp isKey]
          rfl

/-- `create_table`. A table that is there already stays as it is, as with
`get_or_add_table`: the second pass asks for it again. -/
def createTable (self : Group) (object : ObjectSchema) : Group :=
  match self.tableForObjectType object.name with
  | some _ => self
  | none =>
      let group := { self with tables := self.tables ++ [newTable sync object] }
      object.primaryKeyProperty.elim group fun pkProperty =>
        group.setPrimaryKeyForObject object.name pkProperty.name

def modifyTable (self : Group) (name : String) (f : Table → Table) : Group :=
  { self with tables := self.tables.map fun table => if table.name = name then f table else table }

/-- The applier of `create_initial_tables`. -/
def apply (self : Group) : SchemaChange → Group
  | .addTable object => self.createTable sync object
  | .changePrimaryKey object property =>
      self.setPrimaryKeyForObject object.name (property.elim "" fun property => property.name)
  | c => self.modifyTable c.object.name fun table => table.apply c

end Group

/-- `schema_from_group` -/
def schemaFromGroup (group : Group) : Schema :=
  Schema.ofList ((group.tables.filter fun table => table.name ≠ "").map fun table =>
    table.objectSchema (group.getPrimaryKeyForObject table.name))

/-! ### Errors -/

/-- `LogicError::ErrorKind`, as far as an update meets it. -/
inductive LogicErrorKind where
  | tableNameTooLong
  | columnNameTooLong
  deriving DecidableEq, Repr

/-- The exceptions of `object_store.cpp` that an update throws, and core's `LogicError`. -/
inductive SchemaError where
  | schemaValidation (errors : List String)
  | invalidSchemaVersion (oldVersion newVersion : Nat)
  | schemaMismatch (errors : List String)
  | duplicatePrimaryKeyValue (objectType property : String)
  | logicError (kind : LogicErrorKind)
  deriving DecidableEq, Repr

/-- The text of a `LogicError` is in the library. -/
def SchemaError.what : SchemaError → Option String
  | schemaValidation errors =>
      some (errors.foldl (fun message error => message ++ "\n- " ++ error)
        "Schema validation failed due to the following errors:")
  | invalidSchemaVersion oldVersion newVersion =>
      some ("Provided schema version " ++ toString newVersion ++
        " is less than last set version " ++ toString oldVersion ++ ".")
  | schemaMismatch errors =>
      some (errors.foldl (fun message error => message ++ "\n- " ++ error)
        "Migration is required due to the following errors:")
  | duplicatePrimaryKeyValue objectType property =>
      some ("Primary key property '" ++ objectType ++ "." ++ property ++
        "' has duplicate values after migration.")
  | logicError _ => none

/-- `SchemaDifferenceExplainer` -/
def SchemaChange.explain : SchemaChange → List String
  | addTable object => ["Class '" ++ object.name ++ "' has been added."]
  | addInitialProperties _ => []
  | addProperty object property =>
      ["Property '" ++ object.name ++ "." ++ property.name ++ "' has been added."]
  | removeProperty object property =>
      ["Property '" ++ object.name ++ "." ++ property.name ++ "' has been removed."]
  | changePropertyType object oldProperty newProperty =>
      ["Property '" ++ object.name ++ "." ++ newProperty.name ++ "' has been changed from '" ++
        oldProperty.typeString ++ "' to '" ++ newProperty.typeString ++ "'."]
  | makePropertyNullable object property =>
      ["Property '" ++ object.name ++ "." ++ property.name ++ "' has been made optional."]
  | makePropertyRequired object property =>
      ["Property '" ++ object.name ++ "." ++ property.name ++ "' has been made required."]
  | changePrimaryKey object property =>
      match property with
      | some property =>
          if object.primaryKey ≠ "" then
            ["Primary Key for class '" ++ object.name ++ "' has changed from '" ++
              object.primaryKey ++ "' to '" ++ property.name ++ "'."]
          else ["Primary Key for class '" ++ object.name ++ "' has been added."]
      | none => ["Primary Key for class '" ++ object.name ++ "' has been removed."]
  | addIndex object property =>
      ["Property '" ++ object.name ++ "." ++ property.name ++ "' has been made indexed."]
  | removeIndex object property =>
      ["Property '" ++ object.name ++ "." ++ property.name ++ "' has been made unindexed."]

/-- The changes that a file of the same version may be given. -/
def SchemaChange.isAutomatic : SchemaChange → Bool
  | addTable _ => true
  | addInitialProperties _ => true
  | addIndex _ _ => true
  | removeIndex _ _ => true
  | _ => false

/-! ### Names -/

def maxTableNameLength : Nat := 63

def maxColumnNameLength : Nat := 63

def tableNameForObjectType (objectType : String) : String := "class_" ++ objectType

/-- The names of the tables that a change asks core for. -/
def SchemaChange.tableNames : SchemaChange → List String
  | addTable object => [tableNameForObjectType object.name]
  | _ => []

/-- The names of the columns that a change asks core for. -/
def SchemaChange.columnNames : SchemaChange → List String
  | addTable object => object.primaryKeyProperty.elim [] fun pkProperty => [pkProperty.name]
  | addInitialProperties object =>
      (object.persistedProperties.filter fun prop => !prop.isPrimary).map fun prop => prop.name
  | addProperty _ property => [property.name]
  | changePropertyType _ _ newProperty => [newProperty.name]
  | makePropertyNullable _ property => [property.name]
  | makePropertyRequired _ property => [property.name]
  | _ => []

/-- What core throws for the names of a change. -/
def SchemaChange.nameError (self : SchemaChange) : Option LogicErrorKind :=
  if ∃ name ∈ self.tableNames, maxTableNameLength < name.utf8ByteSize then some .tableNameTooLong
  else if ∃ name ∈ self.columnNames, maxColumnNameLength < name.utf8ByteSize then
    some .columnNameTooLong
  else none

/-- The applier at a change, which core may not take. -/
def Group.visit (sync : SyncTables) (self : Group) (c : SchemaChange) : Except SchemaError Group :=
  match c.nameError with
  | some kind => .error (.logicError kind)
  | none => .ok (self.apply sync c)

/-! ### The passes -/

section Passes

variable (sync : SyncTables)

def createInitialTables (group : Group) (changes : List SchemaChange) : Except SchemaError Group :=
  changes.foldlM (Group.visit sync) group

/-- Every change is visited, and what is not supported is an error in the end. -/
def applyNonMigrationChanges (group : Group) (changes : List SchemaChange) :
    Except SchemaError Group := do
  let (group, errors) ← changes.foldlM (fun (group, errors) c =>
    if c.isAutomatic then (group.visit sync c).map fun group => (group, errors)
    else .ok (group, errors ++ c.explain)) (group, [])
  if errors ≠ [] then .error (.schemaMismatch errors) else .ok group

/-- The removals are left for the second pass. -/
def applyPreMigrationChanges (group : Group) (changes : List SchemaChange) :
    Except SchemaError Group :=
  changes.foldlM (fun group c =>
    match c with
    | .removeProperty _ _ => .ok group
    | c => group.visit sync c) group

/-- As many distinct values as rows. -/
def validatePrimaryColumnUniqueness (group : Group) (objectType primaryProperty : String) :
    Except SchemaError Unit :=
  match group.tableForObjectType objectType with
  | none => .ok ()
  | some table =>
      match table.columns.find? fun column => column.name = primaryProperty with
      | none => .ok ()
      | some column =>
          if column.values.dedup.length ≠ table.size then
            .error (.duplicatePrimaryKeyValue objectType primaryProperty)
          else .ok ()

/-- The second pass, for a schema that was not read again. -/
def applyPostMigrationChanges (group : Group) :
    List SchemaChange → Except SchemaError Group
  | [] => .ok group
  | .changePrimaryKey object (some property) :: changes =>
      match validatePrimaryColumnUniqueness group object.name property.name with
      | .error e => .error e
      | .ok () => applyPostMigrationChanges group changes
  | .addTable object :: changes =>
      match group.visit sync (.addTable object) with
      | .error e => .error e
      | .ok group => applyPostMigrationChanges group changes
  | .removeProperty object property :: changes =>
      applyPostMigrationChanges (group.apply sync (.removeProperty object property)) changes
  | .addIndex object property :: changes =>
      applyPostMigrationChanges (group.apply sync (.addIndex object property)) changes
  | .removeIndex object property :: changes =>
      applyPostMigrationChanges (group.apply sync (.removeIndex object property)) changes
  | _ :: changes => applyPostMigrationChanges group changes

/-- `apply_schema_changes` in the automatic mode, without a migration function. -/
def applySchemaChanges (group : Group) (targetSchemaVersion : Nat)
    (changes : List SchemaChange) : Except SchemaError Group :=
  match group.schemaVersion with
  | none => do
      let group ← createInitialTables sync group changes
      return { group with schemaVersion := some targetSchemaVersion }
  | some schemaVersion =>
      if schemaVersion = targetSchemaVersion then applyNonMigrationChanges sync group changes
      else do
        let group ← applyPreMigrationChanges sync group changes
        let group ← applyPostMigrationChanges sync group changes
        return { group with schemaVersion := some targetSchemaVersion }

/-- `copy_table_columns_from` for one class. -/
def copyColumns (existing other : ObjectSchema) : ObjectSchema :=
  other.persistedProperties.foldl (fun existing current =>
    { existing with
      persistedProperties := existing.persistedProperties.map fun targetProp =>
        if targetProp.name = current.name then
          { targetProp with tableColumn := current.tableColumn }
        else targetProp }) existing

/-- `copy_table_columns_from` -/
def Schema.copyTableColumnsFrom (self other : Schema) : List ObjectSchema :=
  (other.pairs self).filterMap fun
    | (some existing, some other) => some (copyColumns existing other)
    | (existing, _) => existing

/-- `set_schema_columns` for one class. -/
def setColumns (group : Group) (object : ObjectSchema) : ObjectSchema :=
  match group.tableForObjectType object.name with
  | none => object
  | some table =>
      { object with
        persistedProperties := object.persistedProperties.map fun property =>
          { property with
            tableColumn := table.columns.findIdx fun column => column.name = property.name } }

/-- `update_schema` in the automatic mode, without a migration function, and the classes
that the Realm goes on with. An exception cancels the write transaction. -/
def updateSchema (group : Group) (schema : Schema) (version : Nat) :
    Except SchemaError (Group × List ObjectSchema) :=
  let exceptions := schema.validate
  if exceptions ≠ [] then .error (.schemaValidation exceptions)
  else
    let actualSchema := schemaFromGroup group
    let requiredChanges := actualSchema.compare schema
    if group.schemaVersion = some version ∧ requiredChanges = [] then
      .ok (group, schema.copyTableColumnsFrom actualSchema)
    else
      match group.schemaVersion.filter fun schemaVersion => version < schemaVersion with
      | some schemaVersion => .error (.invalidSchemaVersion schemaVersion version)
      | none =>
          match applySchemaChanges sync group version requiredChanges with
          | .error e => .error e
          | .ok group => .ok (group, schema.objects.map (setColumns group))

end Passes

/-! ### One class in the file -/

section Class

variable {sync : SyncTables}

/-- No class has two tables or two primary keys. -/
structure Group.Indexed (group : Group) : Prop where
  tables : Distinct Table.name group.tables
  primaryKeys : Distinct Prod.fst group.primaryKeys

/-- The table of a class and its primary key. -/
def Group.classOf (self : Group) (name : String) : Option Table × String :=
  (self.tableForObjectType name, self.getPrimaryKeyForObject name)

/-- What a change makes of its class. -/
def applyClass (sync : SyncTables) (held : Option Table × String) :
    SchemaChange → Option Table × String
  | .addTable object =>
      match held.1 with
      | some _ => held
      | none => (some (Group.newTable sync object),
          object.primaryKeyProperty.elim held.2 fun pkProperty => pkProperty.name)
  | .changePrimaryKey _ property => (held.1, property.elim "" fun property => property.name)
  | c => (held.1.map fun table => table.apply c, held.2)

namespace Group

variable {group : Group}

theorem tables_setPrimaryKeyForObject (objectType primaryKey : String) :
    (group.setPrimaryKeyForObject objectType primaryKey).tables = group.tables := by
  unfold setPrimaryKeyForObject
  split
  · split_ifs <;> rfl
  · split_ifs <;> rfl

theorem upsert_of_setPrimaryKeyForObject {objectType primaryKey : String}
    (hasKey : primaryKey ≠ "") :
    Upsert Prod.fst (objectType, primaryKey) group.primaryKeys
      (group.setPrimaryKeyForObject objectType primaryKey).primaryKeys := by
  unfold setPrimaryKeyForObject
  cases found : findFirst Prod.fst group.primaryKeys objectType with
  | none =>
      simp only [if_neg hasKey]
      exact Upsert.added found
  | some row =>
      simp only [if_neg hasKey]
      exact Upsert.changed found

theorem getPrimaryKeyForObject_set (indexed : group.Indexed) (objectType primaryKey name : String) :
    (group.setPrimaryKeyForObject objectType primaryKey).getPrimaryKeyForObject name =
      if name = objectType then primaryKey else group.getPrimaryKeyForObject name := by
  by_cases hasKey : primaryKey = ""
  · subst hasKey
    unfold setPrimaryKeyForObject getPrimaryKeyForObject
    cases found : findFirst Prod.fst group.primaryKeys objectType with
    | none =>
        simp only [if_true]
        split_ifs with same
        · rw [same, lookup_eq_none_iff.mpr (findFirst_eq_none_iff.mp found)]
          rfl
        · rfl
    | some row =>
        simp only [if_true]
        rw [lookup_moveLastOver indexed.primaryKeys found]
        split_ifs <;> rfl
  · unfold getPrimaryKeyForObject
    rw [(upsert_of_setPrimaryKeyForObject hasKey).lookup_eq, Function.update_apply]
    split_ifs <;> rfl

theorem indexed_setPrimaryKeyForObject (indexed : group.Indexed) (objectType primaryKey : String) :
    (group.setPrimaryKeyForObject objectType primaryKey).Indexed := by
  refine ⟨by rw [tables_setPrimaryKeyForObject]; exact indexed.tables, ?_⟩
  by_cases hasKey : primaryKey = ""
  · subst hasKey
    unfold setPrimaryKeyForObject
    cases found : findFirst Prod.fst group.primaryKeys objectType with
    | none => exact indexed.primaryKeys
    | some row =>
        obtain ⟨old, held, -⟩ := getElem?_findFirst found
        exact distinct_moveLastOver indexed.primaryKeys (List.getElem?_eq_some_iff.mp held).1
  · exact (upsert_of_setPrimaryKeyForObject hasKey).distinct indexed.primaryKeys

theorem classOf_setPrimaryKeyForObject (indexed : group.Indexed)
    (objectType primaryKey name : String) :
    (group.setPrimaryKeyForObject objectType primaryKey).classOf name =
      if objectType = name then (group.tableForObjectType name, primaryKey)
      else group.classOf name := by
  unfold classOf tableForObjectType
  rw [tables_setPrimaryKeyForObject, getPrimaryKeyForObject_set indexed]
  by_cases same : objectType = name
  · rw [if_pos same, if_pos same.symm]
  · rw [if_neg same, if_neg (Ne.symm same)]

theorem classOf_modifyTable {f : Table → Table} (keeps : ∀ table, (f table).name = table.name)
    (objectType name : String) :
    (group.modifyTable objectType f).classOf name =
      if objectType = name then
        ((group.tableForObjectType name).map f, group.getPrimaryKeyForObject name)
      else group.classOf name := by
  have keepsAll (table : Table) :
      (if table.name = objectType then f table else table).name = table.name := by
    split_ifs
    · exact keeps table
    · rfl
  have found : (group.modifyTable objectType f).tableForObjectType name =
      if objectType = name then (group.tableForObjectType name).map f
      else group.tableForObjectType name := by
    unfold tableForObjectType modifyTable
    rw [lookup_map keepsAll]
    cases held : lookup Table.name group.tables name with
    | none => split_ifs <;> rfl
    | some table =>
        have named := List.find?_some held
        have isNamed : table.name = name := of_decide_eq_true named
        simp only [Option.map_some, isNamed, eq_comm (a := objectType)]
        split_ifs <;> rfl
  unfold classOf
  rw [found]
  split_ifs <;> rfl

theorem indexed_modifyTable {f : Table → Table} (keeps : ∀ table, (f table).name = table.name)
    (indexed : group.Indexed) (objectType : String) : (group.modifyTable objectType f).Indexed := by
  refine ⟨?_, indexed.primaryKeys⟩
  have names : (group.modifyTable objectType f).tables.map Table.name =
      group.tables.map Table.name := by
    rw [modifyTable, List.map_map]
    apply List.map_congr_left
    intro table _
    simp only [Function.comp_apply]
    split_ifs
    · exact keeps table
    · rfl
  have distinct := indexed.tables
  unfold Distinct at distinct ⊢
  rwa [names]

/-- The group with one more table. -/
theorem indexed_addTable (indexed : group.Indexed) {object : ObjectSchema}
    (missing : group.tableForObjectType object.name = none) :
    ({ group with tables := group.tables ++ [newTable sync object] } : Group).Indexed := by
  refine ⟨?_, indexed.primaryKeys⟩
  have absent : findFirst Table.name group.tables (newTable sync object).name = none :=
    findFirst_eq_none_iff.mpr (lookup_eq_none_iff.mp missing)
  exact (Upsert.added absent).distinct indexed.tables

theorem classOf_addTable {object : ObjectSchema}
    (missing : group.tableForObjectType object.name = none) (name : String) :
    ({ group with tables := group.tables ++ [newTable sync object] } : Group).classOf name =
      if object.name = name then
        (some (newTable sync object), group.getPrimaryKeyForObject name)
      else group.classOf name := by
  have absent : findFirst Table.name group.tables (newTable sync object).name = none :=
    findFirst_eq_none_iff.mpr (lookup_eq_none_iff.mp missing)
  have isName : (newTable sync object).name = object.name := rfl
  unfold classOf tableForObjectType
  simp only [lookup_append absent, isName]
  by_cases same : object.name = name
  · rw [if_pos same, if_pos same.symm]
    rfl
  · rw [if_neg same, if_neg (Ne.symm same)]
    rfl

theorem indexed_apply (indexed : group.Indexed) (c : SchemaChange) :
    (group.apply sync c).Indexed := by
  cases c with
  | addTable object =>
      simp only [apply, createTable]
      cases missing : group.tableForObjectType object.name with
      | some table => exact indexed
      | none =>
          have grown : ({ group with tables := group.tables ++ [newTable sync object] } :
              Group).Indexed := indexed_addTable indexed missing
          cases object.primaryKeyProperty with
          | none => exact grown
          | some pkProperty => exact indexed_setPrimaryKeyForObject grown _ _
  | changePrimaryKey object property => exact indexed_setPrimaryKeyForObject indexed _ _
  | _ => exact indexed_modifyTable (fun table => Table.name_apply _) indexed _

/-- A change is one of its class only. -/
theorem classOf_apply (indexed : group.Indexed) (c : SchemaChange) (name : String) :
    (group.apply sync c).classOf name =
      if c.object.name = name then applyClass sync (group.classOf name) c
      else group.classOf name := by
  cases c with
  | addTable object =>
      rw [apply, createTable]
      change _ = if object.name = name then _ else _
      cases missing : group.tableForObjectType object.name with
      | some table =>
          by_cases same : object.name = name
          · subst same
            rw [if_pos rfl]
            simp only [applyClass, classOf, missing]
          · rw [if_neg same]
      | none =>
          have grown : ({ group with tables := group.tables ++ [newTable sync object] } :
              Group).Indexed := indexed_addTable indexed missing
          have added : ({ group with tables := group.tables ++ [newTable sync object] } :
              Group).classOf name = _ := classOf_addTable missing name
          cases isKey : object.primaryKeyProperty with
          | none =>
              simp only [Option.elim_none, added]
              by_cases same : object.name = name
              · subst same
                rw [if_pos rfl, if_pos rfl]
                simp only [applyClass, classOf, missing, isKey, Option.elim_none]
              · rw [if_neg same, if_neg same]
          | some pkProperty =>
              simp only [Option.elim_some]
              rw [classOf_setPrimaryKeyForObject grown]
              by_cases same : object.name = name
              · subst same
                rw [if_pos rfl] at added
                rw [if_pos rfl, if_pos rfl]
                simp only [applyClass, classOf, missing, isKey, Option.elim_some]
                have table := congrArg Prod.fst added
                exact Prod.ext table rfl
              · rw [if_neg same, if_neg same, added, if_neg same]
  | changePrimaryKey object property => exact classOf_setPrimaryKeyForObject indexed _ _ _
  | _ => exact classOf_modifyTable (fun table => Table.name_apply _) _ _

/-- A pass through the changes is, for every class, one through its own. -/
theorem classOf_foldl (indexed : group.Indexed) (changes : List SchemaChange) (name : String) :
    (changes.foldl (apply sync) group).classOf name =
        (changesFor changes name).foldl (applyClass sync) (group.classOf name) ∧
      (changes.foldl (apply sync) group).Indexed := by
  induction changes generalizing group with
  | nil => exact ⟨rfl, indexed⟩
  | cons c changes ih =>
      obtain ⟨same, stillIndexed⟩ := ih (indexed_apply indexed c)
      refine ⟨?_, stillIndexed⟩
      rw [List.foldl_cons, same, classOf_apply indexed, changesFor, changesFor, List.filter_cons]
      by_cases isHere : c.object.name = name
      · rw [if_pos isHere, if_pos (decide_eq_true isHere), List.foldl_cons]
      · rw [if_neg isHere, if_neg (by simpa using isHere)]

end Group

/-- The changes between two versions of a class, made to its table and its primary key. -/
theorem foldl_applyClass {existing object : ObjectSchema} {changes : List SchemaChange}
    (ofBoth : ∀ c ∈ changes, c ∈ compareObject existing object) (table : Table) (key : String) :
    changes.foldl (applyClass sync) (some table, key) =
      (some (changes.foldl Table.apply table),
        if .changePrimaryKey existing object.primaryKeyProperty ∈ changes then
          object.primaryKeyProperty.elim "" fun property => property.name
        else key) := by
  induction changes generalizing table key with
  | nil => rfl
  | cons c changes ih =>
      have member := ofBoth c List.mem_cons_self
      have once : applyClass sync (some table, key) c = (some (table.apply c),
          if c = .changePrimaryKey existing object.primaryKeyProperty then
            object.primaryKeyProperty.elim "" fun property => property.name
          else key) := by
        rcases cases_of_mem_compareObject member with ⟨current, -, isChange⟩ | keyed | ⟨_, -, rfl⟩
        · have place := (about_of_mem_compareProperty isChange).2
          cases c with
          | addTable new => cases place
          | changePrimaryKey new property => cases place
          | _ => rfl
        · rw [eq_of_mem_changedPrimaryKey keyed, if_pos rfl]
          rfl
        · rfl
      rw [List.foldl_cons, List.foldl_cons, once, ih fun c' later =>
        ofBoth c' (List.mem_cons_of_mem _ later)]
      by_cases isKey : c = .changePrimaryKey existing object.primaryKeyProperty
      · rw [if_pos isKey, if_pos (List.mem_cons.mpr (Or.inl isKey.symm)), ite_self]
      · rw [if_neg isKey]
        simp only [List.mem_cons, Ne.symm isKey, false_or]

/-- What a class has that is not in the file. -/
def Table.empty (name : String) : Table := ⟨name, [], 0, fun _ member => nomatch member⟩

/-- A new table has a column for object IDs, perhaps, and one for the primary key. -/
theorem Group.cases_of_mem_newTable {object : ObjectSchema} {column : Column}
    (member : column ∈ (newTable sync object).columns) :
    column.name = "!OID" ∨ ∃ property, object.primaryKeyProperty = some property ∧
      column = { property.newColumn 0 with hasSearchIndex := sync.indexesPrimaryKey } := by
  rcases List.mem_append.mp member with isId | isKey
  · split_ifs at isId
    · rw [List.mem_singleton.mp isId]
      exact Or.inl rfl
    · cases isId
  · cases found : object.primaryKeyProperty with
    | none =>
        rw [found] at isKey
        cases isKey
    | some property =>
        rw [found] at isKey
        exact Or.inr ⟨property, rfl, List.mem_singleton.mp isKey⟩

theorem Group.nodup_newTable {object : ObjectSchema} (sound : object.Sound) :
    ((newTable sync object).columns.map Column.name).Nodup := by
  cases found : object.primaryKeyProperty with
  | none =>
      cases hasId : sync.hasObjectIdColumn with
      | false => simp [newTable, found, hasId]
      | true => simp [newTable, found, hasId]
  | some property =>
      have visible := sound.visible property (sound.primaryKeyProperty_eq_some_iff.mp found).1
      cases hasId : sync.hasObjectIdColumn with
      | false => simp [newTable, found, hasId]
      | true => simp [newTable, found, hasId, Property.newColumn, Ne.symm visible]

theorem mem_addedColumns_iff {object : ObjectSchema} {size : Nat} {column : Column} :
    column ∈ addedColumns size (.addInitialProperties object) ↔
      ∃ property ∈ object.persistedProperties, property.isPrimary = false ∧
        property.newColumn size = column := by
  simp [addedColumns, and_assoc]

theorem nodup_addedColumns {object : ObjectSchema} (sound : object.Sound) (size : Nat) :
    ((addedColumns size (.addInitialProperties object)).map Column.name).Nodup := by
  have names : (addedColumns size (.addInitialProperties object)).map Column.name =
      (object.persistedProperties.filter fun prop => !prop.isPrimary).map
        fun prop => prop.name := by
    rw [addedColumns, List.map_map]
    rfl
  rw [names]
  exact sound.names.sublist (List.Sublist.map _ List.filter_sublist)

/-- A new table gets the columns of the properties as well. -/
theorem migrated_newTable {object : ObjectSchema} (sound : object.Sound)
    (indexes : sync.indexesPrimaryKey = true) :
    Migrated object (Table.empty object.name)
      ((Group.newTable sync object).addInitialColumns object) := by
  obtain ⟨columns, size, -⟩ :=
    @Table.columns_addInitialColumns (Group.newTable sync object) object
  have isNew (property : Property) :
      property.columnFrom (Table.empty object.name) = property.newColumn 0 := rfl
  have keyColumn {property : Property} (isPrimary : property.isPrimary = true) :
      { property.newColumn 0 with hasSearchIndex := sync.indexesPrimaryKey } =
        property.newColumn 0 := by
    simp only [Property.newColumn, Property.requiresIndex, indexes, isPrimary, Bool.true_or]
  refine ⟨size, ?_, ?_⟩
  · rw [columns, List.map_append, List.nodup_append]
    refine ⟨Group.nodup_newTable sound, nodup_addedColumns sound _, ?_⟩
    intro name inTable name' inAdded same
    obtain ⟨column, ofTable, rfl⟩ := List.mem_map.mp inTable
    obtain ⟨_, added, rfl⟩ := List.mem_map.mp inAdded
    obtain ⟨other, member, notPrimary, rfl⟩ := mem_addedColumns_iff.mp added
    rcases Group.cases_of_mem_newTable ofTable with isId | ⟨property, found, rfl⟩
    · exact sound.visible other member (same.symm.trans isId)
    · obtain ⟨inObject, isPrimary⟩ := sound.primaryKeyProperty_eq_some_iff.mp found
      have isOther : property = other :=
        List.inj_on_of_nodup_map sound.names inObject member same
      rw [isOther, notPrimary] at isPrimary
      cases isPrimary
  · intro column visible
    rw [columns, List.mem_append]
    constructor
    · rintro (ofTable | added)
      · rcases Group.cases_of_mem_newTable ofTable with isId | ⟨property, found, rfl⟩
        · exact absurd isId visible
        · obtain ⟨member, isPrimary⟩ := sound.primaryKeyProperty_eq_some_iff.mp found
          exact ⟨property, member, by rw [keyColumn isPrimary, isNew]⟩
      · obtain ⟨property, member, -, rfl⟩ := mem_addedColumns_iff.mp added
        exact ⟨property, member, (isNew property).symm⟩
    · rintro ⟨property, member, rfl⟩
      rw [isNew]
      cases isPrimary : property.isPrimary with
      | true =>
          have found := sound.primaryKeyProperty_eq_some_iff.mpr ⟨member, isPrimary⟩
          refine Or.inl (List.mem_append_right _ ?_)
          rw [found]
          exact List.mem_singleton.mpr (keyColumn isPrimary).symm
      | false => exact Or.inr (mem_addedColumns_iff.mpr ⟨property, member, isPrimary, rfl⟩)

end Class

/-! ### The schema of the file -/

/-- A file that only updates have written. -/
structure Group.WellFormed (group : Group) : Prop extends group.Indexed where
  columns : ∀ table ∈ group.tables, (table.columns.map Column.name).Nodup
  keyed : ∀ name, group.tableForObjectType name = none →
    group.getPrimaryKeyForObject name = ""
  versioned : group.schemaVersion = none → group.tables = []

section FileSchema

variable {group : Group}

theorem mem_schemaFromGroup_iff (indexed : group.Indexed) {existing : ObjectSchema} :
    existing ∈ (schemaFromGroup group).objects ↔ ∃ table,
      group.tableForObjectType existing.name = some table ∧ existing.name ≠ "" ∧
        existing = table.objectSchema (group.getPrimaryKeyForObject existing.name) := by
  rw [schemaFromGroup, Schema.ofList, List.mem_insertionSort, List.mem_map]
  constructor
  · rintro ⟨table, member, rfl⟩
    obtain ⟨inFile, named⟩ := List.mem_filter.mp member
    exact ⟨table, (lookup_eq_some_iff indexed.tables).mpr ⟨inFile, rfl⟩,
      of_decide_eq_true named, rfl⟩
  · rintro ⟨table, found, named, same⟩
    obtain ⟨inFile, isNamed⟩ := (lookup_eq_some_iff indexed.tables).mp found
    refine ⟨table, List.mem_filter.mpr ⟨inFile, decide_eq_true (isNamed ▸ named)⟩, ?_⟩
    rw [isNamed]
    exact same.symm

theorem pairwise_schemaFromGroup (indexed : group.Indexed) :
    (schemaFromGroup group).objects.Pairwise fun lft rgt => lft.name < rgt.name := by
  have distinct : ((schemaFromGroup group).objects.map ObjectSchema.name).Nodup := by
    rw [schemaFromGroup, Schema.ofList, ((List.perm_insertionSort _ _).map _).nodup_iff,
      List.map_map]
    exact indexed.tables.sublist (List.filter_sublist.map Table.name)
  exact ((schemaFromGroup group).sorted.and (List.pairwise_map.mp distinct)).imp
    fun ⟨le, differ⟩ => lt_of_le_of_ne le differ

variable {schema : Schema} {object : ObjectSchema}

/-- A class of the app that is paired with nothing has no table. -/
theorem tableForObjectType_of_alone (indexed : group.Indexed)
    (ascending : (schema.objects.map ObjectSchema.name).Pairwise (· < ·)) (named : object.name ≠ "")
    (paired : (some object, none) ∈ (schemaFromGroup group).pairs schema) :
    group.tableForObjectType object.name = none := by
  have alone := alone_of_mem_zipMatching (List.pairwise_map.mp ascending)
    (pairwise_schemaFromGroup indexed) paired
  cases found : group.tableForObjectType object.name with
  | none => rfl
  | some table =>
      have isNamed := ((lookup_eq_some_iff indexed.tables).mp found).2
      have inSchema : table.objectSchema (group.getPrimaryKeyForObject object.name) ∈
          (schemaFromGroup group).objects := by
        refine (mem_schemaFromGroup_iff indexed).mpr ⟨table, ?_, ?_, ?_⟩
        · rw [Table.objectSchema, isNamed]
          exact found
        · exact isNamed ▸ named
        · rw [Table.objectSchema, Table.objectSchema, isNamed]
      exact absurd isNamed (alone _ inSchema)

/-- A class of the app that is paired with one of the file has its table. -/
theorem tableForObjectType_of_paired (indexed : group.Indexed) {existing : ObjectSchema}
    (paired : (some object, some existing) ∈ (schemaFromGroup group).pairs schema) :
    ∃ table, group.tableForObjectType object.name = some table ∧
      existing = table.objectSchema (group.getPrimaryKeyForObject object.name) := by
  obtain ⟨-, inFile, same⟩ := key_of_mem_zipMatching paired
  obtain ⟨table, found, -, isTable⟩ := (mem_schemaFromGroup_iff indexed).mp inFile
  rw [same]
  exact ⟨table, found, isTable⟩

theorem exists_paired (member : object ∈ schema.objects) :
    ∃ held, (some object, held) ∈ (schemaFromGroup group).pairs schema := by
  have met : ((schemaFromGroup group).pairs schema).filterMap Prod.fst = schema.objects :=
    filterMap_fst_zipMatching
  rw [← met] at member
  obtain ⟨⟨first, held⟩, inside, isObject⟩ := List.mem_filterMap.mp member
  cases isObject
  exact ⟨held, inside⟩

end FileSchema

/-! ### What an update does -/

/-- The changes that the second pass has something to do for. -/
def SchemaChange.isPostMigration : SchemaChange → Bool
  | addTable _ => true
  | removeProperty _ _ => true
  | addIndex _ _ => true
  | removeIndex _ _ => true
  | _ => false

/-- The changes as the passes apply them: once if nothing has to be migrated, else in two
passes. -/
inductive Applied (group : Group) (changes : List SchemaChange) : List SchemaChange → Prop where
  | once : (∀ c ∈ changes, c.isAutomatic = true) ∨ group.tables = [] →
      Applied group changes changes
  | twice : Applied group changes (changes.filter SchemaChange.isNotRemoveProperty ++
      changes.filter SchemaChange.isPostMigration)

section Applied

variable {group : Group} {schema : Schema} {passes : List SchemaChange} {object : ObjectSchema}

theorem not_mem_compareObject_addTable {existing target new : ObjectSchema} :
    .addTable new ∉ compareObject existing target := by
  intro member
  rcases cases_of_mem_compareObject member with ⟨current, -, isChange⟩ | keyed | ⟨_, -, same⟩
  · cases (about_of_mem_compareProperty isChange).2
  · cases eq_of_mem_changedPrimaryKey keyed
  · cases same

theorem changesFor_append (first second : List SchemaChange) (name : String) :
    changesFor (first ++ second) name = changesFor first name ++ changesFor second name :=
  List.filter_append _ _

theorem changesFor_filter (p : SchemaChange → Bool) (changes : List SchemaChange) (name : String) :
    changesFor (changes.filter p) name = (changesFor changes name).filter p :=
  List.filter_comm _ _ _

/-- A new class gets its table and its columns; the second pass leaves it as it is. -/
theorem Applied.changesFor_of_new
    (applied : Applied group ((schemaFromGroup group).compare schema) passes)
    (distinct : (schema.objects.map ObjectSchema.name).Nodup)
    (paired : (some object, none) ∈ (schemaFromGroup group).pairs schema) :
    ∃ again, changesFor passes object.name =
        .addTable object :: .addInitialProperties object :: again ∧
      (again = [] ∨ again = [.addTable object]) := by
  have ofCompare := changesFor_compare_of_new distinct paired
  cases applied with
  | once => exact ⟨[], ofCompare, Or.inl rfl⟩
  | twice =>
      refine ⟨[.addTable object], ?_, Or.inr rfl⟩
      rw [changesFor_append, changesFor_filter, changesFor_filter, ofCompare]
      rfl

theorem Applied.changesFor_of_existing {table : Table} {primaryKey : String}
    (applied : Applied group ((schemaFromGroup group).compare schema) passes)
    (distinct : (schema.objects.map ObjectSchema.name).Nodup)
    (inFile : group.tables ≠ [])
    (paired : (some object, some (table.objectSchema primaryKey)) ∈
      (schemaFromGroup group).pairs schema) :
    ∃ first second removals, changesFor passes object.name = first ++ second ++ removals ∧
      Passes (table.objectSchema primaryKey) object first second removals := by
  obtain ⟨kept, removals, ofCompare, perm, keep, remove, descending⟩ :=
    changesFor_compare_of_existing distinct paired
  have inObject {c : SchemaChange} (member : c ∈ kept) :
      c ∈ compareObject (table.objectSchema primaryKey) object :=
    perm.mem_iff.mp (List.mem_append_left _ member)
  cases applied with
  | once only =>
      refine ⟨kept, [], removals, by rw [ofCompare, List.append_nil], perm, keep, remove,
        descending, Or.inr ⟨rfl, fun c member => ?_⟩⟩
      rcases only with automatic | isNew
      · have isChange : c ∈ changesFor ((schemaFromGroup group).compare schema) object.name := by
          rw [ofCompare]
          exact List.mem_append_left _ member
        have isAutomatic := automatic c (List.mem_of_mem_filter isChange)
        cases c with
        | addTable new => exact absurd (inObject member) not_mem_compareObject_addTable
        | addInitialProperties new =>
            exact absurd (inObject member) not_mem_compareObject_addInitialProperties
        | addIndex new property => rfl
        | removeIndex new property => rfl
        | _ => cases isAutomatic
      · exact absurd isNew inFile
  | twice =>
      refine ⟨kept, kept.filter SchemaChange.isIndexChange, removals, ?_, perm, keep, remove,
        descending, Or.inl rfl⟩
      have keptAgain : kept.filter SchemaChange.isPostMigration =
          kept.filter SchemaChange.isIndexChange := by
        apply List.filter_congr
        intro c member
        cases c with
        | addTable new => exact absurd (inObject member) not_mem_compareObject_addTable
        | removeProperty new property => cases keep _ member
        | _ => rfl
      have removeAll : removals.filter SchemaChange.isPostMigration = removals := by
        apply List.filter_eq_self.mpr
        intro c member
        have isRemoval := remove c member
        cases c with
        | removeProperty new property => rfl
        | _ => cases isRemoval
      have removeNone : removals.filter SchemaChange.isNotRemoveProperty = [] :=
        List.filter_eq_nil_iff.mpr fun c member => Bool.eq_false_iff.mp (remove c member)
      rw [changesFor_append, changesFor_filter, changesFor_filter, ofCompare, List.filter_append,
        List.filter_append, List.filter_eq_self.mpr keep, removeNone, keptAgain, removeAll,
        List.append_nil, List.append_assoc]

theorem Applied.changesFor_of_absent {name : String}
    (applied : Applied group ((schemaFromGroup group).compare schema) passes)
    (absent : name ∉ schema.objects.map ObjectSchema.name) : changesFor passes name = [] := by
  have ofCompare := @changesFor_compare_of_absent (schemaFromGroup group) _ _ absent
  cases applied with
  | once => exact ofCompare
  | twice => rw [changesFor_append, changesFor_filter, changesFor_filter, ofCompare]; rfl

end Applied

end FileSchema

end Phonotes
