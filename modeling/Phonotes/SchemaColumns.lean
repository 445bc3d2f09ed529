import Phonotes.SchemaRuns

/-!
The classes that the Realm goes on with once the file is open.

`update_schema` keeps the app's schema and fills in where the columns are: by their names in
the new tables, or from the schema that was read off the file where there was nothing to do.
Either way the columns are the right ones, and what the object store asks of a class with a
primary key holds of them.
-/

namespace Phonotes

namespace FileSchema

open KeyedRows Sequences TransitionSystem

/-! ### Classes in place -/

/-- A class whose properties have their values in these columns. -/
def ObjectSchema.withColumns (self : ObjectSchema) (columnOf : Property → Nat) : ObjectSchema :=
  { self with
    persistedProperties := self.persistedProperties.map fun property =>
      { property with tableColumn := columnOf property } }

/-- The class as the object store works with it. -/
def ObjectSchema.toObjectSchema (self : ObjectSchema) : Phonotes.ObjectSchema where
  name := self.name
  persistedProperties := self.persistedProperties.map fun property => property.toProperty
  primaryKey := self.primaryKey

/-- Every property has the position of its column. -/
def ObjectSchema.Placed (self : ObjectSchema) (table : Table) : Prop :=
  ∀ property ∈ self.persistedProperties, ∃ column,
    table.columns[property.tableColumn]? = some column ∧ column.name = property.name ∧
      column.type = property.type ∧ column.isNullable = property.isNullable

/-- The last position that was noted for the name of a property. -/
def notedColumn (others : List Property) (property : Property) : Nat :=
  others.foldl (fun column current =>
    if property.name = current.name then current.tableColumn else column) property.tableColumn

theorem copyColumns_eq (existing other : ObjectSchema) :
    copyColumns existing other = existing.withColumns (notedColumn other.persistedProperties) := by
  unfold copyColumns
  generalize other.persistedProperties = others
  induction others generalizing existing with
  | nil => simp [ObjectSchema.withColumns, notedColumn]
  | cons current others ih =>
      rw [List.foldl_cons, ih]
      simp only [ObjectSchema.withColumns, List.map_map]
      congr 1
      apply List.map_congr_left
      intro property _
      simp only [Function.comp_apply]
      by_cases same : property.name = current.name
      · simp only [if_pos same, notedColumn, List.foldl_cons]
      · simp only [if_neg same, notedColumn, List.foldl_cons]

theorem notedColumn_of_mem {others : List Property} {property : Property}
    (noted : ∃ current ∈ others, current.name = property.name) :
    ∃ current ∈ others, current.name = property.name ∧
      notedColumn others property = current.tableColumn := by
  induction others using List.reverseRecOn with
  | nil =>
      obtain ⟨current, member, -⟩ := noted
      cases member
  | append_singleton others last ih =>
      rw [notedColumn, List.foldl_append, List.foldl_cons, List.foldl_nil]
      by_cases same : property.name = last.name
      · rw [if_pos same]
        exact ⟨last, List.mem_append_right _ (List.mem_singleton_self _), same.symm, rfl⟩
      · rw [if_neg same]
        obtain ⟨current, member, name⟩ := noted
        rcases List.mem_append.mp member with before | isLast
        · obtain ⟨found, inBefore, isFound⟩ := ih ⟨current, before, name⟩
          exact ⟨found, List.mem_append_left _ inBefore, isFound⟩
        · rw [List.mem_singleton.mp isLast] at name
          exact absurd name.symm same

section Columns

variable {object : ObjectSchema} {before table : Table} {columnOf : Property → Nat}

theorem Migrated.exists_column (migrated : Migrated object before table) (sound : object.Sound)
    {property : Property} (member : property ∈ object.persistedProperties) :
    ∃ column ∈ table.columns, column.name = property.name := by
  have name := property.name_columnFrom before
  refine ⟨property.columnFrom before, (migrated.columns _ ?_).mpr ⟨property, member, rfl⟩, name⟩
  rw [name]
  exact sound.visible property member

/-- A column with the name of a property has its type and is as optional. -/
theorem Migrated.fits (migrated : Migrated object before table) (sound : object.Sound)
    {property : Property} (member : property ∈ object.persistedProperties) {column : Column}
    (inTable : column ∈ table.columns) (name : column.name = property.name) :
    column.type = property.type ∧ column.isNullable = property.isNullable := by
  have visible : column.name ≠ "!OID" := name ▸ sound.visible property member
  obtain ⟨other, isOther, rfl⟩ := (migrated.columns column visible).mp inTable
  rw [other.name_columnFrom] at name
  rw [List.inj_on_of_nodup_map sound.names isOther member name] at *
  obtain ⟨type, nullable, -⟩ := property.columnFrom_fits before
  exact ⟨type, nullable⟩

/-- What was read by name is in place. -/
theorem Migrated.placed (migrated : Migrated object before table) (sound : object.Sound)
    (located : ∀ property ∈ object.persistedProperties, ∃ column,
      table.columns[columnOf property]? = some column ∧ column.name = property.name) :
    (object.withColumns columnOf).Placed table := by
  intro property member
  obtain ⟨declared, isDeclared, rfl⟩ := List.mem_map.mp member
  obtain ⟨column, held, name⟩ := located declared isDeclared
  exact ⟨column, held, name,
    migrated.fits sound isDeclared (List.mem_of_getElem? held) name⟩

/-- Looked up in the table, a column has the name. -/
theorem located_findIdx (has : ∀ property ∈ object.persistedProperties,
      ∃ column ∈ table.columns, column.name = property.name) :
    ∀ property ∈ object.persistedProperties, ∃ column,
      table.columns[table.columns.findIdx fun column => column.name = property.name]? =
        some column ∧ column.name = property.name := by
  intro property inObject
  obtain ⟨column, inTable, name⟩ := has property inObject
  have inRange := List.findIdx_lt_length_of_exists
    (p := fun column : Column => column.name = property.name)
    ⟨column, inTable, decide_eq_true name⟩
  have isNamed := List.findIdx_getElem (p := fun column : Column => column.name = property.name)
    (w := inRange)
  exact ⟨_, List.getElem?_eq_getElem inRange, of_decide_eq_true isNamed⟩

/-- So has the one that the schema of the file notes. -/
theorem located_notedColumn (sound : object.Sound) (primaryKey : String)
    (has : ∀ property ∈ object.persistedProperties,
      ∃ column ∈ table.columns, column.name = property.name) :
    ∀ property ∈ object.persistedProperties, ∃ column,
      table.columns[notedColumn (table.objectSchema primaryKey).persistedProperties property]? =
        some column ∧ column.name = property.name := by
  intro property inObject
  obtain ⟨column, inTable, name⟩ := has property inObject
  obtain ⟨i, held⟩ := List.mem_iff_getElem?.mp inTable
  have visible : column.name ≠ "!OID" := name ▸ sound.visible property inObject
  obtain ⟨current, isCurrent, sameName, noted⟩ := notedColumn_of_mem
    ⟨_, mem_objectSchema_iff.mpr ⟨i, column, held, visible,
      Eq.refl (column.property primaryKey i)⟩, name⟩
  obtain ⟨j, other, heldOther, -, rfl⟩ := mem_objectSchema_iff.mp isCurrent
  rw [noted]
  exact ⟨other, heldOther, sameName⟩

/-- A class in place is one that the object store can work with. -/
theorem ObjectSchema.Sound.valid_withColumns (sound : object.Sound)
    (located : ∀ property ∈ object.persistedProperties, ∃ column,
      table.columns[columnOf property]? = some column ∧ column.name = property.name)
    {primary : Phonotes.Property}
    (isPrimary : (object.withColumns columnOf).toObjectSchema.primaryKeyProperty = some primary) :
    (object.withColumns columnOf).toObjectSchema.Valid primary := by
  have apart : ∀ property ∈ object.persistedProperties, ∀ other ∈ object.persistedProperties,
      columnOf property = columnOf other → property = other := by
    intro property member other member' same
    obtain ⟨column, held, name⟩ := located property member
    obtain ⟨column', held', name'⟩ := located other member'
    rw [← same, held] at held'
    cases held'
    exact List.inj_on_of_nodup_map sound.names member member' (name.symm.trans name')
  refine ⟨?_, isPrimary, ?_⟩
  · simp only [toObjectSchema, withColumns, List.map_map]
    exact (List.Nodup.of_map _ sound.names).map_on apart
  · intro property member
    simp only [toObjectSchema, withColumns, List.map_map] at member
    obtain ⟨declared, isDeclared, rfl⟩ := List.mem_map.mp member
    have inSchema := List.mem_of_find?_eq_some isPrimary
    have named := List.find?_some isPrimary
    simp only [toObjectSchema, withColumns, List.map_map] at inSchema
    obtain ⟨key, isKey, rfl⟩ := List.mem_map.mp inSchema
    have keyName : key.name = object.primaryKey := of_decide_eq_true named
    have hasKey : object.primaryKey ≠ "" := keyName ▸ sound.propertiesNamed key isKey
    constructor
    · intro marked
      have name := ((sound.isPrimary declared isDeclared).mp marked).2
      rw [List.inj_on_of_nodup_map sound.names isDeclared isKey (name.trans keyName.symm)]
    · intro same
      have name := congrArg Phonotes.Property.name same
      exact (sound.isPrimary declared isDeclared).mpr ⟨hasKey, name.trans keyName⟩

end Columns

/-! ### What is handed on -/

theorem name_copyColumns (existing other : ObjectSchema) :
    (copyColumns existing other).name = existing.name := by
  rw [copyColumns_eq]
  rfl

theorem map_name_copyTableColumnsFrom (schema other : Schema) :
    (schema.copyTableColumnsFrom other).map ObjectSchema.name =
      schema.objects.map ObjectSchema.name := by
  have met : (other.pairs schema).filterMap Prod.fst = schema.objects := filterMap_fst_zipMatching
  conv_rhs => rw [← met]
  rw [Schema.copyTableColumnsFrom, List.map_filterMap, List.map_filterMap]
  apply List.filterMap_congr
  rintro ⟨_ | object, _ | existing⟩ _
  · rfl
  · rfl
  · rfl
  · exact congrArg some (name_copyColumns object existing)

section Opened

variable {sync : SyncTables} {group group' : Group} {schema : Schema} {version : Nat}
  {objects : List ObjectSchema}

/-- Each class of the schema is handed on with the columns that have the names of its
properties. -/
theorem located_of_updateSchema (result : Updated schema group group')
    (ascending : (schema.objects.map ObjectSchema.name).Pairwise (· < ·))
    (sound : ∀ object ∈ schema.objects, object.Sound)
    (updated : updateSchema sync group schema version = .ok (group', objects))
    {object : ObjectSchema} (member : object ∈ schema.objects) {table : Table}
    (isTable : group'.tableForObjectType object.name = some table)
    (has : ∀ property ∈ object.persistedProperties,
      ∃ column ∈ table.columns, column.name = property.name) :
    ∃ columnOf, object.withColumns columnOf ∈ objects ∧
      ∀ property ∈ object.persistedProperties, ∃ column,
        table.columns[columnOf property]? = some column ∧ column.name = property.name := by
  rcases (cases_of_updateSchema updated).2.symm with ⟨-, rfl⟩ | ⟨-, -, rfl, rfl⟩
  · refine ⟨_, ?_, located_findIdx has⟩
    have same : setColumns group' object = object.withColumns fun property =>
        table.columns.findIdx fun column => column.name = property.name := by
      rw [setColumns, isTable]
      rfl
    rw [← same]
    exact List.mem_map_of_mem member
  · obtain ⟨held, paired⟩ := @exists_paired group' _ _ member
    cases held with
    | none =>
        have missing := tableForObjectType_of_alone result.indexed ascending
          (sound object member).named paired
        cases missing.symm.trans isTable
    | some existing =>
        obtain ⟨table', found, rfl⟩ := tableForObjectType_of_paired result.indexed paired
        cases isTable.symm.trans found
        refine ⟨_, ?_, located_notedColumn (sound object member)
          (group'.getPrimaryKeyForObject object.name) has⟩
        rw [← copyColumns_eq]
        exact List.mem_filterMap.mpr ⟨_, paired, rfl⟩

end Opened

/-! ### Launches -/

section Launches

variable {sync : SyncTables} {group : Group} {history : List (Transition Group Launch)}

/-- After any launches, an opened Realm goes on with the classes of its schema, each with
every property at the column of the file that has its name, its type and its optionality, and
the object store can work with those that have a primary key. -/
theorem placed_of_run (indexes : sync.indexesPrimaryKey = true)
    (run : Run (Launch.step sync) {} history group)
    (declared : ∀ t ∈ history, ∀ object ∈ t.event.schema.objects, object.Declared) :
    ∀ t ∈ history, ∀ objects,
      updateSchema sync t.before t.event.schema t.event.version = .ok (t.after, objects) →
        objects.map ObjectSchema.name = t.event.schema.objects.map ObjectSchema.name ∧
          ∀ object ∈ t.event.schema.objects, ∃ columnOf table,
            object.withColumns columnOf ∈ objects ∧
              t.after.tableForObjectType object.name = some table ∧
              (object.withColumns columnOf).Placed table ∧
              ∀ primary, (object.withColumns columnOf).toObjectSchema.primaryKeyProperty =
                some primary → (object.withColumns columnOf).toObjectSchema.Valid primary := by
  intro t inRun objects opened
  obtain ⟨⟨result, -⟩, ascending, sound⟩ :=
    updated_of_run indexes run declared t inRun objects opened
  constructor
  · rcases (cases_of_updateSchema opened).2.symm with ⟨-, rfl⟩ | ⟨-, -, -, rfl⟩
    · rw [List.map_map]
      apply List.map_congr_left
      intro object _
      simp only [Function.comp_apply, setColumns]
      split <;> rfl
    · exact map_name_copyTableColumnsFrom _ _
  · intro object member
    obtain ⟨table, isTable, migrated⟩ := result.classes object member
    obtain ⟨columnOf, handedOn, located⟩ := located_of_updateSchema result ascending sound opened
      member isTable fun property inObject => migrated.exists_column (sound object member) inObject
    exact ⟨columnOf, table, handedOn, isTable, migrated.placed (sound object member) located,
      fun primary isPrimary => (sound object member).valid_withColumns located isPrimary⟩

/-- The first launch hands the class `Note` on as the object store has it. -/
theorem placed_of_run_firstLaunch :
    (setColumns (Launch.first.fileAfter {} {}) noteClass).toObjectSchema.persistedProperties =
        Note.objectSchema.persistedProperties ∧
      ∃ objects, updateSchema {} {} Launch.first.schema 0 =
          .ok (Launch.first.fileAfter {} {}, objects) ∧
        objects.map ObjectSchema.name = ["Note"] ∧
        ∃ columnOf table, noteClass.withColumns columnOf ∈ objects ∧
          (Launch.first.fileAfter {} {}).tableForObjectType "Note" = some table ∧
            (noteClass.withColumns columnOf).Placed table ∧
            ∃ primary, (noteClass.withColumns columnOf).toObjectSchema.Valid primary := by
  refine ⟨by decide +kernel, ?_⟩
  obtain ⟨objects, opened⟩ : ∃ objects, updateSchema {} {} Launch.first.schema
      Launch.first.version = .ok (Launch.first.fileAfter {} {}, objects) :=
    Launch.opened_of_isOk (by decide +kernel)
  obtain ⟨names, classes⟩ := placed_of_run rfl run_twoVersions declared_twoVersions _
    List.mem_cons_self objects opened
  obtain ⟨columnOf, table, handedOn, isTable, placed, valid⟩ := classes noteClass (by decide)
  exact ⟨objects, opened, names, columnOf, table, handedOn, isTable, placed, _, valid _ rfl⟩

end Launches

end FileSchema

end Phonotes
