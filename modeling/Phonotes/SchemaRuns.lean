import Phonotes.Library.TransitionSystem
import Phonotes.SchemaUpdate

/-!
The file over the launches of the app.

An update that succeeds makes every class of the app's schema as `Migrated` says, with the
primary key of the schema, and touches no other class. From that follow the results: the next
launch with the same schema finds nothing to do, values stay, and a launch of an app with the
version of the file fails exactly if a property or a primary key is not the same, or core does
not take a name.
-/

namespace Phonotes

namespace FileSchema

open KeyedRows Sequences TransitionSystem

/-! ### After an update -/

/-- What an update does to a file. -/
structure Updated (schema : Schema) (before after : Group) : Prop where
  indexed : after.Indexed
  classes : ∀ object ∈ schema.objects, ∃ table,
    after.tableForObjectType object.name = some table ∧
      Migrated object ((before.tableForObjectType object.name).getD (Table.empty object.name)) table
  keys : ∀ object ∈ schema.objects,
    after.getPrimaryKeyForObject object.name = object.primaryKey
  others : ∀ name ∉ schema.objects.map ObjectSchema.name, after.classOf name = before.classOf name

section Update

variable {sync : SyncTables} {group group' : Group} {schema : Schema} {version : Nat}
  {objects : List ObjectSchema} {passes : List SchemaChange}

/-- A class that is new gets its table and its primary key. -/
theorem Applied.classOf_of_new {object : ObjectSchema} (wellFormed : group.WellFormed)
    (ascending : (schema.objects.map ObjectSchema.name).Pairwise (· < ·))
    (sound : object.Sound) (indexes : sync.indexesPrimaryKey = true)
    (applied : Applied group ((schemaFromGroup group).compare schema) passes)
    (paired : (some object, none) ∈ (schemaFromGroup group).pairs schema) :
    ∃ table,
      (passes.foldl (Group.apply sync) group).classOf object.name =
          (some table, object.primaryKey) ∧
        Migrated object ((group.tableForObjectType object.name).getD (Table.empty object.name))
          table := by
  have missing := tableForObjectType_of_alone wellFormed.toIndexed ascending sound.named paired
  have unkeyed := wellFormed.keyed object.name missing
  obtain ⟨again, changes, isAgain⟩ := applied.changesFor_of_new (ascending.imp ne_of_lt) paired
  refine ⟨(Group.newTable sync object).addInitialColumns object, ?_, ?_⟩
  · have born : applyClass sync (applyClass sync (none, "") (.addTable object))
        (.addInitialProperties object) =
          (some ((Group.newTable sync object).addInitialColumns object), object.primaryKey) :=
      Prod.ext rfl sound.primaryKeyProperty_elim
    rw [(Group.classOf_foldl wellFormed.toIndexed passes object.name).1, changes, Group.classOf,
      missing, unkeyed, List.foldl_cons, List.foldl_cons, born]
    rcases isAgain with rfl | rfl
    · rfl
    · rfl
  · rw [missing]
    exact migrated_newTable sound indexes

/-- A class that is in the file has its table migrated, and its primary key changed if it is
another one. -/
theorem Applied.classOf_of_existing {object existing : ObjectSchema}
    (wellFormed : group.WellFormed) (distinct : (schema.objects.map ObjectSchema.name).Nodup)
    (sound : object.Sound)
    (applied : Applied group ((schemaFromGroup group).compare schema) passes)
    (paired : (some object, some existing) ∈ (schemaFromGroup group).pairs schema) :
    ∃ table,
      (passes.foldl (Group.apply sync) group).classOf object.name =
          (some table, object.primaryKey) ∧
        Migrated object ((group.tableForObjectType object.name).getD (Table.empty object.name))
          table := by
  obtain ⟨table, found, isTable⟩ := tableForObjectType_of_paired wellFormed.toIndexed paired
  have inFile := ((lookup_eq_some_iff wellFormed.tables).mp found).1
  have sameKey : existing.primaryKey = group.getPrimaryKeyForObject object.name := by
    rw [isTable]
    rfl
  rw [isTable] at paired
  obtain ⟨first, second, removals, changes, isPasses⟩ :=
    applied.changesFor_of_existing distinct (List.ne_nil_of_mem inFile) paired
  rw [← isTable] at isPasses
  refine ⟨(first ++ second ++ removals).foldl Table.apply table, ?_, ?_⟩
  · have ofBoth : ∀ c ∈ first ++ second ++ removals, c ∈ compareObject existing object := by
      intro c isChange
      rcases List.mem_append.mp isChange with edits | removal
      · exact isPasses.perm.mem_iff.mp
          (List.mem_append_left _ (isPasses.mem_of_mem_edits edits))
      · exact isPasses.perm.mem_iff.mp (List.mem_append_right _ removal)
    rw [(Group.classOf_foldl wellFormed.toIndexed passes object.name).1, changes, Group.classOf,
      found, foldl_applyClass ofBoth, sound.primaryKeyProperty_elim]
    refine Prod.ext rfl ?_
    dsimp only
    split_ifs with changed
    · rfl
    · by_contra keep
      have differ : existing.primaryKey ≠ object.primaryKey := fun same =>
        keep (sameKey.symm.trans same)
      refine changed ?_
      rcases List.mem_append.mp (isPasses.perm.mem_iff.mpr
        (changePrimaryKey_mem_compareObject differ)) with inFirst | removal
      · exact List.mem_append_left _ (List.mem_append_left _ inFirst)
      · exact List.mem_append_right _ removal
  · rw [isTable] at isPasses
    rw [found]
    exact isPasses.migrated sound (wellFormed.columns table inFile)

/-- The passes migrate every class. -/
theorem updated_of_applied (wellFormed : group.WellFormed)
    (ascending : (schema.objects.map ObjectSchema.name).Pairwise (· < ·))
    (sound : ∀ object ∈ schema.objects, object.Sound) (indexes : sync.indexesPrimaryKey = true)
    (applied : Applied group ((schemaFromGroup group).compare schema) passes) :
    Updated schema group (passes.foldl (Group.apply sync) group) := by
  have ofObject : ∀ object ∈ schema.objects, ∃ table,
      (passes.foldl (Group.apply sync) group).classOf object.name =
          (some table, object.primaryKey) ∧
        Migrated object ((group.tableForObjectType object.name).getD (Table.empty object.name))
          table := by
    intro object member
    obtain ⟨_ | existing, paired⟩ := @exists_paired group _ _ member
    · exact applied.classOf_of_new wellFormed ascending (sound object member) indexes paired
    · exact applied.classOf_of_existing wellFormed (ascending.imp ne_of_lt) (sound object member)
        paired
  refine ⟨(Group.classOf_foldl wellFormed.toIndexed passes "").2, ?_, ?_, ?_⟩
  · intro object member
    obtain ⟨table, isClass, migrated⟩ := ofObject object member
    exact ⟨table, congrArg Prod.fst isClass, migrated⟩
  · intro object member
    obtain ⟨table, isClass, -⟩ := ofObject object member
    exact congrArg Prod.snd isClass
  · intro name absent
    rw [(Group.classOf_foldl wellFormed.toIndexed passes name).1,
      applied.changesFor_of_absent absent]
    rfl

/-! ### Which changes were applied -/

theorem exists_of_bind_eq_ok {ε α β : Type} {x : Except ε α} {f : α → Except ε β} {result : β}
    (ran : x >>= f = .ok result) : ∃ a, x = .ok a ∧ f a = .ok result := by
  cases x with
  | error e => cases ran
  | ok a => exact ⟨a, rfl, ran⟩

/-- A pass stops at the first name that core does not take, and else applies every change. -/
theorem foldlM_visit (changes : List SchemaChange) :
    changes.foldlM (Group.visit sync) group =
      (changes.findSome? SchemaChange.nameError).elim
        (.ok (changes.foldl (Group.apply sync) group)) fun kind => .error (.logicError kind) := by
  induction changes generalizing group with
  | nil => rfl
  | cons c changes ih =>
      rw [List.foldlM_cons, List.findSome?_cons, List.foldl_cons, Group.visit]
      cases c.nameError with
      | some kind => rfl
      | none => exact ih

theorem foldl_of_foldlM_visit {changes : List SchemaChange}
    (ran : changes.foldlM (Group.visit sync) group = .ok group') :
    group' = changes.foldl (Group.apply sync) group := by
  rw [foldlM_visit] at ran
  cases named : changes.findSome? SchemaChange.nameError with
  | some kind =>
      rw [named] at ran
      cases ran
  | none =>
      rw [named] at ran
      cases ran
      rfl

theorem foldlM_applyPreMigrationChanges (changes : List SchemaChange) :
    applyPreMigrationChanges sync group changes =
      (changes.filter SchemaChange.isNotRemoveProperty).foldlM (Group.visit sync) group := by
  unfold applyPreMigrationChanges
  induction changes generalizing group with
  | nil => rfl
  | cons c changes ih =>
      cases c with
      | removeProperty object property => exact ih
      | _ => exact bind_congr fun group => ih

theorem foldl_applyPostMigrationChanges {changes : List SchemaChange}
    (ran : applyPostMigrationChanges sync group changes = .ok group') :
    group' = (changes.filter SchemaChange.isPostMigration).foldl (Group.apply sync) group := by
  induction changes generalizing group with
  | nil =>
      cases ran
      rfl
  | cons c changes ih =>
      cases c with
      | addTable object =>
          simp only [applyPostMigrationChanges, Group.visit] at ran
          cases named : (SchemaChange.addTable object).nameError with
          | some kind =>
              rw [named] at ran
              cases ran
          | none =>
              rw [named] at ran
              exact ih ran
      | changePrimaryKey object property =>
          cases property with
          | none => exact ih ran
          | some property =>
              simp only [applyPostMigrationChanges] at ran
              cases valid : validatePrimaryColumnUniqueness group object.name property.name with
              | error e =>
                  rw [valid] at ran
                  cases ran
              | ok =>
                  rw [valid] at ran
                  exact ih ran
      | _ => exact ih ran

theorem explain_ne_nil {c : SchemaChange} (unsupported : c.isAutomatic = false) :
    c.explain ≠ [] := by
  cases c with
  | changePrimaryKey object property =>
      unfold SchemaChange.explain
      cases property with
      | none => exact List.cons_ne_nil _ _
      | some property =>
          dsimp only
          split_ifs <;> exact List.cons_ne_nil _ _
  | addTable object => cases unsupported
  | addInitialProperties object => cases unsupported
  | addIndex object property => cases unsupported
  | removeIndex object property => cases unsupported
  | _ => exact List.cons_ne_nil _ _

theorem foldlM_explain (changes : List SchemaChange) (errors : List String) :
    changes.foldlM (fun (held : Group × List String) c =>
        if c.isAutomatic then (held.1.visit sync c).map fun group => (group, held.2)
        else .ok (held.1, held.2 ++ c.explain)) (group, errors) =
      ((changes.filter SchemaChange.isAutomatic).foldlM (Group.visit sync) group).map fun group =>
        (group, errors ++ (changes.filter fun c => !c.isAutomatic).flatMap
          SchemaChange.explain) := by
  induction changes generalizing group errors with
  | nil => simp [pure, Except.pure, Except.map]
  | cons c changes ih =>
      rw [List.foldlM_cons]
      cases supported : c.isAutomatic with
      | true =>
          rw [List.filter_cons_of_pos supported, List.foldlM_cons,
            List.filter_cons_of_neg (by simp [supported])]
          simp only [if_true]
          cases group.visit sync c with
          | error e => rfl
          | ok group => exact ih errors
      | false =>
          rw [List.filter_cons_of_neg (Bool.eq_false_iff.mp supported),
            List.filter_cons_of_pos (by rw [supported]; rfl), List.flatMap_cons,
            ← List.append_assoc]
          exact ih (errors ++ c.explain)

/-- The pass for a file of the same version reports what it does not support. -/
theorem applyNonMigrationChanges_eq (changes : List SchemaChange) :
    applyNonMigrationChanges sync group changes =
      ((changes.filter SchemaChange.isAutomatic).findSome? SchemaChange.nameError).elim
        (if ∀ c ∈ changes, c.isAutomatic = true then
          .ok (changes.foldl (Group.apply sync) group)
        else .error (.schemaMismatch ((changes.filter fun c => !c.isAutomatic).flatMap
          SchemaChange.explain)))
        fun kind => .error (.logicError kind) := by
  have visited := @foldlM_explain sync group changes []
  rw [List.nil_append, foldlM_visit] at visited
  unfold applyNonMigrationChanges
  simp only [visited]
  cases (changes.filter SchemaChange.isAutomatic).findSome? SchemaChange.nameError with
  | some kind => rfl
  | none =>
      change (if _ then _ else _) = if _ then _ else _
      split_ifs with errors supported supported
      · refine absurd ?_ errors
        rw [List.filter_eq_nil_iff.mpr fun c member => by simp [supported c member]]
        rfl
      · rfl
      · rw [List.filter_eq_self.mpr supported]
      · refine absurd (fun c member => ?_) supported
        by_contra unsupported
        rw [Bool.not_eq_true] at unsupported
        have inErrors : c ∈ changes.filter fun c => !c.isAutomatic :=
          List.mem_filter.mpr ⟨member, by simp [unsupported]⟩
        exact explain_ne_nil unsupported
          (List.flatMap_eq_nil_iff.mp (not_not.mp errors) c inErrors)

theorem schemaVersion_foldl_apply (changes : List SchemaChange) :
    (changes.foldl (Group.apply sync) group).schemaVersion = group.schemaVersion := by
  have ofKey (group : Group) (objectType primaryKey : String) :
      (group.setPrimaryKeyForObject objectType primaryKey).schemaVersion =
        group.schemaVersion := by
    unfold Group.setPrimaryKeyForObject
    split
    · split_ifs <;> rfl
    · split_ifs <;> rfl
  induction changes generalizing group with
  | nil => rfl
  | cons c changes ih =>
      rw [List.foldl_cons, ih]
      cases c with
      | addTable object =>
          simp only [Group.apply, Group.createTable]
          cases group.tableForObjectType object.name with
          | some table => rfl
          | none =>
              cases object.primaryKeyProperty with
              | none => rfl
              | some pkProperty => exact ofKey _ _ _
      | changePrimaryKey object property => exact ofKey _ _ _
      | _ => rfl

/-- A success either found nothing to do or applied the changes. -/
theorem cases_of_updateSchema
    (updated : updateSchema sync group schema version = .ok (group', objects)) :
    schema.validate = [] ∧
      (group.schemaVersion = some version ∧ (schemaFromGroup group).compare schema = [] ∧
          group' = group ∧ objects = schema.copyTableColumnsFrom (schemaFromGroup group) ∨
        applySchemaChanges sync group version ((schemaFromGroup group).compare schema) =
            .ok group' ∧
          objects = schema.objects.map (setColumns group')) := by
  unfold updateSchema at updated
  dsimp only at updated
  split_ifs at updated with invalid settled
  · cases updated
    exact ⟨not_not.mp invalid, Or.inl ⟨settled.1, settled.2, rfl, rfl⟩⟩
  · refine ⟨not_not.mp invalid, Or.inr ?_⟩
    cases older : group.schemaVersion.filter fun schemaVersion => version < schemaVersion with
    | some schemaVersion =>
        rw [older] at updated
        cases updated
    | none =>
        rw [older] at updated
        dsimp only at updated
        cases ran : applySchemaChanges sync group version
          ((schemaFromGroup group).compare schema) with
        | error e =>
            rw [ran] at updated
            cases updated
        | ok after =>
            rw [ran] at updated
            cases updated
            exact ⟨rfl, rfl⟩

/-- The changes are applied in a pass, or two. -/
theorem applied_of_applySchemaChanges (wellFormed : group.WellFormed) {changes : List SchemaChange}
    (ran : applySchemaChanges sync group version changes = .ok group') :
    ∃ passes, Applied group changes passes ∧
      group' = { passes.foldl (Group.apply sync) group with schemaVersion := some version } := by
  unfold applySchemaChanges at ran
  cases hasVersion : group.schemaVersion with
  | none =>
      rw [hasVersion] at ran
      obtain ⟨initial, created, isResult⟩ := exists_of_bind_eq_ok ran
      cases isResult
      rw [foldl_of_foldlM_visit created]
      exact ⟨_, Applied.once (Or.inr (wellFormed.versioned hasVersion)), rfl⟩
  | some schemaVersion =>
      rw [hasVersion] at ran
      dsimp only at ran
      split_ifs at ran with sameVersion
      · rw [applyNonMigrationChanges_eq] at ran
        cases named : (changes.filter SchemaChange.isAutomatic).findSome?
            SchemaChange.nameError with
        | some kind =>
            rw [named] at ran
            cases ran
        | none =>
            rw [named, Option.elim_none] at ran
            split_ifs at ran with supported
            cases ran
            refine ⟨_, Applied.once (Or.inl supported), ?_⟩
            have sameAfter := @schemaVersion_foldl_apply sync group changes
            rw [← sameVersion, ← hasVersion, ← sameAfter]
      · obtain ⟨first, pre, rest⟩ := exists_of_bind_eq_ok ran
        obtain ⟨migrated, post, isResult⟩ := exists_of_bind_eq_ok rest
        cases isResult
        refine ⟨_, Applied.twice, ?_⟩
        rw [foldlM_applyPreMigrationChanges] at pre
        rw [foldl_applyPostMigrationChanges post, foldl_of_foldlM_visit pre, List.foldl_append]

/-- A success is a pass, or two, through the changes that were required. -/
theorem applied_of_updateSchema (wellFormed : group.WellFormed)
    (updated : updateSchema sync group schema version = .ok (group', objects)) :
    schema.validate = [] ∧ ∃ passes,
      Applied group ((schemaFromGroup group).compare schema) passes ∧
        group' = { passes.foldl (Group.apply sync) group with schemaVersion := some version } := by
  obtain ⟨valid, ⟨isVersion, noChanges, rfl, -⟩ | ⟨ran, -⟩⟩ := cases_of_updateSchema updated
  · refine ⟨valid, [], ?_, ?_⟩
    · rw [noChanges]
      exact Applied.once (Or.inl fun _ member => nomatch member)
    · rw [List.foldl_nil, ← isVersion]
  · exact ⟨valid, applied_of_applySchemaChanges wellFormed ran⟩

/-! ### Settled files -/

theorem updated_of_updateSchema (wellFormed : group.WellFormed)
    (declared : ∀ object ∈ schema.objects, object.Declared)
    (indexes : sync.indexesPrimaryKey = true)
    (updated : updateSchema sync group schema version = .ok (group', objects)) :
    Updated schema group group' ∧ group'.schemaVersion = some version := by
  obtain ⟨valid, passes, applied, rfl⟩ := applied_of_updateSchema wellFormed updated
  have result := updated_of_applied wellFormed (Schema.nodup_of_validate valid)
    (fun object member => Schema.sound_of_validate valid member (declared object member)) indexes
    applied
  exact ⟨⟨⟨result.indexed.tables, result.indexed.primaryKeys⟩, result.classes, result.keys,
    result.others⟩, rfl⟩

/-- An update leaves a file as one that only updates have written. -/
theorem wellFormed_of_updateSchema (wellFormed : group.WellFormed)
    (declared : ∀ object ∈ schema.objects, object.Declared)
    (indexes : sync.indexesPrimaryKey = true)
    (updated : updateSchema sync group schema version = .ok (group', objects)) :
    group'.WellFormed := by
  obtain ⟨result, isVersion⟩ := updated_of_updateSchema wellFormed declared indexes updated
  have other {name : String} (absent : name ∉ schema.objects.map ObjectSchema.name) :
      group'.tableForObjectType name = group.tableForObjectType name ∧
        group'.getPrimaryKeyForObject name = group.getPrimaryKeyForObject name :=
    Prod.ext_iff.mp (result.others name absent)
  refine ⟨result.indexed, ?_, ?_, ?_⟩
  · intro table member
    have found := (lookup_eq_some_iff result.indexed.tables).mpr ⟨member, rfl⟩
    by_cases inSchema : table.name ∈ schema.objects.map ObjectSchema.name
    · obtain ⟨object, isObject, name⟩ := List.mem_map.mp inSchema
      obtain ⟨after, isTable, migrated⟩ := result.classes object isObject
      rw [name] at isTable
      cases found.symm.trans isTable
      exact migrated.distinct
    · rw [← Group.tableForObjectType, (other inSchema).1] at found
      exact wellFormed.columns table ((lookup_eq_some_iff wellFormed.tables).mp found).1
  · intro name missing
    by_cases inSchema : name ∈ schema.objects.map ObjectSchema.name
    · obtain ⟨object, isObject, rfl⟩ := List.mem_map.mp inSchema
      obtain ⟨table, isTable, -⟩ := result.classes object isObject
      cases missing.symm.trans isTable
    · rw [(other inSchema).2]
      exact wellFormed.keyed name ((other inSchema).1.symm.trans missing)
  · intro unversioned
    cases isVersion.symm.trans unversioned

/-- After an update there is nothing left to change. -/
theorem compare_of_updated (result : Updated schema group group')
    (ascending : (schema.objects.map ObjectSchema.name).Pairwise (· < ·))
    (sound : ∀ object ∈ schema.objects, object.Sound) :
    (schemaFromGroup group').compare schema = [] := by
  have settled : ∀ pair ∈ (schemaFromGroup group').pairs schema,
      changesOf pair = [] ∧ ∀ object, pair ≠ (some object, none) := by
    rintro ⟨_ | object, held⟩ paired
    · exact ⟨rfl, fun object => nofun⟩
    · have member := mem_of_mem_zipMatching paired
      obtain ⟨table, isTable, migrated⟩ := result.classes object member
      cases held with
      | none =>
          have missing := tableForObjectType_of_alone result.indexed ascending
            (sound object member).named paired
          cases missing.symm.trans isTable
      | some existing =>
          obtain ⟨table', found, rfl⟩ := tableForObjectType_of_paired result.indexed paired
          cases isTable.symm.trans found
          refine ⟨?_, fun object => nofun⟩
          rw [changesOf, result.keys object member]
          exact migrated.compareObject_eq_nil (sound object member)
  obtain ⟨rest, same, -, perm⟩ := (schemaFromGroup group').compare_eq schema
  have noTables : addTables ((schemaFromGroup group').pairs schema) = [] := by
    rw [List.eq_nil_iff_forall_not_mem]
    intro c member
    obtain ⟨⟨_ | object, _ | existing⟩, paired, isChange⟩ := List.mem_filterMap.mp member
    · cases isChange
    · cases isChange
    · exact (settled _ paired).2 object rfl
    · cases isChange
  rw [List.flatMap_eq_nil_iff.mpr fun pair paired => (settled pair paired).1] at perm
  rw [same, noTables, List.perm_nil.mp perm]
  rfl

end Update

/-! ### Launches -/

/-- A launch of the app: the schema that it has and the version in its configuration. -/
structure Launch where
  schema : Schema
  version : Nat

/-- The file after a launch. One that fails leaves it as it was. -/
def Launch.fileAfter (sync : SyncTables) (group : Group) (launch : Launch) : Group :=
  match updateSchema sync group launch.schema launch.version with
  | .ok (group, _) => group
  | .error _ => group

def Launch.step (sync : SyncTables) (group : Group) (launch : Launch) : Option Group :=
  some (launch.fileAfter sync group)

section Launches

variable {sync : SyncTables} {group : Group} {history : List (Transition Group Launch)}

theorem wellFormed_empty : (({} : Group)).WellFormed where
  tables := List.nodup_nil
  primaryKeys := List.nodup_nil
  columns _ member := nomatch member
  keyed _ _ := rfl
  versioned _ := rfl

theorem Launch.wellFormed_step (indexes : sync.indexesPrimaryKey = true) {group' : Group}
    {launch : Launch} (declared : ∀ object ∈ launch.schema.objects, object.Declared)
    (wellFormed : group.WellFormed) (taken : launch.step sync group = some group') :
    group'.WellFormed := by
  cases taken
  unfold fileAfter
  cases ran : updateSchema sync group launch.schema launch.version with
  | error e => exact wellFormed
  | ok result => exact wellFormed_of_updateSchema wellFormed declared indexes ran

/-- What each launch of a run that opens the file is known to do. -/
theorem updated_of_run (indexes : sync.indexesPrimaryKey = true)
    (run : Run (Launch.step sync) {} history group)
    (declared : ∀ t ∈ history, ∀ object ∈ t.event.schema.objects, object.Declared) :
    ∀ t ∈ history, ∀ objects,
      updateSchema sync t.before t.event.schema t.event.version = .ok (t.after, objects) →
        (Updated t.event.schema t.before t.after ∧
            t.after.schemaVersion = some t.event.version) ∧
          (t.event.schema.objects.map ObjectSchema.name).Pairwise (· < ·) ∧
          ∀ object ∈ t.event.schema.objects, object.Sound := by
  refine run.forall_of_invariant (P := Group.WellFormed)
    (C := fun t => ∀ object ∈ t.event.schema.objects, object.Declared) wellFormed_empty ?_ ?_
    declared
  · intro group launch group' isDeclared wellFormed taken
    exact launch.wellFormed_step indexes isDeclared wellFormed taken
  · intro group launch group' isDeclared wellFormed taken objects updated
    have valid := (cases_of_updateSchema updated).1
    refine ⟨updated_of_updateSchema wellFormed isDeclared indexes updated,
      Schema.nodup_of_validate valid, ?_⟩
    intro object member
    exact Schema.sound_of_validate valid member (isDeclared object member)

/-- Every launch that opens the file leaves nothing to change for the next one with the same
schema and version, which opens the file and writes nothing. -/
theorem reopens_of_run (indexes : sync.indexesPrimaryKey = true)
    (run : Run (Launch.step sync) {} history group)
    (declared : ∀ t ∈ history, ∀ object ∈ t.event.schema.objects, object.Declared) :
    ∀ t ∈ history, ∀ objects,
      updateSchema sync t.before t.event.schema t.event.version = .ok (t.after, objects) →
        (schemaFromGroup t.after).compare t.event.schema = [] ∧
          t.after.schemaVersion = some t.event.version ∧
          ∃ objects', updateSchema sync t.after t.event.schema t.event.version =
            .ok (t.after, objects') := by
  intro t member objects opened
  obtain ⟨⟨result, isVersion⟩, ascending, sound⟩ :=
    updated_of_run indexes run declared t member objects opened
  have noChanges := compare_of_updated result ascending sound
  refine ⟨noChanges, isVersion, t.event.schema.copyTableColumnsFrom (schemaFromGroup t.after), ?_⟩
  rw [updateSchema, if_neg (not_not.mpr (cases_of_updateSchema opened).1),
    if_pos ⟨isVersion, noChanges⟩]

/-- The class `Note` as `objectStoreCopy` hands it over. -/
def noteClass : ObjectSchema where
  name := Note.objectSchema.name
  persistedProperties :=
    Note.objectSchema.persistedProperties.map fun property => { toProperty := property }
  primaryKey := Note.objectSchema.primaryKey

/-- A later version: the title is gone, there is a place, and `hasNote` has an index. -/
def laterNoteClass : ObjectSchema where
  name := Note.objectSchema.name
  persistedProperties :=
    [{ toProperty := Note.photoIdProperty },
      { toProperty := Note.hasNoteProperty, isIndexed := true },
      { toProperty := Note.noteDetailProperty },
      { name := "place", type := .string, tableColumn := 0 }]
  primaryKey := Note.objectSchema.primaryKey

/-- The first launch of the app. -/
def Launch.first : Launch := ⟨Schema.ofList [noteClass], 0⟩

def Launch.later : Launch := ⟨Schema.ofList [laterNoteClass], 1⟩

theorem declared_first : ∀ object ∈ Launch.first.schema.objects, object.Declared := by
  intro object member
  have isNote : object = noteClass := by
    simpa [Launch.first, Schema.ofList] using member
  subst isNote
  exact ⟨by decide, by decide, by decide, by decide⟩

theorem declared_later : ∀ object ∈ Launch.later.schema.objects, object.Declared := by
  intro object member
  have isNote : object = laterNoteClass := by
    simpa [Launch.later, Schema.ofList] using member
  subst isNote
  exact ⟨by decide, by decide, by decide, by decide⟩

theorem Launch.opened_of_isOk {launch : Launch}
    (isOk : (updateSchema sync group launch.schema launch.version).isOk = true) :
    ∃ objects, updateSchema sync group launch.schema launch.version =
      .ok (launch.fileAfter sync group, objects) := by
  unfold fileAfter
  cases ran : updateSchema sync group launch.schema launch.version with
  | error e =>
      rw [ran] at isOk
      cases isOk
  | ok result => exact ⟨result.2, rfl⟩

/-- The app is launched for the first time, and again after an update. -/
def twoVersions : List (Transition Group Launch) :=
  [⟨{}, Launch.first, Launch.first.fileAfter {} {}⟩,
    ⟨Launch.first.fileAfter {} {}, Launch.later,
      Launch.later.fileAfter {} (Launch.first.fileAfter {} {})⟩]

theorem run_twoVersions : Run (Launch.step {}) {} twoVersions
    (Launch.later.fileAfter {} (Launch.first.fileAfter {} {})) :=
  .snoc (.snoc .nil rfl) rfl

theorem declared_twoVersions :
    ∀ t ∈ twoVersions, ∀ object ∈ t.event.schema.objects, object.Declared := by
  intro t member
  rcases List.mem_cons.mp member with rfl | later
  · exact declared_first
  · rw [List.mem_singleton.mp later]
    exact declared_later

theorem reopens_of_run_twoVersions :
    (schemaFromGroup (Launch.later.fileAfter {} (Launch.first.fileAfter {} {}))).compare
        Launch.later.schema = [] ∧
      (Launch.later.fileAfter {} (Launch.first.fileAfter {} {})).schemaVersion = some 1 ∧
      ∃ objects, updateSchema {} (Launch.later.fileAfter {} (Launch.first.fileAfter {} {}))
        Launch.later.schema 1 =
          .ok (Launch.later.fileAfter {} (Launch.first.fileAfter {} {}), objects) := by
  obtain ⟨objects, opened⟩ : ∃ objects, updateSchema {} (Launch.first.fileAfter {} {})
      Launch.later.schema Launch.later.version =
        .ok (Launch.later.fileAfter {} (Launch.first.fileAfter {} {}), objects) :=
    Launch.opened_of_isOk (by decide +kernel)
  obtain ⟨noChanges, isVersion, again⟩ := reopens_of_run rfl run_twoVersions declared_twoVersions
    ⟨Launch.first.fileAfter {} {}, Launch.later,
      Launch.later.fileAfter {} (Launch.first.fileAfter {} {})⟩
    (List.mem_cons_of_mem _ (List.mem_singleton_self _)) objects opened
  exact ⟨noChanges, isVersion, again⟩

/-! ### Values -/

/-- The values of a property, row by row. -/
def Group.values (self : Group) (objectType property : String) : Option (List PropertyValue) :=
  (self.tableForObjectType objectType).bind fun table =>
    (table.columns.find? fun column => column.name = property).map Column.values

/-- The schema of a launch, if it has the class at all, has the property with the type that
it has in the file, and not as required where the file has it as optional. -/
def Launch.Keeps (objectType property : String) (before : Group) (launch : Launch) : Prop :=
  ∀ object ∈ launch.schema.objects, object.name = objectType →
    ∃ targetProp ∈ object.persistedProperties, targetProp.name = property ∧
      ∀ table column, before.tableForObjectType objectType = some table →
        column ∈ table.columns → column.name = property →
          column.type = targetProp.type ∧
            (column.isNullable = true → targetProp.isNullable = true)

theorem find?_column {table : Table} (distinct : (table.columns.map Column.name).Nodup)
    {column : Column} (member : column ∈ table.columns) :
    (table.columns.find? fun other => other.name = column.name) = some column := by
  have found : lookup Column.name table.columns column.name = some column :=
    (lookup_eq_some_iff distinct).mpr ⟨member, rfl⟩
  exact found

theorem Updated.values_eq {schema : Schema} {before after : Group} {version : Nat}
    (result : Updated schema before after) (wellFormed : before.WellFormed)
    {objectType property : String} (visible : property ≠ "!OID") {values : List PropertyValue}
    (held : before.values objectType property = some values)
    (keeps : Launch.Keeps objectType property before ⟨schema, version⟩) :
    after.values objectType property = some values := by
  obtain ⟨table, found, inTable⟩ := Option.bind_eq_some_iff.mp held
  by_cases inSchema : objectType ∈ schema.objects.map ObjectSchema.name
  · obtain ⟨object, isObject, rfl⟩ := List.mem_map.mp inSchema
    obtain ⟨targetProp, member, rfl, fits⟩ := keeps object isObject rfl
    obtain ⟨table', found', migrated⟩ := result.classes object isObject
    rw [found] at migrated
    have inFile := ((lookup_eq_some_iff wellFormed.tables).mp found).1
    obtain ⟨column, isColumn, rfl⟩ := Option.map_eq_some_iff.mp inTable
    have named := List.find?_some isColumn
    have isNamed : column.name = targetProp.name := of_decide_eq_true named
    have columnIn := List.mem_of_find?_eq_some isColumn
    have sameValues : (targetProp.columnFrom table).values = column.values := by
      rw [targetProp.columnFrom_of_mem (wellFormed.columns table inFile) columnIn isNamed,
        Property.updatedColumn, if_pos (fits table column found columnIn isNamed)]
    have name := targetProp.name_columnFrom table
    have columnAfter : targetProp.columnFrom table ∈ table'.columns :=
      (migrated.columns _ (name ▸ visible)).mpr ⟨targetProp, member, rfl⟩
    have isFound := find?_column migrated.distinct columnAfter
    rw [name] at isFound
    rw [Group.values, found', Option.bind_some, isFound, Option.map_some, sameValues]
  · have same := congrArg Prod.fst (result.others objectType inSchema)
    have sameTable : after.tableForObjectType objectType = some table := same.trans found
    rw [Group.values, sameTable, Option.bind_some]
    exact inTable

/-- The values of a property outlive any launches, those that fail and those that migrate
the file, if no launch gives the property up, changes its type or requires it again. -/
theorem values_of_run (indexes : sync.indexesPrimaryKey = true) {start : Group}
    (wellFormed : start.WellFormed)
    (run : Run (Launch.step sync) start history group)
    (declared : ∀ t ∈ history, ∀ object ∈ t.event.schema.objects, object.Declared)
    {objectType property : String} (visible : property ≠ "!OID") {values : List PropertyValue}
    (held : start.values objectType property = some values)
    (keeps : ∀ t ∈ history, t.event.Keeps objectType property t.before) :
    group.values objectType property = some values := by
  have both := run.invariant
    (P := fun group => group.WellFormed ∧ group.values objectType property = some values)
    (C := fun t => (∀ object ∈ t.event.schema.objects, object.Declared) ∧
      t.event.Keeps objectType property t.before) ⟨wellFormed, held⟩ (by
    rintro group launch group' ⟨isDeclared, keeping⟩ ⟨isWellFormed, holds⟩ taken
    refine ⟨launch.wellFormed_step indexes isDeclared isWellFormed taken, ?_⟩
    cases taken
    unfold Launch.fileAfter
    cases ran : updateSchema sync group launch.schema launch.version with
    | error e => exact holds
    | ok result =>
        exact (updated_of_updateSchema isWellFormed isDeclared indexes ran).1.values_eq
          isWellFormed visible holds keeping)
    fun t member => ⟨declared t member, keeps t member⟩
  exact both.2

/-- A file of the first version with one note. -/
def oneNote : Group where
  tables :=
    [⟨"Note", [⟨"photoId", .string, false, true, [.string "sunset"]⟩,
      ⟨"hasNote", .bool, false, false, [.bool true]⟩,
      ⟨"noteTitle", .string, true, false, [.null]⟩,
      ⟨"noteDetail", .string, true, false, [.string "Seen from the pier"]⟩], 1, by decide⟩]
  primaryKeys := [("Note", "photoId")]
  schemaVersion := some 0

theorem wellFormed_oneNote : oneNote.WellFormed where
  tables := by simp [Distinct, oneNote]
  primaryKeys := by simp [Distinct, oneNote]
  columns := by decide
  keyed name missing := by
    rw [Group.tableForObjectType, lookup_eq_none_iff] at missing
    have absent : lookup Prod.fst oneNote.primaryKeys name = none := lookup_eq_none_iff.mpr missing
    rw [Group.getPrimaryKeyForObject, absent]
    rfl
  versioned := nofun

/-- The file is opened by the later version, which removes the column of the title. -/
def laterOnly : List (Transition Group Launch) :=
  [⟨oneNote, Launch.later, Launch.later.fileAfter {} oneNote⟩]

theorem run_laterOnly :
    Run (Launch.step {}) oneNote laterOnly (Launch.later.fileAfter {} oneNote) :=
  .snoc .nil rfl

theorem values_of_run_laterOnly :
    (updateSchema {} oneNote Launch.later.schema Launch.later.version).isOk = true ∧
      oneNote.values "Note" "noteDetail" = some [.string "Seen from the pier"] ∧
      (Launch.later.fileAfter {} oneNote).values "Note" "noteDetail" =
        some [.string "Seen from the pier"] := by
  refine ⟨by decide +kernel, rfl, ?_⟩
  refine values_of_run rfl wellFormed_oneNote run_laterOnly ?_ (by decide) rfl ?_
  · intro t member
    rw [List.mem_singleton.mp member]
    exact declared_later
  · intro t member
    rw [List.mem_singleton.mp member]
    intro object isObject _
    have isNote : object = laterNoteClass := by
      simpa [Launch.later, Schema.ofList] using isObject
    subst isNote
    refine ⟨{ toProperty := Note.noteDetailProperty }, by decide, rfl, ?_⟩
    intro table column found inTable named
    cases found
    have isDetail : column = ⟨"noteDetail", .string, true, false,
        [.string "Seen from the pier"]⟩ := by
      simp only [List.mem_cons, List.not_mem_nil, or_false] at inTable
      rcases inTable with rfl | rfl | rfl | rfl
      · exact absurd named (by decide)
      · exact absurd named (by decide)
      · exact absurd named (by decide)
      · rfl
    subst isDetail
    exact ⟨rfl, fun _ => rfl⟩

/-! ### A file of the same version -/

/-- Table and class have the same properties, up to their indexes. -/
structure SameProperties (table : Table) (object : ObjectSchema) : Prop where
  columns : ∀ column ∈ table.columns, column.name ≠ "!OID" →
    ∃ property ∈ object.persistedProperties, property.name = column.name ∧
      property.type = column.type ∧ property.isNullable = column.isNullable
  properties : ∀ property ∈ object.persistedProperties,
    ∃ column ∈ table.columns, column.name = property.name

theorem automatic_compareProperty_iff {existing object : ObjectSchema} {current : Property} :
    (∀ c ∈ compareProperty existing object current, c.isAutomatic = true) ↔
      ∃ targetProp, object.propertyForName current.name = some targetProp ∧
        targetProp.type = current.type ∧ targetProp.isNullable = current.isNullable := by
  cases found : object.propertyForName current.name with
  | none =>
      rw [compareProperty_of_missing found]
      constructor
      · intro automatic
        cases automatic _ (List.mem_singleton_self _)
      · rintro ⟨targetProp, isFound, -⟩
        cases isFound
  | some targetProp =>
      rw [compareProperty_of_found found]
      split_ifs with otherType
      · constructor
        · intro automatic
          cases automatic _ (List.mem_singleton_self _)
        · rintro ⟨other, isFound, type, -⟩
          cases isFound
          exact absurd type.symm otherType
      · have ofIndex : ∀ c ∈ indexChanges existing current targetProp, c.isAutomatic = true := by
          intro c member
          have index := (indexChanges_kinds member).2
          cases c with
          | addIndex new property => rfl
          | removeIndex new property => rfl
          | _ => cases index
        constructor
        · intro automatic
          refine ⟨targetProp, rfl, (not_not.mp otherType).symm, ?_⟩
          rcases nullabilityChanges_cases existing current targetProp with
            ⟨changes, -⟩ | ⟨changes, -⟩ | ⟨-, same⟩
          · rw [changes] at automatic
            cases automatic _ (List.mem_append_left _ (List.mem_singleton_self _))
          · rw [changes] at automatic
            cases automatic _ (List.mem_append_left _ (List.mem_singleton_self _))
          · exact same.symm
        · rintro ⟨other, isFound, -, nullable⟩ c member
          cases isFound
          rcases List.mem_append.mp member with isNullability | isIndex
          · rw [nullabilityChanges, if_neg (not_not.mpr nullable.symm)] at isNullability
            cases isNullability
          · exact ofIndex c isIndex

theorem automatic_compareObject_iff {table : Table} {primaryKey : String} {object : ObjectSchema}
    (sound : object.Sound) :
    (∀ c ∈ compareObject (table.objectSchema primaryKey) object, c.isAutomatic = true) ↔
      primaryKey = object.primaryKey ∧ SameProperties table object := by
  constructor
  · intro automatic
    refine ⟨?_, ?_, ?_⟩
    · by_contra keep
      have differ : (table.objectSchema primaryKey).primaryKey ≠ object.primaryKey := keep
      cases automatic _ (changePrimaryKey_mem_compareObject differ)
    · intro column member visible
      obtain ⟨i, held⟩ := List.mem_iff_getElem?.mp member
      have inSchema := mem_objectSchema_iff.mpr
        ⟨i, column, held, visible, Eq.refl (column.property primaryKey i)⟩
      obtain ⟨targetProp, found, type, nullable⟩ := automatic_compareProperty_iff.mp
        fun c isChange => automatic c (List.mem_append_left _ (List.mem_append_left _
          (List.mem_flatMap.mpr ⟨_, inSchema, isChange⟩)))
      exact ⟨targetProp, List.mem_of_find?_eq_some found,
        ObjectSchema.name_of_propertyForName found, type, nullable⟩
    · intro property member
      by_contra missing
      have isNew : property ∈ addedProperties (table.objectSchema primaryKey) object :=
        (mem_addedProperties_iff sound).mpr
          ⟨member, fun column inTable name => missing ⟨column, inTable, name⟩⟩
      cases automatic _ (List.mem_append_right _ (List.mem_map_of_mem isNew))
  · rintro ⟨sameKey, columns, properties⟩ c member
    rcases cases_of_mem_compareObject member with ⟨current, inSchema, isChange⟩ | keyed |
      ⟨property, isNew, rfl⟩
    · obtain ⟨i, column, held, visible, rfl⟩ := mem_objectSchema_iff.mp inSchema
      obtain ⟨property, inObject, name, type, nullable⟩ :=
        columns column (List.mem_of_getElem? held) visible
      refine automatic_compareProperty_iff.mpr ⟨property, ?_, type, nullable⟩ c isChange
      have found := ObjectSchema.propertyForName_of_mem sound.names inObject
      rw [name] at found
      exact found
    · have same : ¬ (table.objectSchema primaryKey).primaryKey ≠ object.primaryKey :=
        not_not.mpr sameKey
      rw [changedPrimaryKey, if_neg same] at keyed
      cases keyed
    · obtain ⟨inObject, missing⟩ := (mem_addedProperties_iff sound).mp isNew
      obtain ⟨column, inTable, name⟩ := properties property inObject
      exact absurd name (missing column inTable)

/-- The list has nothing but new classes and indexes where every class that is in the file
has the same properties there. -/
theorem automatic_compare_iff {schema : Schema} (wellFormed : group.WellFormed)
    (ascending : (schema.objects.map ObjectSchema.name).Pairwise (· < ·))
    (sound : ∀ object ∈ schema.objects, object.Sound) :
    (∀ c ∈ (schemaFromGroup group).compare schema, c.isAutomatic = true) ↔
      ∀ object ∈ schema.objects, ∀ table,
        group.tableForObjectType object.name = some table →
          group.getPrimaryKeyForObject object.name = object.primaryKey ∧
            SameProperties table object := by
  obtain ⟨rest, same, -, perm⟩ := (schemaFromGroup group).compare_eq schema
  have indexed := wellFormed.toIndexed
  constructor
  · intro automatic object member table found
    obtain ⟨held, paired⟩ := @exists_paired group _ _ member
    cases held with
    | none =>
        have missing := tableForObjectType_of_alone indexed ascending (sound object member).named
          paired
        cases missing.symm.trans found
    | some existing =>
        obtain ⟨table', found', rfl⟩ := tableForObjectType_of_paired indexed paired
        cases found.symm.trans found'
        refine (automatic_compareObject_iff (sound object member)).mp fun c isChange => ?_
        apply automatic c
        rw [same]
        exact List.mem_append_right _
          (perm.mem_iff.mpr (List.mem_flatMap.mpr ⟨_, paired, isChange⟩))
  · intro agree c member
    rw [same] at member
    rcases List.mem_append.mp member with isTable | later
    · obtain ⟨⟨_ | object, _ | existing⟩, -, isChange⟩ := List.mem_filterMap.mp isTable
      · cases isChange
      · cases isChange
      · cases isChange
        rfl
      · cases isChange
    · obtain ⟨⟨_ | object, held⟩, paired, isChange⟩ :=
        List.mem_flatMap.mp (perm.mem_iff.mp later)
      · cases isChange
      · have isObject := mem_of_mem_zipMatching paired
        cases held with
        | none =>
            rw [List.mem_singleton.mp isChange]
            rfl
        | some existing =>
            obtain ⟨table, found, rfl⟩ := tableForObjectType_of_paired indexed paired
            exact (automatic_compareObject_iff (sound object isObject)).mpr
              (agree object isObject table found) c isChange

/-- Core takes the name of the class's table and those of its columns. -/
structure ObjectSchema.NamesFit (object : ObjectSchema) : Prop where
  table : (tableNameForObjectType object.name).utf8ByteSize ≤ maxTableNameLength
  columns : ∀ property ∈ object.persistedProperties,
    property.name.utf8ByteSize ≤ maxColumnNameLength

theorem SchemaChange.nameError_eq_none_iff {c : SchemaChange} : c.nameError = none ↔
    (∀ name ∈ c.tableNames, name.utf8ByteSize ≤ maxTableNameLength) ∧
      ∀ name ∈ c.columnNames, name.utf8ByteSize ≤ maxColumnNameLength := by
  unfold nameError
  split_ifs with longTable longColumn
  · obtain ⟨name, member, long⟩ := longTable
    simp only [false_iff, not_and_or]
    exact Or.inl fun fit => Nat.not_le_of_lt long (fit name member)
  · obtain ⟨name, member, long⟩ := longColumn
    simp only [false_iff, not_and_or]
    exact Or.inr fun fit => Nat.not_le_of_lt long (fit name member)
  · refine iff_of_true rfl ⟨fun name member => ?_, fun name member => ?_⟩
    · exact Nat.le_of_not_lt fun long => longTable ⟨name, member, long⟩
    · exact Nat.le_of_not_lt fun long => longColumn ⟨name, member, long⟩

/-- The two changes of a new class ask for its table and, between them, for its columns. -/
theorem ObjectSchema.namesFit_iff {object : ObjectSchema} (sound : object.Sound) :
    object.NamesFit ↔ (SchemaChange.addTable object).nameError = none ∧
      (SchemaChange.addInitialProperties object).nameError = none := by
  rw [SchemaChange.nameError_eq_none_iff, SchemaChange.nameError_eq_none_iff]
  constructor
  · rintro ⟨table, columns⟩
    refine ⟨⟨List.forall_mem_singleton.mpr table, ?_⟩, List.forall_mem_nil _, ?_⟩
    · intro name member
      cases found : object.primaryKeyProperty with
      | none =>
          rw [SchemaChange.columnNames, found] at member
          cases member
      | some property =>
          rw [SchemaChange.columnNames, found] at member
          rw [List.mem_singleton.mp member]
          exact columns property (sound.primaryKeyProperty_eq_some_iff.mp found).1
    · intro name member
      obtain ⟨property, kept, rfl⟩ := List.mem_map.mp member
      exact columns property (List.mem_of_mem_filter kept)
  · rintro ⟨⟨table, key⟩, -, others⟩
    refine ⟨table _ (List.mem_singleton_self _), fun property member => ?_⟩
    cases isPrimary : property.isPrimary with
    | true =>
        have found := sound.primaryKeyProperty_eq_some_iff.mpr ⟨member, isPrimary⟩
        apply key
        rw [SchemaChange.columnNames, found]
        exact List.mem_singleton_self _
    | false =>
        exact others _ (List.mem_map_of_mem (List.mem_filter.mpr ⟨member, by rw [isPrimary]; rfl⟩))

/-- Core takes the names of every class that the file does not have. -/
def Schema.NewNamesFit (self : Schema) (group : Group) : Prop :=
  ∀ object ∈ self.objects, group.tableForObjectType object.name = none → object.NamesFit

theorem newNamesFit_iff {schema : Schema} (wellFormed : group.WellFormed)
    (ascending : (schema.objects.map ObjectSchema.name).Pairwise (· < ·))
    (sound : ∀ object ∈ schema.objects, object.Sound) :
    schema.NewNamesFit group ↔
      (((schemaFromGroup group).compare schema).filter SchemaChange.isAutomatic).findSome?
        SchemaChange.nameError = none := by
  obtain ⟨rest, same, -, perm⟩ := (schemaFromGroup group).compare_eq schema
  have indexed := wellFormed.toIndexed
  rw [List.findSome?_eq_none_iff]
  constructor
  · intro fit c supported
    obtain ⟨member, automatic⟩ := List.mem_filter.mp supported
    have ofNew {object : ObjectSchema}
        (paired : (some object, none) ∈ (schemaFromGroup group).pairs schema) :
        (SchemaChange.addTable object).nameError = none ∧
          (SchemaChange.addInitialProperties object).nameError = none := by
      have isObject := mem_of_mem_zipMatching paired
      exact (ObjectSchema.namesFit_iff (sound object isObject)).mp (fit object isObject
        (tableForObjectType_of_alone indexed ascending (sound object isObject).named paired))
    rw [same] at member
    rcases List.mem_append.mp member with isTable | later
    · obtain ⟨⟨_ | object, _ | existing⟩, paired, isChange⟩ := List.mem_filterMap.mp isTable
      · cases isChange
      · cases isChange
      · cases isChange
        exact (ofNew paired).1
      · cases isChange
    · obtain ⟨⟨_ | object, _ | existing⟩, paired, isChange⟩ :=
        List.mem_flatMap.mp (perm.mem_iff.mp later)
      · cases isChange
      · cases isChange
      · rw [List.mem_singleton.mp isChange]
        exact (ofNew paired).2
      · rw [SchemaChange.nameError_eq_none_iff]
        cases c with
        | addTable new => exact absurd isChange not_mem_compareObject_addTable
        | addInitialProperties new =>
            exact absurd isChange not_mem_compareObject_addInitialProperties
        | addIndex new property => exact ⟨List.forall_mem_nil _, List.forall_mem_nil _⟩
        | removeIndex new property => exact ⟨List.forall_mem_nil _, List.forall_mem_nil _⟩
        | _ => cases automatic
  · intro noError object member missing
    obtain ⟨held, paired⟩ := @exists_paired group _ _ member
    cases held with
    | some existing =>
        obtain ⟨table, found, -⟩ := tableForObjectType_of_paired indexed paired
        cases missing.symm.trans found
    | none =>
        refine (ObjectSchema.namesFit_iff (sound object member)).mpr ⟨?_, ?_⟩
        · refine noError _ (List.mem_filter.mpr ⟨?_, rfl⟩)
          rw [same]
          exact List.mem_append_left _ (List.mem_filterMap.mpr ⟨_, paired, rfl⟩)
        · refine noError _ (List.mem_filter.mpr ⟨?_, rfl⟩)
          rw [same]
          exact List.mem_append_right _ (perm.mem_iff.mpr
            (List.mem_flatMap.mpr ⟨_, paired, List.mem_singleton_self _⟩))

/-- With the version of the file, an update is the one pass that may fail. -/
theorem updateSchema_of_sameVersion {schema : Schema} {version : Nat}
    (valid : schema.validate = []) (sameVersion : group.schemaVersion = some version) :
    let changes := (schemaFromGroup group).compare schema
    let nameError := (changes.filter SchemaChange.isAutomatic).findSome? SchemaChange.nameError
    (∀ kind, nameError = some kind →
        updateSchema sync group schema version = .error (.logicError kind)) ∧
      (nameError = none →
        ((∀ c ∈ changes, c.isAutomatic = true) →
          ∃ opened, updateSchema sync group schema version = .ok opened) ∧
        ((∃ c ∈ changes, c.isAutomatic = false) →
          ∃ errors, errors ≠ [] ∧
            updateSchema sync group schema version = .error (.schemaMismatch errors))) := by
  intro changes nameError
  have noOlder : (group.schemaVersion.filter fun schemaVersion => version < schemaVersion) =
      none := by
    rw [sameVersion]
    simp
  have onePass : applySchemaChanges sync group version changes =
      applyNonMigrationChanges sync group changes := by
    simp only [applySchemaChanges, sameVersion, if_true]
  rw [updateSchema, if_neg (not_not.mpr valid)]
  dsimp only
  rw [noOlder, onePass, applyNonMigrationChanges_eq]
  refine ⟨?_, fun named => ⟨?_, ?_⟩⟩
  · intro kind named
    have isNamed : (changes.filter SchemaChange.isAutomatic).findSome? SchemaChange.nameError =
        some kind := named
    have someChange : ¬ (group.schemaVersion = some version ∧ changes = []) := by
      rintro ⟨-, noChanges⟩
      rw [noChanges] at isNamed
      cases isNamed
    rw [if_neg someChange, isNamed]
    rfl
  · intro automatic
    have isNamed : (changes.filter SchemaChange.isAutomatic).findSome? SchemaChange.nameError =
        none := named
    rw [isNamed, Option.elim_none, if_pos automatic]
    split_ifs
    · exact ⟨_, rfl⟩
    · exact ⟨_, rfl⟩
  · rintro ⟨c, member, unsupported⟩
    have isNamed : (changes.filter SchemaChange.isAutomatic).findSome? SchemaChange.nameError =
        none := named
    have notAll : ¬ ∀ c ∈ changes, c.isAutomatic = true := by
      intro automatic
      cases unsupported.symm.trans (automatic c member)
    rw [if_neg fun settled => List.ne_nil_of_mem member settled.2, isNamed, Option.elim_none,
      if_neg notAll]
    refine ⟨_, ?_, rfl⟩
    intro noErrors
    exact explain_ne_nil unsupported (List.flatMap_eq_nil_iff.mp noErrors c
      (List.mem_filter.mpr ⟨member, by simp [unsupported]⟩))

/-- After any launches, an app of the version that the file has opens it exactly if core takes
the names of its new classes, and every class that both have has the same primary key and the
same properties, of the same types and as optional as before. A name that core does not take
is its `LogicError`; without one, the app is told what it would have to migrate. -/
theorem opens_iff_of_run (indexes : sync.indexesPrimaryKey = true)
    (run : Run (Launch.step sync) {} history group)
    (declared : ∀ t ∈ history, ∀ object ∈ t.event.schema.objects, object.Declared)
    {launch : Launch} (isDeclared : ∀ object ∈ launch.schema.objects, object.Declared)
    (valid : launch.schema.validate = [])
    (sameVersion : group.schemaVersion = some launch.version) :
    ((∃ opened, updateSchema sync group launch.schema launch.version = .ok opened) ↔
        launch.schema.NewNamesFit group ∧
          ∀ object ∈ launch.schema.objects, ∀ table,
            group.tableForObjectType object.name = some table →
              group.getPrimaryKeyForObject object.name = object.primaryKey ∧
                SameProperties table object) ∧
      (launch.schema.NewNamesFit group →
        (∃ opened, updateSchema sync group launch.schema launch.version = .ok opened) ∨
          ∃ errors, errors ≠ [] ∧ updateSchema sync group launch.schema launch.version =
            .error (.schemaMismatch errors)) ∧
      (¬ launch.schema.NewNamesFit group →
        ∃ kind, updateSchema sync group launch.schema launch.version =
          .error (.logicError kind)) := by
  have wellFormed := run.invariant (P := Group.WellFormed)
    (C := fun t => ∀ object ∈ t.event.schema.objects, object.Declared) wellFormed_empty
    (fun group launch group' isDeclared wellFormed taken =>
      launch.wellFormed_step indexes isDeclared wellFormed taken) declared
  have ascending := Schema.nodup_of_validate valid
  have sound : ∀ object ∈ launch.schema.objects, object.Sound := fun object member =>
    Schema.sound_of_validate valid member (isDeclared object member)
  rw [← automatic_compare_iff wellFormed ascending sound,
    newNamesFit_iff wellFormed ascending sound]
  obtain ⟨fails, opens⟩ := @updateSchema_of_sameVersion sync group _ _ valid sameVersion
  cases named : (((schemaFromGroup group).compare launch.schema).filter
      SchemaChange.isAutomatic).findSome? SchemaChange.nameError with
  | some kind =>
      have failed := fails kind named
      refine ⟨⟨?_, fun fit => (nomatch fit.1)⟩, fun fit => (nomatch fit), fun _ => ⟨kind, failed⟩⟩
      rintro ⟨opened, isOk⟩
      cases isOk.symm.trans failed
  | none =>
      obtain ⟨isOpened, isMismatch⟩ := opens named
      refine ⟨⟨?_, fun fit => isOpened fit.2⟩, fun _ => ?_, fun long => absurd rfl long⟩
      · rintro ⟨opened, isOk⟩
        refine ⟨rfl, fun c member => ?_⟩
        by_contra unsupported
        obtain ⟨errors, -, failed⟩ := isMismatch ⟨c, member, Bool.eq_false_iff.mpr unsupported⟩
        cases isOk.symm.trans failed
      · by_cases automatic :
            ∀ c ∈ (schemaFromGroup group).compare launch.schema, c.isAutomatic = true
        · exact Or.inl (isOpened automatic)
        · have unsupported :
              ∃ c ∈ (schemaFromGroup group).compare launch.schema, c.isAutomatic = false := by
            simpa using automatic
          exact Or.inr (isMismatch unsupported)

/-- The later version of the class, but under the first version's number, is turned down by
the file of the first launch. -/
theorem opens_iff_of_run_firstOnly :
    (¬ ∃ opened, updateSchema {} (Launch.first.fileAfter {} {}) Launch.later.schema 0 =
        .ok opened) ∧
      ∃ errors, errors ≠ [] ∧ updateSchema {} (Launch.first.fileAfter {} {}) Launch.later.schema 0 =
        .error (.schemaMismatch errors) := by
  have run : Run (Launch.step {}) {} [⟨{}, Launch.first, Launch.first.fileAfter {} {}⟩]
      (Launch.first.fileAfter {} {}) := .snoc .nil rfl
  have declaredBefore : ∀ t ∈ [(⟨{}, Launch.first, Launch.first.fileAfter {} {}⟩ :
      Transition Group Launch)], ∀ object ∈ t.event.schema.objects, object.Declared := by
    intro t member
    rw [List.mem_singleton.mp member]
    exact declared_first
  obtain ⟨-, opens, -⟩ := @opens_iff_of_run _ _ _ rfl run declaredBefore ⟨Launch.later.schema, 0⟩
    declared_later (by decide +kernel) (by decide +kernel)
  have fit : Launch.later.schema.NewNamesFit (Launch.first.fileAfter {} {}) := by
    intro object member
    have isNote : object = laterNoteClass := by
      simpa [Launch.later, Schema.ofList] using member
    subst isNote
    intro _
    exact ⟨by decide, by decide⟩
  have refused : ¬ ∃ opened, updateSchema {} (Launch.first.fileAfter {} {})
      Launch.later.schema 0 = .ok opened := by
    rintro ⟨opened, isOk⟩
    have failed : (updateSchema {} (Launch.first.fileAfter {} {})
      Launch.later.schema 0).isOk = false := by decide +kernel
    rw [isOk] at failed
    cases failed
  exact ⟨refused, (opens fit).resolve_left refused⟩

end Launches

end FileSchema

end Phonotes
