import Mathlib.Data.List.Permutation
import Phonotes.ObjectTables

/-!
What a migration makes of a table.

The passes of `object_store.cpp` go through one list of changes, and a property may have
two of them: its column is made optional or required, and gets or loses its index. The list
does not say in which order, since `std::partition` keeps none. The result is stated without
the list: every property of the app's class has its column, made new, or made from the one
that had its name.
-/

namespace Phonotes

namespace FileSchema

open Sequences

/-! ### The result -/

/-- A column that has the name of a property, made to fit the property. It keeps its values
unless the type is another one or null is no longer allowed. -/
def Property.updatedColumn (self : Property) (size : Nat) (column : Column) : Column :=
  if column.type = self.type ∧ (column.isNullable = true → self.isNullable = true) then
    { self.newColumn size with values := column.values }
  else self.newColumn size

/-- The column of a property after a migration of this table. -/
def Property.columnFrom (self : Property) (table : Table) : Column :=
  match table.columns.find? fun column => column.name = self.name with
  | some column => self.updatedColumn table.size column
  | none => self.newColumn table.size

/-- A table after the migration to a class, where a new class starts with no columns. -/
structure Migrated (object : ObjectSchema) (before after : Table) : Prop where
  size : after.size = before.size
  distinct : (after.columns.map Column.name).Nodup
  columns : ∀ column : Column, column.name ≠ "!OID" →
    (column ∈ after.columns ↔
      ∃ property ∈ object.persistedProperties, column = property.columnFrom before)

theorem Property.name_updatedColumn (self : Property) (size : Nat) (column : Column) :
    (self.updatedColumn size column).name = self.name := by
  unfold updatedColumn
  split_ifs <;> rfl

theorem Property.name_columnFrom (self : Property) (table : Table) :
    (self.columnFrom table).name = self.name := by
  unfold columnFrom
  split
  · exact self.name_updatedColumn _ _
  · rfl

/-- Up to its index, a new column depends on the name, the type and whether it allows null. -/
theorem Property.newColumn_eq {prop prop' : Property} {size : Nat} (name : prop.name = prop'.name)
    (type : prop.type = prop'.type) (nullable : prop.isNullable = prop'.isNullable) :
    { prop.newColumn size with hasSearchIndex := prop'.requiresIndex } = prop'.newColumn size := by
  simp only [newColumn, emptyValue, name, type, nullable]

theorem Property.columnFrom_of_mem {table : Table} (self : Property)
    (distinct : (table.columns.map Column.name).Nodup) {column : Column}
    (member : column ∈ table.columns) (named : column.name = self.name) :
    self.columnFrom table = self.updatedColumn table.size column := by
  unfold columnFrom
  cases found : table.columns.find? fun column => column.name = self.name with
  | none => exact absurd (decide_eq_true named) (List.find?_eq_none.mp found column member)
  | some other =>
      have named' := List.find?_some found
      have same := List.inj_on_of_nodup_map distinct (List.mem_of_find?_eq_some found) member
        ((of_decide_eq_true named').trans named.symm)
      rw [same]

theorem Property.columnFrom_of_missing {table : Table} (self : Property)
    (missing : ∀ column ∈ table.columns, column.name ≠ self.name) :
    self.columnFrom table = self.newColumn table.size := by
  have none : (table.columns.find? fun column => column.name = self.name) = none :=
    List.find?_eq_none.mpr fun column member named =>
      missing column member (of_decide_eq_true named)
  rw [columnFrom, none]

theorem mem_addedProperties_iff {table : Table} {primaryKey : String} {object : ObjectSchema}
    (sound : object.Sound) {property : Property} :
    property ∈ addedProperties (table.objectSchema primaryKey) object ↔
      property ∈ object.persistedProperties ∧
        ∀ column ∈ table.columns, column.name ≠ property.name := by
  rw [addedProperties, List.mem_filter, Option.isNone_iff_eq_none,
    propertyForName_objectSchema_eq_none_iff]
  constructor
  · rintro ⟨member, missing⟩
    refine ⟨member, fun column inTable named => missing column inTable ?_ named⟩
    exact named ▸ sound.visible property member
  · rintro ⟨member, missing⟩
    exact ⟨member, fun column inTable _ => missing column inTable⟩

/-- An index is created or removed. -/
def SchemaChange.isIndexChange : SchemaChange → Bool
  | .addIndex _ _ => true
  | .removeIndex _ _ => true
  | _ => false

/-! ### One column -/

section Column

variable {existing object : ObjectSchema} {current targetProp : Property}

theorem indexChanges_cases (existing : ObjectSchema) (current targetProp : Property) :
    (indexChanges existing current targetProp = [.addIndex existing current] ∧
        targetProp.requiresIndex = true) ∨
      (indexChanges existing current targetProp = [.removeIndex existing current] ∧
        targetProp.requiresIndex = false) ∨
      (indexChanges existing current targetProp = [] ∧
        current.isIndexed = targetProp.requiresIndex ∧
        current.requiresIndex = targetProp.requiresIndex) := by
  unfold indexChanges
  cases wanted : targetProp.requiresIndex with
  | true =>
      cases indexed : current.isIndexed with
      | true => exact Or.inr (Or.inr ⟨rfl, rfl, by simp [Property.requiresIndex, indexed]⟩)
      | false => exact Or.inl ⟨rfl, rfl⟩
  | false =>
      cases required : current.requiresIndex with
      | true => exact Or.inr (Or.inl ⟨rfl, rfl⟩)
      | false =>
          rw [Property.requiresIndex, Bool.or_eq_false_iff] at required
          exact Or.inr (Or.inr ⟨rfl, required.2, rfl⟩)

theorem nullabilityChanges_cases (existing : ObjectSchema) (current targetProp : Property) :
    (nullabilityChanges existing current targetProp = [.makePropertyRequired existing current] ∧
        current.isNullable = true ∧ targetProp.isNullable = false) ∨
      (nullabilityChanges existing current targetProp = [.makePropertyNullable existing current] ∧
        current.isNullable = false ∧ targetProp.isNullable = true) ∨
      (nullabilityChanges existing current targetProp = [] ∧
        current.isNullable = targetProp.isNullable) := by
  unfold nullabilityChanges
  cases before : current.isNullable with
  | true =>
      cases after : targetProp.isNullable with
      | true => exact Or.inr (Or.inr ⟨rfl, rfl⟩)
      | false => exact Or.inl ⟨rfl, rfl, rfl⟩
  | false =>
      cases after : targetProp.isNullable with
      | true => exact Or.inr (Or.inl ⟨rfl, rfl, rfl⟩)
      | false => exact Or.inr (Or.inr ⟨rfl, rfl⟩)

/-- The changes of the index of a column, applied in turn. -/
def Column.reindexed (existing : ObjectSchema) (current targetProp : Property) (size : Nat)
    (column : Column) : Column :=
  (indexChanges existing current targetProp).foldl (fun column c => Column.changed size c column)
    column

/-- The changes of the index leave it as it is to be, if it was that of the property. -/
theorem reindexed_eq {size : Nat} {column : Column}
    (index : column.hasSearchIndex = current.isIndexed ∨
      column.hasSearchIndex = current.requiresIndex ∨
      column.hasSearchIndex = targetProp.requiresIndex) :
    column.reindexed existing current targetProp size =
      { column with hasSearchIndex := targetProp.requiresIndex } := by
  unfold Column.reindexed
  rcases indexChanges_cases existing current targetProp with
    ⟨changes, wanted⟩ | ⟨changes, wanted⟩ | ⟨changes, same, same'⟩
  · rw [changes, wanted]
    rfl
  · rw [changes, wanted]
    rfl
  · rw [changes, List.foldl_nil]
    have settled : column.hasSearchIndex = targetProp.requiresIndex := by
      rcases index with index | index | index
      · exact index.trans same
      · exact index.trans same'
      · exact index
    rw [← settled]

theorem indexChanges_kinds {c : SchemaChange}
    (member : c ∈ indexChanges existing current targetProp) :
    c.isNotRemoveProperty = true ∧ c.isIndexChange = true := by
  rcases indexChanges_cases existing current targetProp with
    ⟨changes, -⟩ | ⟨changes, -⟩ | ⟨changes, -⟩
  · rw [changes, List.mem_singleton] at member
    rw [member]
    exact ⟨rfl, rfl⟩
  · rw [changes, List.mem_singleton] at member
    rw [member]
    exact ⟨rfl, rfl⟩
  · rw [changes] at member
    cases member

theorem nullabilityChanges_kinds {c : SchemaChange}
    (member : c ∈ nullabilityChanges existing current targetProp) :
    c.isNotRemoveProperty = true ∧ c.isIndexChange = false := by
  rcases nullabilityChanges_cases existing current targetProp with
    ⟨changes, -⟩ | ⟨changes, -⟩ | ⟨changes, -⟩
  · rw [changes, List.mem_singleton] at member
    rw [member]
    exact ⟨rfl, rfl⟩
  · rw [changes, List.mem_singleton] at member
    rw [member]
    exact ⟨rfl, rfl⟩
  · rw [changes] at member
    cases member

/-- With one change of the nullability there are two orders at most. -/
theorem eq_or_eq_of_perm_cons {first : List SchemaChange} {c : SchemaChange}
    (perm : first.Perm (c :: indexChanges existing current targetProp)) :
    first = c :: indexChanges existing current targetProp ∨
      first = indexChanges existing current targetProp ++ [c] := by
  rcases indexChanges_cases existing current targetProp with
    ⟨changes, -⟩ | ⟨changes, -⟩ | ⟨changes, -⟩
  · rw [changes] at perm ⊢
    exact List.perm_pair.mp perm
  · rw [changes] at perm ⊢
    exact List.perm_pair.mp perm
  · rw [changes] at perm ⊢
    exact Or.inl (List.perm_singleton.mp perm)

theorem eq_of_perm_indexChanges {first : List SchemaChange}
    (perm : first.Perm (indexChanges existing current targetProp)) :
    first = indexChanges existing current targetProp := by
  rcases indexChanges_cases existing current targetProp with
    ⟨changes, -⟩ | ⟨changes, -⟩ | ⟨changes, -⟩
  · rw [changes] at perm ⊢
    exact List.perm_singleton.mp perm
  · rw [changes] at perm ⊢
    exact List.perm_singleton.mp perm
  · rw [changes] at perm ⊢
    exact List.perm_nil.mp perm

/-- A column that is made anew from the old one, wherever the index is changed before it or
behind it. -/
theorem foldl_changed_of_cons {column made : Column} {size : Nat} {c : SchemaChange}
    (makes : Column.changed size c column = made)
    (index : made.hasSearchIndex = current.requiresIndex)
    (indexed : column.hasSearchIndex = current.isIndexed)
    (ignores : ∀ hasSearchIndex,
      Column.changed size c { column with hasSearchIndex } = Column.changed size c column)
    {first : List SchemaChange}
    (perm : first.Perm (c :: indexChanges existing current targetProp)) :
    (first ++ indexChanges existing current targetProp).foldl
        (fun column c => Column.changed size c column) column =
      { made with hasSearchIndex := targetProp.requiresIndex } := by
  have once : made.reindexed existing current targetProp size =
      { made with hasSearchIndex := targetProp.requiresIndex } :=
    reindexed_eq (Or.inr (Or.inl index))
  have before : Column.changed size c (column.reindexed existing current targetProp size) =
      made := by
    rw [reindexed_eq (Or.inl indexed), ignores, makes]
  rcases eq_or_eq_of_perm_cons perm with rfl | rfl
  · rw [List.foldl_append, List.foldl_cons, makes]
    change Column.reindexed existing current targetProp size
      (made.reindexed existing current targetProp size) = _
    rw [once, reindexed_eq (Or.inr (Or.inr rfl))]
  · rw [List.foldl_append, List.foldl_append, List.foldl_cons, List.foldl_nil]
    change Column.reindexed existing current targetProp size (Column.changed size c
      (column.reindexed existing current targetProp size)) = _
    rw [before, once]

/-- The changes of one property make its column fit, whichever comes first. -/
theorem foldl_changed {column : Column} {primaryKey : String} {i size : Nat}
    (isProperty : current = column.property primaryKey i)
    (found : object.propertyForName current.name = some targetProp)
    {first second : List SchemaChange}
    (perm : first.Perm
      ((compareProperty existing object current).filter SchemaChange.isNotRemoveProperty))
    (again : second.Perm
        ((compareProperty existing object current).filter SchemaChange.isIndexChange) ∨
      second = [] ∧ ∀ c ∈ first, c.isIndexChange = true) :
    (first ++ second).foldl (fun column c => Column.changed size c column) column =
      targetProp.updatedColumn size column := by
  have name : targetProp.name = column.name := by
    rw [ObjectSchema.name_of_propertyForName found, isProperty]
    rfl
  have isName : current.name = column.name := by rw [isProperty]; rfl
  have type : current.type = column.type := by rw [isProperty]; rfl
  have nullable : current.isNullable = column.isNullable := by rw [isProperty]; rfl
  have indexed : column.hasSearchIndex = current.isIndexed := by rw [isProperty]; rfl
  rw [compareProperty_of_found found] at perm again
  split_ifs at perm again with otherType
  · have only : first = [.changePropertyType existing current targetProp] :=
      List.perm_singleton.mp perm
    have none : second = [] := again.elim List.perm_nil.mp And.left
    rw [only, none, Property.updatedColumn,
      if_neg fun same => otherType (type.trans same.1)]
    rfl
  · have sameType : column.type = targetProp.type := type.symm.trans (not_not.mp otherType)
    rw [List.filter_append, List.filter_eq_self.mpr fun c member =>
      (nullabilityChanges_kinds member).1, List.filter_eq_self.mpr fun c member =>
      (indexChanges_kinds member).1] at perm
    rw [List.filter_append, List.filter_eq_nil_iff.mpr fun c member =>
      Bool.eq_false_iff.mp (nullabilityChanges_kinds member).2, List.nil_append,
      List.filter_eq_self.mpr fun c member => (indexChanges_kinds member).2] at again
    -- a file that is not migrated gets by with one pass only if nothing but indexes changes
    have twice {c : SchemaChange} (other : c.isIndexChange = false)
        (perm : first.Perm (c :: indexChanges existing current targetProp)) :
        second = indexChanges existing current targetProp := by
      rcases again with same | ⟨-, only⟩
      · exact eq_of_perm_indexChanges same
      · cases other.symm.trans (only _ (perm.mem_iff.mpr List.mem_cons_self))
    rcases nullabilityChanges_cases existing current targetProp with
      ⟨changes, before, after⟩ | ⟨changes, before, after⟩ | ⟨changes, same⟩
    · rw [changes, List.singleton_append] at perm
      have required : ¬ (column.isNullable = true → targetProp.isNullable = true) := by
        simp [← nullable, before, after]
      rw [twice rfl perm, foldl_changed_of_cons rfl rfl indexed (fun _ => rfl) perm,
        Property.updatedColumn, if_neg fun keeps => required keeps.2]
      exact Property.newColumn_eq (isName.trans name.symm) (type.trans sameType) after.symm
    · rw [changes, List.singleton_append] at perm
      rw [twice rfl perm, foldl_changed_of_cons rfl rfl indexed (fun _ => rfl) perm,
        Property.updatedColumn, if_pos ⟨sameType, fun _ => after⟩]
      simp only [Column.changed, Property.newColumn, isName, name, type, sameType, after]
    · rw [changes, List.nil_append] at perm
      have once : column.reindexed existing current targetProp size =
          { column with hasSearchIndex := targetProp.requiresIndex } :=
        reindexed_eq (Or.inl indexed)
      have fits : ({ column with hasSearchIndex := targetProp.requiresIndex } : Column) =
          targetProp.updatedColumn size column := by
        have sameNullable := nullable.symm.trans same
        rw [Property.updatedColumn, if_pos ⟨sameType, fun isNullable => sameNullable ▸ isNullable⟩]
        simp only [Property.newColumn, name, ← sameType, ← sameNullable]
      rw [eq_of_perm_indexChanges perm, List.foldl_append, ← fits]
      rcases again with twice | ⟨rfl, -⟩
      · rw [eq_of_perm_indexChanges twice]
        change Column.reindexed existing current targetProp size
          (column.reindexed existing current targetProp size) = _
        rw [once, reindexed_eq (Or.inr (Or.inr rfl))]
      · exact once

theorem filter_column_none_compareObject :
    ((compareObject existing object).filter SchemaChange.isNotRemoveProperty).filter
        (fun c => c.column = none) =
      changedPrimaryKey existing object ++
        (addedProperties existing object).map (.addProperty existing) := by
  have ofColumns : ((existing.persistedProperties.flatMap (compareProperty existing object)).filter
      SchemaChange.isNotRemoveProperty).filter (fun c => c.column = none) = [] := by
    rw [List.filter_eq_nil_iff]
    intro c member isNone
    obtain ⟨current, -, isChange⟩ := List.mem_flatMap.mp (List.mem_of_mem_filter member)
    rw [(about_of_mem_compareProperty isChange).2] at isNone
    cases of_decide_eq_true isNone
  have ofOthers : ∀ c ∈ changedPrimaryKey existing object ++
      (addedProperties existing object).map (SchemaChange.addProperty existing),
      c.isNotRemoveProperty = true ∧ c.column = none := by
    intro c member
    rcases List.mem_append.mp member with keyed | isNew
    · rw [eq_of_mem_changedPrimaryKey keyed]
      exact ⟨rfl, rfl⟩
    · obtain ⟨property, -, rfl⟩ := List.mem_map.mp isNew
      exact ⟨rfl, rfl⟩
  rw [compareObject, List.append_assoc, List.filter_append, List.filter_append, ofColumns,
    List.nil_append, List.filter_eq_self.mpr fun c member => (ofOthers c member).1,
    List.filter_eq_self.mpr fun c member => decide_eq_true (ofOthers c member).2]

/-- The properties that the app no longer has are removed, each once. -/
theorem filter_removals_compareObject :
    (compareObject existing object).filter (fun c => !c.isNotRemoveProperty) =
      (existing.persistedProperties.filter fun current =>
        (object.propertyForName current.name).isNone).map (.removeProperty existing) := by
  have ofKeys : (changedPrimaryKey existing object).filter
      (fun c => !c.isNotRemoveProperty) = [] := by
    rw [List.filter_eq_nil_iff]
    intro c keyed
    rw [eq_of_mem_changedPrimaryKey keyed]
    exact Bool.false_ne_true
  have ofNew : ((addedProperties existing object).map (SchemaChange.addProperty existing)).filter
      (fun c => !c.isNotRemoveProperty) = [] := by
    rw [List.filter_eq_nil_iff]
    intro c isNew
    obtain ⟨property, -, rfl⟩ := List.mem_map.mp isNew
    exact Bool.false_ne_true
  rw [compareObject, List.filter_append, List.filter_append, ofKeys, ofNew, List.append_nil,
    List.append_nil]
  induction existing.persistedProperties with
  | nil => rfl
  | cons current properties ih =>
      rw [List.flatMap_cons, List.filter_append, ih, List.filter_cons]
      cases found : object.propertyForName current.name with
      | none =>
          rw [compareProperty_of_missing found]
          rfl
      | some targetProp =>
          have noRemoval : (compareProperty existing object current).filter
              (fun c => !c.isNotRemoveProperty) = [] := by
            rw [List.filter_eq_nil_iff]
            intro c member
            rw [compareProperty_of_found found] at member
            split_ifs at member with otherType
            · rw [List.mem_singleton.mp member]
              exact Bool.false_ne_true
            · rcases List.mem_append.mp member with nullability | index
              · simp [(nullabilityChanges_kinds nullability).1]
              · simp [(indexChanges_kinds index).1]
          rw [noRemoval]
          simp

end Column

/-! ### One table -/

/-- The changes that the passes apply to one table: first what is not a removal, then
indexes again, and at last the removals. The second part is missing where nothing but indexes
is changed and one pass is enough. -/
structure Passes (existing object : ObjectSchema) (first second removals : List SchemaChange) :
    Prop where
  perm : (first ++ removals).Perm (compareObject existing object)
  kept : ∀ c ∈ first, c.isNotRemoveProperty = true
  removed : ∀ c ∈ removals, c.isNotRemoveProperty = false
  descending : removals.Pairwise fun a b => b.getRemovedColumn ≤ a.getRemovedColumn
  again : second = first.filter SchemaChange.isIndexChange ∨
    second = [] ∧ ∀ c ∈ first, c.isIndexChange = true

namespace Passes

variable {table : Table} {primaryKey : String} {object : ObjectSchema}
  {first second removals : List SchemaChange}

section Lists

variable {existing : ObjectSchema}

theorem isNotRemoveProperty_of_isIndexChange {c : SchemaChange} (index : c.isIndexChange = true) :
    c.isNotRemoveProperty = true := by
  cases c <;> first | rfl | cases index

theorem mem_of_mem_edits (passes : Passes existing object first second removals)
    {c : SchemaChange} (member : c ∈ first ++ second) : c ∈ first := by
  rcases List.mem_append.mp member with inFirst | inSecond
  · exact inFirst
  · rcases passes.again with rfl | ⟨rfl, -⟩
    · exact List.mem_of_mem_filter inSecond
    · cases inSecond

theorem first_perm (passes : Passes existing object first second removals) :
    first.Perm ((compareObject existing object).filter SchemaChange.isNotRemoveProperty) := by
  have perm := passes.perm.filter SchemaChange.isNotRemoveProperty
  rw [List.filter_append, List.filter_eq_self.mpr passes.kept, List.filter_eq_nil_iff.mpr
    fun c member => Bool.eq_false_iff.mp (passes.removed c member), List.append_nil] at perm
  exact perm

theorem removals_perm (passes : Passes existing object first second removals) :
    removals.Perm
      ((compareObject existing object).filter fun c => !c.isNotRemoveProperty) := by
  have perm := passes.perm.filter fun c => !c.isNotRemoveProperty
  rw [List.filter_append, List.filter_eq_nil_iff.mpr fun c member => by
    simp [passes.kept c member], List.filter_eq_self.mpr fun c member => by
    simp [passes.removed c member], List.nil_append] at perm
  exact perm

end Lists

/-! #### Of a table of the file -/

section Table

theorem inRange (passes : Passes (table.objectSchema primaryKey) object first second removals) :
    ∀ c ∈ first ++ second, ∀ i, c.column = some i → i < table.columns.length := by
  intro c member i place
  have isChange := passes.perm.mem_iff.mp (List.mem_append_left _ (passes.mem_of_mem_edits member))
  by_contra outside
  refine column_ne_of_mem_compareObject ?_ isChange place
  intro current inSchema isHere
  obtain ⟨j, column, held, -, rfl⟩ := mem_objectSchema_iff.mp inSchema
  subst isHere
  exact outside (List.getElem?_eq_some_iff.mp held).1

/-- The columns that are removed are those of properties that the app no longer has. -/
theorem mem_removed_iff
    (passes : Passes (table.objectSchema primaryKey) object first second removals) {i : Nat} :
    i ∈ removals.map SchemaChange.getRemovedColumn ↔ ∃ column : Column,
      table.columns[i]? = some column ∧ column.name ≠ "!OID" ∧
        object.propertyForName column.name = none := by
  have perm := passes.removals_perm.map SchemaChange.getRemovedColumn
  rw [filter_removals_compareObject, List.map_map] at perm
  rw [perm.mem_iff, List.mem_map]
  constructor
  · rintro ⟨current, member, rfl⟩
    obtain ⟨inSchema, missing⟩ := List.mem_filter.mp member
    obtain ⟨j, column, held, visible, rfl⟩ := mem_objectSchema_iff.mp inSchema
    exact ⟨column, held, visible, Option.isNone_iff_eq_none.mp missing⟩
  · rintro ⟨column, held, visible, missing⟩
    refine ⟨column.property primaryKey i, List.mem_filter.mpr ⟨?_, ?_⟩, rfl⟩
    · exact mem_objectSchema_iff.mpr ⟨i, column, held, visible, rfl⟩
    · exact Option.isNone_iff_eq_none.mpr missing

theorem removed_descending
    (passes : Passes (table.objectSchema primaryKey) object first second removals) :
    (removals.map SchemaChange.getRemovedColumn).Pairwise fun i j => i > j := by
  have perm := passes.removals_perm.map SchemaChange.getRemovedColumn
  rw [filter_removals_compareObject, List.map_map] at perm
  have distinct : (removals.map SchemaChange.getRemovedColumn).Nodup := by
    have ofSchema : ((table.objectSchema primaryKey).persistedProperties.map
        fun property => property.tableColumn).Nodup := nodup_tableColumn
    rw [perm.nodup_iff]
    exact ofSchema.sublist (List.Sublist.map _ List.filter_sublist)
  have sorted : (removals.map SchemaChange.getRemovedColumn).Pairwise fun i j => j ≤ i :=
    List.pairwise_map.mpr passes.descending
  exact (sorted.and distinct).imp fun ⟨le, differ⟩ => lt_of_le_of_ne le differ.symm

/-- The edits of one property's column. -/
theorem foldl_column
    (passes : Passes (table.objectSchema primaryKey) object first second removals) {i : Nat}
    {column : Column} (held : table.columns[i]? = some column) (visible : column.name ≠ "!OID")
    {targetProp : Property} (found : object.propertyForName column.name = some targetProp) :
    ((first ++ second).filter fun c => c.column = some i).foldl
        (fun column c => Column.changed table.size c column) column =
      targetProp.updatedColumn table.size column := by
  have inSchema : column.property primaryKey i ∈
      (table.objectSchema primaryKey).persistedProperties :=
    mem_objectSchema_iff.mpr ⟨i, column, held, visible, rfl⟩
  have ofColumn : (compareObject (table.objectSchema primaryKey) object).filter
      (fun c => c.column = some i) =
        compareProperty (table.objectSchema primaryKey) object (column.property primaryKey i) :=
    filter_column_compareObject nodup_tableColumn inSchema
  have perm := passes.first_perm.filter fun c => decide (c.column = some i)
  rw [List.filter_comm, ofColumn] at perm
  rw [List.filter_append]
  refine foldl_changed rfl found perm ?_
  rcases passes.again with rfl | ⟨rfl, only⟩
  · left
    have both (changes : List SchemaChange) :
        (changes.filter SchemaChange.isNotRemoveProperty).filter SchemaChange.isIndexChange =
          changes.filter SchemaChange.isIndexChange := by
      rw [List.filter_filter]
      apply List.filter_congr
      intro c _
      cases index : c.isIndexChange with
      | false => rfl
      | true => simp [isNotRemoveProperty_of_isIndexChange index]
    have twice := perm.filter SchemaChange.isIndexChange
    rw [both, List.filter_comm] at twice
    exact twice
  · right
    exact ⟨rfl, fun c member => only c (List.mem_of_mem_filter member)⟩

/-- The columns that come at the end are those of the properties that are new. -/
theorem added_perm
    (passes : Passes (table.objectSchema primaryKey) object first second removals) :
    (((first ++ second).filter fun c => c.column = none).flatMap
        (addedColumns table.size)).Perm
      ((addedProperties (table.objectSchema primaryKey) object).map fun property =>
        property.newColumn table.size) := by
  have noneAgain : second.filter (fun c => c.column = none) = [] := by
    rw [List.filter_eq_nil_iff]
    intro c member
    rcases passes.again with rfl | ⟨rfl, -⟩
    · have index := (List.mem_filter.mp member).2
      cases c with
      | addIndex object property => exact nofun
      | removeIndex object property => exact nofun
      | _ => cases index
    · cases member
  have perm := passes.first_perm.filter fun c => decide (c.column = none)
  rw [filter_column_none_compareObject] at perm
  rw [List.filter_append, noneAgain, List.append_nil]
  refine (perm.flatMap_right _).trans ?_
  rw [List.flatMap_append, List.flatMap_map]
  have ofKey : (changedPrimaryKey (table.objectSchema primaryKey) object).flatMap
      (addedColumns table.size) = [] := by
    rw [List.flatMap_eq_nil_iff]
    intro c keyed
    rw [eq_of_mem_changedPrimaryKey keyed]
    rfl
  rw [ofKey, List.nil_append, List.map_eq_flatMap]
  exact List.Perm.refl _

theorem columns_run
    (passes : Passes (table.objectSchema primaryKey) object first second removals) :
    ((first ++ second ++ removals).foldl Table.apply table).columns =
        (removals.map SchemaChange.getRemovedColumn).foldl List.eraseIdx
          ((table.columns.mapIdx fun i column =>
            ((first ++ second).filter fun c => c.column = some i).foldl
              (fun column c => Column.changed table.size c column) column) ++
            ((first ++ second).filter fun c => c.column = none).flatMap
              (addedColumns table.size)) ∧
      ((first ++ second ++ removals).foldl Table.apply table).size = table.size ∧
      ((first ++ second ++ removals).foldl Table.apply table).name = table.name := by
  have edits := @Table.columns_foldl_apply table (first ++ second)
    (fun c member => passes.kept c (passes.mem_of_mem_edits member)) passes.inRange
  rw [foldl_edit passes.inRange] at edits
  rw [List.foldl_append]
  have removes := @Table.columns_foldl_removals ((first ++ second).foldl Table.apply table)
    removals passes.removed
  exact ⟨removes.1.trans (by rw [edits.1]), removes.2.1.trans edits.2.1,
    removes.2.2.trans edits.2.2⟩

/-- The edits leave the column for object IDs alone. -/
theorem foldl_hidden
    (passes : Passes (table.objectSchema primaryKey) object first second removals) {i : Nat}
    {column : Column} (held : table.columns[i]? = some column) (hidden : column.name = "!OID") :
    ((first ++ second).filter fun c => c.column = some i).foldl
        (fun column c => Column.changed table.size c column) column = column := by
  have none : (first ++ second).filter (fun c => c.column = some i) = [] := by
    rw [List.filter_eq_nil_iff]
    intro c member isHere
    have isChange :=
      passes.perm.mem_iff.mp (List.mem_append_left _ (passes.mem_of_mem_edits member))
    refine column_ne_of_mem_compareObject ?_ isChange (of_decide_eq_true isHere)
    intro current inSchema isColumn
    obtain ⟨j, other, held', visible, rfl⟩ := mem_objectSchema_iff.mp inSchema
    subst isColumn
    cases held.symm.trans held'
    exact visible hidden
  rw [none, List.foldl_nil]

/-- A migrated table has the columns of the app's properties. -/
theorem mem_columns_iff
    (passes : Passes (table.objectSchema primaryKey) object first second removals)
    (sound : object.Sound) (distinct : (table.columns.map Column.name).Nodup)
    {column : Column} (visible : column.name ≠ "!OID") :
    column ∈ ((first ++ second ++ removals).foldl Table.apply table).columns ↔
      ∃ property ∈ object.persistedProperties, column = property.columnFrom table := by
  rw [passes.columns_run.1, mem_foldl_eraseIdx passes.removed_descending]
  constructor
  · rintro ⟨i, kept, held⟩
    by_cases within : i < table.columns.length
    · rw [List.getElem?_append_left (by simpa using within), List.getElem?_mapIdx] at held
      obtain ⟨old, heldBefore, rfl⟩ := Option.map_eq_some_iff.mp held
      by_cases hidden : old.name = "!OID"
      · rw [passes.foldl_hidden heldBefore hidden] at visible
        exact absurd hidden visible
      · cases found : object.propertyForName old.name with
        | none => exact absurd (passes.mem_removed_iff.mpr ⟨old, heldBefore, hidden, found⟩) kept
        | some property =>
            have named := ObjectSchema.name_of_propertyForName found
            refine ⟨property, List.mem_of_find?_eq_some found, ?_⟩
            rw [passes.foldl_column heldBefore hidden found, property.columnFrom_of_mem distinct
              (List.mem_of_getElem? heldBefore) named.symm]
    · rw [List.getElem?_append_right (by simpa using not_lt.mp within)] at held
      obtain ⟨property, isNew, rfl⟩ := List.mem_map.mp
        (passes.added_perm.mem_iff.mp (List.mem_of_getElem? held))
      obtain ⟨member, missing⟩ := (mem_addedProperties_iff sound).mp isNew
      exact ⟨property, member, (property.columnFrom_of_missing missing).symm⟩
  · rintro ⟨property, member, rfl⟩
    by_cases missing : ∀ column ∈ table.columns, column.name ≠ property.name
    · rw [property.columnFrom_of_missing missing]
      have isNew : property ∈ addedProperties (table.objectSchema primaryKey) object :=
        (mem_addedProperties_iff sound).mpr ⟨member, missing⟩
      obtain ⟨j, held⟩ := List.mem_iff_getElem?.mp
        (passes.added_perm.mem_iff.mpr (List.mem_map_of_mem isNew))
      refine ⟨table.columns.length + j, ?_, ?_⟩
      · intro removed
        obtain ⟨column, held, -⟩ := passes.mem_removed_iff.mp removed
        have := (List.getElem?_eq_some_iff.mp held).1
        omega
      · rw [List.getElem?_append_right (by simp), List.length_mapIdx, Nat.add_sub_cancel_left]
        exact held
    · simp only [not_forall, not_not] at missing
      obtain ⟨old, inTable, named⟩ := missing
      obtain ⟨i, held⟩ := List.mem_iff_getElem?.mp inTable
      have found : object.propertyForName old.name = some property := by
        rw [named]
        exact ObjectSchema.propertyForName_of_mem sound.names member
      have hidden : old.name ≠ "!OID" := named ▸ sound.visible property member
      refine ⟨i, ?_, ?_⟩
      · intro removed
        obtain ⟨column, held', -, missing⟩ := passes.mem_removed_iff.mp removed
        cases held.symm.trans held'
        cases found.symm.trans missing
      · have within := (List.getElem?_eq_some_iff.mp held).1
        rw [List.getElem?_append_left (by simpa using within), List.getElem?_mapIdx, held,
          Option.map_some, passes.foldl_column held hidden found,
          property.columnFrom_of_mem distinct inTable named]

/-- A column keeps its name through the edits. -/
theorem name_foldl
    (passes : Passes (table.objectSchema primaryKey) object first second removals) {i : Nat}
    {column : Column} (held : table.columns[i]? = some column) :
    (((first ++ second).filter fun c => c.column = some i).foldl
        (fun column c => Column.changed table.size c column) column).name = column.name := by
  by_cases hidden : column.name = "!OID"
  · rw [passes.foldl_hidden held hidden]
  · cases found : object.propertyForName column.name with
    | some property =>
        rw [passes.foldl_column held hidden found, Property.name_updatedColumn,
          ObjectSchema.name_of_propertyForName found]
    | none =>
        have none : (first ++ second).filter (fun c => c.column = some i) = [] := by
          rw [List.filter_eq_nil_iff]
          intro c member isHere
          have inSchema : column.property primaryKey i ∈
              (table.objectSchema primaryKey).persistedProperties :=
            mem_objectSchema_iff.mpr ⟨i, column, held, hidden, rfl⟩
          have inFirst := passes.mem_of_mem_edits member
          have ofColumn : c ∈ (compareObject (table.objectSchema primaryKey) object).filter
              fun c => c.column = some (column.property primaryKey i).tableColumn :=
            List.mem_filter.mpr ⟨passes.perm.mem_iff.mp (List.mem_append_left _ inFirst), isHere⟩
          have missing : object.propertyForName (column.property primaryKey i).name = none := found
          rw [filter_column_compareObject nodup_tableColumn inSchema,
            compareProperty_of_missing missing, List.mem_singleton] at ofColumn
          have kept := passes.kept c inFirst
          rw [ofColumn] at kept
          cases kept
        rw [none, List.foldl_nil]

/-- No two columns of a migrated table have one name. -/
theorem nodup_columns
    (passes : Passes (table.objectSchema primaryKey) object first second removals)
    (sound : object.Sound) (distinct : (table.columns.map Column.name).Nodup) :
    (((first ++ second ++ removals).foldl Table.apply table).columns.map Column.name).Nodup := by
  rw [passes.columns_run.1]
  refine List.Nodup.sublist ((foldl_eraseIdx_sublist _ _).map Column.name) ?_
  have old : (table.columns.mapIdx fun i column =>
      ((first ++ second).filter fun c => c.column = some i).foldl
        (fun column c => Column.changed table.size c column) column).map Column.name =
      table.columns.map Column.name := by
    apply List.ext_getElem?
    intro i
    rw [List.getElem?_map, List.getElem?_map, List.getElem?_mapIdx]
    cases held : table.columns[i]? with
    | none => rfl
    | some column => simp only [Option.map_some, passes.name_foldl held]
  have new := passes.added_perm.map Column.name
  rw [List.map_map] at new
  rw [List.map_append, old, List.nodup_append]
  refine ⟨distinct, ?_, ?_⟩
  · rw [new.nodup_iff]
    exact sound.names.sublist (List.Sublist.map _ List.filter_sublist)
  · intro name inTable name' isNew same
    obtain ⟨property, added, rfl⟩ := List.mem_map.mp (new.mem_iff.mp isNew)
    obtain ⟨column, member, rfl⟩ := List.mem_map.mp inTable
    exact ((mem_addedProperties_iff sound).mp added).2 column member same

theorem migrated
    (passes : Passes (table.objectSchema primaryKey) object first second removals)
    (sound : object.Sound) (distinct : (table.columns.map Column.name).Nodup) :
    Migrated object table ((first ++ second ++ removals).foldl Table.apply table) where
  size := passes.columns_run.2.1
  distinct := passes.nodup_columns sound distinct
  columns _ visible := passes.mem_columns_iff sound distinct visible

end Table

end Passes

/-! ### Comparing again -/

/-- What is made of a column fits the property. -/
theorem Property.columnFrom_fits (self : Property) (table : Table) :
    (self.columnFrom table).type = self.type ∧
      (self.columnFrom table).isNullable = self.isNullable ∧
      (self.columnFrom table).hasSearchIndex = self.requiresIndex := by
  unfold columnFrom updatedColumn
  split
  · split_ifs <;> exact ⟨rfl, rfl, rfl⟩
  · exact ⟨rfl, rfl, rfl⟩

/-- Nothing is to be changed in a table that has been migrated. -/
theorem Migrated.compareObject_eq_nil {object : ObjectSchema} {before after : Table}
    (migrated : Migrated object before after) (sound : object.Sound) :
    compareObject (after.objectSchema object.primaryKey) object = [] := by
  have settled : ∀ current ∈ (after.objectSchema object.primaryKey).persistedProperties,
      compareProperty (after.objectSchema object.primaryKey) object current = [] := by
    intro current inSchema
    obtain ⟨i, column, held, visible, isProperty⟩ := mem_objectSchema_iff.mp inSchema
    obtain ⟨property, member, rfl⟩ :=
      (migrated.columns column visible).mp (List.mem_of_getElem? held)
    obtain ⟨type, nullable, index⟩ := property.columnFrom_fits before
    have name : current.name = property.name := by
      rw [isProperty]
      exact property.name_columnFrom before
    have sameType : current.type = property.type := by rw [isProperty]; exact type
    have sameNullable : current.isNullable = property.isNullable := by
      rw [isProperty]
      exact nullable
    have isIndexed : current.isIndexed = property.requiresIndex := by rw [isProperty]; exact index
    have primary : current.isPrimary = true → property.isPrimary = true := by
      intro isPrimary
      rw [isProperty] at isPrimary
      obtain ⟨hasKey, isKey⟩ := of_decide_eq_true isPrimary
      exact (sound.isPrimary property member).mpr
        ⟨hasKey, (property.name_columnFrom before).symm.trans isKey⟩
    have found : object.propertyForName current.name = some property := by
      rw [name]
      exact ObjectSchema.propertyForName_of_mem sound.names member
    rw [compareProperty_of_found found, if_neg (not_not.mpr sameType), List.append_eq_nil_iff]
    refine ⟨if_neg (not_not.mpr sameNullable), ?_⟩
    unfold indexChanges
    cases wanted : property.requiresIndex with
    | true => simp [isIndexed, wanted]
    | false =>
        have unindexed : current.requiresIndex = false := by
          rw [Property.requiresIndex, Bool.or_eq_false_iff] at wanted ⊢
          refine ⟨Bool.eq_false_iff.mpr fun isPrimary => ?_, ?_⟩
          · rw [primary isPrimary] at wanted
            cases wanted.1
          · rw [isIndexed, Property.requiresIndex, wanted.1, wanted.2]
            rfl
        simp [unindexed]
  have sameKey : changedPrimaryKey (after.objectSchema object.primaryKey) object = [] :=
    if_neg (not_not.mpr rfl)
  have noneAdded : addedProperties (after.objectSchema object.primaryKey) object = [] := by
    rw [List.eq_nil_iff_forall_not_mem]
    intro property isNew
    obtain ⟨member, missing⟩ := (mem_addedProperties_iff sound).mp isNew
    have name := property.name_columnFrom before
    refine missing (property.columnFrom before) ?_ name
    refine (migrated.columns _ ?_).mpr ⟨property, member, rfl⟩
    rw [name]
    exact sound.visible property member
  rw [compareObject, List.flatMap_eq_nil_iff.mpr settled, sameKey, noneAdded]
  rfl

end FileSchema

end Phonotes
