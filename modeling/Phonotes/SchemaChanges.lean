import Mathlib.Data.String.Basic
import Phonotes.Library.Sequences
import Phonotes.ObjectStore

/-!
The schema of a Realm file against that of the app: `schema.cpp`.

When the app opens its file, `Schema::compare` goes through the classes that both have and
lists what would have to be changed in the file. The order of the list matters to whoever
applies it: columns are known by their position, and every one that is removed moves those
behind it. Here is the comparison, for classes with scalar properties, and what its list
consists of.
-/

namespace Phonotes

namespace FileSchema

open Sequences

/-! ### Schemas -/

/-- A property as a schema has it: `isIndexed` is what was declared, or whether the column
has an index. -/
structure Property extends Phonotes.Property where
  isIndexed : Bool := false
  deriving DecidableEq, Repr

def Property.requiresIndex (self : Property) : Bool := self.isPrimary || self.isIndexed

/-- `type_string()` -/
def Property.typeString (self : Property) : String :=
  match self.type with
  | .int => "int"
  | .bool => "bool"
  | .string => "string"

structure ObjectSchema where
  name : String
  persistedProperties : List Property
  primaryKey : String := ""
  deriving DecidableEq, Repr

namespace ObjectSchema

def propertyForName (self : ObjectSchema) (name : String) : Option Property :=
  self.persistedProperties.find? fun property => property.name = name

def primaryKeyProperty (self : ObjectSchema) : Option Property :=
  self.propertyForName self.primaryKey

variable {object : ObjectSchema} {property : Property}

theorem name_of_propertyForName {name : String}
    (found : object.propertyForName name = some property) : property.name = name := by
  have named := List.find?_some found
  exact of_decide_eq_true named

theorem propertyForName_of_mem
    (names : (object.persistedProperties.map fun property => property.name).Nodup)
    (member : property ∈ object.persistedProperties) :
    object.propertyForName property.name = some property := by
  cases found : object.propertyForName property.name with
  | none => exact absurd (decide_eq_true rfl) (List.find?_eq_none.mp found property member)
  | some other =>
      rw [List.inj_on_of_nodup_map names (List.mem_of_find?_eq_some found) member
        (name_of_propertyForName found)]

end ObjectSchema

/-- A schema has its classes sorted by name. -/
structure Schema where
  objects : List ObjectSchema
  sorted : objects.Pairwise fun lft rgt => lft.name ≤ rgt.name

/-- `Schema(base)` -/
def Schema.ofList (objects : List ObjectSchema) : Schema where
  objects := objects.insertionSort fun lft rgt => lft.name ≤ rgt.name
  sorted := List.pairwise_insertionSort _ objects

/-! ### Validation -/

/-- The elements that are followed by an equal one. -/
def duplicates : List String → List String
  | a :: b :: names => if a = b then a :: duplicates (b :: names) else duplicates (b :: names)
  | _ => []

/-- `for_each_duplicate`, which goes on behind the second of the two. -/
def forEachDuplicate : List String → List String
  | a :: b :: names => if a = b then a :: forEachDuplicate names else forEachDuplicate (b :: names)
  | _ => []

/-- `validate_property` for every property, with the primary key that was met last. -/
def validateProperties (objectName : String) :
    Option Property → List Property → Option Property × List String
  | primary, [] => (primary, [])
  | primary, prop :: properties =>
      if prop.isPrimary then
        let keyType := if prop.type ≠ .int ∧ prop.type ≠ .string then
            ["Property '" ++ objectName ++ "." ++ prop.name ++ "' of type '" ++ prop.typeString ++
              "' cannot be made the primary key."]
          else []
        let keys := primary.elim [] fun other =>
          ["Properties '" ++ prop.name ++ "' and '" ++ other.name ++
            "' are both marked as the primary key of '" ++ objectName ++ "'."]
        let (last, exceptions) := validateProperties objectName (some prop) properties
        (last, keyType ++ keys ++ exceptions)
      else validateProperties objectName primary properties

/-- What `StringData` compares. A `char` of the phone has a sign, so what is not ASCII
comes first. -/
def signedBytes (data : String) : List ℤ :=
  data.toUTF8.data.toList.map fun byte => byte.toInt8.toInt

def ObjectSchema.validate (self : ObjectSchema) : List String :=
  let names := (self.persistedProperties.map fun prop => prop.name).insertionSort
    fun a b => signedBytes a ≤ signedBytes b
  let (primary, exceptions) := validateProperties self.name none self.persistedProperties
  (forEachDuplicate names).map (fun name => "Property '" ++ name ++
      "' appears more than once in the schema for type '" ++ self.name ++ "'.") ++
    exceptions ++
      if self.primaryKey ≠ "" ∧ primary = none ∧ self.primaryKeyProperty = none then
        ["Specified primary key '" ++ self.name ++ "." ++ self.primaryKey ++ "' does not exist."]
      else []

def Schema.validate (self : Schema) : List String :=
  (duplicates (self.objects.map ObjectSchema.name)).map
      (fun name => "Type '" ++ name ++ "' appears more than once in the schema.") ++
    self.objects.flatMap ObjectSchema.validate

theorem injective_signedBytes : Function.Injective signedBytes := by
  have ofByte : Function.Injective fun byte : UInt8 => byte.toInt8.toInt :=
    fun _ _ same => congrArg Int8.toUInt8 (Int8.toInt_inj.mp same)
  intro a b same
  exact String.toByteArray_inj.mp
    (ByteArray.ext (Array.toList_inj.mp (List.map_injective_iff.mpr ofByte same)))

/-- Where nothing is followed by an equal one, a sorted list has no duplicates. -/
theorem pairwise_lt_of_duplicates {α : Type*} [LinearOrder α] {key : String → α}
    (injective : Function.Injective key) {names : List String}
    (sorted : names.Pairwise fun a b => key a ≤ key b) (single : duplicates names = []) :
    names.Pairwise fun a b => key a < key b := by
  induction names using duplicates.induct with
  | case1 b names ih => simp [duplicates] at single
  | case2 a b names differ ih =>
      rw [duplicates, if_neg differ] at single
      obtain ⟨below, sorted⟩ := List.pairwise_cons.mp sorted
      have later := ih sorted single
      have less : key a < key b :=
        lt_of_le_of_ne (below b List.mem_cons_self) (injective.ne differ)
      refine List.pairwise_cons.mpr ⟨List.forall_mem_cons.mpr ⟨less, ?_⟩, later⟩
      intro c member
      exact less.trans ((List.pairwise_cons.mp later).1 c member)
  | case3 names short =>
      cases names with
      | nil => exact List.Pairwise.nil
      | cons a names =>
          cases names with
          | nil => exact List.pairwise_singleton _ _
          | cons b names => exact absurd rfl (short a b names)

theorem duplicates_of_forEachDuplicate {names : List String}
    (single : forEachDuplicate names = []) : duplicates names = [] := by
  induction names using duplicates.induct with
  | case1 b names ih => simp [forEachDuplicate] at single
  | case2 a b names differ ih =>
      rw [forEachDuplicate, if_neg differ] at single
      rw [duplicates, if_neg differ]
      exact ih single
  | case3 names short => rw [duplicates.eq_2 names short]

theorem cases_of_validateProperties {objectName : String} {start primary : Option Property}
    {properties : List Property} {exceptions : List String}
    (validated : validateProperties objectName start properties = (primary, exceptions)) :
    primary = start ∨ ∃ prop ∈ properties, primary = some prop ∧ prop.isPrimary = true := by
  induction properties generalizing start exceptions with
  | nil =>
      cases validated
      exact Or.inl rfl
  | cons prop properties ih =>
      cases isPrimary : prop.isPrimary with
      | false =>
          simp only [validateProperties, isPrimary, Bool.false_eq_true, if_false] at validated
          rcases ih validated with same | ⟨other, member, found⟩
          · exact Or.inl same
          · exact Or.inr ⟨other, List.mem_cons_of_mem _ member, found⟩
      | true =>
          simp only [validateProperties, isPrimary, if_true, Prod.mk.injEq] at validated
          obtain ⟨last, -⟩ := validated
          rcases ih (Prod.ext last rfl) with same | ⟨other, member, found⟩
          · exact Or.inr ⟨prop, List.mem_cons_self, same, isPrimary⟩
          · exact Or.inr ⟨other, List.mem_cons_of_mem _ member, found⟩

/-- The classes of a schema as the binding makes them: `objectStoreCopy` marks the property
that is the primary key, everything has a name, and no property has that of the column for
object IDs. -/
structure ObjectSchema.Declared (object : ObjectSchema) : Prop where
  named : object.name ≠ ""
  propertiesNamed : ∀ prop ∈ object.persistedProperties, prop.name ≠ ""
  isPrimary : ∀ prop ∈ object.persistedProperties,
    prop.isPrimary = true ↔ object.primaryKey ≠ "" ∧ prop.name = object.primaryKey
  visible : ∀ prop ∈ object.persistedProperties, prop.name ≠ "!OID"

/-- What a schema that validates is known to be. -/
structure ObjectSchema.Sound (object : ObjectSchema) : Prop extends object.Declared where
  names : (object.persistedProperties.map fun prop => prop.name).Nodup
  keyed : object.primaryKey ≠ "" → ∃ prop, object.primaryKeyProperty = some prop

/-- The property that is the primary key is the one that is marked. -/
theorem ObjectSchema.Sound.primaryKeyProperty_eq_some_iff {object : ObjectSchema}
    (sound : object.Sound) {prop : Property} : object.primaryKeyProperty = some prop ↔
      prop ∈ object.persistedProperties ∧ prop.isPrimary = true := by
  constructor
  · intro found
    have member := List.mem_of_find?_eq_some found
    have named := name_of_propertyForName found
    exact ⟨member, (sound.isPrimary prop member).mpr
      ⟨named ▸ sound.propertiesNamed prop member, named⟩⟩
  · rintro ⟨member, isPrimary⟩
    rw [primaryKeyProperty, ← ((sound.isPrimary prop member).mp isPrimary).2]
    exact propertyForName_of_mem sound.names member

/-- The name of the primary key, or nothing. -/
theorem ObjectSchema.Sound.primaryKeyProperty_elim {object : ObjectSchema}
    (sound : object.Sound) :
    object.primaryKeyProperty.elim "" (fun prop => prop.name) = object.primaryKey := by
  cases found : object.primaryKeyProperty with
  | some prop => exact name_of_propertyForName found
  | none =>
      by_contra hasKey
      obtain ⟨prop, isKey⟩ := sound.keyed (Ne.symm hasKey)
      cases found.symm.trans isKey

theorem ObjectSchema.sound_of_validate {object : ObjectSchema} (declared : object.Declared)
    (validated : object.validate = []) : object.Sound := by
  cases ran : validateProperties object.name none object.persistedProperties with
  | mk primary exceptions =>
    simp only [ObjectSchema.validate, ran, List.append_eq_nil_iff, List.map_eq_nil_iff] at validated
    obtain ⟨⟨single, -⟩, key⟩ := validated
    refine ⟨declared, ?_, ?_⟩
    · have sorted := pairwise_lt_of_duplicates injective_signedBytes
        (List.pairwise_insertionSort _ _) (duplicates_of_forEachDuplicate single)
      exact (List.perm_insertionSort _ _).nodup_iff.mp
        (sorted.imp fun less => ne_of_apply_ne signedBytes less.ne)
    · intro hasKey
      cases found : object.primaryKeyProperty with
      | some prop => exact ⟨prop, rfl⟩
      | none =>
          rcases cases_of_validateProperties ran with rfl | ⟨prop, member, rfl, isPrimary⟩
          · simp [hasKey, found] at key
          · have isKey := ((declared.isPrimary prop member).mp isPrimary).2
            have missing := List.find?_eq_none.mp found prop member
            simp [isKey] at missing

theorem Schema.nodup_of_validate {schema : Schema} (validated : schema.validate = []) :
    (schema.objects.map ObjectSchema.name).Pairwise (· < ·) := by
  obtain ⟨single, -⟩ := List.append_eq_nil_iff.mp validated
  exact pairwise_lt_of_duplicates Function.injective_id (List.pairwise_map.mpr schema.sorted)
    (List.map_eq_nil_iff.mp single)

theorem Schema.sound_of_validate {schema : Schema} (validated : schema.validate = [])
    {object : ObjectSchema} (member : object ∈ schema.objects) (declared : object.Declared) :
    object.Sound :=
  object.sound_of_validate declared
    (List.flatMap_eq_nil_iff.mp (List.append_eq_nil_iff.mp validated).2 object member)

/-! ### Changes -/

/-- `SchemaChange`. `RemoveTable` is only for a caller that asks for it. -/
inductive SchemaChange where
  | addTable (object : ObjectSchema)
  | addInitialProperties (object : ObjectSchema)
  | addProperty (object : ObjectSchema) (property : Property)
  | removeProperty (object : ObjectSchema) (property : Property)
  | changePropertyType (object : ObjectSchema) (oldProperty newProperty : Property)
  | makePropertyNullable (object : ObjectSchema) (property : Property)
  | makePropertyRequired (object : ObjectSchema) (property : Property)
  | changePrimaryKey (object : ObjectSchema) (property : Option Property)
  | addIndex (object : ObjectSchema) (property : Property)
  | removeIndex (object : ObjectSchema) (property : Property)
  deriving DecidableEq, Repr

namespace SchemaChange

def object : SchemaChange → ObjectSchema
  | addTable object => object
  | addInitialProperties object => object
  | addProperty object _ => object
  | removeProperty object _ => object
  | changePropertyType object _ _ => object
  | makePropertyNullable object _ => object
  | makePropertyRequired object _ => object
  | changePrimaryKey object _ => object
  | addIndex object _ => object
  | removeIndex object _ => object

/-- The column of the file that is changed. -/
def column : SchemaChange → Option Nat
  | removeProperty _ property => some property.tableColumn
  | changePropertyType _ oldProperty _ => some oldProperty.tableColumn
  | makePropertyNullable _ property => some property.tableColumn
  | makePropertyRequired _ property => some property.tableColumn
  | addIndex _ property => some property.tableColumn
  | removeIndex _ property => some property.tableColumn
  | _ => none

/-- `IsNotRemoveProperty` -/
def isNotRemoveProperty : SchemaChange → Bool
  | removeProperty _ _ => false
  | _ => true

/-- `GetRemovedColumn`, which is asked of removals only. -/
def getRemovedColumn (self : SchemaChange) : Nat := self.column.getD 0

end SchemaChange

/-! ### Comparison -/

def nullabilityChanges (existing : ObjectSchema) (current targetProp : Property) :
    List SchemaChange :=
  if current.isNullable ≠ targetProp.isNullable then
    if current.isNullable then [.makePropertyRequired existing current]
    else [.makePropertyNullable existing current]
  else []

def indexChanges (existing : ObjectSchema) (current targetProp : Property) :
    List SchemaChange :=
  if targetProp.requiresIndex then
    if !current.isIndexed then [.addIndex existing current] else []
  else if current.requiresIndex then [.removeIndex existing current] else []

/-- What one property of the file needs. -/
def compareProperty (existing target : ObjectSchema) (current : Property) :
    List SchemaChange :=
  match target.propertyForName current.name with
  | none => [.removeProperty existing current]
  | some targetProp =>
      if current.type ≠ targetProp.type then
        [.changePropertyType existing current targetProp]
      else
        nullabilityChanges existing current targetProp ++
          indexChanges existing current targetProp

section

variable {existing target : ObjectSchema} {current targetProp : Property}

theorem compareProperty_of_missing (missing : target.propertyForName current.name = none) :
    compareProperty existing target current = [.removeProperty existing current] := by
  rw [compareProperty, missing]

theorem compareProperty_of_found
    (found : target.propertyForName current.name = some targetProp) :
    compareProperty existing target current =
      if current.type ≠ targetProp.type then
        [.changePropertyType existing current targetProp]
      else
        nullabilityChanges existing current targetProp ++
          indexChanges existing current targetProp := by
  rw [compareProperty, found]

end

/-- The properties that are new to the file. -/
def addedProperties (existing target : ObjectSchema) : List Property :=
  target.persistedProperties.filter fun property =>
    (existing.propertyForName property.name).isNone

def changedPrimaryKey (existing target : ObjectSchema) : List SchemaChange :=
  if existing.primaryKey ≠ target.primaryKey then
    [.changePrimaryKey existing target.primaryKeyProperty]
  else []

/-- What `compare` adds to the changes of a class that both have. -/
def compareObject (existing target : ObjectSchema) : List SchemaChange :=
  existing.persistedProperties.flatMap (compareProperty existing target) ++
    changedPrimaryKey existing target ++
      (addedProperties existing target).map (.addProperty existing)

/-- Move the removals to the end, the last column first. Which of two removals with one
column number comes first is up to `std::sort`. -/
def arrange (changes : List SchemaChange) : List SchemaChange :=
  let changes := partition SchemaChange.isNotRemoveProperty changes
  changes.takeWhile SchemaChange.isNotRemoveProperty ++
    (changes.dropWhile SchemaChange.isNotRemoveProperty).insertionSort fun a b =>
      b.getRemovedColumn ≤ a.getRemovedColumn

/-- The changes of the classes before, with those of the next one. -/
def compareNext (changes : List SchemaChange) :
    Option ObjectSchema × Option ObjectSchema → List SchemaChange
  | (some target, some existing) => arrange (changes ++ compareObject existing target)
  | (some target, none) => changes ++ [.addInitialProperties target]
  | (none, _) => changes

/-- The classes of both schemas, those of one name together. -/
def Schema.pairs (self target : Schema) :
    List (Option ObjectSchema × Option ObjectSchema) :=
  zipMatching ObjectSchema.name ObjectSchema.name target.objects self.objects

def addTables (pairs : List (Option ObjectSchema × Option ObjectSchema)) :
    List SchemaChange :=
  pairs.filterMap fun
    | (some target, none) => some (.addTable target)
    | _ => none

def Schema.compare (self target : Schema) : List SchemaChange :=
  (self.pairs target).foldl compareNext (addTables (self.pairs target))

/-! ### The order of the changes -/

theorem arrange_perm (changes : List SchemaChange) : (arrange changes).Perm changes := by
  have sorted := List.perm_insertionSort
    (fun a b : SchemaChange => b.getRemovedColumn ≤ a.getRemovedColumn)
    ((partition SchemaChange.isNotRemoveProperty changes).dropWhile
      SchemaChange.isNotRemoveProperty)
  have whole := sorted.append_left
    ((partition SchemaChange.isNotRemoveProperty changes).takeWhile
      SchemaChange.isNotRemoveProperty)
  rw [List.takeWhile_append_dropWhile] at whole
  exact whole.trans (partition_perm _ changes)

/-- Other changes that come first and stay there. -/
theorem arrange_append {first rest : List SchemaChange}
    (inPlace : ∀ c ∈ first, c.isNotRemoveProperty = true) :
    arrange (first ++ rest) = first ++ arrange rest := by
  simp only [arrange, partition_append _ inPlace, List.takeWhile_append_of_pos inPlace,
    List.dropWhile_append_of_pos inPlace, List.append_assoc]

/-- Changes other than removals, then the removals with the last column first, and then
the properties of new classes. -/
def Arranged (changes : List SchemaChange) : Prop :=
  ∃ kept removals initial, changes = kept ++ removals ++ initial ∧
    (∀ c ∈ kept, c.isNotRemoveProperty = true) ∧
    (∀ c ∈ removals, c.isNotRemoveProperty = false) ∧
    removals.Pairwise (fun a b => b.getRemovedColumn ≤ a.getRemovedColumn) ∧
    ∀ c ∈ initial, ∃ object, c = .addInitialProperties object

theorem arranged_arrange (changes : List SchemaChange) : Arranged (arrange changes) := by
  obtain ⟨kept, dropped, same, keep, drop⟩ :=
    exists_partition_eq SchemaChange.isNotRemoveProperty changes
  have noneDropped : dropped.takeWhile SchemaChange.isNotRemoveProperty = [] ∧
      dropped.dropWhile SchemaChange.isNotRemoveProperty = dropped := by
    cases dropped with
    | nil => exact ⟨rfl, rfl⟩
    | cons c dropped =>
        have isRemoval := drop c List.mem_cons_self
        constructor
        · simp [isRemoval]
        · simp [isRemoval]
  have split : arrange changes = kept ++ dropped.insertionSort
      (fun a b => b.getRemovedColumn ≤ a.getRemovedColumn) ++ [] := by
    simp only [arrange, same, List.takeWhile_append_of_pos keep,
      List.dropWhile_append_of_pos keep, noneDropped.1, noneDropped.2, List.append_nil]
  refine ⟨kept, _, [], split, keep, ?_, List.pairwise_insertionSort _ dropped, by simp⟩
  intro c member
  exact drop c ((List.perm_insertionSort _ _).mem_iff.mp member)

/-- What a pair of classes contributes. -/
def changesOf : Option ObjectSchema × Option ObjectSchema → List SchemaChange
  | (some target, some existing) => compareObject existing target
  | (some target, none) => [.addInitialProperties target]
  | (none, _) => []

theorem compareNext_append {first rest : List SchemaChange}
    (inPlace : ∀ c ∈ first, c.isNotRemoveProperty = true)
    (pair : Option ObjectSchema × Option ObjectSchema) :
    compareNext (first ++ rest) pair = first ++ compareNext rest pair := by
  rcases pair with ⟨_ | target, _ | existing⟩
  · rfl
  · rfl
  · simp only [compareNext, List.append_assoc]
  · simp only [compareNext, List.append_assoc, arrange_append inPlace]

theorem compareNext_perm (changes : List SchemaChange)
    (pair : Option ObjectSchema × Option ObjectSchema) :
    (compareNext changes pair).Perm (changes ++ changesOf pair) := by
  rcases pair with ⟨_ | target, _ | existing⟩
  · simp [compareNext, changesOf]
  · simp [compareNext, changesOf]
  · exact List.Perm.refl _
  · exact arrange_perm _

theorem arranged_compareNext {changes : List SchemaChange} (arranged : Arranged changes)
    (pair : Option ObjectSchema × Option ObjectSchema) : Arranged (compareNext changes pair) := by
  rcases pair with ⟨_ | target, _ | existing⟩
  · exact arranged
  · exact arranged
  · obtain ⟨kept, removals, initial, rfl, keep, remove, sorted, adds⟩ := arranged
    refine ⟨kept, removals, initial ++ [.addInitialProperties target], by simp [compareNext],
      keep, remove, sorted, ?_⟩
    intro c member
    rcases List.mem_append.mp member with earlier | isNew
    · exact adds c earlier
    · exact ⟨target, List.mem_singleton.mp isNew⟩
  · exact arranged_arrange _

/-- The list starts with the new classes; behind them are the changes of every pair, put in
order. -/
theorem Schema.compare_eq (self target : Schema) :
    ∃ rest, self.compare target = addTables (self.pairs target) ++ rest ∧ Arranged rest ∧
      rest.Perm ((self.pairs target).flatMap changesOf) := by
  have inPlace : ∀ c ∈ addTables (self.pairs target), c.isNotRemoveProperty = true := by
    intro c member
    obtain ⟨⟨target' | target', existing' | existing'⟩, -, same⟩ :=
      List.mem_filterMap.mp member
    · cases same
    · cases same
    · cases same
      rfl
    · cases same
  unfold Schema.compare
  generalize addTables (self.pairs target) = first at inPlace
  induction self.pairs target using List.reverseRec with
  | nil => exact ⟨[], (List.append_nil _).symm, ⟨[], [], [], by simp⟩, List.Perm.refl _⟩
  | append_singleton pairs pair ih =>
      obtain ⟨rest, same, arranged, perm⟩ := ih
      refine ⟨compareNext rest pair, ?_, arranged_compareNext arranged pair, ?_⟩
      · rw [List.foldl_append, same, List.foldl_cons, List.foldl_nil,
          compareNext_append inPlace]
      · rw [List.flatMap_append, List.flatMap_singleton]
        exact (compareNext_perm rest pair).trans (perm.append_right _)

/-! ### The changes of one class -/

/-- A change of one property is about its class and its column. -/
theorem about_of_mem_compareProperty {existing target : ObjectSchema} {current : Property}
    {c : SchemaChange} (member : c ∈ compareProperty existing target current) :
    c.object = existing ∧ c.column = some current.tableColumn := by
  cases found : target.propertyForName current.name with
  | none =>
      rw [compareProperty_of_missing found, List.mem_singleton] at member
      rw [member]
      exact ⟨rfl, rfl⟩
  | some targetProp =>
      rw [compareProperty_of_found found] at member
      split_ifs at member with otherType
      · rw [List.mem_singleton.mp member]
        exact ⟨rfl, rfl⟩
      · rcases List.mem_append.mp member with nullability | index
        · unfold nullabilityChanges at nullability
          split_ifs at nullability
          · rw [List.mem_singleton.mp nullability]
            exact ⟨rfl, rfl⟩
          · rw [List.mem_singleton.mp nullability]
            exact ⟨rfl, rfl⟩
          · cases nullability
        · unfold indexChanges at index
          split_ifs at index
          · rw [List.mem_singleton.mp index]
            exact ⟨rfl, rfl⟩
          · cases index
          · rw [List.mem_singleton.mp index]
            exact ⟨rfl, rfl⟩
          · cases index

/-- A change between two versions of a class is of a column, of the primary key or a new
property. -/
theorem cases_of_mem_compareObject {existing target : ObjectSchema} {c : SchemaChange}
    (member : c ∈ compareObject existing target) :
    (∃ current ∈ existing.persistedProperties, c ∈ compareProperty existing target current) ∨
      c ∈ changedPrimaryKey existing target ∨
      ∃ property ∈ addedProperties existing target, c = .addProperty existing property := by
  rcases List.mem_append.mp member with earlier | adds
  · rcases List.mem_append.mp earlier with inPlace | keyed
    · exact Or.inl (List.mem_flatMap.mp inPlace)
    · exact Or.inr (Or.inl keyed)
  · obtain ⟨property, isNew, rfl⟩ := List.mem_map.mp adds
    exact Or.inr (Or.inr ⟨property, isNew, rfl⟩)

theorem changePrimaryKey_mem_compareObject {existing target : ObjectSchema}
    (differ : existing.primaryKey ≠ target.primaryKey) :
    .changePrimaryKey existing target.primaryKeyProperty ∈ compareObject existing target := by
  refine List.mem_append_left _ (List.mem_append_right _ ?_)
  rw [changedPrimaryKey, if_pos differ]
  exact List.mem_singleton_self _

theorem eq_of_mem_changedPrimaryKey {existing target : ObjectSchema} {c : SchemaChange}
    (member : c ∈ changedPrimaryKey existing target) :
    c = .changePrimaryKey existing target.primaryKeyProperty := by
  unfold changedPrimaryKey at member
  split_ifs at member
  · exact List.mem_singleton.mp member
  · cases member

theorem object_of_mem_compareObject {existing target : ObjectSchema} {c : SchemaChange}
    (member : c ∈ compareObject existing target) : c.object = existing := by
  rcases cases_of_mem_compareObject member with ⟨current, -, isChange⟩ | keyed | ⟨_, -, rfl⟩
  · exact (about_of_mem_compareProperty isChange).1
  · rw [eq_of_mem_changedPrimaryKey keyed]
    rfl
  · rfl

theorem not_mem_compareObject_addInitialProperties {existing target new : ObjectSchema} :
    .addInitialProperties new ∉ compareObject existing target := by
  intro member
  rcases cases_of_mem_compareObject member with ⟨current, -, isChange⟩ | keyed | ⟨_, -, same⟩
  · cases (about_of_mem_compareProperty isChange).2
  · cases eq_of_mem_changedPrimaryKey keyed
  · cases same

/-- The changes of a pair are those of the class that it is about. -/
theorem name_of_mem_changesOf {self target : Schema}
    {pair : Option ObjectSchema × Option ObjectSchema} (paired : pair ∈ self.pairs target)
    {c : SchemaChange} (member : c ∈ changesOf pair) :
    ∃ object, pair.1 = some object ∧ c.object.name = object.name := by
  rcases pair with ⟨_ | object, _ | existing⟩
  · cases member
  · cases member
  · rw [List.mem_singleton.mp member]
    exact ⟨object, rfl, rfl⟩
  · rw [object_of_mem_compareObject member]
    exact ⟨object, rfl, (key_of_mem_zipMatching paired).2.2.symm⟩

section Class

variable {self target : Schema} {object : ObjectSchema} {held : Option ObjectSchema}

/-- What is changed in the file's class of this name. -/
def changesFor (changes : List SchemaChange) (name : String) : List SchemaChange :=
  changes.filter fun c => c.object.name = name

/-- A class of the app's schema has one pair. -/
theorem exists_pairs_eq (distinct : (target.objects.map ObjectSchema.name).Nodup)
    (paired : (some object, held) ∈ self.pairs target) :
    ∃ before after, self.pairs target = before ++ (some object, held) :: after ∧
      ∀ pair ∈ before ++ after, ∀ other, pair.1 = some other → other.name ≠ object.name := by
  obtain ⟨before, after, same⟩ := List.append_of_mem paired
  refine ⟨before, after, same, ?_⟩
  have met : (self.pairs target).filterMap Prod.fst = target.objects := filterMap_fst_zipMatching
  rw [← met, same] at distinct
  rintro ⟨first, second⟩ member other rfl
  simp only [List.filterMap_append, List.filterMap_cons, List.map_append, List.map_cons] at distinct
  have apart := (List.nodup_middle.mp distinct)
  rw [List.nodup_cons, List.mem_append] at apart
  intro sameName
  apply apart.1
  rcases List.mem_append.mp member with earlier | later
  · exact Or.inl (List.mem_map.mpr
      ⟨other, List.mem_filterMap.mpr ⟨_, earlier, rfl⟩, sameName⟩)
  · exact Or.inr (List.mem_map.mpr
      ⟨other, List.mem_filterMap.mpr ⟨_, later, rfl⟩, sameName⟩)

theorem changesFor_flatMap (distinct : (target.objects.map ObjectSchema.name).Nodup)
    (paired : (some object, held) ∈ self.pairs target) :
    changesFor ((self.pairs target).flatMap changesOf) object.name =
      changesOf (some object, held) := by
  obtain ⟨before, after, same, apart⟩ := exists_pairs_eq distinct paired
  unfold changesFor
  rw [same]
  apply filter_flatMap_append_cons
  · intro c member
    obtain ⟨other, isObject, name⟩ := name_of_mem_changesOf paired member
    cases isObject
    exact decide_eq_true name
  · intro pair inside c member
    have isPair : pair ∈ self.pairs target := by
      rw [same]
      exact List.mem_append.mpr
        ((List.mem_append.mp inside).imp id (List.mem_cons_of_mem _))
    obtain ⟨other, isObject, name⟩ := name_of_mem_changesOf isPair member
    exact decide_eq_false (name ▸ apart pair inside other isObject)

theorem changesFor_addTables (distinct : (target.objects.map ObjectSchema.name).Nodup)
    (paired : (some object, held) ∈ self.pairs target) :
    changesFor (addTables (self.pairs target)) object.name =
      if held = none then [.addTable object] else [] := by
  obtain ⟨before, after, same, apart⟩ := exists_pairs_eq distinct paired
  have ofOthers {l : List (Option ObjectSchema × Option ObjectSchema)}
      (sub : ∀ pair ∈ l, pair ∈ before ++ after) : changesFor (addTables l) object.name = [] := by
    rw [changesFor, List.filter_eq_nil_iff]
    intro c member
    obtain ⟨⟨_ | other, _ | existing⟩, inside, isChange⟩ := List.mem_filterMap.mp member
    · cases isChange
    · cases isChange
    · cases isChange
      exact fun isHere => apart _ (sub _ inside) other rfl (of_decide_eq_true isHere)
    · cases isChange
  have split : addTables (before ++ (some object, held) :: after) =
      addTables before ++ (if held = none then [.addTable object] else []) ++
        addTables after := by
    cases held with
    | none => simp [addTables]
    | some existing => simp [addTables]
  rw [same, split]
  simp only [changesFor, List.filter_append] at ofOthers ⊢
  rw [ofOthers fun pair => List.mem_append_left _, ofOthers fun pair => List.mem_append_right _,
    List.nil_append, List.append_nil]
  split_ifs
  · simp [SchemaChange.object]
  · rfl

/-- A new class gets its table, and then its properties. -/
theorem changesFor_compare_of_new (distinct : (target.objects.map ObjectSchema.name).Nodup)
    (paired : (some object, none) ∈ self.pairs target) :
    changesFor (self.compare target) object.name =
      [.addTable object, .addInitialProperties object] := by
  obtain ⟨rest, same, -, perm⟩ := self.compare_eq target
  have added := changesFor_addTables distinct paired
  have others := changesFor_flatMap distinct paired
  have restOf := (perm.filter fun c => decide (c.object.name = object.name))
  unfold changesFor at added others ⊢
  rw [others] at restOf
  rw [same, List.filter_append, added, List.perm_singleton.mp restOf]
  rfl

/-- A class that both have gets the changes between its two versions, the removals last. -/
theorem changesFor_compare_of_existing {existing : ObjectSchema}
    (distinct : (target.objects.map ObjectSchema.name).Nodup)
    (paired : (some object, some existing) ∈ self.pairs target) :
    ∃ kept removals, changesFor (self.compare target) object.name = kept ++ removals ∧
      (kept ++ removals).Perm (compareObject existing object) ∧
      (∀ c ∈ kept, c.isNotRemoveProperty = true) ∧
      (∀ c ∈ removals, c.isNotRemoveProperty = false) ∧
      removals.Pairwise (fun a b => b.getRemovedColumn ≤ a.getRemovedColumn) := by
  obtain ⟨rest, same, ⟨kept, removals, initial, rfl, keep, remove, sorted, adds⟩, perm⟩ :=
    self.compare_eq target
  have added := changesFor_addTables distinct paired
  have others := changesFor_flatMap distinct paired
  have restOf := (perm.filter fun c => decide (c.object.name = object.name))
  unfold changesFor at added others ⊢
  rw [others] at restOf
  simp only [List.filter_append] at restOf
  have noInitial : initial.filter (fun c => decide (c.object.name = object.name)) = [] := by
    rw [List.filter_eq_nil_iff]
    intro c member isHere
    obtain ⟨new, rfl⟩ := adds c member
    exact not_mem_compareObject_addInitialProperties
      (restOf.mem_iff.mp (List.mem_append_right _ (List.mem_filter.mpr ⟨member, isHere⟩)))
  rw [noInitial, List.append_nil] at restOf
  refine ⟨_, _, ?_, restOf, fun c member => keep c (List.mem_of_mem_filter member),
    fun c member => remove c (List.mem_of_mem_filter member), sorted.filter _⟩
  rw [same, List.filter_append, added, if_neg (Option.some_ne_none _), List.nil_append]
  simp only [List.filter_append, noInitial, List.append_nil]

/-- A class that only the file has is left alone. -/
theorem changesFor_compare_of_absent {name : String}
    (absent : name ∉ target.objects.map ObjectSchema.name) :
    changesFor (self.compare target) name = [] := by
  obtain ⟨rest, same, -, perm⟩ := self.compare_eq target
  rw [changesFor, List.filter_eq_nil_iff, same]
  intro c member isHere
  apply absent
  rw [← of_decide_eq_true isHere]
  have ofPair {pair : Option ObjectSchema × Option ObjectSchema} (inside : pair ∈ self.pairs target)
      {new : ObjectSchema} (isNew : pair.1 = some new) :
      new.name ∈ target.objects.map ObjectSchema.name := by
    obtain ⟨first, second⟩ := pair
    cases isNew
    exact List.mem_map_of_mem (mem_of_mem_zipMatching inside)
  rcases List.mem_append.mp member with isTable | later
  · obtain ⟨⟨_ | new, _ | existing⟩, inside, isChange⟩ := List.mem_filterMap.mp isTable
    · cases isChange
    · cases isChange
    · cases isChange
      exact ofPair inside rfl
    · cases isChange
  · obtain ⟨pair, inside, isChange⟩ := List.mem_flatMap.mp (perm.mem_iff.mp later)
    obtain ⟨new, isNew, name⟩ := name_of_mem_changesOf inside isChange
    rw [name]
    exact ofPair inside isNew

end Class

/-! ### The changes of one column -/

section Column

variable {existing target : ObjectSchema}

/-- The changes of one property's column, in the order they were listed. -/
theorem filter_column_compareObject
    (columns : (existing.persistedProperties.map fun p => p.tableColumn).Nodup)
    {current : Property} (member : current ∈ existing.persistedProperties) :
    (compareObject existing target).filter (fun c => c.column = some current.tableColumn) =
      compareProperty existing target current := by
  obtain ⟨before, after, same⟩ := List.append_of_mem member
  rw [same, List.map_append, List.map_cons, List.nodup_middle, List.nodup_cons,
    ← List.map_append, List.mem_map] at columns
  have inPlace : ((before ++ current :: after).flatMap (compareProperty existing target)).filter
      (fun c => decide (c.column = some current.tableColumn)) =
        compareProperty existing target current := by
    apply filter_flatMap_append_cons
    · intro c isChange
      exact decide_eq_true (about_of_mem_compareProperty isChange).2
    · intro other inside c isChange
      refine decide_eq_false fun isHere => columns.1 ⟨other, inside, ?_⟩
      exact Option.some.inj ((about_of_mem_compareProperty isChange).2.symm.trans isHere)
  have noKey : (changedPrimaryKey existing target).filter
      (fun c => decide (c.column = some current.tableColumn)) = [] := by
    rw [List.filter_eq_nil_iff]
    intro c keyed
    rw [eq_of_mem_changedPrimaryKey keyed]
    simp [SchemaChange.column]
  have noNew : ((addedProperties existing target).map (SchemaChange.addProperty existing)).filter
      (fun c => decide (c.column = some current.tableColumn)) = [] := by
    rw [List.filter_eq_nil_iff]
    intro c isNew
    obtain ⟨property, -, rfl⟩ := List.mem_map.mp isNew
    simp [SchemaChange.column]
  rw [compareObject, List.filter_append, List.filter_append, noKey, noNew, List.append_nil,
    List.append_nil, same, inPlace]

/-- A column that is not one of a property is not changed. -/
theorem column_ne_of_mem_compareObject {i : Nat}
    (noProperty : ∀ current ∈ existing.persistedProperties, current.tableColumn ≠ i)
    {c : SchemaChange} (member : c ∈ compareObject existing target) : c.column ≠ some i := by
  rcases cases_of_mem_compareObject member with ⟨current, inside, isChange⟩ | keyed | ⟨_, -, rfl⟩
  · rw [(about_of_mem_compareProperty isChange).2]
    exact fun same => noProperty current inside (Option.some.inj same)
  · rw [eq_of_mem_changedPrimaryKey keyed]
    exact nofun
  · exact nofun

end Column

end FileSchema

end Phonotes
