import Mathlib.Data.List.Infix
import Mathlib.Data.List.Nodup
import Mathlib.Data.List.Perm.Basic
import Mathlib.Tactic.SplitIfs

/-!
A list of rows with a key, read as a map.

A reader finds the first row with a key, so the list is a map whatever is in it;
`Distinct` says that no row is hidden by an earlier one. A writer overwrites a row where
it stands, or puts a new one at the end (`Upsert`). The laws say what that does to the
map, and that it moves no row. Taking a row out moves one row at most.
-/

namespace KeyedRows

universe u v

variable {ρ : Type u} {κ : Type v} [DecidableEq κ] (key : ρ → κ)

/-- The position of the first row with this key. -/
def findFirst (rows : List ρ) (k : κ) : Option Nat := rows.findIdx? fun row => key row = k

/-- The map that the rows are. -/
def lookup (rows : List ρ) (k : κ) : Option ρ := rows.find? fun row => key row = k

/-- No two rows have the same key. -/
def Distinct (rows : List ρ) : Prop := (rows.map key).Nodup

variable {key} {rows : List ρ} {k : κ}

/-! ### Finding a row -/

theorem findFirst_cons (row : ρ) : findFirst key (row :: rows) k =
    if key row = k then some 0 else (findFirst key rows k).map (· + 1) := by
  by_cases isKey : key row = k
  · simp [findFirst, List.findIdx?_cons, isKey]
  · simp [findFirst, List.findIdx?_cons, isKey]

theorem lookup_cons (row : ρ) : lookup key (row :: rows) k =
    if key row = k then some row else lookup key rows k := by
  by_cases isKey : key row = k
  · simp [lookup, isKey]
  · simp [lookup, isKey]

theorem getElem?_findFirst {i : Nat} (found : findFirst key rows k = some i) :
    ∃ row, rows[i]? = some row ∧ key row = k := by
  obtain ⟨inRange, isKey, -⟩ := List.findIdx?_eq_some_iff_getElem.mp found
  exact ⟨rows[i], List.getElem?_eq_getElem inRange, by simpa using isKey⟩

theorem findFirst_eq_none_iff : findFirst key rows k = none ↔ k ∉ rows.map key := by
  simp only [findFirst, List.findIdx?_eq_none_iff, decide_eq_false_iff_not, List.mem_map,
    not_exists, not_and]

theorem lookup_eq_none_iff : lookup key rows k = none ↔ k ∉ rows.map key := by
  simp only [lookup, List.find?_eq_none, decide_eq_true_eq, List.mem_map, not_exists, not_and]

/-- The map has the row that was found. -/
theorem lookup_eq_getElem? {i : Nat} (found : findFirst key rows k = some i) :
    lookup key rows k = rows[i]? := by
  induction rows generalizing i with
  | nil => cases found
  | cons row rows ih =>
      rw [findFirst_cons] at found
      rw [lookup_cons]
      split_ifs at found ⊢ with isKey
      · cases found
        rfl
      · obtain ⟨j, later, rfl⟩ := Option.map_eq_some_iff.mp found
        exact ih later

/-- A row that is found is found where it was after more rows have come. -/
theorem findFirst_of_prefix {rows' : List ρ} (grows : rows.map key <+: rows'.map key) {i : Nat}
    (found : findFirst key rows k = some i) : findFirst key rows' k = some i := by
  have onKeys (rows : List ρ) : findFirst key rows k =
      (rows.map key).findIdx? fun k' => decide (k' = k) := by
    rw [List.findIdx?_map]
    rfl
  obtain ⟨later, same⟩ := grows
  rw [onKeys] at found
  rw [onKeys, ← same, List.findIdx?_append, found]
  rfl

/-- Rows that change but for their keys change in the map. -/
theorem lookup_map {f : ρ → ρ} (keeps : ∀ row, key (f row) = key row) :
    lookup key (rows.map f) k = (lookup key rows k).map f := by
  induction rows with
  | nil => rfl
  | cons row rows ih =>
      rw [List.map_cons, lookup_cons, lookup_cons, keeps, ih]
      split_ifs <;> rfl

/-! ### Writing a row -/

/-- `Upsert key row rows rows'`: the row is written over the one with its key, or added
at the end where there is none. -/
inductive Upsert (key : ρ → κ) (row : ρ) (rows : List ρ) : List ρ → Prop where
  | changed {i : Nat} : findFirst key rows (key row) = some i → Upsert key row rows (rows.set i row)
  | added : findFirst key rows (key row) = none → Upsert key row rows (rows ++ [row])

variable {row : ρ}

/-- Writing over a row with the same key leaves the keys as they are. -/
theorem map_key_set {i : Nat} (found : findFirst key rows (key row) = some i) :
    (rows.set i row).map key = rows.map key := by
  obtain ⟨old, atIndex, same⟩ := getElem?_findFirst found
  rw [List.map_set, ← same]
  apply List.ext_getElem?
  intro j
  rw [List.getElem?_set]
  split_ifs with isIndex inRange
  · subst isIndex
    rw [List.getElem?_map, atIndex, Option.map_some]
  · subst isIndex
    rw [List.length_map] at inRange
    simp [List.getElem?_eq_none (Nat.not_lt.mp inRange)] at atIndex
  · rfl

theorem lookup_set {i : Nat} (found : findFirst key rows (key row) = some i) (k : κ) :
    lookup key (rows.set i row) k = if k = key row then some row else lookup key rows k := by
  induction rows generalizing i with
  | nil => cases found
  | cons old rows ih =>
      rw [findFirst_cons] at found
      split_ifs at found with isKey
      · cases found
        rw [List.set_cons_zero, lookup_cons, lookup_cons, isKey]
        by_cases asked : k = key row
        · rw [if_pos asked, if_pos asked.symm]
        · rw [if_neg asked, if_neg (Ne.symm asked), if_neg (Ne.symm asked)]
      · obtain ⟨j, later, rfl⟩ := Option.map_eq_some_iff.mp found
        rw [List.set_cons_succ, lookup_cons, lookup_cons, ih later]
        by_cases asked : key old = k
        · have other : k ≠ key row := asked ▸ isKey
          rw [if_pos asked, if_neg other, if_pos asked]
        · rw [if_neg asked, if_neg asked]

/-- A row at the end is the map's at its key, if that was free. -/
theorem lookup_append (absent : findFirst key rows (key row) = none) (k : κ) :
    lookup key (rows ++ [row]) k = if k = key row then some row else lookup key rows k := by
  have fresh := lookup_eq_none_iff.mpr (findFirst_eq_none_iff.mp absent)
  simp only [lookup, List.find?_append] at fresh ⊢
  by_cases isNew : k = key row
  · subst isNew
    simp [fresh]
  · simp [isNew, Ne.symm isNew]

namespace Upsert

variable {rows' : List ρ}

/-- Either way the map is overwritten at the key. -/
theorem lookup_eq (upsert : Upsert key row rows rows') :
    lookup key rows' = Function.update (lookup key rows) (key row) (some row) := by
  funext k
  rw [Function.update_apply]
  cases upsert with
  | changed found => exact lookup_set found k
  | added absent => exact lookup_append absent k

/-- Rows stay where they are, and at most one is new. -/
theorem map_key_prefix (upsert : Upsert key row rows rows') :
    rows.map key <+: rows'.map key := by
  cases upsert with
  | changed found =>
      rw [map_key_set found]
  | added absent =>
      rw [List.map_append]
      exact List.prefix_append _ _

theorem distinct (upsert : Upsert key row rows rows') (before : Distinct key rows) :
    Distinct key rows' := by
  unfold Distinct at before ⊢
  cases upsert with
  | changed found =>
      rw [map_key_set found]
      exact before
  | added absent =>
      have fresh := findFirst_eq_none_iff.mp absent
      rw [List.map_append, List.map_singleton, List.nodup_append]
      refine ⟨before, List.nodup_singleton _, ?_⟩
      intro k member k' isNew same
      rw [List.mem_singleton] at isNew
      subst isNew
      subst same
      exact fresh member

end Upsert

/-! ### Taking a row out -/

/-- Take a row out; the last row takes its place. -/
def moveLastOver (rows : List ρ) (i : Nat) : List ρ :=
  match rows.getLast? with
  | some last => (rows.set i last).dropLast
  | none => rows

theorem moveLastOver_perm {i : Nat} (inRange : i < rows.length) :
    (moveLastOver rows i).Perm (rows.eraseIdx i) := by
  rcases List.eq_nil_or_concat rows with rfl | ⟨earlier, last, rfl⟩
  · simp at inRange
  · simp only [moveLastOver, List.concat_eq_append, List.getLast?_concat] at inRange ⊢
    by_cases isEarlier : i < earlier.length
    · rw [List.set_append_left _ _ isEarlier, List.dropLast_concat,
        List.eraseIdx_append_of_lt_length isEarlier]
      exact (List.set_perm_cons_eraseIdx isEarlier last).trans
        (List.perm_append_singleton last _).symm
    · have isLast : i = earlier.length := by
        rw [List.length_append, List.length_singleton] at inRange
        omega
      subst isLast
      rw [List.set_append_right _ _ le_rfl, List.eraseIdx_append_of_length_le le_rfl]
      simp

/-- Where no two rows have the same key, the map has the rows. -/
theorem lookup_eq_some_iff (distinct : Distinct key rows) {row : ρ} :
    lookup key rows k = some row ↔ row ∈ rows ∧ key row = k := by
  constructor
  · intro found
    have isKey := List.find?_some found
    exact ⟨List.mem_of_find?_eq_some found, of_decide_eq_true isKey⟩
  · rintro ⟨member, isKey⟩
    cases found : lookup key rows k with
    | none => exact absurd (List.mem_map.mpr ⟨row, member, isKey⟩) (lookup_eq_none_iff.mp found)
    | some other =>
        have isKey' := List.find?_some found
        rw [List.inj_on_of_nodup_map distinct (List.mem_of_find?_eq_some found) member
          ((of_decide_eq_true isKey').trans isKey.symm)]

omit [DecidableEq κ] in
theorem distinct_moveLastOver (distinct : Distinct key rows) {i : Nat} (inRange : i < rows.length) :
    Distinct key (moveLastOver rows i) := by
  unfold Distinct at distinct ⊢
  rw [((moveLastOver_perm inRange).map key).nodup_iff]
  exact distinct.sublist ((List.eraseIdx_sublist rows i).map key)

/-- The map loses the key of the row. -/
theorem lookup_moveLastOver (distinct : Distinct key rows) {i : Nat}
    (found : findFirst key rows k = some i) (k' : κ) :
    lookup key (moveLastOver rows i) k' = if k' = k then none else lookup key rows k' := by
  obtain ⟨old, held, isKey⟩ := getElem?_findFirst found
  have inRange := (List.getElem?_eq_some_iff.mp held).1
  have without (row : ρ) : row ∈ moveLastOver rows i ↔ row ∈ rows ∧ key row ≠ k := by
    rw [(moveLastOver_perm inRange).mem_iff, List.mem_eraseIdx_iff_getElem?]
    constructor
    · rintro ⟨j, other, heldToo⟩
      refine ⟨List.mem_of_getElem? heldToo, fun isKeyToo => other ?_⟩
      have inKeys : j < (rows.map key).length := by
        simpa using (List.getElem?_eq_some_iff.mp heldToo).1
      apply (List.getElem?_inj inKeys distinct).mp
      rw [List.getElem?_map, List.getElem?_map, held, heldToo, Option.map_some, Option.map_some,
        isKey, isKeyToo]
    · rintro ⟨member, other⟩
      obtain ⟨j, heldToo⟩ := List.mem_iff_getElem?.mp member
      refine ⟨j, ?_, heldToo⟩
      rintro rfl
      cases held.symm.trans heldToo
      exact other isKey
  apply Option.ext
  intro row
  rw [lookup_eq_some_iff (distinct_moveLastOver distinct inRange), without]
  by_cases same : k' = k
  · rw [if_pos same]
    constructor
    · rintro ⟨⟨-, other⟩, isKey'⟩
      exact absurd (isKey'.trans same) other
    · exact nofun
  · rw [if_neg same, lookup_eq_some_iff distinct]
    constructor
    · rintro ⟨⟨member, -⟩, isKey'⟩
      exact ⟨member, isKey'⟩
    · rintro ⟨member, isKey'⟩
      exact ⟨⟨member, isKey' ▸ same⟩, isKey'⟩

end KeyedRows
