import Mathlib.Data.List.Induction
import Mathlib.Data.List.Sort
import Mathlib.Order.Basic

/-!
Algorithms on sequences, and edits of them.

`partition` is the one that C++ libraries use for sequences that can be read from both
ends: it swaps the first element out of place with the last one, so it keeps no order but
that of what comes first and is in place already. `zipMatching` walks two sequences that
are sorted by a key and pairs what has the same key. The edits change elements where they
stand, add some at the end, or take out positions that were noted beforehand.
-/

namespace Sequences

universe u v w

/-! ### Partition -/

section Partition

variable {α : Type u} (p : α → Bool)

/-- A sequence at the last element that satisfies `p`. -/
def splitLast : List α → Option (List α × α × List α)
  | [] => none
  | a :: l =>
      match splitLast l with
      | some (before, b, after) => some (a :: before, b, after)
      | none => if p a then some ([], a, l) else none

theorem splitLast_eq_none {l : List α} (missing : splitLast p l = none) :
    ∀ a ∈ l, p a = false := by
  induction l with
  | nil => simp
  | cons a l ih =>
      simp only [splitLast] at missing
      cases rest : splitLast p l with
      | some split => simp [rest] at missing
      | none =>
          simp only [rest] at missing
          split_ifs at missing with fails
          exact List.forall_mem_cons.mpr ⟨Bool.eq_false_iff.mpr fails, ih rest⟩

theorem splitLast_eq_some {l before after : List α} {b : α}
    (found : splitLast p l = some (before, b, after)) :
    l = before ++ b :: after ∧ p b = true ∧ ∀ a ∈ after, p a = false := by
  induction l generalizing before with
  | nil => cases found
  | cons a l ih =>
      simp only [splitLast] at found
      cases rest : splitLast p l with
      | some split =>
          obtain ⟨before', b', after'⟩ := split
          simp only [rest, Option.some.injEq, Prod.mk.injEq] at found
          obtain ⟨rfl, rfl, rfl⟩ := found
          obtain ⟨rfl, holds, fail⟩ := ih rest
          exact ⟨rfl, holds, fail⟩
      | none =>
          simp only [rest] at found
          split_ifs at found with holds
          cases found
          exact ⟨rfl, holds, splitLast_eq_none p rest⟩

/-- Bring the elements that satisfy `p` before the others. -/
def partition : List α → List α
  | [] => []
  | a :: l =>
      if p a then a :: partition l
      else
        match _found : splitLast p l with
        | none => a :: l
        | some (before, b, after) => b :: (partition before ++ a :: after)
termination_by l => l.length
decreasing_by
  · exact Nat.lt_succ_self _
  · obtain ⟨rfl, -⟩ := splitLast_eq_some p _found
    simp only [List.length_cons, List.length_append]
    omega

theorem partition_swap {a b : α} {l before after : List α} (fails : ¬ p a = true)
    (found : splitLast p l = some (before, b, after)) :
    partition p (a :: l) = b :: (partition p before ++ a :: after) := by
  rw [partition, if_neg fails]
  split
  · rename_i none
    cases found.symm.trans none
  · rename_i isFound
    cases found.symm.trans isFound
    rfl

theorem partition_none {a : α} {l : List α} (fails : ¬ p a = true)
    (missing : splitLast p l = none) : partition p (a :: l) = a :: l := by
  rw [partition, if_neg fails]
  split
  · rfl
  · rename_i isFound
    cases missing.symm.trans isFound

theorem partition_perm (l : List α) : (partition p l).Perm l := by
  induction l using partition.induct p with
  | case1 => rw [partition]
  | case2 a l holds ih =>
      rw [partition, if_pos holds]
      exact ih.cons a
  | case3 a l fails missing => rw [partition_none p fails missing]
  | case4 a l fails before b after found ih =>
      rw [partition_swap p fails found]
      obtain ⟨rfl, -⟩ := splitLast_eq_some p found
      have inner := ih.append_right (a :: after)
      calc
        List.Perm (b :: (partition p before ++ a :: after)) (b :: (before ++ a :: after)) :=
          inner.cons b
        List.Perm _ (b :: a :: (before ++ after)) := List.perm_middle.cons b
        List.Perm _ (a :: b :: (before ++ after)) := List.Perm.swap a b _
        List.Perm _ (a :: (before ++ b :: after)) := List.perm_middle.symm.cons a

/-- The result is the elements that satisfy `p`, and then the others. -/
theorem exists_partition_eq (l : List α) :
    ∃ kept dropped, partition p l = kept ++ dropped ∧ (∀ a ∈ kept, p a = true) ∧
      ∀ a ∈ dropped, p a = false := by
  induction l using partition.induct p with
  | case1 => exact ⟨[], [], by rw [partition]; rfl, by simp, by simp⟩
  | case2 a l holds ih =>
      obtain ⟨kept, dropped, same, satisfy, fail⟩ := ih
      refine ⟨a :: kept, dropped, ?_, List.forall_mem_cons.mpr ⟨holds, satisfy⟩, fail⟩
      rw [partition, if_pos holds, same, List.cons_append]
  | case3 a l fails missing =>
      refine ⟨[], a :: l, partition_none p fails missing, by simp, ?_⟩
      exact List.forall_mem_cons.mpr ⟨Bool.eq_false_iff.mpr fails, splitLast_eq_none p missing⟩
  | case4 a l fails before b after found ih =>
      obtain ⟨kept, dropped, same, satisfy, fail⟩ := ih
      obtain ⟨-, holds, trailing⟩ := splitLast_eq_some p found
      refine ⟨b :: kept, dropped ++ a :: after, ?_, List.forall_mem_cons.mpr ⟨holds, satisfy⟩, ?_⟩
      · rw [partition_swap p fails found, same, List.append_assoc, List.cons_append]
      · intro c member
        rcases List.mem_append.mp member with earlier | later
        · exact fail c earlier
        · rcases List.mem_cons.mp later with rfl | behind
          · exact Bool.eq_false_iff.mpr fails
          · exact trailing c behind

/-- What comes first and is in place stays there. -/
theorem partition_append {first rest : List α} (inPlace : ∀ a ∈ first, p a = true) :
    partition p (first ++ rest) = first ++ partition p rest := by
  induction first with
  | nil => rfl
  | cons a first ih =>
      obtain ⟨holds, later⟩ := List.forall_mem_cons.mp inPlace
      rw [List.cons_append, partition, if_pos holds, ih later, List.cons_append]

end Partition

/-! ### Two sorted sequences -/

section Zip

variable {α : Type u} {β : Type v} {κ : Type w} [LinearOrder κ] (keyOf : α → κ) (keyOf' : β → κ)

/-- Walk both sequences at once: an element with its match, or alone. -/
def zipMatching : List α → List β → List (Option α × Option β)
  | a :: as, b :: bs =>
      if keyOf a = keyOf' b then (some a, some b) :: zipMatching as bs
      else if keyOf a < keyOf' b then (some a, none) :: zipMatching as (b :: bs)
      else (none, some b) :: zipMatching (a :: as) bs
  | as, [] => as.map fun a => (some a, none)
  | [], bs => bs.map fun b => (none, some b)
termination_by as bs => as.length + bs.length

variable {keyOf keyOf'} {as : List α} {bs : List β}

/-- What is paired has the same key. -/
theorem key_of_mem_zipMatching {a : α} {b : β}
    (member : (some a, some b) ∈ zipMatching keyOf keyOf' as bs) :
    a ∈ as ∧ b ∈ bs ∧ keyOf a = keyOf' b := by
  induction as, bs using zipMatching.induct keyOf keyOf' with
  | case1 a' as b' bs same ih =>
      rw [zipMatching, if_pos same] at member
      rcases List.mem_cons.mp member with isHead | later
      · cases isHead
        exact ⟨List.mem_cons_self, List.mem_cons_self, same⟩
      · obtain ⟨inFirst, inSecond, sameKey⟩ := ih later
        exact ⟨List.mem_cons_of_mem _ inFirst, List.mem_cons_of_mem _ inSecond, sameKey⟩
  | case2 a' as b' bs differ less ih =>
      rw [zipMatching, if_neg differ, if_pos less] at member
      rcases List.mem_cons.mp member with isHead | later
      · cases isHead
      · obtain ⟨inFirst, inSecond, sameKey⟩ := ih later
        exact ⟨List.mem_cons_of_mem _ inFirst, inSecond, sameKey⟩
  | case3 a' as b' bs differ notLess ih =>
      rw [zipMatching, if_neg differ, if_neg notLess] at member
      rcases List.mem_cons.mp member with isHead | later
      · cases isHead
      · obtain ⟨inFirst, inSecond, sameKey⟩ := ih later
        exact ⟨inFirst, List.mem_cons_of_mem _ inSecond, sameKey⟩
  | case4 as =>
      rw [zipMatching] at member
      simp at member
  | case5 bs notNil =>
      cases bs with
      | nil => simp [zipMatching] at member
      | cons b' bs => simp [zipMatching] at member

/-- Every element of the first sequence is met, in its order. -/
theorem filterMap_fst_zipMatching :
    (zipMatching keyOf keyOf' as bs).filterMap Prod.fst = as := by
  induction as, bs using zipMatching.induct keyOf keyOf' with
  | case1 a as b bs same ih =>
      rw [zipMatching, if_pos same]
      simp [ih]
  | case2 a as b bs differ less ih =>
      rw [zipMatching, if_neg differ, if_pos less]
      simp [ih]
  | case3 a as b bs differ notLess ih =>
      rw [zipMatching, if_neg differ, if_neg notLess]
      simp [ih]
  | case4 as => simp [zipMatching, List.filterMap_map]
  | case5 bs notNil =>
      cases bs with
      | nil => simp [zipMatching]
      | cons b bs => simp [zipMatching, List.filterMap_map]

theorem mem_of_mem_zipMatching {a : α} {match' : Option β}
    (member : (some a, match') ∈ zipMatching keyOf keyOf' as bs) : a ∈ as := by
  have met : (zipMatching keyOf keyOf' as bs).filterMap Prod.fst = as := filterMap_fst_zipMatching
  rw [← met]
  exact List.mem_filterMap.mpr ⟨_, member, rfl⟩

/-- In sorted sequences, what is alone has no match. -/
theorem alone_of_mem_zipMatching (sorted : as.Pairwise fun a a' => keyOf a < keyOf a')
    (sorted' : bs.Pairwise fun b b' => keyOf' b < keyOf' b') {a : α}
    (member : (some a, none) ∈ zipMatching keyOf keyOf' as bs) :
    ∀ b ∈ bs, keyOf' b ≠ keyOf a := by
  induction as, bs using zipMatching.induct keyOf keyOf' with
  | case1 a' as b' bs same ih =>
      rw [zipMatching, if_pos same] at member
      rcases List.mem_cons.mp member with isHead | later
      · cases isHead
      · obtain ⟨above, sorted⟩ := List.pairwise_cons.mp sorted
        obtain ⟨-, sorted'⟩ := List.pairwise_cons.mp sorted'
        refine List.forall_mem_cons.mpr ⟨?_, ih sorted sorted' later⟩
        rw [← same]
        exact (above a (mem_of_mem_zipMatching later)).ne
  | case2 a' as b' bs differ less ih =>
      rw [zipMatching, if_neg differ, if_pos less] at member
      rcases List.mem_cons.mp member with isHead | later
      · cases isHead
        obtain ⟨above', -⟩ := List.pairwise_cons.mp sorted'
        refine List.forall_mem_cons.mpr ⟨less.ne', ?_⟩
        intro b inRest
        exact (less.trans (above' b inRest)).ne'
      · exact ih (List.pairwise_cons.mp sorted).2 sorted' later
  | case3 a' as b' bs differ notLess ih =>
      rw [zipMatching, if_neg differ, if_neg notLess] at member
      rcases List.mem_cons.mp member with isHead | later
      · cases isHead
      · refine List.forall_mem_cons.mpr ⟨?_, ih sorted (List.pairwise_cons.mp sorted').2 later⟩
        have greater : keyOf' b' < keyOf a' :=
          lt_of_le_of_ne (not_lt.mp notLess) fun same => differ same.symm
        rcases List.mem_cons.mp (mem_of_mem_zipMatching later) with rfl | inRest
        · exact greater.ne
        · exact (greater.trans ((List.pairwise_cons.mp sorted).1 a inRest)).ne
  | case4 as => simp
  | case5 bs notNil =>
      cases bs with
      | nil => simp
      | cons b bs => simp [zipMatching] at member

end Zip

/-! ### Parts of a sequence -/

section Parts

variable {α : Type u} {β : Type v}

/-- Where only one element contributes what is asked for, that is what is found. -/
theorem filter_flatMap_append_cons {f : α → List β} {p : β → Bool} {before after : List α}
    {a : α} (all : ∀ b ∈ f a, p b = true)
    (none : ∀ a' ∈ before ++ after, ∀ b ∈ f a', p b = false) :
    ((before ++ a :: after).flatMap f).filter p = f a := by
  have ofNone {l : List α} (sub : ∀ a' ∈ l, a' ∈ before ++ after) :
      (l.flatMap f).filter p = [] := by
    rw [List.filter_eq_nil_iff]
    intro b member
    obtain ⟨a', inside, isPart⟩ := List.mem_flatMap.mp member
    simp [none a' (sub a' inside) b isPart]
  rw [List.flatMap_append, List.flatMap_cons, List.filter_append, List.filter_append,
    List.filter_eq_self.mpr all, ofNone fun a' => List.mem_append_left _,
    ofNone fun a' => List.mem_append_right _, List.nil_append, List.append_nil]

end Parts

/-! ### Edits -/

section Edits

variable {α : Type u} {ε : Type v}

/-- Change the element at a position, or add elements at the end. -/
def edit (pos : ε → Option Nat) (f : ε → α → α) (added : ε → List α) (l : List α) (e : ε) :
    List α :=
  match pos e with
  | some i => l.modify i (f e)
  | none => l ++ added e

variable {pos : ε → Option Nat} {f : ε → α → α} {added : ε → List α}

theorem length_le_edit (l : List α) (e : ε) : l.length ≤ (edit pos f added l e).length := by
  unfold edit
  cases pos e with
  | none => simp
  | some i => simp

/-- After edits of positions that were there from the start, every element has been
changed by the edits of its own position, and the new ones come behind. -/
theorem foldl_edit {l : List α} {es : List ε}
    (inRange : ∀ e ∈ es, ∀ i, pos e = some i → i < l.length) :
    es.foldl (edit pos f added) l =
      (l.mapIdx fun i a => (es.filter fun e => pos e = some i).foldl (fun a e => f e a) a) ++
        (es.filter fun e => pos e = none).flatMap added := by
  induction es using List.reverseRec with
  | nil =>
      apply List.ext_getElem?
      intro i
      simp
  | append_singleton es e ih =>
      have earlier := ih fun e' member => inRange e' (List.mem_append_left _ member)
      rw [List.foldl_append, List.foldl_cons, List.foldl_nil, earlier, edit]
      cases place : pos e with
      | none =>
          simp [place]
      | some i =>
          have inFirst := inRange e (by simp) i place
          apply List.ext_getElem?
          intro j
          rw [List.getElem?_modify]
          simp only [List.getElem?_append, List.length_mapIdx, List.filter_append,
            List.flatMap_append, List.getElem?_mapIdx, List.foldl_append]
          by_cases isHere : i = j
          · subst isHere
            simp [inFirst, place]
          · by_cases within : j < l.length
            · simp [within, place, isHere]
            · simp [within, place, isHere]

/-- An element that comes in before another takes its place once that is removed. -/
theorem eraseIdx_insertIdx_succ {l : List α} {i : Nat} (inRange : i < l.length) (a : α) :
    (l.insertIdx i a).eraseIdx (i + 1) = l.set i a := by
  apply List.ext_getElem?
  intro j
  rw [List.getElem?_eraseIdx, List.getElem?_set]
  rcases Nat.lt_trichotomy j i with before | rfl | after
  · rw [if_pos (by omega), List.getElem?_insertIdx_of_lt before, if_neg before.ne']
  · rw [if_pos (Nat.lt_succ_self _), List.getElem?_insertIdx_self, if_pos inRange.le,
      if_pos rfl, if_pos inRange]
  · rw [if_neg (by omega), List.getElem?_insertIdx_of_gt (by omega), if_neg after.ne,
      Nat.add_sub_cancel]

theorem set_insertIdx_self (l : List α) (i : Nat) (a b : α) :
    (l.insertIdx i a).set i b = l.insertIdx i b := by
  apply List.ext_getElem?
  intro j
  rw [List.getElem?_set]
  by_cases isHere : i = j
  · subst isHere
    rw [if_pos rfl, List.getElem?_insertIdx_self, List.length_insertIdx]
    split_ifs <;> first | rfl | omega
  · rw [if_neg isHere, List.getElem?_insertIdx, List.getElem?_insertIdx, if_neg (Ne.symm isHere),
      if_neg (Ne.symm isHere)]

/-- Positions that are taken out in descending order are the ones that were noted. -/
theorem mem_foldl_eraseIdx {positions : List Nat} {l : List α}
    (descending : positions.Pairwise fun i j => i > j) {a : α} :
    a ∈ positions.foldl List.eraseIdx l ↔ ∃ i, i ∉ positions ∧ l[i]? = some a := by
  induction positions generalizing l with
  | nil => simp [List.mem_iff_getElem?]
  | cons p positions ih =>
      obtain ⟨below, descending⟩ := List.pairwise_cons.mp descending
      rw [List.foldl_cons, ih descending]
      constructor
      · rintro ⟨i, kept, held⟩
        rw [List.getElem?_eraseIdx] at held
        split_ifs at held with before
        · exact ⟨i, by simp [kept, before.ne], held⟩
        · refine ⟨i + 1, ?_, held⟩
          intro member
          rcases List.mem_cons.mp member with same | later
          · omega
          · have := below _ later
            omega
      · rintro ⟨i, kept, held⟩
        rw [List.mem_cons, not_or] at kept
        rcases Nat.lt_or_gt_of_ne kept.1 with before | after
        · refine ⟨i, kept.2, ?_⟩
          rw [List.getElem?_eraseIdx_of_lt before, held]
        · refine ⟨i - 1, ?_, ?_⟩
          · intro member
            have := below _ member
            omega
          · rw [List.getElem?_eraseIdx_of_ge (by omega), Nat.sub_add_cancel (by omega), held]

theorem foldl_eraseIdx_sublist (positions : List Nat) (l : List α) :
    (positions.foldl List.eraseIdx l).Sublist l := by
  induction positions generalizing l with
  | nil => exact List.Sublist.refl l
  | cons p positions ih => exact (ih _).trans (List.eraseIdx_sublist l p)

end Edits

end Sequences
