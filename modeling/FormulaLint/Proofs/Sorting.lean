import Mathlib.Data.List.Nodup

/-!
# Sorted lists

Sorting keeps the items in their order that the sorting does not tell apart.  A sorted list is known
when the items under each key are known, in their order; and it does not depend on the order in which
the items came, as long as different items have different keys.

Main results:

- Theorem {lit}`filter_mergeSort`: sorting keeps the order of the items that are picked out.
- Theorem {lit}`eq_of_filter_key_eq`: a sorted list is known by the items under each key.
- Theorem {lit}`mergeSort_eq_of_perm`: different keys make a sorted list independent of the order.
-/

namespace FormulaLint

/-- A list is cut in one way only between items that have a property and items that do not. -/
theorem append_inj_of_forall {α : Type} {P : α → Prop} {xs xs' ys ys' : List α}
    (h : xs ++ xs' = ys ++ ys') (hxs : ∀ a ∈ xs, P a) (hxs' : ∀ a ∈ xs', ¬ P a)
    (hys : ∀ a ∈ ys, P a) (hys' : ∀ a ∈ ys', ¬ P a) : xs = ys ∧ xs' = ys' := by
  rcases List.append_eq_append_iff.mp h with ⟨more, rfl, rfl⟩ | ⟨more, rfl, rfl⟩
  · cases more with
    | nil => simp
    | cons a more => exact absurd (hys a (by simp)) (hxs' a (by simp))
  · cases more with
    | nil => simp
    | cons a more => exact absurd (hxs a (by simp)) (hys' a (by simp))

/-- Sorting keeps the order of the items that are picked out. -/
theorem filter_mergeSort {α : Type} {le : α → α → Bool}
    (trans : ∀ a b c, le a b = true → le b c = true → le a c = true)
    (total : ∀ a b, (le a b || le b a) = true) (p : α → Bool) (l : List α) :
    (l.mergeSort le).filter p = (l.filter p).mergeSort le := by
  induction l with
  | nil => simp
  | cons a l ih =>
      rcases List.mergeSort_cons trans total a l with ⟨front, back, hsort, hrest, hfront⟩
      have hsorted := List.pairwise_mergeSort trans total (a :: l)
      rw [hsort, List.pairwise_append, List.pairwise_cons] at hsorted
      rw [hrest, List.filter_append] at ih
      rw [hsort, List.filter_append, List.filter_cons, List.filter_cons]
      split
      · rcases List.mergeSort_cons trans total a (l.filter p)
          with ⟨front', back', hsort', hrest', hfront'⟩
        have hsorted' := List.pairwise_mergeSort trans total (a :: l.filter p)
        rw [hsort', List.pairwise_append, List.pairwise_cons] at hsorted'
        -- both lists are cut in front of the first item that does not come before the new one
        rw [hrest'] at ih
        rcases append_inj_of_forall (P := fun b => le a b = false) ih
          (fun b hb => by simpa using hfront b (List.mem_filter.mp hb).1)
          (fun b hb => by simp [hsorted.2.1.1 b (List.mem_filter.mp hb).1])
          (fun b hb => by simpa using hfront' b hb)
          (fun b hb => by simp [hsorted'.2.1.1 b hb]) with ⟨hfronts, hbacks⟩
        rw [hsort', hfronts, hbacks]
      · exact ih

/-- Of two items of a list in order, one that may not stand behind the other stands in front of it. -/
theorem pair_sublist_of_pairwise {α : Type} {R : α → α → Prop} {l : List α} {a b : α}
    (h : l.Pairwise R) (ha : a ∈ l) (hb : b ∈ l) (hne : a ≠ b) (hbehind : ¬ R b a) :
    [a, b].Sublist l := by
  rcases List.append_of_mem hb with ⟨front, back, rfl⟩
  rw [List.pairwise_append, List.pairwise_cons] at h
  have hfront : a ∈ front := by
    rcases List.mem_append.mp ha with ha | ha
    · exact ha
    · rcases List.mem_cons.mp ha with rfl | ha
      · exact absurd rfl hne
      · exact absurd (h.2.1.1 a ha) hbehind
  exact (List.singleton_sublist.mpr hfront).append
    (List.singleton_sublist.mpr (List.mem_cons_self ..))

section Keys

variable {α κ : Type} {key : α → κ} {le : κ → κ → Bool} {l l' : List α}

/-- Lists that have the same items under each key have the same items. -/
theorem mem_iff_of_filter_key_eq [DecidableEq κ]
    (h : ∀ k, (l.filter fun a => key a = k) = l'.filter fun a => key a = k) (a : α) :
    a ∈ l ↔ a ∈ l' := by
  have ha : a ∈ (l.filter fun b => key b = key a) ↔ a ∈ l'.filter fun b => key b = key a := by
    rw [h]
  simpa using ha

/-- Two lists that are sorted by a key are the same when they have the same items under each key, in
the same order. -/
theorem eq_of_filter_key_eq [DecidableEq κ]
    (antisymm : ∀ {a b}, le a b = true → le b a = true → a = b)
    (hl : l.Pairwise fun a b => le (key a) (key b) = true)
    (hl' : l'.Pairwise fun a b => le (key a) (key b) = true)
    (h : ∀ k, (l.filter fun a => key a = k) = l'.filter fun a => key a = k) : l = l' := by
  have hmem := mem_iff_of_filter_key_eq h
  induction l generalizing l' with
  | nil =>
      cases l' with
      | nil => rfl
      | cons b l' => simpa using (hmem b).mpr (List.mem_cons_self ..)
  | cons a l ih =>
      cases l' with
      | nil => simpa using (hmem a).mp (List.mem_cons_self ..)
      | cons b l' =>
          rw [List.pairwise_cons] at hl hl'
          -- each of the two first items stands in the other list, and so behind the other one
          have hkeys : key a = key b := by
            rcases List.mem_cons.mp ((hmem a).mp (List.mem_cons_self ..)) with rfl | ha
            · rfl
            · rcases List.mem_cons.mp ((hmem b).mpr (List.mem_cons_self ..)) with rfl | hb
              · rfl
              · exact antisymm (hl.1 b hb) (hl'.1 a ha)
          have hhead := h (key a)
          rw [List.filter_cons_of_pos (by simp), List.filter_cons_of_pos (by simp [hkeys])] at hhead
          obtain ⟨rfl, -⟩ := List.cons.inj hhead
          have htail : ∀ k, (l.filter fun c => key c = k) = l'.filter fun c => key c = k := by
            intro k
            have hk := h k
            simp only [List.filter_cons] at hk
            split at hk
            · exact (List.cons.inj hk).2
            · exact hk
          rw [ih hl.2 hl'.2 htail (mem_iff_of_filter_key_eq htail)]

/-- Items with different keys stand in one order only. -/
theorem filter_key_eq_of_perm [DecidableEq κ] (hkeys : (l.map key).Nodup) (h : l'.Perm l) (k : κ) :
    (l'.filter fun a => key a = k) = l.filter fun a => key a = k := by
  have hany : ∀ l : List α, l.Pairwise fun _ _ => True := fun l =>
    List.pairwise_of_forall fun _ _ => trivial
  refine List.Perm.eq_of_pairwise (fun a b ha hb _ _ => ?_) (hany _) (hany _) (h.filter _)
  simp only [List.mem_filter, decide_eq_true_eq] at ha hb
  exact List.inj_on_of_nodup_map hkeys (h.mem_iff.mp ha.1) hb.1 (ha.2.trans hb.2.symm)

/-- Sorting by a key does not depend on the order in which items with different keys came. -/
theorem mergeSort_eq_of_perm (antisymm : ∀ {a b}, le a b = true → le b a = true → a = b)
    (trans : ∀ {a b c}, le a b = true → le b c = true → le a c = true)
    (total : ∀ a b, (le a b || le b a) = true) (hkeys : (l.map key).Nodup) (h : l'.Perm l) :
    (l'.mergeSort fun a b => le (key a) (key b)) = l.mergeSort fun a b => le (key a) (key b) := by
  have hsorted : ∀ l : List α, (l.mergeSort fun a b => le (key a) (key b)).Pairwise
      fun a b => le (key a) (key b) = true :=
    List.pairwise_mergeSort (fun _ _ _ => trans) fun _ _ => total _ _
  have hperm := ((List.mergeSort_perm l' fun a b => le (key a) (key b)).trans h).trans
    (List.mergeSort_perm l fun a b => le (key a) (key b)).symm
  refine List.Perm.eq_of_pairwise (fun a b ha hb hab hba => ?_) (hsorted l') (hsorted l) hperm
  exact List.inj_on_of_nodup_map hkeys (h.mem_iff.mp (List.mem_mergeSort.mp ha))
    (List.mem_mergeSort.mp hb) (antisymm hab hba)

end Keys

end FormulaLint
