import FormulaLint.Diagnostic

/-!
# Rows of source ranges

Things with source ranges form a row between two offsets when they lie one behind the other between
these.  A row can be cut at any of its members and put together again.

Main results:

- Theorem {lit}`inRow_append`: two rows, one behind the other.
- Theorem {lit}`inRow_split`: a row around one of its members.
- Theorem {lit}`inRow_of_pairwise`: what lies one behind the other is a row.
-/

namespace FormulaLint

section

variable {α : Type} (span : α → Span)

/-- Whether the source ranges of some things lie one behind the other between two offsets. -/
def InRow (start stop : Int) : List α → Prop
  | [] => start ≤ stop
  | x :: rest =>
      start ≤ (span x).start ∧ (span x).start ≤ (span x).stop ∧ InRow (span x).stop stop rest

variable {span} {start start' stop stop' : Int} {x : α} {xs ys : List α}

/-- A row starts before it ends. -/
theorem InRow.le (h : InRow span start stop xs) : start ≤ stop := by
  induction xs generalizing start with
  | nil => exact h
  | cons x xs ih =>
      have htail := ih h.2.2
      have hhead := h.1
      have hspan := h.2.1
      omega

/-- A row lies between offsets that are further apart. -/
theorem InRow.mono (h : InRow span start stop xs) (hstart : start' ≤ start) (hstop : stop ≤ stop') :
    InRow span start' stop' xs := by
  induction xs generalizing start start' with
  | nil => exact Int.le_trans hstart (Int.le_trans h hstop)
  | cons x xs ih => exact ⟨Int.le_trans hstart h.1, h.2.1, ih h.2.2 (Int.le_refl _)⟩

/-- Two rows, one behind the other. -/
theorem inRow_append :
    InRow span start stop (xs ++ ys) ↔ ∃ middle, InRow span start middle xs ∧
      InRow span middle stop ys := by
  constructor
  · intro h
    induction xs generalizing start with
    | nil => exact ⟨start, Int.le_refl start, h⟩
    | cons x xs ih =>
        rcases ih h.2.2 with ⟨middle, hxs, hys⟩
        exact ⟨middle, ⟨h.1, h.2.1, hxs⟩, hys⟩
  · intro h
    rcases h with ⟨middle, hxs, hys⟩
    induction xs generalizing start with
    | nil => exact hys.mono hxs (Int.le_refl stop)
    | cons x xs ih => exact ⟨hxs.1, hxs.2.1, ih hxs.2.2⟩

/-- A row around one of its members. -/
theorem inRow_split :
    InRow span start stop (xs ++ x :: ys) ↔ InRow span start (span x).start xs ∧
      (span x).start ≤ (span x).stop ∧ InRow span (span x).stop stop ys := by
  rw [inRow_append]
  constructor
  · intro h
    rcases h with ⟨middle, hxs, hmiddle, hx, hys⟩
    exact ⟨hxs.mono (Int.le_refl start) hmiddle, hx, hys⟩
  · intro h
    exact ⟨(span x).start, h.1, Int.le_refl _, h.2.1, h.2.2⟩

/-- The end of a row is a row. -/
theorem InRow.suffix (h : InRow span start stop xs) (hys : ys <:+ xs) :
    InRow span start stop ys := by
  rcases hys with ⟨front, rfl⟩
  rcases inRow_append.mp h with ⟨middle, hfront, hys⟩
  exact hys.mono hfront.le (Int.le_refl stop)

/-- A row ends where its last member ends. -/
theorem InRow.to_last (h : InRow span start stop xs) (hx : xs.getLast? = some x) :
    InRow span start (span x).stop xs := by
  rcases List.getLast?_eq_some_iff.mp hx with ⟨front, rfl⟩
  have hsplit := inRow_split.mp h
  exact inRow_split.mpr ⟨hsplit.1, hsplit.2.1, Int.le_refl _⟩

/-- The members of a row lie between its ends. -/
theorem InRow.within (h : InRow span start stop xs) (hx : x ∈ xs) :
    start ≤ (span x).start ∧ (span x).start ≤ (span x).stop ∧ (span x).stop ≤ stop := by
  rcases List.append_of_mem hx with ⟨front, behind, rfl⟩
  have hsplit := inRow_split.mp h
  exact ⟨hsplit.1.le, hsplit.2.1, hsplit.2.2.le⟩

/-- The members of a row lie one behind the other. -/
theorem InRow.pairwise (h : InRow span start stop xs) :
    xs.Pairwise fun a b => (span a).stop ≤ (span b).start := by
  induction xs generalizing start with
  | nil => exact .nil
  | cons x xs ih =>
      refine List.pairwise_cons.mpr ⟨?_, ih h.2.2⟩
      intro y hy
      exact (h.2.2.within hy).1

/-- A row of what is made of some things is a row of these. -/
theorem inRow_map {β : Type} {f : β → α} {zs : List β} :
    InRow span start stop (zs.map f) ↔ InRow (fun z => span (f z)) start stop zs := by
  induction zs generalizing start with
  | nil => exact Iff.rfl
  | cons z zs ih => simp only [List.map_cons, InRow, ih]

/-- What lies one behind the other between two offsets is a row. -/
theorem inRow_of_pairwise (hle : start ≤ stop)
    (hpairwise : xs.Pairwise fun a b => (span a).stop ≤ (span b).start)
    (hwithin : ∀ x ∈ xs, start ≤ (span x).start ∧ (span x).start ≤ (span x).stop ∧
      (span x).stop ≤ stop) : InRow span start stop xs := by
  induction xs generalizing start with
  | nil => exact hle
  | cons x xs ih =>
      rcases List.pairwise_cons.mp hpairwise with ⟨hfirst, hrest⟩
      have hx := hwithin x (List.mem_cons_self ..)
      refine ⟨hx.1, hx.2.1, ih hx.2.2 hrest ?_⟩
      intro y hy
      have hy' := hwithin y (List.mem_cons_of_mem x hy)
      exact ⟨hfirst y hy, hy'.2.1, hy'.2.2⟩

end

end FormulaLint
