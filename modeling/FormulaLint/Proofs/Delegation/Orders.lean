import FormulaLint.Proofs.Delegation.Warnings

/-!
# The order in which queries are judged

A query bears on its own call and on the parts of it alone, and what it makes of them depends on
nothing else.  So two queries of which none is inside the other may be judged in either order, and
all orders that put a query in front of the queries around it give the same verdicts.

Main results:

- Theorem {lit}`CallSite.judge_comm`: two queries apart from each other may be exchanged.
- Theorem {lit}`CallSite.foldl_judge_perm`: any order from the inside out gives the same verdicts.
- Theorem {lit}`CallSite.warnings_foldl_judge_perm`: any order at all gives the same warnings.
- Theorem {lit}`Expr.innerFirst_querySites`: the queries of a formula are judged from the inside out.
-/

namespace FormulaLint

namespace CallSite

variable {capabilities : CapabilityTable} {bindings : Bindings} {e : Expr} {site a b : CallSite}
  {judging judging' : Judging} {sites sites' : List CallSite}

/-! ## Two queries -/

/-- A query leaves everything outside its own call alone. -/
theorem get?_judge_of_outside {path : Path} (h : ∀ rel, path ≠ site.path ++ rel) :
    (judge capabilities bindings judging site).verdicts.get? path =
      judging.verdicts.get? path := by
  unfold judge
  split
  · rfl
  · rename_i q hquery
    refine Judgement.get?_foldl_induct (P := (· = judging.verdicts.get? path)) rfl ?_
    intro j hj hpath _ _ _
    rcases List.mem_append.mp hj with hj | hj
    · rcases rulings_writes hj with ⟨i, -, rel, -, -, -, -, hwrites, -⟩
      exact absurd (hpath.symm.trans hwrites) (h _)
    · obtain rfl := List.mem_singleton.mp hj
      exact absurd (hpath.symm.trans (List.append_nil _).symm) (h [])

/-- Whether of two calls none is inside the other. -/
def Apart (a b : CallSite) : Prop :=
  a.isWithin b.path = false ∧ b.isWithin a.path = false

/-- What is inside one of two calls apart is outside the other. -/
theorem Apart.outside (h : a.Apart b) (rel rel' : Path) : a.path ++ rel ≠ b.path ++ rel' := by
  intro hpath
  rcases List.append_eq_append_iff.mp hpath with ⟨more, hmore, -⟩ | ⟨more, hmore, -⟩
  · have hwithin := isWithin_iff.mpr ⟨more, hmore⟩
    simp [h.2] at hwithin
  · have hwithin := isWithin_iff.mpr ⟨more, hmore⟩
    simp [h.1] at hwithin

/-- Calls are apart from each other. -/
theorem Apart.symm (h : a.Apart b) : b.Apart a :=
  ⟨h.2, h.1⟩

/-- The verdicts inside a call that another query is apart from are those of its own query. -/
theorem get?_judge_judge_left (h : a.Apart b) (rel : Path) :
    (judge capabilities bindings (judge capabilities bindings judging a) b).verdicts.get?
        (a.path ++ rel) =
      (judge capabilities bindings judging a).verdicts.get? (a.path ++ rel) :=
  get?_judge_of_outside (h.outside rel)

/-- The verdicts inside a call are those of its own query, also behind a query apart from it. -/
theorem get?_judge_judge_right (h : a.Apart b) (rel : Path) :
    (judge capabilities bindings (judge capabilities bindings judging b) a).verdicts.get?
        (a.path ++ rel) =
      (judge capabilities bindings judging a).verdicts.get? (a.path ++ rel) := by
  have hinside : a.isWithin a.path = true := isWithin_iff.mpr ⟨[], by simp⟩
  exact judge_agreeWithin hinside (fun rel => get?_judge_of_outside (h.outside rel)) rel

/-- Two queries apart from each other may be exchanged. -/
theorem judge_comm (capabilities : CapabilityTable) (bindings : Bindings) (judging : Judging)
    (h : a.Apart b) :
    (judge capabilities bindings (judge capabilities bindings judging a) b).verdicts.AgreeWithin []
      (judge capabilities bindings (judge capabilities bindings judging b) a).verdicts := by
  intro path
  rw [List.nil_append]
  by_cases ha : ∃ rel, path = a.path ++ rel
  · rcases ha with ⟨rel, rfl⟩
    rw [get?_judge_judge_left h, get?_judge_judge_right h]
  by_cases hb : ∃ rel, path = b.path ++ rel
  · rcases hb with ⟨rel, rfl⟩
    rw [get?_judge_judge_left h.symm, get?_judge_judge_right h.symm]
  have hoff : ∀ {s : CallSite}, (¬ ∃ rel, path = s.path ++ rel) → ∀ rel, path ≠ s.path ++ rel :=
    fun hs rel hpath => hs ⟨rel, hpath⟩
  rw [get?_judge_of_outside (hoff hb), get?_judge_of_outside (hoff ha),
    get?_judge_of_outside (hoff ha), get?_judge_of_outside (hoff hb)]

/-! ## Lists of queries -/

/-- The same queries keep verdicts in agreement. -/
theorem foldl_judge_agree (capabilities : CapabilityTable) (bindings : Bindings)
    (sites : List CallSite) (h : judging.verdicts.AgreeWithin [] judging'.verdicts) :
    (sites.foldl (judge capabilities bindings) judging).verdicts.AgreeWithin []
      (sites.foldl (judge capabilities bindings) judging').verdicts := by
  induction sites generalizing judging judging' with
  | nil => exact h
  | cons s rest ih => exact ih (judge_agreeWithin (isWithin_iff.mpr ⟨s.path, rfl⟩) h)

/-- A query may be judged in front of queries apart from it. -/
theorem foldl_judge_comm (h : ∀ s ∈ sites, site.Apart s) :
    (sites.foldl (judge capabilities bindings)
        (judge capabilities bindings judging site)).verdicts.AgreeWithin []
      (judge capabilities bindings (sites.foldl (judge capabilities bindings) judging)
        site).verdicts := by
  induction sites generalizing judging with
  | nil => exact fun _ => rfl
  | cons s rest ih =>
      intro path
      have hswap := foldl_judge_agree capabilities bindings rest
        (judge_comm capabilities bindings judging (h s (List.mem_cons_self ..)))
      exact (hswap path).trans (ih (fun s' hs' => h s' (List.mem_cons_of_mem s hs')) path)

/-- Whether no call is inside one that stands in front of it. -/
def InnerFirst (sites : List CallSite) : Prop :=
  sites.Pairwise fun outer inner => inner.isWithin outer.path = false

/-- Any order from the inside out gives the same verdicts. -/
theorem foldl_judge_perm (capabilities : CapabilityTable) (bindings : Bindings)
    (hperm : sites.Perm sites') (h : InnerFirst sites) (h' : InnerFirst sites')
    (judging : Judging) :
    (sites.foldl (judge capabilities bindings) judging).verdicts.AgreeWithin []
      (sites'.foldl (judge capabilities bindings) judging).verdicts := by
  induction sites generalizing sites' judging with
  | nil =>
      obtain rfl := hperm.nil_eq
      exact fun _ => rfl
  | cons s rest ih =>
      -- in the other order the queries in front of the first one are apart from it
      rcases List.append_of_mem (hperm.subset (List.mem_cons_self ..)) with ⟨front, back, rfl⟩
      have hrest : rest.Perm (front ++ back) :=
        (hperm.trans List.perm_middle).cons_inv
      have hall := List.pairwise_append.mp h'
      have hapart : ∀ s' ∈ front, s.Apart s' := by
        intro s' hs'
        refine ⟨hall.2.2 s' hs' s (List.mem_cons_self ..), ?_⟩
        exact (List.pairwise_cons.mp h).1 s' (hrest.symm.subset (List.mem_append_left back hs'))
      have hinner : InnerFirst (front ++ back) :=
        h'.sublist ((List.Sublist.refl front).append (List.sublist_cons_self s back))
      intro path
      rw [List.foldl_cons, List.foldl_append, List.foldl_cons,
        ih hrest (List.pairwise_cons.mp h).2 hinner _ path, List.foldl_append]
      exact foldl_judge_agree capabilities bindings back (foldl_judge_comm hapart) path

/-- Any order at all gives the same warnings. -/
theorem warnings_foldl_judge_perm (capabilities : CapabilityTable) (bindings : Bindings)
    (hperm : sites.Perm sites') (judging : Judging) :
    ((sites.foldl (judge capabilities bindings) judging).warnings).Perm
      (sites'.foldl (judge capabilities bindings) judging).warnings := by
  rw [warnings_foldl_judge, warnings_foldl_judge]
  exact (hperm.flatMap_right _).append_left _

end CallSite

/-- The queries of a formula are judged from the inside out. -/
theorem Expr.innerFirst_querySites (e : Expr) : CallSite.InnerFirst e.querySites := by
  refine (e.pairwise_depth_querySites.and e.pairwise_path_querySites).imp_of_mem ?_
  rintro outer inner houter hinner ⟨hdepth, hpath⟩
  exact CallSite.not_isWithin_of_depth_le hinner houter hdepth hpath.symm

end FormulaLint
