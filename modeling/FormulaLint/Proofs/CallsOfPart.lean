import FormulaLint.Proofs.Calls
import FormulaLint.Proofs.Sorting

/-!
# The calls of a part

A part of an expression lists its own calls, with the number of calls around each of them inside the
part.  In the list of the whole expression the same calls stand in the same order, with the calls
around the part counted as well; other calls stand between them.

Main results:

- Theorem {lit}`Expr.filter_callsFrom`: the calls of a part among those of the whole.
- Theorem {lit}`Expr.filter_querySites`: the same for the calls that query a source, in the order in
  which they are judged.
-/

namespace FormulaLint

/-! ## Calls by their paths -/

namespace CallSite

/-- A call with more calls around it. -/
def deepen (n : Nat) (site : CallSite) : CallSite :=
  { site with depth := site.depth + n }

/-- Whether a call is the part at a path or stands inside it. -/
def isWithin (site : CallSite) (path : Path) : Bool :=
  path.isPrefixOf site.path

/-- A call within a part is reached through the part. -/
theorem isWithin_iff {site : CallSite} {path : Path} :
    site.isWithin path = true ↔ ∃ rel, site.path = path ++ rel := by
  rw [isWithin, List.isPrefixOf_iff_prefix]
  exact ⟨fun ⟨rel, h⟩ => ⟨rel, h.symm⟩, fun ⟨rel, h⟩ => ⟨rel, h.symm⟩⟩

/-- When a call is not within a part but is on the way to what stands inside the part, the part itself
is reached through the call. -/
theorem path_of_not_isWithin {site : CallSite} {path rel rest : Path} {i : Nat}
    (houtside : site.isWithin path = false) (h : path ++ rel = site.path ++ i :: rest) :
    ∃ more, path = site.path ++ i :: more ∧ rest = more ++ rel := by
  have hapart : ∀ more, site.path ≠ path ++ more := fun more hmore => by
    simp [isWithin_iff.mpr ⟨more, hmore⟩] at houtside
  rcases List.append_eq_append_iff.mp h with ⟨more, hmore, -⟩ | ⟨more, hmore, hrest⟩
  · exact absurd hmore (hapart more)
  · cases more with
    | nil => exact absurd (by simpa using hmore.symm) (hapart [])
    | cons k more =>
        obtain ⟨rfl, rfl⟩ := List.cons.inj hrest
        exact ⟨more, hmore, rfl⟩

end CallSite

namespace Expr

variable {e c part : Expr}

/-- More calls around an expression are around all its calls. -/
theorem callsFrom_deepen (e : Expr) (here : Path) (depth n : Nat) :
    e.callsFrom here (depth + n) = (e.callsFrom here depth).map (·.deepen n) := by
  induction e using Expr.children_induct generalizing here depth with
  | step e ih =>
      have hown : e.ownSites here (depth + n) = (e.ownSites here depth).map (·.deepen n) := by
        cases e <;> rfl
      rw [callsFrom_eq, callsFrom_eq, List.map_append, List.map_flatMap, hown]
      refine congrArg _ (List.flatMap_congr fun child hchild => ?_)
      have hmem := List.mem_of_getElem? (List.mem_zipIdx_iff_getElem?.mp hchild)
      rw [← ih child.1 hmem, Nat.add_right_comm]

/-- A call within one child is not within another one. -/
theorem isWithin_child {here rest : Path} {depth i j : Nat} {site : CallSite}
    (h : site ∈ c.callsFrom (here ++ [j]) depth)
    (hwithin : site.isWithin (here ++ i :: rest) = true) : i = j := by
  rcases mem_callsFrom.mp h with ⟨rel, hrel, -, -⟩
  rcases CallSite.isWithin_iff.mp hwithin with ⟨rel', hrel'⟩
  rw [hrel, List.append_assoc, List.append_assoc] at hrel'
  exact ((List.cons.inj (List.append_cancel_left hrel')).1).symm

/-- The calls within one child are the calls within it alone. -/
theorem filter_flatMap_children {here rest : Path} {depth i : Nat} {es : List Expr}
    (h : es[i]? = some c) :
    (es.zipIdx.flatMap fun child => child.1.callsFrom (here ++ [child.2]) depth).filter
        (·.isWithin (here ++ i :: rest)) =
      (c.callsFrom (here ++ [i]) depth).filter (·.isWithin (here ++ i :: rest)) := by
  have hmem : (c, i) ∈ es.zipIdx := List.mem_zipIdx_iff_getElem?.mpr h
  rcases List.append_of_mem hmem with ⟨before, after, hsplit⟩
  have hdistinct := pairwise_zipIdx es
  rw [hsplit, List.pairwise_append, List.pairwise_cons] at hdistinct
  -- the other children stand at other positions
  have hnone : ∀ child : Expr × Nat, child.2 ≠ i →
      (child.1.callsFrom (here ++ [child.2]) depth).filter (·.isWithin (here ++ i :: rest)) = [] := by
    intro child hne
    refine List.filter_eq_nil_iff.mpr fun site hsite hwithin => ?_
    exact hne (isWithin_child hsite hwithin).symm
  have hbefore : (before.flatMap fun child => (child.1.callsFrom (here ++ [child.2]) depth).filter
      (·.isWithin (here ++ i :: rest))) = [] := by
    refine List.flatMap_eq_nil_iff.mpr fun child hchild => hnone child ?_
    exact Nat.ne_of_lt (hdistinct.2.2 child hchild (c, i) (List.mem_cons_self ..))
  have hafter : (after.flatMap fun child => (child.1.callsFrom (here ++ [child.2]) depth).filter
      (·.isWithin (here ++ i :: rest))) = [] := by
    refine List.flatMap_eq_nil_iff.mpr fun child hchild => hnone child ?_
    exact Nat.ne_of_gt (hdistinct.2.1.1 child hchild)
  rw [List.filter_flatMap, hsplit, List.flatMap_append, List.flatMap_cons, hbefore, hafter,
    List.nil_append, List.append_nil]

/-- Among the calls of an expression, those within a part are the calls of that part. -/
theorem filter_callsFrom {path : Path} (h : e.at? path = some part) (here : Path) (depth : Nat) :
    (e.callsFrom here depth).filter (·.isWithin (here ++ path)) =
      part.callsFrom (here ++ path) (depth + e.callDepth path) := by
  induction path generalizing e here depth with
  | nil =>
      obtain rfl : e = part := by simpa using h
      rw [List.append_nil, callDepth, Nat.add_zero]
      refine List.filter_eq_self.mpr fun site hsite => ?_
      rcases mem_callsFrom.mp hsite with ⟨rel, hrel, -, -⟩
      exact CallSite.isWithin_iff.mpr ⟨rel, hrel⟩
  | cons i rest ih =>
      rcases at?_cons.mp h with ⟨c, hc, hrest⟩
      have hown : (e.ownSites here depth).filter (·.isWithin (here ++ i :: rest)) = [] := by
        refine List.filter_eq_nil_iff.mpr fun site hsite hwithin => ?_
        rcases CallSite.isWithin_iff.mp hwithin with ⟨rel, hrel⟩
        rw [(mem_ownSites.mp hsite).1, List.append_assoc] at hrel
        simp at hrel
      have hchild := ih hrest (here ++ [i]) (depth + e.isCall.toNat)
      rw [List.append_assoc, List.singleton_append] at hchild
      rw [callsFrom_eq, List.filter_append, hown, List.nil_append, filter_flatMap_children hc, hchild,
        callDepth_cons hc, Nat.add_assoc]

/-! ## Calls that query a source -/

/-- The calls of the expression at a path that query a source, in the order in which they are
judged. -/
def querySitesAt (e : Expr) (here : Path) : List CallSite :=
  (e.callsAt here (some queryFunctions)).filter (·.qualifiers.isEmpty)

/-- Picking out calls does not depend on when the calls are put in order. -/
theorem filter_sort_depth (p : CallSite → Bool) (sites : List CallSite) :
    (sites.mergeSort fun a b => b.depth ≤ a.depth).filter p =
      (sites.filter p).mergeSort fun a b => b.depth ≤ a.depth :=
  filter_mergeSort (fun a b c hab hbc => by simp only [decide_eq_true_eq] at *; omega)
    (fun a b => by simp only [Bool.or_eq_true, decide_eq_true_eq]; omega) p sites

/-- The calls within a part that query a source are those of the part alone, with the calls around
the part. -/
theorem filter_querySites {path : Path} (h : e.at? path = some part) :
    e.querySites.filter (·.isWithin path) =
      (part.querySitesAt path).map (·.deepen (e.callDepth path)) := by
  have hcalls := filter_callsFrom h [] 0
  rw [List.nil_append, callsFrom_deepen] at hcalls
  have hdepth : ∀ a ∈ (part.callsFrom path 0).filter (·.hasName (some queryFunctions)),
      ∀ b ∈ (part.callsFrom path 0).filter (·.hasName (some queryFunctions)),
        decide (b.depth ≤ a.depth) = decide ((b.deepen (e.callDepth path)).depth ≤
          (a.deepen (e.callDepth path)).depth) := by
    intro a _ b _
    simp [CallSite.deepen]
  calc e.querySites.filter (·.isWithin path)
      = ((((e.callsFrom [] 0).filter (·.isWithin path)).filter
          (·.hasName (some queryFunctions))).mergeSort fun a b => b.depth ≤ a.depth).filter
            (·.qualifiers.isEmpty) := by
        rw [querySites, calls, callsAt, List.filter_comm, filter_sort_depth, List.filter_comm]
    _ = ((((part.callsFrom path 0).filter (·.hasName (some queryFunctions))).map
          (·.deepen (e.callDepth path))).mergeSort fun a b => b.depth ≤ a.depth).filter
            (·.qualifiers.isEmpty) := by
        rw [hcalls, List.filter_map]
        rfl
    _ = (part.querySitesAt path).map (·.deepen (e.callDepth path)) := by
        rw [← List.map_mergeSort hdepth, List.filter_map]
        rfl

end Expr

end FormulaLint
