import FormulaLint.Proofs.CallsOfPart

/-!
# The order in which calls are found

The calls with certain names are exactly the parts of an expression that call a function by one of
these names, and none is found twice.  They are in the order of the calls around them, so that a call
is found before every call that has it in an argument, whatever else stands between the two.  Calls
with the same number of calls around them stay in the order of the walk.

Main results:

- Theorem {lit}`Expr.map_part_callsFrom`: the calls of an expression are the calls of its walk.
- Theorem {lit}`Expr.map_part_filter_depth`: the calls under a number of calls, in walking order.
- Theorem {lit}`Expr.calls_innermost_first`: exactly the calls with certain names, innermost first.
-/

namespace FormulaLint

/-! ## Calls as parts -/

namespace CallSite

/-- The part of the expression that a call is, with its path. -/
def part (site : CallSite) : Path × Expr :=
  (site.path, site.expr)

/-- Whether a call lies in an argument of another one, as the argument itself or as a part of it. -/
def LiesInArgument (inner outer : CallSite) : Prop :=
  ∃ i argument rel, outer.arguments[i]? = some argument ∧ argument.at? rel = some inner.expr ∧
    inner.path = outer.path ++ i :: rel

end CallSite

namespace Expr

/-- Whether an expression calls a function by one of the given names, with or without qualifiers;
without names every call counts. -/
def callsOneOf (names : Option (List String)) : Expr → Bool
  | .call function _ qualifiers _ =>
      names.all fun names =>
        names.contains function || names.contains (qualifiedName qualifiers function)
  | _ => false

variable {e : Expr} {names : Option (List String)} {inner outer : CallSite}

/-- What calls a function by one of the given names is a call. -/
theorem isCall_of_callsOneOf (h : e.callsOneOf names = true) : e.isCall = true := by
  cases e <;> simp_all [callsOneOf, isCall]

/-- The call that was found has one of the names when the part has. -/
theorem callsOneOf_expr (site : CallSite) (names : Option (List String)) :
    site.expr.callsOneOf names = site.hasName names := by
  cases names <;> rfl

/-- The calls of an expression are the calls of its walk, in walking order. -/
theorem map_part_callsFrom (here : Path) (depth : Nat) (e : Expr) :
    (e.callsFrom here depth).map CallSite.part = (e.walkFrom here).filter (·.2.isCall) := by
  induction e using children_induct generalizing here depth with
  | step e ih =>
      have hown : (e.ownSites here depth).map CallSite.part =
          if e.isCall = true then [(here, e)] else [] := by
        cases e <;> rfl
      have hchildren : (e.children.zipIdx.flatMap fun c =>
          (c.1.callsFrom (here ++ [c.2]) (depth + e.isCall.toNat)).map CallSite.part) =
            e.children.zipIdx.flatMap fun c =>
              (c.1.walkFrom (here ++ [c.2])).filter (·.2.isCall) :=
        List.flatMap_congr fun c hc => ih c.1 (List.fst_mem_of_mem_zipIdx hc) _ _
      rw [callsFrom_eq, walkFrom_eq, walkAll_eq_flatMap, List.map_append, List.map_flatMap, hown,
        hchildren, List.filter_cons, List.filter_flatMap]
      split <;> rfl

/-- Calls that are picked out are the parts that are picked out of the walk, in walking order. -/
theorem map_part_filter_callsFrom {p : CallSite → Bool} {q : Path × Expr → Bool}
    (h : ∀ site ∈ e.callsFrom [] 0, p site = q site.part)
    (hcall : ∀ part, q part = true → part.2.isCall = true) :
    ((e.callsFrom [] 0).filter p).map CallSite.part = e.walk.filter q := by
  calc ((e.callsFrom [] 0).filter p).map CallSite.part
      = ((e.callsFrom [] 0).map CallSite.part).filter q := by
        rw [List.filter_map]
        exact congrArg _ (List.filter_congr h)
    _ = (e.walk.filter (·.2.isCall)).filter q := by rw [map_part_callsFrom, walk]
    _ = e.walk.filter q := by
        rw [List.filter_filter]
        refine List.filter_congr fun part _ => ?_
        cases hq : q part with
        | false => rfl
        | true => simp [hcall part hq]

/-- The calls with one of the given names are the parts that call a function by one of them. -/
theorem map_part_calls_perm (e : Expr) (names : Option (List String)) :
    ((e.calls names).map CallSite.part).Perm (e.walk.filter fun part => part.2.callsOneOf names) := by
  have hparts : ((e.callsFrom [] 0).filter (·.hasName names)).map CallSite.part =
      e.walk.filter fun part => part.2.callsOneOf names :=
    map_part_filter_callsFrom (fun site _ => (callsOneOf_expr site names).symm)
      fun _ => isCall_of_callsOneOf
  exact hparts ▸ (List.mergeSort_perm _ _).map _

/-- The calls with one of the given names that have so many calls around them, in walking order. -/
theorem map_part_filter_depth (e : Expr) (names : Option (List String)) (depth : Nat) :
    ((e.calls names).filter fun site => site.depth = depth).map CallSite.part =
      e.walk.filter fun part => part.2.callsOneOf names && e.callDepth part.1 = depth := by
  have hstable : ((e.calls names).filter fun site => site.depth = depth) =
      ((e.callsFrom [] 0).filter (·.hasName names)).filter fun site => site.depth = depth := by
    rw [calls, callsAt, filter_sort_depth]
    -- calls under one number of calls are in order already, so that sorting leaves them as they are
    refine List.mergeSort_of_pairwise (List.pairwise_of_forall_mem_list fun a ha b hb => ?_)
    have hdepth : a.depth = depth := by simpa using (List.mem_filter.mp ha).2
    have hdepth' : b.depth = depth := by simpa using (List.mem_filter.mp hb).2
    simp [hdepth, hdepth']
  rw [hstable, List.filter_filter]
  refine map_part_filter_callsFrom (fun site hsite => ?_) fun part hpart => ?_
  · have hdepth : site.depth = e.callDepth site.path := by
      rcases mem_callsFrom.mp hsite with ⟨rel, hpath, -, hdepth⟩
      simpa [hpath] using hdepth
    rw [CallSite.part, callsOneOf_expr, hdepth, Bool.and_comm]
  · exact isCall_of_callsOneOf (Bool.and_eq_true_iff.mp hpart).1

/-! ## Innermost calls first -/

/-- A call in an argument of another one is found first. -/
theorem pair_sublist_calls (hinner : inner ∈ e.calls names) (houter : outer ∈ e.calls names)
    (h : inner.LiesInArgument outer) : [inner, outer].Sublist (e.calls names) := by
  rcases h with ⟨i, argument, rel, -, -, hpath⟩
  have hdeeper : outer.depth < inner.depth :=
    depth_lt_of_mem_calls houter hinner hpath (List.cons_ne_nil i rel)
  have hne : inner ≠ outer := by
    rintro rfl
    omega
  exact pair_sublist_of_pairwise (e.pairwise_depth_calls names) hinner houter hne (by omega)

/-- The calls with certain names, innermost first.  They are exactly the parts of the walk that call a
function by one of the names, and each is found once.  The calls with more calls around them come
first, so that every call comes before the calls that have it in an argument, and the calls under
one number of calls are in the order of the walk. -/
theorem calls_innermost_first (e : Expr) (names : Option (List String)) :
    let found := e.calls names
    (found.map CallSite.part).Perm (e.walk.filter fun part => part.2.callsOneOf names) ∧
      (found.map CallSite.path).Nodup ∧
      (found.Pairwise fun a b => b.depth ≤ a.depth) ∧
      (∀ inner ∈ found, ∀ outer ∈ found, inner.LiesInArgument outer →
        [inner, outer].Sublist found) ∧
      ∀ depth, (found.filter fun site => site.depth = depth).map CallSite.part =
        e.walk.filter fun part => part.2.callsOneOf names && e.callDepth part.1 = depth := by
  intro found
  refine ⟨e.map_part_calls_perm names, List.pairwise_map.mpr (e.pairwise_path_calls names),
    e.pairwise_depth_calls names, ?_, e.map_part_filter_depth names⟩
  intro inner hinner outer houter hlies
  exact pair_sublist_calls hinner houter hlies

/-- The call {lit}`Len(Name)`, with one call around it. -/
def lengthOfName : CallSite :=
  ⟨[1, 1, 0, 0, 0, 0], 1, "Len", [.name (.plain "Name") default [] default], [], default⟩

/-- A sum over the orders, as the second clause of a formula.  What is summed is a percentage, of a
member of a record that has the negated length of the name. -/
def sumOfLengths : CallSite :=
  ⟨[1], 0, "Sum",
    [.name (.plain "Orders") default [] default,
      .unary .percent
        (.member
          (.record [.mk "Size" (.unary .minus lengthOfName.expr default) default] default)
          [⟨.dot, "Size", default⟩] default) default], [], default⟩

/-- The length of the name, and behind it the sum over the orders. -/
def lengthThenSum : Expr :=
  .chain [lengthOfName.expr, sumOfLengths.expr] default

/-- The length inside the sum is found in front of the sum, through the operators, the record and the
member access between the two. -/
theorem lengthThenSum_innermost_first :
    lengthOfName ∈ lengthThenSum.calls (some ["Len", "Sum"]) ∧
      sumOfLengths ∈ lengthThenSum.calls (some ["Len", "Sum"]) ∧
      lengthOfName.LiesInArgument sumOfLengths ∧
      [lengthOfName, sumOfLengths].Sublist (lengthThenSum.calls (some ["Len", "Sum"])) := by
  have hinner : lengthOfName ∈ lengthThenSum.calls (some ["Len", "Sum"]) :=
    mem_calls_iff.mpr ⟨rfl, rfl, by decide⟩
  have houter : sumOfLengths ∈ lengthThenSum.calls (some ["Len", "Sum"]) :=
    mem_calls_iff.mpr ⟨rfl, rfl, by decide⟩
  have hlies : lengthOfName.LiesInArgument sumOfLengths := ⟨1, _, [0, 0, 0, 0], rfl, rfl, rfl⟩
  rcases calls_innermost_first lengthThenSum (some ["Len", "Sum"]) with ⟨-, -, -, hfirst, -⟩
  exact ⟨hinner, houter, hlies, hfirst _ hinner _ houter hlies⟩

end Expr

end FormulaLint
