import FormulaLint.Proofs.Grammar.Shape
import FormulaLint.Proofs.Paths
import FormulaLint.Proofs.RoundTrip.References
import Mathlib.Data.List.Flatten
import Mathlib.Data.List.Nodup
import Mathlib.Data.List.Perm.Basic

/-!
# Grouping parentheses in a text

What is written for an expression is marked: each pair of parentheses that groups a part is told
from the other characters, those of function calls included, and carries the part and what it is a
part of.  One pair can then be left out of the text while everything else stays as it is.

Main results:

- Theorem {lit}`Expr.text_marked`: the marked text of an expression is its text.
- Theorem {lit}`Expr.mem_pairs_iff`: the pairs around the children of an expression and in them.
- Theorem {lit}`Expr.exists_marked_eq`: where a pair stands.
- Theorem {lit}`Expr.keptText_marked`: the text with the two characters of a pair taken out.
-/

namespace FormulaLint

/-! ## Marked texts -/

/-- A pair of parentheses around a part of an expression. -/
structure Pair where
  path : Path
  outer : Expr
  inner : Expr

/-- A character of a text; the parentheses that group a part are told from all others. -/
inductive Mark where
  | char (c : Char)
  | opening (pair : Pair)
  | closing (pair : Pair)

namespace Mark

/-- The character that is written. -/
def shown : Mark → Char
  | char c => c
  | opening _ => '('
  | closing _ => ')'

/-- The pair that opens. -/
def opened? : Mark → Option Pair
  | opening pair => some pair
  | char _ | closing _ => none

/-- The pair that closes. -/
def closed? : Mark → Option Pair
  | closing pair => some pair
  | char _ | opening _ => none

/-- The character that is written when only some of the pairs are. -/
def kept? (keep : Path → Bool) : Mark → Option Char
  | char c => some c
  | opening pair => if keep pair.path then some '(' else none
  | closing pair => if keep pair.path then some ')' else none

end Mark

/-- Characters none of which groups a part. -/
def plainMarks (cs : List Char) : List Mark :=
  cs.map .char

/-- The blank that keeps a leading word for an operator apart from a delimiter. -/
def wordGap (cs : List Char) : List Char :=
  if startsWithOperatorWord cs then [' '] else []

/-- A part for a place that takes the given level and everything tighter. -/
def Pair.around (p : Profile) (pair : Pair) (level : Int) (marks : List Mark) : List Mark :=
  if (pair.inner.render p).level < level then
    .opening pair :: (plainMarks (wordGap (marks.map Mark.shown)) ++ marks ++ [.closing pair])
  else marks

/-- The tightest level that the part at a position needs to stand there without parentheses. -/
def Expr.floor : Expr → Nat → Int
  | .member _ _ _, _ => primaryLevel
  | .record _ _, _ | .table _ _, _ => chainLevel + 1
  | .unary op _ _, _ => if op.isPostfix then postfixLevel else prefixLevel
  | .binary op _ _ _, i =>
      let (level, grouping) := op.binding?.getD (0, .left)
      if i = 0 then leftFloor level grouping else rightFloor level grouping
  | .literal _ _, _ | .name _ _ _ _, _ | .call _ _ _ _, _ | .chain _ _, _ | .hole, _ => chainLevel

/-- What stands between two delimiters. -/
def spacedMarks (marks : List Mark) : List Mark :=
  plainMarks (wordGap (marks.map Mark.shown)) ++ marks

/-- A field of a record, by its name and what is written for its value. -/
def fieldMarks (field : Field) (value : List Mark) : List Mark :=
  plainMarks (nameText field.name ++ [':', ' ']) ++ value

/-- What is written for an expression, given what is written for its children. -/
def Expr.assembled (p : Profile) (parts : List (List Mark)) : Expr → List Mark
  | .literal value _ => plainMarks (value.render p.decimalChar)
  | .name identifier _ segments _ => plainMarks (identifier.render ++ chainText segments)
  | .member _ segments _ => parts.flatten ++ plainMarks (chainText segments)
  | .call function _ qualifiers _ =>
      plainMarks (calleeText qualifiers function ++ ['(']) ++
        spacedMarks ((plainMarks (listGap p)).intercalate parts) ++ plainMarks [')']
  | .record fields _ =>
      plainMarks ['\x7b'] ++
        (plainMarks (listGap p)).intercalate (List.zipWith fieldMarks fields parts) ++
        plainMarks ['\x7d']
  | .table _ _ =>
      plainMarks ['['] ++ spacedMarks ((plainMarks (listGap p)).intercalate parts) ++
        plainMarks [']']
  | .unary op _ _ =>
      if op.isPostfix then parts.flatten ++ plainMarks op.spelling.toList
      else if op = .notWord then plainMarks (op.spelling.toList ++ [' ']) ++ parts.flatten
      else plainMarks op.spelling.toList ++ spacedMarks parts.flatten
  | .binary op _ _ _ => (plainMarks (' ' :: (op.spelling.toList ++ [' ']))).intercalate parts
  | .chain _ _ => (plainMarks (chainGap p)).intercalate parts
  | .hole => []

mutual

/-- The marked text of an expression; {lit}`here` is the path of the expression itself. -/
def Expr.marked (p : Profile) (here : Path) : Expr → List Mark
  | .literal value span => (Expr.literal value span).assembled p []
  | .name identifier identifierSpan chain span =>
      (Expr.name identifier identifierSpan chain span).assembled p []
  | .member base chain span =>
      let outer := Expr.member base chain span
      outer.assembled p
        [Pair.around p ⟨here ++ [0], outer, base⟩ (outer.floor 0) (base.marked p (here ++ [0]))]
  | .call function arguments qualifiers span =>
      let outer := Expr.call function arguments qualifiers span
      outer.assembled p (markedAll p here outer 0 arguments)
  | .record fields span =>
      let outer := Expr.record fields span
      outer.assembled p (markedFields p here outer 0 fields)
  | .table elements span =>
      let outer := Expr.table elements span
      outer.assembled p (markedAll p here outer 0 elements)
  | .unary op operand span =>
      let outer := Expr.unary op operand span
      outer.assembled p [Pair.around p ⟨here ++ [0], outer, operand⟩ (outer.floor 0)
        (operand.marked p (here ++ [0]))]
  | .binary op left right span =>
      let outer := Expr.binary op left right span
      outer.assembled p
        [Pair.around p ⟨here ++ [0], outer, left⟩ (outer.floor 0) (left.marked p (here ++ [0])),
          Pair.around p ⟨here ++ [1], outer, right⟩ (outer.floor 1) (right.marked p (here ++ [1]))]
  | .chain clauses span =>
      let outer := Expr.chain clauses span
      outer.assembled p (markedAll p here outer 0 clauses)
  | .hole => []

/-- The marked texts of the children from position {lit}`index` on, with their parentheses. -/
def markedAll (p : Profile) (here : Path) (outer : Expr) (index : Nat) :
    List Expr → List (List Mark)
  | [] => []
  | e :: rest =>
      Pair.around p ⟨here ++ [index], outer, e⟩ (outer.floor index) (e.marked p (here ++ [index])) ::
        markedAll p here outer (index + 1) rest

/-- The marked texts of the field values from position {lit}`index` on, with their parentheses. -/
def markedFields (p : Profile) (here : Path) (outer : Expr) (index : Nat) :
    List Field → List (List Mark)
  | [] => []
  | .mk _ value _ :: rest =>
      Pair.around p ⟨here ++ [index], outer, value⟩ (outer.floor index)
        (value.marked p (here ++ [index])) :: markedFields p here outer (index + 1) rest

end

namespace Expr

/-- What is written for a child of an expression, with its parentheses. -/
def placed (p : Profile) (here : Path) (e : Expr) (child : Expr × Nat) : List Mark :=
  Pair.around p ⟨here ++ [child.2], e, child.1⟩ (e.floor child.2)
    (child.1.marked p (here ++ [child.2]))

/-- The pairs of parentheses that are written for an expression, in the order in which they open. -/
def pairs (p : Profile) (here : Path) (e : Expr) : List Pair :=
  (e.marked p here).filterMap Mark.opened?

end Expr

section

variable {p : Profile} {here : Path}

/-- The marked texts of a list of children. -/
theorem markedAll_eq_map (outer : Expr) (index : Nat) (es : List Expr) :
    markedAll p here outer index es = (es.zipIdx index).map (outer.placed p here) := by
  induction es generalizing index with
  | nil => rfl
  | cons e rest ih => rw [markedAll, ih, List.zipIdx_cons, List.map_cons, Expr.placed]

/-- The marked texts of the values of fields. -/
theorem markedFields_eq_map (outer : Expr) (index : Nat) (fields : List Field) :
    markedFields p here outer index fields =
      ((fields.map Field.value).zipIdx index).map (outer.placed p here) := by
  induction fields generalizing index with
  | nil => rfl
  | cons field rest ih =>
      rcases field with ⟨name, value, span⟩
      rw [markedFields, ih, List.map_cons, List.zipIdx_cons, List.map_cons, Expr.placed]
      rfl

/-- The marked text of an expression is put together from those of its children. -/
theorem Expr.marked_eq (e : Expr) :
    e.marked p here = e.assembled p (e.children.zipIdx.map (e.placed p here)) := by
  cases e with
  | record fields span => rw [marked, markedFields_eq_map, children]
  | call _ _ _ _ | table _ _ | chain _ _ => rw [marked, markedAll_eq_map, children]
  | literal _ _ | name _ _ _ _ | member _ _ _ | unary _ _ _ | binary _ _ _ _ | hole => rfl

/-! ## What is kept of a marked text -/

/-- The text in which only some of the pairs are written. -/
def keptText (keep : Path → Bool) (marks : List Mark) : List Char :=
  marks.filterMap (Mark.kept? keep)

section

variable {keep : Path → Bool}

@[simp] theorem keptText_append (marks marks' : List Mark) :
    keptText keep (marks ++ marks') = keptText keep marks ++ keptText keep marks' :=
  List.filterMap_append

/-- Characters that group nothing are kept. -/
@[simp] theorem keptText_plainMarks (cs : List Char) : keptText keep (plainMarks cs) = cs := by
  rw [keptText, plainMarks, List.filterMap_map]
  exact List.filterMap_some

/-- What is kept of joined texts. -/
theorem keptText_intercalate (gap : List Char) (parts : List (List Mark)) :
    keptText keep ((plainMarks gap).intercalate parts) =
      gap.intercalate (parts.map (keptText keep)) := by
  induction parts with
  | nil => rfl
  | cons part parts ih =>
      by_cases hparts : parts = []
      · subst hparts
        simp
      · rw [List.intercalate_cons_of_ne_nil hparts, List.map_cons,
          List.intercalate_cons_of_ne_nil (by simpa using hparts), keptText_append, keptText_append,
          keptText_plainMarks, ih]

/-- All of a text is kept when every pair is written. -/
theorem map_shown_eq (marks : List Mark) :
    marks.map Mark.shown = keptText (fun _ => true) marks := by
  rw [keptText, ← List.filterMap_eq_map]
  refine List.filterMap_congr fun mark _ => ?_
  cases mark <;> rfl

end

/-! ## The whole text -/

/-- A gap in front of a text keeps its leading word for an operator apart. -/
theorem wordGap_append (cs : List Char) : wordGap cs ++ cs = spaceOperatorWord cs := by
  unfold wordGap spaceOperatorWord
  split <;> rfl

/-- What stands between two delimiters. -/
theorem keptText_spacedMarks (marks : List Mark) :
    keptText (fun _ => true) (spacedMarks marks) =
      spaceOperatorWord (keptText (fun _ => true) marks) := by
  rw [spacedMarks, keptText_append, keptText_plainMarks, map_shown_eq, wordGap_append]

/-- Nothing is looser than a chain. -/
theorem chainLevel_le_level (e : Expr) : chainLevel ≤ (e.render p).level := by
  induction e using Expr.children_induct with
  | step e ih =>
      cases e with
      | name identifier identifierSpan segments span =>
          exact Int.le_trans (by decide) (level_renderChain _ _)
      | member base segments span => exact Int.le_trans (by decide) (level_renderChain _ _)
      | unary op operand span =>
          rw [Expr.render, renderUnary]
          split
          · exact (by decide : chainLevel ≤ postfixLevel)
          · exact (by decide : chainLevel ≤ prefixLevel)
      | binary op left right span =>
          simp only [Expr.render, renderBinary, chainLevel]
          omega
      | chain clauses span =>
          rw [Expr.render, renderAll_eq_map]
          split
          · rename_i only hclauses
            rcases List.map_eq_singleton_iff.mp hclauses with ⟨e, rfl, rfl⟩
            exact ih e (by simp [Expr.children])
          · exact Int.le_refl _
      | literal _ _ | call _ _ _ _ | record _ _ | table _ _ =>
          exact (by decide : chainLevel ≤ primaryLevel)
      | hole => exact (by decide : chainLevel ≤ primaryLevel)

/-- Everything may stand where a chain may. -/
theorem atLeast_chainLevel (e : Expr) : (e.render p).atLeast chainLevel = (e.render p).text :=
  if_neg (Int.not_lt.mpr (chainLevel_le_level e))

/-- Everything but a chain is tighter than a chain. -/
theorem unchained_eq (e : Expr) : (e.render p).unchained = (e.render p).atLeast (chainLevel + 1) := by
  have hle := chainLevel_le_level (p := p) e
  unfold Rendered.unchained Rendered.atLeast
  split
  · rw [if_pos (by omega)]
  · rw [if_neg (by omega)]

/-- The characters of a part with its parentheses. -/
theorem keptText_around (pair : Pair) (level : Int) {marks : List Mark}
    (h : keptText (fun _ => true) marks = (pair.inner.render p).text) :
    keptText (fun _ => true) (pair.around p level marks) =
      (pair.inner.render p).atLeast level := by
  unfold Pair.around Rendered.atLeast
  split
  · rw [← map_shown_eq] at h ⊢
    rw [List.map_cons, List.map_append, List.map_append, h, parenthesize_eq, ← wordGap_append,
      map_shown_eq, keptText_plainMarks]
    rfl
  · exact h

/-- What is said of the children with their positions and does not depend on these. -/
theorem map_zipIdx {α : Type} {f : Expr × Nat → α} {g : Expr → α} (es : List Expr)
    (h : ∀ c i, f (c, i) = g c) : es.zipIdx.map f = es.map g := by
  rw [← List.zipIdx_map_fst 0 es, List.map_map, List.zipIdx_map_fst]
  exact List.map_congr_left fun child _ => h child.1 child.2

/-- What is kept of the fields of a record. -/
theorem keptText_fields (keep : Path → Bool) (fields : List Field) (parts : List (List Mark)) :
    (List.zipWith fieldMarks fields parts).map (keptText keep) =
      List.zipWith (fun field text => nameText field.name ++ ':' :: ' ' :: text) fields
        (parts.map (keptText keep)) := by
  rw [List.map_zipWith, List.zipWith_map_right]
  simp [fieldMarks]

/-- The marked text of an expression is its text. -/
theorem Expr.text_marked (e : Expr) :
    keptText (fun _ => true) (e.marked p here) = (e.render p).text := by
  induction e using children_induct generalizing here with
  | step e ih =>
      have hparts : (e.children.zipIdx.map (e.placed p here)).map (keptText fun _ => true) =
          e.children.zipIdx.map fun child => (child.1.render p).atLeast (e.floor child.2) := by
        rw [List.map_map]
        exact List.map_congr_left fun child hchild =>
          keptText_around _ _ (ih child.1 (List.fst_mem_of_mem_zipIdx hchild))
      rw [marked_eq]
      generalize e.children.zipIdx.map (e.placed p here) = parts at hparts
      cases e with
      | literal value span => exact keptText_plainMarks _
      | name identifier identifierSpan segments span =>
          rw [assembled, keptText_plainMarks, render, text_renderChain]
      | member base segments span =>
          rcases List.map_eq_singleton_iff.mp hparts with ⟨part, rfl, hpart⟩
          rw [assembled, List.flatten_singleton, keptText_append, keptText_plainMarks, hpart, render,
            text_renderChain]
          rfl
      | call function arguments qualifiers span =>
          rw [children, map_zipIdx arguments fun c _ => atLeast_chainLevel c] at hparts
          simp only [assembled, keptText_append, keptText_plainMarks, keptText_spacedMarks,
            keptText_intercalate, hparts, render, renderAll_eq_map, List.map_map, List.append_assoc]
          rfl
      | record fields span =>
          rw [children, map_zipIdx _ fun c _ => (unchained_eq c).symm, List.map_map] at hparts
          simp only [assembled, keptText_append, keptText_plainMarks, keptText_intercalate,
            keptText_fields, hparts, List.zipWith_map_right, List.zipWith_self, render,
            renderFields_eq_map]
          rfl
      | table elements span =>
          rw [children, map_zipIdx elements fun c _ => (unchained_eq c).symm] at hparts
          simp only [assembled, keptText_append, keptText_plainMarks, keptText_spacedMarks,
            keptText_intercalate, hparts, render, renderAll_eq_map, List.map_map]
          rfl
      | unary op operand span =>
          rcases List.map_eq_singleton_iff.mp hparts with ⟨part, rfl, hpart⟩
          rw [assembled, List.flatten_singleton, render, renderUnary]
          cases hpostfix : op.isPostfix with
          | true =>
              simp only [↓reduceIte, keptText_append, keptText_plainMarks, hpart, floor, hpostfix]
          | false =>
              have hplace : keptText (fun _ => true) part = (operand.render p).atLeast prefixLevel := by
                simp only [hpart, floor, hpostfix, Bool.false_eq_true, ↓reduceIte]
              by_cases hword : op = .notWord
              · simp [hword, hplace]
              · simp only [Bool.false_eq_true, ↓reduceIte, hword, keptText_append,
                  keptText_plainMarks, keptText_spacedMarks, hplace, decide_false, Bool.false_or,
                  List.append_assoc]
                rw [← wordGap_append]
                rfl
      | binary op left right span =>
          rcases List.map_eq_cons_iff.mp hparts with ⟨l, _, rfl, hl, hrest⟩
          rcases List.map_eq_singleton_iff.mp hrest with ⟨r, rfl, hr⟩
          rw [assembled, keptText_intercalate, List.map_cons, List.map_singleton, hl, hr, render,
            renderBinary]
          rcases hbinding : op.binding?.getD (0, .left) with ⟨level, grouping⟩
          cases grouping <;> simp [floor, hbinding, leftFloor, rightFloor]
      | chain clauses span =>
          rw [children, map_zipIdx clauses fun c _ => atLeast_chainLevel c] at hparts
          rw [assembled, keptText_intercalate, hparts, render_chain_text]
      | hole => rfl

/-! ## Pairs of parentheses -/

/-- Characters that group nothing open nothing. -/
@[simp] theorem opened_plainMarks (cs : List Char) : (plainMarks cs).filterMap Mark.opened? = [] := by
  rw [plainMarks, List.filterMap_map]
  exact List.filterMap_none _

/-- Characters that group nothing close nothing. -/
@[simp] theorem closed_plainMarks (cs : List Char) : (plainMarks cs).filterMap Mark.closed? = [] := by
  rw [plainMarks, List.filterMap_map]
  exact List.filterMap_none _

/-- What is found in joined texts is found in one after the other. -/
theorem filterMap_intercalate {α : Type} {side : Mark → Option α} {gap : List Mark}
    (hgap : gap.filterMap side = []) (parts : List (List Mark)) :
    (gap.intercalate parts).filterMap side = parts.flatMap (List.filterMap side) := by
  induction parts with
  | nil => rfl
  | cons part parts ih =>
      by_cases hparts : parts = []
      · subst hparts
        simp
      · rw [List.intercalate_cons_of_ne_nil hparts, List.filterMap_append, List.filterMap_append,
          hgap, List.append_nil, ih, List.flatMap_cons]

/-- What is found in the fields of a record is found in their values. -/
theorem flatMap_fieldMarks {α : Type} {side : Mark → Option α}
    (hplain : ∀ cs, (plainMarks cs).filterMap side = []) {fields : List Field}
    {parts : List (List Mark)} (hlength : fields.length = parts.length) :
    (List.zipWith fieldMarks fields parts).flatMap (List.filterMap side) =
      parts.flatMap (List.filterMap side) := by
  induction fields generalizing parts with
  | nil =>
      obtain rfl := List.length_eq_zero_iff.mp hlength.symm
      rfl
  | cons field fields ih =>
      cases parts with
      | nil => simp at hlength
      | cons part parts =>
          rw [List.zipWith_cons_cons, List.flatMap_cons, List.flatMap_cons,
            ih (Nat.succ.inj hlength), fieldMarks, List.filterMap_append, hplain, List.nil_append]

/-- What is found in the text of an expression is found in those of its children. -/
theorem Expr.filterMap_marked {α : Type} {side : Mark → Option α}
    (hplain : ∀ cs, (plainMarks cs).filterMap side = []) (e : Expr) :
    (e.marked p here).filterMap side =
      e.children.zipIdx.flatMap fun child => (e.placed p here child).filterMap side := by
  rw [marked_eq, ← List.flatMap_map]
  have hlength : (e.children.zipIdx.map (e.placed p here)).length = e.children.length := by simp
  generalize e.children.zipIdx.map (e.placed p here) = parts at hlength
  cases e with
  | literal _ _ | name _ _ _ _ | hole =>
      obtain rfl := List.length_eq_zero_iff.mp hlength
      simp [assembled, hplain]
  | member base segments span => simp [assembled, hplain, List.flatMap_def, List.filterMap_flatten]
  | call _ _ _ _ | table _ _ =>
      simp [assembled, spacedMarks, hplain, filterMap_intercalate]
  | record fields span =>
      have hfields : fields.length = parts.length := by simpa [children] using hlength.symm
      simp [assembled, hplain, filterMap_intercalate, flatMap_fieldMarks hplain hfields]
  | unary op operand span =>
      simp only [assembled]
      repeat' split
      all_goals simp [spacedMarks, hplain, List.flatMap_def, List.filterMap_flatten]
  | binary _ _ _ _ | chain _ _ => simp [assembled, hplain, filterMap_intercalate]

namespace Expr

/-- The pairs around the children of an expression and in them. -/
theorem mem_pairs_iff {e : Expr} {pair : Pair} :
    pair ∈ e.pairs p here ↔ ∃ c i, e.children[i]? = some c ∧
      (((c.render p).level < e.floor i ∧ pair = ⟨here ++ [i], e, c⟩) ∨
        pair ∈ c.pairs p (here ++ [i])) := by
  have hplaced : ∀ child : Expr × Nat, pair ∈ (e.placed p here child).filterMap Mark.opened? ↔
      ((child.1.render p).level < e.floor child.2 ∧ pair = ⟨here ++ [child.2], e, child.1⟩) ∨
        pair ∈ child.1.pairs p (here ++ [child.2]) := by
    intro child
    rw [placed, Pair.around, pairs]
    split
    · rename_i hlevel
      simp [Mark.opened?, hlevel, List.filterMap_cons]
    · rename_i hlevel
      simp [hlevel]
  rw [pairs, filterMap_marked opened_plainMarks, List.mem_flatMap]
  constructor
  · rintro ⟨⟨c, i⟩, hchild, hpair⟩
    exact ⟨c, i, List.mem_zipIdx_iff_getElem?.mp hchild, (hplaced (c, i)).mp hpair⟩
  · rintro ⟨c, i, hchild, hpair⟩
    exact ⟨(c, i), List.mem_zipIdx_iff_getElem?.mpr hchild, (hplaced (c, i)).mpr hpair⟩

/-- Pairs open in the order in which the parts that they surround are walked. -/
theorem pairs_sublist (e : Expr) :
    List.Sublist ((e.pairs p here).map Pair.path) ((walkAll here 0 e.children).map Prod.fst) := by
  induction e using children_induct generalizing here with
  | step e ih =>
      rw [pairs, filterMap_marked opened_plainMarks, walkAll_eq_flatMap, List.map_flatMap,
        List.map_flatMap]
      refine List.Sublist.flatMap_right _ fun child hchild => ?_
      have hinner := @ih child.1 (List.fst_mem_of_mem_zipIdx hchild) (here ++ [child.2])
      rw [walkFrom_eq, List.map_cons, placed, Pair.around]
      split
      · simpa [Mark.opened?, List.filterMap_cons, pairs] using hinner
      · exact hinner.cons _

/-- No two pairs surround the same part. -/
theorem nodup_pairs (e : Expr) : ((e.pairs p here).map Pair.path).Nodup := by
  have hwalk := e.pairwise_walkFrom here
  rw [walkFrom_eq, List.pairwise_cons] at hwalk
  exact (List.pairwise_map.mpr hwalk.2).sublist e.pairs_sublist

/-- The pairs that close are those that open. -/
theorem closed_perm_pairs (e : Expr) :
    ((e.marked p here).filterMap Mark.closed?).Perm (e.pairs p here) := by
  induction e using children_induct generalizing here with
  | step e ih =>
      rw [pairs, filterMap_marked opened_plainMarks, filterMap_marked closed_plainMarks]
      refine List.Perm.flatMap_left _ fun child hchild => ?_
      have hinner := @ih child.1 (List.fst_mem_of_mem_zipIdx hchild) (here ++ [child.2])
      rw [placed, Pair.around]
      split
      · simpa [Mark.opened?, Mark.closed?, List.filterMap_cons, pairs] using
          (List.perm_append_singleton _ _).trans (hinner.cons _)
      · exact hinner

end Expr

/-! ## Where a pair stands -/

/-- Each of the joined texts stands in the whole. -/
theorem infix_intercalate {gap part : List Mark} {parts : List (List Mark)} (h : part ∈ parts) :
    part <:+: gap.intercalate parts := by
  induction parts with
  | nil => simp at h
  | cons first rest ih =>
      by_cases hrest : rest = []
      · subst hrest
        simp [List.mem_singleton.mp h]
      · rw [List.intercalate_cons_of_ne_nil hrest]
        rcases List.mem_cons.mp h with rfl | h
        · rw [List.append_assoc]
          exact (List.prefix_append _ _).isInfix
        · exact (ih h).trans (List.suffix_append _ _).isInfix

/-- Each of the fields of a record holds its value. -/
theorem exists_fieldMarks {fields : List Field} {parts : List (List Mark)} {part : List Mark}
    (hlength : fields.length = parts.length) (h : part ∈ parts) :
    ∃ field, fieldMarks field part ∈ List.zipWith fieldMarks fields parts := by
  rcases List.mem_iff_getElem.mp h with ⟨i, hi, rfl⟩
  refine ⟨fields[i], List.mem_iff_getElem.mpr ⟨i, by simpa [hlength] using hi, ?_⟩⟩
  rw [List.getElem_zipWith]

namespace Expr

/-- What is written for each child stands in what is written for the expression. -/
theorem infix_assembled {e : Expr} {parts : List (List Mark)} {part : List Mark}
    (hlength : parts.length = e.children.length) (h : part ∈ parts) :
    part <:+: e.assembled p parts := by
  have hflatten : part <:+: parts.flatten := List.infix_of_mem_flatten h
  have hjoined : ∀ gap : List Mark, part <:+: gap.intercalate parts := fun _ => infix_intercalate h
  have hspaced : ∀ {marks : List Mark}, part <:+: marks → part <:+: spacedMarks marks :=
    fun hmarks => hmarks.trans (List.suffix_append _ _).isInfix
  cases e with
  | literal _ _ | name _ _ _ _ | hole =>
      rw [List.length_eq_zero_iff.mp hlength] at h
      simp at h
  | member base segments span => exact hflatten.trans (List.prefix_append _ _).isInfix
  | call _ _ _ _ | table _ _ => exact (hspaced (hjoined _)).trans ⟨_, _, rfl⟩
  | record fields span =>
      rcases exists_fieldMarks (by simpa [children] using hlength.symm) h with ⟨field, hfield⟩
      have hvalue : part <:+: fieldMarks field part := (List.suffix_append _ _).isInfix
      exact hvalue.trans ((infix_intercalate hfield).trans ⟨_, _, rfl⟩)
  | unary op operand span =>
      rw [assembled]
      repeat' split
      · exact hflatten.trans (List.prefix_append _ _).isInfix
      · exact hflatten.trans (List.suffix_append _ _).isInfix
      · exact (hspaced hflatten).trans (List.suffix_append _ _).isInfix
  | binary _ _ _ _ | chain _ _ => exact hjoined _

/-- A pair of an expression stands in what is written for it, around its part. -/
theorem exists_marked_eq {e : Expr} {pair : Pair} (h : pair ∈ e.pairs p here) :
    ∃ before inside behind,
      e.marked p here = before ++ .opening pair :: (inside ++ .closing pair :: behind) := by
  suffices hstands : ∃ inside, .opening pair :: (inside ++ [.closing pair]) <:+: e.marked p here by
    rcases hstands with ⟨inside, before, behind, heq⟩
    exact ⟨before, inside, behind, by simp [← heq]⟩
  induction e using children_induct generalizing here with
  | step e ih =>
      rcases mem_pairs_iff.mp h with ⟨c, i, hc, hcases⟩
      have hchild : (c, i) ∈ e.children.zipIdx := List.mem_zipIdx_iff_getElem?.mpr hc
      have hplaced : e.placed p here (c, i) <:+: e.marked p here := by
        rw [marked_eq]
        exact infix_assembled (by simp) (List.mem_map_of_mem hchild)
      rcases hcases with ⟨hlevel, rfl⟩ | hinner
      · rw [placed, Pair.around, if_pos hlevel] at hplaced
        exact ⟨_, hplaced⟩
      · rcases ih c (List.mem_of_getElem? hc) hinner with ⟨inside, hinside⟩
        have hpart : c.marked p (here ++ [i]) <:+: e.placed p here (c, i) := by
          rw [placed, Pair.around]
          split
          · exact (List.infix_append _ _ _).trans (List.suffix_cons _ _).isInfix
          · exact List.infix_refl _
        exact ⟨inside, hinside.trans (hpart.trans hplaced)⟩

end Expr

/-- What is kept when the marks of one pair, which stand nowhere else, are left out. -/
theorem keptText_of_not_mem {path : Path} {marks : List Mark}
    (hopened : path ∉ (marks.filterMap Mark.opened?).map Pair.path)
    (hclosed : path ∉ (marks.filterMap Mark.closed?).map Pair.path) :
    keptText (· ≠ path) marks = marks.map Mark.shown := by
  rw [map_shown_eq, keptText, keptText]
  refine List.filterMap_congr fun mark hmark => ?_
  cases mark with
  | char c => rfl
  | opening pair =>
      have hne : pair.path ≠ path := by
        rintro rfl
        exact hopened (List.mem_map_of_mem (List.mem_filterMap.mpr ⟨_, hmark, rfl⟩))
      simp [Mark.kept?, hne]
  | closing pair =>
      have hne : pair.path ≠ path := by
        rintro rfl
        exact hclosed (List.mem_map_of_mem (List.mem_filterMap.mpr ⟨_, hmark, rfl⟩))
      simp [Mark.kept?, hne]

/-- The text with the two characters of a pair taken out is what is kept without that pair. -/
theorem Expr.keptText_marked {e : Expr} {pair : Pair} {before inside behind : List Mark}
    (h : e.marked p here = before ++ .opening pair :: (inside ++ .closing pair :: behind)) :
    keptText (· ≠ pair.path) (e.marked p here) = (before ++ inside ++ behind).map Mark.shown := by
  have hperm : (((e.marked p here).filterMap Mark.closed?).map Pair.path).Perm
      ((e.pairs p here).map Pair.path) := e.closed_perm_pairs.map Pair.path
  have hopened : ((e.pairs p here).map Pair.path).Nodup := e.nodup_pairs
  have hclosed := hperm.nodup_iff.mpr hopened
  -- neither the opening nor the closing mark of the pair stands anywhere else
  have hnotOpened : pair.path ∉
      ((before ++ inside ++ behind).filterMap Mark.opened?).map Pair.path := by
    rw [pairs, h] at hopened
    simp only [List.filterMap_append, List.filterMap_cons, Mark.opened?, List.map_append,
      List.map_cons, List.nodup_middle, List.nodup_cons] at hopened
    simpa [or_assoc] using hopened.1
  have hnotClosed : pair.path ∉
      ((before ++ inside ++ behind).filterMap Mark.closed?).map Pair.path := by
    rw [h] at hclosed
    simp only [List.filterMap_append, List.filterMap_cons, Mark.closed?, List.map_append,
      List.map_cons, ← List.append_assoc, List.nodup_middle, List.nodup_cons] at hclosed
    simpa [or_assoc] using hclosed.1
  rw [h, ← keptText_of_not_mem hnotOpened hnotClosed]
  simp [keptText, Mark.kept?]

end

end FormulaLint
