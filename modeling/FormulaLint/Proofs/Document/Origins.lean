import FormulaLint.Proofs.Document.Routes
import FormulaLint.Proofs.Yaml.Nodes

/-!
# Formulas map back to their documents

A formula that is found in a document knows its place: the place of the character behind the equals
sign, and the indentation of the lines of a block.  The line index of its text turns offsets into
places of the document.  They are the places of the characters when the scalar starts on the line of
its node and is written as its value, block indentation apart; a folded block keeps the lines it is
written in and needs no more than that.  A scalar on a line below its anchor or tag is not found.

Main results:

- Theorem {lit}`FormulaRequest.mapsBack_of_laid`: a formula whose scalar stands in lines maps back.
- Theorems {lit}`Yaml.Spelling.In.placed_plain`, {lit}`Yaml.Spelling.In.placed_quoted` and
  {lit}`Yaml.Spelling.In.placed_block`: where a scalar is placed and where it stands.
- Theorem {lit}`scanDocument_maps_back`: every formula of a document is held by a scalar of its text,
  and maps back if that scalar is written as its value.
- Theorem {lit}`anchorAbove_misplaced`: a formula below its anchor is looked for in the wrong line.
-/

namespace FormulaLint

/-! ## What places promise -/

namespace FormulaRequest

/-- The character in front of the text of a formula is the equals sign. -/
def MarkerStands (lines : List (List Char)) (f : FormulaRequest) : Prop :=
  Place.char? lines ⟨f.placement.line, f.placement.column - 1⟩ = some '='

/-- Every character of a formula, line feeds apart, is found where the line index of its text says,
and the equals sign in front of it. -/
def MapsBack (lines : List (List Char)) (f : FormulaRequest) : Prop :=
  f.MarkerStands lines ∧ ∀ (i : Nat) (c : Char), f.text.toList[i]? = some c → c ≠ '\n' →
    ((LineIndex.ofText f.text.toList f.placement).place i).char? lines = some c

variable {lines : List (List Char)} {f : FormulaRequest} {line column indent : Nat}

/-- The marker of a formula, given the line and the column of the equals sign, counted from zero. -/
theorem markerStands_of_char (hplacement : f.placement = ⟨line + 1, column + 2, indent⟩)
    (h : lines[line]?.bind (fun chars => chars[column]?) = some '=') : f.MarkerStands lines := by
  have hcolumn : (column : Int) + 2 - 1 = column + 1 := by ring
  rw [MarkerStands, hplacement]
  dsimp only
  rw [hcolumn, Place.char?_succ, h]

/-- A formula whose scalar stands in lines maps back to them. -/
theorem mapsBack_of_laid (hplacement : f.placement = ⟨line + 1, column + 2, indent⟩)
    (h : Laid lines indent line column ('=' :: f.text.toList)) : f.MapsBack lines := by
  have hmarker := h
  rw [Laid, if_neg (by decide)] at hmarker
  refine ⟨markerStands_of_char hplacement hmarker.1, fun i c hi hc => ?_⟩
  have hplace := hmarker.2.char_place hi hc
  rwa [Nat.cast_succ, add_assoc, one_add_one_eq_two, ← hplacement] at hplace

end FormulaRequest

/-! ## Scalars that stand in their lines -/

namespace Yaml.Spelling

/-- A scalar starts on the line of its node; and when it is no block, the line has no byte order mark
in front of it. -/
def OnLine (lines : List (List Char)) (s : Spelling) : Prop :=
  s.start.line = s.first.line ∧ (s.style.isBlock = false →
    ∀ chars ∈ lines[s.start.line]?, '\ufeff' ∉ chars.take (s.start.column + 1))

/-- A scalar is written as its value, but for the indentation of a block: a plain one on a single
line, a quoted one on a single line without escapes, a literal one with line feeds for breaks. -/
def Verbatim (s : Spelling) : Prop :=
  match s.style with
  | .plain => (s.start.firstLine.plainScalar s.inFlow (s.indent + 1)).1 = s.value
  | .quoted quotes => ∃ body, s.start.rest = quotes.char :: (body ++ quotes.char :: s.stop.rest) ∧
      ∀ ch ∈ body, Cursor.Literally quotes ch
  | .literal => ∀ ch ∈ s.value.toList, isBreak ch = true → ch = '\n'
  | .folded => True

/-- The first character of a scalar is written as itself: in quotes it is no escape. -/
def StartsVerbatim (s : Spelling) : Prop :=
  ∀ quotes, s.style = .quoted quotes → s.start.peekAt 1 = '='

variable {text : List Char} {s : Spelling}

/-- A plain scalar stands where it is placed. -/
theorem In.placed_plain (h : s.In text) (htext : text.all isAllowed = true)
    (hvalue : s.value.toList.head? = some '=') (hline : s.OnLine (Text.lines text))
    (hstyle : s.style = .plain) :
    ∃ line column : Nat,
      Document.placeOf (Text.lines text) s.first.mark s.style = ⟨line + 1, column + 2, (0 : Nat)⟩ ∧
      (Text.lines text)[line]?.bind (fun chars => chars[column]?) = some '=' ∧
      (s.Verbatim → Laid (Text.lines text) 0 line column s.value.toList) := by
  obtain ⟨before, hstands, hcolumn⟩ := h.valueColumn_eq htext hvalue hline.1
    (hline.2 (by rw [hstyle]; rfl))
  have hread := h.reads
  rw [hstyle] at hread
  obtain ⟨newLine, hread⟩ := hread
  have hmarker : (s.start.plainScalar s.inFlow (s.indent + 1)).1.toList.head? = some '=' := by
    rw [hread]
    exact hvalue
  obtain ⟨rest, hrest⟩ := List.head?_eq_some_iff.mp (Cursor.head?_plainScalar hmarker)
  have hchars := hstands.line_eq (.inr (by simp [hrest]))
  rw [hline.1] at hchars
  refine ⟨s.first.line, before.length, ?_, ?_, fun hverbatim => ?_⟩
  · simp [Document.placeOf, hstyle, ScalarStyle.isBlock, ScalarStyle.isQuoted, Cursor.mark, hcolumn]
  · rw [hchars, hrest, List.takeWhile_cons_of_pos (by decide)]
    simp
  · rw [Verbatim, hstyle] at hverbatim
    have hstarts := Cursor.plainScalar_prefix s.inFlow (s.indent + 1) s.start
    rw [hverbatim] at hstarts
    refine laid_of_prefix hchars (by rwa [List.drop_left]) fun ch hch => ?_
    rintro rfl
    have := List.all_eq_true.mp List.all_takeWhile _ (hstarts.subset hch)
    exact absurd this (by decide)

/-- A quoted scalar stands where it is placed. -/
theorem In.placed_quoted {quotes : QuoteStyle} (h : s.In text) (htext : text.all isAllowed = true)
    (hvalue : s.value.toList.head? = some '=') (hline : s.OnLine (Text.lines text))
    (hstyle : s.style = .quoted quotes) :
    ∃ line column : Nat,
      Document.placeOf (Text.lines text) s.first.mark s.style = ⟨line + 1, column + 2, (0 : Nat)⟩ ∧
      (s.StartsVerbatim → (Text.lines text)[line]?.bind (fun chars => chars[column]?) = some '=') ∧
      (s.Verbatim → Laid (Text.lines text) 0 line column s.value.toList) := by
  obtain ⟨before, hstands, hcolumn⟩ := h.valueColumn_eq htext hvalue hline.1
    (hline.2 (by rw [hstyle]; rfl))
  have hread := h.reads
  rw [hstyle] at hread
  have hquote : quotes.char ≠ endOfText ∧ isBreak quotes.char = false := by
    cases quotes <;> decide
  obtain ⟨rest, hrest⟩ := Cursor.rest_of_peek hread.1 hquote.1
  have hchars := hstands.line_eq (.inr (by simp [hrest]))
  rw [hline.1, hrest, List.takeWhile_cons_of_pos (by simp [Cursor.noBreak, hquote.2])] at hchars
  refine ⟨s.first.line, before.length + 1, ?_, fun hstarts => ?_, fun hverbatim => ?_⟩
  · simp [Document.placeOf, hstyle, ScalarStyle.isBlock, ScalarStyle.isQuoted, Cursor.mark, hcolumn]
  · have hpeek := hstarts quotes hstyle
    rw [Cursor.peekAt, hrest, List.getElem?_cons_succ] at hpeek
    cases rest with
    | nil => exact absurd hpeek (by decide)
    | cons ch rest =>
        obtain rfl : ch = '=' := by simpa using hpeek
        rw [hchars, List.takeWhile_cons_of_pos (by decide)]
        simp
  · rw [Verbatim, hstyle] at hverbatim
    obtain ⟨body, hbody, hliterally⟩ := hverbatim
    rw [Cursor.quotedScalar_eq hread.2 hbody hliterally]
    rw [hrest, List.cons_inj_right] at hbody
    refine laid_of_prefix hchars ?_ fun ch hch => ?_
    · rw [← List.drop_drop, List.drop_left, hbody, List.drop_one, List.tail_cons,
        List.takeWhile_append_of_pos fun ch hch => by simp [Cursor.noBreak, (hliterally ch hch).1]]
      exact List.prefix_append _ _
    · rintro rfl
      exact absurd (hliterally _ hch).1 (by decide)

/-- The first line of a block scalar stands where it is placed, and all its lines do. -/
theorem In.placed_block (h : s.In text) (htext : text.all isAllowed = true)
    (hvalue : s.value.toList.head? = some '=') (hline : s.start.line = s.first.line)
    (hstyle : s.style.isBlock = true) :
    ∃ line indent : Nat, 0 < indent ∧
      Document.placeOf (Text.lines text) s.first.mark s.style = ⟨line + 1, indent + 2, indent⟩ ∧
      (∃ rest, (Text.lines text)[line]? = some (List.replicate indent ' ' ++ '=' :: rest)) ∧
      (s.style = .literal → s.Verbatim → Laid (Text.lines text) indent line indent s.value.toList) := by
  obtain ⟨before, hstands, -⟩ := h.standsIn htext hvalue
  have hread := h.reads
  obtain ⟨folded, hbreak, hscalar, hfolded⟩ : ∃ folded, isBreak s.start.peek = false ∧
      s.start.blockScalar folded s.indent = .ok (s.value, s.stop) ∧
      (s.style = .literal → folded = false) := by
    cases hs : s.style with
    | plain | quoted quotes => simp [hs, ScalarStyle.isBlock] at hstyle
    | literal =>
        rw [hs] at hread
        exact ⟨false, by rw [hread.1]; rfl, hread.2, fun _ => rfl⟩
    | folded =>
        rw [hs] at hread
        exact ⟨true, by rw [hread.1]; rfl, hread.2, nofun⟩
  obtain ⟨n, rest, hpos, hfirst, hlaid⟩ := Cursor.laid_blockScalar hscalar hbreak hstands hvalue
  rw [hline] at hfirst hlaid
  refine ⟨s.first.line + 1, n, hpos, ?_, ⟨rest, hfirst⟩, fun hs hverbatim => ?_⟩
  · have hblank : Text.allBlank (List.replicate n ' ' ++ '=' :: rest) = false := by
      simp [Text.allBlank, show Text.isBlank '=' = false by decide]
    have hindent : Text.indentation (List.replicate n ' ' ++ '=' :: rest) = n := by
      rw [Text.indentation, List.takeWhile_append_of_pos (by simp),
        List.takeWhile_cons_of_neg (by decide)]
      simp
    rw [Document.placeOf, if_pos hstyle, Cursor.mark,
      Document.firstLine?_of_getElem? hfirst hblank]
    simp [hindent]
  · rw [Verbatim, hs] at hverbatim
    exact hlaid (hfolded hs) hverbatim

end Yaml.Spelling

/-! ## Formulas of a document -/

namespace Document.Source

variable {source : Source} {surroundings : Surroundings} {key value : String} {mark : Yaml.Mark}
  {style : Yaml.ScalarStyle} {line column indent : Nat}

/-- A formula whose body stands in the lines of its document maps back to them. -/
theorem mapsBack_formula
    (hplacement : placeOf source.lines mark style = ⟨line + 1, column + 2, indent⟩)
    {body : List Char} (hbody : (if style = .folded ∧ indent ≠ 0 then
      blockText source.lines line indent else value.toList) = body)
    (hmarker : body.head? = some '=') (h : Laid source.lines indent line column body) :
    (source.formula surroundings key value mark style).MapsBack source.lines := by
  obtain ⟨rest, rfl⟩ := List.head?_eq_some_iff.mp hmarker
  refine FormulaRequest.mapsBack_of_laid hplacement ?_
  have htext : (source.formula surroundings key value mark style).text.toList = rest := by
    have hindent : ((indent : Int) ≠ 0) = (indent ≠ 0) := by simp
    simp only [formula, hplacement, hindent, add_sub_cancel_right, Int.toNat_natCast, hbody,
      String.toList_ofList, List.drop_one, List.tail_cons]
  rwa [htext]

/-- A formula whose scalar stands on the line of its node has the equals sign in front of it when the
scalar starts with it literally, and maps back when the scalar is written as its value. -/
theorem formula_spelled {text : List Char} {s : Yaml.Spelling} (h : s.In text)
    (htext : text.all Yaml.isAllowed = true) (hlines : source.lines = Text.lines text)
    (hvalue : s.value.toList.head? = some '=') (hline : s.OnLine source.lines) :
    (s.StartsVerbatim →
      (source.formula surroundings key s.value s.first.mark s.style).MarkerStands source.lines) ∧
    (s.Verbatim →
      (source.formula surroundings key s.value s.first.mark s.style).MapsBack source.lines) := by
  rw [hlines] at hline
  cases hstyle : s.style with
  | plain =>
      obtain ⟨line, column, hplace, hmarker, hlaid⟩ := h.placed_plain htext hvalue hline hstyle
      rw [← hlines, hstyle] at hplace
      rw [← hlines] at hmarker hlaid
      exact ⟨fun _ => FormulaRequest.markerStands_of_char hplace hmarker, fun hverbatim =>
        mapsBack_formula hplace (by simp) hvalue (hlaid hverbatim)⟩
  | quoted quotes =>
      obtain ⟨line, column, hplace, hmarker, hlaid⟩ := h.placed_quoted htext hvalue hline hstyle
      rw [← hlines, hstyle] at hplace
      rw [← hlines] at hmarker hlaid
      exact ⟨fun hstarts => FormulaRequest.markerStands_of_char hplace (hmarker hstarts),
        fun hverbatim => mapsBack_formula hplace (by simp) hvalue (hlaid hverbatim)⟩
  | literal =>
      obtain ⟨line, indent, hpos, hplace, ⟨rest, hfirst⟩, hlaid⟩ :=
        h.placed_block htext hvalue hline.1 (by rw [hstyle]; rfl)
      rw [← hlines, hstyle] at hplace
      rw [← hlines] at hfirst hlaid
      exact ⟨fun _ => FormulaRequest.markerStands_of_char hplace (by simp [hfirst]), fun hverbatim =>
        mapsBack_formula hplace (by simp) hvalue (hlaid hstyle hverbatim)⟩
  | folded =>
      obtain ⟨line, indent, hpos, hplace, ⟨rest, hfirst⟩, -⟩ :=
        h.placed_block htext hvalue hline.1 (by rw [hstyle]; rfl)
      rw [← hlines, hstyle] at hplace
      rw [← hlines] at hfirst
      have hnewline : ∀ chars ∈ source.lines, ∀ c ∈ chars, c ≠ '\n' := by
        rintro chars hchars c hc rfl
        rw [hlines] at hchars
        exact absurd (Text.endsLine_of_mem_linesFrom (by simp) chars hchars _ hc) (by decide)
      exact ⟨fun _ => FormulaRequest.markerStands_of_char hplace (by simp [hfirst]), fun _ =>
        mapsBack_formula hplace (if_pos ⟨rfl, Nat.ne_of_gt hpos⟩) (head?_blockText hfirst)
          (laid_blockText line indent hnewline)⟩

end Document.Source

/-- A formula of a document is held by a scalar as it is written. -/
def FormulaRequest.HeldBy (text name : String) (f : FormulaRequest) (s : Yaml.Spelling) : Prop :=
  s.In text.toList ∧ s.value.toList.head? = some '=' ∧ ∃ g id tag surroundings property,
    Yaml.compose text.toList = .ok (some g) ∧
    g.node? id = some ⟨tag, s.first.mark, .scalar s.value s.style⟩ ∧
    f = (Document.Source.mk g (Text.lines text.toList) name).formula surroundings property s.value
      s.first.mark s.style

/-- Every formula of a document is held by a scalar of its text.  When that scalar starts on the line
of its node, the equals sign stands in front of the formula, unless it is an escape in quotes; and when
the scalar is written as its value, every character of the formula is found at its place. -/
theorem scanDocument_maps_back {text name : String} {d : ScannedDocument}
    (h : scanDocument text name = .ok d) {f : FormulaRequest} (hf : f ∈ d.formulas) :
    (∃ s, f.HeldBy text name s) ∧
    ∀ s, f.HeldBy text name s → s.OnLine (Text.lines text.toList) →
      (s.StartsVerbatim → f.MarkerStands (Text.lines text.toList)) ∧
      (s.Verbatim → f.MapsBack (Text.lines text.toList)) := by
  refine ⟨?_, ?_⟩
  · obtain ⟨graph, hcompose, h⟩ := Yaml.bind_eq_ok_iff.mp h
    cases graph with
    | none =>
        obtain rfl := Except.ok.inj h
        cases hf
    | some g =>
        obtain rfl := Except.ok.inj h
        obtain ⟨id, hfound⟩ := Document.Source.exists_found hf
        cases hfound with
        | formula hroute hplain hkey hnode hmarker =>
            obtain ⟨s, hin, rfl, rfl, rfl⟩ := Yaml.exists_spelling hcompose hnode (by
              rintro rfl
              cases hmarker)
            exact ⟨s, hin, hmarker, g, id, _, _, _, hcompose, hnode, rfl⟩
  · rintro s ⟨hin, hmarker, g, id, tag, surroundings, property, hcompose, -, rfl⟩ hline
    exact Document.Source.formula_spelled hin (Yaml.isAllowed_of_compose hcompose) rfl hmarker hline

/-! ## A formula behind an anchor -/

/-- A formula with an anchor in front of it. -/
def anchoredText : String :=
  "App:\n  OnStart: &start =Set(x, 1)\n"

/-- The formula as it is written. -/
def anchoredSpelling : Yaml.Spelling where
  first := (Yaml.Cursor.ofText anchoredText.toList).advance 16
  start := (Yaml.Cursor.ofText anchoredText.toList).advance 23
  stop := (Yaml.Cursor.ofText anchoredText.toList).advance 34
  inFlow := false
  indent := 2
  style := .plain
  value := "=Set(x, 1)"

/-- The formula that is found. -/
def anchoredFormula : FormulaRequest :=
  ⟨⟨"app.yaml", "", "OnStart"⟩, "Set(x, 1)", ⟨2, 20, 0⟩, ⟨[], none, none⟩⟩

/-- The anchor is skipped, and the formula maps back to its characters. -/
theorem anchoredFormula_maps_back : scanDocument anchoredText "app.yaml" =
      .ok ⟨"app.yaml", [], [anchoredFormula]⟩ ∧
    anchoredFormula.MapsBack (Text.lines anchoredText.toList) := by
  have hscan : scanDocument anchoredText "app.yaml" = .ok ⟨"app.yaml", [], [anchoredFormula]⟩ := by
    decide +kernel
  have hproperty : anchoredSpelling.first.IsProperty
      ((Yaml.Cursor.ofText anchoredText.toList).advance 22) :=
    ⟨by decide +kernel, ⟨5, by decide +kernel, by decide +kernel,
      List.forall_iff_forall_mem.mp (by decide +kernel)⟩, by decide +kernel⟩
  have hgap : ((Yaml.Cursor.ofText anchoredText.toList).advance 22).Gap anchoredSpelling.start :=
    ⟨⟨1, by decide +kernel, by decide +kernel, fun _ _ => trivial⟩, fun _ _ =>
      ⟨1, by decide +kernel, by decide +kernel, List.forall_iff_forall_mem.mp (by decide +kernel)⟩⟩
  have hin : anchoredSpelling.In anchoredText.toList :=
    ⟨⟨16, by decide +kernel, by decide +kernel, fun _ _ => trivial⟩, .property hproperty hgap (.here _), ⟨true, by decide +kernel⟩⟩
  have hheld : anchoredFormula.HeldBy anchoredText "app.yaml" anchoredSpelling := by
    refine ⟨hin, by decide, ((Yaml.compose anchoredText.toList).toOption.join).getD ⟨#[], 0⟩, 4, .text,
      {}, "OnStart", by decide +kernel, by decide +kernel, by decide +kernel⟩
  have hline : anchoredSpelling.OnLine (Text.lines anchoredText.toList) :=
    ⟨by decide +kernel, fun _ => by decide +kernel⟩
  have hverbatim : anchoredSpelling.Verbatim := by
    change (anchoredSpelling.start.firstLine.plainScalar false 3).1 = "=Set(x, 1)"
    decide +kernel
  have hmaps := (scanDocument_maps_back hscan (List.mem_singleton.mpr rfl)).2 _ hheld hline
  exact ⟨hscan, hmaps.2 hverbatim⟩

/-! ## A formula that is misplaced -/

/-- A formula on the line below its anchor. -/
def anchorAboveText : String :=
  "a: &s\n  =x\n"

/-- The line of the anchor is searched for the formula, so that its characters are not found. -/
theorem anchorAbove_misplaced : ∃ d f, scanDocument anchorAboveText "app.yaml" = .ok d ∧
    f ∈ d.formulas ∧ f.text = "x" ∧ f.placement = ⟨1, 7, 0⟩ ∧
    ¬ f.MarkerStands (Text.lines anchorAboveText.toList) ∧
    ((LineIndex.ofText f.text.toList f.placement).place 0).char?
      (Text.lines anchorAboveText.toList) = none := by
  refine ⟨⟨"app.yaml", [], [⟨⟨"app.yaml", "", "a"⟩, "x", ⟨1, 7, 0⟩, ⟨[], none, none⟩⟩]⟩, _,
    by decide +kernel, List.mem_singleton.mpr rfl, rfl, rfl, ?_, by decide +kernel⟩
  change Place.char? (Text.lines anchorAboveText.toList) ⟨1, 6⟩ ≠ some '='
  decide +kernel

end FormulaLint
