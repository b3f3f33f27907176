import FormulaLint.Proofs.Batches
import FormulaLint.Proofs.Parentheses.Needed
import FormulaLint.Proofs.Parentheses.Remaining

/-!
# No parentheses but those that are needed

When one pair of the parentheses that group parts is taken out of what is written for a formula, the
rest is not read as the same formula any more: there is a diagnostic, or the canonical form is
another one.  Pairs that group nothing are an exception, of which there are two kinds.

Main results:

- Theorem {lit}`kept_of_dump_eq`: what has the same canonical form has all of its parentheses.
- Theorem {lit}`parentheses_needed`: no pair can be taken out but a spare one.
- Theorem {lit}`parentheses_spare`: a pair of each of the two kinds that can be taken out.
-/

namespace FormulaLint

section

variable {p : Profile} {es : List Expr} {ts : List Token}

/-! ## Series of clauses -/

/-- A series of clauses holds their words. -/
theorem Series.totalSize_le (h : Series ts es) : totalSize es ≤ wordCount (kinds ts) + 1 := by
  induction h with
  | nil => simp
  | separator ht _ ih =>
      rcases ht.isWord with ⟨readable, hkind⟩
      rw [kinds_cons, hkind, wordCount_word]
      omega
  | last he =>
      have hsize := he.spreads.size_le
      rw [Phrase.size] at hsize
      rw [totalSize_cons, totalSize_nil]
      omega
  | clause he ht _ ih =>
      have hsize := he.spreads.size_le
      rcases ht.isWord with ⟨readable, hkind⟩
      rw [Phrase.size] at hsize
      rw [totalSize_cons, kinds_append, kinds_cons, hkind, wordCount_append, wordCount_word]
      omega

/-- A series that holds no more words than its clauses has one separator between each two. -/
theorem Series.derives_clauses (h : Series ts es) (hne : es ≠ [])
    (hcount : wordCount (kinds ts) + 1 = totalSize es) : Derives (.clauses es) ts := by
  induction h with
  | nil => exact absurd rfl hne
  | separator ht h _ =>
      have hle := h.totalSize_le
      rcases ht.isWord with ⟨readable, hkind⟩
      rw [kinds_cons, hkind, wordCount_word] at hcount
      omega
  | last he => exact .firstClause he
  | @clause e t ts rest es he ht h ih =>
      have hle := h.totalSize_le
      have hsize := he.spreads.size_le
      rcases ht.isWord with ⟨readable, hkind⟩
      rw [Phrase.size] at hsize
      rw [totalSize_cons, kinds_append, kinds_cons, hkind, wordCount_append, wordCount_word] at hcount
      have hrest : es ≠ [] := by
        rintro rfl
        rw [totalSize_nil] at hcount
        omega
      exact (Derives.firstClause he).clauses_append ht (ih hrest (by omega))

/-- A formula that is read without a diagnostic is a series of the tokens of its text. -/
theorem exists_series_of_parse {text body : List Char} {placement place : Placement}
    {parsed : Parsed} (h : parse p (String.ofList text) placement = .ok parsed)
    (hclean : parsed.diagnostics = []) (hmarker : stripMarker text placement = (body, place)) :
    ∃ ts, Series ts parsed.clauses ∧ kinds ts = kindsOf p body ∧
      ∀ t ∈ ts, ∀ number, t.payload = .number number → Numeral number.toList := by
  have hmarker : stripMarker (String.ofList text).toList placement = (body, place) := by
    rwa [String.toList_ofList]
  rw [parse_eq hmarker] at h
  cases hread : readClauses ⟨p, (lex p body place).stop⟩ (lex p body place).tokens with
  | error n => simp [hread, Except.map] at h
  | ok progress =>
      rw [hread] at h
      obtain rfl := Except.ok.inj h
      rcases List.append_eq_nil_iff.mp (eq_nil_of_sortDiagnostics hclean) with ⟨hlexical, hsyntactic⟩
      exact ⟨_, readClauses_series hread (isError_of_diagnostics hlexical) hsyntactic,
        map_kind_lex body place, fun t ht number hnumber => numeral_of_mem_lex ht hnumber⟩

/-- A text that is not marked as a formula is read as a whole. -/
theorem Unmarked.stripMarker_eq {text : List Char} (h : Unmarked text) (placement : Placement) :
    stripMarker text placement = (text, placement) := by
  rcases h with ⟨c, hc, -, hne⟩
  unfold stripMarker
  split
  · exact absurd (Option.some.inj hc).symm hne
  · rfl

/-- Formulas with the same canonical form show the same clauses. -/
theorem clauses_eq_of_dump_eq {es' : List Expr} {span span' : Span}
    (h : ∀ e ∈ es, e.Every Expr.Shaped) (h' : ∀ e ∈ es', e.Every Expr.Shaped)
    (hdump : (Expr.chain es' span').dump = (Expr.chain es span).dump) :
    es'.flatMap (fun e => e.canonical.clauses) = es.flatMap fun e => e.canonical.clauses := by
  rw [dump_chain h', dump_chain h, Except.ok.injEq, String.ofList_inj,
    ← Expr.dumpChars_canonical_clauses h', ← Expr.dumpChars_canonical_clauses h] at hdump
  exact Expr.clauses_eq_of_dumpChars (Expr.every_canonical_clauses h')
    (Expr.every_canonical_clauses h) hdump

/-- The words of clauses by what they show. -/
theorem totalSize_canonical (h : ∀ e ∈ es, e.Every Expr.Shaped) :
    totalSize (es.flatMap fun e => e.canonical.clauses) = totalSize es := by
  rw [totalSize_flatMap_clauses fun e he => Expr.clauses_canonical_ne_nil (h e he), totalSize]
  exact congrArg _ (List.map_congr_left fun e he => by rw [Expr.size_canonical (h e he)])

/-! ## What is read when pairs are left out -/

section

variable {keep : Path → Bool} {span : Span} {placement : Placement} {parsed : Parsed}

/-- What remains of a text as a whole stands for the tokens of its parts or for fewer words. -/
theorem Remains.abridges {text : List Char} {ks : List Kind} (h : Remains p text ks) :
    Abridges (kindsOf p text) ks := by
  have hwhole := h.skims [] (.inl delimits_none)
  rwa [List.append_nil, kindsOf_nil, List.append_nil] at hwhole

/-- What remains of a formula without some pairs is read as its clauses, by the tokens that are
spelled for it, if it has the same canonical form. -/
theorem childrenReread_of_dump_eq (hshaped : ∀ e ∈ es, e.Every Expr.Shaped) (hne : es ≠ [])
    (h : parse p (String.ofList (keptText keep ((Expr.chain es span).marked p []))) placement =
      .ok parsed) (hclean : parsed.diagnostics = [])
    (hdump : parsed.expr.dump = (Expr.chain es span).dump) :
    (Expr.chain es span).ChildrenReread p keep [] := by
  have hremains : Remains p (keptText keep ((Expr.chain es span).marked p []))
      ((Expr.chain es span).spelled p keep []) := Expr.remains_clauses hne hshaped span
  rcases parse_every_shaped h with ⟨⟨span', hexpr⟩, hshaped'⟩
  rcases exists_series_of_parse h hclean (hremains.unmarked.stripMarker_eq placement)
    with ⟨ts, hseries, hkinds, hnumerals⟩
  have hclauses := clauses_eq_of_dump_eq hshaped hshaped' (hexpr ▸ hdump)
  have hsame : totalSize parsed.clauses = totalSize es := by
    rw [← totalSize_canonical hshaped, ← totalSize_canonical hshaped', hclauses]
  have hpos := totalSize_pos hne
  have hwords : wordCount ((Expr.chain es span).spelled p keep []) = totalSize es - 1 := by
    rw [Expr.wordCount_spelled, Expr.size_chain]
  -- no word is lost, since the clauses that are read need all of them
  have hspelled : kinds ts = (Expr.chain es span).spelled p keep [] := by
    rcases hremains.abridges.eq_or_lt with heq | hlt
    · exact hkinds.trans heq
    · have hle := hseries.totalSize_le
      rw [hkinds] at hle
      omega
  have hcount : wordCount (kinds ts) + 1 = totalSize parsed.clauses := by
    rw [hspelled, hwords]
    omega
  have hne' : parsed.clauses ≠ [] := by
    intro hnil
    rw [hnil, totalSize_nil] at hsame
    omega
  have hmade : (Phrase.clauses parsed.clauses).MadeOf ts :=
    ⟨hseries.derives_clauses hne' hcount, hnumerals⟩
  rcases hmade.fitting_clauses hcount with ⟨items, -, hitems, hjoined, hfits⟩
  refine Expr.childrenReread_of_clauses hfits (hjoined.symm.trans hspelled) ?_ hshaped
  rw [← hclauses, ← hitems, List.flatMap_map]

/-- When what is written for a formula without some pairs has the same canonical form, then none was
left out that is not spare. -/
theorem kept_of_dump_eq (hshaped : ∀ e ∈ es, e.Every Expr.Shaped)
    (h : parse p (String.ofList (keptText keep ((Expr.chain es span).marked p []))) placement =
      .ok parsed) (hclean : parsed.diagnostics = [])
    (hdump : parsed.expr.dump = (Expr.chain es span).dump)
    (hspare : ∀ pair ∈ (Expr.chain es span).pairs p [],
      SparePair p chainLevel [] (.chain es span) pair → keep pair.path = true) :
    ∀ pair ∈ (Expr.chain es span).pairs p [], keep pair.path = true := by
  intro pair hpair
  rcases Expr.mem_pairs_iff.mp hpair with ⟨c, i, hc, hcases⟩
  have hmem : c ∈ es := List.mem_of_getElem? hc
  have hloose : ¬ (c.render p).level < (Expr.chain es span).floor i :=
    Int.not_lt.mpr (chainLevel_le_level c)
  have hplace : (Expr.chain es span).placeLevel p i c = chainLevel := if_neg hloose
  have hreread := childrenReread_of_dump_eq hshaped (List.ne_nil_of_mem hmem) h hclean hdump (c, i)
    (List.mem_zipIdx_iff_getElem?.mpr hc)
  rw [Expr.spelledChild, if_neg fun hboth => hloose hboth.1] at hreread
  rcases hcases with ⟨hlevel, -⟩ | hinner
  · exact absurd hlevel hloose
  · refine hreread.kept (hshaped c hmem) isPlace_chainLevel ?_ pair hinner
    intro pair hpair hspared
    exact hspare pair (Expr.mem_pairs_iff.mpr ⟨c, i, hc, .inr hpair⟩)
      (.inside hc (hplace.symm ▸ hspared))

/-- What remains of a formula without some pairs can be read if its numbers are short enough. -/
theorem exists_parsed_kept (hshaped : ∀ e ∈ es, e.Every Expr.Shaped)
    (hdigits : ∀ e ∈ es, e.Every Expr.DigitsBounded) (hne : es ≠ []) (placement : Placement) :
    ∃ parsed, parse p (String.ofList (keptText keep ((Expr.chain es span).marked p []))) placement =
      .ok parsed := by
  have hremains : Remains p (keptText keep ((Expr.chain es span).marked p []))
      ((Expr.chain es span).spelled p keep []) := Expr.remains_clauses hne hshaped span
  have hspelled : .word false ∉ (Expr.chain es span).spelled p keep [] := by
    rw [Expr.spelled_eq]
    refine Expr.readable_joined (List.forall_mem_map.mpr fun child hchild => ?_)
    have hmem := List.fst_mem_of_mem_zipIdx hchild
    exact Expr.readable_spelledChild
      (Expr.readable_spelled (hshaped child.1 hmem) (hdigits child.1 hmem))
  apply exists_parsed
  rw [String.toList_ofList, hremains.unmarked.stripMarker_eq placement]
  intro t ht
  refine readable_of_kind fun hkind => hspelled (hremains.abridges.readable ?_)
  rw [← map_kind_lex _ placement]
  exact List.mem_map.mpr ⟨t, ht, hkind⟩

end

end

/-! ## One pair -/

/-- What is written for a formula is marked with the pairs of parentheses that group its parts. -/
theorem unparse_marked {p : Profile} {es : List Expr} (h : ∀ e ∈ es, e.Every Expr.Shaped)
    (span : Span) : (Expr.chain es span).unparse p =
      .ok (String.ofList (((Expr.chain es span).marked p []).map Mark.shown)) := by
  rw [unparse_chain h, map_shown_eq, Expr.text_marked, Expr.render_chain_text]

/-- No pair of parentheses can be taken out of what is written for a formula, but one around a
reference in front of a percent sign and one around a chain in front of members that stand between
delimiters: what is left is read with a diagnostic, or has another canonical form.  It can be read
if no number has more digits in front of its point than a whole number can have. -/
theorem parentheses_needed (p p' : Profile) (text : String) (placement placement' : Placement)
    (parsed : Parsed) (h : parse p text placement = .ok parsed)
    (hclean : parsed.diagnostics = []) :
    parsed.expr.unparse p' =
        .ok (String.ofList ((parsed.expr.marked p' []).map Mark.shown)) ∧
      ∀ pair ∈ parsed.expr.pairs p' [], ∃ before inside behind left,
        parsed.expr.marked p' [] = before ++ .opening pair :: (inside ++ .closing pair :: behind) ∧
        left = String.ofList ((before ++ inside ++ behind).map Mark.shown) ∧
        (parsed.expr.Every Expr.DigitsBounded → ∃ rest, parse p' left placement' = .ok rest) ∧
        (¬ SparePair p' chainLevel [] parsed.expr pair →
          ∀ rest, parse p' left placement' = .ok rest →
            rest.diagnostics ≠ [] ∨ rest.expr.dump ≠ parsed.expr.dump) := by
  rcases parse_shaped h hclean with ⟨⟨span, hexpr⟩, hshaped⟩
  rw [hexpr]
  refine ⟨unparse_marked hshaped span, fun pair hpair => ?_⟩
  rcases Expr.exists_marked_eq hpair with ⟨before, inside, behind, hmarked⟩
  refine ⟨before, inside, behind, _, hmarked, rfl, fun hdigits => ?_, ?_⟩
  · have hne : parsed.clauses ≠ [] := by
      rcases Expr.mem_pairs_iff.mp hpair with ⟨c, i, hc, -⟩
      exact List.ne_nil_of_mem (List.mem_of_getElem? hc)
    rw [← Expr.keptText_marked hmarked]
    exact exists_parsed_kept hshaped (Expr.every_iff.mp hdigits).2 hne placement'
  · intro hneeded rest hrest
    rw [← Expr.keptText_marked hmarked] at hrest
    by_contra hsame
    rw [not_or, not_not, not_not] at hsame
    refine absurd (kept_of_dump_eq hshaped hrest hsame.1 hsame.2 ?_ pair hpair) (by simp)
    intro pair' hpair' hspare
    -- the pair that is left out is the only one of its path
    rw [decide_eq_true_eq]
    intro hpath
    obtain rfl := List.inj_on_of_nodup_map (Expr.nodup_pairs _) hpair' hpair hpath
    exact hneeded hspare

/-- A sum that is negated, written in the other profile. -/
theorem parentheses_needed_negated :
    ∃ parsed, parse .dotDecimal "If(a, -(b + 1.5) ^ 2, c)" {} = .ok parsed ∧
      parsed.diagnostics = [] ∧
      parsed.expr.unparse .commaDecimal = .ok "If(a; -(b + 1,5) ^ 2; c)" ∧
      ∃ pair ∈ parsed.expr.pairs .commaDecimal [], ∃ before inside behind left,
        parsed.expr.marked .commaDecimal [] =
          before ++ .opening pair :: (inside ++ .closing pair :: behind) ∧
        left = String.ofList ((before ++ inside ++ behind).map Mark.shown) ∧
        ¬ SparePair .commaDecimal chainLevel [] parsed.expr pair ∧
        ∃ rest, parse .commaDecimal left {} = .ok rest ∧
          (rest.diagnostics ≠ [] ∨ rest.expr.dump ≠ parsed.expr.dump) := by
  rcases exists_parse_of_decide .dotDecimal "If(a, -(b + 1.5) ^ 2, c)" {} (fun parsed =>
    (parsed.diagnostics = [] ∧ parsed.expr.Every Expr.DigitsBounded) ∧
      parsed.expr.unparse .commaDecimal = .ok "If(a; -(b + 1,5) ^ 2; c)" ∧
      ∃ pair ∈ parsed.expr.pairs .commaDecimal [], ¬ pair.MaybeSpare) (by decide +kernel)
    with ⟨parsed, hparse, ⟨hclean, hdigits⟩, htext, pair, hpair, hneeded⟩
  have hspare : ¬ SparePair .commaDecimal chainLevel [] parsed.expr pair :=
    fun hspare => hneeded hspare.maybeSpare
  rcases (parentheses_needed .dotDecimal .commaDecimal _ {} {} parsed hparse hclean).2 pair hpair
    with ⟨before, inside, behind, left, hmarked, hleft, hread, hdiffers⟩
  rcases hread hdigits with ⟨rest, hrest⟩
  exact ⟨parsed, hparse, hclean, htext, pair, hpair, before, inside, behind, left, hmarked, hleft,
    hspare, rest, hrest, hdiffers hspare rest hrest⟩

/-- A formula is written with a pair of parentheses, and it is read the same without it. -/
def WrittenWithSpare (p : Profile) (text left : String) : Prop :=
  ∃ parsed, parse p text {} = .ok parsed ∧ parsed.diagnostics = [] ∧
    parsed.expr.unparse p = .ok text ∧
    ∃ pair before inside behind,
      parsed.expr.marked p [] = before ++ .opening pair :: (inside ++ .closing pair :: behind) ∧
      String.ofList ((before ++ inside ++ behind).map Mark.shown) = left ∧
      ∃ rest, parse p left {} = .ok rest ∧ rest.diagnostics = [] ∧
        rest.expr.dump = parsed.expr.dump

/-- What is evaluated tells whether a formula can be written without a pair. -/
theorem writtenWithSpare_of_decide (p : Profile) (text left canonical : String)
    (hwritten : (parse p text {}).toOption.any (fun parsed => decide
      ((parsed.diagnostics = [] ∧ parsed.expr.unparse p = .ok text) ∧
        parsed.expr.dump = .ok canonical ∧ ∃ pair ∈ parsed.expr.pairs p [],
          String.ofList (keptText (· ≠ pair.path) (parsed.expr.marked p [])) = left)) = true)
    (hleft : (parse p left {}).toOption.any (fun rest => decide
      (rest.diagnostics = [] ∧ rest.expr.dump = .ok canonical)) = true) :
    WrittenWithSpare p text left := by
  rcases exists_parse_of_decide _ _ _ _ hwritten
    with ⟨parsed, hparse, ⟨hclean, htext⟩, hdump, pair, hpair, hkept⟩
  rcases exists_parse_of_decide _ _ _ _ hleft with ⟨rest, hrest, hrestClean, hsame⟩
  rcases Expr.exists_marked_eq hpair with ⟨before, inside, behind, hmarked⟩
  exact ⟨parsed, hparse, hclean, htext, pair, before, inside, behind, hmarked,
    Expr.keptText_marked hmarked ▸ hkept, rest, hrest, hrestClean, hsame.trans hdump.symm⟩

/-- The parentheses around a member in front of a percent sign can be left out, and so can those
around a chain in front of a member. -/
theorem parentheses_spare :
    WrittenWithSpare .dotDecimal "(a.b)%" "a.b%" ∧
      WrittenWithSpare .dotDecimal "(a; b).c" "a; b.c" :=
  ⟨writtenWithSpare_of_decide _ _ _ "(a.b%)" (by decide +kernel) (by decide +kernel),
    writtenWithSpare_of_decide _ _ _ "a; b.c" (by decide +kernel) (by decide +kernel)⟩

end FormulaLint
