import FormulaLint.Proofs.Lexing.Coverage
import FormulaLint.Proofs.Reading
import FormulaLint.Proofs.RoundTrip.Formula

/-!
# Places of diagnostics

Whatever the parser reports is about the token at which it looks, or about the end of the formula,
and never about a token that lexing has reported.  That token is skipped before the next clause
starts, so no two diagnostics stand at one place.

Main results:

- Theorem {lit}`Work.step_reports`: a step reports the token at which the parser looks.
- Theorem {lit}`Progress.feedAll_reports`: each token is reported at most once.
- Theorem {lit}`parse_reports_apart`: the diagnostics of a formula, lexical and grammatical ones
  together.
-/

namespace FormulaLint

/-! ## Steps -/

/-- What a clause that is abandoned reports: at most one thing about what the parser looks at. -/
def Step.Reports (s : Setting) (look : Look) : Step → Prop
  | .abandon _ diagnostic _ => diagnostic = none ∨ ∃ code message,
      code.category = .grammatical ∧ diagnostic = look.diagnostic? s code message
  | .next _ | .complete _ | .overlong _ => True

/-- What an outcome reports. -/
theorem Step.Outcome.reports {s s' : Setting} {w : Work} {look : Look} {step step' : Step}
    (h : Step.Outcome s s' w look step step') : step.Reports s look := by
  cases h with
  | abandon _ code message _ hcode _ => exact Or.inr ⟨code, message, hcode, rfl⟩
  | taken _ _ _ | complete _ _ _ | overlong _ _ _ => trivial

/-- A step reports at most one thing, about the token at which the parser looks. -/
theorem Work.step_reports (s : Setting) (w : Work) (look : Look) :
    (w.step s look).Reports s look :=
  (step_outcome s s w look).reports

/-! ## Runs -/

/-- The places that can be reported of some tokens: those of the tokens that lexing has not
reported. -/
def reportable (ts : List Token) : List Span :=
  (ts.filter fun t => !t.isError).map Token.span

/-- Diagnostics of the parser, one behind the other, each at one of the given places. -/
structure ReportsAmong (places : List Span) (ds : List Diagnostic) : Prop where
  sublist : (ds.map Diagnostic.span).Sublist places
  grammatical : ∀ d ∈ ds, d.category = .grammatical

section

variable {places places' : List Span} {ds ds' : List Diagnostic}

/-- Diagnostics at places that stand one behind the other. -/
theorem ReportsAmong.append (h : ReportsAmong places ds) (h' : ReportsAmong places' ds') :
    ReportsAmong (places ++ places') (ds ++ ds') := by
  constructor
  · rw [List.map_append]
    exact h.sublist.append h'.sublist
  · intro d hd
    cases List.mem_append.mp hd with
    | inl hd => exact h.grammatical d hd
    | inr hd => exact h'.grammatical d hd

/-- Nothing is reported. -/
theorem ReportsAmong.nil (places : List Span) : ReportsAmong places [] :=
  ⟨List.nil_sublist places, by simp⟩

end

namespace Progress

variable {s : Setting} {progress progress' : Progress} {t : Token} {ts : List Token}

/-- A step that is taken up reports what the parser looks at, or nothing. -/
theorem take_reports {step : Step} {look : Look} {skip : Nat → Stage}
    (hstep : step.Reports s look) (h : progress.take step skip = .ok progress') :
    ∃ ds, progress'.diagnostics = progress.diagnostics ++ ds ∧
      (ds = [] ∨ ∃ code message, code.category = .grammatical ∧
        ds = (look.diagnostic? s code message).toList) := by
  cases step with
  | next w =>
      rcases Except.ok.inj h with rfl
      exact ⟨[], by simp, Or.inl rfl⟩
  | complete e =>
      rcases Except.ok.inj h with rfl
      exact ⟨[], by simp, Or.inl rfl⟩
  | abandon clause diagnostic depth =>
      rcases Except.ok.inj h with rfl
      refine ⟨diagnostic.toList, rfl, ?_⟩
      cases hstep with
      | inl hnone => exact Or.inl (by rw [hnone]; rfl)
      | inr hsome =>
          rcases hsome with ⟨code, message, hcode, rfl⟩
          exact Or.inr ⟨code, message, hcode, rfl⟩
  | overlong digits => simp [take] at h

/-- A token is reported at most once, and not at all when lexing has reported it. -/
theorem feed_reports (h : progress.feed s t = .ok progress') :
    ∃ ds, progress'.diagnostics = progress.diagnostics ++ ds ∧ ReportsAmong (reportable [t]) ds := by
  have htake : ∀ w : Work, progress.take (w.step s (some t)) (skipToken · t) = .ok progress' →
      ∃ ds, progress'.diagnostics = progress.diagnostics ++ ds ∧
        ReportsAmong (reportable [t]) ds := by
    intro w hw
    rcases take_reports (Work.step_reports s w (some t)) hw with ⟨ds, hds, rfl | hsome⟩
    · exact ⟨[], hds, .nil _⟩
    · rcases hsome with ⟨code, message, hcode, rfl⟩
      refine ⟨_, hds, ?_⟩
      by_cases herror : t.isError = true
      · simp only [Look.diagnostic?, herror, ↓reduceIte, Option.toList_none]
        exact .nil _
      · simp only [Look.diagnostic?, herror, Bool.false_eq_true, ↓reduceIte, Option.toList_some]
        constructor
        · simp [reportable, herror, Diagnostic.report]
        · simp [Diagnostic.category, Diagnostic.report, hcode]
  rcases progress with ⟨clauses, diagnostics, stage⟩
  cases stage with
  | skipping depth =>
      rcases Except.ok.inj h with rfl
      exact ⟨[], by simp, .nil _⟩
  | within w => exact htake w h
  | between =>
      simp only [feed] at h
      split at h
      · rcases Except.ok.inj h with rfl
        exact ⟨[], by simp, .nil _⟩
      · exact htake .start h

/-- Each token is reported at most once, in the order of the tokens. -/
theorem feedAll_reports (h : progress.feedAll s ts = .ok progress') :
    ∃ ds, progress'.diagnostics = progress.diagnostics ++ ds ∧ ReportsAmong (reportable ts) ds := by
  induction ts generalizing progress with
  | nil =>
      rcases Except.ok.inj h with rfl
      exact ⟨[], by simp, .nil _⟩
  | cons t ts ih =>
      rw [feedAll_cons] at h
      cases hfirst : progress.feed s t with
      | error n => simp [hfirst, Except.bind] at h
      | ok middle =>
          rw [hfirst] at h
          rcases feed_reports hfirst with ⟨first, hmiddle, hreports⟩
          rcases ih h with ⟨others, hprogress', hothers⟩
          refine ⟨first ++ others, by rw [hprogress', hmiddle, List.append_assoc], ?_⟩
          have hplaces : reportable (t :: ts) = reportable [t] ++ reportable ts := by
            rw [reportable, ← List.singleton_append, List.filter_append, List.map_append]
            rfl
          rw [hplaces]
          exact hreports.append hothers

/-- The end of a formula is reported at most once. -/
theorem finish_reports (h : progress.finish s = .ok progress') :
    ∃ ds, progress'.diagnostics = progress.diagnostics ++ ds ∧ ReportsAmong [s.stop] ds := by
  rcases progress with ⟨clauses, diagnostics, stage⟩
  cases stage with
  | skipping _ | between =>
      rcases Except.ok.inj h with rfl
      exact ⟨[], by simp, .nil _⟩
  | within w =>
      rcases take_reports (Work.step_reports s w none) h with ⟨ds, hds, rfl | hsome⟩
      · exact ⟨[], hds, .nil _⟩
      · rcases hsome with ⟨code, message, hcode, rfl⟩
        refine ⟨_, hds, ?_, ?_⟩
        · simp [Look.diagnostic?, Diagnostic.report]
        · simp [Look.diagnostic?, Diagnostic.category, Diagnostic.report, hcode]

end Progress

/-- The parser reports tokens that lexing has not reported and the end, each at most once. -/
theorem readClauses_reports {s : Setting} {ts : List Token} {progress : Progress}
    (h : readClauses s ts = .ok progress) :
    ReportsAmong (reportable ts ++ [s.stop]) progress.diagnostics := by
  cases hmiddle : Progress.start.feedAll s ts with
  | error n => simp [readClauses, hmiddle, bind, Except.bind] at h
  | ok middle =>
      rw [readClauses_of_feedAll hmiddle] at h
      rcases Progress.feedAll_reports hmiddle with ⟨ds, hds, hreports⟩
      rcases Progress.finish_reports h with ⟨ds', hds', hend⟩
      have hall : progress.diagnostics = ds ++ ds' := by
        rw [hds', hds]
        rfl
      rw [hall]
      exact hreports.append hend

/-! ## Diagnostics of a formula -/

/-- The diagnostic of an error token is a lexical one. -/
theorem Token.category_of_diagnostic {t : Token} {d : Diagnostic} (h : t.diagnostic? = some d) :
    d.category = .lexical := by
  unfold Token.diagnostic? at h
  split at h
  · rename_i error _
    rcases Option.some.inj h with rfl
    cases error <;> rfl
  · simp at h

/-- Lexing reports the error tokens, each at its place. -/
theorem map_span_diagnostics (ts : List Token) :
    (ts.filterMap Token.diagnostic?).map Diagnostic.span =
      (ts.filter Token.isError).map Token.span := by
  induction ts with
  | nil => rfl
  | cons t ts ih =>
      cases hd : t.diagnostic? with
      | none =>
          have hclean : ¬ t.isError = true := by
            intro herror
            rcases Token.exists_diagnostic_iff.mpr herror with ⟨d, hd'⟩
            simp [hd] at hd'
          rw [List.filterMap_cons_none hd, List.filter_cons_of_neg hclean, ih]
      | some d =>
          have herror : t.isError = true := Token.exists_diagnostic_iff.mp ⟨d, hd⟩
          rw [List.filterMap_cons_some hd, List.filter_cons_of_pos herror, List.map_cons,
            List.map_cons, ih, Token.span_of_diagnostic hd]

/-- Of things in increasing order only one has its key. -/
theorem filter_eq_singleton {α : Type} (key : α → Int) {xs : List α} {x : α}
    (h : xs.Pairwise fun a b => key a < key b) (hx : x ∈ xs) :
    xs.filter (fun y => key y = key x) = [x] := by
  rcases List.append_of_mem hx with ⟨front, behind, rfl⟩
  rw [List.pairwise_append, List.pairwise_cons] at h
  have hfront : front.filter (fun y => key y = key x) = [] := by
    refine List.filter_eq_nil_iff.mpr ?_
    intro y hy
    have hlt := h.2.2 y hy x (List.mem_cons_self ..)
    simp only [decide_eq_true_eq]
    omega
  have hbehind : behind.filter (fun y => key y = key x) = [] := by
    refine List.filter_eq_nil_iff.mpr ?_
    intro y hy
    have hlt := h.2.1.1 y hy
    simp only [decide_eq_true_eq]
    omega
  rw [List.filter_append, hfront, List.filter_cons_of_pos (by simp), hbehind]
  rfl

/-- What is reported at places among some tokens and the end behind them stands at different
places, the errors among the tokens included. -/
theorem ReportsAmong.pairwise_start_ne {ts : List Token} {stop : Span} {ds : List Diagnostic}
    (h : ReportsAmong (reportable ts ++ [stop]) ds)
    (hts : ts.Pairwise fun t t' => t.span.start < t'.span.start)
    (hstop : ∀ t ∈ ts, t.span.start < stop.start) :
    (ts.filterMap Token.diagnostic? ++ ds).Pairwise fun a b => a.span.start ≠ b.span.start := by
  have hplaces : (ts.map Token.span ++ [stop]).Pairwise fun a b => a.start ≠ b.start := by
    rw [List.pairwise_append, List.pairwise_map]
    refine ⟨hts.imp ?_, List.pairwise_singleton _ _, ?_⟩
    · intro t t' hlt
      omega
    · intro a ha b hb
      rcases List.mem_map.mp ha with ⟨t, ht, rfl⟩
      have hlt := hstop t ht
      rw [List.mem_singleton.mp hb]
      omega
  -- the places of the errors and those of the other tokens are the places of all tokens
  have hperm : ((ts.filter Token.isError).map Token.span ++ (reportable ts ++ [stop])).Perm
      (ts.map Token.span ++ [stop]) := by
    rw [← List.append_assoc, reportable, ← List.map_append]
    exact ((List.filter_append_perm Token.isError ts).map Token.span).append_right [stop]
  have hsublist : ((ts.filterMap Token.diagnostic? ++ ds).map Diagnostic.span).Sublist
      ((ts.filter Token.isError).map Token.span ++ (reportable ts ++ [stop])) := by
    rw [List.map_append, map_span_diagnostics]
    exact (List.Sublist.refl _).append h.sublist
  have hapart := (hperm.pairwise_iff fun hne => hne.symm).mpr hplaces
  exact (List.pairwise_map (f := Diagnostic.span)).mp (hapart.sublist hsublist)

/-- No two diagnostics of a formula start at one place, and they stand in the order of their
places.  Every error token has one diagnostic at its place, the one that lexing gives it; what the
parser reports is about another token, or about the end. -/
theorem parse_reports_apart (p : Profile) (text : String) (placement : Placement) (parsed : Parsed)
    (h : parse p text placement = .ok parsed) :
    (parsed.diagnostics.Pairwise fun a b => a.span.start < b.span.start) ∧
    (∀ t ∈ parsed.lexed.tokens, t.isError = true → ∃ d, t.diagnostic? = some d ∧
      parsed.diagnostics.filter (fun d' => d'.span.start = t.span.start) = [d]) ∧
    ∀ d ∈ parsed.diagnostics,
      (d.category = .lexical ∧ ∃ t ∈ parsed.lexed.tokens, t.diagnostic? = some d) ∨
      (d.category = .grammatical ∧ (d.span = parsed.lexed.stop ∨
        ∃ t ∈ parsed.lexed.tokens, t.isError = false ∧ d.span = t.span)) := by
  rcases hmarker : stripMarker text.toList placement with ⟨body, place⟩
  rw [parse_eq hmarker] at h
  cases hread : readClauses ⟨p, (lex p body place).stop⟩ (lex p body place).tokens with
  | error n => simp [hread, Except.map] at h
  | ok progress =>
      rw [hread] at h
      rcases Except.ok.inj h with rfl
      dsimp only
      have hcovers := covers_pieces p (LineIndex.ofText body place) body
      have hreports := readClauses_reports hread
      have hne := hreports.pairwise_start_ne hcovers.pairwise_tokens fun t ht => hcovers.start_lt ht
      have hperm := sortDiagnostics_perm ((lex p body place).diagnostics ++ progress.diagnostics)
      have hordered : (sortDiagnostics
          ((lex p body place).diagnostics ++ progress.diagnostics)).Pairwise
          fun a b => a.span.start < b.span.start := by
        have hsorted := sortDiagnostics_pairwise
          ((lex p body place).diagnostics ++ progress.diagnostics)
        have hdistinct := (hperm.pairwise_iff fun hne => hne.symm).mpr hne
        refine (hsorted.and hdistinct).imp ?_
        intro a b hab
        have hbefore := hab.1
        simp only [Diagnostic.before, Bool.or_eq_true, Bool.and_eq_true, decide_eq_true_eq] at hbefore
        have hstart := hab.2
        omega
      refine ⟨hordered, ?_, ?_⟩
      · intro t ht herror
        rcases Token.exists_diagnostic_iff.mpr herror with ⟨d, hd⟩
        refine ⟨d, hd, ?_⟩
        have hmem : d ∈ (lex p body place).diagnostics := List.mem_filterMap.mpr ⟨t, ht, hd⟩
        rw [← Token.span_of_diagnostic hd]
        exact filter_eq_singleton (fun d : Diagnostic => d.span.start) hordered
          (hperm.mem_iff.mpr (List.mem_append_left _ hmem))
      · intro d hd
        cases List.mem_append.mp (hperm.mem_iff.mp hd) with
        | inl hlexical =>
            rcases List.mem_filterMap.mp hlexical with ⟨t, ht, hdiagnostic⟩
            exact Or.inl ⟨Token.category_of_diagnostic hdiagnostic, t, ht, hdiagnostic⟩
        | inr hgrammatical =>
            refine Or.inr ⟨hreports.grammatical d hgrammatical, ?_⟩
            have hplace := hreports.sublist.subset (List.mem_map_of_mem hgrammatical)
            cases List.mem_append.mp hplace with
            | inl htoken =>
                rcases List.mem_map.mp htoken with ⟨t, ht, hspan⟩
                rcases List.mem_filter.mp ht with ⟨ht, hclean⟩
                exact Or.inr ⟨t, ht, by simpa using hclean, hspan.symm⟩
            | inr hend => exact Or.inl (List.mem_singleton.mp hend)

/-- A formula with three error tokens, the first one where an operand is missing, and with a stray
delimiter behind a clause that is complete. -/
theorem parse_reports_apart_mixed :
    let text := "1 + #; a ); f(§; 'b"
    ∃ parsed, parse .dotDecimal text {} = .ok parsed ∧ parsed.lexed.diagnostics.length = 3 ∧
      (parsed.diagnostics.Pairwise fun a b => a.span.start < b.span.start) ∧
      (∀ t ∈ parsed.lexed.tokens, t.isError = true → ∃ d, t.diagnostic? = some d ∧
        parsed.diagnostics.filter (fun d' => d'.span.start = t.span.start) = [d]) ∧
      ∀ d ∈ parsed.diagnostics,
        (d.category = .lexical ∧ ∃ t ∈ parsed.lexed.tokens, t.diagnostic? = some d) ∨
        (d.category = .grammatical ∧ (d.span = parsed.lexed.stop ∨
          ∃ t ∈ parsed.lexed.tokens, t.isError = false ∧ d.span = t.span)) := by
  intro text
  rcases exists_parse_of_decide .dotDecimal text {} (fun parsed => parsed.lexed.diagnostics.length = 3)
    (by decide +kernel) with ⟨parsed, hparse, hlength⟩
  exact ⟨parsed, hparse, hlength, parse_reports_apart .dotDecimal text {} parsed hparse⟩

end FormulaLint
