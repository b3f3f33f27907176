import FormulaLint.Proofs.Grammar.Completeness
import FormulaLint.Proofs.Grammar.Soundness
import FormulaLint.Proofs.Reading

/-!
# The formulas that are read without a diagnostic

The parser accepts exactly the series of clauses that the grammar derives, and gives each clause
the tree of the grammar.  One direction follows a derivation, the other one follows the parser and
keeps the clauses read so far as the front of a series.

Main results:

- Theorem {lit}`Series.feedAll`: a series of clauses is read with its own trees.
- Theorem {lit}`Progress.feed_fits`: a token read without a diagnostic fits the series so far.
- Theorem {lit}`readClauses_series`: what is read without a diagnostic is a series of clauses.
- Theorem {lit}`readClauses_accepts_grammar`: exactly a series of clauses gives no diagnostic.
-/

namespace FormulaLint

variable {s : Setting}

/-! ## Series of clauses are read -/

/-- A clause in progress takes up the tokens of its run. -/
theorem Work.Runs.feedAll {w w' : Work} {ts : List Token} (h : Runs s w ts w')
    (clauses : List Expr) (diagnostics : List Diagnostic) :
    Progress.feedAll s ⟨clauses, diagnostics, .within w⟩ ts =
      .ok ⟨clauses, diagnostics, .within w'⟩ := by
  induction h with
  | nil => rfl
  | cons hstep _ ih =>
      rw [Progress.feedAll_cons]
      simp only [Progress.feed, hstep, Progress.take]
      exact ih

/-- A new clause takes up the tokens of its run. -/
theorem Work.Runs.feedAll_start {w : Work} {ts : List Token} (h : Runs s Work.start ts w)
    (hne : ts ≠ []) (clauses : List Expr) (diagnostics : List Diagnostic) :
    Progress.feedAll s ⟨clauses, diagnostics, .between⟩ ts =
      .ok ⟨clauses, diagnostics, .within w⟩ := by
  cases h with
  | nil => exact absurd rfl hne
  | @cons _ w' _ t ts hstep hrest =>
      -- a separator starts no clause
      have hchaining : t.payload ≠ .separator .chaining := by
        intro hpayload
        have hnext : startOperand s Work.start (some t) = .next w' := hstep
        rcases Work.startOperand_next hpayload hnext with ⟨delimiter, hopening⟩
        simp at hopening
      rw [Progress.feedAll_cons]
      simp only [Progress.feed, hchaining, ↓reduceIte, hstep, Progress.take]
      exact hrest.feedAll clauses diagnostics

/-- The tokens of an expression take the parser from one clause to the end of it. -/
theorem Derives.feedAll {e : Expr} {ts : List Token} (h : Derives (.level 0 e) ts)
    (clauses : List Expr) (diagnostics : List Diagnostic) :
    ∃ w, Progress.feedAll s ⟨clauses, diagnostics, .between⟩ ts =
        .ok ⟨clauses, diagnostics, .within w⟩ ∧
      w.step s none = .complete e ∧ ∀ t : Token, t.Chains → w.step s (some t) = .complete e := by
  rcases h.runs_clause (s := s) with ⟨w, hruns, hend, hchaining⟩
  have hne : ts ≠ [] := by
    rintro rfl
    cases hruns
    simp [Work.step, Work.start, startOperand] at hend
  exact ⟨w, hruns.feedAll_start hne clauses diagnostics, hend, hchaining⟩

/-- A series of clauses is read with its own trees. -/
theorem Series.feedAll {ts : List Token} {es : List Expr} (h : Series ts es)
    (clauses : List Expr) (diagnostics : List Diagnostic) :
    ((Progress.feedAll s ⟨clauses, diagnostics, .between⟩ ts).bind (Progress.finish s)) =
      .ok ⟨clauses ++ es, diagnostics, .between⟩ := by
  induction h generalizing clauses with
  | nil => simp [Progress.feedAll, pure, Except.pure, Except.bind, Progress.finish]
  | @separator t ts es ht _ ih =>
      have hpayload : t.payload = .separator .chaining := ht
      rw [Progress.feedAll_cons]
      simp only [Progress.feed, hpayload, ↓reduceIte]
      exact ih clauses
  | last he =>
      rcases he.feedAll (s := s) clauses diagnostics with ⟨w, hread, hend, -⟩
      rw [hread]
      simp [Except.bind, Progress.finish, hend, Progress.take]
  | @clause e t ts rest es he ht _ ih =>
      rcases he.feedAll (s := s) clauses diagnostics with ⟨w, hread, -, hchaining⟩
      rw [Progress.feedAll_append, hread]
      simp only [Except.bind, Progress.feedAll_cons, Progress.feed, hchaining t ht, Progress.take]
      simpa [Except.bind] using ih (clauses ++ [e])

/-! ## What is read is a series of clauses -/

/-- The tokens are the front of a series with the given clauses. -/
def SeriesFront (ts : List Token) (clauses : List Expr) : Prop :=
  ∀ rest es, Series rest es → Series (ts ++ rest) (clauses ++ es)

/-- The tokens read without a diagnostic are the front of a series, up to those of the clause in
progress. -/
def Progress.Fits (progress : Progress) (ts : List Token) : Prop :=
  progress.diagnostics = [] →
    match progress.stage with
    | .between => SeriesFront ts progress.clauses
    | .within w => ∃ front current, ts = front ++ current ∧
        SeriesFront front progress.clauses ∧ w.Reads current
    | .skipping _ => False

/-- One more clause with its separator. -/
theorem SeriesFront.clause {ts current : List Token} {clauses : List Expr} {e : Expr} {t : Token}
    (h : SeriesFront ts clauses) (he : Derives (.level 0 e) current) (ht : t.Chains) :
    SeriesFront (ts ++ current ++ [t]) (clauses ++ [e]) := by
  intro rest es hrest
  have hclause := h _ _ (.clause he ht hrest)
  simpa using hclause

/-- One more separator. -/
theorem SeriesFront.separator {ts : List Token} {clauses : List Expr} {t : Token}
    (h : SeriesFront ts clauses) (ht : t.Chains) : SeriesFront (ts ++ [t]) clauses := by
  intro rest es hrest
  have hseparator := h _ _ (.separator ht hrest)
  simpa using hseparator

namespace Progress

/-- What came of a token adds to the diagnostics. -/
theorem diagnostics_of_take {progress progress' : Progress} {step : Step} {skip : Nat → Stage}
    (h : progress.take step skip = .ok progress') (hnil : progress'.diagnostics = []) :
    progress.diagnostics = [] := by
  cases step with
  | next _ | complete _ =>
      rcases Except.ok.inj h with rfl
      exact hnil
  | abandon clause diagnostic depth =>
      rcases Except.ok.inj h with rfl
      exact (List.append_eq_nil_iff.mp hnil).1
  | overlong digits => simp [take] at h

/-- Taking up what came of a token keeps the tokens the front of a series. -/
theorem take_fits {progress progress' : Progress} {w : Work} {front current : List Token}
    {t : Token} {skip : Nat → Stage} (hfront : SeriesFront front progress.clauses)
    (hreads : w.Reads current) (ht : t.isError = false)
    (htake : progress.take (w.step s (some t)) skip = .ok progress') :
    progress'.Fits (front ++ current ++ [t]) := by
  have htracks := Work.step_tracks (s := s) w (some t)
  have hjustified := Work.step_justified s (some t) hreads
  cases hstep : w.step s (some t) with
  | next w' =>
      rw [hstep] at htake
      rcases Except.ok.inj htake with rfl
      exact fun _ => ⟨front, current ++ [t], by simp, hfront, hreads.next hstep⟩
  | complete e =>
      rw [hstep] at htake htracks hjustified
      rcases Except.ok.inj htake with rfl
      exact fun _ => hfront.clause hjustified (htracks.2 t rfl)
  | abandon clause diagnostic depth =>
      rw [hstep] at htake hjustified
      rcases Except.ok.inj htake with rfl
      intro hnil
      have hclean : Look.Clean (some t) := fun t' ht' => Option.some.inj ht' ▸ ht
      rcases List.append_eq_nil_iff.mp hnil with ⟨-, hdiagnostic⟩
      exact absurd (by simpa using hdiagnostic) (hjustified hclean)
  | overlong digits =>
      rw [hstep] at htake
      simp [take] at htake

/-- A token read without a diagnostic fits the series so far. -/
theorem feed_fits {progress progress' : Progress} {ts : List Token} {t : Token}
    (h : progress.Fits ts) (ht : t.isError = false)
    (hfeed : progress.feed s t = .ok progress') : progress'.Fits (ts ++ [t]) := by
  intro hnil
  rcases progress with ⟨clauses, diagnostics, stage⟩
  cases stage with
  | skipping depth =>
      rcases Except.ok.inj hfeed with rfl
      exact absurd (h hnil) id
  | within w =>
      rcases h (diagnostics_of_take hfeed hnil) with ⟨front, current, rfl, hfront, hreads⟩
      exact take_fits hfront hreads ht hfeed hnil
  | between =>
      simp only [feed] at hfeed
      split at hfeed
      · rename_i hchaining
        rcases Except.ok.inj hfeed with rfl
        exact (h hnil).separator hchaining
      · have hfront : SeriesFront ts clauses := h (diagnostics_of_take hfeed hnil)
        have hfits := take_fits hfront Work.start_reads ht hfeed
        rw [List.append_nil] at hfits
        exact hfits hnil

/-- Tokens read without a diagnostic fit the series so far. -/
theorem feedAll_fits {progress progress' : Progress} {front ts : List Token}
    (h : progress.Fits front) (hts : ∀ t ∈ ts, t.isError = false)
    (hfeed : progress.feedAll s ts = .ok progress') : progress'.Fits (front ++ ts) := by
  induction ts generalizing progress front with
  | nil =>
      rcases Except.ok.inj hfeed with rfl
      simpa using h
  | cons t ts ih =>
      rw [feedAll_cons] at hfeed
      cases hfirst : progress.feed s t with
      | error n => simp [hfirst, Except.bind] at hfeed
      | ok middle =>
          rw [hfirst] at hfeed
          have hfits := feed_fits h (hts t (by simp)) hfirst
          have hrest := ih hfits (fun t' ht' => hts t' (by simp [ht'])) hfeed
          simpa using hrest

/-- A formula read without a diagnostic is a series of clauses. -/
theorem finish_series {progress progress' : Progress} {ts : List Token} (h : progress.Fits ts)
    (hfinish : progress.finish s = .ok progress') (hnil : progress'.diagnostics = []) :
    Series ts progress'.clauses := by
  rcases progress with ⟨clauses, diagnostics, stage⟩
  cases stage with
  | skipping depth =>
      rcases Except.ok.inj hfinish with rfl
      exact absurd (h hnil) id
  | between =>
      rcases Except.ok.inj hfinish with rfl
      simpa using h hnil [] [] .nil
  | within w =>
      rcases h (diagnostics_of_take hfinish hnil) with ⟨front, current, rfl, hfront, hreads⟩
      have hjustified := Work.step_justified s none hreads
      rcases Work.step_none_cases s w with ⟨e, hstep⟩ | ⟨clause, diagnostic, hstep⟩
      · simp only [finish, hstep, take] at hfinish
        rcases Except.ok.inj hfinish with rfl
        rw [hstep] at hjustified
        exact hfront current [e] (.last hjustified)
      · simp only [finish, hstep, take] at hfinish
        rcases Except.ok.inj hfinish with rfl
        rw [hstep] at hjustified
        rcases List.append_eq_nil_iff.mp hnil with ⟨-, hdiagnostic⟩
        exact absurd (by simpa using hdiagnostic) (hjustified fun t ht => by simp at ht)

end Progress

/-! ## Acceptance -/

/-- Tokens that are read without a diagnostic are a series of the clauses that are found. -/
theorem readClauses_series {ts : List Token} {progress : Progress}
    (h : readClauses s ts = .ok progress) (hts : ∀ t ∈ ts, t.isError = false)
    (hnil : progress.diagnostics = []) : Series ts progress.clauses := by
  have hstart : Progress.start.Fits [] := fun _ rest es hrest => hrest
  cases hmiddle : Progress.start.feedAll s ts with
  | error n => simp [readClauses, hmiddle, bind, Except.bind] at h
  | ok middle =>
      rw [readClauses_of_feedAll hmiddle] at h
      exact Progress.finish_series (Progress.feedAll_fits hstart hts hmiddle) h hnil

/-- Among tokens without lexical errors and overlong numbers, the parser reads exactly the series
of clauses without a diagnostic, and it finds the clauses of the series. -/
theorem readClauses_accepts_grammar (s : Setting) (ts : List Token)
    (h : ∀ t ∈ ts, t.isError = false ∧ t.Readable) :
    ∃ progress, readClauses s ts = .ok progress ∧
      (progress.diagnostics = [] ↔ ∃ es, Series ts es) ∧
      ∀ es, Series ts es → progress.clauses = es := by
  rcases readClauses_ok (s := s) fun t ht => (h t ht).2 with ⟨progress, hread⟩
  have hseries : ∀ es, Series ts es → progress = ⟨es, [], .between⟩ := by
    intro es hes
    have hes' : readClauses s ts = .ok ⟨es, [], .between⟩ := hes.feedAll [] []
    exact Except.ok.inj (hread.symm.trans hes')
  refine ⟨progress, hread, ⟨fun hnil => ?_, ?_⟩, ?_⟩
  · exact ⟨progress.clauses, readClauses_series hread (fun t ht => (h t ht).1) hnil⟩
  · rintro ⟨es, hes⟩
    rw [hseries es hes]
  · intro es hes
    rw [hseries es hes]

/-- The tokens of {lit}`a < b = c < 12`, where an equality stands between two comparisons. -/
theorem readClauses_accepts_comparisons :
    let ts : List Token :=
      [⟨.identifier "a" false, "a", ⟨0, 1, 1, 1⟩⟩, ⟨.operator .less, "<", ⟨2, 3, 1, 3⟩⟩,
        ⟨.identifier "b" false, "b", ⟨4, 5, 1, 5⟩⟩, ⟨.operator .equal, "=", ⟨6, 7, 1, 7⟩⟩,
        ⟨.identifier "c" false, "c", ⟨8, 9, 1, 9⟩⟩, ⟨.operator .less, "<", ⟨10, 11, 1, 11⟩⟩,
        ⟨.number "12", "12", ⟨12, 14, 1, 13⟩⟩]
    (∀ t ∈ ts, t.isError = false ∧ t.Readable) ∧
      ∃ progress, readClauses ⟨.dotDecimal, ⟨14, 14, 1, 15⟩⟩ ts = .ok progress ∧
        (progress.diagnostics = [] ↔ ∃ es, Series ts es) ∧
        ∀ es, Series ts es → progress.clauses = es := by
  intro ts
  have hts : ∀ t ∈ ts, t.isError = false ∧ t.Readable := by decide
  exact ⟨hts, readClauses_accepts_grammar _ ts hts⟩

end FormulaLint
