import FormulaLint.Proofs.Grammar.Beginnings
import FormulaLint.Proofs.Recovery

/-!
# The clauses that are recovered

Which clauses a formula has is told by the grammar alone, whatever is wrong with the formula.  A
clause ends at the first token that no expression has at its place.  What was read of it is a clause
of the formula if it is an expression, unless a binary operator follows; the rest is skipped up to
the next chaining separator outside all delimiters.  So a stray token behind an expression does not
take the expression with it.

Main results:

- Theorem {lit}`Recovers.unique`: the clauses that are recovered are determined by the tokens.
- Theorem {lit}`Progress.feed_follows`: a token read keeps to the clauses that are recovered.
- Theorem {lit}`readClauses_recovers`: the parser finds exactly the clauses that are recovered.
-/

namespace FormulaLint

/-- The tokens behind the next chaining separator outside all delimiters, with the given number of
delimiters open at the start. -/
def afterSeparator (depth : Nat) : List Token → List Token
  | [] => []
  | t :: ts =>
      if t.payload = .separator .chaining ∧ depth = 0 then ts
      else afterSeparator (depth + t.opens.toNat - t.closes.toNat) ts

/-- The number of delimiters that some tokens leave open. -/
def openDelimiters (ts : List Token) : Nat :=
  ts.countP Token.opens - ts.countP Token.closes

/-- The clauses that are recovered from tokens: one after the other, each as far as an expression
goes, and nothing of what is skipped behind it. -/
inductive Recovers : List Token → List Expr → Prop where
  | last {current : List Token} {clause : Option Expr} (hbegins : Begins current)
      (hclause : ∀ e, clause = some e ↔ Derives (.level 0 e) current) :
      Recovers current clause.toList
  | ended {current more : List Token} {t : Token} {clause : Option Expr} {es : List Expr}
      (hbegins : Begins current) (hends : ¬ Begins (current ++ [t]))
      (hclause : ∀ e, clause = some e ↔ Derives (.level 0 e) current ∧ ¬ t.Joins)
      (h : Recovers (afterSeparator (openDelimiters current) (t :: more)) es) :
      Recovers (current ++ t :: more) (clause.toList ++ es)

/-- Every expression begins with nothing. -/
theorem begins_nil : Begins [] :=
  (Work.Runs.nil (s := ⟨.dotDecimal, default⟩)).begins

/-- Nothing is no expression. -/
theorem not_derives_nil (e : Expr) : ¬ Derives (.level 0 e) [] := by
  intro h
  have hend := (Work.Runs.nil (s := ⟨.dotDecimal, default⟩)).derives_iff.mp h
  simp [Work.step, Work.start, startOperand] at hend

/-- No expression begins with a chaining separator. -/
theorem not_begins_separator {t : Token} (ht : t.Chains) : ¬ Begins [t] := by
  intro h
  rcases (Work.Runs.nil (s := ⟨.dotDecimal, default⟩)).next_iff.mpr h with ⟨w', hstep⟩
  rcases Work.startOperand_next ht hstep with ⟨delimiter, hopening⟩
  simp at hopening

/-! ## Uniqueness -/

/-- Where tokens stop to begin an expression is one place. -/
theorem Begins.stops_once {current current' more more' : List Token} {t t' : Token}
    (hbegins : Begins current) (hends : ¬ Begins (current ++ [t])) (hbegins' : Begins current')
    (hends' : ¬ Begins (current' ++ [t'])) (h : current ++ t :: more = current' ++ t' :: more') :
    current = current' ∧ t = t' ∧ more = more' := by
  rcases List.append_eq_append_iff.mp h with ⟨front, rfl, hfront⟩ | ⟨front, rfl, hfront⟩
  · cases front with
    | nil => simpa using hfront
    | cons t₁ front =>
        obtain ⟨rfl, -⟩ := List.cons.inj hfront
        rw [List.append_cons] at hbegins'
        exact absurd hbegins'.of_append hends
  · cases front with
    | nil => simpa [eq_comm] using hfront
    | cons t₁ front =>
        obtain ⟨rfl, -⟩ := List.cons.inj hfront
        rw [List.append_cons] at hbegins
        exact absurd hbegins.of_append hends'

/-- Two clauses for which the same expressions stand are the same. -/
theorem clause_unique {P : Expr → Prop} {clause clause' : Option Expr}
    (h : ∀ e, clause = some e ↔ P e) (h' : ∀ e, clause' = some e ↔ P e) : clause = clause' :=
  Option.ext fun e => (h e).trans (h' e).symm

namespace Recovers

variable {ts current more : List Token} {t : Token} {clause : Option Expr} {es es' : List Expr}

/-- Of the beginning of an expression at most that expression is recovered. -/
theorem of_begins (h : Recovers ts es) (hbegins : Begins ts)
    (hclause : ∀ e, clause = some e ↔ Derives (.level 0 e) ts) : es = clause.toList := by
  cases h with
  | last _ hclause' => rw [clause_unique hclause hclause']
  | ended _ hends _ _ =>
      rw [List.append_cons] at hbegins
      exact absurd hbegins.of_append hends

/-- Behind the end of a clause the next ones are recovered. -/
theorem of_ends (h : Recovers ts es) (hts : ts = current ++ t :: more) (hbegins : Begins current)
    (hends : ¬ Begins (current ++ [t]))
    (hclause : ∀ e, clause = some e ↔ Derives (.level 0 e) current ∧ ¬ t.Joins) :
    ∃ es', es = clause.toList ++ es' ∧
      Recovers (afterSeparator (openDelimiters current) (t :: more)) es' := by
  cases h with
  | last hwhole _ =>
      rw [hts, List.append_cons] at hwhole
      exact absurd hwhole.of_append hends
  | ended hbegins' hends' hclause' hrest =>
      obtain ⟨rfl, rfl, rfl⟩ := hbegins'.stops_once hends' hbegins hends hts
      rw [clause_unique hclause hclause']
      exact ⟨_, rfl, hrest⟩

/-- The clauses that are recovered are determined by the tokens. -/
theorem unique (h : Recovers ts es) (h' : Recovers ts es') : es = es' := by
  induction h generalizing es' with
  | last hbegins hclause => exact (h'.of_begins hbegins hclause).symm
  | ended hbegins hends hclause _ ih =>
      rcases h'.of_ends rfl hbegins hends hclause with ⟨rest, rfl, hrest⟩
      rw [ih hrest]

/-- Nothing is recovered from nothing. -/
theorem nil : Recovers [] [] :=
  have hclause : ∀ e, (none : Option Expr) = some e ↔ Derives (.level 0 e) [] := fun e =>
    ⟨fun h => by simp at h, fun h => absurd h (not_derives_nil e)⟩
  last begins_nil hclause

/-- A separator in front of a clause does not matter. -/
theorem separator (ht : t.Chains) (h : Recovers ts es) : Recovers (t :: ts) es := by
  have hpayload : t.payload = .separator .chaining := ht
  have hrest : Recovers (afterSeparator (openDelimiters []) (t :: ts)) es := by
    simpa [afterSeparator, openDelimiters, hpayload] using h
  have hclause : ∀ e, (none : Option Expr) = some e ↔ Derives (.level 0 e) [] ∧ ¬ t.Joins :=
    fun e => ⟨fun h => by simp at h, fun h => absurd h.1 (not_derives_nil e)⟩
  exact ended begins_nil (not_begins_separator ht) hclause hrest

end Recovers

/-- What is skipped is left out. -/
theorem afterSeparator_subset (depth : Nat) (ts : List Token) : afterSeparator depth ts ⊆ ts := by
  induction ts generalizing depth with
  | nil => simp [afterSeparator]
  | cons t ts ih =>
      rw [afterSeparator]
      split
      · exact List.subset_cons_self t ts
      · exact List.subset_cons_of_subset t (ih _)

/-- A clause that is recovered is an expression of some of the tokens. -/
theorem Recovers.derives {ts : List Token} {es : List Expr} {e : Expr} (h : Recovers ts es)
    (he : e ∈ es) : ∃ current, Derives (.level 0 e) current ∧ current ⊆ ts := by
  induction h with
  | @last current clause hbegins hclause =>
      exact ⟨current, (hclause e).mp (Option.mem_toList.mp he), List.Subset.refl current⟩
  | @ended current more t clause es hbegins hends hclause _ ih =>
      rcases List.mem_append.mp he with he | he
      · exact ⟨current, ((hclause e).mp (Option.mem_toList.mp he)).1,
          List.subset_append_left current (t :: more)⟩
      · rcases ih he with ⟨inner, hinner, hsubset⟩
        refine ⟨inner, hinner, fun t' ht' => List.mem_append_right current ?_⟩
        exact afterSeparator_subset _ _ (hsubset ht')

/-! ## The parser recovers -/

/-- The parser counts the delimiters of a clause in progress. -/
theorem Work.Runs.shifts {s : Setting} {w w' : Work} {ts : List Token} (h : Runs s w ts w') :
    w.depth + ts.countP Token.opens = w'.depth + ts.countP Token.closes := by
  induction h with
  | nil => rfl
  | @cons w w' w'' t ts hstep _ ih =>
      have htracks := step_tracks (s := s) w (some t)
      rw [hstep] at htracks
      rcases htracks with ⟨t', ht', -, hnests⟩
      obtain rfl := Option.some.inj ht'
      have hshifts := hnests.shifts
      simp only [Work.length_openings, Token.Shifts] at hshifts
      have hcounts : ∀ p : Token → Bool, (t :: ts).countP p = (p t).toNat + ts.countP p := by
        intro p
        cases hp : p t <;> simp [hp, Nat.add_comm]
      rw [hcounts, hcounts]
      omega

/-- The open delimiters of a clause in progress. -/
theorem Work.Runs.depth_eq {s : Setting} {w : Work} {ts : List Token} (h : Runs s start ts w) :
    openDelimiters ts = w.depth := by
  have hshifts := h.shifts
  simp only [depth, start, List.length_nil, Nat.zero_add] at hshifts
  simp only [openDelimiters, depth, hshifts, Nat.add_sub_cancel]

/-- The tokens from which the clauses behind those read so far are recovered, when more tokens
follow. -/
def Stage.Leaves (s : Setting) (more left : List Token) : Stage → Prop
  | .between => left = more
  | .within w => ∃ current, Work.Runs s Work.start current w ∧ left = current ++ more
  | .skipping depth => left = afterSeparator depth more

/-- The clauses read so far are those that are recovered from the tokens read so far. -/
def Progress.Follows (s : Setting) (progress : Progress) (ts : List Token) : Prop :=
  ∀ more, ∃ left, progress.stage.Leaves s more left ∧
    ∀ es, Recovers left es → Recovers (ts ++ more) (progress.clauses ++ es)

/-- Skipping a token leaves what stands behind the separator. -/
theorem skipToken_leaves (s : Setting) (depth : Nat) (t : Token) (more : List Token) :
    (skipToken depth t).Leaves s more (afterSeparator depth (t :: more)) := by
  cases hpayload : t.payload with
  | separator sep =>
      cases sep with
      | chaining =>
          by_cases hdepth : depth = 0 <;>
            simp [skipToken, afterSeparator, hpayload, hdepth, Stage.Leaves, Token.opens,
              Token.closes]
      | opening _ | closing _ | colon | list =>
          simp [skipToken, afterSeparator, hpayload, Stage.Leaves, Token.opens, Token.closes]
  | logical _ | number _ | text _ | identifier _ _ | global _ | field _ _ | operator _ | error _ =>
      simp [skipToken, afterSeparator, hpayload, Stage.Leaves, Token.opens, Token.closes]

namespace Progress

variable {s : Setting} {progress progress' : Progress} {ts current more : List Token} {t : Token}
  {w : Work}

/-- A token that a clause takes up, or that ends it. -/
theorem take_leaves (hruns : Work.Runs s Work.start current w)
    (htake : progress.take (w.step s (some t)) (skipToken · t) = .ok progress') (more : List Token) :
    ∃ left clauses, progress'.stage.Leaves s more left ∧
      progress'.clauses = progress.clauses ++ clauses ∧
      ∀ es, Recovers left es → Recovers (current ++ t :: more) (clauses ++ es) := by
  have htracks := Work.step_tracks (s := s) w (some t)
  have hends : (∀ w', w.step s (some t) ≠ .next w') → ¬ Begins (current ++ [t]) := by
    intro hstep hbegins
    rcases hruns.next_iff.mpr hbegins with ⟨w', hnext⟩
    exact hstep w' hnext
  cases hstep : w.step s (some t) with
  | next w' =>
      rw [hstep] at htake
      obtain rfl := Except.ok.inj htake
      exact ⟨current ++ t :: more, [], ⟨current ++ [t], hruns.snoc hstep, by simp⟩, by simp,
        fun es hes => hes⟩
  | complete e =>
      rw [hstep] at htake htracks
      obtain rfl := Except.ok.inj htake
      rcases htracks with ⟨hlevels, hchaining⟩
      have hpayload : t.payload = .separator .chaining := hchaining t rfl
      have he : Derives (.level 0 e) current := by
        have hjustified := Work.step_justified s (some t) hruns.start_reads
        rw [hstep] at hjustified
        exact hjustified
      have hdepth : openDelimiters current = 0 := by
        rw [hruns.depth_eq, Work.depth, hlevels]
        rfl
      have hclause : ∀ e', some e = some e' ↔ Derives (.level 0 e') current ∧ ¬ t.Joins := by
        refine fun e' => ⟨?_, fun h => congrArg some (he.unique h.1)⟩
        rintro ⟨⟩
        refine ⟨he, ?_⟩
        rintro ⟨op, _, _, hop, _⟩
        simp [hpayload] at hop
      refine ⟨more, [e], rfl, rfl, fun es hes => ?_⟩
      refine .ended hruns.begins (hends fun w' => by simp [hstep]) hclause ?_
      simpa [afterSeparator, hpayload, hdepth] using hes
  | abandon clause diagnostic depth =>
      rw [hstep] at htake htracks
      obtain rfl := Except.ok.inj htake
      obtain rfl : depth = openDelimiters current := htracks.trans hruns.depth_eq.symm
      refine ⟨_, clause.toList, skipToken_leaves s _ t more, rfl, fun es hes => ?_⟩
      exact .ended hruns.begins (hends fun w' => by simp [hstep])
        (hruns.abandoned_iff hstep) hes
  | overlong digits =>
      rw [hstep] at htake
      simp [take] at htake

/-- A token read keeps to the clauses that are recovered. -/
theorem feed_follows (h : progress.Follows s ts) (hfeed : progress.feed s t = .ok progress') :
    progress'.Follows s (ts ++ [t]) := by
  intro more
  rcases h (t :: more) with ⟨left, hleaves, hrecovers⟩
  rcases progress with ⟨clauses, diagnostics, stage⟩
  -- what the token makes of a clause in progress
  have htaken : ∀ current w, Work.Runs s Work.start current w → left = current ++ t :: more →
      Progress.take ⟨clauses, diagnostics, stage⟩ (w.step s (some t)) (skipToken · t) =
        .ok progress' →
      ∃ left, progress'.stage.Leaves s more left ∧
        ∀ es, Recovers left es → Recovers (ts ++ [t] ++ more) (progress'.clauses ++ es) := by
    rintro current w hruns rfl htake
    rcases take_leaves hruns htake more with ⟨left, new, hleaves', hclauses, hnew⟩
    refine ⟨left, hleaves', fun es hes => ?_⟩
    simpa [hclauses] using hrecovers _ (hnew es hes)
  cases stage with
  | skipping depth =>
      obtain rfl := Except.ok.inj hfeed
      obtain rfl : left = _ := hleaves
      exact ⟨_, skipToken_leaves s depth t more, fun es hes => by simpa using hrecovers es hes⟩
  | within w =>
      rcases hleaves with ⟨current, hruns, hleft⟩
      exact htaken current w hruns hleft hfeed
  | between =>
      obtain rfl : left = t :: more := hleaves
      simp only [feed] at hfeed
      split at hfeed
      · rename_i hchaining
        obtain rfl := Except.ok.inj hfeed
        exact ⟨more, rfl, fun es hes => by simpa using hrecovers es (hes.separator hchaining)⟩
      · exact htaken [] Work.start .nil rfl hfeed

/-- Tokens read keep to the clauses that are recovered. -/
theorem feedAll_follows {front : List Token} (h : progress.Follows s front)
    (hfeed : progress.feedAll s ts = .ok progress') : progress'.Follows s (front ++ ts) := by
  induction ts generalizing progress front with
  | nil =>
      obtain rfl := Except.ok.inj hfeed
      simpa using h
  | cons t ts ih =>
      rw [feedAll_cons] at hfeed
      cases hfirst : progress.feed s t with
      | error n => simp [hfirst, Except.bind] at hfeed
      | ok middle =>
          rw [hfirst] at hfeed
          simpa using ih (feed_follows h hfirst) hfeed

/-- At the end of the tokens all clauses are recovered. -/
theorem finish_recovers (h : progress.Follows s ts) (hfinish : progress.finish s = .ok progress') :
    Recovers ts progress'.clauses := by
  rcases h [] with ⟨left, hleaves, hrecovers⟩
  rcases progress with ⟨clauses, diagnostics, stage⟩
  simp only [List.append_nil] at hrecovers
  cases stage with
  | between =>
      obtain rfl := Except.ok.inj hfinish
      obtain rfl : left = [] := hleaves
      simpa using hrecovers [] .nil
  | skipping depth =>
      obtain rfl := Except.ok.inj hfinish
      obtain rfl : left = [] := hleaves
      simpa using hrecovers [] .nil
  | within w =>
      rcases hleaves with ⟨current, hruns, rfl⟩
      rw [List.append_nil] at hrecovers
      rcases Work.step_none_cases s w with ⟨e, hstep⟩ | ⟨clause, diagnostic, hstep⟩
      · simp only [finish, hstep, take] at hfinish
        obtain rfl := Except.ok.inj hfinish
        have he := hruns.derives_iff.mpr hstep
        have hclause : ∀ e', some e = some e' ↔ Derives (.level 0 e') current := fun e' =>
          ⟨fun h => Option.some.inj h ▸ he, fun h => congrArg some (he.unique h)⟩
        have hlast := Recovers.last hruns.begins hclause
        exact hrecovers [e] hlast
      · simp only [finish, hstep, take] at hfinish
        obtain rfl := Except.ok.inj hfinish
        exact hrecovers _ (.last hruns.begins (hruns.abandoned_at_end hstep))

end Progress

/-- The clauses that the parser finds are recovered. -/
theorem recovers_of_readClauses {s : Setting} {ts : List Token} {progress : Progress}
    (h : readClauses s ts = .ok progress) : Recovers ts progress.clauses := by
  have hstart : Progress.start.Follows s [] := fun more => ⟨more, rfl, fun _ hes => hes⟩
  cases hmiddle : Progress.start.feedAll s ts with
  | error n => simp [readClauses, hmiddle, bind, Except.bind] at h
  | ok middle =>
      rw [readClauses_of_feedAll hmiddle] at h
      exact Progress.finish_recovers (Progress.feedAll_follows hstart hmiddle) h

/-- The parser finds exactly the clauses that are recovered: of a clause with an error the
expression in front of the error, if the clause was one and no binary operator follows, and nothing
else. -/
theorem readClauses_recovers (s : Setting) (ts : List Token) (progress : Progress)
    (h : readClauses s ts = .ok progress) (es : List Expr) :
    Recovers ts es ↔ progress.clauses = es := by
  have hrecovers := recovers_of_readClauses h
  exact ⟨hrecovers.unique, fun hes => hes ▸ hrecovers⟩

/-- The tokens of {lit}`1 +; c`, where an operand is missing. -/
theorem readClauses_recovers_second :
    let ts : List Token :=
      [⟨.number "1", "1", ⟨0, 1, 1, 1⟩⟩, ⟨.operator .plus, "+", ⟨2, 3, 1, 3⟩⟩,
        ⟨.separator .chaining, ";", ⟨3, 4, 1, 4⟩⟩, ⟨.identifier "c" false, "c", ⟨5, 6, 1, 6⟩⟩]
    ∃ progress, readClauses ⟨.dotDecimal, ⟨6, 6, 1, 7⟩⟩ ts = .ok progress ∧
      ∀ es, Recovers ts es ↔ progress.clauses = es :=
  ⟨_, rfl, readClauses_recovers ⟨.dotDecimal, ⟨6, 6, 1, 7⟩⟩ _ _ rfl⟩

/-- In {lit}`a b; c` the first clause is abandoned with an error, but its first name stays a clause of
the formula. -/
theorem readClauses_keeps_front :
    let a : Token := ⟨.identifier "a" false, "a", ⟨0, 1, 1, 1⟩⟩
    let b : Token := ⟨.identifier "b" false, "b", ⟨2, 3, 1, 3⟩⟩
    let c : Token := ⟨.identifier "c" false, "c", ⟨5, 6, 1, 6⟩⟩
    let separator : Token := ⟨.separator .chaining, ";", ⟨3, 4, 1, 4⟩⟩
    (∀ e, ¬ Derives (.level 0 e) [a, b]) ∧
      ∃ progress, readClauses ⟨.dotDecimal, ⟨6, 6, 1, 7⟩⟩ [a, b, separator, c] = .ok progress ∧
        progress.diagnostics.map Diagnostic.code = [.unexpectedToken] ∧
        progress.clauses = [reference "a" false a.span, reference "c" false c.span] := by
  intro a b c separator
  refine ⟨fun e he => ?_, _, rfl, rfl, rfl⟩
  have hrun : Work.Runs ⟨.dotDecimal, default⟩ Work.start [a] _ := .single rfl
  rcases hrun.next_iff.mpr he.begins with ⟨w, hstep⟩
  exact absurd hstep Step.noConfusion

end FormulaLint
