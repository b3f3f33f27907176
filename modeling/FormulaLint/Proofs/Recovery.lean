import FormulaLint.Proofs.Grammar.Steps
import FormulaLint.Proofs.Reading

/-!
# Recovery from an error

A clause that cannot be read is abandoned up to the next chaining separator outside all
delimiters.  Behind tokens whose delimiters match up, a separator is such a place: whatever is
wrong in front of it, the rest is read as if it stood alone.

Main results:

- Theorem {lit}`Progress.feedAll_depth`: the parser counts the delimiters that are open.
- Theorem {lit}`Progress.Extends.feedAll`: earlier clauses and diagnostics do not matter.
- Theorem {lit}`readClauses_append_separator`: clauses and diagnostics of the two parts.
-/

namespace FormulaLint

/-! ## Counting delimiters -/

namespace Token

/-- Whether a token opens some delimiter. -/
def opens (t : Token) : Bool :=
  match t.payload with
  | .separator (.opening _) => true
  | _ => false

/-- Whether a token closes some delimiter. -/
def closes (t : Token) : Bool :=
  match t.payload with
  | .separator (.closing _) => true
  | _ => false

end Token

/-- Whether as many delimiters are closed as are opened, and never more. -/
def Balanced (ts : List Token) : Prop :=
  (∀ front, front <+: ts → front.countP Token.closes ≤ front.countP Token.opens) ∧
    ts.countP Token.closes = ts.countP Token.opens

/-- The fronts of a list are its first tokens, up to all of them. -/
theorem balanced_iff_take (ts : List Token) : Balanced ts ↔
    (∀ n < ts.length + 1, (ts.take n).countP Token.closes ≤ (ts.take n).countP Token.opens) ∧
      ts.countP Token.closes = ts.countP Token.opens := by
  constructor
  · rintro ⟨hfronts, hcount⟩
    exact ⟨fun n _ => hfronts _ (List.take_prefix n ts), hcount⟩
  · rintro ⟨hfronts, hcount⟩
    refine ⟨fun front hfront => ?_, hcount⟩
    have hlength := hfront.length_le
    rw [List.prefix_iff_eq_take.mp hfront]
    exact hfronts front.length (by omega)

instance (ts : List Token) : Decidable (Balanced ts) :=
  decidable_of_iff _ (balanced_iff_take ts).symm

/-- The number of delimiters that are open. -/
def Stage.depth : Stage → Nat
  | .between => 0
  | .within w => w.depth
  | .skipping depth => depth

/-- What a token does to the number of open delimiters. -/
def Token.Shifts (t : Token) (before after : Nat) : Prop :=
  before + t.opens.toNat = after + t.closes.toNat

/-- Skipping a token counts its delimiter, unless there is none to close. -/
theorem skipToken_shifts {depth : Nat} {t : Token} (h : t.closes = true → 0 < depth) :
    t.Shifts depth (skipToken depth t).depth := by
  cases hpayload : t.payload with
  | separator sep =>
      cases sep with
      | opening delimiter =>
          simp [Token.Shifts, Token.opens, Token.closes, skipToken, hpayload, Stage.depth]
      | closing delimiter =>
          have hpos : 0 < depth := h (by simp [Token.closes, hpayload])
          simp only [Token.Shifts, Token.opens, Token.closes, skipToken, hpayload, Stage.depth,
            Bool.toNat_false, Bool.toNat_true]
          omega
      | chaining =>
          by_cases hdepth : depth = 0 <;>
            simp [Token.Shifts, Token.opens, Token.closes, skipToken, hpayload, hdepth, Stage.depth]
      | colon | list =>
          simp [Token.Shifts, Token.opens, Token.closes, skipToken, hpayload, Stage.depth]
  | logical _ | number _ | text _ | identifier _ _ | global _ | field _ _ | operator _ | error _ =>
      simp [Token.Shifts, Token.opens, Token.closes, skipToken, hpayload, Stage.depth]

/-- Nesting in the delimiters of a token counts them. -/
theorem Token.Nests.shifts {t : Token} {before after : List Token} (h : t.Nests before after) :
    t.Shifts before.length after.length := by
  unfold Token.Nests at h
  unfold Token.Shifts Token.opens Token.closes
  split at h
  · rename_i delimiter hpayload
    subst h
    simp [hpayload]
  · rename_i delimiter hpayload
    rcases h with ⟨opening, rfl⟩
    simp [hpayload]
  · rename_i hopening hclosing
    subst h
    split
    · rename_i delimiter hpayload
      exact absurd hpayload (hopening delimiter)
    · split
      · rename_i delimiter hpayload
        exact absurd hpayload (hclosing delimiter)
      · rfl

/-- A chaining separator is no delimiter. -/
theorem Token.Chains.shifts {t : Token} (h : t.Chains) (depth : Nat) : t.Shifts depth depth := by
  have hpayload : t.payload = .separator .chaining := h
  simp [Token.Shifts, Token.opens, Token.closes, hpayload]

/-- No token both opens and closes. -/
theorem opens_of_closes {t : Token} (h : t.closes = true) : t.opens = false := by
  unfold Token.closes at h
  unfold Token.opens
  split at h
  · rename_i hpayload
    simp [hpayload]
  · simp at h

namespace Progress

variable {s s' : Setting} {progress progress' : Progress} {w : Work} {t : Token}

/-- Taking up what came of a token counts its delimiter. -/
theorem take_shifts (ht : t.closes = true → 0 < w.depth)
    (h : progress.take (w.step s (some t)) (skipToken · t) = .ok progress') :
    t.Shifts w.depth progress'.stage.depth := by
  have htracks := Work.step_tracks (s := s) w (some t)
  cases hstep : w.step s (some t) with
  | next w' =>
      rw [hstep] at h htracks
      rcases Except.ok.inj h with rfl
      rcases htracks with ⟨t', ht', -, hnests⟩
      rcases Option.some.inj ht' with rfl
      have hshifts := hnests.shifts
      rw [Work.length_openings, Work.length_openings] at hshifts
      exact hshifts
  | complete e =>
      rw [hstep] at h htracks
      rcases Except.ok.inj h with rfl
      rcases htracks with ⟨hlevels, hchaining⟩
      have hdepth : w.depth = 0 := by simp [Work.depth, hlevels]
      rw [hdepth]
      exact Token.Chains.shifts (hchaining t rfl) 0
  | abandon clause diagnostic depth =>
      rw [hstep] at h htracks
      rcases Except.ok.inj h with rfl
      obtain rfl : depth = w.depth := htracks
      exact skipToken_shifts ht
  | overlong digits =>
      rw [hstep] at h
      simp [take] at h

/-- Reading a token counts its delimiter. -/
theorem feed_shifts (ht : t.closes = true → 0 < progress.stage.depth)
    (h : progress.feed s t = .ok progress') :
    t.Shifts progress.stage.depth progress'.stage.depth := by
  rcases progress with ⟨clauses, diagnostics, stage⟩
  cases stage with
  | skipping depth =>
      rcases Except.ok.inj h with rfl
      exact skipToken_shifts ht
  | within w => exact take_shifts ht h
  | between =>
      simp only [feed] at h
      split at h
      · rename_i hchaining
        rcases Except.ok.inj h with rfl
        exact Token.Chains.shifts hchaining 0
      · exact take_shifts (w := Work.start) ht h

/-- The parser counts the delimiters that are open, as long as none is closed too often. -/
theorem feedAll_depth {front ts : List Token}
    (hfront : front.countP Token.opens = front.countP Token.closes + progress.stage.depth)
    (hts : ∀ more, more <+: front ++ ts → more.countP Token.closes ≤ more.countP Token.opens)
    (h : progress.feedAll s ts = .ok progress') :
    (front ++ ts).countP Token.opens =
      (front ++ ts).countP Token.closes + progress'.stage.depth := by
  induction ts generalizing progress front with
  | nil =>
      rcases Except.ok.inj h with rfl
      simpa using hfront
  | cons t ts ih =>
      rw [feedAll_cons] at h
      cases hfirst : progress.feed s t with
      | error n => simp [hfirst, Except.bind] at h
      | ok middle =>
          rw [hfirst] at h
          have hsnoc : (front ++ [t]).countP Token.closes ≤ (front ++ [t]).countP Token.opens :=
            hts _ ⟨ts, by simp⟩
          have hcounts : ∀ p : Token → Bool,
              (front ++ [t]).countP p = front.countP p + (p t).toNat := by
            intro p
            cases hp : p t <;> simp [List.countP_append, hp]
          rw [hcounts, hcounts] at hsnoc
          have hpos : t.closes = true → 0 < progress.stage.depth := by
            intro hcloses
            rw [hcloses, opens_of_closes hcloses] at hsnoc
            simp only [Bool.toNat_false, Bool.toNat_true] at hsnoc
            omega
          have hshifts := feed_shifts hpos hfirst
          have hmiddle : (front ++ [t]).countP Token.opens =
              (front ++ [t]).countP Token.closes + middle.stage.depth := by
            simp only [Token.Shifts] at hshifts
            rw [hcounts, hcounts]
            omega
          have hrest := ih hmiddle (by simpa using hts) h
          simpa using hrest

end Progress

/-! ## Steps that differ in their wording only -/

/-- The same outcome of a step, up to the place and the wording of its diagnostic. -/
inductive Step.Alike : Step → Step → Prop where
  | same (step : Step) : Alike step step
  | abandon (clause : Option Expr) {diagnostic diagnostic' : Option Diagnostic} (depth : Nat)
      (h : diagnostic.map Diagnostic.code = diagnostic'.map Diagnostic.code) :
      Alike (.abandon clause diagnostic depth) (.abandon clause diagnostic' depth)

/-- A diagnostic about a token has the given code, wherever the formula ends. -/
theorem Look.code_diagnostic (look : Look) (s s' : Setting) (code : DiagnosticCode)
    (message message' : String) :
    (look.diagnostic? s code message).map Diagnostic.code =
      (look.diagnostic? s' code message').map Diagnostic.code := by
  cases look with
  | none => rfl
  | some t =>
      simp only [Look.diagnostic?]
      split <;> rfl

namespace Work

variable {s s' : Setting} {level : Level} {rest : List Level} {w : Work} {look : Look}

/-- The setting of a formula matters for the wording of diagnostics only. -/
theorem step_alike (s s' : Setting) (w : Work) (look : Look) :
    (w.step s look).Alike (w.step s' look) := by
  have houtcome := step_outcome s s' w look
  generalize w.step s look = step, w.step s' look = step' at houtcome
  cases houtcome with
  | taken _ _ _ => exact .same _
  | complete _ _ _ => exact .same _
  | abandon clause code message message' _ _ =>
      exact .abandon clause _ (look.code_diagnostic s s' code message message')
  | overlong _ _ _ => exact .same _

/-- Outside all delimiters a chaining separator has the effect of the end of the formula. -/
theorem step_separator_alike (s s' : Setting) {t : Token} (ht : t.Chains)
    (hlevels : w.levels = []) :
    (w.step s (some t)).Alike (w.step s' none) := by
  have hpayload : t.payload = .separator .chaining := ht
  rcases w with ⟨pending, levels, x, last⟩
  obtain rfl : levels = [] := hlevels
  -- nothing but an operand can stand at the end of a clause
  have hmissing : ∀ (w : Work) (code : DiagnosticCode) (message message' : String),
      (Step.abandon none (Look.diagnostic? (some t) s code message) w.depth).Alike
        (.abandon none (Look.diagnostic? none s' code message') w.depth) := by
    intro w code message message'
    refine .abandon none w.depth ?_
    simp [Look.diagnostic?, Token.isError, hpayload, Diagnostic.report]
  have hoperand : ∀ w : Work, (startOperand s w (some t)).Alike (startOperand s' w none) := by
    intro w
    simp only [startOperand, hpayload]
    exact hmissing w _ _ _
  cases hx : x.operand? with
  | some e =>
      rcases settle_none_ok pending e with ⟨whole, hsettle⟩
      rw [step_chaining hx hsettle ht, step_end hx hsettle]
      exact .same _
  | none =>
      cases x with
      | named _ _ _ | primary _ | memberRead _ _ _ _ _ | suffixed _ =>
          simp [Expectation.operand?, Expectation.member?] at hx
      | memberName base op span =>
          simp only [step, Look.identifier?, hpayload]
          exact hmissing _ _ _ _
      | groupStart =>
          simp only [step, Look.separator?, hpayload, Option.some.injEq, reduceCtorEq, ↓reduceIte]
          exact hoperand _
      | operand | callStart | chainStart | chainNext | elementStart | fieldStart | fieldName
      | colon => exact hoperand _

end Work

/-! ## Reading behind other clauses -/

namespace Progress

/-- The same stage behind some more clauses and diagnostics of the given codes. -/
structure Extends (clauses : List Expr) (codes : List DiagnosticCode) (longer shorter : Progress) :
    Prop where
  clauses_eq : longer.clauses = clauses ++ shorter.clauses
  codes_eq : longer.diagnostics.map Diagnostic.code =
    codes ++ shorter.diagnostics.map Diagnostic.code
  stage_eq : longer.stage = shorter.stage

variable {s s' : Setting} {clauses : List Expr} {codes : List DiagnosticCode}
  {longer shorter longer' : Progress} {w : Work}

/-- Taking up steps that are alike. -/
theorem Extends.take {step step' : Step} {skip skip' : Nat → Stage}
    (h : Extends clauses codes longer shorter) (hstep : step.Alike step')
    (hskip : ∀ clause diagnostic depth, step = .abandon clause diagnostic depth →
      skip depth = skip' depth)
    (htake : longer.take step skip = .ok longer') :
    ∃ shorter', shorter.take step' skip' = .ok shorter' ∧
      Extends clauses codes longer' shorter' := by
  cases hstep with
  | same step =>
      cases step with
      | next w =>
          rcases Except.ok.inj htake with rfl
          exact ⟨_, rfl, h.clauses_eq, h.codes_eq, rfl⟩
      | complete e =>
          rcases Except.ok.inj htake with rfl
          exact ⟨_, rfl, by simp [h.clauses_eq], h.codes_eq, rfl⟩
      | abandon clause diagnostic depth =>
          rcases Except.ok.inj htake with rfl
          exact ⟨_, rfl, by simp [h.clauses_eq], by simp [h.codes_eq], hskip _ _ _ rfl⟩
      | overlong digits => simp [Progress.take] at htake
  | @abandon clause diagnostic diagnostic' depth hcode =>
      rcases Except.ok.inj htake with rfl
      refine ⟨_, rfl, by simp [h.clauses_eq], ?_, hskip _ _ _ rfl⟩
      have hcodes : diagnostic.toList.map Diagnostic.code =
          diagnostic'.toList.map Diagnostic.code := by
        rw [← Option.toList_map, ← Option.toList_map, hcode]
      simp [h.codes_eq, hcodes]

/-- Reading a token. -/
theorem Extends.feed (s' : Setting) {t : Token} (h : Extends clauses codes longer shorter)
    (hfeed : longer.feed s t = .ok longer') :
    ∃ shorter', shorter.feed s' t = .ok shorter' ∧ Extends clauses codes longer' shorter' := by
  rcases h with ⟨hclauses, hcodes, hstage⟩
  rcases longer with ⟨_, _, stage⟩
  rcases shorter with ⟨_, _, stage'⟩
  obtain rfl : stage = stage' := hstage
  cases stage with
  | skipping depth =>
      rcases Except.ok.inj hfeed with rfl
      exact ⟨_, rfl, hclauses, hcodes, rfl⟩
  | within w =>
      exact Extends.take ⟨hclauses, hcodes, rfl⟩ (Work.step_alike s s' w (some t))
        (fun _ _ _ _ => rfl) hfeed
  | between =>
      simp only [Progress.feed] at hfeed ⊢
      split at hfeed
      · rename_i hchaining
        rcases Except.ok.inj hfeed with rfl
        exact ⟨_, by rw [if_pos hchaining], hclauses, hcodes, rfl⟩
      · rename_i hchaining
        rw [if_neg hchaining]
        exact Extends.take ⟨hclauses, hcodes, rfl⟩ (Work.step_alike s s' .start (some t))
          (fun _ _ _ _ => rfl) hfeed

/-- Reading a list of tokens. -/
theorem Extends.feedAll (s' : Setting) {ts : List Token} (h : Extends clauses codes longer shorter)
    (hfeed : longer.feedAll s ts = .ok longer') :
    ∃ shorter', shorter.feedAll s' ts = .ok shorter' ∧ Extends clauses codes longer' shorter' := by
  induction ts generalizing longer shorter with
  | nil =>
      rcases Except.ok.inj hfeed with rfl
      exact ⟨shorter, rfl, h⟩
  | cons t ts ih =>
      rw [feedAll_cons] at hfeed
      cases hfirst : longer.feed s t with
      | error n => simp [hfirst, Except.bind] at hfeed
      | ok middle =>
          rw [hfirst] at hfeed
          rcases h.feed s' hfirst with ⟨middle', hmiddle, hextends⟩
          rcases ih hextends hfeed with ⟨shorter', hrest, hextends'⟩
          refine ⟨shorter', ?_, hextends'⟩
          rw [feedAll_cons, hmiddle]
          exact hrest

/-- Coming to the end of the formula. -/
theorem Extends.finish (s' : Setting) (h : Extends clauses codes longer shorter)
    (hfinish : longer.finish s = .ok longer') :
    ∃ shorter', shorter.finish s' = .ok shorter' ∧ Extends clauses codes longer' shorter' := by
  rcases h with ⟨hclauses, hcodes, hstage⟩
  rcases longer with ⟨_, _, stage⟩
  rcases shorter with ⟨_, _, stage'⟩
  obtain rfl : stage = stage' := hstage
  cases stage with
  | skipping _ | between =>
      rcases Except.ok.inj hfinish with rfl
      exact ⟨_, rfl, hclauses, hcodes, rfl⟩
  | within w =>
      exact Extends.take ⟨hclauses, hcodes, rfl⟩ (Work.step_alike s s' w none)
        (fun _ _ _ _ => rfl) hfinish

/-- Outside all delimiters a chaining separator leaves the clauses and diagnostics that the end of
the formula would leave, and a new clause starts behind it. -/
theorem Extends.feed_separator (s' : Setting) {t : Token} (ht : t.Chains)
    (h : Extends clauses codes longer shorter) (hdepth : longer.stage.depth = 0)
    (hfeed : longer.feed s t = .ok longer') :
    longer'.stage = .between ∧ ∃ shorter', shorter.finish s' = .ok shorter' ∧
      longer'.clauses = clauses ++ shorter'.clauses ∧
      longer'.diagnostics.map Diagnostic.code =
        codes ++ shorter'.diagnostics.map Diagnostic.code := by
  have hpayload : t.payload = .separator .chaining := ht
  rcases h with ⟨hclauses, hcodes, hstage⟩
  rcases longer with ⟨_, _, stage⟩
  rcases shorter with ⟨_, _, stage'⟩
  obtain rfl : stage = stage' := hstage
  cases stage with
  | skipping depth =>
      rcases Except.ok.inj hfeed with rfl
      obtain rfl : depth = 0 := hdepth
      exact ⟨by simp [skipToken, hpayload], _, rfl, hclauses, hcodes⟩
  | between =>
      simp only [Progress.feed, hpayload, ↓reduceIte] at hfeed
      rcases Except.ok.inj hfeed with rfl
      exact ⟨rfl, _, rfl, hclauses, hcodes⟩
  | within w =>
      have hlevels : w.levels = [] := List.length_eq_zero_iff.mp hdepth
      have hskip : ∀ clause diagnostic depth, w.step s (some t) = .abandon clause diagnostic depth →
          skipToken depth t = .between := by
        intro clause diagnostic depth hstep
        have htracks := Work.step_tracks (s := s) w (some t)
        rw [hstep] at htracks
        obtain rfl : depth = 0 := htracks.trans hdepth
        simp [skipToken, hpayload]
      obtain ⟨shorter', htake, hextends⟩ := Extends.take ⟨hclauses, hcodes, rfl⟩
        (Work.step_separator_alike s s' ht hlevels) hskip hfeed
      have hbetween : shorter'.stage = .between := by
        rcases Work.step_none_cases s' w with ⟨e, hstep⟩ | ⟨clause, diagnostic, hstep⟩ <;>
          rw [hstep] at htake <;> obtain rfl := Except.ok.inj htake <;> rfl
      exact ⟨hextends.stage_eq.trans hbetween, shorter', htake, hextends.clauses_eq,
        hextends.codes_eq⟩

/-- What was read so far only stands in front of what is read behind it. -/
theorem extends_start (h : longer.stage = .between) :
    Extends longer.clauses (longer.diagnostics.map Diagnostic.code) longer .start :=
  ⟨by simp [start], by simp [start], h⟩

/-- A part of a formula is read like that part alone. -/
theorem Extends.self (progress : Progress) : Extends [] [] progress progress :=
  ⟨rfl, rfl, rfl⟩

end Progress

/-! ## Two parts of a formula -/

/-- Recovery is local: behind tokens whose delimiters match up, whatever else is wrong with them,
a chaining separator starts the formula afresh.  Clauses and codes of diagnostics are those of the
two parts one after the other, wherever the parts end. -/
theorem readClauses_append_separator (p : Profile) (stop stop₁ stop₂ : Span) (A B : List Token)
    (separator : Token) (hA : ∀ t ∈ A, t.Readable) (hB : ∀ t ∈ B, t.Readable)
    (hbalanced : Balanced A) (hseparator : separator.Chains) :
    ∃ whole first second, readClauses ⟨p, stop⟩ (A ++ [separator] ++ B) = .ok whole ∧
      readClauses ⟨p, stop₁⟩ A = .ok first ∧ readClauses ⟨p, stop₂⟩ B = .ok second ∧
      whole.clauses = first.clauses ++ second.clauses ∧
      whole.diagnostics.map Diagnostic.code =
        first.diagnostics.map Diagnostic.code ++ second.diagnostics.map Diagnostic.code := by
  have hreadable : separator.Readable := by
    have hpayload : separator.payload = .separator .chaining := hseparator
    simp [Token.Readable, Token.wholeDigits?, hpayload]
  -- the first part, read on its own and as the front of the whole
  rcases Progress.feedAll_ok (s := ⟨p, stop⟩) .start hA with ⟨front, hfront⟩
  rcases (Progress.Extends.self .start).feedAll ⟨p, stop₁⟩ hfront with ⟨front₁, hfront₁, hextends⟩
  have hdepth : front.stage.depth = 0 := by
    have hcount : ([] ++ A).countP Token.opens =
        ([] ++ A).countP Token.closes + front.stage.depth :=
      Progress.feedAll_depth rfl hbalanced.1 hfront
    simp only [List.nil_append, hbalanced.2] at hcount
    omega
  -- the separator
  rcases Progress.feed_ok (s := ⟨p, stop⟩) front hreadable with ⟨middle, hmiddle⟩
  rcases hextends.feed_separator ⟨p, stop₁⟩ hseparator hdepth hmiddle
    with ⟨hbetween, first, hfirst, hclauses, hcodes⟩
  -- the second part
  rcases Progress.feedAll_ok (s := ⟨p, stop⟩) middle hB with ⟨back, hback⟩
  rcases Progress.finish_ok (s := ⟨p, stop⟩) back with ⟨whole, hwhole⟩
  rcases (Progress.extends_start hbetween).feedAll ⟨p, stop₂⟩ hback with ⟨back₂, hback₂, hextends₂⟩
  rcases hextends₂.finish ⟨p, stop₂⟩ hwhole with ⟨second, hsecond, hend⟩
  refine ⟨whole, first, second, ?_, ?_, ?_, ?_, ?_⟩
  · have hall : Progress.start.feedAll ⟨p, stop⟩ (A ++ [separator] ++ B) = .ok back := by
      rw [List.append_assoc, Progress.feedAll_append, hfront]
      simp only [Except.bind, List.singleton_append, Progress.feedAll_cons, hmiddle]
      exact hback
    rw [readClauses_of_feedAll hall, hwhole]
  · rw [readClauses_of_feedAll hfront₁, hfirst]
  · rw [readClauses_of_feedAll hback₂, hsecond]
  · rw [hend.clauses_eq, hclauses]
    rfl
  · rw [hend.codes_eq, hcodes]
    rfl

/-- The tokens of {lit}`( ] ; 1 2`: in the first part the delimiters do not fit each other, in the
second part an operator is missing. -/
theorem readClauses_two_errors :
    let A : List Token :=
      [⟨.separator (.opening .parenthesis), "(", ⟨0, 1, 1, 1⟩⟩,
        ⟨.separator (.closing .bracket), "]", ⟨2, 3, 1, 3⟩⟩]
    let separator : Token := ⟨.separator .chaining, ";", ⟨4, 5, 1, 5⟩⟩
    let B : List Token :=
      [⟨.number "1", "1", ⟨6, 7, 1, 7⟩⟩, ⟨.number "2", "2", ⟨8, 9, 1, 9⟩⟩]
    ((∀ t ∈ A, t.Readable) ∧ (∀ t ∈ B, t.Readable) ∧ Balanced A ∧ separator.Chains) ∧
      ∃ whole first second,
        readClauses ⟨.dotDecimal, ⟨9, 9, 1, 10⟩⟩ (A ++ [separator] ++ B) = .ok whole ∧
        readClauses ⟨.dotDecimal, ⟨3, 3, 1, 4⟩⟩ A = .ok first ∧
        readClauses ⟨.dotDecimal, ⟨9, 9, 1, 10⟩⟩ B = .ok second ∧
        whole.clauses = first.clauses ++ second.clauses ∧
        whole.diagnostics.map Diagnostic.code =
          first.diagnostics.map Diagnostic.code ++ second.diagnostics.map Diagnostic.code := by
  intro A separator B
  have hA : ∀ t ∈ A, t.Readable := by decide
  have hB : ∀ t ∈ B, t.Readable := by decide
  have hbalanced : Balanced A := by decide
  exact ⟨⟨hA, hB, hbalanced, rfl⟩,
    readClauses_append_separator .dotDecimal _ _ _ A B separator hA hB hbalanced rfl⟩

end FormulaLint
