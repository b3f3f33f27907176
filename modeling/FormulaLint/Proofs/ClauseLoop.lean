import FormulaLint.Proofs.Grammar.Delimiters
import FormulaLint.Proofs.Grammar.Recovered
import FormulaLint.Proofs.Reading
import Mathlib.Logic.Relation

/-!
# Clause by clause

A formula is read in passes.  Each pass takes up one separator or one clause, and a clause that
cannot be read takes what is skipped behind it along.  No pass leaves all tokens where they were, so
the last one comes to the end of the formula, whatever its tokens are.  Between two passes no
delimiter is open; a clause that is abandoned is abandoned inside the delimiters that its tokens
have left open.

Main results:

- Theorem {lit}`Reading.pass_advances`: a pass takes up a token.
- Theorem {lit}`Reading.loop_eq`: the passes give what reading token by token gives.
- Theorem {lit}`readClauses_advances`: passes, delimiters and the end of every formula.
-/

namespace FormulaLint

/-- Take tokens up into a clause as long as they belong to it.  What comes of the first one that
does not is given with the clause in progress and the tokens that are left. -/
def Work.run (s : Setting) (w : Work) : List Token → Work × List Token × Step
  | [] => (w, [], w.step s none)
  | t :: ts =>
      match w.step s (some t) with
      | .next w' => w'.run s ts
      | step => (w, t :: ts, step)

/-- The clauses and diagnostics so far, the opening tokens of the delimiters that are open, and the
tokens that are left. -/
structure Reading where
  clauses : List Expr
  diagnostics : List Diagnostic
  openings : List Token
  rest : List Token

namespace Reading

/-- Nothing has been read. -/
def start (ts : List Token) : Reading :=
  ⟨[], [], [], ts⟩

/-- Take up what came of a clause.  Behind a clause that is abandoned everything up to the next
separator outside all delimiters is skipped, and the delimiters are forgotten.  A step that goes on
is none that a clause ends with. -/
def take (r : Reading) (w : Work) (rest : List Token) : Step → Except OverlongNumber Reading
  | .complete clause =>
      .ok ⟨r.clauses ++ [clause], r.diagnostics, w.openings ++ r.openings, rest⟩
  | .abandon clause diagnostic _ =>
      .ok ⟨r.clauses ++ clause.toList, r.diagnostics ++ diagnostic.toList, [],
        afterSeparator (w.openings ++ r.openings).length rest⟩
  | .overlong digits => .error ⟨digits⟩
  | .next _ => .ok r

/-- One pass: a separator between clauses, or a clause. -/
def pass (s : Setting) (r : Reading) : Except OverlongNumber Reading :=
  match r.rest with
  | [] => .ok r
  | t :: ts =>
      if t.payload = .separator .chaining then .ok { r with rest := ts }
      else
        let (w, rest, step) := Work.start.run s (t :: ts)
        r.take w rest step

end Reading

/-! ## One clause -/

namespace Work

variable {s : Setting} {w w' : Work} {ts rest : List Token} {step : Step}

/-- What a clause takes up, and what comes of the first token that it does not. -/
theorem run_spec (h : w.run s ts = (w', rest, step)) :
    ∃ consumed, ts = consumed ++ rest ∧ Runs s w consumed w' ∧ step = w'.step s rest.head? ∧
      ∀ w'', step ≠ .next w'' := by
  induction ts generalizing w with
  | nil =>
      obtain ⟨rfl, rfl, rfl⟩ : w = w' ∧ [] = rest ∧ w.step s none = step := by simpa [run] using h
      refine ⟨[], rfl, .nil, rfl, fun w'' hnext => ?_⟩
      rcases step_none_cases s w with ⟨e, hstep⟩ | ⟨clause, diagnostic, hstep⟩ <;>
        simp [hstep] at hnext
  | cons t ts ih =>
      rw [run] at h
      cases hstep : w.step s (some t) with
      | next w₁ =>
          rw [hstep] at h
          rcases ih h with ⟨consumed, rfl, hruns, hend, hstops⟩
          exact ⟨t :: consumed, rfl, .cons hstep hruns, hend, hstops⟩
      | complete _ | abandon _ _ _ | overlong _ =>
          rw [hstep] at h
          obtain ⟨rfl, rfl, rfl⟩ : w = w' ∧ t :: ts = rest ∧ _ = step := by simpa using h
          exact ⟨[], rfl, .nil, hstep.symm, by simp⟩

end Work

/-- What is skipped is at least one token, if there is one. -/
theorem exists_skipped (depth : Nat) (ts : List Token) :
    ∃ front, ts = front ++ afterSeparator depth ts ∧ (ts ≠ [] → front ≠ []) := by
  induction ts generalizing depth with
  | nil => exact ⟨[], rfl, by simp⟩
  | cons t ts ih =>
      rw [afterSeparator]
      split
      · exact ⟨[t], rfl, by simp⟩
      · rcases ih (depth + t.opens.toNat - t.closes.toNat) with ⟨front, hfront, -⟩
        exact ⟨t :: front, congrArg (t :: ·) hfront, by simp⟩

/-! ## One pass -/

namespace Reading

variable {s : Setting} {r r' : Reading}

/-- A pass over a separator. -/
theorem pass_separator {t : Token} {ts : List Token} (hrest : r.rest = t :: ts)
    (ht : t.payload = .separator .chaining) : r.pass s = .ok { r with rest := ts } := by
  simp only [pass, hrest, if_pos ht]

/-- A pass over a clause. -/
theorem pass_clause (s : Setting) {t : Token} {ts : List Token} (hrest : r.rest = t :: ts)
    (ht : t.payload ≠ .separator .chaining) :
    ∃ w consumed rest, r.rest = consumed ++ rest ∧ Work.Runs s Work.start consumed w ∧
      (∀ w', w.step s rest.head? ≠ .next w') ∧
      r.pass s = r.take w rest (w.step s rest.head?) := by
  rcases hrun : Work.start.run s (t :: ts) with ⟨w, rest, step⟩
  rcases Work.run_spec hrun with ⟨consumed, hconsumed, hruns, rfl, hstops⟩
  refine ⟨w, consumed, rest, hrest.trans hconsumed, hruns, hstops, ?_⟩
  simp only [pass, hrest, if_neg ht, hrun]

/-- A pass takes up a token. -/
theorem pass_advances (hne : r.rest ≠ []) (h : r.pass s = .ok r') :
    ∃ front, front ≠ [] ∧ r.rest = front ++ r'.rest := by
  cases hrest : r.rest with
  | nil => exact absurd hrest hne
  | cons t ts =>
      by_cases ht : t.payload = .separator .chaining
      · rw [pass_separator hrest ht] at h
        obtain rfl := Except.ok.inj h
        exact ⟨[t], by simp, rfl⟩
      · rcases pass_clause s hrest ht with ⟨w, consumed, rest, hconsumed, hruns, hstops, hpass⟩
        rw [hpass] at h
        rw [← hrest, hconsumed]
        cases hstep : w.step s rest.head? with
        | next w' => exact absurd hstep (hstops w')
        | complete e =>
            rw [hstep] at h
            obtain rfl := Except.ok.inj h
            refine ⟨consumed, ?_, rfl⟩
            rintro rfl
            -- no clause is complete in front of its first token
            cases hruns
            rw [List.nil_append] at hconsumed
            have htracks := Work.step_tracks (s := s) Work.start rest.head?
            rw [hstep, ← hconsumed, hrest] at htracks
            exact ht (htracks.2 t rfl)
        | abandon clause diagnostic depth =>
            rw [hstep] at h
            obtain rfl := Except.ok.inj h
            rcases exists_skipped (w.openings ++ r.openings).length rest with
              ⟨front, hfront, hfirst⟩
            refine ⟨consumed ++ front, ?_, by rw [List.append_assoc, ← hfront]⟩
            intro hnil
            rcases List.append_eq_nil_iff.mp hnil with ⟨rfl, rfl⟩
            rw [List.nil_append] at hconsumed
            exact hfirst (hconsumed ▸ hne) rfl
        | overlong digits => simp [hstep, take] at h

/-- Fewer tokens are left behind a pass. -/
theorem length_lt_of_pass (hne : r.rest ≠ []) (h : r.pass s = .ok r') :
    r'.rest.length < r.rest.length := by
  rcases pass_advances hne h with ⟨front, hfront, hrest⟩
  rw [hrest, List.length_append]
  have := List.length_pos_iff.mpr hfront
  omega

/-- Read pass by pass to the end of the formula. -/
def loop (s : Setting) (r : Reading) : Except OverlongNumber Reading :=
  if hne : r.rest = [] then .ok r
  else
    match hpass : r.pass s with
    | .ok r' =>
        have := length_lt_of_pass hne hpass
        loop s r'
    | .error n => .error n
termination_by r.rest.length

end Reading

/-! ## Passes and single tokens -/

namespace Progress

variable {s : Setting} {progress : Progress} {t : Token} {ts rest : List Token} {w w' : Work}
  {clauses : List Expr} {diagnostics : List Diagnostic}

/-- Read some tokens and then the end of the formula. -/
def readOn (s : Setting) (progress : Progress) (ts : List Token) :
    Except OverlongNumber Progress :=
  (progress.feedAll s ts).bind fun middle => middle.finish s

theorem readOn_nil : progress.readOn s [] = progress.finish s :=
  rfl

theorem readOn_cons :
    progress.readOn s (t :: ts) = (progress.feed s t).bind fun middle => middle.readOn s ts := by
  rw [readOn, feedAll_cons]
  cases progress.feed s t <;> rfl

/-- A formula that was read to its end. -/
def done (progress : Progress) : Reading :=
  ⟨progress.clauses, progress.diagnostics, [], []⟩

/-- Skipping goes on between clauses behind the separator, or counts the delimiter of the token. -/
theorem skipToken_eq (depth : Nat) (t : Token) :
    skipToken depth t =
      if t.payload = .separator .chaining ∧ depth = 0 then .between
      else .skipping (depth + t.opens.toNat - t.closes.toNat) := by
  unfold skipToken Token.opens Token.closes
  split
  · simp [*]
  · simp [*]
  · by_cases hdepth : depth = 0 <;> simp [*]
  · rename_i hchaining
    rw [if_neg fun h => hchaining h.1]
    simp [*]

/-- Skipping leads to what is left behind the separator. -/
theorem readOn_skipping (depth : Nat) :
    (readOn s ⟨clauses, diagnostics, .skipping depth⟩ ts).map done =
      (readOn s ⟨clauses, diagnostics, .between⟩ (afterSeparator depth ts)).map done := by
  induction ts generalizing depth with
  | nil => rfl
  | cons t ts ih =>
      have hfeed : feed s ⟨clauses, diagnostics, .skipping depth⟩ t =
          .ok ⟨clauses, diagnostics, skipToken depth t⟩ := rfl
      rw [readOn_cons, hfeed, skipToken_eq, afterSeparator]
      by_cases hends : t.payload = .separator .chaining ∧ depth = 0
      · rw [if_pos hends, if_pos hends]
        rfl
      · rw [if_neg hends, if_neg hends]
        exact ih _

/-- The tokens of a clause are read one by one. -/
theorem readOn_runs (h : Work.Runs s w ts w') :
    readOn s ⟨clauses, diagnostics, .within w⟩ (ts ++ rest) =
      readOn s ⟨clauses, diagnostics, .within w'⟩ rest := by
  induction h with
  | nil => rfl
  | cons hstep _ ih =>
      rw [List.cons_append, readOn_cons]
      simp only [feed, hstep, take]
      exact ih

/-- A clause starts with a token that does not separate clauses. -/
theorem readOn_between (ht : t.payload ≠ .separator .chaining) :
    readOn s ⟨clauses, diagnostics, .between⟩ (t :: ts) =
      readOn s ⟨clauses, diagnostics, .within Work.start⟩ (t :: ts) := by
  rw [readOn_cons, readOn_cons]
  simp only [feed, if_neg ht]
  cases Work.start.step s (some t) <;> rfl

/-- Separators between clauses are left out. -/
theorem readOn_separator (ht : t.payload = .separator .chaining) :
    readOn s ⟨clauses, diagnostics, .between⟩ (t :: ts) =
      readOn s ⟨clauses, diagnostics, .between⟩ ts := by
  rw [readOn_cons]
  simp only [feed, if_pos ht]
  rfl

/-- Behind a clause that is complete reading goes on between clauses. -/
theorem readOn_complete {e : Expr} (h : w.step s rest.head? = .complete e) :
    readOn s ⟨clauses, diagnostics, .within w⟩ rest =
      readOn s ⟨clauses ++ [e], diagnostics, .between⟩ rest := by
  cases rest with
  | nil =>
      rw [readOn_nil, readOn_nil]
      simp only [finish, take, show w.step s none = .complete e from h]
  | cons t ts =>
      have htracks := Work.step_tracks (s := s) w (some t)
      rw [show w.step s (some t) = .complete e from h] at htracks
      rw [readOn_separator (htracks.2 t rfl), readOn_cons]
      simp only [feed, take, show w.step s (some t) = .complete e from h, Except.bind]

/-- Behind a clause that is abandoned reading goes on where skipping leads to. -/
theorem readOn_abandon {clause : Option Expr} {diagnostic : Option Diagnostic} {depth : Nat}
    (h : w.step s rest.head? = .abandon clause diagnostic depth) :
    (readOn s ⟨clauses, diagnostics, .within w⟩ rest).map done =
      (readOn s ⟨clauses ++ clause.toList, diagnostics ++ diagnostic.toList, .between⟩
        (afterSeparator depth rest)).map done := by
  cases rest with
  | nil =>
      rw [readOn_nil]
      simp only [finish, take, show w.step s none = .abandon clause diagnostic depth from h]
      rfl
  | cons t ts =>
      rw [← readOn_skipping, readOn_cons, readOn_cons]
      simp only [feed, take, show w.step s (some t) = .abandon clause diagnostic depth from h]

/-- A number with too many digits ends everything. -/
theorem readOn_overlong {digits : Nat} (h : w.step s rest.head? = .overlong digits) :
    readOn s ⟨clauses, diagnostics, .within w⟩ rest = .error ⟨digits⟩ := by
  cases rest with
  | nil =>
      rw [readOn_nil]
      simp only [finish, take, show w.step s none = .overlong digits from h]
  | cons t ts =>
      rw [readOn_cons]
      simp only [feed, take, show w.step s (some t) = .overlong digits from h]
      rfl

end Progress

namespace Reading

variable {s : Setting} {r r' : Reading}

/-- What reading token by token gives for what is left. -/
def readOn (s : Setting) (r : Reading) : Except OverlongNumber Reading :=
  (Progress.readOn s ⟨r.clauses, r.diagnostics, .between⟩ r.rest).map Progress.done

/-- Between two passes no delimiter is open. -/
theorem openings_of_pass (hopenings : r.openings = []) (h : r.pass s = .ok r') :
    r'.openings = [] := by
  cases hrest : r.rest with
  | nil =>
      simp only [pass, hrest] at h
      obtain rfl := Except.ok.inj h
      exact hopenings
  | cons t ts =>
      by_cases ht : t.payload = .separator .chaining
      · rw [pass_separator hrest ht] at h
        obtain rfl := Except.ok.inj h
        exact hopenings
      · rcases pass_clause s hrest ht with ⟨w, consumed, rest, -, -, hstops, hpass⟩
        rw [hpass] at h
        have htracks := Work.step_tracks (s := s) w rest.head?
        cases hstep : w.step s rest.head? with
        | next w' => exact absurd hstep (hstops w')
        | complete e =>
            rw [hstep] at h htracks
            obtain rfl := Except.ok.inj h
            simp [hopenings, Work.openings, htracks.1]
        | abandon clause diagnostic depth =>
            rw [hstep] at h
            obtain rfl := Except.ok.inj h
            rfl
        | overlong digits => simp [hstep, take] at h

/-- What a pass leaves is what reading token by token leaves. -/
theorem readOn_pass (hopenings : r.openings = []) :
    r.readOn s = (r.pass s).bind fun r' => r'.readOn s := by
  cases hrest : r.rest with
  | nil => simp only [pass, hrest, Except.bind]
  | cons t ts =>
      by_cases ht : t.payload = .separator .chaining
      · rw [pass_separator hrest ht, readOn, hrest, Progress.readOn_separator ht]
        rfl
      · rcases pass_clause s hrest ht with ⟨w, consumed, rest, hconsumed, hruns, hstops, hpass⟩
        rw [hpass, readOn, hrest, Progress.readOn_between ht, ← hrest, hconsumed,
          Progress.readOn_runs hruns]
        cases hstep : w.step s rest.head? with
        | next w' => exact absurd hstep (hstops w')
        | complete e =>
            rw [Progress.readOn_complete hstep]
            rfl
        | abandon clause diagnostic depth =>
            have htracks := Work.step_tracks (s := s) w rest.head?
            rw [hstep] at htracks
            have hdepth : depth = (w.openings ++ r.openings).length := by
              rw [hopenings, List.append_nil, Work.length_openings]
              exact htracks
            rw [Progress.readOn_abandon hstep, hdepth]
            rfl
        | overlong digits =>
            rw [Progress.readOn_overlong hstep]
            rfl

/-- The passes give what reading token by token gives. -/
theorem loop_eq (hopenings : r.openings = []) : r.loop s = r.readOn s := by
  fun_induction loop s r with
  | case1 r hnil =>
      rw [readOn, hnil]
      rcases r with ⟨clauses, diagnostics, openings, rest⟩
      obtain rfl : openings = [] := hopenings
      obtain rfl : rest = [] := hnil
      rfl
  | case2 r hne r' hpass _ ih =>
      rw [readOn_pass hopenings, hpass]
      exact ih (openings_of_pass hopenings hpass)
  | case3 r hne n hpass =>
      rw [readOn_pass hopenings, hpass]
      rfl

/-! ## All passes -/

/-- One pass after another. -/
def Passes (s : Setting) (r r' : Reading) : Prop :=
  r.rest ≠ [] ∧ r.pass s = .ok r'

/-- A pass over readable tokens succeeds. -/
theorem pass_ok (s : Setting) (h : ∀ t ∈ r.rest, t.Readable) : ∃ r', r.pass s = .ok r' := by
  cases hrest : r.rest with
  | nil =>
      refine ⟨r, ?_⟩
      simp only [pass, hrest]
  | cons t ts =>
      by_cases ht : t.payload = .separator .chaining
      · exact ⟨_, pass_separator hrest ht⟩
      · rcases pass_clause s hrest ht with ⟨w, consumed, rest, hconsumed, -, -, hpass⟩
        rw [hpass]
        cases hstep : w.step s rest.head? with
        | next _ | complete _ | abandon _ _ _ => exact ⟨_, rfl⟩
        | overlong digits =>
            cases rest with
            | nil =>
                rcases Work.step_none_cases s w with ⟨e, hend⟩ | ⟨clause, diagnostic, hend⟩ <;>
                  exact absurd (hend.symm.trans hstep) (by simp)
            | cons t' rest =>
                have ht' : t'.Readable := h t' (by simp [hconsumed])
                exact absurd hstep (Work.step_ne_overlong ht' digits)

/-- At every pass no delimiter is open, and the tokens that are left stand at the end of the
formula. -/
theorem passes_invariant {ts : List Token}
    (h : Relation.ReflTransGen (Passes s) (Reading.start ts) r) :
    r.openings = [] ∧ r.rest <:+ ts := by
  induction h with
  | refl => exact ⟨rfl, List.suffix_refl ts⟩
  | tail _ hpass ih =>
      refine ⟨openings_of_pass ih.1 hpass.2, ?_⟩
      rcases pass_advances hpass.1 hpass.2 with ⟨front, -, hrest⟩
      exact List.IsSuffix.trans ⟨front, hrest.symm⟩ ih.2

end Reading

/-- Reading always advances.  A formula of readable tokens is read pass by pass to its end, and this
gives what reading token by token gives.  At the start of every pass no delimiter is open.  As long
as there are tokens, a pass takes up one or more of them.  A clause that is abandoned is abandoned
inside exactly those delimiters that its tokens have opened and no closing one of their kind has
matched; so many are counted when the rest of it is skipped. -/
theorem readClauses_advances (s : Setting) (ts : List Token) (h : ∀ t ∈ ts, t.Readable) :
    ∃ progress, readClauses s ts = .ok progress ∧
      (Reading.start ts).loop s = .ok ⟨progress.clauses, progress.diagnostics, [], []⟩ ∧
      ∀ r, Relation.ReflTransGen (Reading.Passes s) (Reading.start ts) r →
        r.openings = [] ∧
        (r.rest ≠ [] → ∃ r' front, r.pass s = .ok r' ∧ front ≠ [] ∧ r.rest = front ++ r'.rest) ∧
        ∀ w rest clause diagnostic depth,
          Work.start.run s r.rest = (w, rest, .abandon clause diagnostic depth) →
          ∃ consumed, r.rest = consumed ++ rest ∧
            unmatched? consumed = some (w.openings ++ r.openings) ∧
            depth = (w.openings ++ r.openings).length := by
  rcases readClauses_ok (s := s) h with ⟨progress, hread⟩
  refine ⟨progress, hread, ?_, fun r hr => ?_⟩
  · rw [Reading.loop_eq rfl]
    change (readClauses s ts).map Progress.done = _
    rw [hread]
    rfl
  · rcases Reading.passes_invariant hr with ⟨hopenings, hsuffix⟩
    refine ⟨hopenings, fun hne => ?_, ?_⟩
    · rcases Reading.pass_ok s fun t ht => h t (hsuffix.subset ht) with ⟨r', hpass⟩
      rcases Reading.pass_advances hne hpass with ⟨front, hfront, hrest⟩
      exact ⟨r', front, hpass, hfront, hrest⟩
    · intro w rest clause diagnostic depth hrun
      rcases Work.run_spec hrun with ⟨consumed, hconsumed, hruns, hstep, -⟩
      have htracks := Work.step_tracks (s := s) w rest.head?
      rw [← hstep] at htracks
      rw [hopenings, List.append_nil]
      exact ⟨consumed, hconsumed, hruns.unmatched?_eq, htracks.trans (Work.length_openings w).symm⟩

/-- In {lit}`( [ 1 ) ]; 2` the parenthesis does not close the bracket.  Two delimiters are open
there, so the first clause is skipped up to the separator behind two closing ones, and the second
clause starts with none open. -/
theorem readClauses_advances_unclosed :
    let two : Token := ⟨.number "2", "2", ⟨8, 9, 1, 9⟩⟩
    let ts : List Token :=
      [⟨.separator (.opening .parenthesis), "(", ⟨0, 1, 1, 1⟩⟩,
        ⟨.separator (.opening .bracket), "[", ⟨1, 2, 1, 2⟩⟩, ⟨.number "1", "1", ⟨3, 4, 1, 4⟩⟩,
        ⟨.separator (.closing .parenthesis), ")", ⟨4, 5, 1, 5⟩⟩,
        ⟨.separator (.closing .bracket), "]", ⟨5, 6, 1, 6⟩⟩,
        ⟨.separator .chaining, ";", ⟨6, 7, 1, 7⟩⟩, two]
    let s : Setting := ⟨.dotDecimal, ⟨9, 9, 1, 10⟩⟩
    ∃ progress, readClauses s ts = .ok progress ∧
      (Reading.start ts).loop s = .ok ⟨progress.clauses, progress.diagnostics, [], []⟩ ∧
      ∃ r, (Reading.start ts).pass s = .ok r ∧ r.openings = [] ∧ r.rest = [two] := by
  intro two ts s
  have hreadable : ∀ t ∈ ts, t.Readable := by decide
  rcases readClauses_advances s ts hreadable with ⟨progress, hread, hloop, hpasses⟩
  have hne : (Reading.start ts).rest ≠ [] := by simp [Reading.start, ts]
  have hpass : ∃ r, (Reading.start ts).pass s = .ok r ∧ r.rest = [two] := ⟨_, rfl, rfl⟩
  rcases hpass with ⟨r, hpass, hrest⟩
  exact ⟨progress, hread, hloop, r, hpass, (hpasses r (.single ⟨hne, hpass⟩)).1, hrest⟩

end FormulaLint
