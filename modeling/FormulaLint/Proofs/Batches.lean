import FormulaLint.Analysis.Formula
import FormulaLint.Proofs.Lexing.Numbers
import FormulaLint.Proofs.Reading
import FormulaLint.Proofs.Sorting
import Mathlib.Data.List.Perm.Basic

/-!
# Batches of formulas

The formulas of a batch are analysed independently of each other.  The analyses stand in the order of
their keys, and so do all their diagnostics; as long as different formulas have different keys, neither
list depends on the order of the formulas, nor on how many of them are analysed at a time.

Main results:

- Theorem {lit}`exists_analysis`: a formula that is not too long can be analysed, whatever it holds.
- Theorems {lit}`mapM_eq_ok_iff` and {lit}`exists_mapM_iff`: a series of tasks that all succeed.
- Theorem {lit}`mergeDiagnostics_eq_of_perm`: the diagnostics of a batch in any order.
- Theorem {lit}`analyzeBatch_perm`: a batch in any order.
-/

namespace FormulaLint

/-- A series of tasks succeeds exactly when each of them does. -/
theorem mapM_eq_ok_iff {ε α β : Type} {f : α → Except ε β} {as : List α} {bs : List β} :
    as.mapM f = .ok bs ↔ List.Forall₂ (fun a b => f a = .ok b) as bs := by
  induction as generalizing bs with
  | nil =>
      rw [List.mapM_nil, List.forall₂_nil_left_iff]
      exact ⟨fun h => (Except.ok.inj h).symm, fun h => by rw [h]; rfl⟩
  | cons a as ih =>
      rw [List.mapM_cons]
      constructor
      · intro h
        cases ha : f a with
        | error e => simp [ha, bind, Except.bind] at h
        | ok b =>
            cases has : as.mapM f with
            | error e => simp [ha, has, bind, Except.bind] at h
            | ok rest =>
                simp only [ha, has, bind, Except.bind, pure, Except.pure, Except.ok.injEq] at h
                exact h ▸ .cons ha (ih.mp has)
      · rintro (_ | ⟨ha, hrest⟩)
        rw [ha, ih.mpr hrest]
        rfl

/-- A series of tasks has a result exactly when each of them has one. -/
theorem exists_mapM_iff {ε α β : Type} {f : α → Except ε β} {as : List α} :
    (∃ bs, as.mapM f = .ok bs) ↔ ∀ a ∈ as, ∃ b, f a = .ok b := by
  simp only [mapM_eq_ok_iff]
  induction as with
  | nil => exact ⟨fun _ _ ha => absurd ha List.not_mem_nil, fun _ => ⟨[], .nil⟩⟩
  | cons a as ih =>
      rw [List.forall_mem_cons, ← ih]
      constructor
      · rintro ⟨_, _ | ⟨ha, hrest⟩⟩
        exact ⟨⟨_, ha⟩, _, hrest⟩
      · rintro ⟨⟨b, ha⟩, bs, hrest⟩
        exact ⟨b :: bs, .cons ha hrest⟩

/-! ## One formula -/

variable {s : AnalysisSetting}

/-- An analysis has the key of its formula. -/
theorem key_of_analyze {request : FormulaRequest} {a : Analysis} (h : analyze s request = .ok a) :
    a.key = request.key := by
  unfold analyze at h
  cases hparsed : parse s.profile request.text request.placement with
  | error number => simp [hparsed, bind, Except.bind] at h
  | ok parsed =>
      simp only [hparsed, bind, Except.bind, pure, Except.pure, Except.ok.injEq] at h
      rw [← h]

/-- The analyses of formulas have the keys of the formulas. -/
theorem map_key_of_analyze {requests : List FormulaRequest} {analyses : List Analysis}
    (h : List.Forall₂ (fun request a => analyze s request = .ok a) requests analyses) :
    analyses.map (·.key) = requests.map (·.key) := by
  induction h with
  | nil => rfl
  | cons ha _ ih => rw [List.map_cons, List.map_cons, key_of_analyze ha, ih]

/-- A formula of readable tokens can be parsed. -/
theorem exists_parsed {p : Profile} {text : String} {placement : Placement}
    (h : ∀ t ∈ (lex p (stripMarker text.toList placement).1
      (stripMarker text.toList placement).2).tokens, t.Readable) :
    ∃ parsed, parse p text placement = .ok parsed := by
  unfold parse
  cases hbody : stripMarker text.toList placement with
  | mk body place =>
      rw [hbody] at h
      rcases readClauses_ok (s := ⟨p, (lex p body place).stop⟩) h with ⟨progress, hprogress⟩
      dsimp only
      rw [hprogress]
      exact ⟨_, rfl⟩

/-- The tokens of a text with no more characters than a number may have digits are readable. -/
theorem readable_of_length_le {p : Profile} {text : List Char} {placement : Placement} {t : Token}
    (ht : t ∈ (lex p text placement).tokens) (hlength : text.length ≤ maxWholeDigits) :
    t.Readable := by
  intro n hn
  unfold Token.wholeDigits? at hn
  split at hn
  · rename_i number hnumber
    split at hn
    · simp at hn
    · obtain rfl := Option.some.inj hn
      exact Nat.le_trans (length_of_mem_lex ht hnumber) hlength
  · simp at hn

/-- A formula that has no more characters than a number may have digits can be analysed, whatever it
holds. -/
theorem exists_analysis {request : FormulaRequest}
    (hlength : request.text.toList.length ≤ maxWholeDigits) :
    ∃ a, analyze s request = .ok a := by
  have hbody : (stripMarker request.text.toList request.placement).1.length ≤ maxWholeDigits := by
    refine Nat.le_trans ?_ hlength
    unfold stripMarker
    split <;> simp [*]
  rcases exists_parsed (p := s.profile) fun t ht => readable_of_length_le ht hbody
    with ⟨parsed, hparsed⟩
  unfold analyze
  rw [hparsed]
  exact ⟨_, rfl⟩

/-! ## The order of the diagnostics -/

/-- Diagnostics of formulas in order have their keys in order. -/
theorem before_of_keyedBefore {a b : FormulaKey × Diagnostic} (h : keyedBefore a b = true) :
    a.1.before b.1 = true := by
  unfold keyedBefore at h
  split at h
  · rename_i hkey
    simpa [hkey] using FormulaKey.before_total b.1 b.1
  · exact h

/-- The order of the diagnostics of a batch is transitive. -/
theorem keyedBefore_trans {a b c : FormulaKey × Diagnostic} (hab : keyedBefore a b = true)
    (hbc : keyedBefore b c = true) : keyedBefore a c = true :=
  Text.firstDifference_trans FormulaKey.before_antisymm FormulaKey.before_trans hab hbc
    (Diagnostic.before_trans _ _ _)

/-- Any two diagnostics of a batch are ordered. -/
theorem keyedBefore_total (a b : FormulaKey × Diagnostic) :
    (keyedBefore a b || keyedBefore b a) = true := by
  unfold keyedBefore
  by_cases h : a.1 = b.1
  · simpa [h] using Diagnostic.before_total a.2 b.2
  · have h' : ¬ b.1 = a.1 := fun e => h e.symm
    simpa [h, h'] using FormulaKey.before_total a.1 b.1

/-- The diagnostics of an analysis, each with the key of the formula. -/
def Analysis.keyed (a : Analysis) : List (FormulaKey × Diagnostic) :=
  a.diagnostics.map fun d => (a.key, d)

/-- The diagnostics under one key are those of the analysis with this key. -/
theorem filter_keyed (analyses : List Analysis) (key : FormulaKey) :
    ((analyses.flatMap Analysis.keyed).filter fun d => d.1 = key) =
      (analyses.filter fun a => a.key = key).flatMap Analysis.keyed := by
  induction analyses with
  | nil => rfl
  | cons a rest ih =>
      rw [List.flatMap_cons, List.filter_append, ih, List.filter_cons]
      by_cases hkey : a.key = key
      · simp [Analysis.keyed, List.filter_map, Function.comp_def, hkey]
      · simp [Analysis.keyed, List.filter_map, Function.comp_def, hkey]

/-- The diagnostics of a batch stand in order. -/
theorem mergeDiagnostics_pairwise (analyses : List Analysis) :
    (mergeDiagnostics analyses).Pairwise fun a b => keyedBefore a b = true :=
  List.pairwise_mergeSort (fun a b c => @keyedBefore_trans a b c) keyedBefore_total _

/-- The diagnostics of a batch do not depend on the order of the analyses, if their keys differ. -/
theorem mergeDiagnostics_eq_of_perm {analyses analyses' : List Analysis}
    (hkeys : (analyses.map (·.key)).Nodup) (h : analyses'.Perm analyses) :
    mergeDiagnostics analyses' = mergeDiagnostics analyses := by
  have hsorted : ∀ l : List Analysis, (mergeDiagnostics l).Pairwise
      fun a b => a.1.before b.1 = true := fun l =>
    (mergeDiagnostics_pairwise l).imp fun hab => before_of_keyedBefore hab
  refine eq_of_filter_key_eq FormulaKey.before_antisymm (hsorted _) (hsorted _) fun key => ?_
  have hown : ∀ l : List Analysis, ((mergeDiagnostics l).filter fun d => d.1 = key) =
      ((l.filter fun a => a.key = key).flatMap Analysis.keyed).mergeSort keyedBefore := fun l => by
    rw [← filter_keyed]
    exact filter_mergeSort (fun a b c => @keyedBefore_trans a b c) keyedBefore_total _ _
  rw [hown, hown, filter_key_eq_of_perm hkeys h]

/-! ## A batch in any order -/

/-- Analyses that were put in order stand in the order of their keys. -/
theorem sortAnalyses_pairwise (analyses : List Analysis) :
    (sortAnalyses analyses).Pairwise fun a b => a.key.before b.key = true :=
  List.pairwise_mergeSort (fun a b c => @FormulaKey.before_trans a.key b.key c.key)
    (fun a b => FormulaKey.before_total a.key b.key) analyses

/-- A batch with a positive number of workers gives the analyses in the order of their keys. -/
theorem analyzeBatch_eq {workers : Option Int} {requests : List FormulaRequest}
    (hworkers : ∀ n ∈ workers, 0 < n) :
    analyzeBatch s workers requests =
      ((requests.mapM (analyze s)).map sortAnalyses).mapError .overlong := by
  have hpositive : workers.any (· ≤ 0) = false := by
    cases workers with
    | none => rfl
    | some n => simpa using hworkers n rfl
  rw [analyzeBatch, hpositive, if_neg Bool.false_ne_true]
  rfl

/-- A batch with a positive number of workers has a result exactly when each formula of it can be
analysed. -/
theorem exists_analyzeBatch_iff {workers : Option Int} {requests : List FormulaRequest}
    (hworkers : ∀ n ∈ workers, 0 < n) :
    (∃ analyses, analyzeBatch s workers requests = .ok analyses) ↔
      ∀ request ∈ requests, ∃ a, analyze s request = .ok a := by
  rw [analyzeBatch_eq hworkers, ← exists_mapM_iff]
  cases requests.mapM (analyze s) <;> simp [Except.map, Except.mapError]

/-- A batch of formulas with different keys, all of which can be analysed.  In any order, and with any
number of workers, it gives the same analyses, one for each formula, in the order of the keys.  The
diagnostics of all of them, merged in any order, are the same list: every diagnostic with its key, in
the order of the keys and then of the places. -/
theorem analyzeBatch_perm {workers workers' : Option Int} {requests requests' : List FormulaRequest}
    (hworkers : ∀ n ∈ workers, 0 < n) (hworkers' : ∀ n ∈ workers', 0 < n)
    (hkeys : (requests.map (·.key)).Nodup)
    (hanalysed : ∀ request ∈ requests, ∃ a, analyze s request = .ok a)
    (hperm : requests'.Perm requests) :
    ∃ analyses, analyzeBatch s workers requests = .ok analyses ∧
      analyzeBatch s workers' requests' = .ok analyses ∧
      (analyses.Pairwise fun a b => a.key.before b.key = true) ∧
      (∃ own, List.Forall₂ (fun request a => analyze s request = .ok a ∧ a.key = request.key)
        requests own ∧ analyses.Perm own) ∧
      (∀ analyses', analyses'.Perm analyses →
        mergeDiagnostics analyses' = mergeDiagnostics analyses) ∧
      (mergeDiagnostics analyses).Perm
        (analyses.flatMap fun a => a.diagnostics.map fun d => (a.key, d)) ∧
      (mergeDiagnostics analyses).Pairwise fun a b => keyedBefore a b = true := by
  rcases exists_mapM_iff.mpr hanalysed with ⟨own, hmapM⟩
  have hown := mapM_eq_ok_iff.mp hmapM
  rcases List.perm_comp_forall₂ hperm hown with ⟨own', hown', hownPerm⟩
  have hkeysOwn : (own.map (·.key)).Nodup := map_key_of_analyze hown ▸ hkeys
  have hsort : sortAnalyses own' = sortAnalyses own :=
    mergeSort_eq_of_perm FormulaKey.before_antisymm FormulaKey.before_trans
      FormulaKey.before_total hkeysOwn hownPerm
  have hsortPerm : (sortAnalyses own).Perm own := List.mergeSort_perm ..
  have hbatch : analyzeBatch s workers requests = .ok (sortAnalyses own) := by
    rw [analyzeBatch_eq hworkers, hmapM]
    rfl
  have hbatch' : analyzeBatch s workers' requests' = .ok (sortAnalyses own) := by
    rw [analyzeBatch_eq hworkers', mapM_eq_ok_iff.mpr hown', ← hsort]
    rfl
  exact ⟨sortAnalyses own, hbatch, hbatch', sortAnalyses_pairwise own,
    ⟨own, hown.imp fun _ _ ha => ⟨ha, key_of_analyze ha⟩, hsortPerm⟩,
    fun _ => mergeDiagnostics_eq_of_perm ((hsortPerm.map _).nodup_iff.mpr hkeysOwn),
    List.mergeSort_perm _ keyedBefore, mergeDiagnostics_pairwise _⟩

/-- Two formulas of one control, one of them with an error. -/
def twoFormulas : List FormulaRequest :=
  [{ key := ⟨"app.yaml", "Label1", "Text"⟩, text := "=1 +" },
    { key := ⟨"app.yaml", "Label1", "Fill"⟩, text := "=Color.White" }]

/-- What is shared by formulas that know of nothing else. -/
def bareSetting : AnalysisSetting :=
  ⟨.dotDecimal, .empty, .empty⟩

/-- The two formulas can be analysed together in either order. -/
theorem twoFormulas_perm : ∃ analyses,
    analyzeBatch bareSetting none twoFormulas = .ok analyses ∧
      analyzeBatch bareSetting (some 2) twoFormulas.reverse = .ok analyses ∧
      mergeDiagnostics analyses.reverse = mergeDiagnostics analyses := by
  have hanalysed : ∀ request ∈ twoFormulas, ∃ a, analyze bareSetting request = .ok a := by
    intro request hrequest
    refine exists_analysis ?_
    revert request
    decide
  have hany : ∀ n ∈ (none : Option Int), 0 < n := by simp
  have htwo : ∀ n ∈ (some 2 : Option Int), 0 < n := by simp
  rcases analyzeBatch_perm hany htwo (by decide) hanalysed (List.reverse_perm twoFormulas)
    with ⟨analyses, hbatch, hbatch', -, -, hmerge, -, -⟩
  exact ⟨analyses, hbatch, hbatch', hmerge _ (List.reverse_perm analyses)⟩

end FormulaLint
