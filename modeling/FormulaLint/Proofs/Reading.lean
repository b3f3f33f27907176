import FormulaLint.Proofs.Outcomes

/-!
# Reading whole lists of tokens

The one thing that stops the parser is a whole number with too many digits.  Without one it reads
every list of tokens to its end, errors in the clauses included.

Main results:

- Theorem {lit}`Progress.feedAll_ok`: readable tokens are read, whatever they are.
- Theorem {lit}`readClauses_ok`: a formula of readable tokens is read to its end.
-/

namespace FormulaLint

namespace Token

/-- The number of digits of a token that is a whole number. -/
def wholeDigits? (t : Token) : Option Nat :=
  match t.payload with
  | .number text =>
      if text.toList.any (fun c => c == '.' || c == 'e' || c == 'E') then none
      else some text.toList.length
  | _ => none

/-- Whether the value of a token can be taken: a whole number has at most {lit}`maxWholeDigits`
digits. -/
def Readable (t : Token) : Prop :=
  ∀ n ∈ t.wholeDigits?, n ≤ maxWholeDigits

instance (t : Token) : Decidable t.Readable :=
  inferInstanceAs (Decidable (∀ n ∈ t.wholeDigits?, n ≤ maxWholeDigits))

/-- A readable number has a value. -/
theorem Readable.numberValue {t : Token} {text : String} (h : t.Readable)
    (ht : t.payload = .number text) : ∃ value, numberValue text = .ok value := by
  simp only [Readable, wholeDigits?, ht] at h
  unfold FormulaLint.numberValue
  dsimp only
  split
  · exact ⟨_, rfl⟩
  · rename_i hwhole
    rw [if_neg hwhole] at h
    rw [if_neg (Nat.not_lt.mpr (h _ rfl))]
    exact ⟨_, rfl⟩

end Token

namespace Work

/-- A step on a readable token never finds an overlong number. -/
theorem step_ne_overlong {s : Setting} {w : Work} {t : Token} (ht : t.Readable) (digits : Nat) :
    w.step s (some t) ≠ .overlong digits := by
  intro hstep
  have htracks := step_tracks (s := s) w (some t)
  rw [hstep] at htracks
  rcases htracks with ⟨t', text, hlook, hpayload, herror⟩
  rcases Option.some.inj hlook with rfl
  rcases ht.numberValue hpayload with ⟨value, hvalue⟩
  simp [hvalue] at herror

/-- At the end of the formula no number is read and no clause goes on. -/
theorem step_none_cases (s : Setting) (w : Work) :
    (∃ e, w.step s none = .complete e) ∨ ∃ clause diagnostic,
      w.step s none = .abandon clause diagnostic w.depth := by
  have htracks := step_tracks (s := s) w none
  cases hstep : w.step s none with
  | next w' =>
      rw [hstep] at htracks
      rcases htracks with ⟨t, hlook, -⟩
      simp at hlook
  | complete e => exact Or.inl ⟨e, rfl⟩
  | abandon clause diagnostic depth =>
      rw [hstep] at htracks
      obtain rfl : depth = w.depth := htracks
      exact Or.inr ⟨clause, diagnostic, rfl⟩
  | overlong digits =>
      rw [hstep] at htracks
      rcases htracks with ⟨t, _, hlook, -⟩
      simp at hlook

end Work

namespace Progress

variable {s : Setting}

/-- Whatever a step gives is taken up, an overlong number apart. -/
theorem take_ok {progress : Progress} {step : Step} {skip : Nat → Stage}
    (h : ∀ digits, step ≠ .overlong digits) :
    ∃ progress', progress.take step skip = .ok progress' := by
  cases step with
  | next _ | complete _ | abandon _ _ _ => exact ⟨_, rfl⟩
  | overlong digits => exact absurd rfl (h digits)

/-- A readable token is read. -/
theorem feed_ok (progress : Progress) {t : Token} (ht : t.Readable) :
    ∃ progress', progress.feed s t = .ok progress' := by
  unfold feed
  split
  · exact ⟨_, rfl⟩
  · exact take_ok (Work.step_ne_overlong ht)
  · split
    · exact ⟨_, rfl⟩
    · exact take_ok (Work.step_ne_overlong ht)

/-- Reading a first token and then the others. -/
theorem feedAll_cons (progress : Progress) (t : Token) (ts : List Token) :
    progress.feedAll s (t :: ts) =
      (progress.feed s t).bind fun middle => middle.feedAll s ts := by
  simp only [feedAll, List.foldlM_cons]
  rfl

/-- Readable tokens are read, whatever they are. -/
theorem feedAll_ok (progress : Progress) {ts : List Token} (h : ∀ t ∈ ts, t.Readable) :
    ∃ progress', progress.feedAll s ts = .ok progress' := by
  induction ts generalizing progress with
  | nil => exact ⟨progress, rfl⟩
  | cons t ts ih =>
      rcases @feed_ok s progress t (h t (by simp)) with ⟨middle, hmiddle⟩
      rcases ih middle fun t' ht' => h t' (by simp [ht']) with ⟨progress', hrest⟩
      refine ⟨progress', ?_⟩
      rw [feedAll_cons, hmiddle]
      exact hrest

/-- The end of the formula is always read. -/
theorem finish_ok (progress : Progress) : ∃ progress', progress.finish s = .ok progress' := by
  unfold finish
  split
  · rename_i w _
    refine take_ok fun digits => ?_
    rcases Work.step_none_cases s w with ⟨e, hstep⟩ | ⟨clause, diagnostic, hstep⟩ <;> simp [hstep]
  · exact ⟨_, rfl⟩
  · exact ⟨_, rfl⟩

end Progress

/-- Reading a formula is reading its tokens and then its end. -/
theorem readClauses_of_feedAll {s : Setting} {ts : List Token} {progress : Progress}
    (h : Progress.start.feedAll s ts = .ok progress) : readClauses s ts = progress.finish s := by
  unfold readClauses
  rw [h]
  rfl

/-- A formula of readable tokens is read to its end. -/
theorem readClauses_ok {s : Setting} {ts : List Token} (h : ∀ t ∈ ts, t.Readable) :
    ∃ progress, readClauses s ts = .ok progress := by
  rcases @Progress.feedAll_ok s .start ts h with ⟨middle, hmiddle⟩
  rcases @Progress.finish_ok s middle with ⟨progress, hfinish⟩
  exact ⟨progress, by rw [readClauses_of_feedAll hmiddle, hfinish]⟩

end FormulaLint
