import FormulaLint.Proofs.Grammar.Beginnings

/-!
# Delimiters that match

What stands between the delimiters of an expression is closed before they are.  So the tokens of a
phrase leave no delimiter open, and of the tokens at the beginning of an expression every closing
delimiter matches the innermost one that is open in front of it.  The delimiters that are left
open are those that the parser keeps.

Main results:

- Theorem {lit}`Derives.paired`: a phrase leaves no delimiter open.
- Theorem {lit}`Work.Runs.unmatched?_eq`: what a clause in progress has open are the delimiters
  that no token has closed.
-/

namespace FormulaLint

/-! ## Matching delimiters -/

/-- The opening tokens of the delimiters that are open behind a token, from the inside out: an
opening token is one more, and a closing one takes away the innermost one, which must be of its
kind. -/
def Token.nest? (opened : List Token) (t : Token) : Option (List Token) :=
  match t.payload with
  | .separator (.opening _) => some (t :: opened)
  | .separator (.closing delimiter) =>
      match opened with
      | opening :: outer =>
          if opening.payload = .separator (.opening delimiter) then some outer else none
      | [] => none
  | _ => some opened

/-- The opening tokens that no closing one of their kind has matched, from the inside out.  There
are none to tell when a closing token does not match. -/
def unmatched? (ts : List Token) : Option (List Token) :=
  ts.foldlM Token.nest? []

/-- Whether all delimiters of some tokens match, wherever the tokens stand. -/
def Paired (ts : List Token) : Prop :=
  ∀ opened, ts.foldlM Token.nest? opened = some opened

/-- Whether a token is no delimiter. -/
def Token.Plain (t : Token) : Prop :=
  ∀ opened, t.nest? opened = some opened

section

variable {t opening closing : Token} {ts ts' : List Token} {d : Delimiter}

theorem paired_nil : Paired [] :=
  fun _ => rfl

/-- Paired tokens behind each other are paired. -/
theorem Paired.append (h : Paired ts) (h' : Paired ts') : Paired (ts ++ ts') := by
  intro opened
  rw [List.foldlM_append, h opened]
  exact h' opened

/-- A token that is no delimiter in front of paired ones. -/
theorem Paired.cons (ht : t.Plain) (h : Paired ts) : Paired (t :: ts) := by
  intro opened
  rw [List.foldlM_cons, ht opened]
  exact h opened

/-- A token that is no delimiter. -/
theorem paired_plain (ht : t.Plain) : Paired [t] :=
  paired_nil.cons ht

/-- Paired tokens between delimiters of one kind. -/
theorem Paired.enclose (hopening : opening.Opens d) (h : Paired ts)
    (hclosing : closing.Closes d) : Paired (opening :: (ts ++ [closing])) := by
  have hopened : opening.payload = .separator (.opening d) := hopening
  have hclosed : closing.payload = .separator (.closing d) := hclosing
  intro opened
  have hfirst : opening.nest? opened = some (opening :: opened) := by
    simp [Token.nest?, hopened]
  have hlast : closing.nest? (opening :: opened) = some opened := by
    simp [Token.nest?, hopened, hclosed]
  rw [List.foldlM_cons, hfirst]
  change (ts ++ [closing]).foldlM Token.nest? (opening :: opened) = _
  rw [List.foldlM_append, h (opening :: opened)]
  change [closing].foldlM Token.nest? (opening :: opened) = _
  rw [List.foldlM_cons, hlast]
  rfl

/-- A token by whose payload it is no delimiter. -/
theorem plain_of_payload (hopening : ∀ d, t.payload ≠ .separator (.opening d))
    (hclosing : ∀ d, t.payload ≠ .separator (.closing d)) : t.Plain := by
  intro opened
  unfold Token.nest?
  split
  · rename_i d heq
    exact absurd heq (hopening d)
  · rename_i d heq
    exact absurd heq (hclosing d)
  · rfl

/-- A name is no delimiter. -/
theorem plain_of_identifier {name : String} {quoted : Bool}
    (ht : t.payload = .identifier name quoted) : t.Plain :=
  plain_of_payload (by simp [ht]) (by simp [ht])

/-- An operator is no delimiter. -/
theorem plain_of_operator {op : Operator} (ht : t.payload = .operator op) : t.Plain :=
  plain_of_payload (by simp [ht]) (by simp [ht])

/-- A colon is no delimiter. -/
theorem plain_of_colon (ht : t.payload = .separator .colon) : t.Plain :=
  plain_of_payload (by simp [ht]) (by simp [ht])

theorem Token.Chains.plain (ht : t.Chains) : t.Plain := by
  have hpayload : t.payload = .separator .chaining := ht
  exact plain_of_payload (by simp [hpayload]) (by simp [hpayload])

theorem Token.Lists.plain (ht : t.Lists) : t.Plain := by
  have hpayload : t.payload = .separator .list := ht
  exact plain_of_payload (by simp [hpayload]) (by simp [hpayload])

/-- A literal is no delimiter. -/
theorem plain_of_literal {l : Literal} (h : t.literal? = some l) : t.Plain := by
  refine plain_of_payload (fun d hpayload => ?_) (fun d hpayload => ?_) <;>
    simp [Token.literal?, hpayload] at h

end

/-! ## Phrases -/

/-- A phrase leaves no delimiter open, and each of its closing ones matches. -/
theorem Derives.paired {phrase : Phrase} {ts : List Token} (h : Derives phrase ts) :
    Paired ts := by
  induction h with
  | literal hliteral => exact paired_plain (plain_of_literal hliteral)
  | name hname => exact paired_plain (plain_of_identifier hname)
  | global hpayload | field hpayload =>
      exact paired_plain (plain_of_payload (by simp [hpayload]) (by simp [hpayload]))
  | call hname hopening _ hclosing ih =>
      exact (ih.enclose hopening hclosing).cons (plain_of_identifier hname)
  | group hopening _ hclosing ih | record hopening _ hclosing ih | table hopening _ hclosing ih =>
      exact ih.enclose hopening hclosing
  | bare _ ih | unsuffixed _ ih | operand _ ih | looser _ ih | firstClause _ ih | chain _ ih
  | firstArgument _ ih | firstElement _ ih => exact ih
  | access _ _ _ hseparator hname ih =>
      have hmember := (paired_plain (plain_of_identifier hname)).cons
        (plain_of_operator hseparator)
      exact ih.append hmember
  | qualifiedCall _ _ hpoint hname hopening _ hclosing ih ihes =>
      have hcall := (ihes.enclose hopening hclosing).cons (plain_of_identifier hname)
      exact ih.append (hcall.cons (plain_of_operator hpoint))
  | percent _ ht ih => exact ih.append (paired_plain (plain_of_operator ht))
  | unary _ ht _ ih => exact ih.cons (plain_of_operator ht)
  | leftGrouped _ _ ht _ ihl ihr | rightGrouped _ _ ht _ ihl ihr | ungrouped _ _ ht _ ihl ihr =>
      exact ihl.append (ihr.cons (plain_of_operator ht))
  | nextClause _ ht _ ihes ih => exact ihes.append (ih.cons ht.plain)
  | nextArgument _ _ ht _ ihes ih | nextElement _ _ ht _ ihes ih =>
      exact ihes.append (ih.cons ht.plain)
  | trailedChain _ ht ih => exact ih.append (paired_plain ht.plain)
  | noArguments | noElements | noFields => exact paired_nil
  | firstField hname hcolon _ ih =>
      exact (ih.cons (plain_of_colon hcolon)).cons (plain_of_identifier hname)
  | nextField _ _ hseparator hname hcolon _ ihfs ih =>
      have hfield := (ih.cons (plain_of_colon hcolon)).cons (plain_of_identifier hname)
      exact ihfs.append (hfield.cons hseparator.plain)

/-- At the beginning of an expression every closing token matches. -/
theorem Begins.exists_unmatched {ts : List Token} (h : Begins ts) :
    ∃ opened, unmatched? ts = some opened := by
  rcases h with ⟨more, e, he⟩
  have hwhole := he.paired []
  rw [List.foldlM_append] at hwhole
  cases hfront : ts.foldlM Token.nest? [] with
  | none => simp [hfront] at hwhole
  | some opened => exact ⟨opened, hfront⟩

/-! ## The clause in progress -/

/-- A token that opens or closes the innermost delimiter of the clause in progress does so by
itself. -/
theorem Token.Nests.eq_of_nest? {t : Token} {before after opened : List Token}
    (h : t.Nests before after) (hopened : t.nest? before = some opened) : opened = after := by
  unfold Token.Nests at h
  split at h
  · rename_i d hpayload
    simpa [Token.nest?, h, hpayload, eq_comm] using hopened
  · rename_i d hpayload
    rcases h with ⟨opening, rfl⟩
    simp only [Token.nest?, hpayload] at hopened
    split at hopened
    · exact (Option.some.inj hopened).symm
    · simp at hopened
  · rename_i hopening hclosing
    rw [plain_of_payload hopening hclosing] at hopened
    rw [h, Option.some.inj hopened]

namespace Work.Runs

variable {s : Setting} {w w' : Work} {ts opened : List Token}

/-- The delimiters that are open behind some tokens are those of the clause in progress. -/
theorem openings_eq (h : Runs s w ts w')
    (hopened : ts.foldlM Token.nest? w.openings = some opened) : opened = w'.openings := by
  induction h with
  | nil => exact (Option.some.inj hopened).symm
  | @cons w w' w'' t ts hstep _ ih =>
      have htracks := step_tracks (s := s) w (some t)
      rw [hstep] at htracks
      rcases htracks with ⟨t', ht', -, hnests⟩
      obtain rfl := Option.some.inj ht'
      rw [List.foldlM_cons] at hopened
      cases hfirst : t.nest? w.openings with
      | none => simp [hfirst] at hopened
      | some middle =>
          rw [hfirst] at hopened
          rw [hnests.eq_of_nest? hfirst] at hopened
          exact ih hopened

/-- What a clause in progress has open are the delimiters that none of its tokens has closed. -/
theorem unmatched?_eq (h : Runs s start ts w) : unmatched? ts = some w.openings := by
  rcases h.begins.exists_unmatched with ⟨opened, hopened⟩
  rw [hopened, h.openings_eq hopened]

end Work.Runs

end FormulaLint
