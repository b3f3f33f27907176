import FormulaLint.Expr.Render
import FormulaLint.Proofs.Grammar.Basic
import FormulaLint.Proofs.Lexing.Numbers
import FormulaLint.Proofs.Lexing.Symbols

/-!
# Texts and what their tokens make up

A text is written for something when its tokens make that something up, whatever places the tokens
have.  Texts that are put one behind the other, between delimiters, or into a list with separators
are written for what their parts are written for.

Main results:

- Theorem {lit}`Writes.append`: texts that stand one behind the other.
- Theorem {lit}`Writes.enclosed`: a text between two delimiters.
- Theorem {lit}`Writes.list`: texts with a separator and a blank between each two.
-/

namespace FormulaLint

/-- A text is read, wherever it stands, as tokens that make up the given thing. -/
def Writes (p : Profile) (follow : Option Char → Prop) (text : List Char)
    (Made : List Token → Prop) : Prop :=
  ∃ payloads, Lexes p follow text payloads ∧ ∀ ts, ts.map Token.payload = payloads → Made ts

/-- The characters that may stand behind an expression. -/
def delimiters : Profile → List Char
  | .dotDecimal => [' ', ')', ']', '\x7d', '%', ';', ',']
  | .commaDecimal => [' ', ')', ']', '\x7d', '%', ';']

/-- A character that may stand behind an expression, or the end of the text. -/
def Delimits (p : Profile) (next : Option Char) : Prop :=
  ∀ c, next = some c → c ∈ delimiters p

section

variable {p : Profile} {follow follow₁ follow₂ : Option Char → Prop} {text text₁ text₂ : List Char}
  {Made Made₁ Made₂ : List Token → Prop}

/-! ## Characters behind an expression -/

/-- An expression may end the text. -/
theorem delimits_none : Delimits p none := by
  intro c hc
  simp at hc

/-- A delimiter may stand behind an expression. -/
theorem delimits_some {c : Char} (hc : c ∈ delimiters p) : Delimits p (some c) := by
  intro d hd
  have hcd : c = d := by simpa using hd
  rw [← hcd]
  exact hc

/-- Every delimiter ends a name. -/
theorem Delimits.endsName {next : Option Char} (h : Delimits p next) : EndsName next := by
  have hall : ∀ c ∈ delimiters p, continuesName c = false ∧ c ≠ '\'' ∧ c ≠ '[' := by
    cases p <;> simp only [delimiters, List.forall_mem_cons, List.not_mem_nil, false_implies,
      implies_true, and_true] <;> decide
  constructor
  · intro c hc
    have hdelimiter := hall c (h c hc)
    exact ⟨hdelimiter.1, hdelimiter.2.1⟩
  · intro hc
    exact (hall '[' (h '[' hc)).2.2 rfl

/-- Every delimiter ends a number. -/
theorem Delimits.endsNumber {next : Option Char} (h : Delimits p next) : EndsNumber p next := by
  have hall : ∀ c ∈ delimiters p, c.isDigit = false ∧ c ≠ p.decimalChar ∧ c ≠ 'e' ∧ c ≠ 'E' := by
    cases p <;> simp only [delimiters, List.forall_mem_cons, List.not_mem_nil, false_implies,
      implies_true, and_true] <;> decide
  intro c hc
  exact hall c (h c hc)

/-- No delimiter goes on with a text literal. -/
theorem Delimits.ne_quote {next : Option Char} (h : Delimits p next) : next ≠ some '"' := by
  intro hnext
  have hquote : '"' ∉ delimiters p := by cases p <;> decide
  exact hquote (h '"' hnext)

/-! ## Single tokens and texts one behind the other -/

/-- Nothing is written for nothing. -/
theorem Writes.nil : Writes p follow [] fun ts => ts = [] :=
  ⟨[], Lexes.nil, fun _ hts => List.map_eq_nil_iff.mp hts⟩

/-- A text of one token. -/
theorem Writes.single {payload : Payload} (h : Lexes p follow text [payload]) :
    Writes p follow text fun ts => ∃ t, ts = [t] ∧ t.payload = payload := by
  refine ⟨[payload], h, fun ts hts => ?_⟩
  rcases List.map_eq_singleton_iff.mp hts with ⟨t, rfl, ht⟩
  exact ⟨t, rfl, ht⟩

/-- What makes up one thing may make up another. -/
theorem Writes.imp (h : Writes p follow text Made₁) (himp : ∀ ts, Made₁ ts → Made₂ ts) :
    Writes p follow text Made₂ := by
  rcases h with ⟨payloads, hlexes, hmade⟩
  exact ⟨payloads, hlexes, fun ts hts => himp ts (hmade ts hts)⟩

/-- Fewer characters may follow. -/
theorem Writes.before (h : Writes p follow₁ text Made) (himp : ∀ c, follow₂ c → follow₁ c) :
    Writes p follow₂ text Made := by
  rcases h with ⟨payloads, hlexes, hmade⟩
  exact ⟨payloads, hlexes.imp himp, hmade⟩

/-- Texts that stand one behind the other. -/
theorem Writes.append (h₁ : Writes p follow₁ text₁ Made₁) (h₂ : Writes p follow₂ text₂ Made₂)
    (hword : ¬ LedByWord text₂)
    (hfollow : ∀ rest : List Char, follow₂ rest.head? → follow₁ (text₂ ++ rest).head?) :
    Writes p follow₂ (text₁ ++ text₂)
      fun ts => ∃ ts₁ ts₂, ts = ts₁ ++ ts₂ ∧ Made₁ ts₁ ∧ Made₂ ts₂ := by
  rcases h₁ with ⟨payloads₁, hlexes₁, hmade₁⟩
  rcases h₂ with ⟨payloads₂, hlexes₂, hmade₂⟩
  refine ⟨payloads₁ ++ payloads₂, hlexes₁.append hlexes₂ hword hfollow, fun ts hts => ?_⟩
  rcases List.map_eq_append_iff.mp hts with ⟨ts₁, ts₂, rfl, hts₁, hts₂⟩
  exact ⟨ts₁, ts₂, rfl, hmade₁ ts₁ hts₁, hmade₂ ts₂ hts₂⟩

/-- A blank in front of a text. -/
theorem Writes.blank (h : Writes p follow text Made) : Writes p follow (' ' :: text) Made := by
  rcases h with ⟨payloads, hlexes, hmade⟩
  exact ⟨payloads, hlexes.blank, hmade⟩

/-- A text with a blank and another text behind it. -/
theorem Writes.spaced (h₁ : Writes p follow₁ text₁ Made₁) (h₂ : Writes p follow₂ text₂ Made₂)
    (hfollow : follow₁ (some ' ')) :
    Writes p follow₂ (text₁ ++ ' ' :: text₂)
      fun ts => ∃ ts₁ ts₂, ts = ts₁ ++ ts₂ ∧ Made₁ ts₁ ∧ Made₂ ts₂ :=
  h₁.append h₂.blank (not_ledByWord_cons (by decide) text₂) fun _ _ => hfollow

/-- A text with one more token behind it. -/
theorem Writes.snoc {c : Char} {cs : List Char} {payload : Payload}
    (h : Writes p follow₁ text Made) (htoken : Lexes p follow₂ (c :: cs) [payload])
    (hletter : c.isAlpha = false) (hfollow : follow₁ (some c)) :
    Writes p follow₂ (text ++ c :: cs)
      fun ts => ∃ ts₁ t, ts = ts₁ ++ [t] ∧ Made ts₁ ∧ t.payload = payload := by
  have happend := h.append (.single htoken) (not_ledByWord_cons hletter cs) fun _ _ => hfollow
  apply happend.imp
  intro ts hts
  rcases hts with ⟨ts₁, ts₂, rfl, hmade, t, rfl, ht⟩
  exact ⟨ts₁, t, rfl, hmade, ht⟩

/-! ## Words for operators -/

/-- What is led by a word for an operator starts with one. -/
theorem LedByWord.startsWithOperatorWord (h : LedByWord text) :
    FormulaLint.startsWithOperatorWord text = true := by
  rcases h with ⟨word, hword, more, rfl⟩
  refine List.any_eq_true.mpr ⟨word, hword, ?_⟩
  have hdrop : (word.toList ++ ' ' :: more).drop word.length = ' ' :: more := by
    rw [← String.length_toList, List.drop_left]
  have hprefix : word.toList.isPrefixOf (word.toList ++ ' ' :: more) = true :=
    List.isPrefixOf_iff_prefix.mpr (List.prefix_append _ _)
  rw [hdrop, hprefix]
  rfl

/-- A text with a blank in front of a leading word is not led by a word. -/
theorem not_ledByWord_spaceOperatorWord (text : List Char) :
    ¬ LedByWord (spaceOperatorWord text) := by
  unfold spaceOperatorWord
  split
  · exact not_ledByWord_cons (by decide) text
  · rename_i hword
    intro hled
    exact hword hled.startsWithOperatorWord

/-- A blank in front of a leading word changes nothing. -/
theorem Writes.spaceOperatorWord (h : Writes p follow text Made) :
    Writes p follow (spaceOperatorWord text) Made := by
  unfold FormulaLint.spaceOperatorWord
  split
  · exact h.blank
  · exact h

/-- A token with a text behind it. -/
theorem Writes.cons {front : List Char} {payload : Payload}
    (hfront : Lexes p follow₁ front [payload]) (h : Writes p follow₂ text Made)
    (hword : ¬ LedByWord text)
    (hfollow : ∀ rest : List Char, follow₂ rest.head? → follow₁ (text ++ rest).head?) :
    Writes p follow₂ (front ++ text)
      fun ts => ∃ t ts', ts = t :: ts' ∧ t.payload = payload ∧ Made ts' := by
  have happend := (Writes.single hfront).append h hword hfollow
  apply happend.imp
  intro ts hts
  rcases hts with ⟨ts₁, ts₂, rfl, ⟨t, rfl, ht⟩, hmade⟩
  exact ⟨t, ts₂, rfl, ht, hmade⟩

/-- A text between two delimiters. -/
theorem Writes.enclosed {opening closing : Char} {payload payload' : Payload}
    (hopening : Lexes p follow₁ [opening] [payload]) (h : Writes p (Delimits p) text Made)
    (hword : ¬ LedByWord text)
    (hfollow : ∀ rest : List Char, Delimits p rest.head? → follow₁ (text ++ rest).head?)
    (hclosing : Lexes p anything [closing] [payload']) (hletter : closing.isAlpha = false)
    (hdelimiter : closing ∈ delimiters p) :
    Writes p anything (opening :: (text ++ [closing])) fun ts => ∃ first ts' last,
      ts = first :: (ts' ++ [last]) ∧ first.payload = payload ∧ Made ts' ∧
        last.payload = payload' := by
  have hopened := Writes.cons hopening h hword hfollow
  have hclosed := hopened.snoc hclosing hletter (delimits_some hdelimiter)
  apply hclosed.imp
  intro ts hts
  rcases hts with ⟨ts₁, last, rfl, ⟨first, ts', rfl, hfirst, hmade⟩, hlast⟩
  exact ⟨first, ts', last, rfl, hfirst, hmade, hlast⟩

/-- A text between parentheses has a blank in front of a leading word. -/
theorem parenthesize_eq (text : List Char) :
    parenthesize text = '(' :: (spaceOperatorWord text ++ [')']) := by
  unfold parenthesize spaceOperatorWord
  split <;> simp

/-- A text between parentheses. -/
theorem Writes.parenthesized (h : Writes p (Delimits p) text Made) :
    Writes p anything ('(' :: (FormulaLint.spaceOperatorWord text ++ [')'])) fun ts =>
      ∃ opening ts' closing, ts = opening :: (ts' ++ [closing]) ∧
        opening.Opens .parenthesis ∧ Made ts' ∧ closing.Closes .parenthesis :=
  Writes.enclosed Lexes.openingParenthesis h.spaceOperatorWord
    (not_ledByWord_spaceOperatorWord text) (fun _ _ => trivial) Lexes.closingParenthesis
    (by decide) (by cases p <;> decide)

/-! ## Lists -/

/-- A list of texts with a gap between each two. -/
theorem intercalate_map_cons {α : Type} (gap : List Char) (write : α → List Char) (a : α)
    (items : List α) :
    gap.intercalate ((a :: items).map write) =
      write a ++ items.flatMap fun b => gap ++ write b := by
  induction items generalizing a with
  | nil => simp
  | cons b items ih =>
      have hrest := ih b
      simp only [List.map_cons, List.flatMap_cons, List.intercalate_cons_cons] at hrest ⊢
      rw [hrest, List.append_assoc, List.append_assoc]

/-- Items with their separators behind those that stand in front. -/
theorem Writes.listBehind {α : Type} {write : α → List Char} {Item : α → List Token → Prop}
    (Front : List α → List Token → Prop) {c : Char} {cs : List Char} {payload : Payload}
    (hseparator : Lexes p (fun next => next = some ' ') (c :: cs) [payload])
    (hletter : c.isAlpha = false) (hdelimiter : c ∈ delimiters p)
    (hnext : ∀ front ts t a ts', front ≠ [] → Front front ts → t.payload = payload → Item a ts' →
      Front (front ++ [a]) (ts ++ t :: ts'))
    {front items : List α} (hitems : ∀ a ∈ items, Writes p (Delimits p) (write a) (Item a))
    (hne : front ≠ []) (h : Writes p (Delimits p) text (Front front)) :
    Writes p (Delimits p) (text ++ items.flatMap fun a => c :: cs ++ ' ' :: write a)
      (Front (front ++ items)) := by
  induction items generalizing front text with
  | nil => simpa using h
  | cons a items ih =>
      have hseparated := h.snoc hseparator hletter (delimits_some hdelimiter)
      have hmore := hseparated.spaced (hitems a (by simp)) rfl
      have hfront : Writes p (Delimits p) (text ++ (c :: cs ++ ' ' :: write a))
          (Front (front ++ [a])) := by
        rw [← List.append_assoc]
        apply hmore.imp
        intro ts hts
        rcases hts with ⟨ts₁, ts', rfl, ⟨ts, t, rfl, hmade, ht⟩, hitem⟩
        rw [List.append_assoc]
        exact hnext front ts t a ts' hne hmade ht hitem
      have hall := ih (fun b hb => hitems b (by simp [hb])) (by simp) hfront
      simpa using hall

/-- Texts with a separator and a blank between each two. -/
theorem Writes.list {α : Type} {write : α → List Char} {Item : α → List Token → Prop}
    (Front : List α → List Token → Prop) {gap : List Char} {payload : Payload}
    (hgap : ∃ c cs, gap = c :: cs ++ [' '] ∧ c.isAlpha = false ∧ c ∈ delimiters p ∧
      Lexes p (fun next => next = some ' ') (c :: cs) [payload])
    (hfirst : ∀ a ts, Item a ts → Front [a] ts)
    (hnext : ∀ front ts t a ts', front ≠ [] → Front front ts → t.payload = payload → Item a ts' →
      Front (front ++ [a]) (ts ++ t :: ts'))
    {items : List α} (hne : items ≠ [])
    (hitems : ∀ a ∈ items, Writes p (Delimits p) (write a) (Item a)) :
    Writes p (Delimits p) (gap.intercalate (items.map write)) (Front items) := by
  rcases hgap with ⟨c, cs, rfl, hletter, hdelimiter, hseparator⟩
  cases items with
  | nil => exact absurd rfl hne
  | cons a items =>
      have hfront := (hitems a (by simp)).imp (hfirst a)
      have hrest : ∀ b ∈ items, Writes p (Delimits p) (write b) (Item b) :=
        fun b hb => hitems b (by simp [hb])
      have hall := Writes.listBehind Front hseparator hletter hdelimiter hnext hrest (by simp)
        hfront
      rw [intercalate_map_cons]
      simpa using hall

/-- The gap between list items. -/
theorem listGap_eq (p : Profile) : ∃ c cs, listGap p = c :: cs ++ [' '] ∧ c.isAlpha = false ∧
    c ∈ delimiters p ∧
      Lexes p (fun next => next = some ' ') (c :: cs) [.separator .list] := by
  cases p with
  | dotDecimal => exact ⟨',', [], rfl, by decide, by decide, Lexes.listSeparator⟩
  | commaDecimal => exact ⟨';', [], rfl, by decide, by decide, Lexes.listSeparator⟩

/-- The gap between chained expressions. -/
theorem chainGap_eq (p : Profile) : ∃ c cs, chainGap p = c :: cs ++ [' '] ∧ c.isAlpha = false ∧
    c ∈ delimiters p ∧
      Lexes p (fun next => next = some ' ') (c :: cs) [.separator .chaining] := by
  cases p with
  | dotDecimal => exact ⟨';', [], rfl, by decide, by decide, Lexes.chainingSeparator⟩
  | commaDecimal => exact ⟨';', [';'], rfl, by decide, by decide, Lexes.chainingSeparator⟩

/-! ## The first character -/

/-- The first token of a text is the one that is found at its first character. -/
theorem Lexes.head_item {c : Char} {payloads : List Payload}
    (h : Lexes p follow (c :: text) payloads) (hend : follow none)
    (hblank : Text.isBlank c = false) :
    ∃ delimited, payloads.head?.map Item.token =
      some ((recognise p c text).item.settle delimited) := by
  have hitems := h.items_eq none [] (fun _ => rfl) hend
  rw [List.append_nil, items_nil, List.append_nil, items, pieces_cons hblank] at hitems
  have hhead := congrArg List.head? hitems
  rw [List.map_cons, List.head?_cons, List.head?_map] at hhead
  exact ⟨_, hhead.symm⟩

/-- A text that is read without an error does not start with an at sign. -/
theorem Writes.head_ne_at (h : Writes p (Delimits p) text Made) : text.head? ≠ some '@' := by
  rcases h with ⟨payloads, hlexes, -⟩
  intro hhead
  rcases List.head?_eq_some_iff.mp hhead with ⟨rest, rfl⟩
  rcases hlexes.head_item delimits_none (by decide) with ⟨delimited, hitem⟩
  have hfound : (recognise p '@' rest).item = .token (.error .invalidCharacters) := by
    rw [recognise_symbol (by cases rest <;> rfl)]
    cases p <;> rfl
  rw [hfound] at hitem
  rcases Option.map_eq_some_iff.mp hitem with ⟨payload, hpayload, herror⟩
  have hclean := hlexes.clean payload (List.mem_of_mem_head? hpayload)
  rw [Item.token.inj herror] at hclean
  exact absurd hclean (by decide)

/-- No at sign follows where a text is read without an error in front of a delimiter. -/
theorem Writes.head_append_ne_at (h : Writes p (Delimits p) text Made) (rest : List Char)
    (hrest : Delimits p rest.head?) : (text ++ rest).head? ≠ some '@' := by
  have htext := h.head_ne_at
  cases text with
  | nil =>
      intro hat
      have hdelimiter : '@' ∉ delimiters p := by cases p <;> decide
      exact hdelimiter (hrest '@' hat)
  | cons c cs => exact htext

end

end FormulaLint
