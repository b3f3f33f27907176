import FormulaLint.Expr.Name
import FormulaLint.Token.Lex

/-!
# Reading texts piece by piece

What is recognised in a text does not depend on the place of the text.  A text that is put together
from smaller ones is read as the tokens of these, provided that no token runs on into the next text
and that a word for an operator has its blanks.

Main results:

- Theorem {lit}`items_token`: the first token of a text and what comes behind it.
- Theorem {lit}`Lexes.append`: texts that stand one behind the other.
- Theorem {lit}`Lexes.single`: a text of one token.
-/

namespace FormulaLint

/-! ## Items of a text -/

/-- What is recognised in a text, without the places. -/
def items (p : Profile) (before : Option Char) (text : List Char) : List Item :=
  (pieces p ⟨{}, []⟩ before 0 text).map Piece.item

section

variable {p : Profile} {index : LineIndex} {before : Option Char}

/-- An empty text has no pieces. -/
theorem pieces_nil (offset : Nat) : pieces p index before offset [] = [] := by
  rw [pieces.eq_def]

/-- A blank is no piece. -/
theorem pieces_blank {c : Char} (hblank : Text.isBlank c = true) (offset : Nat) (text : List Char) :
    pieces p index before offset (c :: text) = pieces p index (some c) (offset + 1) text := by
  rw [pieces.eq_def]
  simp only [hblank, ↓reduceIte]

/-- The first piece of a text that starts with no blank. -/
theorem pieces_cons {c : Char} (hblank : Text.isBlank c = false) (offset : Nat) (rest : List Char) :
    pieces p index before offset (c :: rest) =
      ⟨(recognise p c rest).item.settle
          (blankOrEnd before && blankOrEnd (rest.drop (recognise p c rest).extra).head?),
        String.ofList (c :: rest.take (recognise p c rest).extra),
        index.span offset
          (offset + (c :: rest.take (recognise p c rest).extra).length : Nat)⟩ ::
      pieces p index (c :: rest.take (recognise p c rest).extra).getLast?
        (offset + (c :: rest.take (recognise p c rest).extra).length)
        (rest.drop (recognise p c rest).extra) := by
  rw [pieces.eq_def]
  simp only [hblank, Bool.false_eq_true, ↓reduceIte]

/-- The first piece of a text, by what is found there. -/
theorem pieces_found {c : Char} {cs behind : List Char} {item : Item}
    (hblank : Text.isBlank c = false)
    (hfound : recognise p c (cs ++ behind) = ⟨item, cs.length⟩) (offset : Nat) :
    pieces p index before offset (c :: (cs ++ behind)) =
      ⟨item.settle (blankOrEnd before && blankOrEnd behind.head?), String.ofList (c :: cs),
        index.span offset (offset + (cs.length + 1) : Nat)⟩ ::
      pieces p index (c :: cs).getLast? (offset + (cs.length + 1)) behind := by
  rw [pieces_cons hblank, hfound]
  simp only [List.take_left, List.drop_left, List.length_cons]

/-- The items of a text do not depend on its place. -/
theorem map_item_pieces (index index' : LineIndex) (before : Option Char) (offset offset' : Nat)
    (text : List Char) :
    (pieces p index before offset text).map Piece.item =
      (pieces p index' before offset' text).map Piece.item := by
  fun_induction pieces p index before offset text generalizing offset' with
  | case1 => rw [pieces_nil]
  | case2 before offset c rest hblank ih =>
      rw [pieces_blank hblank]
      exact ih (offset' + 1)
  | case3 before offset c rest hblank found lexeme behind stop ih =>
      have hnot : Text.isBlank c = false := by simpa using hblank
      rw [pieces_cons hnot, List.map_cons, List.map_cons, ih]

/-- An empty text has no items. -/
@[simp] theorem items_nil (p : Profile) (before : Option Char) : items p before [] = [] := by
  rw [items, pieces_nil, List.map_nil]

/-- A blank is no item. -/
theorem items_blank {c : Char} (hblank : Text.isBlank c = true) (text : List Char) :
    items p before (c :: text) = items p (some c) text := by
  unfold items
  rw [pieces_blank hblank]
  exact map_item_pieces _ _ _ _ _ _

/-- The first token of a text, and what comes behind it. -/
theorem items_token {c : Char} {cs behind : List Char} {item : Item}
    (hblank : Text.isBlank c = false)
    (hfound : recognise p c (cs ++ behind) = ⟨item, cs.length⟩) :
    items p before (c :: (cs ++ behind)) =
      item.settle (blankOrEnd before && blankOrEnd behind.head?) ::
        items p (c :: cs).getLast? behind := by
  unfold items
  rw [pieces_found hblank hfound, List.map_cons, map_item_pieces]

end

/-! ## Texts and their tokens -/

namespace Payload

/-- Whether a token is an error token. -/
def isError : Payload → Bool
  | .error _ => true
  | _ => false

end Payload

/-- Whether a text starts with a word for an operator and a blank. -/
def LedByWord (text : List Char) : Prop :=
  ∃ word ∈ operatorWords, ∃ more, text = word.toList ++ ' ' :: more

/-- A text is read as the given tokens, wherever it stands: the character behind it is one that
may follow, and a word for an operator at its start has a blank in front. -/
structure Lexes (p : Profile) (follow : Option Char → Prop) (text : List Char)
    (payloads : List Payload) : Prop where
  items_eq : ∀ before rest, (LedByWord text → blankOrEnd before = true) → follow rest.head? →
    items p before (text ++ rest) =
      payloads.map Item.token ++ items p (text.getLast?.or before) rest
  clean : ∀ payload ∈ payloads, payload.isError = false

/-- Anything may follow. -/
def anything : Option Char → Prop := fun _ => True

section

variable {p : Profile} {follow follow₁ follow₂ : Option Char → Prop} {text text₁ text₂ : List Char}
  {payloads payloads₁ payloads₂ : List Payload}

/-- A word for an operator at the start of a text stays there with more text behind. -/
theorem LedByWord.append (h : LedByWord text₁) (text₂ : List Char) :
    LedByWord (text₁ ++ text₂) := by
  rcases h with ⟨word, hword, more, rfl⟩
  exact ⟨word, hword, more ++ text₂, by simp⟩

/-- A text that starts with another character than a letter is not led by a word. -/
theorem not_ledByWord_cons {c : Char} (hc : c.isAlpha = false) (text : List Char) :
    ¬ LedByWord (c :: text) := by
  rintro ⟨word, hword, more, htext⟩
  have halpha : ∀ w ∈ operatorWords, w.toList.head?.any Char.isAlpha = true := by decide
  have hhead := halpha word hword
  cases hchars : word.toList with
  | nil => simp [hchars] at hhead
  | cons d rest =>
      rw [hchars] at hhead htext
      have hd : c = d := by simpa using congrArg List.head? htext
      simp [← hd, hc] at hhead

/-- The last character of a text that is not empty. -/
theorem getLast?_cons_or (c : Char) (cs : List Char) (before : Option Char) :
    (c :: cs).getLast?.or before = (c :: cs).getLast? := by
  rw [List.getLast?_eq_some_getLast (List.cons_ne_nil c cs), Option.some_or]

/-- Fewer characters may follow. -/
theorem Lexes.imp (h : Lexes p follow₁ text payloads) (himp : ∀ c, follow₂ c → follow₁ c) :
    Lexes p follow₂ text payloads where
  items_eq before rest hbefore hrest := h.items_eq before rest hbefore (himp _ hrest)
  clean := h.clean

/-- Nothing is read of an empty text. -/
theorem Lexes.nil : Lexes p follow [] [] where
  items_eq before rest _ _ := by simp
  clean := by simp

/-- Texts that stand one behind the other. -/
theorem Lexes.append (h₁ : Lexes p follow₁ text₁ payloads₁) (h₂ : Lexes p follow₂ text₂ payloads₂)
    (hword : ¬ LedByWord text₂)
    (hfollow : ∀ rest : List Char, follow₂ rest.head? → follow₁ (text₂ ++ rest).head?) :
    Lexes p follow₂ (text₁ ++ text₂) (payloads₁ ++ payloads₂) where
  items_eq before rest hbefore hrest := by
    have hfirst := h₁.items_eq before (text₂ ++ rest) (fun h => hbefore (h.append text₂))
      (hfollow rest hrest)
    have hsecond := h₂.items_eq (text₁.getLast?.or before) rest (fun h => absurd h hword) hrest
    rw [List.append_assoc, hfirst, hsecond, List.map_append, List.append_assoc,
      List.getLast?_append, Option.or_assoc]
  clean := by
    intro payload hpayload
    rcases List.mem_append.mp hpayload with h | h
    · exact h₁.clean payload h
    · exact h₂.clean payload h

/-- A blank in front of a text. -/
theorem Lexes.blank (h : Lexes p follow text payloads) : Lexes p follow (' ' :: text) payloads where
  items_eq before rest _ hrest := by
    rw [List.cons_append, items_blank (by decide), h.items_eq (some ' ') rest (fun _ => rfl) hrest]
    rw [← List.singleton_append, List.getLast?_append, Option.or_assoc]
    rfl
  clean := h.clean

/-- A text of one token. -/
theorem Lexes.single {c : Char} {cs : List Char} {payload : Payload} (raw : Payload)
    (hblank : Text.isBlank c = false)
    (hfound : ∀ rest : List Char, follow rest.head? →
      recognise p c (cs ++ rest) = ⟨.token raw, cs.length⟩)
    (hsettle : ∀ (before next : Option Char), follow next →
      (Item.token raw).settle (blankOrEnd before && blankOrEnd next) = .token payload)
    (hclean : payload.isError = false) : Lexes p follow (c :: cs) [payload] where
  items_eq before rest _ hrest := by
    rw [List.cons_append, items_token hblank (hfound rest hrest), hsettle before _ hrest,
      getLast?_cons_or]
    rfl
  clean := by simpa using hclean

end

end FormulaLint
