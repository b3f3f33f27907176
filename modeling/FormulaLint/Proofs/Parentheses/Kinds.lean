import FormulaLint.Proofs.Lexing.Locality
import FormulaLint.Proofs.Reading
import FormulaLint.Proofs.RoundTrip.Writes
import Mathlib.Algebra.GroupWithZero.Nat
import Mathlib.Algebra.Ring.Int.Defs
import Mathlib.Data.List.Forall2

/-!
# Parentheses among tokens

As far as parentheses go, a token opens one, closes one or is a word.  The kinds of the tokens of a
text do not depend on what stands in front of it, so they are put together from those of its parts
even where a token is an error.  Matched parentheses are told apart from what stands around them by
counting how many are open, and the words of a list tell where its items end.

Main results:

- Theorem {lit}`map_kind_lex`: the tokens of a text have the kinds of the text.
- Theorem {lit}`Matched.group`: what starts like a group and is matched holds the whole group.
- Theorem {lit}`joined_inj`: joined items are told apart by their numbers of words.
-/

namespace FormulaLint

/-- What a token is as far as parentheses go.  A word is readable when a value can be taken of it. -/
inductive Kind where
  | opening
  | closing
  | word (readable : Bool)
deriving DecidableEq, Repr

namespace Kind

/-- Whether a token is no parenthesis. -/
def isWord : Kind → Bool
  | word _ => true
  | opening | closing => false

/-- How many more parentheses are open behind a token than in front of it. -/
def shift : Kind → Int
  | opening => 1
  | closing => -1
  | word _ => 0

end Kind

/-- The kind of a token. -/
def Payload.kind (payload : Payload) : Kind :=
  if payload = .separator (.opening .parenthesis) then .opening
  else if payload = .separator (.closing .parenthesis) then .closing
  else .word (decide (Token.Readable ⟨payload, "", default⟩))

/-- The kind of what was recognised, unless it is a comment. -/
def Item.kind? : Item → Option Kind
  | .comment => none
  | .token payload => some payload.kind

/-- The kind of a token. -/
def Token.kind (t : Token) : Kind :=
  t.payload.kind

/-- The kinds of the tokens of a text. -/
def kindsOf (p : Profile) (text : List Char) : List Kind :=
  (items p none text).filterMap Item.kind?

/-! ## Kinds of single tokens -/

/-- An opening parenthesis. -/
@[simp] theorem kind_opening : (Payload.separator (.opening .parenthesis)).kind = .opening := rfl

/-- A closing parenthesis. -/
@[simp] theorem kind_closing : (Payload.separator (.closing .parenthesis)).kind = .closing := rfl

/-- What is neither a parenthesis nor a number is a readable word. -/
theorem kind_of_not_number {payload : Payload}
    (hopening : payload ≠ .separator (.opening .parenthesis))
    (hclosing : payload ≠ .separator (.closing .parenthesis))
    (hnumber : ∀ text, payload ≠ .number text) : payload.kind = .word true := by
  rw [Payload.kind, if_neg hopening, if_neg hclosing]
  cases payload with
  | number text => exact absurd rfl (hnumber text)
  | _ => rfl

/-- A number is a word, readable or not. -/
theorem kind_number (text : String) :
    (Payload.number text).kind = .word (decide (Token.Readable ⟨.number text, "", default⟩)) := rfl

/-- Words keep their kind when their meaning is settled. -/
theorem kind?_settle (item : Item) (delimited : Bool) :
    (item.settle delimited).kind? = item.kind? := by
  unfold Item.settle
  split
  · rename_i name
    have hword : (wordPayload name delimited).kind = .word true := by
      simp only [wordPayload]
      repeat' split
      all_goals exact kind_of_not_number (by simp) (by simp) (by simp)
    rw [Item.kind?, Item.kind?, hword, kind_of_not_number (by simp) (by simp) (by simp)]
  · rfl

/-- A readable word is a readable token. -/
theorem readable_of_kind {t : Token} (h : t.kind ≠ .word false) : t.Readable := by
  unfold Token.kind Payload.kind at h
  split at h
  · rename_i hopening
    simp [Token.Readable, Token.wholeDigits?, hopening]
  · split at h
    · rename_i hclosing
      simp [Token.Readable, Token.wholeDigits?, hclosing]
    · have hreadable : Token.Readable ⟨t.payload, "", default⟩ := by simpa using h
      exact hreadable

/-! ## Kinds of texts -/

section

variable {p : Profile} {text : List Char}

/-- The kinds of tokens do not depend on what stands in front of them. -/
theorem filterMap_kind_items (before : Option Char) (text : List Char) :
    (items p before text).filterMap Item.kind? = kindsOf p text := by
  unfold kindsOf
  cases text using pieces_induct p with
  | nil => rw [items_nil, items_nil]
  | blank c rest hblank _ => rw [items_blank hblank, items_blank hblank]
  | found c cs behind item hblank hfound _ =>
      rw [items_token hblank hfound, items_token hblank hfound, List.filterMap_cons,
        List.filterMap_cons, kind?_settle, kind?_settle]

/-- The tokens of a text have the kinds of the text. -/
theorem map_kind_lex (text : List Char) (placement : Placement) :
    (lex p text placement).tokens.map Token.kind = kindsOf p text := by
  have hitems := map_item_pieces (p := p) (LineIndex.ofText text placement) ⟨{}, []⟩ none 0 0 text
  rw [lex, kindsOf, items, ← hitems, List.map_filterMap, List.filterMap_map]
  refine List.filterMap_congr fun piece _ => ?_
  cases hitem : piece.item <;>
    simp [Piece.token?, hitem, Item.kind?, Token.kind]

/-- The first token of a text, and those behind it. -/
theorem kindsOf_found {c : Char} {cs behind : List Char} {item : Item}
    (hblank : Text.isBlank c = false)
    (hfound : recognise p c (cs ++ behind) = ⟨item, cs.length⟩) :
    kindsOf p (c :: (cs ++ behind)) = item.kind?.toList ++ kindsOf p behind := by
  rw [kindsOf, items_token hblank hfound, List.filterMap_cons, kind?_settle, filterMap_kind_items]
  cases item.kind? <;> rfl

/-- Nothing is no token. -/
@[simp] theorem kindsOf_nil : kindsOf p [] = [] := by
  rw [kindsOf, items_nil]
  rfl

/-- A blank is no token. -/
theorem kindsOf_blank (text : List Char) : kindsOf p (' ' :: text) = kindsOf p text := by
  rw [kindsOf, items_blank (by decide), filterMap_kind_items]

/-- What is read as tokens has their kinds. -/
theorem Lexes.kindsOf_append {follow : Option Char → Prop} {payloads : List Payload}
    {rest : List Char} (h : Lexes p follow text payloads) (hrest : follow rest.head?) :
    kindsOf p (text ++ rest) = payloads.map Payload.kind ++ kindsOf p rest := by
  have hitems := h.items_eq (some ' ') rest (fun _ => rfl) hrest
  have hkinds := congrArg (List.filterMap Item.kind?) hitems
  rw [List.filterMap_append, filterMap_kind_items, filterMap_kind_items] at hkinds
  rw [hkinds, List.filterMap_map, ← List.filterMap_eq_map]
  rfl

end

/-! ## Open parentheses -/

/-- How many more parentheses are open behind some tokens than in front of them. -/
def depth (ks : List Kind) : Int :=
  (ks.map Kind.shift).sum

@[simp] theorem depth_nil : depth [] = 0 := rfl

@[simp] theorem depth_cons (k : Kind) (ks : List Kind) : depth (k :: ks) = k.shift + depth ks := by
  simp [depth]

@[simp] theorem depth_append (ks ks' : List Kind) : depth (ks ++ ks') = depth ks + depth ks' := by
  simp [depth]

/-- As many parentheses are closed as are opened, and never more. -/
structure Matched (ks : List Kind) : Prop where
  front : ∀ front rest, ks = front ++ rest → 0 ≤ depth front
  all : depth ks = 0

section

variable {ks ks' rest rest' : List Kind}

/-- Nothing is open in nothing. -/
theorem Matched.nil : Matched [] where
  front := by
    intro front rest h
    simp [(List.nil_eq_append_iff.mp h).1]
  all := depth_nil

/-- Matched tokens behind matched tokens. -/
theorem Matched.append (h : Matched ks) (h' : Matched ks') : Matched (ks ++ ks') where
  front := by
    intro front rest heq
    rcases List.append_eq_append_iff.mp heq with ⟨more, rfl, hmore⟩ | ⟨more, hmore, -⟩
    · have hrest := h'.front more rest hmore
      rw [depth_append, h.all]
      omega
    · exact h.front front more hmore
  all := by simp [h.all, h'.all]

/-- Matched tokens behind which all is matched. -/
theorem Matched.of_append (h : Matched (ks ++ rest)) (hks : Matched ks) : Matched rest where
  front := by
    intro front back heq
    have hdepth := h.front (ks ++ front) back (by simp [heq])
    rwa [depth_append, hks.all, Int.zero_add] at hdepth
  all := by
    have hdepth := h.all
    rwa [depth_append, hks.all, Int.zero_add] at hdepth

/-- A word is matched. -/
theorem Matched.word (readable : Bool) : Matched [.word readable] where
  front := by
    intro front rest h
    rcases List.singleton_eq_append_iff.mp h with ⟨rfl, -⟩ | ⟨rfl, -⟩ <;> simp [Kind.shift]
  all := by simp [Kind.shift]

/-- A word in front of matched tokens. -/
theorem Matched.cons (readable : Bool) (h : Matched ks) : Matched (.word readable :: ks) :=
  (Matched.word readable).append h

/-- Words are matched. -/
theorem Matched.replicate (n : Nat) (readable : Bool) :
    Matched (List.replicate n (.word readable)) := by
  induction n with
  | zero => exact .nil
  | succ n ih => exact ih.cons readable

/-- Matched tokens between parentheses. -/
theorem Matched.enclosed (h : Matched ks) : Matched (.opening :: (ks ++ [.closing])) where
  front := by
    intro front rest heq
    cases front with
    | nil => simp
    | cons k front =>
        obtain ⟨rfl, htail⟩ := List.cons.inj heq
        rw [depth_cons, Kind.shift]
        rcases List.append_eq_append_iff.mp htail with ⟨more, rfl, hmore⟩ | ⟨more, hmore, -⟩
        · have hlast : more = [] ∨ more = [.closing] := by
            rcases List.singleton_eq_append_iff.mp hmore with ⟨h', -⟩ | ⟨h', -⟩ <;> simp [h']
          rw [depth_append, h.all]
          rcases hlast with rfl | rfl <;> simp [Kind.shift]
        · have hfront := h.front front more hmore
          omega
  all := by simp [Kind.shift, h.all]

/-- What starts like a group and is matched holds the whole group. -/
theorem Matched.group (h : Matched ks) (hne : ks ≠ []) {inner behind : List Kind}
    (hinner : Matched inner) (heq : ks ++ rest = .opening :: (inner ++ .closing :: behind)) :
    ∃ more, ks = .opening :: (inner ++ .closing :: more) ∧ behind = more ++ rest := by
  cases ks with
  | nil => exact absurd rfl hne
  | cons k front =>
      obtain ⟨rfl, htail⟩ := List.cons.inj heq
      have hopen : depth front = -1 := by
        have hall := h.all
        rw [depth_cons, Kind.shift] at hall
        omega
      rcases List.append_eq_append_iff.mp htail with ⟨more, hmore, -⟩ | ⟨more, rfl, hmore⟩
      · -- the front ends inside the group, where one parenthesis is still open
        have hfront := hinner.front front more hmore
        omega
      · cases more with
        | nil =>
            rw [List.append_nil, hinner.all] at hopen
            omega
        | cons k more =>
            obtain ⟨rfl, hrest⟩ := List.cons.inj hmore
            exact ⟨more, rfl, hrest⟩

/-- What stands in the last group behind matched tokens. -/
theorem Matched.last_group {inner inner' : List Kind} (h : Matched ks) (h' : Matched ks')
    (hinner : Matched inner) (hinner' : Matched inner')
    (heq : ks ++ .opening :: (inner ++ [.closing]) = ks' ++ .opening :: (inner' ++ [.closing])) :
    inner = inner' := by
  rcases List.append_eq_append_iff.mp heq with ⟨more, rfl, hmore⟩ | ⟨more, rfl, hmore⟩
  · by_cases hnil : more = []
    · simpa [hnil] using hmore
    · rcases (h'.of_append h).group hnil hinner hmore.symm with ⟨_, -, hrest⟩
      simp at hrest
  · by_cases hnil : more = []
    · simpa [hnil] using hmore.symm
    · rcases (h.of_append h').group hnil hinner' hmore.symm with ⟨_, -, hrest⟩
      simp at hrest

end

/-! ## Words -/

/-- The number of tokens that are no parentheses. -/
def wordCount (ks : List Kind) : Nat :=
  ks.countP Kind.isWord

@[simp] theorem wordCount_nil : wordCount [] = 0 := rfl

@[simp] theorem wordCount_word (readable : Bool) (ks : List Kind) :
    wordCount (.word readable :: ks) = wordCount ks + 1 :=
  List.countP_cons_of_pos rfl

@[simp] theorem wordCount_opening (ks : List Kind) :
    wordCount (.opening :: ks) = wordCount ks :=
  List.countP_cons_of_neg (by decide)

@[simp] theorem wordCount_closing (ks : List Kind) :
    wordCount (.closing :: ks) = wordCount ks :=
  List.countP_cons_of_neg (by decide)

@[simp] theorem wordCount_append (ks ks' : List Kind) :
    wordCount (ks ++ ks') = wordCount ks + wordCount ks' :=
  List.countP_append

@[simp] theorem wordCount_replicate (n : Nat) (readable : Bool) :
    wordCount (List.replicate n (.word readable)) = n := by
  simp [wordCount, List.countP_replicate, Kind.isWord]

section

variable {ks ks' rest rest' : List Kind} {parts parts' : List (List Kind)}

/-- A word behind as many words is the same one. -/
theorem append_word_inj {readable readable' : Bool} (hcount : wordCount ks = wordCount ks')
    (heq : ks ++ .word readable :: rest = ks' ++ .word readable' :: rest') :
    ks = ks' ∧ rest = rest' := by
  rcases List.append_eq_append_iff.mp heq with ⟨more, rfl, hmore⟩ | ⟨more, rfl, hmore⟩
  all_goals
    cases more with
    | nil =>
        rw [List.nil_append] at hmore
        exact ⟨by simp, by simp [(List.cons.inj hmore).2]⟩
    | cons k more =>
        obtain ⟨rfl, -⟩ := List.cons.inj hmore
        simp at hcount

/-- Items with a separator between each two. -/
def joined (parts : List (List Kind)) : List Kind :=
  [.word true].intercalate parts

@[simp] theorem joined_nil : joined [] = [] := rfl

@[simp] theorem joined_singleton (ks : List Kind) : joined [ks] = ks :=
  List.intercalate_singleton

/-- A first item in front of others. -/
theorem joined_cons (hne : parts ≠ []) : joined (ks :: parts) = ks ++ .word true :: joined parts := by
  rw [joined, List.intercalate_cons_of_ne_nil hne, joined, List.append_assoc, List.singleton_append]

/-- Items in front of others. -/
theorem joined_append (hne : parts ≠ []) (hne' : parts' ≠ []) :
    joined (parts ++ parts') = joined parts ++ .word true :: joined parts' := by
  induction parts with
  | nil => exact absurd rfl hne
  | cons ks parts ih =>
      by_cases hparts : parts = []
      · subst hparts
        rw [List.singleton_append, joined_cons hne', joined_singleton]
      · rw [List.cons_append, joined_cons (by simp [hparts]), joined_cons hparts, ih hparts,
          List.append_assoc, List.cons_append]

/-- Joined items have their words and one more between each two. -/
theorem wordCount_joined (hne : parts ≠ []) :
    wordCount (joined parts) + 1 = (parts.map fun ks => wordCount ks + 1).sum := by
  induction parts with
  | nil => exact absurd rfl hne
  | cons ks parts ih =>
      by_cases hparts : parts = []
      · subst hparts
        simp
      · have hrest := ih hparts
        rw [joined_cons hparts, wordCount_append, wordCount_word, List.map_cons, List.sum_cons]
        omega

/-- Matched items are matched when they are joined. -/
theorem Matched.joined (h : ∀ ks ∈ parts, Matched ks) : Matched (joined parts) := by
  induction parts with
  | nil => exact .nil
  | cons ks parts ih =>
      have hrest := ih fun ks' hks' => h ks' (by simp [hks'])
      by_cases hparts : parts = []
      · subst hparts
        simpa using h ks (by simp)
      · rw [joined_cons hparts]
        exact (h ks (by simp)).append (hrest.cons true)

/-- Items with no more words, each by each, have no more words when they are joined. -/
theorem wordCount_joined_le
    (h : List.Forall₂ (fun ks ks' => wordCount ks ≤ wordCount ks') parts parts') :
    wordCount (FormulaLint.joined parts) ≤ wordCount (FormulaLint.joined parts') := by
  induction h with
  | nil => exact Nat.le_refl _
  | @cons ks ks' parts parts' hle hrest ih =>
      by_cases hparts : parts = []
      · subst hparts
        obtain rfl := List.forall₂_nil_left_iff.mp hrest
        simpa using hle
      · have hparts' : parts' ≠ [] := by
          rintro rfl
          exact hparts (List.forall₂_nil_right_iff.mp hrest)
        rw [joined_cons hparts, joined_cons hparts']
        simp only [wordCount_append, wordCount_word]
        omega

/-- Joined items are told apart by their numbers of words. -/
theorem joined_inj (h : List.Forall₂ (fun ks ks' => wordCount ks ≤ wordCount ks') parts parts')
    (heq : FormulaLint.joined parts = FormulaLint.joined parts') : parts = parts' := by
  induction h with
  | nil => rfl
  | @cons ks ks' parts parts' hle hrest ih =>
      by_cases hparts : parts = []
      · subst hparts
        obtain rfl := List.forall₂_nil_left_iff.mp hrest
        simpa using heq
      · have hparts' : parts' ≠ [] := by
          rintro rfl
          exact hparts (List.forall₂_nil_right_iff.mp hrest)
        rw [joined_cons hparts, joined_cons hparts'] at heq
        have hcount := congrArg wordCount heq
        have htail := wordCount_joined_le hrest
        simp only [wordCount_append, wordCount_word] at hcount
        rcases append_word_inj (by omega) heq with ⟨rfl, hjoined⟩
        rw [ih hjoined]

end

end FormulaLint
