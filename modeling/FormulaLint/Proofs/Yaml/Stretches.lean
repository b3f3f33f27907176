import FormulaLint.Proofs.Yaml.Spellings
import FormulaLint.Yaml.Tokenize
import Mathlib.Data.List.Chain

/-!
# Where tokens stand in a text

Splitting a text reads its words one behind the other and puts other tokens behind and between them.
So anchors, tags and scalars stand in the text where their tokens say, and between an anchor or tag and
the word behind it there is nothing but a gap.

Main results:

- Theorems {lit}`Traced.push` and {lit}`Traced.insertAt`: what a new token keeps.
- Theorem {lit}`Splitting.IsTraced.next`: every step of splitting keeps the tokens in their places.
- Theorem {lit}`standInText_tokensOf`: the tokens of a text stand in it.
- Theorem {lit}`StandInText.spelling`: anchors, tags and a scalar are a scalar as it is written.
-/

namespace FormulaLint.Yaml

/-- Whether a token is an anchor or a tag. -/
def TokenKind.isProperty : TokenKind → Bool
  | .anchor _ | .tag _ => true
  | _ => false

/-- Whether a token belongs to a scalar node: an anchor, a tag or a scalar. -/
def TokenKind.isWord : TokenKind → Bool
  | .scalar _ _ => true
  | kind => kind.isProperty

theorem TokenKind.isWord_of_isProperty {kind : TokenKind} (h : kind.isProperty = true) :
    kind.isWord = true := by
  cases kind <;> first | rfl | cases h

/-- A token with the place where it starts and the one behind it. -/
structure Stretch where
  token : Token
  start : Cursor
  stop : Cursor

namespace Stretch

/-- What the words of a text are read from; other tokens may stand anywhere. -/
inductive Of (text : List Char) : Stretch → Prop
  | property {kind : TokenKind} {c stop : Cursor} (hkind : kind.isProperty = true)
      (hreaches : (Cursor.ofText text).Reaches c) (h : c.IsProperty stop) :
      Of text ⟨⟨kind, c.mark⟩, c, stop⟩
  | scalar {value : String} {style : ScalarStyle} {c stop : Cursor} {inFlow : Bool} {indent : Int}
      (hreaches : (Cursor.ofText text).Reaches c)
      (h : c.ReadsScalar inFlow indent style value stop) :
      Of text ⟨⟨.scalar value style, c.mark⟩, c, stop⟩
  | other {token : Token} (start stop : Cursor) (h : token.kind.isWord = false) :
      Of text ⟨token, start, stop⟩

/-- An anchor or tag is read from one. -/
theorem Of.isProperty {text : List Char} {s : Stretch} (h : s.Of text)
    (hproperty : s.token.kind.isProperty = true) : s.start.IsProperty s.stop := by
  cases h with
  | property _ _ h => exact h
  | scalar => cases hproperty
  | other _ _ h => simp [TokenKind.isWord_of_isProperty hproperty] at h

/-- Between an anchor or tag and the word behind it there is a gap. -/
def Follows (s t : Stretch) : Prop :=
  s.token.kind.isProperty = true → t.token.kind.isWord = true → s.stop.Gap t.start

end Stretch

/-- The tokens of a text stand in it one behind the other, in front of a place. -/
def Traced (text : List Char) (tokens : List Token) (c : Cursor) : Prop :=
  ∃ stretches : List Stretch, stretches.map (·.token) = tokens ∧ (∀ s ∈ stretches, s.Of text) ∧
    stretches.IsChain Stretch.Follows ∧ (Cursor.ofText text).Reaches c ∧
    ∀ s ∈ stretches.getLast?, s.token.kind.isProperty = true → s.stop.Gap c

namespace Cursor

variable {c c' c'' : Cursor}

theorem Gap.refl (c : Cursor) : c.Gap c :=
  ⟨.refl c, fun _ _ => .refl _ c⟩

/-- Two gaps are one. -/
theorem Gap.trans (h : c.Gap c') (h' : c'.Gap c'') : c.Gap c'' := by
  refine ⟨h.1.trans h'.1, fun hline hrest => ?_⟩
  have hlow := h.1.line_le
  have hhigh := h'.1.line_le
  have hrest' : c'.rest ≠ [] := fun hnil => by
    obtain ⟨n, -, rfl, -⟩ := h'.1
    rw [rest_advance, hnil, List.drop_nil] at hrest
    exact hrest rfl
  exact (h.2 (by omega) hrest').trans (h'.2 (by omega) hrest)

/-- A line break is a gap. -/
theorem gap_of_lineBreak? {d after : Cursor} {br : Char} (hbefore : c.Reaches d)
    (hbreak : d.lineBreak? = some (br, after)) (hafter : after.Reaches c') : c.Gap c' := by
  refine ⟨(hbefore.trans (reaches_lineBreak? hbreak)).trans hafter, fun hline => ?_⟩
  have hlow := hbefore.line_le
  have hnext := (breaksTo_of_lineBreak? hbreak).line_eq
  have hhigh := hafter.line_le
  omega

/-- No scalar starts right behind an anchor. -/
theorem isProperty_of_anchorName {name : String} (hpeek : c.peek = '&')
    (h : c.anchorName = .ok (name, c')) : c.IsProperty c' where
  mark := .inl hpeek
  word := (passes_anchorName h).1
  closes hopens := by
    have hends : ∀ ch ∈ opensNode, endsToken ch = false ∧ ch ∉ "?:,]\x7d%@`".toList :=
      List.forall_iff_forall_mem.mp (by decide)
    obtain ⟨htoken, hlist⟩ := hends _ hopens
    rcases (passes_anchorName h).2 with hend | hend
    · exact absurd hend (by simp [htoken])
    · exact hlist hend

/-- No scalar starts right behind a tag. -/
theorem isProperty_of_writtenTag {tag : WrittenTag} (hpeek : c.peek = '!')
    (h : c.writtenTag = .ok (tag, c')) : c.IsProperty c' where
  mark := .inr hpeek
  word := (passes_writtenTag h).1
  closes hopens := by
    have hends : ∀ ch ∈ opensNode, endsWord ch = false := List.forall_iff_forall_mem.mp (by decide)
    exact absurd (passes_writtenTag h).2 (by simp [hends _ hopens])

theorem IsProperty.reaches (h : c.IsProperty c') : c.Reaches c' :=
  (reaches_step c).trans h.word.reaches

/-- Places are counted upwards. -/
theorem Reaches.index_le (h : c.Reaches c') : c.index ≤ c'.index := by
  obtain ⟨n, -, rfl, -⟩ := h
  induction n generalizing c with
  | zero => exact Nat.le_refl _
  | succ n ih =>
      refine Nat.le_trans ?_ ih
      unfold step
      split
      · exact Nat.le_refl _
      · split
        · exact Nat.le_succ _
        · split <;> exact Nat.le_succ _

/-- An anchor or tag takes characters. -/
theorem IsProperty.index_pos (h : c.IsProperty c') : 0 < c'.index := by
  have hne : c.peek ≠ endOfText := by
    rcases h.mark with hpeek | hpeek <;> rw [hpeek] <;> decide
  obtain ⟨rest, hrest⟩ := rest_of_peek rfl hne
  have hstep : c.step.index = c.index + 1 := by
    unfold step
    rw [hrest]
    dsimp only
    split
    · rfl
    · split <;> rfl
  have hlow := h.word.reaches.index_le
  omega

end Cursor

/-! ## Adding tokens -/

namespace Traced

variable {text : List Char} {tokens : List Token} {c c' : Cursor} {kind : TokenKind} {mark : Mark}

theorem reaches (h : Traced text tokens c) : (Cursor.ofText text).Reaches c := by
  obtain ⟨-, -, -, -, hreaches, -⟩ := h
  exact hreaches

/-- At the start no tokens have been read. -/
theorem nil (text : List Char) : Traced text [] (.ofText text) :=
  ⟨[], rfl, by simp, .nil, .refl _, by simp⟩

/-- The cursor moves over a gap. -/
theorem skip (h : Traced text tokens c) (hgap : c.Gap c') : Traced text tokens c' := by
  obtain ⟨stretches, htokens, hof, hchain, hreaches, hlast⟩ := h
  exact ⟨stretches, htokens, hof, hchain, hreaches.trans hgap.1,
    fun s hs hproperty => (hlast s hs hproperty).trans hgap⟩

/-- A token comes last that was read at the cursor. -/
theorem push {stretch : Stretch} (h : Traced text tokens c) (hof : stretch.Of text)
    (hstart : stretch.token.kind.isWord = true → stretch.start = c)
    (hstop : stretch.token.kind.isProperty = true → stretch.stop = c') (hreaches : c.Reaches c') :
    Traced text (tokens ++ [stretch.token]) c' := by
  obtain ⟨stretches, rfl, hall, hchain, hcursor, hlast⟩ := h
  refine ⟨stretches ++ [stretch], by simp, ?_, ?_, hcursor.trans hreaches, ?_⟩
  · intro s hs
    rcases List.mem_append.mp hs with hs | hs
    · exact hall s hs
    · rwa [List.mem_singleton.mp hs]
  · refine List.isChain_append.mpr ⟨hchain, .singleton _, fun s hs t ht hproperty hword => ?_⟩
    obtain rfl : stretch = t := by simpa using ht
    rw [hstart hword]
    exact hlast s hs hproperty
  · intro s hs hproperty
    obtain rfl : stretch = s := by simpa using hs
    rw [hstop hproperty]
    exact .refl _

/-- A token comes last that is no word. -/
theorem push_other (h : Traced text tokens c) (hkind : kind.isWord = false) (hreaches : c.Reaches c') :
    Traced text (tokens ++ [⟨kind, mark⟩]) c' := by
  have hof : Stretch.Of text ⟨⟨kind, mark⟩, c, c'⟩ := .other c c' hkind
  exact h.push hof (fun _ => rfl) (fun _ => rfl) hreaches

/-- A token that is no word comes between others. -/
theorem insertAt (h : Traced text tokens c) (hkind : kind.isWord = false) (n : Nat) :
    Traced text (tokens.take n ++ ⟨kind, mark⟩ :: tokens.drop n) c := by
  obtain ⟨stretches, rfl, hall, hchain, hcursor, hlast⟩ := h
  have hproperty : kind.isProperty = false := Bool.eq_false_iff.mpr fun hproperty => by
    simp [TokenKind.isWord_of_isProperty hproperty] at hkind
  refine ⟨stretches.take n ++ ⟨⟨kind, mark⟩, c, c⟩ :: stretches.drop n, by simp, ?_, ?_, hcursor, ?_⟩
  · intro s hs
    rcases List.mem_append.mp hs with hs | hs
    · exact hall s (List.mem_of_mem_take hs)
    · rcases List.mem_cons.mp hs with rfl | hs
      · exact .other c c hkind
      · exact hall s (List.mem_of_mem_drop hs)
  · rw [← List.take_append_drop n stretches, List.isChain_append] at hchain
    refine List.isChain_append.mpr ⟨hchain.1, ?_, fun s _ t ht _ hword => ?_⟩
    · refine List.isChain_cons.mpr ⟨fun t _ hbefore => ?_, hchain.2.1⟩
      simp [hproperty] at hbefore
    · obtain rfl := Option.some.inj ht
      simp [hkind] at hword
  · intro s hs hbefore
    rw [List.getLast?_append, List.getLast?_cons] at hs
    cases hdrop : (stretches.drop n).getLast? with
    | none =>
        obtain rfl : (⟨⟨kind, mark⟩, c, c⟩ : Stretch) = s := by simpa [hdrop] using hs
        simp [hproperty] at hbefore
    | some last =>
        obtain rfl : last = s := by simpa [hdrop] using hs
        refine hlast last ?_ hbefore
        rw [← List.take_append_drop n stretches, List.getLast?_append, hdrop]
        rfl

end Traced

/-! ## Splitting a text -/

namespace Splitting

variable {text : List Char} {s s' : Splitting}

/-- The tokens read so far stand in the text in front of the cursor. -/
def IsTraced (text : List Char) (s : Splitting) : Prop :=
  Traced text s.tokens s.cursor

theorem skipBlank_gap (fuel : Nat) (s : Splitting) :
    (skipBlank fuel s).tokens = s.tokens ∧ s.cursor.Gap (skipBlank fuel s).cursor := by
  induction fuel generalizing s with
  | zero => exact ⟨rfl, .refl _⟩
  | succ fuel ih =>
      have hcomment : s.cursor.Reaches s.cursor.skipSpaces.skipComment :=
        (Cursor.passes_skipSpaces _).reaches.trans (Cursor.reaches_skipComment _)
      simp only [skipBlank]
      split
      · rename_i br after hbreak
        have hrest := ih { s with cursor := after, keyAllowed := s.keyAllowed || !s.inFlow }
        exact ⟨hrest.1, Cursor.gap_of_lineBreak? hcomment hbreak hrest.2.1⟩
      · rename_i hnone
        refine ⟨rfl, hcomment, fun _ hrest => ?_⟩
        unfold Cursor.skipComment at hnone hrest ⊢
        split at hnone
        · rename_i hhash
          rw [if_pos hhash] at hrest
          exact absurd (Cursor.rest_eq_nil_of_lineBreak? hnone) hrest
        · rename_i hhash
          rw [if_neg hhash]
          exact Cursor.passes_skipSpaces _

/-- Skipping to the next token leaves a gap.  The byte order mark that may be skipped, too, is the
start of the text. -/
theorem IsTraced.skipToToken (h : s.IsTraced text) : s.skipToToken.IsTraced text := by
  have hblank : ∀ {s : Splitting}, s.IsTraced text →
      (skipBlank (s.cursor.rest.length + 1) s).IsTraced text := by
    intro s h
    obtain ⟨htokens, hgap⟩ := skipBlank_gap (s.cursor.rest.length + 1) s
    rw [IsTraced, htokens]
    exact Traced.skip h hgap
  unfold Splitting.skipToToken
  refine hblank ?_
  split
  · rename_i hstart
    obtain ⟨stretches, htokens, hall, hchain, hreaches, hlast⟩ := h
    refine ⟨stretches, htokens, hall, hchain, hreaches.trans (Cursor.reaches_step _),
      fun t ht hproperty => ?_⟩
    -- Behind an anchor or a tag the text is no longer at its start.
    have hgap := hlast t ht hproperty
    have hindex := hgap.1.index_le
    have hpos := ((hall t (List.mem_of_mem_getLast? ht)).isProperty hproperty).index_pos
    omega
  · exact h

theorem dropStale_ok (h : s.dropStale = .ok s') : s'.tokens = s.tokens ∧ s'.cursor = s.cursor := by
  simp only [dropStale] at h
  split at h
  · simp at h
  · obtain rfl := Except.ok.inj h
    exact ⟨rfl, rfl⟩

theorem dropKey_ok (h : s.dropKey = .ok s') : s'.tokens = s.tokens ∧ s'.cursor = s.cursor := by
  simp only [dropKey] at h
  split at h
  · simp at h
  · obtain rfl := Except.ok.inj h
    exact ⟨rfl, rfl⟩

theorem saveKey_ok (h : s.saveKey = .ok s') : s'.tokens = s.tokens ∧ s'.cursor = s.cursor := by
  simp only [saveKey] at h
  split at h
  · obtain ⟨s₁, hdrop, h⟩ := bind_eq_ok_iff.mp h
    obtain rfl := Except.ok.inj h
    obtain ⟨htokens, hcursor⟩ := dropKey_ok hdrop
    exact ⟨htokens, hcursor⟩
  · obtain rfl := Except.ok.inj h
    exact ⟨rfl, rfl⟩

theorem IsTraced.of_eq (h : s.IsTraced text) (heq : s'.tokens = s.tokens ∧ s'.cursor = s.cursor) :
    s'.IsTraced text := by
  rw [IsTraced, heq.1, heq.2]
  exact h

/-- A mark that is no word is added. -/
theorem IsTraced.push (h : s.IsTraced text) {kind : TokenKind} (hkind : kind.isWord = false)
    (mark : Mark) : (s.push kind mark).IsTraced text :=
  h.push_other hkind (.refl _)

theorem IsTraced.closeBlocks {column : Int} {outer : List Int} (h : s.IsTraced text) :
    (closeBlocks column s outer).IsTraced text := by
  induction outer generalizing s with
  | nil => exact h
  | cons indent rest ih =>
      rw [Splitting.closeBlocks]
      split
      · exact ih (h.push rfl _)
      · exact h

theorem IsTraced.unwind (h : s.IsTraced text) (column : Int) : (s.unwind column).IsTraced text := by
  unfold Splitting.unwind
  split
  · exact h
  · exact h.closeBlocks

theorem IsTraced.openAt {kind : TokenKind} (h : s.IsTraced text) (hkind : kind.isWord = false)
    (ho : s.openAt kind = .ok s') : s'.IsTraced text := by
  unfold Splitting.openAt at ho
  split at ho
  · obtain rfl := Except.ok.inj ho
    exact h
  · split at ho
    · simp at ho
    · unfold openBlock at ho
      split at ho
      · rename_i opened hopened
        split at hopened
        · obtain rfl := Option.some.inj hopened
          obtain rfl := Except.ok.inj ho
          exact h.push hkind _
        · simp at hopened
      · obtain rfl := Except.ok.inj ho
        exact h

/-- A token that is no word, read at the cursor, is added. -/
theorem IsTraced.add (h : s.IsTraced text) {kind : TokenKind} (hkind : kind.isWord = false)
    (mark : Mark) {c : Cursor} (hreaches : s.cursor.Reaches c)
    (hs : s'.tokens = (s.push kind mark).tokens ∧ s'.cursor = c) : s'.IsTraced text := by
  rw [IsTraced, hs.1, hs.2]
  exact h.push_other hkind hreaches

theorem IsTraced.atEnd (h : s.IsTraced text) (hs : s.atEnd = .ok s') : s'.IsTraced text := by
  obtain ⟨s₁, hdrop, hs⟩ := bind_eq_ok_iff.mp hs
  obtain rfl := Except.ok.inj hs
  exact ((h.unwind _).of_eq (dropKey_ok hdrop)).push rfl _

theorem IsTraced.atDirective (h : s.IsTraced text) (hs : s.atDirective = .ok s') :
    s'.IsTraced text := by
  obtain ⟨s₁, hdrop, hs⟩ := bind_eq_ok_iff.mp hs
  obtain ⟨⟨directive, c⟩, hread, hs⟩ := bind_eq_ok_iff.mp hs
  obtain rfl := Except.ok.inj hs
  exact ((h.unwind _).of_eq (dropKey_ok hdrop)).add rfl _ (Cursor.reaches_directive hread) ⟨rfl, rfl⟩

theorem IsTraced.atDocumentMark {kind : TokenKind} (h : s.IsTraced text) (hkind : kind.isWord = false)
    (hs : s.atDocumentMark kind = .ok s') : s'.IsTraced text := by
  obtain ⟨s₁, hdrop, hs⟩ := bind_eq_ok_iff.mp hs
  obtain rfl := Except.ok.inj hs
  exact ((h.unwind _).of_eq (dropKey_ok hdrop)).add hkind _ (Cursor.reaches_advance _ 3) ⟨rfl, rfl⟩

theorem IsTraced.atOpening {kind : TokenKind} (h : s.IsTraced text) (hkind : kind.isWord = false)
    (hs : s.atOpening kind = .ok s') : s'.IsTraced text := by
  obtain ⟨s₁, hsave, hs⟩ := bind_eq_ok_iff.mp hs
  obtain rfl := Except.ok.inj hs
  exact (h.of_eq (saveKey_ok hsave)).add hkind _ (Cursor.reaches_step _) ⟨rfl, rfl⟩

theorem IsTraced.atClosing {kind : TokenKind} (h : s.IsTraced text) (hkind : kind.isWord = false)
    (hs : s.atClosing kind = .ok s') : s'.IsTraced text := by
  obtain ⟨s₁, hdrop, hs⟩ := bind_eq_ok_iff.mp hs
  obtain rfl := Except.ok.inj hs
  exact (h.of_eq (dropKey_ok hdrop)).add hkind _ (Cursor.reaches_step _) ⟨rfl, rfl⟩

theorem IsTraced.atFlowEntry (h : s.IsTraced text) (hs : s.atFlowEntry = .ok s') :
    s'.IsTraced text := by
  obtain ⟨s₁, hdrop, hs⟩ := bind_eq_ok_iff.mp hs
  obtain rfl := Except.ok.inj hs
  exact (h.of_eq (dropKey_ok hdrop)).add rfl _ (Cursor.reaches_step _) ⟨rfl, rfl⟩

theorem IsTraced.atBlockEntry (h : s.IsTraced text) (hs : s.atBlockEntry = .ok s') :
    s'.IsTraced text := by
  obtain ⟨s₁, hopen, hs⟩ := bind_eq_ok_iff.mp hs
  obtain ⟨s₂, hdrop, hs⟩ := bind_eq_ok_iff.mp hs
  obtain rfl := Except.ok.inj hs
  exact ((h.openAt rfl hopen).of_eq (dropKey_ok hdrop)).add rfl _ (Cursor.reaches_step _) ⟨rfl, rfl⟩

theorem IsTraced.atKey (h : s.IsTraced text) (hs : s.atKey = .ok s') : s'.IsTraced text := by
  obtain ⟨s₁, hopen, hs⟩ := bind_eq_ok_iff.mp hs
  obtain ⟨s₂, hdrop, hs⟩ := bind_eq_ok_iff.mp hs
  obtain rfl := Except.ok.inj hs
  exact ((h.openAt rfl hopen).of_eq (dropKey_ok hdrop)).add rfl _ (Cursor.reaches_step _) ⟨rfl, rfl⟩

theorem IsTraced.atValue (h : s.IsTraced text) (hs : s.atValue = .ok s') : s'.IsTraced text := by
  simp only [Splitting.atValue] at hs
  split at hs
  · rename_i key hfind
    -- The key mark, and perhaps the start of a mapping, come in front of the word that is a key.
    generalize hkeyed : { s with keys := s.keys.filter fun entry => entry.1 ≠ s.depth }.insertAt
      key.token .key key.mark = s₁ at hs
    have hs₁ : s₁.IsTraced text := by
      rw [← hkeyed]
      exact Traced.insertAt h rfl key.token
    obtain rfl := Except.ok.inj hs
    refine IsTraced.add (s := if s₁.inFlow then s₁ else _) ?_ rfl _ (Cursor.reaches_step _) ⟨rfl, rfl⟩
    split
    · exact hs₁
    · unfold openBlock
      split
      · rename_i opened hopened
        split at hopened
        · obtain rfl := Option.some.inj hopened
          exact Traced.insertAt hs₁ rfl key.token
        · simp at hopened
      · exact hs₁
  · obtain ⟨s₁, hopen, hs⟩ := bind_eq_ok_iff.mp hs
    obtain ⟨s₂, hdrop, hs⟩ := bind_eq_ok_iff.mp hs
    obtain rfl := Except.ok.inj hs
    exact ((h.openAt rfl hopen).of_eq (dropKey_ok hdrop)).add rfl _ (Cursor.reaches_step _) ⟨rfl, rfl⟩

/-- A word is read at the cursor. -/
theorem IsTraced.atWord {read : Cursor → Except ReadError (TokenKind × Cursor)} (h : s.IsTraced text)
    (hread : ∀ kind c, read s.cursor = .ok (kind, c) → s.cursor.Reaches c ∧
      ((Cursor.ofText text).Reaches s.cursor → Stretch.Of text ⟨⟨kind, s.cursor.mark⟩, s.cursor, c⟩))
    (hs : s.atWord read = .ok s') : s'.IsTraced text := by
  obtain ⟨s₁, hsave, hs⟩ := bind_eq_ok_iff.mp hs
  obtain ⟨⟨kind, c⟩, hkind, hs⟩ := bind_eq_ok_iff.mp hs
  obtain rfl := Except.ok.inj hs
  obtain ⟨htokens, hcursor⟩ := saveKey_ok hsave
  rw [hcursor] at hkind
  obtain ⟨hreaches, hof⟩ := hread kind c hkind
  have hpush := Traced.push h (hof h.reaches) (fun _ => rfl) (fun _ => rfl) hreaches
  rw [IsTraced]
  simpa [Splitting.push, htokens, hcursor] using hpush

theorem IsTraced.atAlias (h : s.IsTraced text) (hs : s.atAlias = .ok s') : s'.IsTraced text := by
  refine h.atWord (fun kind c hread => ?_) hs
  obtain ⟨⟨name, c'⟩, hname, hread⟩ := bind_eq_ok_iff.mp hread
  obtain ⟨rfl, rfl⟩ := Prod.mk.inj (Except.ok.inj hread)
  exact ⟨(Cursor.reaches_step _).trans (Cursor.passes_anchorName hname).1.reaches,
    fun _ => .other _ _ rfl⟩

theorem IsTraced.atAnchor (h : s.IsTraced text) (hpeek : s.cursor.peek = '&')
    (hs : s.atAnchor = .ok s') : s'.IsTraced text := by
  refine h.atWord (fun kind c hread => ?_) hs
  obtain ⟨⟨name, c'⟩, hname, hread⟩ := bind_eq_ok_iff.mp hread
  obtain ⟨rfl, rfl⟩ := Prod.mk.inj (Except.ok.inj hread)
  have hproperty := Cursor.isProperty_of_anchorName hpeek hname
  exact ⟨hproperty.reaches, fun hreaches => .property rfl hreaches hproperty⟩

theorem IsTraced.atTag (h : s.IsTraced text) (hpeek : s.cursor.peek = '!')
    (hs : s.atTag = .ok s') : s'.IsTraced text := by
  refine h.atWord (fun kind c hread => ?_) hs
  obtain ⟨⟨tag, c'⟩, htag, hread⟩ := bind_eq_ok_iff.mp hread
  obtain ⟨rfl, rfl⟩ := Prod.mk.inj (Except.ok.inj hread)
  have hproperty := Cursor.isProperty_of_writtenTag hpeek htag
  exact ⟨hproperty.reaches, fun hreaches => .property rfl hreaches hproperty⟩

theorem IsTraced.atQuoted {quotes : QuoteStyle} (h : s.IsTraced text)
    (hpeek : s.cursor.peek = quotes.char) (hs : s.atQuoted quotes = .ok s') : s'.IsTraced text := by
  refine h.atWord (fun kind c hread => ?_) hs
  obtain ⟨⟨value, c'⟩, hvalue, hread⟩ := bind_eq_ok_iff.mp hread
  obtain ⟨rfl, rfl⟩ := Prod.mk.inj (Except.ok.inj hread)
  obtain ⟨closing, hcopies, -, rfl⟩ := Cursor.copies_quotedScalar hvalue
  have hreads : s.cursor.ReadsScalar s.inFlow s.indent (.quoted quotes) value closing.step :=
    ⟨hpeek, hvalue⟩
  exact ⟨((Cursor.reaches_step _).trans hcopies.reaches).trans (Cursor.reaches_step _),
    fun hreaches => .scalar hreaches hreads⟩

theorem IsTraced.atBlockScalar {folded : Bool} (h : s.IsTraced text)
    (hpeek : s.cursor.peek = if folded then '>' else '|') (hs : s.atBlockScalar folded = .ok s') :
    s'.IsTraced text := by
  obtain ⟨s₁, hdrop, hs⟩ := bind_eq_ok_iff.mp hs
  obtain ⟨⟨value, c⟩, hvalue, hs⟩ := bind_eq_ok_iff.mp hs
  obtain rfl := Except.ok.inj hs
  obtain ⟨htokens, hcursor⟩ := dropKey_ok hdrop
  rw [hcursor] at hvalue
  have hreads : s.cursor.ReadsScalar s.inFlow s₁.indent (if folded then .folded else .literal)
      value c := by
    cases folded with
    | false => exact ⟨hpeek, hvalue⟩
    | true => exact ⟨hpeek, hvalue⟩
  have hpush := Traced.push h (.scalar h.reaches hreads) (fun _ => rfl) (fun _ => rfl) (Cursor.reaches_blockScalar hvalue)
  rw [IsTraced]
  simpa [Splitting.push, htokens, hcursor] using hpush

theorem IsTraced.atPlain (h : s.IsTraced text) (hs : s.atPlain = .ok s') : s'.IsTraced text := by
  obtain ⟨s₁, hsave, hs⟩ := bind_eq_ok_iff.mp hs
  obtain ⟨htokens, hcursor⟩ := saveKey_ok hsave
  have hreaches := Cursor.reaches_plainScalar s.cursor s₁.inFlow (s₁.indent + 1)
  rw [hcursor] at hs
  generalize hread : s.cursor.plainScalar s₁.inFlow (s₁.indent + 1) = read at hs hreaches
  obtain ⟨value, newLine, c⟩ := read
  obtain rfl := Except.ok.inj hs
  have hreads : s.cursor.ReadsScalar s₁.inFlow s₁.indent .plain value c := ⟨newLine, hread⟩
  have hpush := Traced.push h (.scalar h.reaches hreads) (fun _ => rfl) (fun _ => rfl) hreaches
  rw [IsTraced]
  simpa [Splitting.push, htokens, hcursor] using hpush

/-- Reading a token keeps the tokens in their places. -/
theorem IsTraced.readToken (h : s.IsTraced text) (hs : s.readToken = .ok s') : s'.IsTraced text := by
  simp only [Splitting.readToken] at hs
  split at hs
  · exact h.atEnd hs
  · split at hs
    · split at hs
      · exact h.atDirective hs
      · simp at hs
    · exact h.atOpening rfl hs
    · exact h.atOpening rfl hs
    · exact h.atClosing rfl hs
    · exact h.atClosing rfl hs
    · exact h.atFlowEntry hs
    · exact h.atAlias hs
    · exact h.atAnchor ‹_› hs
    · exact h.atTag ‹_› hs
    · exact h.atQuoted ‹_› hs
    · exact h.atQuoted ‹_› hs
    · split at hs
      · simp at hs
      · exact h.atBlockScalar ‹_› hs
    · split at hs
      · simp at hs
      · exact h.atBlockScalar ‹_› hs
    · split at hs
      · exact h.atDocumentMark rfl hs
      · split at hs
        · exact h.atDocumentMark rfl hs
        · split at hs
          · exact h.atBlockEntry hs
          · split at hs
            · exact h.atKey hs
            · split at hs
              · exact h.atValue hs
              · split at hs
                · exact h.atPlain hs
                · simp at hs

theorem IsTraced.next (h : s.IsTraced text) (hs : s.next = .ok s') : s'.IsTraced text := by
  obtain ⟨s₁, hstale, hs⟩ := bind_eq_ok_iff.mp hs
  exact ((h.skipToToken.of_eq (dropStale_ok hstale)).unwind _).readToken hs

end Splitting

/-- The tokens of a text stand in it one behind the other. -/
def StandInText (text : List Char) (tokens : List Token) : Prop :=
  ∃ stretches : List Stretch, stretches.map (·.token) = tokens ∧ (∀ s ∈ stretches, s.Of text) ∧
    stretches.IsChain Stretch.Follows

variable {text : List Char} {s : Splitting}

theorem Traced.standInText {tokens : List Token} {c : Cursor} (h : Traced text tokens c) (n : Nat) :
    StandInText text (tokens.take n) := by
  obtain ⟨stretches, rfl, hall, hchain, -⟩ := h
  exact ⟨stretches.take n, by simp, fun s hs => hall s (List.mem_of_mem_take hs), hchain.take n⟩

theorem standInText_splitFrom (h : s.IsTraced text) (fuel : Nat) :
    StandInText text (splitFrom fuel s).list := by
  have hall : ∀ {s : Splitting}, s.IsTraced text → StandInText text s.tokens := fun {s} h => by
    rw [← List.take_length (l := s.tokens)]
    exact Traced.standInText h _
  induction fuel generalizing s with
  | zero => exact hall h
  | succ fuel ih =>
      rw [splitFrom]
      split
      · rename_i after hnext
        split
        · exact hall (h.next hnext)
        · exact ih (h.next hnext)
      · unfold Splitting.settled
        split
        · exact hall h
        · rename_i hstale
          exact Traced.standInText ((h.skipToToken.of_eq (Splitting.dropStale_ok hstale)).unwind _) _

/-- Anchors, tags and a scalar behind each other start with a word. -/
theorem isWord_of_head? {value : String} {style : ScalarStyle} {mark : Mark}
    {tokens properties after : List Token}
    (htokens : tokens = properties ++ ⟨.scalar value style, mark⟩ :: after)
    (hproperties : ∀ t ∈ properties, t.kind.isProperty = true) :
    ∀ t ∈ tokens.head?, t.kind.isWord = true := by
  intro t ht
  rw [htokens] at ht
  cases properties with
  | nil =>
      obtain rfl := Option.some.inj ht
      rfl
  | cons property properties =>
      obtain rfl := Option.some.inj ht
      exact TokenKind.isWord_of_isProperty (hproperties property List.mem_cons_self)

/-- Anchors, tags and a scalar behind each other are a scalar as it is written. -/
theorem spelling_of_stretches {value : String} {style : ScalarStyle} {mark : Mark}
    {properties after : List Token} {stretches : List Stretch}
    (hall : ∀ s ∈ stretches, s.Of text) (hchain : stretches.IsChain Stretch.Follows)
    (htokens : stretches.map (·.token) = properties ++ ⟨.scalar value style, mark⟩ :: after)
    (hproperties : ∀ t ∈ properties, t.kind.isProperty = true) :
    ∃ s : Spelling, s.In text ∧ s.style = style ∧ s.value = value ∧
      stretches.head?.map (·.start) = some s.first ∧
      stretches.head?.map (·.token.mark) = some s.first.mark := by
  induction properties generalizing stretches with
  | nil =>
      obtain ⟨first, rest, rfl, hfirst, -⟩ := List.map_eq_cons_iff.mp htokens
      have hof := hall first List.mem_cons_self
      have hword : first.token.kind.isWord = true := by
        rw [hfirst]
        rfl
      cases hof with
      | property hkind _ _ =>
          obtain ⟨rfl, -⟩ := Token.mk.inj hfirst
          cases hkind
      | @scalar value' style' c stop inFlow indent hreaches hread =>
          obtain ⟨hkind, -⟩ := Token.mk.inj hfirst
          obtain ⟨rfl, rfl⟩ := TokenKind.scalar.inj hkind
          exact ⟨⟨c, c, stop, inFlow, indent, _, _⟩, ⟨hreaches, .here c, hread⟩, rfl, rfl, rfl, rfl⟩
      | other _ _ h => cases h.symm.trans hword
  | cons property properties ih =>
      obtain ⟨first, rest, rfl, hfirst, hrest⟩ := List.map_eq_cons_iff.mp htokens
      have hproperty : first.token.kind.isProperty = true := by
        rw [hfirst]
        exact hproperties property List.mem_cons_self
      rw [List.isChain_cons] at hchain
      obtain ⟨s, ⟨hreaches, hleads, hread⟩, hstyle, hvalue, hstart, -⟩ :=
        ih (fun s hs => hall s (List.mem_cons_of_mem _ hs)) hchain.2 hrest
          fun t ht => hproperties t (List.mem_cons_of_mem _ ht)
      obtain ⟨second, hsecond, hfirst'⟩ := Option.map_eq_some_iff.mp hstart
      have hword : second.token.kind.isWord = true := by
        refine isWord_of_head? hrest (fun t ht => hproperties t (List.mem_cons_of_mem _ ht)) _ ?_
        rw [List.head?_map, hsecond]
        rfl
      have hgap := hchain.1 second hsecond hproperty hword
      rw [hfirst'] at hgap
      have hof := hall first List.mem_cons_self
      cases hof with
      | @property kind c stop _ hreaches' h =>
          exact ⟨{ s with first := c }, ⟨hreaches', .property h hgap hleads, hread⟩, hstyle, hvalue,
            rfl, rfl⟩
      | scalar => cases hproperty
      | other _ _ h => simp [TokenKind.isWord_of_isProperty hproperty] at h

/-- Anchors, tags and a scalar among the tokens of a text are a scalar as it is written in it. -/
theorem StandInText.spelling {tokens : List Token} {value : String} {style : ScalarStyle} {mark : Mark}
    {properties after : List Token} (h : StandInText text tokens)
    (htokens : properties ++ ⟨.scalar value style, mark⟩ :: after <:+ tokens)
    (hproperties : ∀ t ∈ properties, t.kind.isProperty = true) :
    ∃ s : Spelling, s.In text ∧ s.style = style ∧ s.value = value ∧
      (properties ++ ⟨.scalar value style, mark⟩ :: after).head?.map (·.mark) = some s.first.mark := by
  obtain ⟨stretches, rfl, hall, hchain⟩ := h
  obtain ⟨before, hbefore⟩ := htokens
  obtain ⟨front, back, rfl, -, hback⟩ := List.map_eq_append_iff.mp hbefore.symm
  obtain ⟨s, hs, hstyle, hvalue, -, hmark⟩ := spelling_of_stretches
    (fun s hs => hall s (List.mem_append_right _ hs)) (List.isChain_append.mp hchain).2.1 hback hproperties
  refine ⟨s, hs, hstyle, hvalue, ?_⟩
  rw [← hback, List.head?_map, Option.map_map]
  exact hmark

/-- The tokens of a text stand in it. -/
theorem standInText_tokensOf (text : List Char) : StandInText text (tokensOf text).list := by
  unfold tokensOf
  split
  · exact standInText_splitFrom (s := { cursor := .ofText text }) (Traced.nil text) _
  · exact ⟨[], rfl, by simp, .nil⟩

end FormulaLint.Yaml
