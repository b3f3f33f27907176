import FormulaLint.Proofs.Yaml.Lines
import FormulaLint.Yaml.Tokenize

/-!
# What reading passes over

Every reader leaves its cursor further on in the same text.  What it passed over are the characters
between the two places; the names of anchors and tags have no blanks among them.

Main results:

- Theorem {lit}`Cursor.Passes.trans`: two moves are one.
- Theorems {lit}`passes_anchorName` and {lit}`passes_writtenTag`: anchors and tags are words.
- Theorem {lit}`reaches_directive`: directives are read forwards.
-/

namespace FormulaLint.Yaml

/-- A task after another one succeeds when both do. -/
theorem bind_eq_ok_iff {ε α β : Type} {x : Except ε α} {f : α → Except ε β} {b : β} :
    (x >>= f) = .ok b ↔ ∃ a, x = .ok a ∧ f a = .ok b := by
  cases x <;> simp [bind, Except.bind]

namespace Cursor

variable {P Q : Char → Prop} {c c' c'' : Cursor}

/-- A cursor was moved on over characters of which {lit}`P` holds. -/
def Passes (P : Char → Prop) (c c' : Cursor) : Prop :=
  ∃ n, n ≤ c.rest.length ∧ c' = c.advance n ∧ ∀ ch ∈ c.rest.take n, P ch

/-- A cursor was moved on. -/
def Reaches (c c' : Cursor) : Prop :=
  c.Passes (fun _ => True) c'

namespace Passes

theorem refl (P : Char → Prop) (c : Cursor) : c.Passes P c :=
  ⟨0, Nat.zero_le _, rfl, by simp⟩

/-- Two moves are one. -/
theorem trans (h : c.Passes P c') (h' : c'.Passes P c'') : c.Passes P c'' := by
  obtain ⟨m, hm, rfl, hP⟩ := h
  obtain ⟨n, hn, rfl, hP'⟩ := h'
  rw [rest_advance] at hn hP'
  refine ⟨m + n, by rw [List.length_drop] at hn; omega, (advance_add c m n).symm, ?_⟩
  rw [List.take_add]
  exact fun ch hch => (List.mem_append.mp hch).elim (hP ch) (hP' ch)

theorem mono (h : c.Passes P c') (hPQ : ∀ ch, P ch → Q ch) : c.Passes Q c' := by
  obtain ⟨n, hn, rfl, hP⟩ := h
  exact ⟨n, hn, rfl, fun ch hch => hPQ ch (hP ch hch)⟩

theorem reaches (h : c.Passes P c') : c.Reaches c' :=
  h.mono fun _ _ => trivial

end Passes

theorem Reaches.refl (c : Cursor) : c.Reaches c :=
  Passes.refl _ c

theorem Reaches.trans (h : c.Reaches c') (h' : c'.Reaches c'') : c.Reaches c'' :=
  Passes.trans h h'

/-- A step passes over one character, if there is one. -/
theorem passes_step (h : ∀ ch ∈ c.rest.head?, P ch) : c.Passes P c.step := by
  cases hrest : c.rest with
  | nil =>
      rw [step_of_rest_nil hrest]
      exact .refl P c
  | cons ch rest => exact ⟨1, by simp [hrest], rfl, by simpa [hrest] using h⟩

/-- Any number of steps. -/
theorem reaches_advance (c : Cursor) (n : Nat) : c.Reaches (c.advance n) := by
  induction n generalizing c with
  | zero => exact .refl c
  | succ n ih => exact .trans (passes_step fun _ _ => trivial) (ih c.step)

theorem reaches_step (c : Cursor) : c.Reaches c.step :=
  reaches_advance c 1

/-- The characters of a class are passed over. -/
theorem passes_takeWhile {p : Char → Bool} (h : ∀ ch, p ch = true → P ch) :
    c.Passes P (c.takeWhile p).2 :=
  ⟨_, (List.takeWhile_prefix p).length_le, rfl, fun ch hch => by
    rw [← List.prefix_iff_eq_take.mp (List.takeWhile_prefix p)] at hch
    exact h ch (List.all_eq_true.mp List.all_takeWhile ch hch)⟩

theorem reaches_takeWhile (c : Cursor) (p : Char → Bool) : c.Reaches (c.takeWhile p).2 :=
  passes_takeWhile fun _ _ => trivial

theorem passes_skipSpaces (c : Cursor) : c.Passes (· = ' ') c.skipSpaces :=
  passes_takeWhile fun _ h => by simpa using h

theorem reaches_skipComment (c : Cursor) : c.Reaches c.skipComment := by
  unfold skipComment
  split
  · exact reaches_takeWhile _ _
  · exact .refl c

theorem reaches_lineBreak? {br : Char} (h : c.lineBreak? = some (br, c')) : c.Reaches c' := by
  obtain ⟨n, -, hn, rfl⟩ := (breaksTo_of_lineBreak? h).passes
  exact reaches_advance c n

theorem reaches_skipBreak (c : Cursor) : c.Reaches c.skipBreak := by
  unfold skipBreak
  split
  · exact reaches_lineBreak? ‹_›
  · exact .refl c

theorem reaches_ignoredLine (h : c.ignoredLine = .ok c') : c.Reaches c' := by
  simp only [ignoredLine] at h
  split at h
  · obtain rfl := Except.ok.inj h
    exact ((passes_skipSpaces c).reaches.trans (reaches_skipComment _)).trans (reaches_skipBreak _)
  · simp at h

/-! ## Directives, anchors and tags -/

theorem reaches_versionNumber {n : Nat} (h : c.versionNumber = .ok (n, c')) : c.Reaches c' := by
  simp only [versionNumber] at h
  split at h
  · simp at h
  · split at h
    · simp at h
    · obtain ⟨-, rfl⟩ := Prod.mk.inj (Except.ok.inj h)
      exact reaches_takeWhile _ _

theorem reaches_versionDirective {d : Directive} (h : c.versionDirective = .ok (d, c')) :
    c.Reaches c' := by
  unfold versionDirective at h
  obtain ⟨⟨major, c₁⟩, hmajor, h⟩ := bind_eq_ok_iff.mp h
  dsimp only at h
  split at h
  · simp at h
  · obtain ⟨⟨minor, c₂⟩, hminor, h⟩ := bind_eq_ok_iff.mp h
    dsimp only at h
    split at h
    · obtain ⟨-, rfl⟩ := Prod.mk.inj (Except.ok.inj h)
      exact (((passes_skipSpaces c).reaches.trans (reaches_versionNumber hmajor)).trans
        (reaches_step c₁)).trans (reaches_versionNumber hminor)
    · simp at h

theorem passes_step_of_peek (h : P c.peek) : c.Passes P c.step :=
  passes_step fun ch hch => by
    obtain ⟨rest, hrest⟩ := List.head?_eq_some_iff.mp hch
    rwa [peek_of_rest_cons hrest] at h

theorem peek_step (c : Cursor) : c.step.peek = c.peekAt 1 := by
  simp [peek, peekAt]

/-- The visible characters of ASCII are not blank. -/
theorem isBlank_of_visible {ch : Char} (hlow : 0x21 ≤ ch.toNat) (hhigh : ch.toNat ≤ 0x7e) :
    Text.isBlank ch = false := by
  rw [Bool.eq_false_iff]
  simp only [Text.isBlank, ne_eq, Bool.or_eq_true, Bool.and_eq_true, decide_eq_true_eq, beq_iff_eq]
  omega

theorem isBlank_of_isAlphanum {ch : Char} (h : ch.isAlphanum = true) : Text.isBlank ch = false := by
  have hcode : 48 ≤ ch.toNat ∧ ch.toNat ≤ 122 := by
    rcases Bool.or_eq_true_iff.mp h with hletter | hdigit
    · rcases Bool.or_eq_true_iff.mp hletter with hupper | hlower
      · obtain ⟨hlow, hhigh⟩ : 65 ≤ ch.toNat ∧ ch.toNat ≤ 90 := of_decide_eq_true hupper
        omega
      · obtain ⟨hlow, hhigh⟩ := Bool.and_eq_true_iff.mp hlower
        have hlow : 97 ≤ ch.toNat := of_decide_eq_true hlow
        have hhigh : ch.toNat ≤ 122 := of_decide_eq_true hhigh
        omega
    · have hcode : 48 ≤ ch.toNat ∧ ch.toNat ≤ 57 := Char.isDigit_iff_toNat.mp hdigit
      omega
  exact isBlank_of_visible (by omega) (by omega)

theorem isBlank_of_isNameChar {ch : Char} (h : isNameChar ch = true) : Text.isBlank ch = false := by
  simp only [isNameChar, Bool.or_eq_true, beq_iff_eq] at h
  rcases h with (h | rfl) | rfl
  · exact isBlank_of_isAlphanum h
  · rfl
  · rfl

theorem isBlank_of_isTagChar {ch : Char} (h : isTagChar ch = true) : Text.isBlank ch = false := by
  simp only [isTagChar, Bool.or_eq_true, List.contains_eq_mem, decide_eq_true_eq] at h
  rcases h with h | h
  · exact isBlank_of_isAlphanum h
  · have hall : ∀ ch ∈ "-;/?:@&=+$,_.!~*'()[]".toList, Text.isBlank ch = false :=
      List.forall_iff_forall_mem.mp (by decide)
    exact hall ch h

theorem isBlank_of_isHexDigit {ch : Char} (h : isHexDigit ch = true) : Text.isBlank ch = false := by
  simp only [isHexDigit, Char.isDigit, Bool.or_eq_true, Bool.and_eq_true, decide_eq_true_eq, ge_iff_le,
    Char.le_def, UInt32.le_iff_toNat_le] at h
  change ((48 ≤ ch.toNat ∧ ch.toNat ≤ 57) ∨ (97 ≤ ch.toNat ∧ ch.toNat ≤ 102)) ∨
    (65 ≤ ch.toNat ∧ ch.toNat ≤ 70) at h
  exact isBlank_of_visible (by omega) (by omega)

/-- Steps over a known beginning. -/
theorem passes_advance {n : Nat} (hn : n ≤ c.rest.length) (h : ∀ ch ∈ c.rest.take n, P ch) :
    c.Passes P (c.advance n) :=
  ⟨n, hn, rfl, h⟩

/-- The escapes of a tag. -/
theorem passes_tagEscapes {fuel : Nat} {bytes read : List Nat}
    (h : tagEscapes fuel bytes c = .ok (read, c')) : c.Passes (Text.isBlank · = false) c' := by
  induction fuel generalizing bytes c with
  | zero => simp [tagEscapes] at h
  | succ fuel ih =>
      simp only [tagEscapes] at h
      split at h
      · rename_i hpeek
        split at h
        · rename_i hdigits
          simp only [Bool.and_eq_true, decide_eq_true_eq, List.all_eq_true] at hdigits
          have hlength : 2 ≤ c.step.rest.length := by
            have := hdigits.1
            rw [List.length_take] at this
            omega
          exact ((passes_step_of_peek (by rw [hpeek]; rfl)).trans
            (passes_advance hlength fun ch hch => isBlank_of_isHexDigit (hdigits.2 ch hch))).trans (ih h)
        · simp at h
      · obtain ⟨-, rfl⟩ := Prod.mk.inj (Except.ok.inj h)
        exact .refl _ c

theorem passes_tagText {fuel : Nat} {text read : List Char}
    (h : tagText fuel text c = .ok (read, c')) : c.Passes (Text.isBlank · = false) c' := by
  induction fuel generalizing text c with
  | zero => simp [tagText] at h
  | succ fuel ih =>
      simp only [tagText] at h
      have hword : c.Passes (Text.isBlank · = false) (c.takeWhile isTagChar).2 :=
        passes_takeWhile fun _ => isBlank_of_isTagChar
      split at h
      · obtain ⟨⟨bytes, d⟩, hbytes, h⟩ := bind_eq_ok_iff.mp h
        dsimp only at h
        split at h
        · exact (hword.trans (passes_tagEscapes hbytes)).trans (ih h)
        · simp at h
      · obtain ⟨-, rfl⟩ := Prod.mk.inj (Except.ok.inj h)
        exact hword

theorem passes_tagPiece {piece : String} (h : c.tagPiece = .ok (piece, c')) :
    c.Passes (Text.isBlank · = false) c' := by
  unfold tagPiece at h
  split at h
  · obtain ⟨⟨text, d⟩, htext, h⟩ := bind_eq_ok_iff.mp h
    obtain ⟨-, rfl⟩ := Prod.mk.inj (Except.ok.inj h)
    exact passes_tagText htext
  · simp at h

theorem passes_tagHandle {handle : String} (h : c.tagHandle = .ok (handle, c')) :
    c.step.Passes (Text.isBlank · = false) c' := by
  unfold tagHandle at h
  split at h
  · simp at h
  · split at h
    · obtain ⟨-, rfl⟩ := Prod.mk.inj (Except.ok.inj h)
      exact .refl _ _
    · dsimp only at h
      split at h
      · rename_i hclosing
        obtain ⟨-, rfl⟩ := Prod.mk.inj (Except.ok.inj h)
        generalize hname : (c.rest.drop 1).takeWhile isNameChar = name at hclosing ⊢
        have hmark : (c.rest.drop 1)[name.length]? = some '!' := by
          rw [List.getElem?_drop, Nat.add_comm]
          rw [peekAt] at hclosing
          cases hget : c.rest[name.length + 1]? with
          | none => exact absurd (hget ▸ hclosing) (by decide)
          | some ch => rw [hget] at hclosing; exact congrArg some hclosing
        have htake : (c.rest.drop 1).take name.length = name :=
          (List.prefix_iff_eq_take.mp (hname ▸ List.takeWhile_prefix _)).symm
        refine passes_advance (n := name.length + 1) ?_ fun ch hch => ?_
        · rw [rest_step]
          exact (List.getElem?_eq_some_iff.mp hmark).1
        · rw [rest_step, List.take_add_one, htake, hmark, Option.toList_some, List.mem_append] at hch
          rcases hch with hch | hch
          · exact isBlank_of_isNameChar (List.all_eq_true.mp List.all_takeWhile ch (hname ▸ hch))
          · obtain rfl := List.mem_singleton.mp hch
            rfl
      · simp at h

/-- A tag is a word. -/
theorem passes_writtenTag {tag : WrittenTag} (h : c.writtenTag = .ok (tag, c')) :
    c.step.Passes (Text.isBlank · = false) c' ∧ endsWord c'.peek = true := by
  have hend : ∀ {tag' : WrittenTag} {d : Cursor}, c.step.Passes (Text.isBlank · = false) d →
      (if endsWord d.peek then pure (tag', d) else .error .malformed :
        Except ReadError (WrittenTag × Cursor)) = .ok (tag, c') →
      c.step.Passes (Text.isBlank · = false) c' ∧ endsWord c'.peek = true := by
    intro tag' d hpasses h
    split at h
    · obtain ⟨-, rfl⟩ := Prod.mk.inj (Except.ok.inj h)
      exact ⟨hpasses, ‹_›⟩
    · simp at h
  simp only [writtenTag, pure_bind] at h
  split at h
  · rename_i hopening
    obtain ⟨⟨suffix, d⟩, hsuffix, h⟩ := bind_eq_ok_iff.mp h
    dsimp only at h
    split at h
    · have hsecond : c.step.Passes (Text.isBlank · = false) (c.advance 2) :=
        passes_step_of_peek (by rw [peek_step, hopening]; rfl)
      exact hend ((hsecond.trans (passes_tagPiece hsuffix)).trans
        (passes_step_of_peek (by rw [‹d.peek = '>'›]; rfl))) h
    · obtain ⟨-, h, -⟩ := bind_eq_ok_iff.mp h
      cases h
  · split at h
    · exact hend (.refl _ _) h
    · split at h
      · obtain ⟨⟨handle, d⟩, hhandle, h⟩ := bind_eq_ok_iff.mp h
        obtain ⟨⟨suffix, d'⟩, hsuffix, h⟩ := bind_eq_ok_iff.mp h
        exact hend ((passes_tagHandle hhandle).trans (passes_tagPiece hsuffix)) h
      · obtain ⟨⟨suffix, d⟩, hsuffix, h⟩ := bind_eq_ok_iff.mp h
        exact hend (passes_tagPiece hsuffix) h

/-- An anchor is a word. -/
theorem passes_anchorName {name : String} (h : c.anchorName = .ok (name, c')) :
    c.step.Passes (Text.isBlank · = false) c' ∧
      (endsToken c'.peek = true ∨ c'.peek ∈ "?:,]\x7d%@`".toList) := by
  simp only [anchorName] at h
  split at h
  · simp at h
  · split at h
    · rename_i hend
      obtain ⟨-, rfl⟩ := Prod.mk.inj (Except.ok.inj h)
      exact ⟨passes_takeWhile fun _ => isBlank_of_isNameChar, by simpa using hend⟩
    · simp at h

theorem reaches_tagDirective {d : Directive} (h : c.tagDirective = .ok (d, c')) : c.Reaches c' := by
  unfold tagDirective at h
  obtain ⟨⟨handle, c₁⟩, hhandle, h⟩ := bind_eq_ok_iff.mp h
  dsimp only at h
  split at h
  · simp at h
  · obtain ⟨⟨meaning, c₂⟩, hmeaning, h⟩ := bind_eq_ok_iff.mp h
    dsimp only at h
    split at h
    · obtain ⟨-, rfl⟩ := Prod.mk.inj (Except.ok.inj h)
      exact ((((passes_skipSpaces c).reaches.trans (reaches_step _)).trans
        (passes_tagHandle hhandle).reaches).trans (passes_skipSpaces c₁).reaches).trans
        (passes_tagPiece hmeaning).reaches
    · simp at h

theorem reaches_directive {d : Directive} (h : c.directive = .ok (d, c')) : c.Reaches c' := by
  have hname := (reaches_step c).trans (reaches_takeWhile c.step isNameChar)
  simp only [directive] at h
  split at h
  · simp at h
  · split at h
    · obtain ⟨⟨d', c₁⟩, hversion, h⟩ := bind_eq_ok_iff.mp h
      obtain ⟨c₂, hline, h⟩ := bind_eq_ok_iff.mp h
      obtain ⟨-, rfl⟩ := Prod.mk.inj (Except.ok.inj h)
      exact (hname.trans (reaches_versionDirective hversion)).trans (reaches_ignoredLine hline)
    · split at h
      · obtain ⟨⟨d', c₁⟩, htag, h⟩ := bind_eq_ok_iff.mp h
        obtain ⟨c₂, hline, h⟩ := bind_eq_ok_iff.mp h
        obtain ⟨-, rfl⟩ := Prod.mk.inj (Except.ok.inj h)
        exact (hname.trans (reaches_tagDirective htag)).trans (reaches_ignoredLine hline)
      · rw [pure_bind] at h
        obtain ⟨c₂, hline, h⟩ := bind_eq_ok_iff.mp h
        obtain ⟨-, rfl⟩ := Prod.mk.inj (Except.ok.inj h)
        exact (hname.trans (reaches_takeWhile _ _)).trans (reaches_ignoredLine hline)

end Cursor

end FormulaLint.Yaml
