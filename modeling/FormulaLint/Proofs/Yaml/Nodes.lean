import FormulaLint.Proofs.Yaml.Stretches
import FormulaLint.Yaml.Compose

/-!
# Where the nodes of a text come from

Every scalar node that is not empty is read from tokens behind each other: anchors and tags, and the
scalar itself.  The node starts where the first of them does.

Main results:

- Theorem {lit}`Compose.keeps_bind`: what steps keep, their sequence keeps.
- Theorem {lit}`Compose.keepsParts`: reading keeps the nodes in order, by induction on how deep it goes.
- Theorem {lit}`exists_spelling`: every scalar node is a scalar as it is written in the text.
-/

namespace FormulaLint.Yaml

/-- A scalar node stems from its tokens, unless it is empty. -/
def Node.StemsFrom (tokens : List Token) (node : Node) : Prop :=
  ∀ text style, node.content = .scalar text style → text ≠ "" → ∃ properties mark after,
    (∀ t ∈ properties, t.kind.isProperty = true) ∧
    properties ++ ⟨.scalar text style, mark⟩ :: after <:+ tokens ∧
    (properties ++ ⟨.scalar text style, mark⟩ :: after).head?.map (·.mark) = some node.mark

/-- An empty scalar and a collection stem from anything. -/
theorem Node.stemsFrom_of_content {tokens : List Token} {node : Node}
    (h : ∀ text style, node.content = .scalar text style → text = "") : node.StemsFrom tokens :=
  fun text style hcontent hne => absurd (h text style hcontent) hne

/-- What is still to be read are the last of the tokens, and the scalar nodes stem from tokens. -/
structure Composing.InOrder (tokens : List Token) (s : Composing) : Prop where
  left : s.tokens <:+ tokens
  nodes : ∀ (id : Nat) (node : Node), s.nodes[id]? = some node → node.StemsFrom tokens

namespace Compose

variable {α β : Type} {tokens : List Token} {m : Compose α} {f : α → Compose β} {s s' : Composing}
  {b : β}

/-- A step keeps the nodes in order when it succeeds. -/
def Keeps (tokens : List Token) (m : Compose α) : Prop :=
  ∀ s a s', s.InOrder tokens → m s = .ok (a, s') → s'.InOrder tokens

/-- A step after another one. -/
theorem bind_ok_iff : (m >>= f) s = .ok (b, s') ↔ ∃ a s₁, m s = .ok (a, s₁) ∧ f a s₁ = .ok (b, s') := by
  change (m s >>= fun p => f p.1 p.2) = _ ↔ _
  rw [bind_eq_ok_iff, Prod.exists]

theorem pure_ok_iff {a a' : α} : (pure a : Compose α) s = .ok (a', s') ↔ a = a' ∧ s = s' := by
  change (Except.ok (a, s) : Except ReadError _) = _ ↔ _
  rw [Except.ok.injEq, Prod.mk.injEq]

theorem get_ok_iff {s₁ : Composing} : (get : Compose Composing) s = .ok (s₁, s') ↔ s = s₁ ∧ s = s' := by
  change (Except.ok (s, s) : Except ReadError _) = _ ↔ _
  rw [Except.ok.injEq, Prod.mk.injEq]

/-- What steps keep, their sequence keeps. -/
theorem keeps_bind (hm : Keeps tokens m) (hf : ∀ a, Keeps tokens (f a)) : Keeps tokens (m >>= f) := by
  intro s b s' hs h
  obtain ⟨a, s₁, ha, hb⟩ := bind_ok_iff.mp h
  exact hf a s₁ b s' (hm s a s₁ hs ha) hb

theorem keeps_pure (a : α) : Keeps tokens (pure a : Compose α) := by
  intro s b s' hs h
  obtain ⟨-, rfl⟩ := pure_ok_iff.mp h
  exact hs

theorem keeps_malformed : Keeps tokens (malformed : Compose α) := by
  intro s b s' hs h
  cases h

/-- The next token, which stays. -/
theorem peek_ok {token : Token} (h : peek s = .ok (token, s')) :
    s' = s ∧ s.tokens.head? = some token := by
  obtain ⟨s₁, s₂, hget, h⟩ := bind_ok_iff.mp h
  obtain ⟨rfl, rfl⟩ := get_ok_iff.mp hget
  cases htokens : s.tokens with
  | nil =>
      rw [htokens] at h
      cases h
  | cons first rest =>
      rw [htokens] at h
      obtain ⟨rfl, rfl⟩ := pure_ok_iff.mp h
      exact ⟨rfl, rfl⟩

theorem peekKind_ok {kind : TokenKind} (h : peekKind s = .ok (kind, s')) :
    s' = s ∧ ∃ mark, s.tokens.head? = some ⟨kind, mark⟩ := by
  obtain ⟨token, s₁, hpeek, h⟩ := bind_ok_iff.mp h
  obtain ⟨rfl, rfl⟩ := pure_ok_iff.mp h
  obtain ⟨rfl, hhead⟩ := peek_ok hpeek
  exact ⟨rfl, token.mark, hhead⟩

theorem skip_ok {u : Unit} (h : skip s = .ok (u, s')) : s' = { s with tokens := s.tokens.drop 1 } := by
  obtain ⟨-, rfl⟩ := Prod.mk.inj (Except.ok.inj h)
  rfl

theorem keeps_get : Keeps tokens (get : Compose Composing) := fun _ _ _ hs h => by
  rwa [← (get_ok_iff.mp h).2]

theorem keeps_peek : Keeps tokens peek := fun _ _ _ hs h => by
  rwa [(peek_ok h).1]

theorem keeps_peekKind : Keeps tokens peekKind := fun _ _ _ hs h => by
  rwa [(peekKind_ok h).1]

theorem keeps_skip : Keeps tokens skip := fun s _ _ hs h => by
  rw [skip_ok h]
  exact ⟨(List.drop_suffix 1 s.tokens).trans hs.left, hs.nodes⟩

/-- A node is added that stems from the tokens. -/
theorem keeps_add {node : Node} (hnode : node.StemsFrom tokens) : Keeps tokens (add node) := by
  intro s id s' hs h
  obtain ⟨-, rfl⟩ := Prod.mk.inj (Except.ok.inj h)
  refine ⟨hs.left, fun id' node' hget => ?_⟩
  rw [Array.getElem?_push] at hget
  split at hget
  · obtain rfl := Option.some.inj hget
    exact hnode
  · exact hs.nodes id' node' hget

/-- A collection gets its parts. -/
theorem keeps_fill {id : Nat} {content : Content} (hcontent : ∀ text style, content ≠ .scalar text style) :
    Keeps tokens (fill id content) := by
  intro s u s' hs h
  obtain ⟨-, rfl⟩ := Prod.mk.inj (Except.ok.inj h)
  refine ⟨hs.left, fun id' node' hget => ?_⟩
  rw [Array.getElem?_modify] at hget
  split at hget
  · obtain ⟨old, -, rfl⟩ := Option.map_eq_some_iff.mp hget
    exact Node.stemsFrom_of_content fun text style h => absurd h (hcontent text style)
  · exact hs.nodes id' node' hget

theorem keeps_name (anchor : Option String) (id : Nat) : Keeps tokens (name anchor id) := by
  intro s u s' hs h
  cases anchor with
  | none =>
      obtain ⟨-, rfl⟩ := pure_ok_iff.mp h
      exact hs
  | some anchor =>
      obtain ⟨-, rfl⟩ := Prod.mk.inj (Except.ok.inj h)
      exact ⟨hs.left, hs.nodes⟩

theorem checkFree_ok {anchor : Option String} {u : Unit} (h : checkFree anchor s = .ok (u, s')) :
    s' = s := by
  cases anchor with
  | none =>
      obtain ⟨-, rfl⟩ := pure_ok_iff.mp h
      rfl
  | some anchor =>
      obtain ⟨s₁, s₂, hget, h⟩ := bind_ok_iff.mp h
      obtain ⟨rfl, rfl⟩ := get_ok_iff.mp hget
      split at h
      · cases h
      · obtain ⟨-, rfl⟩ := pure_ok_iff.mp h
        rfl

theorem tagName_ok {tag : Option WrittenTag} {found : Option String}
    (h : tagName tag s = .ok (found, s')) : s' = s := by
  obtain _ | ⟨handle, suffix⟩ := tag
  · exact (pure_ok_iff.mp h).2.symm
  · cases handle with
    | none => exact (pure_ok_iff.mp h).2.symm
    | some handle =>
        obtain ⟨s₁, s₂, hget, h⟩ := bind_ok_iff.mp h
        obtain ⟨rfl, rfl⟩ := get_ok_iff.mp hget
        cases hlookup : s.handles.lookup handle with
        | none =>
            rw [hlookup] at h
            cases h
        | some meaning =>
            rw [hlookup] at h
            exact (pure_ok_iff.mp h).2.symm

theorem keeps_emptyScalar : Keeps tokens emptyScalar :=
  keeps_bind keeps_peek fun _ => keeps_add (Node.stemsFrom_of_content fun _ _ h =>
    (Content.scalar.inj h).1.symm)

/-- The anchor and the tag of a node are the tokens that were read between two states, and the node
starts where the first token does. -/
def Properties.Between (p : Properties) (s s' : Composing) : Prop :=
  ∃ front, s.tokens = front ++ s'.tokens ∧ (∀ t ∈ front, t.kind.isProperty = true) ∧
    s'.nodes = s.nodes ∧ (front ++ s'.tokens).head?.map (·.mark) = some p.mark

/-- One of the two is read. -/
theorem between_one {p : Properties} {first : Token} {u : Unit} (hhead : s.tokens.head? = some first)
    (hfirst : first.kind.isProperty = true) (hskip : skip s = .ok (u, s')) (hmark : p.mark = first.mark) :
    p.Between s s' := by
  obtain ⟨rest, hrest⟩ := List.head?_eq_some_iff.mp hhead
  rw [skip_ok hskip]
  exact ⟨[first], by simp [hrest], by simpa using hfirst, rfl, by simp [hmark]⟩

/-- One of the two is read, and behind it the other one. -/
theorem between_two {p : Properties} {first : Token} {kind : TokenKind} {s₂ s₃ : Composing} {u u' : Unit}
    (hhead : s.tokens.head? = some first) (hfirst : first.kind.isProperty = true)
    (hskip : skip s = .ok (u, s₂)) (hpeek : peekKind s₂ = .ok (kind, s₃))
    (hkind : kind.isProperty = true) (hskip' : skip s₃ = .ok (u', s')) (hmark : p.mark = first.mark) :
    p.Between s s' := by
  obtain ⟨rest, hrest⟩ := List.head?_eq_some_iff.mp hhead
  obtain ⟨rfl, mark, hsecond⟩ := peekKind_ok hpeek
  rw [skip_ok hskip, hrest] at hsecond
  obtain ⟨rest', hrest'⟩ := List.head?_eq_some_iff.mp hsecond
  have hbehind : rest = ⟨kind, mark⟩ :: rest' := hrest'
  rw [skip_ok hskip', skip_ok hskip]
  exact ⟨[first, ⟨kind, mark⟩], by simp [hrest, hbehind], by simpa using ⟨hfirst, hkind⟩, rfl,
    by simp [hmark]⟩

/-- The anchor and the tag of a node are tokens in front of its content. -/
theorem properties_ok {p : Properties} (h : properties s = .ok (p, s')) : p.Between s s' := by
  obtain ⟨first, s₁, hpeek, hread⟩ := bind_ok_iff.mp h
  obtain ⟨hsame, hhead⟩ := peek_ok hpeek
  rw [hsame] at hread
  obtain ⟨kind, mark⟩ := first
  cases kind with
  | anchor anchor =>
      obtain ⟨u, s₂, hskip, hread⟩ := bind_ok_iff.mp hread
      obtain ⟨next, s₃, hnext, hread⟩ := bind_ok_iff.mp hread
      cases next with
      | tag tag =>
          obtain ⟨u', s₄, hskip', hread⟩ := bind_ok_iff.mp hread
          obtain ⟨rfl, rfl⟩ := pure_ok_iff.mp hread
          exact between_two hhead rfl hskip hnext rfl hskip' rfl
      | _ =>
          rw [(peekKind_ok hnext).1] at hread
          obtain ⟨rfl, rfl⟩ := pure_ok_iff.mp hread
          exact between_one hhead rfl hskip rfl
  | tag tag =>
      obtain ⟨u, s₂, hskip, hread⟩ := bind_ok_iff.mp hread
      obtain ⟨next, s₃, hnext, hread⟩ := bind_ok_iff.mp hread
      cases next with
      | anchor anchor =>
          obtain ⟨u', s₄, hskip', hread⟩ := bind_ok_iff.mp hread
          obtain ⟨rfl, rfl⟩ := pure_ok_iff.mp hread
          exact between_two hhead rfl hskip hnext rfl hskip' rfl
      | _ =>
          rw [(peekKind_ok hnext).1] at hread
          obtain ⟨rfl, rfl⟩ := pure_ok_iff.mp hread
          exact between_one hhead rfl hskip rfl
  | _ =>
      obtain ⟨rfl, rfl⟩ := pure_ok_iff.mp hread
      exact ⟨[], by simp, by simp, rfl, by simp [hhead]⟩

/-- What reading the parts of a document keeps, up to a depth. -/
structure KeepsParts (tokens : List Token) (fuel : Nat) : Prop where
  node : ∀ block indentless, Keeps tokens (Compose.node fuel block indentless)
  blockItems : Keeps tokens (Compose.blockItems fuel)
  indentlessItems : Keeps tokens (Compose.indentlessItems fuel)
  blockEntries : Keeps tokens (Compose.blockEntries fuel)
  blockValue : Keeps tokens (Compose.blockValue fuel)
  flowItems : ∀ first, Keeps tokens (Compose.flowItems fuel first)
  flowEntries : ∀ first, Keeps tokens (Compose.flowEntries fuel first)

variable {fuel : Nat}

/-- A new node is named. -/
theorem keeps_start (anchor : Option String) {node : Node} (hnode : node.StemsFrom tokens) :
    Keeps tokens (do
      checkFree anchor
      let id ← add node
      Compose.name anchor id
      return id) :=
  keeps_bind (fun _ _ _ hs h => by rwa [checkFree_ok h]) fun _ =>
    keeps_bind (keeps_add hnode) fun _ => keeps_bind (keeps_name anchor _) fun _ => keeps_pure _

/-- A new collection stems from anything. -/
theorem keeps_collection (anchor : Option String) (tag : Tag) (mark : Mark) {content : Content}
    (hcontent : ∀ text style, content ≠ .scalar text style) :
    Keeps tokens (do
      checkFree anchor
      let id ← add ⟨tag, mark, content⟩
      Compose.name anchor id
      return id) :=
  keeps_start anchor (Node.stemsFrom_of_content fun text style h => absurd h (hcontent text style))

/-- The items of a list are read behind its start and filled in. -/
theorem keeps_sequence {read : Compose (List Nat)} (hread : Keeps tokens read) (id : Nat) :
    Keeps tokens (do
      fill id (.sequence (← read))
      return id) :=
  keeps_bind hread fun _ => keeps_bind (keeps_fill (by simp)) fun _ => keeps_pure _

theorem keeps_mapping {read : Compose (List (Nat × Nat))} (hread : Keeps tokens read) (id : Nat) :
    Keeps tokens (do
      fill id (.mapping (← read))
      return id) :=
  keeps_bind hread fun _ => keeps_bind (keeps_fill (by simp)) fun _ => keeps_pure _

theorem keeps_node (ih : KeepsParts tokens fuel) (block indentless : Bool) :
    Keeps tokens (node (fuel + 1) block indentless) := by
  unfold Compose.node
  refine keeps_bind keeps_peekKind fun kind => ?_
  split
  · refine keeps_bind keeps_skip fun _ => keeps_bind keeps_get fun _ => ?_
    split
    · exact keeps_pure _
    · exact keeps_malformed
  · intro s id s' hs h
    obtain ⟨p, s₁, hp, h⟩ := bind_ok_iff.mp h
    obtain ⟨name, s₂, hname, h⟩ := bind_ok_iff.mp h
    obtain ⟨token, s₃, hpeek, h⟩ := bind_ok_iff.mp h
    rw [(peek_ok hpeek).1, tagName_ok hname] at h
    obtain ⟨front, hfront, hproperties, hnodes, hmark⟩ := properties_ok hp
    have hs₁ : s₁.InOrder tokens :=
      ⟨(hfront ▸ List.suffix_append front s₁.tokens).trans hs.left, hnodes ▸ hs.nodes⟩
    refine (?_ : Keeps tokens _) _ _ _ hs₁ h
    dsimp only
    split
    · -- The scalar and what was read in front of it are tokens behind each other.
      rename_i text style hkind
      have hhead := (peek_ok hpeek).2
      rw [tagName_ok hname] at hhead
      refine keeps_bind keeps_skip fun _ => keeps_start _ fun text' style' hcontent _ => ?_
      obtain ⟨rfl, rfl⟩ := Content.scalar.inj hcontent
      obtain ⟨rest, hrest⟩ := List.head?_eq_some_iff.mp hhead
      obtain ⟨kind', mark⟩ := token
      obtain rfl : kind' = _ := hkind
      rw [hrest] at hfront hmark
      exact ⟨front, mark, rest, hproperties, hfront ▸ hs.left, hmark⟩
    · exact keeps_bind (keeps_collection _ _ _ (by simp)) fun _ => keeps_bind keeps_skip fun _ =>
        keeps_sequence (ih.flowItems true) _
    · exact keeps_bind (keeps_collection _ _ _ (by simp)) fun _ => keeps_bind keeps_skip fun _ =>
        keeps_mapping (ih.flowEntries true) _
    · split
      · exact keeps_bind (keeps_collection _ _ _ (by simp)) fun _ =>
          keeps_sequence ih.indentlessItems _
      · split
        · exact keeps_bind (keeps_collection _ _ _ (by simp)) fun _ => keeps_bind keeps_skip fun _ =>
            keeps_sequence ih.blockItems _
        · split
          · exact keeps_bind (keeps_collection _ _ _ (by simp)) fun _ => keeps_bind keeps_skip fun _ =>
              keeps_mapping ih.blockEntries _
          · split
            · exact keeps_start _ (Node.stemsFrom_of_content fun _ _ h => (Content.scalar.inj h).1.symm)
            · exact keeps_malformed

theorem keeps_blockItems (ih : KeepsParts tokens fuel) : Keeps tokens (blockItems (fuel + 1)) := by
  unfold Compose.blockItems
  refine keeps_bind keeps_peekKind fun kind => ?_
  split
  · refine keeps_bind keeps_skip fun _ => keeps_bind keeps_peekKind fun next => ?_
    have hlater : ∀ item, Keeps tokens (do return item :: (← Compose.blockItems fuel)) :=
      fun _ => keeps_bind ih.blockItems fun _ => keeps_pure _
    split
    · exact keeps_bind keeps_emptyScalar hlater
    · exact keeps_bind keeps_emptyScalar hlater
    · exact keeps_bind (ih.node true false) hlater
  · exact keeps_bind keeps_skip fun _ => keeps_pure _
  · exact keeps_malformed

theorem keeps_indentlessItems (ih : KeepsParts tokens fuel) :
    Keeps tokens (indentlessItems (fuel + 1)) := by
  unfold Compose.indentlessItems
  refine keeps_bind keeps_peekKind fun kind => ?_
  split
  · refine keeps_bind keeps_skip fun _ => keeps_bind keeps_peekKind fun next => ?_
    have hlater : ∀ item, Keeps tokens (do return item :: (← Compose.indentlessItems fuel)) :=
      fun _ => keeps_bind ih.indentlessItems fun _ => keeps_pure _
    split
    · exact keeps_bind keeps_emptyScalar hlater
    · exact keeps_bind keeps_emptyScalar hlater
    · exact keeps_bind keeps_emptyScalar hlater
    · exact keeps_bind keeps_emptyScalar hlater
    · exact keeps_bind (ih.node true false) hlater
  · exact keeps_pure _

theorem keeps_blockEntries (ih : KeepsParts tokens fuel) :
    Keeps tokens (blockEntries (fuel + 1)) := by
  unfold Compose.blockEntries
  refine keeps_bind keeps_peekKind fun kind => ?_
  split
  · refine keeps_bind keeps_skip fun _ => keeps_bind keeps_peekKind fun next => ?_
    have hlater : ∀ key, Keeps tokens (do
        let value ← Compose.blockValue fuel
        return (key, value) :: (← Compose.blockEntries fuel)) :=
      fun _ => keeps_bind ih.blockValue fun _ => keeps_bind ih.blockEntries fun _ => keeps_pure _
    split
    · exact keeps_bind keeps_emptyScalar hlater
    · exact keeps_bind keeps_emptyScalar hlater
    · exact keeps_bind keeps_emptyScalar hlater
    · exact keeps_bind (ih.node true true) hlater
  · exact keeps_bind keeps_skip fun _ => keeps_pure _
  · exact keeps_malformed

theorem keeps_blockValue (ih : KeepsParts tokens fuel) : Keeps tokens (blockValue (fuel + 1)) := by
  unfold Compose.blockValue
  refine keeps_bind keeps_peekKind fun kind => ?_
  split
  · refine keeps_bind keeps_skip fun _ => keeps_bind keeps_peekKind fun next => ?_
    split
    · exact keeps_emptyScalar
    · exact keeps_emptyScalar
    · exact keeps_emptyScalar
    · exact ih.node true true
  · exact keeps_emptyScalar

theorem keeps_flowItems (ih : KeepsParts tokens fuel) (first : Bool) :
    Keeps tokens (flowItems (fuel + 1) first) := by
  unfold Compose.flowItems
  refine keeps_bind keeps_peekKind fun kind => ?_
  split
  · exact keeps_bind keeps_skip fun _ => keeps_pure _
  · extract_lets next
    have hnext : ∀ r, Keeps tokens (next r) := fun r => by
      refine keeps_bind keeps_peekKind fun kind => ?_
      split
      · exact keeps_bind keeps_skip fun _ => keeps_pure _
      · refine keeps_bind keeps_peek fun token => keeps_bind (keeps_add
          (Node.stemsFrom_of_content (by simp))) fun id => keeps_bind keeps_skip fun _ =>
            keeps_bind keeps_peekKind fun kind => ?_
        extract_lets withKey
        have hkey : ∀ key, Keeps tokens (withKey key) := fun key => by
          refine keeps_bind keeps_peekKind fun kind => ?_
          extract_lets withValue
          have hvalue : ∀ value, Keeps tokens (withValue value) := fun value =>
            keeps_bind (keeps_fill (by simp)) fun _ => keeps_bind (ih.flowItems false) fun _ =>
              keeps_pure _
          split
          · refine keeps_bind keeps_skip fun _ => keeps_bind keeps_peekKind fun kind => ?_
            split
            · exact keeps_bind keeps_emptyScalar hvalue
            · exact keeps_bind keeps_emptyScalar hvalue
            · exact keeps_bind (ih.node false false) hvalue
          · exact keeps_bind keeps_emptyScalar hvalue
        split
        · exact keeps_bind keeps_emptyScalar hkey
        · exact keeps_bind keeps_emptyScalar hkey
        · exact keeps_bind keeps_emptyScalar hkey
        · exact keeps_bind (ih.node false false) hkey
      · exact keeps_bind (ih.node false false) fun _ => keeps_bind (ih.flowItems false) fun _ =>
          keeps_pure _
    split
    · exact hnext ()
    · refine keeps_bind keeps_peekKind fun kind => ?_
      split
      · exact keeps_bind keeps_skip hnext
      · exact keeps_bind keeps_malformed hnext

theorem keeps_flowEntries (ih : KeepsParts tokens fuel) (first : Bool) :
    Keeps tokens (flowEntries (fuel + 1) first) := by
  unfold Compose.flowEntries
  refine keeps_bind keeps_peekKind fun kind => ?_
  split
  · exact keeps_bind keeps_skip fun _ => keeps_pure _
  · extract_lets withKey next
    have hkey : ∀ key, Keeps tokens (withKey key) := fun key => by
      refine keeps_bind keeps_peekKind fun kind => ?_
      extract_lets withValue
      have hvalue : ∀ value, Keeps tokens (withValue value) := fun value =>
        keeps_bind (ih.flowEntries false) fun _ => keeps_pure _
      split
      · refine keeps_bind keeps_skip fun _ => keeps_bind keeps_peekKind fun kind => ?_
        split
        · exact keeps_bind keeps_emptyScalar hvalue
        · exact keeps_bind keeps_emptyScalar hvalue
        · exact keeps_bind (ih.node false false) hvalue
      · exact keeps_bind keeps_emptyScalar hvalue
    have hnext : ∀ r, Keeps tokens (next r) := fun r => by
      refine keeps_bind keeps_peekKind fun kind => ?_
      split
      · exact keeps_bind keeps_skip fun _ => keeps_pure _
      · refine keeps_bind keeps_skip fun _ => keeps_bind keeps_peekKind fun kind => ?_
        split
        · exact keeps_bind keeps_emptyScalar hkey
        · exact keeps_bind keeps_emptyScalar hkey
        · exact keeps_bind keeps_emptyScalar hkey
        · exact keeps_bind (ih.node false false) hkey
      · exact keeps_bind (ih.node false false) fun _ => keeps_bind keeps_emptyScalar fun _ =>
          keeps_bind (ih.flowEntries false) fun _ => keeps_pure _
    split
    · exact hnext ()
    · refine keeps_bind keeps_peekKind fun kind => ?_
      split
      · exact keeps_bind keeps_skip hnext
      · exact keeps_bind keeps_malformed hnext

/-- Reading keeps the nodes in order, however deep it goes. -/
theorem keepsParts (tokens : List Token) (fuel : Nat) : KeepsParts tokens fuel := by
  induction fuel with
  | zero =>
      refine ⟨fun _ _ => ?_, ?_, ?_, ?_, ?_, fun _ => ?_, fun _ => ?_⟩
      · unfold Compose.node; exact keeps_malformed
      · unfold Compose.blockItems; exact keeps_malformed
      · unfold Compose.indentlessItems; exact keeps_malformed
      · unfold Compose.blockEntries; exact keeps_malformed
      · unfold Compose.blockValue; exact keeps_malformed
      · unfold Compose.flowItems; exact keeps_malformed
      · unfold Compose.flowEntries; exact keeps_malformed
  | succ fuel ih =>
      exact ⟨keeps_node ih, keeps_blockItems ih, keeps_indentlessItems ih, keeps_blockEntries ih,
        keeps_blockValue ih, keeps_flowItems ih, keeps_flowEntries ih⟩

/-! ## Documents -/

/-- Changing the tag handles changes no node. -/
theorem keeps_handles (f : Composing → List (String × String)) :
    Keeps tokens (modify fun s => { s with handles := f s } : Compose Unit) := by
  intro s u s' hs h
  obtain ⟨-, rfl⟩ := Prod.mk.inj (Except.ok.inj h)
  exact ⟨hs.left, hs.nodes⟩

theorem keeps_directives (versioned : Bool) (handles : List (String × String)) :
    Keeps tokens (directives fuel versioned handles) := by
  induction fuel generalizing versioned handles with
  | zero => exact keeps_malformed
  | succ fuel ih =>
      unfold directives
      refine keeps_bind keeps_peekKind fun kind => ?_
      split
      · refine keeps_bind keeps_skip fun _ => ?_
        split
        · split
          · exact keeps_malformed
          · exact ih _ _
        · split
          · exact keeps_malformed
          · exact ih _ _
        · exact ih _ _
      · exact keeps_pure _

theorem keeps_skipDocumentEnds : Keeps tokens (skipDocumentEnds fuel) := by
  induction fuel with
  | zero => exact keeps_malformed
  | succ fuel ih =>
      unfold skipDocumentEnds
      refine keeps_bind keeps_peekKind fun kind => ?_
      split
      · exact keeps_bind keeps_skip fun _ => ih
      · exact keeps_pure _

theorem keeps_content : Keeps tokens (content fuel) := by
  refine keeps_bind keeps_peekKind fun kind => ?_
  split
  · exact keeps_emptyScalar
  · exact keeps_emptyScalar
  · exact keeps_emptyScalar
  · exact keeps_emptyScalar
  · exact (keepsParts tokens fuel).node true false

theorem keeps_explicitDocument : Keeps tokens (explicitDocument fuel) := by
  refine keeps_bind (keeps_directives _ _) fun handles => keeps_bind (keeps_handles _) fun _ =>
    keeps_bind keeps_peekKind fun kind => ?_
  split
  · exact keeps_bind keeps_skip fun _ => keeps_content
  · exact keeps_malformed

theorem keeps_stream : Keeps tokens (stream fuel) := by
  refine keeps_bind keeps_peekKind fun kind => ?_
  extract_lets behind
  have hbehind : ∀ root, Keeps tokens (behind root) := fun root => by
    refine keeps_bind keeps_skipDocumentEnds fun _ => keeps_bind keeps_peekKind fun kind => ?_
    split
    · exact keeps_pure _
    · exact keeps_malformed
  split
  · exact keeps_pure _
  · exact keeps_bind keeps_explicitDocument hbehind
  · exact keeps_bind keeps_explicitDocument hbehind
  · exact keeps_bind (keeps_handles _) fun _ =>
      keeps_bind ((keepsParts tokens fuel).node true false) hbehind

end Compose

/-- A text that has a graph has only characters that may stand in it. -/
theorem isAllowed_of_compose {text : List Char} {root : Option Graph} (h : compose text = .ok root) :
    text.all isAllowed = true := by
  obtain ⟨⟨node, s⟩, hrun, -⟩ := bind_eq_ok_iff.mp h
  by_contra hnot
  have htokens : tokensOf text = ⟨[], some .malformed⟩ := by rw [tokensOf, if_neg hnot]
  rw [htokens] at hrun
  obtain ⟨kind, s₁, hpeek, -⟩ := Compose.bind_ok_iff.mp hrun
  obtain ⟨-, mark, hhead⟩ := Compose.peekKind_ok hpeek
  cases hhead

/-- Every scalar node of a text that is not empty is a scalar as it is written in the text. -/
theorem exists_spelling {text : List Char} {g : Graph} (h : compose text = .ok (some g)) {id : Nat}
    {tag : Tag} {mark : Mark} {value : String} {style : ScalarStyle}
    (hnode : g.node? id = some ⟨tag, mark, .scalar value style⟩) (hvalue : value ≠ "") :
    ∃ s : Spelling, s.In text ∧ s.style = style ∧ s.value = value ∧ s.first.mark = mark := by
  obtain ⟨⟨root, s⟩, hrun, h⟩ := bind_eq_ok_iff.mp h
  have hs : s.InOrder (tokensOf text).list :=
    Compose.keeps_stream _ _ _ ⟨List.suffix_rfl, by simp⟩ hrun
  obtain ⟨root, rfl, rfl⟩ := Option.map_eq_some_iff.mp (Except.ok.inj h)
  obtain ⟨front, mark', after, hfront, hsuffix, hmark⟩ := hs.nodes id _ hnode value style rfl hvalue
  obtain ⟨s, hin, hstyle, hspelled, hfirst⟩ :=
    (standInText_tokensOf text).spelling hsuffix hfront
  exact ⟨s, hin, hstyle, hspelled, Option.some.inj (hfirst.symm.trans hmark)⟩

end FormulaLint.Yaml
