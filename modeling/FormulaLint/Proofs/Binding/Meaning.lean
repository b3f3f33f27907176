import FormulaLint.Binding.Resolve

/-!
# What a name means

The meaning of a reference by name, rule by rule, in a scope with a list of frames.  Each rule says
what the name stands for and, where the answer comes from a frame, at which position of the list the
frame stands.  The resolver gives every reference exactly its meaning.

Main results:

- Theorem {lit}`find?_reverse_iff`: looking from the inside finds the innermost frame.
- Theorem {lit}`find?_iff`: looking from the outside finds the outermost frame.
- Theorem {lit}`NameReference.means_iff`: a reference means exactly what it is bound to.
-/

namespace FormulaLint

/-! ## Frames by position -/

/-- The innermost frame with a property, by its position: no frame further in has the property. -/
structure Innermost (P : Frame → Prop) (frames : List Frame) (k : Nat) (frame : Frame) : Prop where
  found : frames[k]? = some frame
  holds : P frame
  last : ∀ j other, k < j → frames[j]? = some other → ¬ P other

/-- The outermost frame with a property, by its position: no frame further out has the property. -/
structure Outermost (P : Frame → Prop) (frames : List Frame) (k : Nat) (frame : Frame) : Prop where
  found : frames[k]? = some frame
  holds : P frame
  first : ∀ j other, j < k → frames[j]? = some other → ¬ P other

variable {frames : List Frame} {frame : Frame} {p : Frame → Bool}

/-- Looking from the inside finds the innermost frame. -/
theorem find?_reverse_iff :
    frames.reverse.find? p = some frame ↔ ∃ k, Innermost (p · = true) frames k frame := by
  rw [List.find?_eq_some_iff_append]
  constructor
  · rintro ⟨hp, inner, outer, hsplit, hinner⟩
    have hframes : frames = outer.reverse ++ frame :: inner.reverse := by
      simpa using congrArg List.reverse hsplit
    refine ⟨outer.length, by simp [hframes], hp, ?_⟩
    intro j other hj hother
    obtain ⟨d, rfl⟩ : ∃ d, j = outer.length + (d + 1) := ⟨j - outer.length - 1, by omega⟩
    rw [hframes, List.getElem?_append_right (by simp), List.length_reverse,
      Nat.add_sub_cancel_left, List.getElem?_cons_succ] at hother
    have hmem : other ∈ inner := List.mem_reverse.mp (List.mem_of_getElem? hother)
    simpa using hinner other hmem
  · rintro ⟨k, hfound, hp, hlast⟩
    rcases List.getElem?_eq_some_iff.mp hfound with ⟨hlt, rfl⟩
    refine ⟨hp, (frames.drop (k + 1)).reverse, (frames.take k).reverse, by simp, ?_⟩
    intro other hother
    rcases List.mem_iff_getElem?.mp (List.mem_reverse.mp hother) with ⟨d, hd⟩
    rw [List.getElem?_drop] at hd
    simpa using hlast (k + 1 + d) other (by omega) hd

/-- Looking from the outside finds the outermost frame. -/
theorem find?_iff :
    frames.find? p = some frame ↔ ∃ k, Outermost (p · = true) frames k frame := by
  rw [List.find?_eq_some_iff_getElem]
  constructor
  · rintro ⟨hp, k, hlt, rfl, hbefore⟩
    refine ⟨k, List.getElem?_eq_getElem hlt, hp, ?_⟩
    intro j other hj hother
    rcases List.getElem?_eq_some_iff.mp hother with ⟨_, rfl⟩
    simpa using hbefore j hj
  · rintro ⟨k, hfound, hp, hfirst⟩
    rcases List.getElem?_eq_some_iff.mp hfound with ⟨hlt, rfl⟩
    refine ⟨hp, k, hlt, rfl, fun j hj => ?_⟩
    simpa using hfirst j _ hj (List.getElem?_eq_getElem (by omega))

/-- Looking from the inside finds nothing exactly when no frame will do. -/
theorem find?_reverse_eq_none :
    frames.reverse.find? p = none ↔ ∀ frame ∈ frames, ¬ p frame = true := by
  rw [List.find?_eq_none]
  simp only [List.mem_reverse]

/-! ## Meaning -/

/-- The kind of a declared name in a reference: members refine controls and enumerations. -/
def NameReference.declaredKind (r : NameReference) (kind : ReferenceKind) : ReferenceKind :=
  match r.member, kind with
  | some _, .control => .controlProperty
  | some _, .enumeration => .enumerationMember
  | _, kind => kind

/-- Whether a frame may be what a keyword for the current record or item stands for. -/
def Frame.Answers (keyword : String) (frame : Frame) : Prop :=
  keyword = "ThisItem" → frame.kind = .item

/-- What a reference by name means in a scope, with the position of the frame that it is bound to,
if it is bound to one. -/
inductive NameReference.Means (symbols : SymbolTable) (scope : Scope) (r : NameReference) :
    Option Nat → Binding → Prop
  /-- A plain name is a field of the innermost frame that has it. -/
  | rowField {name : String} {k : Nat} {frame : Frame} (identifier : r.identifier = .plain name)
      (row : Innermost (·.hasField name = true) scope.frames k frame) :
      Means symbols scope r (some k)
        ⟨.dataSourceField, name, frame.source, some frame, r.member⟩
  /-- A plain name that no frame has is what it is declared as. -/
  | declared {name : String} {kind : ReferenceKind} (identifier : r.identifier = .plain name)
      (unshadowed : ∀ frame ∈ scope.frames, ¬ frame.hasField name = true)
      (known : symbols.lookup name = some kind) :
      Means symbols scope r none ⟨r.declaredKind kind, name, none, none, r.member⟩
  /-- A plain name that is not declared either is a field of the innermost frame with unknown
  fields. -/
  | assumed {name : String} {k : Nat} {frame : Frame} (identifier : r.identifier = .plain name)
      (unshadowed : ∀ frame ∈ scope.frames, ¬ frame.hasField name = true)
      (unknown : symbols.lookup name = none)
      (row : Innermost (·.fields = none) scope.frames k frame) :
      Means symbols scope r (some k)
        ⟨.dataSourceField, name, frame.source, some frame, r.member⟩
  /-- A plain name means nothing when every frame knows its fields. -/
  | undefined {name : String} (identifier : r.identifier = .plain name)
      (unshadowed : ∀ frame ∈ scope.frames, ¬ frame.hasField name = true)
      (unknown : symbols.lookup name = none)
      (closed : ∀ frame ∈ scope.frames, ¬ frame.fields = none) :
      Means symbols scope r none ⟨.unresolved, name, none, none, r.member⟩
  /-- A global name is what it is declared as, whatever frames there are. -/
  | global {name : String} {kind : ReferenceKind} (identifier : r.identifier = .global name)
      (known : symbols.lookup name = some kind) :
      Means symbols scope r none ⟨r.declaredKind kind, name, none, none, r.member⟩
  /-- A global name that is not declared means nothing. -/
  | undeclared {name : String} (identifier : r.identifier = .global name)
      (unknown : symbols.lookup name = none) :
      Means symbols scope r none ⟨.unresolved, name, none, none, r.member⟩
  /-- A field of a named source is read from the outermost frame over the source. -/
  | sourceField {source name : String} {k : Nat} {frame : Frame}
      (identifier : r.identifier = .field source name)
      (row : Outermost (·.source = some source) scope.frames k frame)
      (listed : ∀ fields, frame.fields = some fields → name ∈ fields) :
      Means symbols scope r (some k)
        ⟨.dataSourceField, name, some source, some frame, r.member⟩
  /-- A field that the outermost frame over the source is known not to have means nothing. -/
  | missingField {source name : String} {k : Nat} {frame : Frame} {fields : List String}
      (identifier : r.identifier = .field source name)
      (row : Outermost (·.source = some source) scope.frames k frame)
      (fieldsKnown : frame.fields = some fields) (unlisted : name ∉ fields) :
      Means symbols scope r none ⟨.unresolved, name, none, none, r.member⟩
  /-- Without a frame over it, a declared data source has the field unless it is known not to. -/
  | declaredField {source name : String} (identifier : r.identifier = .field source name)
      (noRow : ∀ frame ∈ scope.frames, ¬ frame.source = some source)
      (known : symbols.lookup source = some .dataSource)
      (listed : ∀ fields, symbols.fieldsOf source = some fields → name ∈ fields) :
      Means symbols scope r none ⟨.dataSourceField, name, some source, none, r.member⟩
  /-- A field that a declared data source is known not to have means nothing. -/
  | missingDeclaredField {source name : String} {fields : List String}
      (identifier : r.identifier = .field source name)
      (noRow : ∀ frame ∈ scope.frames, ¬ frame.source = some source)
      (known : symbols.lookup source = some .dataSource)
      (fieldsKnown : symbols.fieldsOf source = some fields) (unlisted : name ∉ fields) :
      Means symbols scope r none ⟨.unresolved, name, none, none, r.member⟩
  /-- A field of what is no data source means nothing. -/
  | noSource {source name : String} (identifier : r.identifier = .field source name)
      (noRow : ∀ frame ∈ scope.frames, ¬ frame.source = some source)
      (unknown : symbols.lookup source ≠ some .dataSource) :
      Means symbols scope r none ⟨.unresolved, name, none, none, r.member⟩
  /-- The keyword for the current control. -/
  | self (identifier : r.identifier = .context "Self") :
      Means symbols scope r none ⟨.contextKeyword, "Self", scope.self, none, r.member⟩
  /-- The keyword for the parent of the current control. -/
  | parent (identifier : r.identifier = .context "Parent") :
      Means symbols scope r none ⟨.contextKeyword, "Parent", scope.parent, none, r.member⟩
  /-- The keywords for the current item and the current record. -/
  | current {keyword : String} {k : Nat} {frame : Frame}
      (identifier : r.identifier = .context keyword) (notSelf : keyword ≠ "Self")
      (notParent : keyword ≠ "Parent")
      (row : Innermost (·.Answers keyword) scope.frames k frame) :
      Means symbols scope r (some k)
        ⟨.contextKeyword, keyword, frame.source, some frame, r.member⟩
  /-- Where there is no such item or record, the keyword has no frame. -/
  | unavailable {keyword : String} (identifier : r.identifier = .context keyword)
      (notSelf : keyword ≠ "Self") (notParent : keyword ≠ "Parent")
      (noRow : ∀ frame ∈ scope.frames, ¬ frame.Answers keyword) :
      Means symbols scope r none ⟨.contextKeyword, keyword, none, none, r.member⟩

/-! ## Looking up frames -/

namespace Scope

variable {scope : Scope}

/-- The frame that is found for a field is the innermost one that has it. -/
theorem frameWith_iff {name : String} :
    scope.frameWith name = some frame ↔
      ∃ k, Innermost (·.hasField name = true) scope.frames k frame :=
  find?_reverse_iff

/-- No frame is found for a field exactly when none has it. -/
theorem frameWith_eq_none {name : String} :
    scope.frameWith name = none ↔ ∀ frame ∈ scope.frames, ¬ frame.hasField name = true :=
  find?_reverse_eq_none

/-- The open frame is the innermost one with unknown fields. -/
theorem openFrame_iff :
    scope.openFrame = some frame ↔ ∃ k, Innermost (·.fields = none) scope.frames k frame := by
  simp only [← Option.isNone_iff_eq_none]
  exact find?_reverse_iff

/-- There is no open frame exactly when every frame knows its fields. -/
theorem openFrame_eq_none :
    scope.openFrame = none ↔ ∀ frame ∈ scope.frames, ¬ frame.fields = none := by
  simp [openFrame]

/-- The frame that is found for a source is the outermost one over it. -/
theorem frameOver_iff {source : String} :
    scope.frameOver source = some frame ↔
      ∃ k, Outermost (·.source = some source) scope.frames k frame := by
  simpa [frameOver] using find?_iff (p := fun frame : Frame => frame.source = some source)

/-- No frame is found for a source exactly when none is over it. -/
theorem frameOver_eq_none {source : String} :
    scope.frameOver source = none ↔ ∀ frame ∈ scope.frames, ¬ frame.source = some source := by
  simp [frameOver]

/-- The sort of frame that a keyword asks for. -/
theorem answers_iff {keyword : String} :
    frame.Answers keyword ↔
      (match if keyword = "ThisItem" then some FrameKind.item else none with
        | some kind => decide (frame.kind = kind)
        | none => true) = true := by
  by_cases h : keyword = "ThisItem" <;> simp [Frame.Answers, h]

/-- The frame that is found for a keyword is the innermost one that answers to it. -/
theorem innermost_iff {keyword : String} :
    scope.innermost (if keyword = "ThisItem" then some .item else none) = some frame ↔
      ∃ k, Innermost (·.Answers keyword) scope.frames k frame := by
  simp only [answers_iff]
  exact find?_reverse_iff

/-- No frame is found for a keyword exactly when none answers to it. -/
theorem innermost_eq_none {keyword : String} :
    scope.innermost (if keyword = "ThisItem" then some .item else none) = none ↔
      ∀ frame ∈ scope.frames, ¬ frame.Answers keyword := by
  simp only [answers_iff]
  exact find?_reverse_eq_none

end Scope

/-! ## Meaning and binding -/

namespace NameReference

variable {symbols : SymbolTable} {scope : Scope} {r : NameReference} {position : Option Nat}
  {b : Binding}

/-- A declared name is bound with its kind in the reference. -/
theorem declared_binding (r : NameReference) (kind : ReferenceKind) :
    (r.declared kind).binding =
      ⟨r.declaredKind kind, r.identifier.name, none, none, r.member⟩ := by
  unfold declared declaredKind
  cases r.member <;> cases kind <;> rfl

/-- A field that is listed, or may be, is found. -/
theorem bindField_check_listed {source name : String} {fields : Option (List String)}
    (h : ∀ known, fields = some known → name ∈ known) (frame : Option Frame) :
    bindField.check r source name fields frame =
      ⟨⟨.dataSourceField, name, some source, frame, r.member⟩, none⟩ := by
  unfold bindField.check
  rw [if_neg]
  cases fields with
  | none => simp
  | some known => simpa using h known rfl

/-- A field that is known to be missing is not found. -/
theorem bindField_check_unlisted {source name : String} {known : List String}
    (h : name ∉ known) (frame : Option Frame) :
    (bindField.check r source name (some known) frame).binding =
      ⟨.unresolved, r.identifier.name, none, none, r.member⟩ := by
  unfold bindField.check
  rw [if_pos (by simpa using h)]
  rfl

/-- How a reference is bound goes by its identifier. -/
theorem bind_plain {name : String} (h : r.identifier = .plain name) :
    r.bind symbols scope = r.bindPlain symbols scope name := by
  simp only [bind, h]

theorem bind_global {name : String} (h : r.identifier = .global name) :
    r.bind symbols scope = r.bindGlobal symbols name := by
  simp only [bind, h]

theorem bind_field {source name : String} (h : r.identifier = .field source name) :
    r.bind symbols scope = r.bindField symbols scope source name := by
  simp only [bind, h]

theorem bind_self (h : r.identifier = .context "Self") :
    r.bind symbols scope = r.bindControl "Self" scope.self := by
  simp only [bind, h, ↓reduceIte]

theorem bind_parent (h : r.identifier = .context "Parent") :
    r.bind symbols scope = r.bindControl "Parent" scope.parent := by
  simp only [bind, h]
  rw [if_neg (by decide), if_pos trivial]

theorem bind_record {keyword : String} (h : r.identifier = .context keyword)
    (hself : keyword ≠ "Self") (hparent : keyword ≠ "Parent") :
    r.bind symbols scope = r.bindRecord keyword
      (scope.innermost (if keyword = "ThisItem" then some .item else none)) := by
  simp only [bind, h]
  rw [if_neg hself, if_neg hparent]

/-- A reference is bound to what it means. -/
theorem Means.bind_eq (h : r.Means symbols scope position b) :
    (r.bind symbols scope).binding = b := by
  cases h with
  | rowField identifier row =>
      rw [bind_plain identifier, bindPlain, Scope.frameWith_iff.mpr ⟨_, row⟩]
      simp only [fieldOf, identifier, Identifier.name]
  | declared identifier unshadowed known =>
      rw [bind_plain identifier, bindPlain, Scope.frameWith_eq_none.mpr unshadowed, known]
      simp only [declared_binding, identifier, Identifier.name]
  | assumed identifier unshadowed unknown row =>
      rw [bind_plain identifier, bindPlain, Scope.frameWith_eq_none.mpr unshadowed, unknown,
        Scope.openFrame_iff.mpr ⟨_, row⟩]
      simp only [fieldOf, identifier, Identifier.name]
  | undefined identifier unshadowed unknown closed =>
      rw [bind_plain identifier, bindPlain, Scope.frameWith_eq_none.mpr unshadowed, unknown,
        Scope.openFrame_eq_none.mpr closed]
      simp only [unresolved, identifier, Identifier.name]
  | global identifier known =>
      rw [bind_global identifier, bindGlobal, known]
      simp only [declared_binding, identifier, Identifier.name]
  | undeclared identifier unknown =>
      rw [bind_global identifier, bindGlobal, unknown]
      simp only [unresolved, identifier, Identifier.name]
  | sourceField identifier row listed =>
      rw [bind_field identifier, bindField, Scope.frameOver_iff.mpr ⟨_, row⟩]
      simp only [bindField_check_listed listed]
  | missingField identifier row fieldsKnown unlisted =>
      rw [bind_field identifier, bindField, Scope.frameOver_iff.mpr ⟨_, row⟩]
      simp only [fieldsKnown, bindField_check_unlisted unlisted, identifier, Identifier.name]
  | declaredField identifier noRow known listed =>
      rw [bind_field identifier, bindField, Scope.frameOver_eq_none.mpr noRow]
      simp only [known, ↓reduceIte, bindField_check_listed listed]
  | missingDeclaredField identifier noRow known fieldsKnown unlisted =>
      rw [bind_field identifier, bindField, Scope.frameOver_eq_none.mpr noRow]
      simp only [known, ↓reduceIte, fieldsKnown, bindField_check_unlisted unlisted, identifier,
        Identifier.name]
  | noSource identifier noRow unknown =>
      rw [bind_field identifier, bindField, Scope.frameOver_eq_none.mpr noRow]
      simp only [unknown, ↓reduceIte, unresolved, identifier, Identifier.name]
  | self identifier => rw [bind_self identifier, bindControl]
  | parent identifier => rw [bind_parent identifier, bindControl]
  | current identifier notSelf notParent row =>
      rw [bind_record identifier notSelf notParent, Scope.innermost_iff.mpr ⟨_, row⟩]
      simp only [bindRecord]
  | unavailable identifier notSelf notParent noRow =>
      rw [bind_record identifier notSelf notParent, Scope.innermost_eq_none.mpr noRow]
      simp only [bindRecord]

/-- Fields that are not known, or have the name, or are known without it. -/
theorem fields_cases (fields : Option (List String)) (name : String) :
    (∀ known, fields = some known → name ∈ known) ∨ ∃ known, fields = some known ∧ name ∉ known := by
  cases fields with
  | none => exact Or.inl nofun
  | some known =>
      by_cases h : name ∈ known
      · exact Or.inl fun _ hknown => Option.some.inj hknown ▸ h
      · exact Or.inr ⟨known, rfl, h⟩

/-- A plain name means something. -/
theorem exists_means_plain {name : String} (h : r.identifier = .plain name) :
    ∃ position b, r.Means symbols scope position b := by
  cases hframe : scope.frameWith name with
  | some frame =>
      rcases Scope.frameWith_iff.mp hframe with ⟨k, row⟩
      exact ⟨_, _, .rowField h row⟩
  | none =>
      have unshadowed := Scope.frameWith_eq_none.mp hframe
      cases hkind : symbols.lookup name with
      | some kind => exact ⟨_, _, .declared h unshadowed hkind⟩
      | none =>
          cases hopen : scope.openFrame with
          | some frame =>
              rcases Scope.openFrame_iff.mp hopen with ⟨k, row⟩
              exact ⟨_, _, .assumed h unshadowed hkind row⟩
          | none => exact ⟨_, _, .undefined h unshadowed hkind (Scope.openFrame_eq_none.mp hopen)⟩

/-- A field of a named source means something. -/
theorem exists_means_field {source name : String} (h : r.identifier = .field source name) :
    ∃ position b, r.Means symbols scope position b := by
  cases hframe : scope.frameOver source with
  | some frame =>
      rcases Scope.frameOver_iff.mp hframe with ⟨k, row⟩
      rcases fields_cases frame.fields name with listed | ⟨known, hknown, unlisted⟩
      · exact ⟨_, _, .sourceField h row listed⟩
      · exact ⟨_, _, .missingField h row hknown unlisted⟩
  | none =>
      have noRow := Scope.frameOver_eq_none.mp hframe
      by_cases hsource : symbols.lookup source = some .dataSource
      · rcases fields_cases (symbols.fieldsOf source) name with listed | ⟨known, hknown, unlisted⟩
        · exact ⟨_, _, .declaredField h noRow hsource listed⟩
        · exact ⟨_, _, .missingDeclaredField h noRow hsource hknown unlisted⟩
      · exact ⟨_, _, .noSource h noRow hsource⟩

/-- A keyword means something. -/
theorem exists_means_context {keyword : String} (h : r.identifier = .context keyword) :
    ∃ position b, r.Means symbols scope position b := by
  by_cases hself : keyword = "Self"
  · subst hself
    exact ⟨_, _, .self h⟩
  · by_cases hparent : keyword = "Parent"
    · subst hparent
      exact ⟨_, _, .parent h⟩
    · cases hframe : scope.innermost (if keyword = "ThisItem" then some .item else none) with
      | some frame =>
          rcases Scope.innermost_iff.mp hframe with ⟨k, row⟩
          exact ⟨_, _, .current h hself hparent row⟩
      | none =>
          exact ⟨_, _, .unavailable h hself hparent (Scope.innermost_eq_none.mp hframe)⟩

/-- Every reference by name means something, if only that it is not resolved. -/
theorem exists_means (symbols : SymbolTable) (scope : Scope) (r : NameReference) :
    ∃ position b, r.Means symbols scope position b := by
  cases h : r.identifier with
  | plain name => exact exists_means_plain h
  | field source name => exact exists_means_field h
  | context keyword => exact exists_means_context h
  | global name =>
      cases hkind : symbols.lookup name with
      | some kind => exact ⟨_, _, .global h hkind⟩
      | none => exact ⟨_, _, .undeclared h hkind⟩

/-- A reference means exactly what it is bound to. -/
theorem means_iff :
    (∃ position, r.Means symbols scope position b) ↔ (r.bind symbols scope).binding = b := by
  constructor
  · rintro ⟨position, h⟩
    exact h.bind_eq
  · rintro rfl
    rcases exists_means symbols scope r with ⟨position, b, h⟩
    exact ⟨position, h.bind_eq ▸ h⟩

end NameReference

end FormulaLint
