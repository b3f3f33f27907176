import FormulaLint.Proofs.Grammar.Basic

/-!
# Operators that wait for their operand

Between an operator and its right operand the parser holds the operator back.  This module says
which expressions may stand behind the operators that wait, and what settling them does: against
an operator that binds looser it builds the tree of the grammar, and in front of one that binds
tighter it leaves the operators waiting.

Main results:

- Theorem {lit}`settle_binary`: an operator takes its operand in front of anything looser.
- Theorem {lit}`settle_of_takes`: an operator waits on in front of anything it can take.
- Theorem {lit}`Waits.settle_some` and {lit}`Waits.settle_none`: settling keeps to the grammar.
-/

namespace FormulaLint

/-- Whether an expression of the given level may stand behind the waiting operators. -/
def Takes : List Pending → Nat → Prop
  | [], _ => True
  | .unary _ _ :: _, n => operandLevel ≤ n
  | .binary op _ :: _, n => ∃ m g, op.binding? = some (m, g) ∧ rightFloor m g ≤ n

/-- What follows ends an expression of the given level: an operator of a looser level, one of the
same level when that level groups to the left, or no binary operator at all. -/
def Ends (next : Option Nat) (n : Nat) : Prop :=
  ∀ m, next = some m → m < n ∨ m = n ∧ ∃ op : Operator, op.binding? = some (n, .left)

/-- What may stand behind waiting operators may also be tighter. -/
theorem Takes.mono {pending : List Pending} {m n : Nat} (h : Takes pending m) (hle : m ≤ n) :
    Takes pending n := by
  match pending, h with
  | [], _ => trivial
  | .unary _ _ :: _, h => exact Nat.le_trans h hle
  | .binary _ _ :: _, ⟨k, g, hop, hk⟩ => exact ⟨k, g, hop, Nat.le_trans hk hle⟩

/-- Behind an operator its right operand may stand. -/
theorem takes_binary {op : Operator} {n : Nat} {g : Associativity} (l : Expr)
    (pending : List Pending) (hop : op.binding? = some (n, g)) :
    Takes (.binary op l :: pending) (rightFloor n g) :=
  ⟨n, g, hop, Nat.le_refl _⟩

/-- Nothing but the end of the operators ends every expression. -/
theorem ends_none (n : Nat) : Ends none n := by
  intro m h
  simp at h

/-- What ends an expression ends one of a tighter level. -/
theorem Ends.mono {next : Option Nat} {m n : Nat} (h : Ends next m) (hle : m ≤ n) :
    Ends next n := by
  intro k hk
  rcases h k hk with hlt | ⟨rfl, op, hop⟩
  · exact Or.inl (Nat.lt_of_lt_of_le hlt hle)
  · rcases Nat.lt_or_ge k n with hlt | hge
    · exact Or.inl hlt
    · have heq : n = k := Nat.le_antisymm hge hle
      subst heq
      exact Or.inr ⟨rfl, op, hop⟩

/-- An operator ends the operand in front of it. -/
theorem ends_leftFloor {op : Operator} {n : Nat} {g : Associativity}
    (hop : op.binding? = some (n, g)) : Ends (some n) (leftFloor n g) := by
  intro m hm
  obtain rfl : n = m := by simpa using hm
  cases g with
  | left => exact Or.inr ⟨rfl, op, hop⟩
  | right | none => exact Or.inl (Nat.lt_succ_self n)

/-- An operator that the one in front cannot take ends the latter's level, unless the two clash. -/
theorem ends_of_not_le {op : Operator} {m n : Nat} {g : Associativity}
    (hop : op.binding? = some (n, g)) (hfloor : ¬ rightFloor n g ≤ m)
    (hclash : ¬ (g = .none ∧ m = n)) : Ends (some m) n := by
  intro k hk
  obtain rfl : m = k := by simpa using hk
  rcases Nat.lt_or_ge m n with hlt | hge
  · exact Or.inl hlt
  · cases g with
    | left =>
        simp only [rightFloor] at hfloor
        exact Or.inr ⟨by omega, op, hop⟩
    | right => exact absurd hge hfloor
    | none =>
        simp only [rightFloor] at hfloor
        exact absurd ⟨rfl, by omega⟩ hclash

/-! ## Building trees -/

/-- A prefix operator takes its operand whatever follows. -/
@[simp] theorem settle_unary (next : Option Nat) (op : Operator) (span : Span)
    (pending : List Pending) (e : Expr) :
    settle next (.unary op span :: pending) e =
      settle next pending (.unary op e (span.cover e.span)) := rfl

/-- A binary operator takes its operand in front of anything that ends its own level. -/
theorem settle_binary {next : Option Nat} {op : Operator} {n : Nat} {g : Associativity}
    (hop : op.binding? = some (n, g)) (hends : Ends next n) (l r : Expr)
    (pending : List Pending) :
    settle next (.binary op l :: pending) r =
      settle next pending (.binary op l r (l.span.cover r.span)) := by
  cases next with
  | none => simp [settle]
  | some m =>
      have hfloor : ¬ rightFloor n g ≤ m := by
        rcases hends m rfl with hlt | ⟨rfl, op', hop'⟩
        · have := le_rightFloor n g
          omega
        · rcases Operator.grouping_eq hop hop' with rfl
          simp [rightFloor]
      have hgrouping : ¬ (g = .none ∧ m = n) := by
        rintro ⟨rfl, rfl⟩
        rcases hends m rfl with hlt | ⟨_, op', hop'⟩
        · omega
        · simpa using Operator.grouping_eq hop hop'
      simp [settle, hop, hfloor, hgrouping]

/-- Operators wait on in front of a binary operator whose level they can take. -/
theorem settle_of_takes {pending : List Pending} {n : Nat} (hn : n < operandLevel)
    (h : Takes pending n) (e : Expr) : settle (some n) pending e = .ok (e, pending) := by
  match pending, h with
  | [], _ => rfl
  | .unary _ _ :: _, h => exact absurd hn (Nat.not_lt.mpr h)
  | .binary op l :: rest, ⟨m, g, hop, hm⟩ => simp [settle, hop, hm]

/-- Without a binary operator behind it, every waiting operator gets its operand. -/
theorem settle_none_ok (pending : List Pending) (e : Expr) :
    ∃ whole, settle none pending e = .ok (whole, []) := by
  induction pending generalizing e with
  | nil => exact ⟨e, rfl⟩
  | cons p rest ih =>
      cases p with
      | unary op span => exact ih _
      | binary op l =>
          simp only [settle]
          exact ih _

/-! ## Keeping to the grammar -/

/-- The tokens read of an expression up to its next operand, and the operators that wait for that
operand.  The left operand of a binary operator is complete. -/
inductive Waits : List Pending → List Token → Prop where
  | nil : Waits [] []
  | unary {pending : List Pending} {ts : List Token} {t : Token} {op : Operator}
      (h : Waits pending ts) (hop : op.isPrefix = true) (ht : t.payload = .operator op) :
      Waits (.unary op t.span :: pending) (ts ++ [t])
  | binary {pending : List Pending} {ts ts' : List Token} {t : Token} {op : Operator} {n : Nat}
      {g : Associativity} {l : Expr} (h : Waits pending ts) (htakes : Takes pending n)
      (hop : op.binding? = some (n, g)) (hl : Derives (.level (leftFloor n g) l) ts')
      (ht : t.payload = .operator op) :
      Waits (.binary op l :: pending) (ts ++ (ts' ++ [t]))

namespace Waits

/-- An operand may stand behind any operators that wait. -/
theorem takes_operand {pending : List Pending} {ts : List Token} (h : Waits pending ts) :
    Takes pending operandLevel := by
  cases h with
  | nil => trivial
  | unary _ _ _ => exact Nat.le_refl _
  | binary _ _ hop _ _ => exact ⟨_, _, hop, rightFloor_le_operandLevel hop⟩

/-- Settling against a binary operator gives its left operand, and leaves operators waiting that
can take its level. -/
theorem settle_some {op : Operator} {m : Nat} {g : Associativity}
    (hop : op.binding? = some (m, g)) {pending : List Pending} {ts : List Token}
    (h : Waits pending ts) {n : Nat} {e : Expr} {ts' : List Token} (htakes : Takes pending n)
    (hfloor : leftFloor m g ≤ n) (he : Derives (.level n e) ts') {l : Expr}
    {left : List Pending} (hsettle : settle (some m) pending e = .ok (l, left)) :
    ∃ front back, ts ++ ts' = front ++ back ∧ Waits left front ∧ Takes left m ∧
      Derives (.level (leftFloor m g) l) back := by
  induction h generalizing n e ts' with
  | nil =>
      simp only [settle_nil, Except.ok.injEq, Prod.mk.injEq] at hsettle
      rcases hsettle with ⟨rfl, rfl⟩
      exact ⟨[], ts', rfl, nil, trivial, he.of_le hfloor⟩
  | unary hrest hprefix ht ih =>
      rw [settle_unary] at hsettle
      have hunary := Derives.unary hprefix ht (he.of_le htakes)
      have hle : leftFloor m g ≤ operandLevel :=
        Nat.le_trans (leftFloor_le_succ m g) (Operator.binding_lt hop)
      have hstep := ih hrest.takes_operand hle hunary hsettle
      simpa using hstep
  | @binary rest ts₀ ts₁ t op₀ k g₀ l₀ hrest hrestTakes hop₀ hl₀ ht ih =>
      rcases htakes with ⟨k', g', hop', hk⟩
      obtain ⟨rfl, rfl⟩ : k = k' ∧ g₀ = g' := by simpa [hop₀] using hop'
      by_cases hwait : rightFloor k g₀ ≤ m
      · -- the operator behind binds tighter, so the one in front waits on
        simp only [settle, hop₀, Option.getD_some, hwait, ↓reduceIte, Except.ok.injEq,
          Prod.mk.injEq] at hsettle
        rcases hsettle with ⟨rfl, rfl⟩
        exact ⟨ts₀ ++ (ts₁ ++ [t]), ts', rfl, binary hrest hrestTakes hop₀ hl₀ ht,
          ⟨k, g₀, hop₀, hwait⟩, he.of_le hfloor⟩
      · by_cases hclash : g₀ = .none ∧ m = k
        · rcases hclash with ⟨rfl, rfl⟩
          simp only [settle, hop₀, Option.getD_some, hwait, and_self, ↓reduceIte,
            reduceCtorEq] at hsettle
        · have hends := ends_of_not_le hop₀ hwait hclash
          rw [settle_binary hop₀ hends] at hsettle
          have hjoined := Derives.binary hop₀ hl₀ ht (he.of_le hk)
          have hle : leftFloor m g ≤ k := by
            rcases hends m rfl with hlt | ⟨heq, op', hleft⟩
            · exact Nat.le_trans (leftFloor_le_succ m g) hlt
            · subst heq
              rcases Operator.grouping_eq hop hleft with rfl
              exact Nat.le_refl m
          have hstep := ih hrestTakes hle hjoined hsettle
          simpa using hstep

/-- Settling without a binary operator behind gives the whole expression. -/
theorem settle_none {pending : List Pending} {ts : List Token} (h : Waits pending ts) {n : Nat}
    {e : Expr} {ts' : List Token} (htakes : Takes pending n) (he : Derives (.level n e) ts') :
    ∃ whole, settle none pending e = .ok (whole, []) ∧ Derives (.level 0 whole) (ts ++ ts') := by
  induction h generalizing n e ts' with
  | nil => exact ⟨e, rfl, he.of_le (Nat.zero_le n)⟩
  | unary hrest hprefix ht ih =>
      rw [settle_unary]
      have hunary := Derives.unary hprefix ht (he.of_le htakes)
      have hstep := ih hrest.takes_operand hunary
      simpa using hstep
  | binary hrest hrestTakes hop hl ht ih =>
      rcases htakes with ⟨k, g, hop', hk⟩
      rw [hop] at hop'
      obtain ⟨rfl, rfl⟩ : _ = k ∧ _ = g := by simpa using hop'
      rw [settle_binary hop (ends_none _)]
      have hstep := ih hrestTakes (Derives.binary hop hl ht (he.of_le hk))
      simpa using hstep

end Waits

end FormulaLint
