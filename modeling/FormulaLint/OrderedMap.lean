/-!
# Maps that keep their order

A finite map as a list of entries in the order in which their keys first came.  Inserting under
a known key replaces the value and leaves the entry where it is.

Main results:

- Theorem {lit}`get?_eq_some_of_mem`: what is stored once is found.
- Theorem {lit}`get?_insert`: an insertion is seen under its own key and nowhere else.
- Theorem {lit}`get?_insertIfNew`: a careful insertion never changes what is there.
- Theorem {lit}`keys_insert`: an insertion adds its key at the end when it is new.
-/

namespace FormulaLint

/-- A finite map whose entries keep the order of first insertion. -/
structure OrderedMap (κ α : Type) where
  entries : List (κ × α)
deriving DecidableEq, Repr

namespace OrderedMap

variable {κ α : Type} [DecidableEq κ]

/-- The map without entries. -/
def empty : OrderedMap κ α := ⟨[]⟩

/-- The value stored under a key. -/
def get? (m : OrderedMap κ α) (k : κ) : Option α :=
  (m.entries.find? (·.1 = k)).map (·.2)

/-- Whether a key has a value. -/
def contains (m : OrderedMap κ α) (k : κ) : Bool :=
  m.entries.any (·.1 = k)

/-- The keys in order of first insertion. -/
def keys (m : OrderedMap κ α) : List κ :=
  m.entries.map (·.1)

/-- The number of entries. -/
def size (m : OrderedMap κ α) : Nat :=
  m.entries.length

/-- Store a value in a list of entries, in place of the value under the same key. -/
def insertEntry (k : κ) (a : α) : List (κ × α) → List (κ × α)
  | [] => [(k, a)]
  | entry :: rest => if entry.1 = k then (entry.1, a) :: rest else entry :: insertEntry k a rest

/-- Store a value under a key. -/
def insert (m : OrderedMap κ α) (k : κ) (a : α) : OrderedMap κ α :=
  ⟨insertEntry k a m.entries⟩

/-- Store a value under a key that has none yet. -/
def insertIfNew (m : OrderedMap κ α) (k : κ) (a : α) : OrderedMap κ α :=
  if m.contains k then m else m.insert k a

/-- Store the pairs of a list one after the other. -/
def ofList (pairs : List (κ × α)) : OrderedMap κ α :=
  pairs.foldl (fun m pair => m.insert pair.1 pair.2) empty

/-- Both maps; the second one wins under a shared key. -/
def merge (m n : OrderedMap κ α) : OrderedMap κ α :=
  n.entries.foldl (fun m pair => m.insert pair.1 pair.2) m

@[simp] theorem get?_empty (k : κ) : (empty : OrderedMap κ α).get? k = none := rfl

/-- A key has a value exactly when looking it up finds one. -/
theorem contains_eq_isSome_get? (m : OrderedMap κ α) (k : κ) :
    m.contains k = (m.get? k).isSome := by
  simp only [contains, get?, Option.isSome_map]
  induction m.entries with
  | nil => rfl
  | cons entry rest ih => by_cases h : entry.1 = k <;> simp [h, ih]

/-- A key has a value exactly when it is one of the keys. -/
theorem contains_iff_mem_keys {m : OrderedMap κ α} {k : κ} : m.contains k = true ↔ k ∈ m.keys := by
  simp [contains, keys]

/-- Nothing is found exactly where there is no key. -/
theorem get?_eq_none_iff {m : OrderedMap κ α} {k : κ} : m.get? k = none ↔ k ∉ m.keys := by
  rw [← contains_iff_mem_keys, contains_eq_isSome_get?]
  simp

/-- What is stored under a key is found when nothing else is stored under it. -/
theorem get?_eq_some_of_mem {m : OrderedMap κ α} {k : κ} {a : α} (h : (k, a) ∈ m.entries)
    (hunique : ∀ b, (k, b) ∈ m.entries → b = a) : m.get? k = some a := by
  have hsome : (m.entries.find? (·.1 = k)).isSome = true :=
    List.find?_isSome.mpr ⟨(k, a), h, by simp⟩
  rcases Option.isSome_iff_exists.mp hsome with ⟨⟨k', b⟩, hfound⟩
  obtain rfl : k' = k := by simpa using List.find?_some hfound
  rw [get?, hfound, Option.map_some, hunique b (List.mem_of_find?_eq_some hfound)]

/-- Nothing is found where nothing is stored. -/
theorem get?_eq_none_of_not_mem {m : OrderedMap κ α} {k : κ} (h : ∀ a, (k, a) ∉ m.entries) :
    m.get? k = none := by
  rw [get?, Option.map_eq_none_iff, List.find?_eq_none]
  rintro ⟨k', a⟩ hmem hk
  obtain rfl : k' = k := by simpa using hk
  exact h a hmem

/-- An insertion is seen under its own key and nowhere else. -/
theorem get?_insert (m : OrderedMap κ α) (k k' : κ) (a : α) :
    (m.insert k a).get? k' = if k = k' then some a else m.get? k' := by
  obtain ⟨entries⟩ := m
  simp only [insert, get?]
  induction entries with
  | nil => by_cases h : k = k' <;> simp [insertEntry, h]
  | cons entry rest ih =>
      by_cases h : entry.1 = k
      · by_cases h' : k = k'
        · simp [insertEntry, h, h']
        · simp [insertEntry, h, h']
      · by_cases h' : entry.1 = k'
        · subst h'
          have : k ≠ entry.1 := fun e => h e.symm
          simp [insertEntry, h, this]
        · simp only [insertEntry, h, ↓reduceIte, List.find?_cons, h', decide_false]
          exact ih

/-- A careful insertion never changes what is there. -/
theorem get?_insertIfNew (m : OrderedMap κ α) (k k' : κ) (a : α) :
    (m.insertIfNew k a).get? k' =
      if k = k' ∧ m.get? k = none then some a else m.get? k' := by
  unfold insertIfNew
  rw [contains_eq_isSome_get?]
  cases h : m.get? k with
  | none => by_cases h' : k = k' <;> simp [get?_insert, h']
  | some b => simp

/-- An insertion adds its key at the end when it is new. -/
theorem keys_insert (m : OrderedMap κ α) (k : κ) (a : α) :
    (m.insert k a).keys = if k ∈ m.keys then m.keys else m.keys ++ [k] := by
  obtain ⟨entries⟩ := m
  simp only [insert, keys]
  induction entries with
  | nil => simp [insertEntry]
  | cons entry rest ih =>
      by_cases h : entry.1 = k
      · simp [insertEntry, h]
      · have h' : k ≠ entry.1 := fun e => h e.symm
        simp only [insertEntry, h, ↓reduceIte, List.map_cons, ih, List.mem_cons, h', false_or]
        split <;> simp_all

/-- A careful insertion adds its key at the end when it is new. -/
theorem keys_insertIfNew (m : OrderedMap κ α) (k : κ) (a : α) :
    (m.insertIfNew k a).keys = if k ∈ m.keys then m.keys else m.keys ++ [k] := by
  unfold insertIfNew
  split
  · rename_i hcontains
    rw [if_pos (contains_iff_mem_keys.mp hcontains)]
  · exact keys_insert m k a

end OrderedMap

end FormulaLint
