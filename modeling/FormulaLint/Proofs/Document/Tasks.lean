import FormulaLint.Document.Scan
import Mathlib.Data.Finset.Card
import Mathlib.Data.Finset.Range

/-!
# The tasks of a search

A search is a series of tasks: to search a node, an entry of a mapping, or the body of a control.  A
task takes one turn of its own, which finds at most one node that was not visited before, and leaves
other tasks to be performed in order.  The tasks need no bound on their depth: how they end is said
here by a relation, and the bounded search takes the same turns.

Main results:

- Theorem {lit}`Source.perform_succ`: a bounded search takes one turn and then performs what it leaves.
- Theorem {lit}`Source.turn_found`: what a turn finds is a node that was not visited before.
- Theorem {lit}`Source.performs_perform`: tasks end as the bounded search says if the bound is three
  steps for each unvisited node.
- Theorem {lit}`Source.Performs.unique`: tasks end in one way only.
- Theorem {lit}`Source.search_ends`: the search of any document ends, and finds no node twice.
-/

namespace FormulaLint.Document

/-- The surroundings inside a control. -/
def Surroundings.inside (surroundings : Surroundings) (d : ControlDeclaration) : Surroundings :=
  { surroundings with control := some d.name, parent := surroundings.control }

/-- The scope of the formulas of a gallery's children: the current item, of which nothing is known. -/
def itemFrame : Frame :=
  ⟨.item, none, none⟩

/-- The surroundings of a gallery's children. -/
def Surroundings.withItem (surroundings : Surroundings) : Surroundings :=
  { surroundings with frames := surroundings.frames ++ [itemFrame] }

/-- A task of a search. -/
inductive Task where
  | node (surroundings : Surroundings) (id : Nat)
  | entry (surroundings : Surroundings) (key value : Nat)
  | body (surroundings : Surroundings) (gallery : Bool) (id : Nat)
deriving DecidableEq, Repr

/-- What the first visit to a node finds: a collection whose parts are searched next, a node without
parts that counts for nothing, or a formula. -/
inductive Finding where
  | parts (id : Nat)
  | nothing (id : Nat)
  | formula (id : Nat) (request : FormulaRequest)
deriving DecidableEq, Repr

namespace Finding

/-- The node that was found. -/
def node : Finding → Nat
  | parts id | nothing id | formula id _ => id

/-- The formula that was found. -/
def request? : Finding → Option FormulaRequest
  | parts _ | nothing _ => none
  | formula _ request => some request

/-- Whether a node was found as a formula. -/
def reports (id : Nat) : Finding → Bool
  | parts _ | nothing _ => false
  | formula found _ => found == id

end Finding

/-- What a task does by itself: the search after it, what it found, and the tasks that it leaves. -/
structure Turn where
  search : Search
  finding : Option Finding := none
  tasks : List Task := []

namespace Source

variable {source : Source} {s s' : Search} {task : Task} {tasks : List Task}

/-- Whether an entry in the body of a gallery is one of the gallery's own properties. -/
def isOwn (source : Source) (key value : Nat) : Bool :=
  (source.graph.text? value).isSome || source.graph.text? key == some "Properties"

/-- The surroundings of an entry in the body of a gallery. -/
def entrySurroundings (source : Source) (surroundings : Surroundings) (key value : Nat) :
    Surroundings :=
  if source.isOwn key value then surroundings else surroundings.withItem

/-- The turn of a task. -/
def turn (source : Source) (s : Search) : Task → Turn
  | .node surroundings id =>
      match s.visit? id with
      | none => { search := s }
      | some s =>
          match source.graph.content? id with
          | some (.sequence items) =>
              ⟨s, some (.parts id), items.map fun item => .node surroundings item⟩
          | some (.mapping entries) =>
              ⟨s, some (.parts id), entries.map fun entry => .entry surroundings entry.1 entry.2⟩
          | _ => ⟨s, some (.nothing id), []⟩
  | .entry surroundings key value =>
      match source.graph.text? key with
      | none => { search := s }
      | some property =>
          match ControlDeclaration.ofEntry? source.graph property value with
          | some d =>
              { search := { s with controls := s.controls ++ [d.name] }
                tasks := [.body (surroundings.inside d) d.isGallery value] }
          | none =>
              match source.graph.node? value with
              | some ⟨_, mark, .scalar text style⟩ =>
                  let request := source.formula surroundings property text mark style
                  if text.toList.head? = some '=' then
                    match s.visit? value with
                    | none => { search := s }
                    | some s =>
                        { search := { s with formulas := s.formulas ++ [request] }
                          finding := some (.formula value request) }
                  else { search := s }
              | _ => { search := s, tasks := [.node surroundings value] }
  | .body surroundings gallery id =>
      match gallery, source.graph.entries? id with
      | true, some entries =>
          match s.visit? id with
          | none => { search := s }
          | some s =>
              ⟨s, some (.parts id), entries.map fun entry =>
                .entry (source.entrySurroundings surroundings entry.1 entry.2) entry.1 entry.2⟩
      | _, _ => { search := s, tasks := [.node surroundings id] }

/-! ## The bounded search, task by task -/

/-- A task within a bound on the depth of the search. -/
def perform (source : Source) (fuel : Nat) (s : Search) : Task → Search
  | .node surroundings id => source.visit fuel surroundings s id
  | .entry surroundings key value => source.visitEntry fuel surroundings s key value
  | .body surroundings gallery id => source.visitControl fuel surroundings gallery s id

/-- A bounded search takes one turn and then performs what it leaves. -/
theorem perform_succ (fuel : Nat) (s : Search) (task : Task) :
    source.perform (fuel + 1) s task =
      (source.turn s task).tasks.foldl (source.perform fuel) (source.turn s task).search := by
  cases task with
  | node surroundings id =>
      simp only [perform, visit, turn]
      cases s.visit? id with
      | none => rfl
      | some s =>
          cases source.graph.content? id with
          | none => rfl
          | some content =>
              cases content with
              | scalar text style => rfl
              | sequence items => simp only [List.foldl_map, perform]
              | mapping entries => simp only [List.foldl_map, perform]
  | entry surroundings key value =>
      simp only [perform, visitEntry, turn]
      cases source.graph.text? key with
      | none => rfl
      | some property =>
          dsimp only
          cases ControlDeclaration.ofEntry? source.graph property value with
          | some d => rfl
          | none =>
              dsimp only [scalarEntry]
              cases source.graph.node? value with
              | none => rfl
              | some node =>
                  obtain ⟨tag, mark, content⟩ := node
                  cases content with
                  | scalar text style =>
                      dsimp only
                      by_cases hmarker : text.toList.head? = some '='
                      · simp only [hmarker, ↓reduceIte]
                        cases s.visit? value <;> rfl
                      · simp only [hmarker, ↓reduceIte]
                        rfl
                  | sequence items => rfl
                  | mapping entries => rfl
  | body surroundings gallery id =>
      simp only [perform, turn]
      rw [visitControl.eq_def]
      dsimp only
      cases gallery with
      | false => rfl
      | true =>
          cases source.graph.entries? id with
          | none => rfl
          | some entries =>
              dsimp only
              cases s.visit? id with
              | none => rfl
              | some s =>
                  simp only [List.foldl_map, perform]
                  rfl

/-! ## What a turn does -/

/-- A node that counts as visited was not visited before. -/
theorem visit?_eq_some_iff {id : Nat} :
    s.visit? id = some s' ↔ id ∉ s.seen ∧ s' = { s with seen := id :: s.seen } := by
  simp [Search.visit?, eq_comm]

/-- What a turn finds is a node that was not visited before.  The formulas are those before, and the
one found. -/
theorem turn_found (s : Search) (task : Task) :
    (source.turn s task).search.seen =
        ((source.turn s task).finding.map Finding.node).toList ++ s.seen ∧
      (source.turn s task).search.formulas =
        s.formulas ++ ((source.turn s task).finding.bind Finding.request?).toList ∧
      ∀ finding ∈ (source.turn s task).finding, finding.node ∉ s.seen := by
  cases task with
  | node surroundings id =>
      simp only [turn]
      split
      · simp
      · rename_i s₁ hvisit
        obtain ⟨hnew, rfl⟩ := visit?_eq_some_iff.mp hvisit
        split <;> simpa [Finding.node, Finding.request?] using hnew
  | entry surroundings key value =>
      simp only [turn]
      split
      · simp
      · split
        · simp
        · split
          · split
            · split
              · simp
              · rename_i s₁ hvisit
                obtain ⟨hnew, rfl⟩ := visit?_eq_some_iff.mp hvisit
                simpa [Finding.node, Finding.request?] using hnew
            · simp
          · simp
  | body surroundings gallery id =>
      simp only [turn]
      split
      · split
        · simp
        · rename_i s₁ hvisit
          obtain ⟨hnew, rfl⟩ := visit?_eq_some_iff.mp hvisit
          simpa [Finding.node, Finding.request?] using hnew
      · simp

/-- The tasks that a task can leave: those for the parts of a node at its first visit, and the task
that takes over where nothing was visited. -/
inductive Leaves (source : Source) (s : Search) : Task → Task → Prop
  | item {surroundings : Surroundings} {id item : Nat} {items : List Nat} (hnew : id ∉ s.seen)
      (hcontent : source.graph.content? id = some (.sequence items)) (hitem : item ∈ items) :
      Leaves source s (.node surroundings id) (.node surroundings item)
  | part {surroundings : Surroundings} {id key value : Nat} {entries : List (Nat × Nat)}
      (hnew : id ∉ s.seen) (hcontent : source.graph.content? id = some (.mapping entries))
      (hentry : (key, value) ∈ entries) :
      Leaves source s (.node surroundings id) (.entry surroundings key value)
  | own {surroundings : Surroundings} {id key value : Nat} {entries : List (Nat × Nat)}
      (hnew : id ∉ s.seen) (hcontent : source.graph.content? id = some (.mapping entries))
      (hentry : (key, value) ∈ entries) :
      Leaves source s (.body surroundings true id)
        (.entry (source.entrySurroundings surroundings key value) key value)
  | control {surroundings : Surroundings} {key value : Nat} {property : String}
      {d : ControlDeclaration} (hkey : source.graph.text? key = some property)
      (hdeclared : ControlDeclaration.ofEntry? source.graph property value = some d) :
      Leaves source s (.entry surroundings key value)
        (.body (surroundings.inside d) d.isGallery value)
  | value {surroundings : Surroundings} {key value : Nat} {property : String}
      (hkey : source.graph.text? key = some property)
      (hplain : ControlDeclaration.ofEntry? source.graph property value = none)
      (hvalue : source.graph.text? value = none) :
      Leaves source s (.entry surroundings key value) (.node surroundings value)
  | whole {surroundings : Surroundings} {gallery : Bool} {id : Nat}
      (hbody : gallery = true → source.graph.entries? id = none) :
      Leaves source s (.body surroundings gallery id) (.node surroundings id)

/-- The content of a mapping node. -/
theorem entries?_eq_some_iff {g : Yaml.Graph} {id : Nat} {entries : List (Nat × Nat)} :
    g.entries? id = some entries ↔ g.content? id = some (.mapping entries) := by
  unfold Yaml.Graph.entries?
  split
  · rename_i found h
    simp [h]
  · rename_i h
    simpa using h entries

/-- A scalar node has a text. -/
theorem text?_eq_some_iff {g : Yaml.Graph} {id : Nat} {text : String} :
    g.text? id = some text ↔ ∃ style, g.content? id = some (.scalar text style) := by
  unfold Yaml.Graph.text?
  split
  · rename_i found style h
    simp [h]
  · rename_i h
    simpa using h text

/-- The tasks that a turn leaves. -/
theorem mem_tasks_turn {left : Task} (h : left ∈ (source.turn s task).tasks) :
    source.Leaves s task left := by
  cases task with
  | node surroundings id =>
      simp only [turn] at h
      split at h
      · simp at h
      · rename_i s₁ hvisit
        obtain ⟨hnew, rfl⟩ := visit?_eq_some_iff.mp hvisit
        split at h
        · rename_i items hcontent
          obtain ⟨item, hitem, rfl⟩ := List.mem_map.mp h
          exact .item hnew hcontent hitem
        · rename_i entries hcontent
          obtain ⟨entry, hentry, rfl⟩ := List.mem_map.mp h
          exact .part hnew hcontent hentry
        · simp at h
  | entry surroundings key value =>
      simp only [turn] at h
      split at h
      · simp at h
      · rename_i property hkey
        split at h
        · rename_i d hdeclared
          obtain rfl := List.mem_singleton.mp h
          exact .control hkey hdeclared
        · rename_i hplain
          split at h
          · split at h
            · split at h <;> simp at h
            · simp at h
          · rename_i hscalar
            obtain rfl := List.mem_singleton.mp h
            refine .value hkey hplain (Option.eq_none_iff_forall_ne_some.mpr fun text htext => ?_)
            obtain ⟨style, hcontent⟩ := text?_eq_some_iff.mp htext
            unfold Yaml.Graph.content? at hcontent
            obtain ⟨⟨tag, mark, content⟩, hnode, rfl⟩ := Option.map_eq_some_iff.mp hcontent
            exact hscalar tag mark text style hnode
  | body surroundings gallery id =>
      simp only [turn] at h
      split at h
      · rename_i entries hentries
        split at h
        · simp at h
        · rename_i s₁ hvisit
          obtain ⟨hnew, rfl⟩ := visit?_eq_some_iff.mp hvisit
          obtain ⟨entry, hentry, rfl⟩ := List.mem_map.mp h
          exact .own hnew (entries?_eq_some_iff.mp hentries) hentry
      · rename_i hbody
        obtain rfl := List.mem_singleton.mp h
        exact .whole fun hgallery =>
          Option.eq_none_iff_forall_ne_some.mpr fun entries => hbody entries hgallery

/-! ## Tasks come to an end -/

/-- The nodes that were not visited yet. -/
def unvisited (source : Source) (s : Search) : Finset Nat :=
  Finset.range source.graph.nodes.size \ s.seen.toFinset

/-- Visits only make the unvisited nodes fewer. -/
theorem unvisited_subset (h : s.seen ⊆ s'.seen) : source.unvisited s' ⊆ source.unvisited s :=
  Finset.sdiff_subset_sdiff (Finset.Subset.refl _) fun id hid => by
    simpa using h (by simpa using hid)

/-- A first visit to a node of the document makes the unvisited nodes fewer by one. -/
theorem card_unvisited_lt {id : Nat} {content : Yaml.Content}
    (hcontent : source.graph.content? id = some content) (hnew : id ∉ s.seen)
    (hseen : s'.seen = id :: s.seen) :
    (source.unvisited s').card < (source.unvisited s).card := by
  have hid : id < source.graph.nodes.size := by
    unfold Yaml.Graph.content? Yaml.Graph.node? at hcontent
    by_contra hle
    simp [Array.getElem?_eq_none (Nat.not_lt.mp hle)] at hcontent
  refine Finset.card_lt_card ((unvisited_subset fun n hn => ?_).ssubset_of_mem_notMem
    (a := id) ?_ ?_)
  · rw [hseen]
    exact List.mem_cons_of_mem _ hn
  · simpa [unvisited] using ⟨hid, hnew⟩
  · simp [unvisited, hseen]

end Source

/-- How many turns may pass before a task comes to the parts of a node. -/
def Task.steps : Task → Nat
  | node _ _ => 1
  | body _ _ _ => 2
  | entry _ _ _ => 3

namespace Source

variable {source : Source} {s s' : Search} {task : Task} {tasks : List Task}

/-- A bound on the depth of a task: the turns to the parts of a node, and three for each unvisited
node. -/
def depth (source : Source) (s : Search) (task : Task) : Nat :=
  task.steps + 3 * (source.unvisited s).card

/-- A first visit to a sequence or a mapping finds its parts. -/
theorem finding_node (surroundings : Surroundings) {id : Nat} {content : Yaml.Content}
    (hnew : id ∉ s.seen) (hcontent : source.graph.content? id = some content)
    (hparts : ∀ text style, content ≠ .scalar text style) :
    (source.turn s (.node surroundings id)).finding = some (.parts id) := by
  cases content with
  | scalar text style => exact absurd rfl (hparts text style)
  | sequence items => simp [turn, Search.visit?, hnew, hcontent]
  | mapping entries => simp [turn, Search.visit?, hnew, hcontent]

/-- A first visit to the body of a gallery finds its entries. -/
theorem finding_body (surroundings : Surroundings) {id : Nat} {entries : List (Nat × Nat)}
    (hnew : id ∉ s.seen) (hcontent : source.graph.content? id = some (.mapping entries)) :
    (source.turn s (.body surroundings true id)).finding = some (.parts id) := by
  simp [turn, Search.visit?, hnew, entries?_eq_some_iff.mpr hcontent]

/-- A turn keeps what was visited. -/
theorem seen_subset_turn (s : Search) (task : Task) :
    s.seen ⊆ (source.turn s task).search.seen := by
  rw [(turn_found s task).1]
  exact List.subset_append_right _ _

/-- The parts of a node are searched with fewer nodes unvisited. -/
theorem card_unvisited_turn_lt {id : Nat} {content : Yaml.Content}
    (hcontent : source.graph.content? id = some content) (hnew : id ∉ s.seen)
    (hfinding : (source.turn s task).finding = some (.parts id)) :
    (source.unvisited (source.turn s task).search).card < (source.unvisited s).card := by
  refine card_unvisited_lt hcontent hnew ?_
  rw [(turn_found s task).1, hfinding]
  rfl

/-- What a turn leaves is less deep. -/
theorem depth_turn_lt {left : Task} (h : left ∈ (source.turn s task).tasks) :
    source.depth (source.turn s task).search left < source.depth s task := by
  have hle : (source.unvisited (source.turn s task).search).card ≤ (source.unvisited s).card :=
    Finset.card_le_card (unvisited_subset (seen_subset_turn s task))
  unfold depth
  cases mem_tasks_turn h with
  | @item surroundings _ _ _ hnew hcontent _ =>
      have := card_unvisited_turn_lt hcontent hnew (finding_node surroundings hnew hcontent (by simp))
      simp only [Task.steps]
      omega
  | @part surroundings _ _ _ _ hnew hcontent _ =>
      have := card_unvisited_turn_lt hcontent hnew (finding_node surroundings hnew hcontent (by simp))
      simp only [Task.steps]
      omega
  | @own surroundings _ _ _ _ hnew hcontent _ =>
      have := card_unvisited_turn_lt hcontent hnew (finding_body surroundings hnew hcontent)
      simp only [Task.steps]
      omega
  | control _ _ | value _ _ _ | whole _ =>
      simp only [Task.steps]
      omega

/-- Tasks that are performed in order, each with all that it leaves: from a search to the search after
them, and what they find on the way. -/
inductive Performs (source : Source) : List Task → Search → List Finding → Search → Prop
  | nil (s : Search) : Performs source [] s [] s
  | cons {task : Task} {rest : List Task} {s s₁ s₂ : Search} {inner outer : List Finding}
      (hleft : Performs source (source.turn s task).tasks (source.turn s task).search inner s₁)
      (hrest : Performs source rest s₁ outer s₂) :
      Performs source (task :: rest) s ((source.turn s task).finding.toList ++ inner ++ outer) s₂

namespace Performs

variable {findings : List Finding}

/-- Tasks end in one way only. -/
theorem unique {findings' : List Finding} {s'' : Search} (h : source.Performs tasks s findings s')
    (h' : source.Performs tasks s findings' s'') : findings' = findings ∧ s'' = s' := by
  induction h generalizing findings' s'' with
  | nil s =>
      cases h'
      exact ⟨rfl, rfl⟩
  | cons _ _ ihleft ihrest =>
      obtain _ | ⟨hleft', hrest'⟩ := h'
      obtain ⟨rfl, rfl⟩ := ihleft hleft'
      obtain ⟨rfl, rfl⟩ := ihrest hrest'
      exact ⟨rfl, rfl⟩

/-- The nodes visited at the end are those found on the way, and those visited before. -/
theorem seen_eq (h : source.Performs tasks s findings s') :
    s'.seen = (findings.map Finding.node).reverse ++ s.seen := by
  induction h with
  | nil s => rfl
  | @cons task rest s s₁ s₂ inner outer hleft hrest ihleft ihrest =>
      rw [ihrest, ihleft, (turn_found s task).1]
      cases (source.turn s task).finding <;> simp

/-- The formulas at the end are those before, and those found on the way. -/
theorem formulas_eq (h : source.Performs tasks s findings s') :
    s'.formulas = s.formulas ++ findings.filterMap Finding.request? := by
  induction h with
  | nil s => simp
  | @cons task rest s s₁ s₂ inner outer hleft hrest ihleft ihrest =>
      rw [ihrest, ihleft, (turn_found s task).2.1]
      cases (source.turn s task).finding with
      | none => simp
      | some finding => cases finding <;> simp [List.filterMap_cons, Finding.request?]

/-- No node is found twice, and none that was visited before. -/
theorem nodup_seen (h : source.Performs tasks s findings s') (hs : s.seen.Nodup) :
    s'.seen.Nodup := by
  induction h with
  | nil s => exact hs
  | @cons task rest s s₁ s₂ inner outer hleft hrest ihleft ihrest =>
      refine ihrest (ihleft ?_)
      obtain ⟨hseen, -, hnew⟩ : (source.turn s task).search.seen =
          ((source.turn s task).finding.map Finding.node).toList ++ s.seen ∧ _ := turn_found s task
      rw [hseen]
      cases hfinding : (source.turn s task).finding with
      | none => exact hs
      | some finding => exact List.nodup_cons.mpr ⟨hnew finding (by simp [hfinding]), hs⟩

/-- A search that starts with no node visited finds no node twice. -/
theorem nodup_findings (h : source.Performs tasks {} findings s') :
    (findings.map Finding.node).Nodup := by
  have hseen := h.nodup_seen List.nodup_nil
  rw [h.seen_eq, List.append_nil] at hseen
  exact List.nodup_reverse.mp hseen

end Performs

/-- Tasks end as the bounded search says if it may go as deep as they are. -/
theorem performs_perform {fuel : Nat} (h : ∀ task ∈ tasks, source.depth s task ≤ fuel) :
    ∃ findings, source.Performs tasks s findings (tasks.foldl (source.perform fuel) s) := by
  induction fuel generalizing tasks s with
  | zero =>
      cases tasks with
      | nil => exact ⟨[], .nil s⟩
      | cons task rest =>
          have := h task List.mem_cons_self
          cases task <;> simp [depth, Task.steps] at this
  | succ fuel ih =>
      induction tasks generalizing s with
      | nil => exact ⟨[], .nil s⟩
      | cons task rest ihrest =>
          have hdepth : ∀ left ∈ (source.turn s task).tasks,
              source.depth (source.turn s task).search left ≤ fuel := fun left hleft =>
            Nat.le_of_lt_succ (Nat.lt_of_lt_of_le (depth_turn_lt hleft) (h task List.mem_cons_self))
          obtain ⟨inner, hinner⟩ := ih hdepth
          rw [← perform_succ] at hinner
          -- Nothing that was visited is forgotten, so what comes next is no deeper than before.
          have hseen : s.seen ⊆ (source.perform (fuel + 1) s task).seen := fun id hid => by
            rw [hinner.seen_eq]
            exact List.mem_append_right _ (seen_subset_turn s task hid)
          obtain ⟨outer, houter⟩ := ihrest (s := source.perform (fuel + 1) s task) fun later hlater =>
            Nat.le_trans (Nat.add_le_add_left (Nat.mul_le_mul_left 3
              (Finset.card_le_card (unvisited_subset hseen))) _)
              (h later (List.mem_cons_of_mem _ hlater))
          exact ⟨_, .cons hinner houter⟩

/-- The search of a document, with any bound on its depth that is not too small. -/
theorem performs_visit {fuel : Nat} (h : 3 * source.graph.nodes.size + 1 ≤ fuel) :
    ∃ findings, source.Performs [.node {} source.graph.root] {} findings
      (source.visit fuel {} {} source.graph.root) := by
  have hdepth : ∀ task ∈ [Task.node {} source.graph.root], source.depth {} task ≤ fuel := by
    intro task htask
    obtain rfl := List.mem_singleton.mp htask
    have hcard : (source.unvisited {}).card ≤ source.graph.nodes.size := by simp [unvisited]
    simp only [depth, Task.steps]
    omega
  exact performs_perform hdepth

/-- The search of a document ends. -/
theorem performs_search (source : Source) : ∃ findings,
    source.Performs [.node {} source.graph.root] {} findings source.search :=
  performs_visit (by omega)

/-! ## The whole search -/

/-- The search of a document ends, in one way only, whatever its nodes refer to, and every bound that
is not too small leads to this end.  Each node is found at most once: the parts of a collection are
searched once and a formula is reported once. -/
theorem search_ends (source : Source) : ∃ findings,
    source.Performs [.node {} source.graph.root] {} findings source.search ∧
    (∀ findings' s, source.Performs [.node {} source.graph.root] {} findings' s →
      findings' = findings ∧ s = source.search) ∧
    (∀ fuel, 3 * source.graph.nodes.size + 1 ≤ fuel →
      source.visit fuel {} {} source.graph.root = source.search) ∧
    (findings.map Finding.node).Nodup ∧
    source.search.formulas = findings.filterMap Finding.request? := by
  obtain ⟨findings, hends⟩ := source.performs_search
  refine ⟨findings, hends, fun findings' s h => hends.unique h, fun fuel hfuel => ?_,
    hends.nodup_findings, by simpa using hends.formulas_eq⟩
  obtain ⟨findings', hends'⟩ := performs_visit hfuel
  exact (hends.unique hends').2

end Source

/-- A mapping that is the value of one of its own entries. -/
def loopText : String :=
  "a: &x\n  b: *x\n  c: =1\n"

/-- The document that refers to itself under search. -/
def loopSource : Source :=
  ⟨((Yaml.compose loopText.toList).toOption.join).getD ⟨#[], 0⟩, Text.lines loopText.toList, "app.yaml"⟩

/-- The search of the document that refers to itself ends, and a far deeper one ends alike. -/
theorem loopSource_ends : loopSource.visit 1000 {} {} loopSource.graph.root = loopSource.search ∧
    loopSource.search.formulas.length = 1 := by
  obtain ⟨findings, -, -, hbound, -, -⟩ := loopSource.search_ends
  exact ⟨hbound 1000 (by decide +kernel), by decide +kernel⟩

end FormulaLint.Document
