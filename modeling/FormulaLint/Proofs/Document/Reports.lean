import FormulaLint.Proofs.Document.Routes

/-!
# The formulas that a search reports

A search comes to every node that a route leads to.  A formula is reported at its first visit if it is
then the value of an entry; a visit from elsewhere, as an item of a list or in place of a control's
body, reports nothing, and later visits do not count.  So a formula with such a place besides an entry
of its own may be lost, and a formula whose places are all entries is not.

Main results:

- Theorem {lit}`Source.Performs.searched`: the parts of every collection found are searched.
- Theorem {lit}`Source.searched_of_route`: a search comes to the end of every link of a route.
- Theorem {lit}`Source.search_reports`: the formulas that are reported, each once.
-/

namespace FormulaLint

/-- Whether a node is a scalar that starts with an equals sign. -/
def Yaml.Graph.IsFormula (g : Yaml.Graph) (id : Nat) : Prop :=
  ∃ text style, g.content? id = some (.scalar text style) ∧ text.toList.head? = some '='

namespace Document

open Yaml (Link)

/-- A node that is found as a formula is found. -/
theorem Finding.node_of_reports {finding : Finding} {id : Nat} (h : finding.reports id = true) :
    finding.node = id := by
  cases finding with
  | parts _ | nothing _ => simp [reports] at h
  | formula found request => simpa [reports, node] using h

namespace Source

variable {source : Source} {s s' : Search} {task : Task} {tasks : List Task} {links : List Link}
  {findings : List Finding}

/-- Whether a node counts when it is the value of an entry: a body of a control, a collection or a
formula. -/
def Counts (source : Source) (key value : Nat) : Prop :=
  source.graph.control? (.entry key value) ≠ none ∨
    ∀ text, source.graph.text? value = some text → text.toList.head? = some '='

/-- Whether a search has come to the end of a link. -/
def Searched (source : Source) (s : Search) : Link → Prop
  | .item id => id ∈ s.seen
  | .entry key value =>
      (source.graph.text? key).isSome → source.Counts key value → value ∈ s.seen

/-- Whether a search has come to the node of a task. -/
def Done (source : Source) (s : Search) : Task → Prop
  | .node _ id | .body _ _ id => id ∈ s.seen
  | .entry _ key value => source.Searched s (.entry key value)

/-- The end of a link that was reached stays reached. -/
theorem Searched.mono {link : Link} (hseen : s.seen ⊆ s'.seen) (h : source.Searched s link) :
    source.Searched s' link := by
  cases link with
  | item id => exact hseen h
  | entry key value => exact fun hkey hcounts => hseen (h hkey hcounts)

/-- What is done stays done. -/
theorem Done.mono (hseen : s.seen ⊆ s'.seen) (h : source.Done s task) : source.Done s' task := by
  cases task with
  | node surroundings id | body surroundings gallery id => exact hseen h
  | entry surroundings key value =>
      have hvalue : source.Searched s (.entry key value) := h
      exact hvalue.mono hseen

/-- What is visited stays visited. -/
theorem Performs.seen_subset (h : source.Performs tasks s findings s') : s.seen ⊆ s'.seen := by
  rw [h.seen_eq]
  exact List.subset_append_right _ _

/-- The turn of a node visits it. -/
theorem mem_seen_node (s : Search) (surroundings : Surroundings) (id : Nat) :
    id ∈ (source.turn s (.node surroundings id)).search.seen := by
  by_cases hold : id ∈ s.seen
  · exact seen_subset_turn s _ hold
  · simp only [turn, Search.visit?, List.contains_eq_mem, hold, decide_false, Bool.false_eq_true,
      ↓reduceIte]
    split <;> simp

/-- The turn of a gallery's body visits it. -/
theorem mem_seen_body (s : Search) (surroundings : Surroundings) {id : Nat}
    {entries : List (Nat × Nat)} (hentries : source.graph.entries? id = some entries) :
    id ∈ (source.turn s (.body surroundings true id)).search.seen := by
  by_cases hold : id ∈ s.seen
  · exact seen_subset_turn s _ hold
  · simp [turn, Search.visit?, hold, hentries]

/-- The turn of an entry visits a formula. -/
theorem mem_seen_formula (s : Search) (surroundings : Surroundings) {key value : Nat}
    {property text : String} (hkey : source.graph.text? key = some property)
    (hplain : ControlDeclaration.ofEntry? source.graph property value = none)
    (htext : source.graph.text? value = some text) (hmarker : text.toList.head? = some '=') :
    value ∈ (source.turn s (.entry surroundings key value)).search.seen := by
  by_cases hold : value ∈ s.seen
  · exact seen_subset_turn s _ hold
  · obtain ⟨style, hcontent⟩ := text?_eq_some_iff.mp htext
    obtain ⟨⟨tag, mark, content⟩, hnode, rfl⟩ := Option.map_eq_some_iff.mp hcontent
    simp [turn, Search.visit?, hold, hkey, hplain, hnode, hmarker]

/-- The turn of an entry leaves the body of its control. -/
theorem tasks_control (s : Search) (surroundings : Surroundings) {key value : Nat}
    {property : String} {d : ControlDeclaration} (hkey : source.graph.text? key = some property)
    (hdeclared : ControlDeclaration.ofEntry? source.graph property value = some d) :
    (source.turn s (.entry surroundings key value)).tasks =
      [.body (surroundings.inside d) d.isGallery value] := by
  simp [turn, hkey, hdeclared]

/-- The turn of an entry leaves a value that is no scalar. -/
theorem tasks_value (s : Search) (surroundings : Surroundings) {key value : Nat} {property : String}
    (hkey : source.graph.text? key = some property)
    (hplain : ControlDeclaration.ofEntry? source.graph property value = none)
    (hvalue : source.graph.text? value = none) :
    (source.turn s (.entry surroundings key value)).tasks = [.node surroundings value] := by
  simp only [turn, hkey, hplain]
  split
  · rename_i tag mark text style hnode
    simp [Yaml.Graph.text?, Yaml.Graph.content?, hnode] at hvalue
  · rfl

/-- A task is done when all that it leaves is done. -/
theorem done_of_left (hseen : (source.turn s task).search.seen ⊆ s'.seen)
    (hleft : ∀ left ∈ (source.turn s task).tasks, source.Done s' left) : source.Done s' task := by
  cases task with
  | node surroundings id => exact hseen (mem_seen_node s surroundings id)
  | entry surroundings key value =>
      intro hkey hcounts
      obtain ⟨property, hkey⟩ := Option.isSome_iff_exists.mp hkey
      rw [Counts, control?_entry hkey] at hcounts
      cases hdeclared : ControlDeclaration.ofEntry? source.graph property value with
      | some d =>
          rw [tasks_control s surroundings hkey hdeclared] at hleft
          exact hleft _ (List.mem_singleton_self _)
      | none =>
          cases htext : source.graph.text? value with
          | none =>
              rw [tasks_value s surroundings hkey hdeclared htext] at hleft
              exact hleft _ (List.mem_singleton_self _)
          | some text =>
              have hmarker := (hcounts.resolve_left fun h => h hdeclared) text htext
              exact hseen (mem_seen_formula s surroundings hkey hdeclared htext hmarker)
  | body surroundings gallery id =>
      cases gallery with
      | false => exact hleft (.node surroundings id) (by simp [turn])
      | true =>
          cases hentries : source.graph.entries? id with
          | some entries => exact hseen (mem_seen_body s surroundings hentries)
          | none => exact hleft (.node surroundings id) (by simp [turn, hentries])

/-- The first visit to a collection leaves a task for each item or entry. -/
theorem tasks_of_parts {id : Nat} (hfinding : (source.turn s task).finding = some (.parts id)) :
    (∃ items surroundings, source.graph.content? id = some (.sequence items) ∧
      (source.turn s task).tasks = items.map fun item => .node surroundings item) ∨
    ∃ entries, ∃ surroundings : Nat × Nat → Surroundings,
      source.graph.content? id = some (.mapping entries) ∧
      (source.turn s task).tasks =
        entries.map fun entry => .entry (surroundings entry) entry.1 entry.2 := by
  cases task with
  | node surroundings id' =>
      cases hvisit : s.visit? id' with
      | none => simp [turn, hvisit] at hfinding
      | some s₁ =>
          simp only [turn, hvisit] at hfinding ⊢
          split at hfinding
          · rename_i items hcontent
            obtain rfl : id' = id := by simpa using hfinding
            exact .inl ⟨items, surroundings, hcontent, rfl⟩
          · rename_i entries hcontent
            obtain rfl : id' = id := by simpa using hfinding
            exact .inr ⟨entries, fun _ => surroundings, hcontent, rfl⟩
          · simp at hfinding
  | entry surroundings key value =>
      simp only [turn] at hfinding
      split at hfinding
      · simp at hfinding
      · split at hfinding
        · simp at hfinding
        · split at hfinding
          · split at hfinding
            · split at hfinding <;> simp at hfinding
            · simp at hfinding
          · simp at hfinding
  | body surroundings gallery id' =>
      cases gallery with
      | false => simp [turn] at hfinding
      | true =>
          cases hentries : source.graph.entries? id' with
          | none => simp [turn, hentries] at hfinding
          | some entries =>
              cases hvisit : s.visit? id' with
              | none => simp [turn, hvisit, hentries] at hfinding
              | some s₁ =>
                  simp only [turn, hvisit, hentries] at hfinding ⊢
                  obtain rfl : id' = id := by simpa using hfinding
                  exact .inr ⟨entries, fun entry => source.entrySurroundings surroundings entry.1 entry.2,
                    entries?_eq_some_iff.mp hentries, rfl⟩

/-- The parts of a collection are searched by the tasks that the first visit to it leaves. -/
theorem searched_of_left {id : Nat} {link : Link}
    (hfinding : (source.turn s task).finding = some (.parts id)) (hlink : source.graph.Leads id link)
    (hleft : ∀ left ∈ (source.turn s task).tasks, source.Done s' left) : source.Searched s' link := by
  rcases tasks_of_parts hfinding with ⟨items, surroundings, hsequence, htasks⟩ |
    ⟨entries, surroundings, hmapping, htasks⟩
  · cases hlink with
    | item hcontent hitem =>
        obtain rfl : items = _ := by simpa [hsequence] using hcontent
        exact hleft _ (htasks ▸ List.mem_map_of_mem hitem)
    | entry hcontent _ _ => simp [hsequence] at hcontent
  · cases hlink with
    | item hcontent _ => simp [hmapping] at hcontent
    | @entry key value _ _ hcontent hentry _ =>
        obtain rfl : entries = _ := by simpa [hmapping] using hcontent
        exact hleft (.entry (surroundings (key, value)) key value)
          (htasks ▸ List.mem_map.mpr ⟨(key, value), hentry, rfl⟩)

/-- Tasks that were performed are done, and the parts of every collection found are searched. -/
theorem Performs.searched (h : source.Performs tasks s findings s') :
    (∀ task ∈ tasks, source.Done s' task) ∧
      ∀ id link, .parts id ∈ findings → source.graph.Leads id link → source.Searched s' link := by
  induction h with
  | nil s => simp
  | @cons task rest s s₁ s₂ inner outer hleft hrest ihleft ihrest =>
      have hlater : ∀ {task}, source.Done s₁ task → source.Done s₂ task := Done.mono hrest.seen_subset
      refine ⟨?_, fun id link hfinding hlink => ?_⟩
      · refine List.forall_mem_cons.mpr ⟨hlater (done_of_left hleft.seen_subset ihleft.1), ihrest.1⟩
      · rcases List.mem_append.mp hfinding with hfront | houter
        · refine Searched.mono hrest.seen_subset ?_
          rcases List.mem_append.mp hfront with hown | hinner
          · exact searched_of_left (by simpa using hown) hlink ihleft.1
          · exact ihleft.2 id link hinner hlink
        · exact ihrest.2 id link houter hlink

/-! ## The whole search -/

/-- Where no node is found twice, none is reported twice. -/
theorem countP_reports_le_one (hnodup : (findings.map Finding.node).Nodup) (id : Nat) :
    findings.countP (Finding.reports id) ≤ 1 := by
  calc findings.countP (Finding.reports id)
      ≤ findings.countP ((· == id) ∘ Finding.node) :=
        List.countP_mono_left fun finding _ h => by simpa using Finding.node_of_reports h
    _ = (findings.map Finding.node).count id := by rw [List.count, List.countP_map]
    _ ≤ 1 := List.nodup_iff_count_le_one.mp hnodup id

/-- A search visits only what it finds. -/
theorem exists_finding {id : Nat} (hends : source.Performs tasks {} findings s')
    (hid : id ∈ s'.seen) : ∃ finding ∈ findings, finding.node = id := by
  rw [hends.seen_eq, List.append_nil, List.mem_reverse] at hid
  exact List.mem_map.mp hid

/-- A search comes to the end of every link of a route. -/
theorem searched_of_route {id : Nat} {link : Link}
    (hends : source.Performs [.node {} source.graph.root] {} findings s')
    (hfound : ∀ finding ∈ findings, source.Found finding)
    (hroute : source.graph.Route links id) (hlink : source.graph.Leads id link) :
    source.Searched s' link := by
  have hvisited : ∀ {id content}, source.graph.content? id = some content →
      (∀ text style, content ≠ .scalar text style) → id ∈ s'.seen → .parts id ∈ findings := by
    intro id content hcontent hparts hid
    obtain ⟨finding, hmem, rfl⟩ := exists_finding hends hid
    cases hfound finding hmem with
    | parts _ _ _ => exact hmem
    | nothing _ _ hscalar =>
        obtain ⟨text, style, rfl⟩ := hscalar content hcontent
        exact absurd rfl (hparts text style)
    | formula _ _ _ hnode _ =>
        simp only [Finding.node, Yaml.Graph.content?, hnode, Option.map_some,
          Option.some.injEq] at hcontent
        exact absurd hcontent.symm (hparts _ _)
  obtain ⟨hdone, hsearched⟩ := hends.searched
  have hcollection : ∀ {id link}, source.graph.Leads id link → ∃ content,
      source.graph.content? id = some content ∧ ∀ text style, content ≠ .scalar text style := by
    intro id link hlink
    cases hlink with
    | item hcontent _ => exact ⟨_, hcontent, by simp⟩
    | entry hcontent _ _ => exact ⟨_, hcontent, by simp⟩
  induction hroute generalizing link with
  | root =>
      obtain ⟨content, hcontent, hparts⟩ := hcollection hlink
      exact hsearched _ _ (hvisited hcontent hparts (hdone _ (List.mem_singleton_self _))) hlink
  | @link links id last hroute hlast ih =>
      obtain ⟨content, hcontent, hparts⟩ := hcollection hlink
      refine hsearched _ _ (hvisited hcontent hparts ?_) hlink
      have hreached := ih hlast
      cases hlast with
      | item _ _ => exact hreached
      | entry _ _ hkey =>
          refine hreached (by simp [hkey]) (.inr fun text htext => ?_)
          obtain ⟨style, hscalar⟩ := text?_eq_some_iff.mp htext
          exact absurd (Option.some.inj (hcontent.symm.trans hscalar)) (hparts text style)

/-- The last link of a route leads on from the node before. -/
theorem route_concat {id : Nat} {link : Link} (h : source.graph.Route (links ++ [link]) id) :
    id = link.target ∧ ∃ parent, source.graph.Route links parent ∧ source.graph.Leads parent link := by
  generalize hlinks : links ++ [link] = all at h
  cases h with
  | root => simp at hlinks
  | link hroute hlink =>
      obtain ⟨rfl, hlast⟩ := List.append_inj' hlinks rfl
      obtain rfl := List.singleton_inj.mp hlast
      exact ⟨rfl, _, hroute, hlink⟩

/-- The formulas that a search reports.  Each is found along a route, no node is reported twice, and a
formula to which some routes lead, all through entries that hold it for themselves, is reported
once. -/
theorem search_reports (source : Source) : ∃ findings,
    source.Performs [.node {} source.graph.root] {} findings source.search ∧
    source.search.formulas = findings.filterMap Finding.request? ∧
    (∀ finding ∈ findings, source.Found finding) ∧
    (∀ id, findings.countP (Finding.reports id) ≤ 1) ∧
    ∀ id, source.graph.IsFormula id → (∃ links, source.graph.Route links id) →
      (∀ links, source.graph.Route links id → source.graph.EndsPlain links) →
      findings.countP (Finding.reports id) = 1 := by
  obtain ⟨findings, hends⟩ := source.performs_search
  have hnodup := hends.nodup_findings
  have hformulas : source.search.formulas = findings.filterMap Finding.request? := by
    simpa using hends.formulas_eq
  have hfound : ∀ finding ∈ findings, source.Found finding := hends.found fun task htask => by
    obtain rfl := List.mem_singleton.mp htask
    exact ⟨[], standsAt_root⟩
  refine ⟨findings, hends, hformulas, hfound, countP_reports_le_one hnodup, ?_⟩
  rintro id ⟨text, style, hcontent, hmarker⟩ ⟨links, hroute⟩ hplain
  have htext : source.graph.text? id = some text := text?_eq_some_iff.mpr ⟨style, hcontent⟩
  -- The last entry of any route brings the search to the node, which counts as a formula there.
  obtain ⟨front, key, value, rfl, -⟩ := hplain links hroute
  obtain ⟨rfl, parent, hparent, hlast⟩ := route_concat hroute
  have hsearched := searched_of_route hends hfound hparent hlast
  have hkey : (source.graph.text? key).isSome := by
    cases hlast with
    | entry _ _ hkey => simp [hkey]
  have hseen := hsearched hkey <| .inr fun text' htext' => by
    obtain rfl := Option.some.inj (htext.symm.trans htext')
    exact hmarker
  obtain ⟨finding, hmem, hnode⟩ := exists_finding hends hseen
  refine Nat.le_antisymm (countP_reports_le_one hnodup _) (List.countP_pos_iff.mpr ⟨finding, hmem, ?_⟩)
  cases hfound finding hmem with
  | parts _ hparts hnot =>
      obtain rfl : _ = id := hnode
      exact absurd (Option.some.inj (hparts.symm.trans hcontent)) (hnot text style)
  | nothing hother hsilent _ =>
      obtain rfl : _ = id := hnode
      exact absurd (htext.symm.trans (hsilent (hplain _ hother))) (by simp)
  | formula _ _ _ _ _ => simpa [Finding.reports, Finding.node] using hnode

end Source

/-- The label's formula is reported once. -/
theorem titleFormula_reported_once : gallerySource.graph.IsFormula 10 ∧
    ∃ findings : List Finding,
      gallerySource.search.formulas = findings.filterMap Finding.request? ∧
      findings.countP (Finding.reports 10) = 1 := by
  have hgraph : gallerySource.graph = galleryGraph := by rw [gallerySource_eq]
  have hformula : gallerySource.graph.IsFormula 10 := by
    rw [hgraph]
    exact ⟨"=1", .plain, rfl, by decide⟩
  have hroute : gallerySource.graph.Route
      [.entry 1 2, .entry 3 4, .entry 7 8, .entry 9 10] 10 := by
    rw [hgraph]
    have hhome : galleryGraph.Leads galleryGraph.root (.entry 1 2) :=
      .entry (show _ = some (Yaml.Content.mapping [(1, 2)]) from rfl) (by simp)
        (show _ = some "Home As screen" from rfl)
    have hlist : galleryGraph.Leads 2 (.entry 3 4) :=
      .entry (show _ = some (Yaml.Content.mapping [(3, 4)]) from rfl) (by simp)
        (show _ = some "List As gallery" from rfl)
    have htitle : galleryGraph.Leads 4 (.entry 7 8) :=
      .entry (show _ = some (Yaml.Content.mapping [(5, 6), (7, 8)]) from rfl) (by simp)
        (show _ = some "Title As label" from rfl)
    have htext : galleryGraph.Leads 8 (.entry 9 10) :=
      .entry (show _ = some (Yaml.Content.mapping [(9, 10)]) from rfl) (by simp)
        (show _ = some "Text" from rfl)
    exact .link (.link (.link (.link .root hhome) hlist) htitle) htext
  have hplain : gallerySource.graph.EndsPlain [.entry 1 2, .entry 3 4, .entry 7 8, .entry 9 10] := by
    rw [hgraph]
    exact ⟨[.entry 1 2, .entry 3 4, .entry 7 8], 9, 10, rfl, by decide +kernel⟩
  obtain ⟨findings, -, hformulas, -, -, hreported⟩ := Source.search_reports gallerySource
  refine ⟨hformula, findings, hformulas, hreported 10 hformula ⟨_, hroute⟩ fun links hlinks => ?_⟩
  rwa [isTree_gallerySource.route_unique hroute hlinks]

/-! ## A formula that is lost -/

/-- A formula that is an item of a list and, by an alias, the value of an entry. -/
def aliasedItemText : String :=
  "- &f =1\n- X: *f\n"

/-- The formula is the value of an entry, and it is lost because its first visit is to the item. -/
theorem aliasedItem_lost : ∃ g, Yaml.compose aliasedItemText.toList = .ok (some g) ∧ g.IsFormula 1 ∧
    g.Route [.item 2, .entry 3 1] 1 ∧ g.EndsPlain [.item 2, .entry 3 1] ∧
    scanDocument aliasedItemText "app.yaml" = .ok ⟨"app.yaml", [], []⟩ := by
  refine ⟨⟨#[⟨.list, ⟨0, 0⟩, .sequence [1, 2]⟩, ⟨.text, ⟨0, 2⟩, .scalar "=1" .plain⟩,
    ⟨.map, ⟨1, 2⟩, .mapping [(3, 1)]⟩, ⟨.text, ⟨1, 2⟩, .scalar "X" .plain⟩], 0⟩, by decide +kernel,
    ⟨"=1", .plain, rfl, by decide⟩, ?_, ⟨[.item 2], 3, 1, rfl, by decide +kernel⟩, by decide +kernel⟩
  exact .link (.link .root (.item (show _ = some (Yaml.Content.sequence [1, 2]) from rfl) (by simp)))
    (.entry (show _ = some (Yaml.Content.mapping [(3, 1)]) from rfl) (by simp)
      (show _ = some "X" from rfl))

end Document

end FormulaLint
