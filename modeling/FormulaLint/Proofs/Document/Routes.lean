import FormulaLint.Proofs.Document.Tasks
import Mathlib.Data.List.Nodup

/-!
# Routes to the formulas of a document

A route leads from the root of a document through the items of sequences and the entries of mappings
whose keys are scalars.  Whatever a search finds it finds along a route, and the surroundings of a
formula are told by its route: the controls whose entries it passes, nearest last, and the galleries
whose children it comes to.  In a tree there is only one route to each node.

Main results:

- Theorem {lit}`Graph.IsTree.route_unique`: a node of a tree has one route.
- Theorem {lit}`Source.Performs.found`: what a search finds, it finds along a route.
- Theorem {lit}`Source.formula_follows_route`: the control, the property and the scope of a formula.
-/

namespace FormulaLint

namespace Yaml

/-- A link from a collection to one of its parts. -/
inductive Link where
  | item (id : Nat)
  | entry (key value : Nat)
deriving DecidableEq, Repr

/-- The node that a link leads to. -/
def Link.target : Link → Nat
  | item id => id
  | entry _ value => value

/-- The nodes that a node consists of. -/
def Content.parts : Content → List Nat
  | scalar _ _ => []
  | sequence items => items
  | mapping entries => entries.flatMap fun entry => [entry.1, entry.2]

namespace Graph

variable {g : Graph} {id id' : Nat} {link link' : Link} {links links' : List Link}

/-- The links from a node to its parts.  The value of an entry is reached only under a scalar key. -/
inductive Leads (g : Graph) (id : Nat) : Link → Prop
  | item {item : Nat} {items : List Nat} (hcontent : g.content? id = some (.sequence items))
      (hitem : item ∈ items) : Leads g id (.item item)
  | entry {key value : Nat} {entries : List (Nat × Nat)} {property : String}
      (hcontent : g.content? id = some (.mapping entries)) (hentry : (key, value) ∈ entries)
      (hkey : g.text? key = some property) : Leads g id (.entry key value)

/-- The routes from the root of a document. -/
inductive Route (g : Graph) : List Link → Nat → Prop
  | root : Route g [] g.root
  | link {links : List Link} {id : Nat} {link : Link} (hroute : Route g links id)
      (hlink : g.Leads id link) : Route g (links ++ [link]) link.target

/-- All nodes that stand in other nodes, as often as they do. -/
def parts (g : Graph) : List Nat :=
  g.nodes.toList.flatMap fun node => node.content.parts

/-- No node is shared: each stands in one place at most, and the root in none. -/
structure IsTree (g : Graph) : Prop where
  root_notMem : g.root ∉ g.parts
  nodup : g.parts.Nodup

/-- In lists that have nothing in common, a member tells its list. -/
theorem index_unique {α β : Type} {f : α → List β} {l : List α} {i j : Nat} {a b : α} {x : β}
    (hnodup : (l.flatMap f).Nodup) (hi : l[i]? = some a) (hj : l[j]? = some b) (ha : x ∈ f a)
    (hb : x ∈ f b) : i = j := by
  have hdisjoint := (List.nodup_flatMap.mp hnodup).2
  obtain ⟨hi', rfl⟩ := List.getElem?_eq_some_iff.mp hi
  obtain ⟨hj', rfl⟩ := List.getElem?_eq_some_iff.mp hj
  rcases Nat.lt_trichotomy i j with hlt | rfl | hlt
  · exact absurd hb (List.pairwise_iff_getElem.mp hdisjoint i j hi' hj' hlt ha)
  · rfl
  · exact absurd ha (List.pairwise_iff_getElem.mp hdisjoint j i hj' hi' hlt hb)

/-- The content of a node is that of an entry of the node table. -/
theorem content?_eq_some_iff {content : Content} :
    g.content? id = some content ↔ ∃ node, g.nodes.toList[id]? = some node ∧ node.content = content := by
  simp [content?, node?]

/-- A link leads to a part. -/
theorem Leads.mem_parts (h : g.Leads id link) :
    ∃ content, g.content? id = some content ∧ link.target ∈ content.parts := by
  cases h with
  | item hcontent hitem => exact ⟨_, hcontent, hitem⟩
  | entry hcontent hentry hkey =>
      exact ⟨_, hcontent, List.mem_flatMap.mpr ⟨_, hentry, by simp [Link.target]⟩⟩

/-- The parts of one node are among all parts. -/
theorem subset_parts {content : Content} (h : g.content? id = some content) :
    content.parts ⊆ g.parts := by
  obtain ⟨node, hnode, rfl⟩ := content?_eq_some_iff.mp h
  exact fun part hpart => List.mem_flatMap.mpr ⟨node, List.mem_of_getElem? hnode, hpart⟩

namespace IsTree

/-- A part of a tree tells the link that leads to it. -/
theorem leads_unique (h : g.IsTree) (hlink : g.Leads id link) (hlink' : g.Leads id' link')
    (htarget : link.target = link'.target) : id = id' ∧ link = link' := by
  obtain ⟨content, hcontent, hpart⟩ := hlink.mem_parts
  obtain ⟨content', hcontent', hpart'⟩ := hlink'.mem_parts
  obtain ⟨node, hnode, rfl⟩ := content?_eq_some_iff.mp hcontent
  obtain ⟨node', hnode', rfl⟩ := content?_eq_some_iff.mp hcontent'
  obtain rfl := index_unique h.nodup hnode hnode' hpart (htarget ▸ hpart')
  refine ⟨rfl, ?_⟩
  have hown : node.content.parts.Nodup :=
    (List.nodup_flatMap.mp h.nodup).1 node (List.mem_of_getElem? hnode)
  cases hlink with
  | item hsequence hitem =>
      cases hlink' with
      | item _ _ => exact congrArg Link.item htarget
      | entry hmapping _ _ => simp [hsequence] at hmapping
  | @entry key value entries property hmapping hentry hkey =>
      cases hlink' with
      | item hsequence _ => simp [hmapping] at hsequence
      | @entry key' value' entries' property' hmapping' hentry' hkey' =>
          obtain rfl : value = value' := htarget
          obtain rfl : entries = entries' := by simpa [hmapping] using hmapping'
          have hcontent' : node.content = .mapping entries := by simpa [hcontent] using hmapping
          rw [hcontent'] at hown
          obtain ⟨i, hi⟩ := List.mem_iff_getElem?.mp hentry
          obtain ⟨j, hj⟩ := List.mem_iff_getElem?.mp hentry'
          obtain rfl := index_unique hown hi hj (x := value) (by simp) (by simp)
          have hkeys := Option.some.inj (hi.symm.trans hj)
          rw [(Prod.mk.inj hkeys).1]

/-- A node of a tree has one route. -/
theorem route_unique (h : g.IsTree) (hroute : g.Route links id) (hroute' : g.Route links' id) :
    links' = links := by
  have hfree : ∀ {id link}, g.Leads id link → link.target ≠ g.root := by
    intro id link hlink hroot
    obtain ⟨content, hcontent, hpart⟩ := hlink.mem_parts
    exact h.root_notMem (hroot ▸ subset_parts hcontent hpart)
  induction hroute generalizing links' with
  | root =>
      generalize hid : g.root = id at hroute'
      cases hroute' with
      | root => rfl
      | link _ hlink => exact absurd hid.symm (hfree hlink)
  | @link links id link hroute hlink ih =>
      generalize hid : link.target = target at hroute'
      cases hroute' with
      | root => exact absurd hid (hfree hlink)
      | link hroute' hlink' =>
          obtain ⟨rfl, rfl⟩ := h.leads_unique hlink hlink' hid
          rw [ih hroute']

end IsTree

/-! ## Controls along a route -/

/-- The control that a link enters. -/
def control? (g : Graph) : Link → Option ControlDeclaration
  | .item _ => none
  | .entry key value => (g.text? key).bind fun property => ControlDeclaration.ofEntry? g property value

/-- The controls that a route enters, the nearest to its end in front. -/
def enclosing (g : Graph) (links : List Link) : List ControlDeclaration :=
  (links.filterMap g.control?).reverse

/-- The name of the nearest control that a route enters. -/
def controlName? (g : Graph) (links : List Link) : Option String :=
  (g.enclosing links)[0]?.map (·.name)

/-- The name of the next control around the nearest one. -/
def parentName? (g : Graph) (links : List Link) : Option String :=
  (g.enclosing links)[1]?.map (·.name)

/-- Whether a link goes on from the entry of a gallery to one of its children: through an entry of the
gallery's body that holds no scalar and whose key is not that of the properties. -/
def comesToChild (g : Graph) (gallery child : Link) : Bool :=
  match child with
  | .item _ => false
  | .entry key value =>
      (g.control? gallery).any (·.isGallery) &&
        !((g.text? value).isSome || g.text? key == some "Properties")

/-- One frame for each gallery to whose children a route comes. -/
def itemFrames (g : Graph) : List Link → List Frame
  | gallery :: child :: rest =>
      (if g.comesToChild gallery child then [⟨.item, none, none⟩] else []) ++
        itemFrames g (child :: rest)
  | [_] | [] => []

/-- A route that ends with an entry that holds its value for itself. -/
def EndsPlain (g : Graph) (links : List Link) : Prop :=
  ∃ front key value, links = front ++ [.entry key value] ∧ g.control? (.entry key value) = none

/-- A further link adds a frame where it comes to a child of a gallery. -/
theorem itemFrames_concat (front : List Link) (gallery child : Link) :
    g.itemFrames (front ++ [gallery, child]) =
      g.itemFrames (front ++ [gallery]) ++
        if g.comesToChild gallery child then [⟨.item, none, none⟩] else [] := by
  induction front with
  | nil => simp [itemFrames]
  | cons first rest ih =>
      cases rest with
      | nil => simp [itemFrames]
      | cons second rest =>
          simp only [List.cons_append, itemFrames] at ih ⊢
          rw [ih, List.append_assoc]

/-- A further link adds no frame where it does not come to a child of a gallery. -/
theorem itemFrames_concat_of_not (h : ∀ gallery ∈ links.getLast?, g.comesToChild gallery link = false) :
    g.itemFrames (links ++ [link]) = g.itemFrames links := by
  rcases List.eq_nil_or_concat' links with rfl | ⟨front, gallery, rfl⟩
  · rfl
  · have := h gallery (by simp)
    rw [List.append_assoc, List.singleton_append, itemFrames_concat, this]
    simp

/-- A link that enters no control leaves the controls as they are. -/
theorem enclosing_concat_of_none (h : g.control? link = none) :
    g.enclosing (links ++ [link]) = g.enclosing links := by
  simp [enclosing, List.filterMap_append, h]

/-- A link that enters a control comes nearest. -/
theorem enclosing_concat_of_some {d : ControlDeclaration} (h : g.control? link = some d) :
    g.enclosing (links ++ [link]) = d :: g.enclosing links := by
  simp [enclosing, List.filterMap_append, h]

end Graph

end Yaml

namespace Document

open Yaml (Link)

/-- The surroundings at the end of a route. -/
def Surroundings.along (g : Yaml.Graph) (links : List Link) : Surroundings :=
  ⟨g.controlName? links, g.parentName? links, g.itemFrames links⟩

/-- The surroundings of an entry that is the next link of a route; those inside its control come
later. -/
def Surroundings.before (g : Yaml.Graph) (links : List Link) (link : Link) : Surroundings :=
  ⟨g.controlName? links, g.parentName? links, g.itemFrames (links ++ [link])⟩

namespace Source

variable {source : Source} {s s' : Search} {task : Task} {tasks : List Task} {links : List Link}

/-- A task that stands at the end of a route and knows the surroundings there. -/
inductive StandsAt (source : Source) : List Link → Task → Prop
  | node {links : List Link} {id : Nat} (hroute : source.graph.Route links id)
      (hplain : source.graph.EndsPlain links → source.graph.text? id = none)
      (hchildren : ∀ entries, source.graph.content? id = some (.mapping entries) →
        ∀ d ∈ links.getLast?.bind source.graph.control?, d.isGallery = false) :
      StandsAt source links (.node (.along source.graph links) id)
  | entry {links : List Link} {id key value : Nat} {entries : List (Nat × Nat)}
      (hroute : source.graph.Route links id)
      (hcontent : source.graph.content? id = some (.mapping entries))
      (hentry : (key, value) ∈ entries) :
      StandsAt source links (.entry (.before source.graph links (.entry key value)) key value)
  | body {links : List Link} {id : Nat} {d : ControlDeclaration}
      (hroute : source.graph.Route links id)
      (hcontrol : links.getLast?.bind source.graph.control? = some d) :
      StandsAt source links (.body (.along source.graph links) d.isGallery id)

/-- Where an entry does not come to a child of a gallery, its frames are those of the node. -/
theorem before_of_not {link : Link}
    (h : ∀ gallery ∈ links.getLast?, source.graph.comesToChild gallery link = false) :
    Surroundings.before source.graph links link = .along source.graph links := by
  unfold Surroundings.before Surroundings.along
  rw [Yaml.Graph.itemFrames_concat_of_not h]

/-- An item of a sequence has the surroundings of the sequence. -/
theorem along_item (links : List Link) (item : Nat) :
    Surroundings.along source.graph (links ++ [.item item]) = .along source.graph links := by
  unfold Surroundings.along Yaml.Graph.controlName? Yaml.Graph.parentName?
  rw [Yaml.Graph.itemFrames_concat_of_not fun _ _ => rfl, Yaml.Graph.enclosing_concat_of_none rfl]

/-- An entry that enters no control hands on its surroundings. -/
theorem along_plain {link : Link} (h : source.graph.control? link = none) :
    Surroundings.along source.graph (links ++ [link]) = .before source.graph links link := by
  unfold Surroundings.along Surroundings.before Yaml.Graph.controlName? Yaml.Graph.parentName?
  rw [Yaml.Graph.enclosing_concat_of_none h]

/-- An entry that enters a control hands on the surroundings inside it. -/
theorem along_control {link : Link} {d : ControlDeclaration} (h : source.graph.control? link = some d) :
    Surroundings.along source.graph (links ++ [link]) =
      (Surroundings.before source.graph links link).inside d := by
  unfold Surroundings.along Surroundings.before Surroundings.inside Yaml.Graph.controlName?
    Yaml.Graph.parentName?
  rw [Yaml.Graph.enclosing_concat_of_some h]
  rfl

/-- An entry of a gallery's body has the surroundings of the body, and those of a child the current
item besides. -/
theorem before_gallery {key value : Nat} {d : ControlDeclaration}
    (hcontrol : links.getLast?.bind source.graph.control? = some d) (hgallery : d.isGallery = true) :
    source.entrySurroundings (.along source.graph links) key value =
      .before source.graph links (.entry key value) := by
  obtain ⟨gallery, hlast, hgate⟩ := Option.bind_eq_some_iff.mp hcontrol
  obtain ⟨front, rfl⟩ := List.getLast?_eq_some_iff.mp hlast
  have hchild : source.graph.comesToChild gallery (.entry key value) = !source.isOwn key value := by
    simp [Yaml.Graph.comesToChild, isOwn, hgate, hgallery]
  unfold entrySurroundings Surroundings.before
  rw [List.append_assoc, List.singleton_append, Yaml.Graph.itemFrames_concat, hchild]
  cases source.isOwn key value <;> simp [Surroundings.withItem, Surroundings.along, itemFrame]

/-- The control of an entry whose key is a scalar. -/
theorem control?_entry {key value : Nat} {property : String}
    (hkey : source.graph.text? key = some property) :
    source.graph.control? (.entry key value) =
      ControlDeclaration.ofEntry? source.graph property value := by
  simp [Yaml.Graph.control?, hkey]

/-- What a task leaves stands at the end of a route if the task does. -/
theorem StandsAt.leaves {left : Task} (h : source.StandsAt links task)
    (hleaves : source.Leaves s task left) : ∃ links, source.StandsAt links left := by
  cases h with
  | node hroute hplain hchildren =>
      cases hleaves with
      | @item _ _ item _ _ hcontent hitem =>
          refine ⟨links ++ [.item item], ?_⟩
          rw [← along_item links item]
          refine .node (hroute.link (.item hcontent hitem)) ?_ ?_
          · rintro ⟨front, key, value, hends, -⟩
            simpa using congrArg List.getLast? hends
          · simp [Yaml.Graph.control?]
      | part _ hcontent hentry =>
          refine ⟨links, ?_⟩
          rw [← before_of_not fun gallery hgallery => ?_]
          · exact .entry hroute hcontent hentry
          · have := hchildren _ hcontent
            rw [Option.mem_def.mp hgallery, Option.bind_some] at this
            cases hcontrol : source.graph.control? gallery with
            | none => simp [Yaml.Graph.comesToChild, hcontrol]
            | some d => simp [Yaml.Graph.comesToChild, hcontrol, this d hcontrol]
  | @entry _ key value _ hroute hcontent hentry =>
      cases hleaves with
      | control hkey hdeclared =>
          have hcontrol := (control?_entry hkey).trans hdeclared
          refine ⟨links ++ [.entry key value], ?_⟩
          rw [← along_control hcontrol]
          exact .body (hroute.link (.entry hcontent hentry hkey)) (by simpa using hcontrol)
      | value hkey hdeclared hvalue =>
          have hcontrol := (control?_entry hkey).trans hdeclared
          refine ⟨links ++ [.entry key value], ?_⟩
          rw [← along_plain hcontrol]
          exact .node (hroute.link (.entry hcontent hentry hkey)) (fun _ => hvalue)
            (by simp [hcontrol])
  | @body _ d hroute hcontrol =>
      generalize hgallery : d.isGallery = gallery at hleaves
      cases hleaves with
      | own _ hcontent hentry =>
          refine ⟨links, ?_⟩
          rw [before_gallery hcontrol hgallery]
          exact .entry hroute hcontent hentry
      | whole hbody =>
          refine ⟨links, .node hroute ?_ ?_⟩
          · rintro ⟨front, key, value, rfl, hplain⟩
            simp [hplain] at hcontrol
          · intro entries hcontent d' hd'
            obtain rfl := Option.some.inj (hcontrol.symm.trans hd')
            cases gallery with
            | false => exact hgallery
            | true => simp [entries?_eq_some_iff.mpr hcontent] at hbody

/-- What can be found at the end of a route. -/
inductive Found (source : Source) : Finding → Prop
  | parts {links : List Link} {id : Nat} {content : Yaml.Content}
      (hroute : source.graph.Route links id) (hcontent : source.graph.content? id = some content)
      (hparts : ∀ text style, content ≠ .scalar text style) : Found source (.parts id)
  | nothing {links : List Link} {id : Nat} (hroute : source.graph.Route links id)
      (hplain : source.graph.EndsPlain links → source.graph.text? id = none)
      (hcontent : ∀ content, source.graph.content? id = some content →
        ∃ text style, content = .scalar text style) : Found source (.nothing id)
  | formula {links : List Link} {key id : Nat} {property text : String} {tag : Yaml.Tag}
      {mark : Yaml.Mark} {style : Yaml.ScalarStyle}
      (hroute : source.graph.Route (links ++ [.entry key id]) id)
      (hplain : source.graph.control? (.entry key id) = none)
      (hkey : source.graph.text? key = some property)
      (hnode : source.graph.node? id = some ⟨tag, mark, .scalar text style⟩)
      (hmarker : text.toList.head? = some '=') :
      Found source (.formula id
        (source.formula (.along source.graph (links ++ [.entry key id])) property text mark style))

/-- A task at the end of a route finds something there. -/
theorem StandsAt.found (h : source.StandsAt links task) :
    ∀ finding ∈ (source.turn s task).finding, source.Found finding := by
  intro finding hfinding
  rw [Option.mem_def] at hfinding
  cases h with
  | node hroute hplain hchildren =>
      simp only [turn] at hfinding
      split at hfinding
      · simp at hfinding
      · split at hfinding
        · rename_i hcontent
          obtain rfl := Option.some.inj hfinding
          exact .parts hroute hcontent (by simp)
        · rename_i hcontent
          obtain rfl := Option.some.inj hfinding
          exact .parts hroute hcontent (by simp)
        · rename_i hsequence hmapping
          obtain rfl := Option.some.inj hfinding
          refine .nothing hroute hplain fun content hcontent => ?_
          cases content with
          | scalar text style => exact ⟨text, style, rfl⟩
          | sequence items => exact absurd hcontent (hsequence items)
          | mapping entries => exact absurd hcontent (hmapping entries)
  | @entry _ key value _ hroute hcontent hentry =>
      simp only [turn] at hfinding
      split at hfinding
      · simp at hfinding
      · rename_i property hkey
        split at hfinding
        · simp at hfinding
        · rename_i hdeclared
          split at hfinding
          · rename_i tag mark text style hnode
            split at hfinding
            · rename_i hmarker
              split at hfinding
              · simp at hfinding
              · obtain rfl := Option.some.inj hfinding
                have hcontrol := (control?_entry hkey).trans hdeclared
                rw [← along_plain hcontrol]
                exact .formula (hroute.link (.entry hcontent hentry hkey)) hcontrol hkey hnode hmarker
            · simp at hfinding
          · simp at hfinding
  | body hroute hcontrol =>
      simp only [turn] at hfinding
      split at hfinding
      · rename_i entries _ hentries
        split at hfinding
        · simp at hfinding
        · obtain rfl := Option.some.inj hfinding
          exact .parts hroute (entries?_eq_some_iff.mp hentries) (by simp)
      · simp at hfinding

/-- Tasks at the ends of routes find only what is there. -/
theorem Performs.found {findings : List Finding} (h : source.Performs tasks s findings s')
    (htasks : ∀ task ∈ tasks, ∃ links, source.StandsAt links task) :
    ∀ finding ∈ findings, source.Found finding := by
  induction h with
  | nil s => simp
  | @cons task rest s s₁ s₂ inner outer hleft hrest ihleft ihrest =>
      obtain ⟨links, hstands⟩ := htasks task List.mem_cons_self
      have hinner := ihleft fun left hmem => hstands.leaves (mem_tasks_turn hmem)
      have houter := ihrest fun later hlater => htasks later (List.mem_cons_of_mem _ hlater)
      intro finding hfinding
      rcases List.mem_append.mp hfinding with hfront | hback
      · rcases List.mem_append.mp hfront with hown | hmem
        · exact hstands.found finding (by simpa using hown)
        · exact hinner finding hmem
      · exact houter finding hback

/-- The search of a document starts at the end of the empty route. -/
theorem standsAt_root : source.StandsAt [] (.node {} source.graph.root) :=
  .node .root (fun ⟨front, _, _, hends, _⟩ => by simp at hends) (by simp)

/-- Each formula of a document is found along a route. -/
theorem exists_found {f : FormulaRequest} (h : f ∈ source.search.formulas) :
    ∃ id, source.Found (.formula id f) := by
  obtain ⟨findings, hends⟩ := source.performs_search
  rw [hends.formulas_eq, List.nil_append] at h
  obtain ⟨finding, hfinding, hrequest⟩ := List.mem_filterMap.mp h
  have hfound := hends.found (fun task htask => by
    obtain rfl := List.mem_singleton.mp htask
    exact ⟨[], standsAt_root⟩) finding hfinding
  cases finding with
  | parts id | nothing id => simp [Finding.request?] at hrequest
  | formula id request =>
      obtain rfl := Option.some.inj hrequest
      exact ⟨id, hfound⟩

/-- The key and the scope of a formula in a tree follow its only route: its control is the nearest one
that the route enters, its parent the next one, its property the key of its scalar, and there is one
frame for each gallery to whose children the route comes. -/
theorem formula_follows_route (htree : source.graph.IsTree) :
    ∀ f ∈ source.search.formulas, ∃ links key id property text style,
      let g := source.graph
      g.Route (links ++ [.entry key id]) id ∧
      (∀ other, g.Route other id → other = links ++ [.entry key id]) ∧
      g.content? id = some (.scalar text style) ∧ text.toList.head? = some '=' ∧
      g.text? key = some property ∧
      f.key = ⟨source.name, (g.controlName? links).getD "", property⟩ ∧
      f.scope = ⟨g.itemFrames (links ++ [.entry key id]), g.controlName? links, g.parentName? links⟩ := by
  intro f hf
  obtain ⟨id, hfound⟩ := exists_found hf
  cases hfound with
  | @formula links key _ property text _ _ style hroute hplain hkey hnode hmarker =>
      refine ⟨links, key, id, property, text, style, hroute, fun other hother => ?_, ?_, hmarker, hkey,
        ?_, ?_⟩
      · exact htree.route_unique hroute hother
      · simp [Yaml.Graph.content?, hnode]
      · rw [along_plain hplain]
        rfl
      · rw [along_plain hplain]
        rfl

end Source

/-! ## A gallery in a screen -/

/-- A screen with a gallery, which has a property of its own and a label in it. -/
def galleryText : String :=
  "Home As screen:\n  List As gallery:\n    Items: =Orders\n    Title As label:\n      Text: =1\n"

/-- The screen under search. -/
def gallerySource : Source :=
  ⟨((Yaml.compose galleryText.toList).toOption.join).getD ⟨#[], 0⟩, Text.lines galleryText.toList,
    "app.yaml"⟩

/-- The nodes of the screen. -/
def galleryGraph : Yaml.Graph where
  nodes := #[⟨.map, ⟨0, 0⟩, .mapping [(1, 2)]⟩,
    ⟨.text, ⟨0, 0⟩, .scalar "Home As screen" .plain⟩, ⟨.map, ⟨1, 2⟩, .mapping [(3, 4)]⟩,
    ⟨.text, ⟨1, 2⟩, .scalar "List As gallery" .plain⟩, ⟨.map, ⟨2, 4⟩, .mapping [(5, 6), (7, 8)]⟩,
    ⟨.text, ⟨2, 4⟩, .scalar "Items" .plain⟩, ⟨.text, ⟨2, 11⟩, .scalar "=Orders" .plain⟩,
    ⟨.text, ⟨3, 4⟩, .scalar "Title As label" .plain⟩, ⟨.map, ⟨4, 6⟩, .mapping [(9, 10)]⟩,
    ⟨.text, ⟨4, 6⟩, .scalar "Text" .plain⟩, ⟨.text, ⟨4, 12⟩, .scalar "=1" .plain⟩]
  root := 0

theorem gallerySource_eq :
    gallerySource = ⟨galleryGraph, Text.lines galleryText.toList, "app.yaml"⟩ := by
  have hgraph : ((Yaml.compose galleryText.toList).toOption.join).getD ⟨#[], 0⟩ = galleryGraph := by
    decide +kernel
  rw [gallerySource, hgraph]

theorem isTree_gallerySource : gallerySource.graph.IsTree := by
  rw [gallerySource_eq]
  exact ⟨by decide, by decide⟩

/-- The formula of the label. -/
def titleFormula : FormulaRequest :=
  ⟨⟨"app.yaml", "Title", "Text"⟩, "1", ⟨5, 14, 0⟩, ⟨[itemFrame], some "Title", some "List"⟩⟩

/-- The formula of the label follows its route through the gallery. -/
theorem titleFormula_follows_route : gallerySource.graph.IsTree ∧
    titleFormula ∈ gallerySource.search.formulas ∧
    ∃ links : List Link, gallerySource.graph.controlName? links = some "Title" ∧
      gallerySource.graph.parentName? links = some "List" := by
  have htree := isTree_gallerySource
  have hmem : titleFormula ∈ gallerySource.search.formulas := by
    rw [gallerySource_eq]
    decide +kernel
  obtain ⟨links, key, id, property, text, style, -, -, -, -, -, -, hscope⟩ :=
    Source.formula_follows_route htree titleFormula hmem
  simp only [titleFormula, Scope.mk.injEq] at hscope
  exact ⟨htree, hmem, links, hscope.2.1.symm, hscope.2.2.symm⟩

end Document

end FormulaLint
