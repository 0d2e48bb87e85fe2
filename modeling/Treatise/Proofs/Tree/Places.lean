import Treatise.Proofs.Tree.Forest

/-!
# Places in a tree

A node does not say where it stands. Its place does: the nodes around it and the nodes before it.

* **`Node.places`** — the places of all nodes of a tree, in document order.
* **`exists_rest_of_mem_places`** — what is before a place, and then the node itself, begin the
  nodes of the tree in document order.
* **`getLast?_of_mem_above`** — a node that holds none of its own sort is, at every place in it, the
  last of its sort so far.
* **`exists_innermost_of_mem_inside`** — the innermost node of a sort around a place in a node of
  the sort is that node or stands in it.
-/

namespace Treatise

/-- A node with what surrounds it. -/
structure Place where
  node : Node
  /-- The nodes around it, the innermost first. -/
  above : List Node
  /-- The nodes that begin before it, in document order. Those around it are among them. -/
  before : List Node

namespace Node

mutual

/-- The places of a node and of the nodes below it. -/
def placesAt (above before : List Node) : Node → List Place
  | ⟨tag, attrs, flags, text, tail, children⟩ =>
    let n : Node := ⟨tag, attrs, flags, text, tail, children⟩
    ⟨n, above, before⟩ :: placesOf (n :: above) (before ++ [n]) children

/-- The places of nodes that follow each other and of the nodes below them. -/
def placesOf (above before : List Node) : List Node → List Place
  | [] => []
  | n :: ns =>
    placesAt above before n ++ placesOf above (before ++ n :: descendantsOf n.children) ns

end

/-- The places of the nodes below a node, in document order. -/
def places (root : Node) : List Place := placesOf [] [] root.children

variable {above before ns : List Node} {n : Node}

@[simp] theorem placesOf_nil : placesOf above before [] = [] := rfl

theorem placesOf_cons :
    placesOf above before (n :: ns) =
      ⟨n, above, before⟩ :: (placesOf (n :: above) (before ++ [n]) n.children ++
        placesOf above (before ++ n :: descendantsOf n.children) ns) := by
  cases n
  rfl

theorem placesOf_cons_of_nil (h : n.children = []) :
    placesOf above before (n :: ns) =
      ⟨n, above, before⟩ :: placesOf above (before ++ [n]) ns := by
  rw [placesOf_cons, h]
  rfl

theorem map_node_placesOf (above before ns : List Node) :
    (placesOf above before ns).map Place.node = descendantsOf ns := by
  induction ns using forest_induction generalizing above before with
  | nil => rfl
  | cons n ns below behind =>
    rw [placesOf_cons, List.map_cons, List.map_append, below, behind, descendantsOf_cons]

theorem map_node_places (root : Node) : root.places.map Place.node = root.descendants := by
  rw [places, map_node_placesOf, descendants_eq]

/-- Every node of a list, with what is before it. -/
def splits (before : List Node) : List Node → List (List Node × Node)
  | [] => []
  | n :: ns => (before, n) :: splits (before ++ [n]) ns

theorem splits_append (before ns ms : List Node) :
    splits before (ns ++ ms) = splits before ns ++ splits (before ++ ns) ms := by
  induction ns generalizing before with
  | nil => rw [List.nil_append, List.append_nil, splits, List.nil_append]
  | cons n ns ih => simp only [List.cons_append, splits, ih, List.append_assoc, List.nil_append]

/-- What is before the places are the beginnings of the list of all nodes. -/
theorem map_split_placesOf (above before ns : List Node) :
    (placesOf above before ns).map (fun p => (p.before, p.node)) =
      splits before (descendantsOf ns) := by
  induction ns using forest_induction generalizing above before with
  | nil => rfl
  | cons n ns below behind =>
    have hbelow := below (n :: above) (before ++ [n])
    have hbehind := behind above (before ++ n :: descendantsOf n.children)
    rw [placesOf_cons, List.map_cons, List.map_append, hbelow, hbehind, descendantsOf_cons, splits,
      splits_append, List.append_assoc, List.singleton_append]

/-- What is before a place and the node itself are followed by the other nodes. -/
theorem exists_rest_of_mem_placesOf {p : Place} (h : p ∈ placesOf above before ns) :
    ∃ rest, before ++ descendantsOf ns = p.before ++ p.node :: rest := by
  induction ns using forest_induction generalizing above before with
  | nil => exact absurd h List.not_mem_nil
  | cons n ns below behind =>
    rw [placesOf_cons, List.mem_cons, List.mem_append] at h
    rw [descendantsOf_cons]
    rcases h with rfl | h | h
    · exact ⟨_, rfl⟩
    · obtain ⟨rest, hrest⟩ := below h
      refine ⟨rest ++ descendantsOf ns, ?_⟩
      have hsplit : before ++ n :: (descendantsOf n.children ++ descendantsOf ns) =
          before ++ [n] ++ descendantsOf n.children ++ descendantsOf ns := by simp
      rw [hsplit, hrest, List.append_assoc, List.cons_append]
    · obtain ⟨rest, hrest⟩ := behind h
      exact ⟨rest, by rw [← hrest]; simp⟩

theorem exists_rest_of_mem_places {root : Node} {p : Place} (h : p ∈ root.places) :
    ∃ rest, root.descendants = p.before ++ p.node :: rest := by
  obtain ⟨rest, hrest⟩ := exists_rest_of_mem_placesOf h
  exact ⟨rest, by rw [descendants_eq, ← hrest, List.nil_append]⟩

theorem mem_before_of_mem_placesOf {p : Place} (h : p ∈ placesOf above before ns)
    (habove : ∀ m ∈ above, m ∈ before) : ∀ m ∈ p.above, m ∈ p.before := by
  induction ns using forest_induction generalizing above before with
  | nil => exact absurd h List.not_mem_nil
  | cons n ns below behind =>
    rw [placesOf_cons, List.mem_cons, List.mem_append] at h
    rcases h with rfl | h | h
    · exact habove
    · refine below h fun m hm => ?_
      rcases List.mem_cons.1 hm with rfl | hm
      · exact List.mem_append_right before (List.mem_singleton_self m)
      · exact List.mem_append_left _ (habove m hm)
    · exact behind h fun m hm => List.mem_append_left _ (habove m hm)

theorem mem_descendants_of_mem_above {root : Node} {p : Place} (hp : p ∈ root.places) {m : Node}
    (hm : m ∈ p.above) : m ∈ root.descendants := by
  obtain ⟨rest, hrest⟩ := exists_rest_of_mem_places hp
  have hbefore : m ∈ p.before := mem_before_of_mem_placesOf hp nofun m hm
  rw [hrest]
  exact List.mem_append_left _ hbefore

/-- The last of the nodes so far that satisfy `sort`, where such nodes hold no others. Around a
place stands at most one of them, and none stands between it and the place. -/
theorem getLast?_of_mem_placesOf {sort : Node → Bool} {p : Place}
    (hp : p ∈ placesOf above before ns)
    (hns : AllOf (fun n => sort n = true → AllOf (sort · = false) n.children) ns)
    (habove : ∀ m ∈ above, sort m = true →
      (before.filter sort).getLast? = some m ∧ AllOf (sort · = false) ns) :
    ∀ m ∈ p.above, sort m = true → (p.before.filter sort).getLast? = some m := by
  induction ns using forest_induction generalizing above before with
  | nil => exact absurd hp List.not_mem_nil
  | cons n ns below behind =>
    rw [placesOf_cons, List.mem_cons, List.mem_append] at hp
    obtain ⟨hn, hchildren, hrest⟩ := (allOf_cons n ns).1 hns
    rcases hp with rfl | hp | hp
    · exact fun m hm hsort => (habove m hm hsort).1
    · refine below hp hchildren fun m hm hsort => ?_
      rcases List.mem_cons.1 hm with rfl | hm
      · -- the node itself is the last one when its children begin
        exact ⟨by simp [hsort], hn hsort⟩
      · obtain ⟨hlast, hnone⟩ := habove m hm hsort
        obtain ⟨hother, hbelow, -⟩ := (allOf_cons n ns).1 hnone
        exact ⟨by simpa [hother] using hlast, hbelow⟩
    · refine behind hp hrest fun m hm hsort => ?_
      obtain ⟨hlast, hnone⟩ := habove m hm hsort
      obtain ⟨hother, hbelow, hbehind⟩ := (allOf_cons n ns).1 hnone
      have hskip : (descendantsOf n.children).filter sort = [] :=
        List.filter_eq_nil_iff.2 fun c hc => by simp [hbelow c hc]
      refine ⟨?_, hbehind⟩
      rwa [List.filter_append, List.filter_cons_of_neg (by simp [hother]), hskip, List.append_nil]

theorem getLast?_of_mem_above {sort : Node → Bool} {root : Node} {p : Place} (hp : p ∈ root.places)
    (hroot : AllOf (fun n => sort n = true → AllOf (sort · = false) n.children) root.children)
    {m : Node} (hm : m ∈ p.above) (hsort : sort m = true) :
    (p.before.filter sort).getLast? = some m :=
  getLast?_of_mem_placesOf hp hroot nofun m hm hsort

end Node

/-! ## Inside a node -/

namespace Place

/-- The places of the nodes below the node at a place. -/
def inside (p : Place) : List Place :=
  Node.placesOf (p.node :: p.above) (p.before ++ [p.node]) p.node.children

/-- The node at the place `q` is the innermost one of its sort around the place. -/
structure IsInnermost (sort : Node → Bool) (q p : Place) : Prop where
  mem : p ∈ q.inside
  isSort : sort q.node = true
  between : ∃ between, p.above = between ++ q.node :: q.above ∧ ∀ n ∈ between, sort n = false

theorem IsInnermost.find?_above {sort : Node → Bool} {p q : Place} (h : IsInnermost sort q p) :
    p.above.find? sort = some q.node := by
  obtain ⟨between, habove, hnone⟩ := h.between
  have hskip : between.find? sort = none :=
    List.find?_eq_none.2 fun n hn => by simp [hnone n hn]
  rw [habove, List.find?_append, hskip, Option.none_or, List.find?_cons_of_pos h.isSort]

theorem map_node_inside (p : Place) :
    p.inside.map Place.node = Node.descendantsOf p.node.children :=
  Node.map_node_placesOf _ _ _

end Place

namespace Node

variable {above before ns : List Node}

/-- The places in a node of a forest are places of the forest. -/
theorem mem_placesOf_of_mem_inside {p q : Place} (hp : p ∈ placesOf above before ns)
    (hq : q ∈ p.inside) : q ∈ placesOf above before ns := by
  induction ns using forest_induction generalizing above before with
  | nil => exact absurd hp List.not_mem_nil
  | cons n ns below behind =>
    rw [placesOf_cons, List.mem_cons, List.mem_append] at hp ⊢
    rcases hp with rfl | hp | hp
    · exact .inr (.inl hq)
    · exact .inr (.inl (below hp))
    · exact .inr (.inr (behind hp))

/-- What is above a place is above the forest, but for nodes of the forest. The innermost of these
that is of the sort has the place in it. -/
theorem exists_innermost_of_mem_placesOf (sort : Node → Bool) {p : Place}
    (hp : p ∈ placesOf above before ns) :
    (∃ between, p.above = between ++ above ∧ ∀ n ∈ between, sort n = false) ∨
      ∃ q ∈ placesOf above before ns, Place.IsInnermost sort q p := by
  induction ns using forest_induction generalizing above before with
  | nil => exact absurd hp List.not_mem_nil
  | cons n ns below behind =>
    rw [placesOf_cons, List.mem_cons, List.mem_append] at hp
    rw [placesOf_cons]
    simp only [List.mem_cons, List.mem_append]
    rcases hp with rfl | hp | hp
    · exact .inl ⟨[], rfl, nofun⟩
    · rcases below hp with ⟨between, habove, hnone⟩ | ⟨q, hq, hinner⟩
      · cases hsort : sort n with
        | true => exact .inr ⟨⟨n, above, before⟩, .inl rfl, hp, hsort, between, habove, hnone⟩
        | false =>
          refine .inl ⟨between ++ [n], by rw [habove, List.append_cons], fun m hm => ?_⟩
          rcases List.mem_append.1 hm with hm | hm
          · exact hnone m hm
          · rwa [List.mem_singleton.1 hm]
      · exact .inr ⟨q, .inr (.inl hq), hinner⟩
    · rcases behind hp with hnone | ⟨q, hq, hinner⟩
      · exact .inl hnone
      · exact .inr ⟨q, .inr (.inr hq), hinner⟩

/-- In a node of the sort, every place has an innermost node of the sort around it. -/
theorem exists_innermost_of_mem_inside {sort : Node → Bool} {p q : Place}
    (hsort : sort p.node = true) (hq : q ∈ p.inside) :
    ∃ k, (k = p ∨ k ∈ p.inside) ∧ Place.IsInnermost sort k q := by
  rcases exists_innermost_of_mem_placesOf sort hq with ⟨between, habove, hnone⟩ | ⟨k, hk, hinner⟩
  · exact ⟨p, .inl rfl, hq, hsort, between, habove, hnone⟩
  · exact ⟨k, .inr hk, hinner⟩

end Node

end Treatise
