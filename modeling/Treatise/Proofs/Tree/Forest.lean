import Treatise.Tree.Node

/-!
# Forests

Every walk over the document tree is a pair of functions, on a node and on the nodes that follow
each other. The facts about such a pair are stated on lists of nodes only, and proved by one
induction.

* **`Node.forest_induction`** — a list of nodes is empty, or a first node with its children and the
  nodes behind it.
* **`Node.AllOf`** — a property of all nodes of a forest, at any depth.
-/

namespace Treatise

namespace Node

/-- Induction over forests: for a first node the statement is known of the node's children and of
the nodes behind it. -/
@[elab_as_elim]
theorem forest_induction {motive : List Node → Prop} (ns : List Node) (nil : motive [])
    (cons : ∀ n ns, motive n.children → motive ns → motive (n :: ns)) : motive ns :=
  @Node.rec_1 (fun n => motive n.children) motive (fun _ _ _ _ _ _ ih => ih) nil cons ns

/-- A node is its parts. It is not by definition, as the children are nodes themselves. -/
@[simp] theorem eta (n : Node) :
    (⟨n.tag, n.attrs, n.flags, n.text, n.tail, n.children⟩ : Node) = n := by
  cases n
  rfl

/-! ## Descendants -/

theorem descendants_eq (n : Node) : n.descendants = descendantsOf n.children := by
  cases n
  rfl

@[simp] theorem descendantsOf_nil : descendantsOf [] = [] := rfl

@[simp] theorem descendantsOf_cons (n : Node) (ns : List Node) :
    descendantsOf (n :: ns) = n :: (descendantsOf n.children ++ descendantsOf ns) := by
  rw [← descendants_eq]
  rfl

@[simp] theorem descendantsOf_append (ns ms : List Node) :
    descendantsOf (ns ++ ms) = descendantsOf ns ++ descendantsOf ms := by
  induction ns with
  | nil => rfl
  | cons n ns ih => simp [ih]

theorem textContent_eq (n : Node) : n.textContent = n.text ++ textContentOf n.children := by
  cases n
  rfl

/-! ## Properties of all nodes -/

/-- All nodes of a forest have a property. -/
def AllOf (p : Node → Prop) (ns : List Node) : Prop := ∀ n ∈ descendantsOf ns, p n

variable {p q : Node → Prop}

@[simp] theorem allOf_nil : AllOf p [] := by simp [AllOf]

@[simp] theorem allOf_cons (n : Node) (ns : List Node) :
    AllOf p (n :: ns) ↔ p n ∧ AllOf p n.children ∧ AllOf p ns := by
  simp only [AllOf, descendantsOf_cons, List.mem_cons, List.mem_append]
  constructor
  · intro h
    exact ⟨h n (.inl rfl), fun m hm => h m (.inr (.inl hm)), fun m hm => h m (.inr (.inr hm))⟩
  · rintro ⟨hn, hbelow, hbehind⟩ m (rfl | hm | hm)
    · exact hn
    · exact hbelow m hm
    · exact hbehind m hm

@[simp] theorem allOf_append (ns ms : List Node) :
    AllOf p (ns ++ ms) ↔ AllOf p ns ∧ AllOf p ms := by
  induction ns with
  | nil => simp
  | cons n ns ih => simp [ih, and_assoc]

theorem AllOf.filter {ns : List Node} (h : AllOf p ns) (keep : Node → Bool) :
    AllOf p (ns.filter keep) := by
  induction ns with
  | nil => exact h
  | cons n ns ih =>
    obtain ⟨hn, hchildren, hns⟩ := (allOf_cons n ns).1 h
    rw [List.filter_cons]
    split
    · exact (allOf_cons _ _).2 ⟨hn, hchildren, ih hns⟩
    · exact ih hns

/-- The nodes at the top of a forest are among its nodes. -/
theorem mem_descendantsOf_of_mem {n : Node} {ns : List Node} (h : n ∈ ns) :
    n ∈ descendantsOf ns := by
  induction ns with
  | nil => simp at h
  | cons m ns ih =>
    rcases List.mem_cons.1 h with rfl | h
    · simp
    · simp [ih h]

/-- A node of a forest is at its top, or a child of a node of the forest. -/
theorem mem_or_exists_parent {n : Node} {ns : List Node} (h : n ∈ descendantsOf ns) :
    n ∈ ns ∨ ∃ m ∈ descendantsOf ns, n ∈ m.children := by
  induction ns using forest_induction with
  | nil => simp at h
  | cons m ns below behind =>
    rw [descendantsOf_cons, List.mem_cons, List.mem_append] at h
    rw [descendantsOf_cons]
    rcases h with rfl | h | h
    · exact .inl List.mem_cons_self
    · rcases below h with h | ⟨k, hk, hn⟩
      · exact .inr ⟨m, List.mem_cons_self, h⟩
      · exact .inr ⟨k, List.mem_cons_of_mem m (List.mem_append_left _ hk), hn⟩
    · rcases behind h with h | ⟨k, hk, hn⟩
      · exact .inl (List.mem_cons_of_mem m h)
      · exact .inr ⟨k, List.mem_cons_of_mem m (List.mem_append_right _ hk), hn⟩

/-- A property of all nodes of a forest is one of all nodes below each of them. -/
theorem AllOf.children {n : Node} {ns : List Node} (h : AllOf p ns) (hn : n ∈ descendantsOf ns) :
    AllOf p n.children := by
  induction ns using forest_induction with
  | nil => simp at hn
  | cons m ns below behind =>
    rw [allOf_cons] at h
    rw [descendantsOf_cons, List.mem_cons, List.mem_append] at hn
    rcases hn with rfl | hn | hn
    · exact h.2.1
    · exact below h.2.1 hn
    · exact behind h.2.2 hn

end Node

end Treatise
