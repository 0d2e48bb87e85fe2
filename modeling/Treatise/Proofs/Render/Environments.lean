import Treatise.Proofs.Render.Declarations
import Treatise.Proofs.Render.Typesetting
import Treatise.Proofs.Tree.Standing

/-!
# Environments of statements

Two walks name environments: the renderer wraps each statement in one, and the declarations are
gathered from the statements below the root. They fit together because the renderer comes to every
statement of a document.

* **`Node.Divides`** — only statements and sections hold statements and sections. Sections, numbers and
  resolved references do not change that (`divides_resolve`).
* **`Latex.exists_environment`** — the renderer puts every statement of such a tree into its
  environment, whatever it leaves out elsewhere.
* **`environments_are_declared`** — what is declared for a document are the environments that its
  statements are put into.
-/

namespace Treatise

open Node (AllOf Stands descendantsOf)

/-! ## Divisions -/

/-- A part of the document around which the renderer puts no more than its frame. -/
def Tag.isDivision : Tag → Bool
  | .section => true
  | .block _ => true
  | _ => false

namespace Node

/-- A statement or section stands directly inside the node only if it is one itself. -/
def Divides (n : Node) : Prop :=
  n.children.any (·.tag.isDivision) = true → n.tag.isDivision = true

variable {n m : Node} {ns ms : List Node}

theorem Divides.of_isDivision (h : n.tag.isDivision = true) : Divides n := fun _ => h

theorem Divides.of_any_eq_false (h : n.children.any (·.tag.isDivision) = false) : Divides n := by
  rw [Divides, h]
  exact fun h => absurd h Bool.false_ne_true

/-- A statement or section anywhere in a forest is in one that stands at its top. -/
theorem any_isDivision_of_mem (hns : AllOf Divides ns) (hm : m ∈ descendantsOf ns)
    (hdivision : m.tag.isDivision = true) : ns.any (·.tag.isDivision) = true := by
  induction ns using forest_induction with
  | nil => exact absurd hm List.not_mem_nil
  | cons n ns below behind =>
    obtain ⟨hn, hchildren, hns⟩ := (allOf_cons n ns).1 hns
    rw [descendantsOf_cons, List.mem_cons, List.mem_append] at hm
    rw [List.any_cons, Bool.or_eq_true]
    rcases hm with rfl | hm | hm
    · exact .inl hdivision
    · exact .inl (hn (below hchildren hm))
    · exact .inr (behind hns hm)

theorem divides_of_forall_eq_false (h : AllOf (·.tag.isDivision = false) ns) : AllOf Divides ns :=
  fun n hn => .of_any_eq_false <| List.any_eq_false.2 fun c hc => by
    have hc := h.children hn c (mem_descendantsOf_of_mem hc)
    simp [hc]

end Node

open Node (Divides)

theorem isDivision_eq_false {n : Node} (hstatement : n.isStatement = false)
    (hsection : n.tag ≠ .section) : n.tag.isDivision = false := by
  cases htag : n.tag with
  | block st =>
    rw [isStatement_of_block htag] at hstatement
    cases hstatement
  | «section» => exact absurd htag hsection
  | _ => rfl

/-- Where nothing is a section, nodes that stand in their places divide the document. -/
theorem divides_of_stands {proofs : Nat} {ns : List Node} (hns : ∀ n ∈ ns, n.Stands proofs)
    (hsections : AllOf (·.tag ≠ .section) ns) : AllOf Divides ns := by
  induction ns using Node.forest_induction generalizing proofs with
  | nil => exact Node.allOf_nil
  | cons n ns below behind =>
    obtain ⟨hn, hrest⟩ := List.forall_mem_cons.1 hns
    obtain ⟨-, hchildren, hbehind⟩ := (Node.allOf_cons n ns).1 hsections
    have hinside {st : Statement} (tag : n.tag = .block st) := hn.children tag
    cases hn with
    | content hnone =>
      have hcontent : AllOf (·.tag.isDivision = false) n.children := fun c hc =>
        isDivision_eq_false (((Node.allOf_cons n []).1 hnone).2.1 c hc) (hchildren c hc)
      refine (Node.allOf_cons n ns).2
        ⟨.of_any_eq_false ?_, Node.divides_of_forall_eq_false hcontent, behind hrest hbehind⟩
      exact List.any_eq_false.2 fun c hc => by
        simp [hcontent c (Node.mem_descendantsOf_of_mem hc)]
    | statement tag =>
      refine (Node.allOf_cons n ns).2 ⟨.of_isDivision ?_, below (hinside tag) hchildren,
        behind hrest hbehind⟩
      rw [tag]
      rfl

/-- The tree of a source is divided, with sections and without. -/
theorem divides_tree (source : List Char) (fileId : Nat) (sections : Bool) :
    AllOf Divides ((Document.parse source fileId).tree sections).children := by
  have hparse : AllOf Divides (Document.parse source fileId).root.children :=
    divides_of_stands (fun n hn => (holds_parse source fileId n hn).1) (noSection_parse source fileId)
  unfold Document.tree
  split
  · intro n hn
    by_cases hsection : n.tag = .section
    · exact .of_isDivision (by rw [hsection]; rfl)
    · exact hparse n (mem_descendantsOf_of_mem_buildSections hsection hn)
  · exact hparse

/-! ### Numbers and references -/

/-- Nodes that are divided if others are, and that hold statements and sections if those do. -/
structure DividesAs (ns ms : List Node) : Prop where
  divides : AllOf Divides ns → AllOf Divides ms
  any_eq : ms.any (·.tag.isDivision) = ns.any (·.tag.isDivision)

section DividesAs

variable {n m : Node} {ns ms : List Node}

theorem DividesAs.refl (ns : List Node) : DividesAs ns ns := ⟨id, rfl⟩

theorem DividesAs.cons (htag : m.tag.isDivision = n.tag.isDivision)
    (below : DividesAs n.children m.children) (behind : DividesAs ns ms) :
    DividesAs (n :: ns) (m :: ms) := by
  refine ⟨fun h => ?_, by rw [List.any_cons, List.any_cons, htag, behind.any_eq]⟩
  obtain ⟨hn, hchildren, hns⟩ := (Node.allOf_cons n ns).1 h
  refine (Node.allOf_cons m ms).2 ⟨?_, below.divides hchildren, behind.divides hns⟩
  rw [Divides, htag, below.any_eq]
  exact hn

/-- A node without children that is neither a statement nor a section is put in front. -/
theorem DividesAs.cons_leaf (hm : m.tag.isDivision = false) (hnil : m.children = [])
    (h : DividesAs ns ms) : DividesAs ns (m :: ms) := by
  refine ⟨fun hns => ?_, by rw [List.any_cons, hm, Bool.false_or, h.any_eq]⟩
  refine (Node.allOf_cons m ms).2 ⟨.of_any_eq_false ?_, ?_, h.divides hns⟩
  · rw [hnil, List.any_nil]
  · rw [hnil]
    exact Node.allOf_nil

theorem dividesAs_of_settles {o : NumberingOptions} {labels : Dict Target} {fileId : Nat}
    {enclosing : List (Option Target)} {s s' : Numbering}
    (h : Settles o labels fileId enclosing s ns ms s') : DividesAs ns ms := by
  induction h with
  | nil => exact .refl []
  | heading _ tag _ _ below behind => exact .cons rfl (.cons_leaf rfl rfl below) behind
  | numbered _ tag _ _ _ _ below behind => exact .cons (by rw [tag]; rfl) below behind
  | unnumbered _ tag _ _ _ _ below behind => exact .cons (by rw [tag]; rfl) below behind
  | place _ _ _ behind => exact .cons rfl (.refl _) behind
  | label _ _ _ behind => exact .cons rfl (.refl _) behind
  | @reference _ _ _ n _ _ fresh tag _ behind =>
    have hnil : n.children = [] := fresh.leaf (by rw [tag]; rfl)
    refine .cons rfl ?_ behind
    rw [hnil]
    exact .cons_leaf (by simp [Tag.isDivision]) (children_numberSpan _) (.refl [])
  | «section» _ tag _ _ _ below behind =>
    exact .cons (by rw [Node.tag_settledSection]) below behind
  | plain _ _ _ _ _ below behind => exact .cons rfl below behind

end DividesAs

/-- The tree of a document is divided when it is numbered and its references are resolved. -/
theorem divides_resolve (o : NumberingOptions) (resolverId : Nat) (source : List Char) (fileId : Nat)
    (sections : Bool) :
    AllOf Divides
      (resolve o resolverId ((Document.parse source fileId).tree sections)).root.children :=
  (dividesAs_of_settles (settles_resolve o resolverId (fresh_tree source fileId sections))).divides
    (divides_tree source fileId sections)

/-! ## Rendering -/

namespace Text

theorem infix_dropWhile {p : Char → Bool} {t s : List Char} (h : t <:+: s)
    (hhead : ∀ c ∈ t.head?, p c = false) : t <:+: s.dropWhile p := by
  obtain ⟨a, b, rfl⟩ := h
  rw [List.append_assoc, List.dropWhile_append]
  split
  · cases t with
    | nil => exact List.nil_infix
    | cons c t =>
      rw [List.cons_append, List.dropWhile_cons_of_neg (by simp [hhead c rfl])]
      exact ⟨[], b, rfl⟩
  · exact ⟨a.dropWhile p, b, List.append_assoc ..⟩

/-- What neither begins nor ends in a blank is not cut when the text around it is trimmed. -/
theorem infix_trim {t s : List Char} (h : t <:+: s) (hhead : ∀ c ∈ t.head?, isBlank c = false)
    (hlast : ∀ c ∈ t.getLast?, isBlank c = false) : t <:+: trim s := by
  have hstart : t <:+: trimStart s := infix_dropWhile h hhead
  have hend : t.reverse <:+: (trimStart s).reverse.dropWhile isBlank :=
    infix_dropWhile (List.reverse_infix.2 hstart) (by rwa [List.head?_reverse])
  rwa [← List.reverse_infix, List.reverse_reverse] at hend

end Text

namespace Latex

/-- The environment of a statement around a text. -/
def environmentText (st : Statement) (body : String) : String :=
  command "begin" (environment st) ++ environmentArgument st ++ "\n" ++ body ++ "\n" ++
    command "end" (environment st)

variable {setting : Setting} {n m : Node} {ns : List Node} {st : Statement}

theorem infix_environmentText (st : Statement) (body : String) :
    body.toList <:+: (environmentText st body).toList := by
  simp only [environmentText, String.toList_append, List.append_assoc]
  exact ((List.prefix_append body.toList _).isInfix.trans
    (List.suffix_append _ _).isInfix).trans ((List.suffix_append _ _).isInfix.trans
      (List.suffix_append _ _).isInfix)

theorem infix_trim_environmentText {body : String} {s : List Char}
    (h : (environmentText st body).toList <:+: s) :
    (environmentText st body).toList <:+: Text.trim s := by
  refine Text.infix_trim h ?_ ?_
  · have hhead : (environmentText st body).toList.head? = some '\\' := by
      simp [environmentText, command]
    rw [hhead]
    rintro c ⟨rfl⟩
    decide
  · have hlast : (environmentText st body).toList.getLast? = some '\x7d' := by
      simp only [environmentText, command, braced, ← String.append_assoc]
      rw [String.toList_append]
      exact List.getLast?_concat
    rw [hlast]
    rintro c ⟨rfl⟩
    decide

theorem node_statement (h : n.tag = .block st) (inMath : Bool) :
    node setting n inMath =
      (environmentText st (Text.trimString
          (plainText inMath n.text ++ (nodes setting n.children inMath).1)) ++ "\n\n",
        (nodes setting n.children inMath).2) := by
  have hleaf : leaf? setting n = none := by rw [leaf?, h]
  rw [node_around (by simp [h]) hleaf (by simp [h]), wrap, h]
  simp only [inEnvironment, environmentText, String.append_assoc]

/-- The renderer puts every statement of a divided forest into its environment. Induction on the
forest: the sections and statements around a statement keep its text whole. -/
theorem exists_environment (hns : AllOf Divides ns) (hm : m ∈ descendantsOf ns)
    (htag : m.tag = .block st) (inMath : Bool) :
    ∃ b body, (node setting m b).1 = environmentText st body ++ "\n\n" ∧
      (environmentText st body).toList <:+: (nodes setting ns inMath).1.toList := by
  induction ns using Node.forest_induction generalizing inMath with
  | nil => exact absurd hm List.not_mem_nil
  | cons n ns below behind =>
    obtain ⟨hn, hchildren, hbehind⟩ := (Node.allOf_cons n ns).1 hns
    have hfirst : (node setting n inMath).1.toList <:+: (nodes setting (n :: ns) inMath).1.toList := by
      rw [nodes_cons, String.toList_append, String.toList_append, List.append_assoc]
      exact (List.prefix_append _ _).isInfix
    rw [Node.descendantsOf_cons, List.mem_cons, List.mem_append] at hm
    rcases hm with rfl | hm | hm
    · -- the statement itself
      have hnode : (node setting m inMath).1 = _ := congrArg Prod.fst (node_statement htag inMath)
      refine ⟨inMath, _, hnode, List.IsInfix.trans ?_ hfirst⟩
      rw [hnode, String.toList_append]
      exact (List.prefix_append _ _).isInfix
    · -- a statement below a section, which adds nothing, or below a statement, which trims its
      -- content and leaves the environment whole
      have hdivision : n.tag.isDivision = true :=
        hn (Node.any_isDivision_of_mem hchildren hm (by rw [htag]; rfl))
      obtain ⟨b, body, hnode, hinfix⟩ := below hchildren hm inMath
      refine ⟨b, body, hnode, List.IsInfix.trans ?_ hfirst⟩
      have hcontent : (environmentText st body).toList <:+:
          (plainText inMath n.text ++ (nodes setting n.children inMath).1).toList := by
        rw [String.toList_append]
        exact hinfix.trans (List.suffix_append _ _).isInfix
      cases hn : n.tag with
      | «section» => rwa [node_section hn]
      | block st' =>
        rw [node_statement hn, String.toList_append]
        have htrim := infix_trim_environmentText hcontent
        rw [← String.toList_ofList (l := Text.trim _)] at htrim
        exact (htrim.trans (infix_environmentText st' _)).trans (List.prefix_append _ _).isInfix
      | _ =>
        rw [hn] at hdivision
        exact absurd hdivision Bool.false_ne_true
    · obtain ⟨b, body, hnode, hinfix⟩ := behind hbehind hm (node setting n inMath).2
      refine ⟨b, body, hnode, hinfix.trans ?_⟩
      rw [nodes_cons, String.toList_append]
      exact (List.suffix_append _ _).isInfix

/-- What stands below the root of a document is part of its output. -/
theorem infix_renderLatex (h : n.tag = .root) :
    (nodes setting n.children false).1.toList <:+: (n.renderLatex setting).toList := by
  have hleaf : leaf? setting n = none := by rw [leaf?, h]
  rw [Node.renderLatex, node_around (by simp [h]) hleaf (by simp [h]), wrap, h, String.toList_append]
  exact (List.suffix_append _ _).isInfix

end Latex

/-- The environments that are declared for a document, each on a line of its own, are those that its
statements are put into, but for proofs: the statements are those of all its blocks. The environments
are starred where statements take no number, and a counter that is shared was declared before. -/
theorem environments_are_declared (source : List Char) (fileId resolverId : Nat) (sections : Bool)
    (o : NumberingOptions) (setting : Latex.Setting) :
    let tree := (resolve o resolverId ((Document.parse source fileId).tree sections)).root
    (∃ ds, (Text.splitLines (theoremDeclarations tree o).toList).map Declaration.read? =
        ds.map some ∧ Declares o tree.statements ds) ∧
      (∀ st, st ∈ tree.statements ↔ ∃ n ∈ tree.descendants, n.tag = .block st) ∧
      ∀ n ∈ tree.descendants, ∀ st, n.tag = .block st → ∃ inMath body,
        (Latex.node setting n inMath).1 = Latex.environmentText st body ++ "\n\n" ∧
          (Latex.environmentText st body).toList <:+: (tree.renderLatex setting).toList := by
  intro tree
  refine ⟨read_theoremDeclarations tree o, fun _ => mem_statements_iff, fun n hn st htag => ?_⟩
  rw [Node.descendants_eq] at hn
  obtain ⟨b, body, hnode, hinfix⟩ := Latex.exists_environment
    (divides_resolve o resolverId source fileId sections) hn htag false
  have hroot : tree.tag = .root := tag_tree source fileId sections
  exact ⟨b, body, hnode, hinfix.trans (Latex.infix_renderLatex hroot)⟩

/-- A theorem without a number in a section, beside a lemma with one. -/
theorem environments_are_declared_of_mixed_kinds :
    let o : NumberingOptions := {}
    let setting : Latex.Setting := ⟨{}, noAssets⟩
    let source := "# A\n\nLemma: a \x7b\x7d\n\nTheorem*: b \x7b\x7d".toList
    let tree := (resolve o 0 ((Document.parse source 0).tree true)).root
    ∃ n ∈ tree.descendants, ∃ st, n.tag = .block st ∧ Latex.environment st = "theorem*" ∧
      ∃ inMath body, (Latex.node setting n inMath).1 = Latex.environmentText st body ++ "\n\n" ∧
        (Latex.environmentText st body).toList <:+: (tree.renderLatex setting).toList := by
  intro o setting source tree
  have hany : (tree.descendants.any fun n =>
      n.statement?.any fun st => Latex.environment st == "theorem*") = true := by
    decide +kernel
  obtain ⟨n, hn, hst⟩ := List.any_eq_true.1 hany
  obtain ⟨st, hsome, hst⟩ := (Option.any_eq_true _ _).1 hst
  have htag := statement?_eq_some_iff.1 hsome
  exact ⟨n, hn, st, htag, beq_iff_eq.1 hst,
    (environments_are_declared source 0 0 true o setting).2.2 n hn st htag⟩

end Treatise
