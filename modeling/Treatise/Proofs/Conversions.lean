import Treatise.Conversion
import Treatise.Proofs.Issues
import Treatise.Proofs.Numbering.Walk
import Treatise.Proofs.Render.Citations

/-!
# Places in a conversion

Of all that a conversion warns about, only what is wrong with the source as it was read has a place.
So the places are those that a document names, and each can be cut out of the expanded source.

* `span_of_mem_resolveNodes`, `span_of_mem_nodesToHtml` — what is found when references are resolved
  and when citations are rendered has no place.
* **`isRangeOf_of_mem_convert`** — the places of all warnings of a conversion.
-/

namespace Treatise

section Walks

variable {labels : Dict Target} {b : Bibliography} {fileId : Nat} {n : Node} {s : HtmlState}

theorem span_of_mem_resolveNodes (ns : List Node) :
    ∀ i ∈ (resolveNodes labels fileId ns).2, i.span = none := by
  induction ns using Node.forest_induction with
  | nil => exact List.forall_mem_nil _
  | cons n ns below behind =>
    rw [resolveNodes_cons]
    refine List.forall_mem_append.2 ⟨?_, behind⟩
    by_cases htag : n.tag = .reference
    · rw [resolveNode_reference htag, resolveReference]
      dsimp only
      split <;> simp
    · rwa [snd_resolveNode_of_ne htag]

theorem HtmlRenderer.span_of_mem_leaf? {r : List Html × List Issue}
    (h : HtmlRenderer.leaf? b fileId n = some r) : ∀ i ∈ r.2, i.span = none := by
  cases hciting : n.tag.isCiting with
  | false =>
    rw [(citingOf_leaf? h hciting).2]
    exact List.forall_mem_nil _
  | true =>
    rcases Tag.eq_of_isCiting hciting with htag | htag
    · obtain rfl : citation b fileId n = r := by simpa [leaf?, htag] using h
      rw [(shows_citation htag).2]
      exact List.forall_mem_map.2 fun _ _ => rfl
    · obtain rfl : ([bibEntry b n], []) = r := by simpa [leaf?, htag] using h
      exact List.forall_mem_nil _

/-- The renderer adds warnings without a place to those that there are. -/
theorem span_of_mem_nodesToHtml (ns : List Node) (hs : ∀ i ∈ s.issues, i.span = none) :
    ∀ i ∈ (nodesToHtml b fileId ns s).2.issues, i.span = none := by
  induction ns using Node.forest_induction generalizing s with
  | nil => exact hs
  | cons n ns below behind =>
    refine behind ?_
    cases hleaf : HtmlRenderer.leaf? b fileId n with
    | some r =>
      rw [toHtml_of_leaf hleaf]
      exact List.forall_mem_append.2 ⟨hs, HtmlRenderer.span_of_mem_leaf? hleaf⟩
    | none =>
      rw [toHtml_of_none hleaf]
      dsimp only
      rw [HtmlState.issues_leave]
      exact below (by rwa [HtmlState.issues_enter])

end Walks

/-- The table of contents is rendered behind the document, with the same warnings. -/
theorem span_of_mem_html (o : Options) (fileId : Nat) (root contents : Node) :
    ∀ i ∈ (Rendering.html o fileId root contents).issues, i.span = none := by
  have hroot : ∀ i ∈ (root.toHtml (.ofDocument root) fileId {}).2.issues, i.span = none :=
    span_of_mem_nodesToHtml [root] (List.forall_mem_nil _)
  exact span_of_mem_nodesToHtml [contents] hroot

/-- A warning of a conversion that has a place is one of the document that was read. -/
theorem mem_issues_of_mem_convert {o : Options} {assets : AssetProbe} {source : List Char}
    {fileId : Nat} {i : Issue} (hi : i ∈ (convert o assets source fileId).issues)
    (hspan : i.span ≠ none) : i ∈ (Document.parse source fileId).issues := by
  simp only [convert, convertDocument, List.mem_append, or_assoc] at hi
  rcases hi with hi | hi | hi | hi
  · exact hi
  · exact absurd (span_of_mem_resolveNodes _ i hi) hspan
  · obtain ⟨e, -, rfl⟩ := List.mem_map.1 hi
    exact absurd rfl hspan
  · cases hformat : o.format with
    | html =>
      rw [hformat] at hi
      exact absurd (span_of_mem_html _ _ _ _ i hi) hspan
    | latex =>
      rw [hformat] at hi
      exact absurd hi List.not_mem_nil

theorem isRangeOf_of_mem_convert {o : Options} {assets : AssetProbe} {source : List Char}
    {fileId : Nat} {i : Issue} (hi : i ∈ (convert o assets source fileId).issues) :
    ∀ span ∈ i.span, span.IsRangeOf (convert o assets source fileId).source := by
  intro span hspan
  have hread : i ∈ (Document.parse source fileId).issues :=
    mem_issues_of_mem_convert hi (by simp [Option.mem_def.1 hspan])
  exact Document.isRangeOf_of_mem_issues source fileId i hread span hspan

end Treatise
