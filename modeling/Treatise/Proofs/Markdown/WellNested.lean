import Treatise.Markdown.Event

/-!
# Well-nested events

The events of a document are nested: what is entered is left again by an end of its kind, and in
between stand the events of its content. Which events may stand directly inside an element is its
content model. A verbatim element has no content but what stands in front of its end, nested or not.

* **`WellNested`** — event lists that are nested and keep to a content model.
* **`Nested`** — event lists that are nested, whatever stands inside an element.
* **`Event.fits`** — the content model of documents: running text holds running text only, verbatim
  elements hold nothing but text, and a table holds rows of cells.
* **`wellNested_readEvents`** — the events of every text are nested and keep to that model.
-/

namespace Treatise.Markdown

/-! ## Elements -/

/-- An element of running text. -/
def Element.isInline : Element → Bool
  | emphasis => true
  | strong => true
  | strikethrough => true
  | link _ => true
  | image _ => true
  | _ => false

/-- An element whose content is running text. -/
def Element.holdsInline : Element → Bool
  | paragraph => true
  | heading _ => true
  | tableCell => true
  | e => e.isInline

/-- An element whose content is taken as it stands. -/
def Element.isVerbatim : Element → Bool
  | codeBlock _ => true
  | htmlBlock => true
  | _ => false

/-- An element that is made of parts of a table. -/
def Element.isGrid : Element → Bool
  | table => true
  | tableHead => true
  | tableRow => true
  | _ => false

theorem Element.around_append (e : Element) (inside es : List Event) :
    e.around inside ++ es = .enter e :: (inside ++ .leave e.ending :: es) := by
  simp [around]

/-! ## Events -/

/-- An event that is complete by itself. -/
def Event.isSingle : Event → Bool
  | enter _ => false
  | leave _ => false
  | _ => true

/-- An event of running text. -/
def Event.isInline : Event → Bool
  | enter e => e.isInline
  | rule => false
  | _ => true

/-- Text, or a piece of a block of raw HTML. -/
def Event.isText : Event → Bool
  | text _ => true
  | html _ => true
  | _ => false

/-- The event begins a row of a table, or a cell of a row. -/
def Event.isPartOf (holder : Element) (e : Event) : Bool :=
  match holder, e with
  | .table, enter .tableHead => true
  | .table, enter .tableRow => true
  | .tableHead, enter .tableCell => true
  | .tableRow, enter .tableCell => true
  | _, _ => false

theorem Event.isSingle_of_isPartOf {holder : Element} {e : Event}
    (h : e.isPartOf holder = true) : e.isSingle = false := by
  cases e with
  | enter e => rfl
  | leave e => rfl
  | _ => cases holder <;> exact absurd h Bool.false_ne_true

/-- Event lists that are nested inside an element, or on their own. `fits` says which events may
stand directly inside. -/
inductive WellNested (fits : Option Element → Event → Prop) : Option Element → List Event → Prop
  | nil {holder : Option Element} : WellNested fits holder []
  | single {holder : Option Element} {e : Event} {es : List Event} (hsingle : e.isSingle = true)
      (hfits : fits holder e) (hrest : WellNested fits holder es) :
      WellNested fits holder (e :: es)
  /-- A verbatim element goes on up to the first end of its kind. -/
  | verbatim {holder : Option Element} {e : Element} {inside es : List Event}
      (hverbatim : e.isVerbatim = true) (hfits : fits holder (.enter e))
      (hinside : ∀ x ∈ inside, fits (some e) x) (hend : .leave e.ending ∉ inside)
      (hrest : WellNested fits holder es) : WellNested fits holder (e.around inside ++ es)
  | around {holder : Option Element} {e : Element} {inside es : List Event}
      (hverbatim : e.isVerbatim = false) (hfits : fits holder (.enter e))
      (hinside : WellNested fits (some e) inside) (hrest : WellNested fits holder es) :
      WellNested fits holder (e.around inside ++ es)

/-- Event lists that are nested. Nothing is said about what may stand inside which element. -/
abbrev Nested (es : List Event) : Prop := WellNested (fun _ _ => True) none es

namespace WellNested

variable {fits : Option Element → Event → Prop} {holder : Option Element}

theorem append {es fs : List Event} (hes : WellNested fits holder es)
    (hfs : WellNested fits holder fs) : WellNested fits holder (es ++ fs) := by
  induction hes with
  | nil => exact hfs
  | single hsingle hfits _ ih => exact .single hsingle hfits (ih hfs)
  | verbatim hverbatim hfits hinside hend _ ih =>
    rw [List.append_assoc]
    exact .verbatim hverbatim hfits hinside hend (ih hfs)
  | around hverbatim hfits hinside _ _ ih =>
    rw [List.append_assoc]
    exact .around hverbatim hfits hinside (ih hfs)

/-- Events that keep to a content model keep to every model that allows more. -/
theorem mono {fits' : Option Element → Event → Prop} {es : List Event}
    (h : WellNested fits holder es) (hfits : ∀ holder e, fits holder e → fits' holder e) :
    WellNested fits' holder es := by
  induction h with
  | nil => exact .nil
  | single hsingle hfit _ ih => exact .single hsingle (hfits _ _ hfit) ih
  | verbatim hverbatim hfit hinside hend _ ih =>
    exact .verbatim hverbatim (hfits _ _ hfit) (fun x hx => hfits _ _ (hinside x hx)) hend ih
  | around hverbatim hfit _ _ ihInside ih => exact .around hverbatim (hfits _ _ hfit) ihInside ih

/-- A single event. -/
theorem one {e : Event} (hsingle : e.isSingle = true) (hfits : fits holder e) :
    WellNested fits holder [e] :=
  .single hsingle hfits .nil

/-- A single element. -/
theorem element {e : Element} {inside : List Event} (hverbatim : e.isVerbatim = false)
    (hfits : fits holder (.enter e)) (hinside : WellNested fits (some e) inside) :
    WellNested fits holder (e.around inside) := by
  have h : WellNested fits holder (e.around inside ++ []) := around hverbatim hfits hinside .nil
  rwa [List.append_nil] at h

/-- A single verbatim element with one event inside. -/
theorem literal {e : Element} {x : Event} (hverbatim : e.isVerbatim = true)
    (hfits : fits holder (.enter e)) (hinside : fits (some e) x) (hsingle : x.isSingle = true) :
    WellNested fits holder (e.around [x]) := by
  have hend : .leave e.ending ∉ [x] := by
    rw [List.mem_singleton]
    rintro rfl
    cases hsingle
  have h : WellNested fits holder (e.around [x] ++ []) :=
    verbatim hverbatim hfits (by simpa using hinside) hend .nil
  rwa [List.append_nil] at h

theorem flatMap {α : Type} {f : α → List Event} {l : List α}
    (h : ∀ a ∈ l, WellNested fits holder (f a)) : WellNested fits holder (l.flatMap f) := by
  induction l with
  | nil => exact .nil
  | cons a l ih =>
    rw [List.flatMap_cons]
    exact (h a List.mem_cons_self).append (ih fun b hb => h b (List.mem_cons_of_mem a hb))

end WellNested

/-! ## The content model of documents -/

/-- Which events may stand directly inside an element: in running text only those of running text,
in a verbatim element only text, and in a table only its parts. -/
def Event.fits (holder : Option Element) (e : Event) : Prop :=
  ∀ h ∈ holder, (h.holdsInline = true → e.isInline = true) ∧
    (h.isVerbatim = true → e.isText = true) ∧ (h.isGrid = true → e.isPartOf h = true)

/-- The element holds neither running text nor verbatim text nor parts of a table. -/
def Element.holdsFlow (e : Element) : Prop :=
  e.holdsInline = false ∧ e.isVerbatim = false ∧ e.isGrid = false

/-- The element may hold running text. -/
def Element.admitsInline (e : Element) : Prop := e.isVerbatim = false ∧ e.isGrid = false

/-- An element that holds none of the special contents holds anything. -/
theorem Event.fits_of_flow {holder : Option Element} {e : Event}
    (h : ∀ h ∈ holder, h.holdsFlow) : e.fits holder := by
  intro x hx
  obtain ⟨hinline, hverbatim, hgrid⟩ := h x hx
  simp [hinline, hverbatim, hgrid]

/-- Events of running text stand in all elements but verbatim ones and tables. -/
theorem Event.fits_of_isInline {holder : Option Element} {e : Event}
    (h : ∀ h ∈ holder, h.admitsInline) (he : e.isInline = true) : e.fits holder := by
  intro x hx
  obtain ⟨hverbatim, hgrid⟩ := h x hx
  simp [hverbatim, hgrid, he]

/-- A part of a table fits into it. -/
theorem Event.fits_of_isPartOf {holder : Element} {e : Event} (hgrid : holder.isGrid = true)
    (he : e.isPartOf holder = true) : e.fits (some holder) := by
  rintro x ⟨rfl⟩
  refine ⟨fun hinline => ?_, fun hverbatim => ?_, fun _ => he⟩
  · cases holder <;> simp_all [Element.holdsInline, Element.isInline, Element.isGrid]
  · cases holder <;> simp_all [Element.isVerbatim, Element.isGrid]

/-- An element of running text may hold it. -/
theorem Element.admitsInline_of_holdsInline {e : Element} (he : e.holdsInline = true) :
    ∀ x ∈ some e, x.admitsInline := by
  rintro x ⟨rfl⟩
  cases e <;> simp_all [holdsInline, isInline, admitsInline, isVerbatim, isGrid]

/-- An element whose content is not special. -/
theorem Element.flow_of_eq {e : Element} (he : e.holdsFlow) : ∀ x ∈ some e, x.holdsFlow := by
  rintro x ⟨rfl⟩
  exact he

mutual

theorem wellNested_inlineEvents (holder : Option Element)
    (h : ∀ x ∈ holder, x.admitsInline) :
    ∀ i : Inline, WellNested Event.fits holder (inlineEvents i)
  | .text _ => .one rfl (Event.fits_of_isInline h rfl)
  | .softBreak => .one rfl (Event.fits_of_isInline h rfl)
  | .hardBreak => .one rfl (Event.fits_of_isInline h rfl)
  | .code _ => .one rfl (Event.fits_of_isInline h rfl)
  | .math _ _ => .one rfl (Event.fits_of_isInline h rfl)
  | .html _ => .one rfl (Event.fits_of_isInline h rfl)
  | .emphasis content =>
    .element rfl (Event.fits_of_isInline h rfl)
      (wellNested_inlinesEvents _ (Element.admitsInline_of_holdsInline rfl) content)
  | .strong content =>
    .element rfl (Event.fits_of_isInline h rfl)
      (wellNested_inlinesEvents _ (Element.admitsInline_of_holdsInline rfl) content)
  | .strikethrough content =>
    .element rfl (Event.fits_of_isInline h rfl)
      (wellNested_inlinesEvents _ (Element.admitsInline_of_holdsInline rfl) content)
  | .link _ content =>
    .element rfl (Event.fits_of_isInline h rfl)
      (wellNested_inlinesEvents _ (Element.admitsInline_of_holdsInline rfl) content)
  | .image _ content =>
    .element rfl (Event.fits_of_isInline h rfl)
      (wellNested_inlinesEvents _ (Element.admitsInline_of_holdsInline rfl) content)

theorem wellNested_inlinesEvents (holder : Option Element)
    (h : ∀ x ∈ holder, x.admitsInline) :
    ∀ is : List Inline, WellNested Event.fits holder (inlinesEvents is)
  | [] => .nil
  | i :: is => (wellNested_inlineEvents holder h i).append (wellNested_inlinesEvents holder h is)

end

theorem wellNested_passageEvents (definitions : List LinkDefinition) {holder : Option Element}
    (h : ∀ x ∈ holder, x.admitsInline) (p : Passage) :
    WellNested Event.fits holder (passageEvents definitions p) :=
  wellNested_inlinesEvents holder h _

theorem wellNested_cellsEvents (definitions : List LinkDefinition) {row : Element}
    (hgrid : row.isGrid = true) (hrow : (Event.enter .tableCell).isPartOf row = true)
    (cells : List Passage) :
    WellNested Event.fits (some row) (cellsEvents definitions cells) := by
  refine WellNested.flatMap fun cell _ => ?_
  exact .element rfl (Event.fits_of_isPartOf hgrid hrow)
    (wellNested_passageEvents definitions (Element.admitsInline_of_holdsInline rfl) cell)

mutual

theorem wellNested_blockEvents (definitions : List LinkDefinition) (tight : Bool)
    (holder : Option Element) (h : ∀ x ∈ holder, x.holdsFlow) :
    ∀ b : Block, WellNested Event.fits holder (blockEvents definitions tight b)
  | .paragraph p => by
    unfold blockEvents
    split
    · -- in a tight item the text stands without a paragraph around it
      exact wellNested_passageEvents definitions (fun x hx => (h x hx).2) p
    · exact .element rfl (Event.fits_of_flow h)
        (wellNested_passageEvents definitions (Element.admitsInline_of_holdsInline rfl) p)
  | .heading level p =>
    .element rfl (Event.fits_of_flow h)
      (wellNested_passageEvents definitions (Element.admitsInline_of_holdsInline rfl) p)
  | .quote content =>
    .element rfl (Event.fits_of_flow h)
      (wellNested_blocksEvents definitions false _ (Element.flow_of_eq ⟨rfl, rfl, rfl⟩) content)
  | .code language s =>
    .literal rfl (Event.fits_of_flow h) (by rintro x ⟨rfl⟩; exact ⟨nofun, fun _ => rfl, nofun⟩) rfl
  | .html s =>
    .literal rfl (Event.fits_of_flow h) (by rintro x ⟨rfl⟩; exact ⟨nofun, fun _ => rfl, nofun⟩) rfl
  | .list tight number items =>
    .element rfl (Event.fits_of_flow h)
      (wellNested_itemsEvents definitions tight _ (Element.flow_of_eq ⟨rfl, rfl, rfl⟩) items)
  | .rule => .one rfl (Event.fits_of_flow h)
  | .table head rows => by
    refine .element rfl (Event.fits_of_flow h) (WellNested.append ?_ (WellNested.flatMap ?_))
    · exact .element rfl (Event.fits_of_isPartOf rfl rfl) (wellNested_cellsEvents definitions rfl rfl head)
    · intro cells _
      exact .element rfl (Event.fits_of_isPartOf rfl rfl)
        (wellNested_cellsEvents definitions rfl rfl cells)

theorem wellNested_blocksEvents (definitions : List LinkDefinition) (tight : Bool)
    (holder : Option Element) (h : ∀ x ∈ holder, x.holdsFlow) :
    ∀ bs : List Block, WellNested Event.fits holder (blocksEvents definitions tight bs)
  | [] => .nil
  | b :: bs =>
    (wellNested_blockEvents definitions tight holder h b).append
      (wellNested_blocksEvents definitions tight holder h bs)

theorem wellNested_itemsEvents (definitions : List LinkDefinition) (tight : Bool)
    (holder : Option Element) (h : ∀ x ∈ holder, x.holdsFlow) :
    ∀ items : List (List Block),
      WellNested Event.fits holder (itemsEvents definitions tight items)
  | [] => .nil
  | item :: items =>
    (WellNested.element rfl (Event.fits_of_flow h)
      (wellNested_blocksEvents definitions tight _ (Element.flow_of_eq ⟨rfl, rfl, rfl⟩)
        item)).append
      (wellNested_itemsEvents definitions tight holder h items)

end

/-- The events of a text are nested and keep to the content model. -/
theorem wellNested_readEvents (s : List Char) : WellNested Event.fits none (readEvents s) :=
  wellNested_blocksEvents _ false none (by simp) _

end Treatise.Markdown
