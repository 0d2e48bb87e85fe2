import Mathlib.Data.List.Nodup
import Mathlib.Data.List.ProdSigma
import Treatise.Render.Latex
import Treatise.Text.Line
import Treatise.Text.Search

/-!
# Declared environments

The declarations for a document are lines of the form

    \newtheorem[*]\{environment}[[shared]]\{title}[[within]]

* **`Declaration.read?`** — reads such a line; `Declaration.read?_print` says that it reads back what
  was printed.
* **`Declares`** — declarations that fit to statements: there is one for each environment of the
  statements that are no proofs, and a counter is declared before it is shared.
* **`declares_declarations`** — this is so for every document (`read_theoremDeclarations`), whatever
  its statements are and however they are mixed.
-/

namespace Treatise

/-! ## Lines -/

namespace Text

theorem splitLines_append_newline {l : List Char} (h : '\n' ∉ l) (s : List Char) :
    splitLines (l ++ '\n' :: s) = (l ++ ['\n']) :: splitLines s := by
  induction l with
  | nil => exact if_pos rfl
  | cons c l ih =>
    rw [List.mem_cons, not_or] at h
    obtain ⟨hc, hl⟩ := h
    rw [List.cons_append, splitLines, if_neg (Ne.symm hc), ih hl]
    rfl

end Text

/-! ## Reading declarations -/

/-- A declaration of an environment. -/
structure Declaration where
  /-- Statements in the environment take no number. -/
  starred : Bool
  environment : String
  /-- The environment with the counter that this one takes, too. -/
  shares : Option String
  title : String
  /-- What restarts the counter. -/
  within : Option String
  deriving DecidableEq, Repr

namespace Declaration

/-- Reads a text between two characters, and gives what follows. -/
def group? (opening closing : Char) (s : List Char) : Option (String × List Char) :=
  match s with
  | [] => none
  | c :: s =>
    if c = opening then (Text.splitOnce? closing s).map fun p => (String.ofList p.1, p.2) else none

/-- Reads a text in brackets, which may be left out. -/
def optional (s : List Char) : Option String × List Char :=
  match group? '[' ']' s with
  | some (inner, rest) => (some inner, rest)
  | none => (none, s)

/-- Reads a star, which may be left out. -/
def star (s : List Char) : Bool × List Char :=
  if s.head? = some '*' then (true, s.tail) else (false, s)

/-- Reads a line. -/
def read? (line : List Char) : Option Declaration := do
  let s ← Text.after? "\\newtheorem" line
  let (starred, s) := star s
  let (environment, s) ← group? '\x7b' '\x7d' s
  let (shares, s) := optional s
  let (title, s) ← group? '\x7b' '\x7d' s
  let (within, s) := optional s
  if s = ['\n'] then some ⟨starred, environment, shares, title, within⟩ else none

/-- A text between brackets, if there is one. -/
def bracketed (s : Option String) : String := (s.map fun s => "[" ++ s ++ "]").getD ""

def print (d : Declaration) : String :=
  Latex.command (if d.starred then "newtheorem*" else "newtheorem") d.environment ++
    bracketed d.shares ++ Latex.braced d.title ++ bracketed d.within ++ "\n"

/-! ### What is printed is read back -/

/-- A word of letters, perhaps with stars: none of its characters ends a group or a line. -/
def IsWord (s : String) : Prop := (s.toList.all fun c => c.isAlpha || c == '*') = true

instance (s : String) : Decidable (IsWord s) := inferInstanceAs (Decidable (_ = true))

/-- All names in the declaration are words. -/
structure IsPlain (d : Declaration) : Prop where
  environment : IsWord d.environment
  shares : ∀ s ∈ d.shares, IsWord s
  title : IsWord d.title
  within : ∀ s ∈ d.within, IsWord s

theorem IsWord.not_mem {s : String} (h : IsWord s) {c : Char}
    (hc : (c.isAlpha || c == '*') = false) : c ∉ s.toList := by
  intro hmem
  have htrue := List.all_eq_true.1 h c hmem
  rw [hc] at htrue
  exact Bool.false_ne_true htrue

theorem group?_of_not_mem {opening closing : Char} {inner : List Char} (h : closing ∉ inner)
    (rest : List Char) :
    group? opening closing (opening :: (inner ++ closing :: rest)) =
      some (String.ofList inner, rest) := by
  rw [group?, if_pos rfl, Text.splitOnce?_eq_some_iff.2 ⟨rfl, h⟩]
  rfl

theorem group?_braced {s : String} (h : IsWord s) (rest : List Char) :
    group? '\x7b' '\x7d' ((Latex.braced s).toList ++ rest) = some (s, rest) := by
  have hs : (Latex.braced s).toList ++ rest = '\x7b' :: (s.toList ++ '\x7d' :: rest) := by
    simp [Latex.braced]
  rw [hs, group?_of_not_mem (h.not_mem rfl), String.ofList_toList]

theorem optional_bracketed {o : Option String} (h : ∀ s ∈ o, IsWord s) {rest : List Char}
    (hrest : rest.head? ≠ some '[') :
    optional ((bracketed o).toList ++ rest) = (o, rest) := by
  cases o with
  | none =>
    show optional rest = (none, rest)
    have hgroup : group? '[' ']' rest = none := by
      cases rest with
      | nil => rfl
      | cons c rest => exact if_neg fun hc => hrest (congrArg some hc)
    rw [optional, hgroup]
  | some s =>
    have hs : (bracketed (some s)).toList ++ rest = '[' :: (s.toList ++ ']' :: rest) := by
      simp [bracketed]
    rw [hs, optional, group?_of_not_mem ((h s rfl).not_mem rfl), String.ofList_toList]

theorem star_append (starred : Bool) {rest : List Char} (hrest : rest.head? ≠ some '*') :
    star ((if starred then ['*'] else []) ++ rest) = (starred, rest) := by
  cases starred with
  | true => exact if_pos rfl
  | false => exact if_neg hrest

theorem read?_print {d : Declaration} (h : d.IsPlain) : read? d.print.toList = some d := by
  have hprint : d.print.toList = "\\newtheorem".toList ++ ((if d.starred then ['*'] else []) ++
      ((Latex.braced d.environment).toList ++ ((bracketed d.shares).toList ++
        ((Latex.braced d.title).toList ++ ((bracketed d.within).toList ++ ['\n']))))) := by
    cases hstarred : d.starred <;> simp [print, Latex.command, hstarred]
  have hbraced (s : String) (rest : List Char) :
      ((Latex.braced s).toList ++ rest).head? = some '\x7b' := by
    simp [Latex.braced]
  rw [hprint, read?, Text.after?, Text.stripStart?_eq_some_iff.2 rfl]
  simp only [Option.bind_eq_bind, Option.bind_some]
  rw [star_append _ (by rw [hbraced]; decide)]
  simp only [group?_braced h.environment, Option.bind_some]
  rw [optional_bracketed h.shares (by rw [hbraced]; decide)]
  simp only [group?_braced h.title, Option.bind_some]
  rw [optional_bracketed h.within (by decide)]
  exact if_pos rfl

theorem exists_line {d : Declaration} (h : d.IsPlain) :
    ∃ l, d.print.toList = l ++ ['\n'] ∧ '\n' ∉ l := by
  have hbraced {s : String} (hs : IsWord s) : '\n' ∉ (Latex.braced s).toList := by
    simp [Latex.braced, hs.not_mem (c := '\n') rfl]
  have hbracketed {o : Option String} (ho : ∀ s ∈ o, IsWord s) : '\n' ∉ (bracketed o).toList := by
    cases o with
    | none => exact List.not_mem_nil
    | some s => simp [bracketed, (ho s rfl).not_mem (c := '\n') rfl]
  have hcommand : '\n' ∉ (if d.starred then "newtheorem*" else "newtheorem").toList := by
    cases d.starred <;> decide
  refine ⟨_, String.toList_append .., ?_⟩
  simp only [Latex.command, String.toList_append, List.mem_append, not_or]
  exact ⟨⟨⟨⟨⟨by decide, hcommand⟩, hbraced h.environment⟩, hbracketed h.shares⟩, hbraced h.title⟩,
    hbracketed h.within⟩

/-- The lines of printed declarations are the declarations. -/
theorem read?_splitLines {ds : List Declaration} (h : ∀ d ∈ ds, d.IsPlain) :
    (Text.splitLines (String.join (ds.map print)).toList).map read? = ds.map some := by
  induction ds with
  | nil => rfl
  | cons d ds ih =>
    obtain ⟨hd, hds⟩ := List.forall_mem_cons.1 h
    obtain ⟨l, hl, hnewline⟩ := exists_line hd
    rw [List.map_cons, String.join_cons, String.toList_append, hl, List.append_assoc,
      List.singleton_append, Text.splitLines_append_newline hnewline, List.map_cons, ih hds, ← hl,
      read?_print hd, List.map_cons]

end Declaration

/-! ## Declarations for statements -/

/-- The name of the environment of a kind that is no proof. -/
def Kind.environmentFor (numbered : Bool) (kind : Kind) : String :=
  kind.environment ++ if numbered then "" else "*"

namespace Declaration

/-- What restarts the numbers of statements. -/
def unit (depthLimit : Nat) : Option String :=
  match depthLimit with
  | 0 => none
  | 1 => some "section"
  | 2 => some "subsection"
  | _ => some "subsubsection"

/-- A kind with a counter of its own. -/
def own (o : NumberingOptions) (kind : Kind) : Declaration :=
  ⟨false, kind.environmentFor true, none, kind.name, unit o.depthLimit⟩

/-- A kind that shares the counter of another. -/
def shared (first kind : Kind) : Declaration :=
  ⟨false, kind.environmentFor true, some first.environment, kind.name, none⟩

/-- A kind without numbers. -/
def unnumbered (kind : Kind) : Declaration :=
  ⟨true, kind.environmentFor false, none, kind.name, none⟩

end Declaration

/-- The declarations of numbered kinds. -/
def numberedDeclarations (o : NumberingOptions) (kinds : List Kind) : List Declaration :=
  match kinds with
  | [] => []
  | first :: rest => .own o first :: rest.map (if o.byKind then .own o else .shared first)

/-- The declarations for statements. -/
def declarations (o : NumberingOptions) (statements : List Statement) : List Declaration :=
  numberedDeclarations o (kindsOf statements true) ++
    (kindsOf statements false).map .unnumbered

section Printed

open Declaration

theorem environmentFor_true (kind : Kind) : kind.environmentFor true = kind.environment :=
  String.append_empty

theorem bracketed_unit (depthLimit : Nat) : bracketed (unit depthLimit) = numberedWithin depthLimit :=
  match depthLimit with
  | 0 => rfl
  | 1 => rfl
  | 2 => rfl
  | _ + 3 => rfl

theorem print_own (o : NumberingOptions) (kind : Kind) :
    (own o kind).print = ownCounter o kind := by
  simp only [print, own, bracketed_unit, environmentFor_true]
  rw [show bracketed none = "" from rfl, String.append_empty]
  rfl

theorem print_shared (first kind : Kind) : (shared first kind).print = sharedCounter first kind := by
  simp only [print, shared, environmentFor_true]
  rw [show bracketed none = "" from rfl, String.append_empty, sharedCounter, bracketed,
    Option.map_some, Option.getD_some, ← String.append_assoc, ← String.append_assoc]
  rfl

theorem print_unnumbered (kind : Kind) : (unnumbered kind).print = withoutNumber kind := by
  simp only [print, unnumbered]
  rw [show bracketed none = "" from rfl, String.append_empty, String.append_empty]
  rfl

theorem print_numberedDeclarations (o : NumberingOptions) (kinds : List Kind) :
    (numberedDeclarations o kinds).map print = declareNumbered o kinds := by
  cases kinds with
  | nil => rfl
  | cons first rest =>
    rw [numberedDeclarations, declareNumbered, List.map_cons, List.map_map, print_own]
    congr 2
    funext kind
    cases hkind : o.byKind with
    | true => exact print_own o kind
    | false => exact print_shared first kind

theorem join_print_declarations (root : Node) (o : NumberingOptions) :
    String.join ((declarations o root.statements).map print) = theoremDeclarations root o := by
  rw [declarations, List.map_append, print_numberedDeclarations, List.map_map]
  simp only [Function.comp_def, print_unnumbered]
  rfl

end Printed

/-! ## What is declared -/

/-- Declarations that fit to statements. -/
structure Declares (o : NumberingOptions) (statements : List Statement) (ds : List Declaration) :
    Prop where
  /-- No environment is declared twice. -/
  nodup : (ds.map (·.environment)).Nodup
  /-- Declared are the environments of the statements that are no proofs. -/
  mem_iff : ∀ name, name ∈ ds.map (·.environment) ↔
    ∃ st ∈ statements, st.kind.isProof = false ∧ Latex.environment st = name
  /-- The environments of statements without numbers are starred. -/
  starred : ∀ d ∈ ds, ∀ st ∈ statements, st.kind.isProof = false →
    Latex.environment st = d.environment → d.starred = !st.numbered
  /-- A counter that is shared was declared before, as that of its own environment. No counter is
  shared where each kind is counted on its own. -/
  shares : ∀ before d after, ds = before ++ d :: after → ∀ name, d.shares = some name →
    o.byKind = false ∧ ∃ e ∈ before, e.environment = name ∧ e.starred = false ∧ e.shares = none

section Kinds

variable {statements : List Statement} {kind kind' : Kind} {numbered numbered' : Bool}

theorem nodup_kindsOf : (kindsOf statements numbered).Nodup :=
  List.Nodup.filter _ (by decide)

theorem mem_kindsOf :
    kind ∈ kindsOf statements numbered ↔
      ∃ st ∈ statements, st.kind.isProof = false ∧ st.kind = kind ∧ st.numbered = numbered := by
  simp only [kindsOf, List.mem_filter, Kind.mem_all, true_and, Bool.and_eq_true, List.any_eq_true,
    Bool.not_eq_true', beq_iff_eq]
  constructor
  · rintro ⟨hproof, st, hst, rfl, hnumbered⟩
    exact ⟨st, hst, hproof, rfl, hnumbered⟩
  · rintro ⟨st, hst, hproof, rfl, hnumbered⟩
    exact ⟨hproof, st, hst, rfl, hnumbered⟩

/-- The name of an environment tells what is in it. -/
theorem environmentFor_inj (h : kind.environmentFor numbered = kind'.environmentFor numbered') :
    kind = kind' ∧ numbered = numbered' := by
  have hnodup : ((Kind.all.product [true, false]).map fun p => p.1.environmentFor p.2).Nodup := by
    decide
  have hmem (k : Kind) (b : Bool) : (k, b) ∈ Kind.all.product [true, false] :=
    List.mem_product.2 ⟨k.mem_all, by cases b <;> decide⟩
  exact Prod.mk.inj (List.inj_on_of_nodup_map hnodup (hmem kind numbered) (hmem kind' numbered') h)

theorem environment_eq {st : Statement} (h : st.kind.isProof = false) :
    Latex.environment st = st.kind.environmentFor st.numbered := by
  rw [Latex.environment, h, Bool.or_false]
  rfl

end Kinds

section Declarations

open Declaration

variable {o : NumberingOptions} {statements : List Statement}

theorem map_environment_numberedDeclarations (kinds : List Kind) :
    (numberedDeclarations o kinds).map environment = kinds.map (Kind.environmentFor true) := by
  cases kinds with
  | nil => rfl
  | cons first rest =>
    rw [numberedDeclarations, List.map_cons, List.map_map, List.map_cons]
    congr 2
    funext kind
    cases hkind : o.byKind <;> rfl

theorem map_environment_declarations :
    (declarations o statements).map environment =
      (kindsOf statements true).map (Kind.environmentFor true) ++
        (kindsOf statements false).map (Kind.environmentFor false) := by
  rw [declarations, List.map_append, map_environment_numberedDeclarations, List.map_map]
  rfl

theorem mem_numberedDeclarations {kinds : List Kind} {d : Declaration}
    (h : d ∈ numberedDeclarations o kinds) :
    ∃ kind, d = own o kind ∨ ∃ first, d = shared first kind := by
  cases kinds with
  | nil => exact absurd h List.not_mem_nil
  | cons first rest =>
    rcases List.mem_cons.1 h with rfl | h
    · exact ⟨first, .inl rfl⟩
    · obtain ⟨kind, -, hkind⟩ := List.mem_map.1 h
      split at hkind
      · exact ⟨kind, .inl hkind.symm⟩
      · exact ⟨kind, .inr ⟨first, hkind.symm⟩⟩

theorem mem_declarations {d : Declaration} (h : d ∈ declarations o statements) :
    ∃ kind, d = own o kind ∨ (∃ first, d = shared first kind) ∨ d = unnumbered kind := by
  rcases List.mem_append.1 h with h | h
  · obtain ⟨kind, hkind | hkind⟩ := mem_numberedDeclarations h
    · exact ⟨kind, .inl hkind⟩
    · exact ⟨kind, .inr (.inl hkind)⟩
  · obtain ⟨kind, -, hkind⟩ := List.mem_map.1 h
    exact ⟨kind, .inr (.inr hkind.symm)⟩

theorem isPlain_of_mem_declarations {d : Declaration} (h : d ∈ declarations o statements) :
    d.IsPlain := by
  have henvironment (numbered : Bool) (kind : Kind) : IsWord (kind.environmentFor numbered) := by
    cases numbered <;> cases kind <;> decide
  have hname (kind : Kind) : IsWord kind.name := by cases kind <;> decide
  have hunit (depthLimit : Nat) : ∀ s ∈ unit depthLimit, IsWord s := by
    unfold unit
    split
    · exact nofun
    all_goals
      rintro s ⟨rfl⟩
      decide
  obtain ⟨kind, rfl | ⟨first, rfl⟩ | rfl⟩ := mem_declarations h
  · exact ⟨henvironment true kind, nofun, hname kind, hunit o.depthLimit⟩
  · refine ⟨henvironment true kind, ?_, hname kind, nofun⟩
    rintro s ⟨rfl⟩
    rw [← environmentFor_true]
    exact henvironment true first
  · exact ⟨henvironment false kind, nofun, hname kind, nofun⟩

theorem exists_environmentFor {d : Declaration} (h : d ∈ declarations o statements) :
    ∃ kind, d.environment = Kind.environmentFor (!d.starred) kind := by
  obtain ⟨kind, rfl | ⟨first, rfl⟩ | rfl⟩ := mem_declarations h
  all_goals exact ⟨kind, rfl⟩

/-- Behind the first declaration of a numbered kind its counter is the only one that is shared. -/
theorem shares_of_mem {first : Kind} {rest unnumberedKinds : List Kind} {d : Declaration}
    {name : String} (hd : d ∈ rest.map (if o.byKind then own o else shared first) ++
      unnumberedKinds.map unnumbered) (hshares : d.shares = some name) :
    o.byKind = false ∧ name = first.environment := by
  rcases List.mem_append.1 hd with hd | hd
  · obtain ⟨kind, -, rfl⟩ := List.mem_map.1 hd
    cases hkind : o.byKind with
    | true =>
      rw [hkind] at hshares
      cases hshares
    | false =>
      rw [hkind] at hshares
      exact ⟨rfl, (Option.some.inj hshares).symm⟩
  · obtain ⟨kind, -, rfl⟩ := List.mem_map.1 hd
    cases hshares

theorem exists_own_of_shares {before after : List Declaration} {d : Declaration} {name : String}
    (h : declarations o statements = before ++ d :: after) (hshares : d.shares = some name) :
    o.byKind = false ∧ ∃ e ∈ before, e.environment = name ∧ e.starred = false ∧ e.shares = none := by
  rw [declarations] at h
  cases hkinds : kindsOf statements true with
  | nil =>
    rw [hkinds, numberedDeclarations, List.nil_append] at h
    have hd : d ∈ (kindsOf statements false).map unnumbered :=
      h ▸ List.mem_append_right _ List.mem_cons_self
    obtain ⟨kind, -, rfl⟩ := List.mem_map.1 hd
    cases hshares
  | cons first rest =>
    rw [hkinds, numberedDeclarations, List.cons_append] at h
    cases before with
    | nil =>
      obtain ⟨rfl, -⟩ := List.cons.inj h
      cases hshares
    | cons e before =>
      rw [List.cons_append] at h
      obtain ⟨rfl, htail⟩ := List.cons.inj h
      have hd : d ∈ before ++ d :: after := List.mem_append_right before List.mem_cons_self
      obtain ⟨hkind, rfl⟩ := shares_of_mem (htail.symm ▸ hd) hshares
      exact ⟨hkind, _, List.mem_cons_self, environmentFor_true first, rfl, rfl⟩

/-- The declarations for statements fit to them, whatever the statements are. -/
theorem declares_declarations (o : NumberingOptions) (statements : List Statement) :
    Declares o statements (declarations o statements) where
  nodup := by
    -- the name of an environment tells its kind and whether it is numbered
    have hinj (numbered : Bool) : Function.Injective (Kind.environmentFor numbered) :=
      fun _ _ h => (environmentFor_inj h).1
    rw [map_environment_declarations, List.nodup_append]
    refine ⟨nodup_kindsOf.map (hinj true), nodup_kindsOf.map (hinj false), ?_⟩
    rintro name hname _ hname' rfl
    obtain ⟨kind, -, rfl⟩ := List.mem_map.1 hname
    obtain ⟨kind', -, heq⟩ := List.mem_map.1 hname'
    exact Bool.false_ne_true (environmentFor_inj heq).2
  mem_iff name := by
    rw [map_environment_declarations, List.mem_append, List.mem_map, List.mem_map]
    constructor
    · rintro (⟨kind, hkind, rfl⟩ | ⟨kind, hkind, rfl⟩)
      all_goals
        obtain ⟨st, hst, hproof, rfl, hnumbered⟩ := mem_kindsOf.1 hkind
        exact ⟨st, hst, hproof, by rw [environment_eq hproof, hnumbered]⟩
    · rintro ⟨st, hst, hproof, rfl⟩
      have hkind : st.kind ∈ kindsOf statements st.numbered :=
        mem_kindsOf.2 ⟨st, hst, hproof, rfl, rfl⟩
      rw [environment_eq hproof]
      cases hnumbered : st.numbered with
      | true => exact .inl ⟨st.kind, hnumbered ▸ hkind, rfl⟩
      | false => exact .inr ⟨st.kind, hnumbered ▸ hkind, rfl⟩
  starred d hd st _ hproof heq := by
    obtain ⟨kind, hkind⟩ := exists_environmentFor hd
    rw [environment_eq hproof, hkind] at heq
    rw [(environmentFor_inj heq).2, Bool.not_not]
  shares _ _ _ h _ hshares := exists_own_of_shares h hshares

end Declarations

/-- The lines that are written for a document are declarations that fit to its statements. -/
theorem read_theoremDeclarations (root : Node) (o : NumberingOptions) :
    ∃ ds, (Text.splitLines (theoremDeclarations root o).toList).map Declaration.read? = ds.map some ∧
      Declares o root.statements ds := by
  refine ⟨declarations o root.statements, ?_, declares_declarations o root.statements⟩
  rw [← join_print_declarations]
  exact Declaration.read?_splitLines fun d hd => isPlain_of_mem_declarations hd

end Treatise
