import Treatise.Proofs.Tool.FileTrees
import Treatise.Tool.Test

/-!
# Commands that only read

In a tree of files that is a state, some commands leave the tree as it is: those that read files, look
for them or list directories, and whatever is put together from these.

* **`ReadsOnly.run_bind`**, **`ReadsOnly.run_mapM`** — each of several such commands finds the same tree.
* **`readsOnly_runTest`** — a conformance test only reads.
-/

namespace Treatise

/-- The command leaves every tree as it is. -/
def ReadsOnly {α : Type} (x : StateM FileTree α) : Prop := ∀ t, (x.run t).2 = t

namespace ReadsOnly

variable {α β : Type} {x : StateM FileTree α}

theorem run_eq (hx : ReadsOnly x) (t : FileTree) : x.run t = ((x.run t).1, t) :=
  Prod.ext rfl (hx t)

theorem run_bind (hx : ReadsOnly x) (f : α → StateM FileTree β) (t : FileTree) :
    (x >>= f).run t = (f (x.run t).1).run t := by
  rw [StateT.run_bind, hx.run_eq t]
  rfl

protected theorem pure (a : α) : ReadsOnly (pure a : StateM FileTree α) := fun _ => rfl

protected theorem bind {f : α → StateM FileTree β} (hx : ReadsOnly x)
    (hf : ∀ a, ReadsOnly (f a)) : ReadsOnly (x >>= f) := by
  intro t
  rw [hx.run_bind]
  exact hf _ t

protected theorem mapM {f : α → StateM FileTree β} (hf : ∀ a, ReadsOnly (f a)) (l : List α) :
    ReadsOnly (l.mapM f) := by
  induction l with
  | nil => exact .pure _
  | cons a l ih =>
    rw [List.mapM_cons]
    exact (hf a).bind fun _ => ih.bind fun _ => .pure _

theorem run_mapM {f : α → StateM FileTree β} (hf : ∀ a, ReadsOnly (f a)) (l : List α)
    (t : FileTree) : (l.mapM f).run t = (l.map fun a => ((f a).run t).1, t) := by
  induction l with
  | nil => rfl
  | cons a l ih =>
    rw [List.mapM_cons, (hf a).run_bind, (ReadsOnly.mapM hf l).run_bind, ih]
    rfl

protected theorem filterM {p : α → StateM FileTree Bool} (hp : ∀ a, ReadsOnly (p a))
    (l : List α) : ReadsOnly (l.filterM p) := by
  have haux (kept : List α) : ReadsOnly (l.filterAuxM p kept) := by
    induction l generalizing kept with
    | nil => exact .pure _
    | cons a l ih => exact (hp a).bind fun _ => ih _
  exact (haux []).bind fun _ => .pure _

end ReadsOnly

theorem readsOnly_readText (path : String) : ReadsOnly (FileTree.files.readText path) := by
  refine ReadsOnly.bind (fun _ => rfl) fun r => ?_
  cases r with
  | error e => exact .pure _
  | ok bytes =>
    dsimp only
    cases String.fromUTF8? bytes <;> exact .pure _

/-- The text of a file that a path leads to. -/
theorem FileTree.LeadsTo.run_readText {t : FileTree} {path text : String}
    (h : t.LeadsTo path (.file text.toUTF8)) :
    ((FileTree.files.readText path).run t).1 = .ok text := by
  have htext : String.fromUTF8? text.toUTF8 = some text := dif_pos text.isValidUTF8
  have hread : ((FileTree.files.read path).run t).1 = .ok text.toUTF8 := h.read_file
  have hreads : ReadsOnly (FileTree.files.read path) := fun _ => rfl
  rw [Files.readText, hreads.run_bind, hread]
  dsimp only
  rw [htext]
  rfl

theorem readsOnly_convertIn (directory : List Char) (o : Options) (source : String) :
    ReadsOnly (convertIn FileTree.files directory o source) :=
  (ReadsOnly.filterM (fun _ _ => rfl) _).bind fun _ => .pure _

theorem readsOnly_runTest (path : String) : ReadsOnly (runTest FileTree.files path) := by
  refine (readsOnly_readText path).bind fun r => ?_
  cases r with
  | error e => exact .pure _
  | ok text =>
    dsimp only
    cases Conformance.parse text.toList with
    | error e => exact .pure _
    | ok c => exact (readsOnly_convertIn _ _ _).bind fun _ => .pure _

end Treatise
