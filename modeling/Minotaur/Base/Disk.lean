import Mathlib.Logic.Function.Basic
import Mathlib.Data.List.Nodup
import Mathlib.Tactic.Common

/-!
A directory of files and the history a chain of them holds. The files of a
chain are named oldest first, and its history is their contents one after the
other. Three operations keep a history: appending to the newest file extends
it, unlinking the oldest file cuts that file's content off its front, and
renaming a file over the missing file before it changes nothing.
-/

namespace Disk

inductive Node where
  | Regular (content : List UInt8)
  /-- A symbolic link or a special file. -/
  | Other
deriving DecidableEq, Repr

abbrev Dir := String → Option Node

/-- The content of a regular file; nothing else has one. -/
def content (dir : Dir) (path : String) : List UInt8 :=
  match dir path with
  | some (.Regular content) => content
  | _ => []

def set (dir : Dir) (path : String) (node : Option Node) : Dir := Function.update dir path node

def append (dir : Dir) (path : String) (bytes : List UInt8) : Dir :=
  match dir path with
  | some (.Regular content) => set dir path (some (.Regular (content ++ bytes)))
  | _ => dir

def unlink (dir : Dir) (path : String) : Dir := set dir path none

/-- For two different names; the destination is overwritten. -/
def rename (dir : Dir) (source destination : String) : Dir :=
  set (set dir destination (dir source)) source none

/-- Opening with `create`: an existing node stays what it is. -/
def create (dir : Dir) (path : String) : Dir :=
  match dir path with
  | none => set dir path (some (.Regular []))
  | some _ => dir

@[simp] theorem set_same (dir : Dir) (path : String) (node : Option Node) :
    set dir path node path = node := Function.update_self ..

theorem set_other (dir : Dir) {path other : String} (hne : other ≠ path) (node : Option Node) :
    set dir path node other = dir other := Function.update_of_ne hne ..

theorem append_other (dir : Dir) {path other : String} (hne : other ≠ path)
    (bytes : List UInt8) : append dir path bytes other = dir other := by
  cases hnode : dir path with
  | none => simp [append, hnode]
  | some node => cases node <;> simp [append, hnode, set_other dir hne]

theorem append_same {dir : Dir} {path : String} {content : List UInt8}
    (hregular : dir path = some (.Regular content)) (bytes : List UInt8) :
    append dir path bytes path = some (.Regular (content ++ bytes)) := by
  simp [append, hregular]

theorem append_nil (dir : Dir) (path : String) : append dir path [] = dir := by
  cases hnode : dir path with
  | none => simp [append, hnode]
  | some node =>
      cases node with
      | Other => simp [append, hnode]
      | Regular content =>
          simp only [append, hnode, List.append_nil, set]
          rw [← hnode, Function.update_eq_self]

theorem rename_other (dir : Dir) {source destination other : String} (hsource : other ≠ source)
    (hdestination : other ≠ destination) : rename dir source destination other = dir other := by
  rw [rename, set_other _ hsource, set_other _ hdestination]

theorem rename_source (dir : Dir) (source destination : String) :
    rename dir source destination source = none := set_same ..

theorem rename_destination (dir : Dir) {source destination : String} (hne : destination ≠ source) :
    rename dir source destination destination = dir source := by
  rw [rename, set_other _ hne, set_same]

theorem create_other (dir : Dir) {path other : String} (hne : other ≠ path) :
    create dir path other = dir other := by
  cases hnode : dir path with
  | none => simp [create, hnode, set_other dir hne]
  | some node => simp [create, hnode]

theorem content_create (dir : Dir) (path other : String) :
    content (create dir path) other = content dir other := by
  by_cases heq : other = path
  · subst heq
    cases hnode : dir other <;> simp [content, create, hnode]
  · simp [content, create_other dir heq]

theorem content_congr {first second : Dir} {path : String} (heq : first path = second path) :
    content first path = content second path := by simp [content, heq]

/-! ### Histories -/

def history (dir : Dir) (chain : List String) : List UInt8 := chain.flatMap (content dir)

theorem history_congr {first second : Dir} {chain : List String}
    (heq : ∀ path ∈ chain, content first path = content second path) :
    history first chain = history second chain := by
  induction chain with
  | nil => rfl
  | cons path rest ih =>
      obtain ⟨hpath, hrest⟩ := List.forall_mem_cons.mp heq
      simp only [history, List.flatMap_cons, hpath]
      exact congrArg _ (ih hrest)

theorem history_append_newest {dir : Dir} {older : List String} {path : String}
    (hfresh : path ∉ older) {old : List UInt8} (hregular : dir path = some (.Regular old))
    (bytes : List UInt8) :
    history (append dir path bytes) (older ++ [path]) = history dir (older ++ [path]) ++ bytes := by
  have holder : history (append dir path bytes) older = history dir older := by
    apply history_congr
    intro other hmem
    have hne : other ≠ path := by rintro rfl; exact hfresh hmem
    exact content_congr (append_other dir hne bytes)
  have hpath : content (append dir path bytes) path = content dir path ++ bytes := by
    simp [content, append_same hregular, hregular]
  simp only [history, List.flatMap_append, List.flatMap_cons, List.flatMap_nil,
    List.append_nil] at holder ⊢
  rw [holder, hpath, List.append_assoc]

theorem history_unlink_oldest (dir : Dir) {oldest : String} {rest : List String}
    (hfresh : oldest ∉ rest) :
    content dir oldest ++ history (unlink dir oldest) (oldest :: rest) =
      history dir (oldest :: rest) := by
  have hrest : history (unlink dir oldest) rest = history dir rest := by
    apply history_congr
    intro other hmem
    have hne : other ≠ oldest := by rintro rfl; exact hfresh hmem
    exact content_congr (set_other dir hne none)
  have hnone : content (unlink dir oldest) oldest = [] := by simp [content, unlink]
  simp only [history, List.flatMap_cons] at hrest ⊢
  rw [hnone, hrest, List.nil_append]

/-- A file moves one place towards the old end of the chain. -/
theorem history_rename_adjacent (dir : Dir) {older newer : List String}
    {destination source : String}
    (hnodup : (older ++ destination :: source :: newer).Nodup)
    (hmissing : dir destination = none) :
    history (rename dir source destination) (older ++ destination :: source :: newer) =
      history dir (older ++ destination :: source :: newer) := by
  obtain ⟨_, htail, hdisjoint⟩ := List.nodup_append.mp hnodup
  obtain ⟨hdestination, hrest⟩ := List.nodup_cons.mp htail
  obtain ⟨hsource, _⟩ := List.nodup_cons.mp hrest
  have hne : destination ≠ source := fun heq => hdestination (heq ▸ List.mem_cons_self)
  have hold : history (rename dir source destination) older = history dir older := by
    apply history_congr
    intro other hmem
    apply content_congr
    exact rename_other dir (fun heq => hdisjoint other hmem source (by simp) heq)
      (fun heq => hdisjoint other hmem destination (by simp) heq)
  have hnew : history (rename dir source destination) newer = history dir newer := by
    apply history_congr
    intro other hmem
    apply content_congr
    exact rename_other dir (fun heq => hsource (heq ▸ hmem))
      (fun heq => hdestination (heq ▸ List.mem_cons_of_mem _ hmem))
  have hgone : content (rename dir source destination) source = [] := by
    simp [content, rename_source]
  have hmoved : content (rename dir source destination) destination = content dir source :=
    by simp [content, rename_destination dir hne]
  have hempty : content dir destination = [] := by simp [content, hmissing]
  simp only [history, List.flatMap_append, List.flatMap_cons] at hold hnew ⊢
  rw [hold, hnew, hgone, hmoved, hempty, List.nil_append, List.nil_append]

end Disk
