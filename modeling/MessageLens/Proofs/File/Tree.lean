import MessageLens.Proofs.File.Access
import Mathlib.Data.List.Induction

/-!
# Trees of files

The entries of a disk make a tree: each has one node, a name that a file can have, and a directory
that it is in. What lies below a directory is then the same whether the entries are listed whose
real paths begin with that of the directory, or the names are followed down from it, directory by
directory and through no link.
-/

namespace MessageLens
set_option autoImplicit false

/-- A name that an entry of a directory can have. -/
structure IsFileName (name : String) : Prop where
  nonempty : name ≠ ""
  noDot : name ≠ "."
  noDots : name ≠ ".."
  noSlash : '/' ∉ name.toList
  noNul : '\x00' ∉ name.toList
  short : ¬ IsLongName name

instance (name : String) : Decidable (IsFileName name) :=
  decidable_of_iff
    (name ≠ "" ∧ name ≠ "." ∧ name ≠ ".." ∧ '/' ∉ name.toList ∧ '\x00' ∉ name.toList ∧
      ¬ IsLongName name)
    ⟨fun ⟨nonempty, noDot, noDots, noSlash, noNul, short⟩ =>
        ⟨nonempty, noDot, noDots, noSlash, noNul, short⟩,
      fun ⟨nonempty, noDot, noDots, noSlash, noNul, short⟩ =>
        ⟨nonempty, noDot, noDots, noSlash, noNul, short⟩⟩

namespace Disk

/-- There is a directory at a real path. -/
def IsDirectory (disk : Disk) (real : RealPath) : Prop :=
  ∃ changes, disk.node? real = some (.directory changes)

instance (disk : Disk) (real : RealPath) : Decidable (disk.IsDirectory real) :=
  match there : disk.node? real with
  | some (.directory changes) => .isTrue ⟨changes, there⟩
  | some (.file _ _) | some (.link _) | none =>
    .isFalse fun ⟨_, directory⟩ => nomatch there.symm.trans directory

/-- The entries of a disk make a tree with the root of the file system as its root. -/
structure IsTree (disk : Disk) : Prop where
  unique : (disk.nodes.map Prod.fst).Nodup
  proper : ∀ entry ∈ disk.nodes, entry.1 ≠ []
  named : ∀ entry ∈ disk.nodes, ∀ name ∈ entry.1, IsFileName name
  housed : ∀ entry ∈ disk.nodes, disk.IsDirectory entry.1.dropLast

instance (disk : Disk) : Decidable disk.IsTree :=
  decidable_of_iff
    ((disk.nodes.map Prod.fst).Nodup ∧ (∀ entry ∈ disk.nodes, entry.1 ≠ []) ∧
      (∀ entry ∈ disk.nodes, ∀ name ∈ entry.1, IsFileName name) ∧
      ∀ entry ∈ disk.nodes, disk.IsDirectory entry.1.dropLast)
    ⟨fun ⟨unique, proper, named, housed⟩ => ⟨unique, proper, named, housed⟩,
      fun ⟨unique, proper, named, housed⟩ => ⟨unique, proper, named, housed⟩⟩

/-- The names lead from a directory to an entry, through directories only. -/
inductive Leads (disk : Disk) : RealPath → List String → Node → Prop where
  | entry {directory : RealPath} {name : String} {node : Node} :
      disk.node? (directory ++ [name]) = some node → Leads disk directory [name] node
  | inside {directory : RealPath} {name : String} {rest : List String} {node : Node} :
      disk.IsDirectory (directory ++ [name]) → Leads disk (directory ++ [name]) rest node →
      Leads disk directory (name :: rest) node

variable {disk : Disk} {real : RealPath} {names : List String} {name : String} {node : Node}

/-! ## The entries of a tree -/

theorem node?_below (nonempty : names ≠ []) :
    disk.node? (real ++ names) = disk.nodes.lookup (real ++ names) := by
  rw [node?, if_neg]
  exact fun none => nonempty (List.append_eq_nil_iff.1 none).2

theorem IsTree.node?_eq_some (tree : disk.IsTree) (nonempty : names ≠ []) :
    disk.node? (real ++ names) = some node ↔ (real ++ names, node) ∈ disk.nodes := by
  rw [node?_below nonempty]
  exact Table.lookup_eq_some_iff_mem tree.unique

theorem IsTree.isFileName (tree : disk.IsTree) (there : disk.node? (real ++ names) = some node) :
    ∀ name ∈ names, IsFileName name := by
  intro name mem
  have listed := (tree.node?_eq_some (List.ne_nil_of_mem mem)).1 there
  exact tree.named _ listed name (List.mem_append_right _ mem)

theorem IsTree.isDirectory_dropLast (tree : disk.IsTree)
    (there : disk.node? (real ++ [name]) = some node) : disk.IsDirectory real := by
  have listed := (tree.node?_eq_some (List.cons_ne_nil _ _)).1 there
  simpa using tree.housed _ listed

/-- Whatever has an entry below it is a directory. -/
theorem IsTree.isDirectory_of_below (tree : disk.IsTree) (nonempty : names ≠ [])
    (there : disk.node? (real ++ names) = some node) : disk.IsDirectory real := by
  induction names using List.reverseRecOn generalizing node with
  | nil => exact absurd rfl nonempty
  | append_singleton before name ih =>
    rw [← List.append_assoc] at there
    have holder := tree.isDirectory_dropLast there
    by_cases first : before = []
    · simpa [first] using holder
    · obtain ⟨changes, above⟩ := holder
      exact ih first above

/-! ## Following names -/

theorem Leads.ne_nil (leads : disk.Leads real names node) : names ≠ [] := by
  cases leads <;> exact List.cons_ne_nil _ _

theorem Leads.node? (leads : disk.Leads real names node) :
    disk.node? (real ++ names) = some node := by
  induction leads with
  | entry there => exact there
  | inside _ _ ih => simpa using ih

/-- In a tree names that spell the real path of an entry lead to it. -/
theorem IsTree.leads_iff (tree : disk.IsTree) :
    disk.Leads real names node ↔ names ≠ [] ∧ disk.node? (real ++ names) = some node := by
  refine ⟨fun leads => ⟨leads.ne_nil, leads.node?⟩, ?_⟩
  rintro ⟨nonempty, there⟩
  induction names generalizing real with
  | nil => exact absurd rfl nonempty
  | cons name rest ih =>
    by_cases last : rest = []
    · subst last
      exact .entry there
    · rw [List.append_cons] at there
      exact .inside (tree.isDirectory_of_below last there) (ih last there)

theorem IsTree.isFileName_of_leads (tree : disk.IsTree) (leads : disk.Leads real names node) :
    ∀ name ∈ names, IsFileName name :=
  tree.isFileName leads.node?

end Disk

end MessageLens
