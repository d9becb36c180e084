import MessageLens.File.Workspace
import MessageLens.Proofs.Table

/-!
# Which paths can be looked up

The operating system reports why it finds nothing at a path, unless the path cannot even be passed
to it. That depends on the path alone and not on the files, so a path that has been looked up once
can always be looked up again.
-/

namespace MessageLens
set_option autoImplicit false

/-- A path that can be passed to the operating system. -/
def IsAccepted (p : Path) : Prop := ∀ name ∈ p.parts, '\x00' ∉ name.toList

/-- A name that is longer than a disk allows. -/
abbrev IsLongName (name : String) : Prop := Disk.maxNameBytes < name.utf8ByteSize

/-- One of these names is too long, or one in the target of a link is. -/
def Disk.HasLongName (disk : Disk) (names : List String) : Prop :=
  (∃ name ∈ names, IsLongName name) ∨
    ∃ real target, (real, .link target) ∈ disk.nodes ∧ ∃ name ∈ target.parts, IsLongName name

theorem mem_nodes_of_node? {disk : Disk} {real : RealPath} {target : Path}
    (there : disk.node? real = some (.link target)) : (real, .link target) ∈ disk.nodes := by
  rw [Disk.node?] at there
  split at there
  · cases there
  · exact Table.mem_of_lookup there

/-- Why a descent fails. -/
theorem descend_failed {disk : Disk} {follow : Bool} {directory : RealPath}
    {names : List String} {e : FileError}
    (failed : disk.descend follow directory names = .failed e) :
    e = .missing ∨ e = .notADirectory ∨ e = .nameTooLong ∧ ∃ name ∈ names, IsLongName name := by
  fun_induction Disk.descend disk follow directory names with
  | case1 | case7 | case9 | case10 => cases failed
  | case2 _ _ ih | case3 _ _ ih | case6 _ _ _ _ _ _ _ _ ih =>
    refine (ih failed).imp_right (Or.imp_right (And.imp_right ?_))
    rintro ⟨name, mem, long⟩
    exact ⟨name, List.mem_cons_of_mem _ mem, long⟩
  | case4 _ name rest _ _ long =>
    cases failed
    exact .inr (.inr ⟨rfl, name, List.mem_cons_self, long⟩)
  | case5 =>
    cases failed
    exact .inl rfl
  | case8 =>
    cases failed
    exact .inr (.inl rfl)

theorem descend_longName {disk : Disk} {follow : Bool} {directory : RealPath} {name : String}
    (long : IsLongName name) (rest : List String) :
    disk.descend follow directory (name :: rest) = .failed .nameTooLong := by
  rw [Disk.descend.eq_4, if_pos long]
  · rintro rfl
    exact absurd long (by decide)
  · rintro rfl
    exact absurd long (by decide)

/-- A descent stops at a link of the disk, before the last of the names. -/
theorem descend_atLink {disk : Disk} {follow : Bool} {directory d : RealPath}
    {names rest : List String} {target : Path}
    (stopped : disk.descend follow directory names = .atLink d target rest) :
    (∃ real, (real, .link target) ∈ disk.nodes) ∧ rest ⊆ names := by
  fun_induction Disk.descend disk follow directory names with
  | case1 | case4 | case5 | case7 | case8 | case9 => cases stopped
  | case2 _ _ ih | case3 _ _ ih | case6 _ _ _ _ _ _ _ _ ih =>
    obtain ⟨there, part⟩ := ih stopped
    exact ⟨there, List.subset_cons_of_subset _ part⟩
  | case10 =>
    cases stopped
    exact ⟨⟨_, mem_nodes_of_node? ‹_›⟩, List.subset_cons_self _ _⟩

/-- Following a link leads to no other long names than those of links. -/
theorem Disk.HasLongName.of_link {disk : Disk} {names rest : List String} {target : Path}
    (there : ∃ real, (real, .link target) ∈ disk.nodes) (part : rest ⊆ names)
    (long : disk.HasLongName (target.parts ++ rest)) : disk.HasLongName names := by
  rcases long with ⟨name, mem, long⟩ | linked
  · rcases List.mem_append.1 mem with mem | mem
    · obtain ⟨real, there⟩ := there
      exact .inr ⟨real, target, there, name, mem, long⟩
    · exact .inl ⟨name, part mem, long⟩
  · exact .inr linked

/-- Why a lookup fails. -/
theorem lookup_failed {disk : Disk} {follow : Bool} {links : Nat} {directory : RealPath}
    {names : List String} {e : FileError}
    (failed : disk.lookup follow links directory names = .error e) :
    e = .missing ∨ e = .notADirectory ∨ e = .linkLoop ∨
      e = .nameTooLong ∧ disk.HasLongName names := by
  have descent {directory : RealPath} {names : List String}
      (failed : disk.descend follow directory names = .failed e) :
      e = .missing ∨ e = .notADirectory ∨ e = .linkLoop ∨
        e = .nameTooLong ∧ disk.HasLongName names :=
    (descend_failed failed).imp_right (Or.imp_right fun ⟨same, long⟩ => .inr ⟨same, .inl long⟩)
  induction links generalizing directory names with
  | zero =>
    rw [Disk.lookup] at failed
    split at failed
    · cases failed
    · cases failed
      exact descent ‹_›
    · cases failed
      exact .inr (.inr (.inl rfl))
  | succ n ih =>
    rw [Disk.lookup] at failed
    split at failed
    · cases failed
    · cases failed
      exact descent ‹_›
    next stopped =>
      obtain ⟨there, part⟩ := descend_atLink stopped
      exact (ih failed).imp_right (Or.imp_right (Or.imp_right fun ⟨same, long⟩ =>
        ⟨same, long.of_link there part⟩))

theorem lookup_reported {disk : Disk} {follow : Bool} {links : Nat} {directory : RealPath}
    {names : List String} {e : FileError}
    (failed : disk.lookup follow links directory names = .error e) : e.isReported = true := by
  rcases lookup_failed failed with rfl | rfl | rfl | ⟨rfl, -⟩ <;> rfl

theorem node_reported {w : Workspace} {p : Path} {e : FileError} (accepted : IsAccepted p)
    (failed : w.node p = .error e) : e.isReported = true := by
  have usable : p.parts.any (·.toList.contains '\x00') = false := by
    simpa [IsAccepted] using accepted
  cases located : w.locate p with
  | error cause =>
    rw [Workspace.node, located] at failed
    cases failed
    rw [Workspace.locate, usable, if_neg Bool.false_ne_true] at located
    split at located
    · cases located
      rfl
    · exact lookup_reported located
  | ok real =>
    rw [Workspace.node, located] at failed
    simp only [bind, Except.bind] at failed
    split at failed
    · cases failed
    · cases failed
      rfl

/-- A path is too long if its text is, or a name that its lookup comes to. -/
theorem locate_tooLong {w : Workspace} {p : Path} {follow : Bool}
    (failed : w.locate p follow = .error .nameTooLong) :
    Disk.maxPathBytes < p.text.utf8ByteSize ∨ w.disk.HasLongName p.parts := by
  rw [Workspace.locate] at failed
  split at failed
  · cases failed
  · split at failed
    next long => exact .inl long
    · rcases lookup_failed failed with missing | file | loop | ⟨-, long⟩
      · cases missing
      · cases file
      · cases loop
      · exact .inr long

/-- A path is too long if its lookup comes to a name that is. -/
theorem locate_of_longName {w : Workspace} {p : Path} {follow : Bool} (accepted : IsAccepted p)
    (failed : w.disk.descend follow (if p.anchor = .relative then w.current else []) p.parts =
      .failed .nameTooLong) : w.locate p follow = .error .nameTooLong := by
  have usable : p.parts.any (·.toList.contains '\x00') = false := by
    simpa [IsAccepted] using accepted
  rw [Workspace.locate, usable, if_neg Bool.false_ne_true]
  split
  · rfl
  · rw [Disk.lookup, failed]

/-- Apart from a path that is too long a lookup that fails finds nothing. -/
theorem isAbsence_of_locate {w : Workspace} {p : Path} {follow : Bool} {cause : FileError}
    (failed : w.locate p follow = .error cause) :
    Workspace.isAbsence cause = true ∨ cause = .nameTooLong := by
  rw [Workspace.locate] at failed
  split at failed
  · cases failed
    exact .inl rfl
  · split at failed
    · cases failed
      exact .inr rfl
    · rcases lookup_failed failed with rfl | rfl | rfl | ⟨rfl, -⟩
      · exact .inl rfl
      · exact .inl rfl
      · exact .inl rfl
      · exact .inr rfl

/-- A test of the entry at a path has no answer just where the path is too long. -/
theorem test_error {w : Workspace} {p : Path} {property : Node → Bool} {follow : Bool}
    {e : FileError} : w.test p property follow = .error e ↔
      w.locate p follow = .error .nameTooLong ∧ e = .nameTooLong := by
  rw [Workspace.test, Workspace.node]
  cases located : w.locate p follow with
  | ok real =>
    refine iff_of_false (fun failed => ?_) (fun tooLong => nomatch tooLong.1)
    simp only [bind, Except.bind] at failed
    cases there : w.disk.node? real with
    | none => rw [there] at failed; cases failed
    | some node => rw [there] at failed; cases failed
  | error cause =>
    simp only [bind, Except.bind]
    rcases isAbsence_of_locate located with absent | rfl
    · rw [if_pos absent]
      refine iff_of_false (fun failed => nomatch failed) ?_
      rintro ⟨same, -⟩
      cases same
      cases absent
    · constructor
      · intro failed
        exact ⟨rfl, (Except.error.inj failed).symm⟩
      · rintro ⟨-, rfl⟩
        rfl

/-- A test asks the entry that a path leads to. -/
theorem test_of_locate {w : Workspace} {p : Path} {property : Node → Bool} {follow : Bool}
    {real : RealPath} {node : Node} (located : w.locate p follow = .ok real)
    (there : w.disk.node? real = some node) : w.test p property follow = .ok (property node) := by
  have found : w.node p follow = .ok node := by
    rw [Workspace.node, located]
    simp only [bind, Except.bind]
    rw [there]
    rfl
  rw [Workspace.test, found]

theorem test_of_absent {w : Workspace} {p : Path} {property : Node → Bool} {follow : Bool}
    (absent : w.locate p follow = .error .missing) : w.test p property follow = .ok false := by
  rw [Workspace.test, Workspace.node, absent]
  rfl

theorem read_reported {w : Workspace} {p : Path} {e : FileError} (accepted : IsAccepted p)
    (failed : w.read p = .error e) : e.isReported = true := by
  cases found : w.node p with
  | error cause =>
    rw [Workspace.read, found] at failed
    cases failed
    exact node_reported accepted found
  | ok node =>
    rw [Workspace.read, found] at failed
    cases node with
    | file content modified => cases failed
    | directory changes | link target =>
      cases failed
      rfl

theorem locate_unaccepted {w : Workspace} {p : Path} {follow : Bool} (refused : ¬ IsAccepted p) :
    w.locate p follow = .error .embeddedNul := by
  have unusable : p.parts.any (·.toList.contains '\x00') = true := by
    simpa [IsAccepted] using refused
  rw [Workspace.locate, if_pos unusable]

theorem isAccepted_of_locate {w : Workspace} {p : Path} {follow : Bool} {real : RealPath}
    (located : w.locate p follow = .ok real) : IsAccepted p :=
  Classical.byContradiction fun refused => nomatch (locate_unaccepted refused).symm.trans located

/-- The files have no say in whether a path is accepted. -/
theorem read_embeddedNul {w : Workspace} {p : Path} :
    w.read p = .error .embeddedNul ↔ ¬ IsAccepted p := by
  constructor
  · exact fun failed accepted => Bool.false_ne_true (read_reported accepted failed)
  · intro refused
    rw [Workspace.read, Workspace.node, locate_unaccepted refused]
    rfl

theorem stamp?_ok (w : Workspace) {p : Path} (accepted : IsAccepted p) :
    ∃ stamp, w.stamp? p = .ok stamp := by
  rw [Workspace.stamp?, Workspace.stamp]
  cases found : w.node p with
  | error e =>
    refine ⟨none, ?_⟩
    show (if e.isReported = true then _ else _) = _
    exact if_pos (node_reported accepted found)
  | ok node => cases node <;> exact ⟨_, rfl⟩

/-- A path whose stamp can be read is accepted. -/
theorem isAccepted_of_stamp? {w : Workspace} {p : Path} {stamp : Option FileStamp}
    (read : w.stamp? p = .ok stamp) : IsAccepted p := by
  refine Classical.byContradiction fun refused => ?_
  rw [Workspace.stamp?, Workspace.stamp, Workspace.node, locate_unaccepted refused] at read
  cases read

end MessageLens
