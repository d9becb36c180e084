import MessageLens.Proofs.File.Tree
import Mathlib.Data.List.Perm.Subperm
import Mathlib.Order.Basic
import Mathlib.Data.Nat.Find

/-!
# Lookup and resolution

A lookup replaces a link by the names of its target and goes on with those behind it. So it may be
split at any name: what leads through all of the names leads through the first of them, and from
there through the others. A resolution follows each link to its end before the names behind it. It
comes to the same place wherever a lookup comes through: a link that is met again while it is being
followed would cost the lookup as many links as before and one more, each time.
-/

namespace MessageLens
set_option autoImplicit false

namespace Disk

variable {disk : Disk} {follow : Bool} {links : Nat} {directory real : RealPath}
  {names before after : List String} {node : Node}

/-- Where a path is looked up from if it is read in a directory. -/
def startOf (directory : RealPath) (p : Path) : RealPath :=
  if p.anchor = .relative then directory else []

/-! ## Lookup -/

/-- A lookup comes through without a link, or through the first link and from there. -/
theorem lookup_eq_ok : disk.lookup follow links directory names = .ok real ↔
    disk.descend follow directory names = .reached real ∨
      ∃ n d target rest, links = n + 1 ∧
        disk.descend follow directory names = .atLink d target rest ∧
        disk.lookup follow n (startOf d target) (target.parts ++ rest) = .ok real := by
  cases stop : disk.descend follow directory names with
  | reached d => cases links <;> rw [lookup, stop] <;> simp
  | failed e => cases links <;> rw [lookup, stop] <;> simp
  | atLink d target rest =>
    cases links with
    | zero => rw [lookup, stop]; simp
    | succ n =>
      rw [lookup, stop]
      constructor
      · exact fun found => .inr ⟨n, d, target, rest, rfl, rfl, found⟩
      · rintro (reached | ⟨_, _, _, _, one, same, found⟩)
        · cases reached
        · cases one
          cases same
          exact found

theorem lookup_ne_ok {e : FileError} (failed : disk.descend follow directory names = .failed e) :
    disk.lookup follow links directory names ≠ .ok real := by
  rw [Ne, lookup_eq_ok, failed]
  simp

/-- A lookup depends on the descent that it begins with. -/
theorem lookup_congr {directory' : RealPath} {names' : List String}
    (same : disk.descend follow directory names = disk.descend follow directory' names') :
    disk.lookup follow links directory names = disk.lookup follow links directory' names' := by
  cases links <;> rw [lookup, lookup, same]

/-- What is found with few links is found with more. -/
theorem lookup_mono {links' : Nat} (more : links ≤ links')
    (found : disk.lookup follow links directory names = .ok real) :
    disk.lookup follow links' directory names = .ok real := by
  induction links generalizing links' directory names with
  | zero =>
    rcases lookup_eq_ok.1 found with stop | ⟨n, d, target, rest, none, -⟩
    · exact lookup_eq_ok.2 (.inl stop)
    · cases none
  | succ links ih =>
    rcases lookup_eq_ok.1 found with stop | ⟨n, d, target, rest, one, stop, behind⟩
    · exact lookup_eq_ok.2 (.inl stop)
    · cases one
      obtain ⟨n', rfl⟩ := Nat.exists_eq_succ_of_ne_zero (Nat.ne_zero_of_lt more)
      exact lookup_eq_ok.2
        (.inr ⟨n', d, target, rest, rfl, stop, ih (Nat.le_of_succ_le_succ more) behind⟩)

/-! ## Splitting a lookup -/

/-- A descent through names and more of them goes on from where the first ones lead, unless that is
a file. A link there is not the last name any more, so it is followed. -/
theorem descend_append (follow : Bool) (behind : after ≠ []) :
    (∃ d, disk.descend true directory before = .reached d ∧
      (disk.descend follow directory (before ++ after) = disk.descend follow d after ∨
        disk.descend follow directory (before ++ after) = .failed .notADirectory ∧
          ¬ disk.IsDirectory d)) ∨
    (∃ d target rest, disk.descend true directory before = .atLink d target rest ∧
      disk.descend follow directory (before ++ after) = .atLink d target (rest ++ after)) ∨
    (∃ e, disk.descend true directory before = .failed e ∧
      disk.descend follow directory (before ++ after) = .failed e) := by
  fun_induction Disk.descend disk true directory before with
  | case1 => exact .inl ⟨_, rfl, .inl rfl⟩
  | case2 _ _ ih | case3 _ _ ih => exact ih
  | case4 _ _ _ noDots noDot long =>
    exact .inr (.inr ⟨_, rfl, by rw [List.cons_append, descend.eq_4 _ _ _ _ _ noDots noDot,
      if_pos long]⟩)
  | case5 _ _ _ noDots noDot short none =>
    exact .inr (.inr ⟨_, rfl, by rw [List.cons_append, descend.eq_4 _ _ _ _ _ noDots noDot,
      if_neg short, none]⟩)
  | case6 _ _ _ noDots noDot short _ there ih =>
    rwa [List.cons_append, descend.eq_4 _ _ _ _ _ noDots noDot, if_neg short, there]
  | case7 _ _ _ noDots noDot short _ _ there =>
    refine .inl ⟨_, rfl, .inr ⟨?_, ?_⟩⟩
    · rw [List.cons_append, descend.eq_4 _ _ _ _ _ noDots noDot, if_neg short, there]
      exact if_neg (by simp [behind])
    · rintro ⟨changes, directory⟩
      cases there.symm.trans directory
  | case8 _ _ _ noDots noDot short _ _ there =>
    refine .inr (.inr ⟨_, rfl, ?_⟩)
    rw [List.cons_append, descend.eq_4 _ _ _ _ _ noDots noDot, if_neg short, there]
    exact if_neg (by simp [behind])
  | case9 _ _ rest _ _ _ _ _ last => simp at last
  | case10 _ _ _ noDots noDot short _ there =>
    refine .inr (.inl ⟨_, _, _, rfl, ?_⟩)
    rw [List.cons_append, descend.eq_4 _ _ _ _ _ noDots noDot, if_neg short, there]
    exact if_neg (by simp [behind])

/-- What leads through all names leads through the first of them, and from there through the
others. -/
theorem lookup_append (found : disk.lookup true links directory (before ++ after) = .ok real) :
    ∃ d, disk.lookup true links directory before = .ok d ∧
      disk.lookup true links d after = .ok real := by
  by_cases last : after = []
  · subst last
    rw [List.append_nil] at found
    exact ⟨real, found, lookup_eq_ok.2 (.inl rfl)⟩
  induction links using Nat.strong_induction_on generalizing directory before with
  | _ links ih =>
    rcases descend_append true last with
      ⟨d, reached, onward | ⟨failed, -⟩⟩ | ⟨d, target, rest, atLink, onward⟩ | ⟨e, -, failed⟩
    · exact ⟨d, lookup_eq_ok.2 (.inl reached), (lookup_congr onward).symm.trans found⟩
    · exact absurd found (lookup_ne_ok failed)
    · rcases lookup_eq_ok.1 found with stop | ⟨n, _, _, _, rfl, stop, behind⟩
      · cases onward.symm.trans stop
      · cases onward.symm.trans stop
        rw [← List.append_assoc] at behind
        obtain ⟨d', first, others⟩ := ih n (Nat.lt_succ_self n) behind
        exact ⟨d', lookup_eq_ok.2 (.inr ⟨n, d, target, rest, rfl, atLink, first⟩),
          lookup_mono (Nat.le_succ n) others⟩
    · exact absurd found (lookup_ne_ok failed)

/-- Behind names that lead to a directory a lookup goes on from there. -/
theorem lookup_below (follow : Bool) (found : disk.lookup true links directory before = .ok real)
    (holder : disk.IsDirectory real) (behind : after ≠ []) :
    ∃ n, disk.lookup follow links directory (before ++ after) =
      disk.lookup follow n real after := by
  induction links using Nat.strong_induction_on generalizing directory before with
  | _ links ih =>
    rcases descend_append follow behind with
      ⟨d, reached, onward⟩ | ⟨d, target, rest, atLink, onward⟩ | ⟨e, failed, -⟩
    · rcases lookup_eq_ok.1 found with stop | ⟨_, _, _, _, -, stop, -⟩
      · cases reached.symm.trans stop
        rcases onward with onward | ⟨-, file⟩
        · exact ⟨links, lookup_congr onward⟩
        · exact absurd holder file
      · cases reached.symm.trans stop
    · rcases lookup_eq_ok.1 found with stop | ⟨n, _, _, _, rfl, stop, first⟩
      · cases atLink.symm.trans stop
      · cases atLink.symm.trans stop
        obtain ⟨n', same⟩ := ih n (Nat.lt_succ_self n) first
        rw [List.append_assoc] at same
        exact ⟨n', by rw [lookup, onward]; exact same⟩
    · exact absurd found (lookup_ne_ok failed)

/-- A lookup comes through a proper name to a directory, to a file as the last name, or to a link
that it follows. -/
theorem lookup_cons {name : String} {rest : List String} (noDots : name ≠ "..") (noDot : name ≠ ".")
    (found : disk.lookup true links directory (name :: rest) = .ok real) :
    (disk.IsDirectory (directory ++ [name]) ∧
      disk.lookup true links (directory ++ [name]) rest = .ok real) ∨
    (∃ content modified, disk.node? (directory ++ [name]) = some (.file content modified) ∧
      rest = [] ∧ real = directory ++ [name]) ∨
    ∃ n target, links = n + 1 ∧ disk.node? (directory ++ [name]) = some (.link target) ∧
      disk.lookup true n (startOf directory target) (target.parts ++ rest) = .ok real := by
  have step := descend.eq_4 disk true directory name rest noDots noDot
  by_cases long : maxNameBytes < name.utf8ByteSize
  · exact absurd found (lookup_ne_ok (step.trans (if_pos long)))
  rw [if_neg long] at step
  cases there : disk.node? (directory ++ [name]) with
  | none =>
    rw [there] at step
    exact absurd found (lookup_ne_ok step)
  | some node =>
    rw [there] at step
    cases node with
    | directory changes => exact .inl ⟨⟨changes, there⟩, (lookup_congr step).symm.trans found⟩
    | file content modified =>
      by_cases last : rest = []
      · subst last
        rcases lookup_eq_ok.1 found with stop | ⟨_, _, _, _, -, stop, -⟩
        · cases step.symm.trans stop
          exact .inr (.inl ⟨content, modified, rfl, rfl, rfl⟩)
        · cases step.symm.trans stop
      · exact absurd found (lookup_ne_ok (step.trans (if_neg (by simpa using last))))
    | link target =>
      replace step := step.trans (if_neg (by simp))
      rcases lookup_eq_ok.1 found with stop | ⟨n, _, _, _, one, stop, behind⟩
      · cases step.symm.trans stop
      · cases step.symm.trans stop
        exact .inr (.inr ⟨n, target, one, rfl, behind⟩)

/-! ## Resolution -/

/-- A resolution goes through the names of its path. While it may follow further links it resolves
the target of each link that it is not following already. -/
theorem resolveWithin_eq (disk : Disk) (depth : Nat) (followed : List RealPath)
    (directory : RealPath) (p : Path) :
    ∃ follow : RealPath → Path → Except FileError Resolution,
      disk.resolveWithin depth followed directory p =
        disk.resolveNames follow (startOf directory p) p.parts ∧
      ∀ n link target, depth = n + 1 → link ∉ followed →
        follow link target = disk.resolveWithin n (link :: followed) link.dropLast target := by
  cases depth with
  | zero => exact ⟨_, rfl, fun _ _ _ none => absurd none (Nat.succ_ne_zero _).symm⟩
  | succ depth =>
    refine ⟨_, rfl, fun n link target same fresh => ?_⟩
    cases same
    exact if_neg fresh

/-- Names lead a resolution where they lead a lookup, if the links that the lookup meets do. -/
theorem resolveNames_of_lookup (tree : disk.IsTree)
    {followed : RealPath → Path → Except FileError Resolution}
    (follows : ∀ n link target d, n < links → disk.node? link = some (.link target) →
      disk.lookup true n (startOf link.dropLast target) target.parts = .ok d →
      followed link target = .ok (.reached d))
    (found : disk.lookup true links directory names = .ok real) :
    disk.resolveNames followed directory names = .ok (.reached real) := by
  induction names generalizing directory with
  | nil =>
    rcases lookup_eq_ok.1 found with stop | ⟨_, _, _, _, -, stop, -⟩
    · cases stop
      rfl
    · cases stop
  | cons name rest ih =>
    by_cases noDots : name = ".."
    · subst noDots
      have same : disk.descend true directory.dropLast rest =
        disk.descend true directory (".." :: rest) := rfl
      exact ih ((lookup_congr same).trans found)
    by_cases noDot : name = "."
    · subst noDot
      have same : disk.descend true directory rest =
        disk.descend true directory ("." :: rest) := rfl
      exact ih ((lookup_congr same).trans found)
    have proper {node : Node} (there : disk.node? (directory ++ [name]) = some node) :
        ¬ name.toList.contains '\x00' = true := by
      simpa using (tree.isFileName there name List.mem_cons_self).noNul
    rcases lookup_cons noDots noDot found with
      ⟨⟨changes, there⟩, behind⟩ | ⟨content, modified, there, rfl, rfl⟩ |
        ⟨n, target, rfl, there, behind⟩
    · rw [resolveNames.eq_4 _ _ _ _ _ noDots noDot, if_neg (proper there), there]
      exact ih behind
    · rw [resolveNames.eq_4 _ _ _ _ _ noDots noDot, if_neg (proper there), there]
      rfl
    · obtain ⟨d, first, others⟩ := lookup_append behind
      rw [resolveNames.eq_4 _ _ _ _ _ noDots noDot, if_neg (proper there), there]
      have led := follows n (directory ++ [name]) target d (Nat.lt_succ_self n) there
        (by rwa [List.dropLast_concat])
      simp only [led]
      exact ih (lookup_mono (Nat.le_succ n) others)

/-- The links that a resolution is following where a lookup has `links` left. They are different,
and each by itself would take a lookup as many at least. -/
structure IsFollowing (disk : Disk) (links : Nat) (followed : List RealPath) : Prop where
  different : followed.Nodup
  dear : ∀ link ∈ followed, ∃ target, disk.node? link = some (.link target) ∧
    ∀ n d, disk.lookup true n (startOf link.dropLast target) target.parts = .ok d → links ≤ n

namespace IsFollowing

variable {n : Nat} {followed : List RealPath} {link d : RealPath} {target : Path}

/-- A link that takes fewer links is none of those being followed. -/
theorem fresh (following : disk.IsFollowing links followed) (fewer : n < links)
    (there : disk.node? link = some (.link target))
    (led : disk.lookup true n (startOf link.dropLast target) target.parts = .ok d) :
    link ∉ followed := by
  intro mem
  obtain ⟨_, there', least⟩ := following.dear link mem
  cases there.symm.trans there'
  exact absurd (least n d led) (Nat.not_le_of_lt fewer)

/-- It can be followed as well, with as many links as it takes at least. -/
theorem next (following : disk.IsFollowing links followed) (fewer : n < links)
    (there : disk.node? link = some (.link target))
    (led : disk.lookup true n (startOf link.dropLast target) target.parts = .ok d) :
    ∃ m ≤ n, disk.lookup true m (startOf link.dropLast target) target.parts = .ok d ∧
      disk.IsFollowing m (link :: followed) := by
  classical
  have some : ∃ m d', disk.lookup true m (startOf link.dropLast target) target.parts = .ok d' :=
    ⟨n, d, led⟩
  have fewest : Nat.find some ≤ n := Nat.find_min' some ⟨d, led⟩
  obtain ⟨d', found⟩ := Nat.find_spec some
  -- with more links a lookup comes to the same place
  cases (lookup_mono fewest found).symm.trans led
  refine ⟨Nat.find some, fewest, found, List.nodup_cons.2 ⟨following.fresh fewer there led,
    following.different⟩, List.forall_mem_cons.2 ⟨⟨target, there, ?_⟩, ?_⟩⟩
  · exact fun m d' found' => Nat.find_min' some ⟨d', found'⟩
  · intro other mem
    obtain ⟨target', there', least⟩ := following.dear other mem
    exact ⟨target', there', fun m d' found' =>
      (fewest.trans fewer.le).trans (least m d' found')⟩

theorem length_le (following : disk.IsFollowing links followed) :
    followed.length ≤ disk.linkCount := by
  rw [linkCount, List.countP_eq_length_filter, ← List.length_map Prod.fst]
  refine (following.different.subperm fun link mem => ?_).length_le
  obtain ⟨target, there, -⟩ := following.dear link mem
  exact List.mem_map.2 ⟨_, List.mem_filter.2 ⟨mem_nodes_of_node? there, rfl⟩, rfl⟩

end IsFollowing

/-- Where a lookup comes through the resolution ends there, since the links that it may still follow
suffice. -/
theorem resolveWithin_of_lookup (tree : disk.IsTree) {depth : Nat} {followed : List RealPath}
    {p : Path} (following : disk.IsFollowing links followed)
    (deep : disk.linkCount ≤ depth + followed.length)
    (found : disk.lookup true links (startOf directory p) p.parts = .ok real) :
    disk.resolveWithin depth followed directory p = .ok (.reached real) := by
  induction links using Nat.strong_induction_on generalizing depth followed directory p real with
  | _ links ih =>
    obtain ⟨follow, through, onward⟩ := resolveWithin_eq disk depth followed directory p
    rw [through]
    refine resolveNames_of_lookup tree (fun n link target d fewer there led => ?_) found
    obtain ⟨m, few, found', following'⟩ := following.next fewer there led
    have room : followed.length + 1 ≤ disk.linkCount := following'.length_le
    obtain ⟨rest, more⟩ := Nat.exists_eq_succ_of_ne_zero (by omega : depth ≠ 0)
    rw [onward rest link target more (following.fresh fewer there led)]
    exact ih m (few.trans_lt fewer) following' (by rw [List.length_cons]; omega) found'

/-! ## Lookup in a tree -/

/-- None of the names that a lookup comes through is too long. -/
theorem short_of_lookup (found : disk.lookup true links directory names = .ok real) :
    ∀ name ∈ names, ¬ IsLongName name := by
  intro name mem long
  obtain ⟨before, after, rfl⟩ := List.append_of_mem mem
  obtain ⟨d, -, others⟩ := lookup_append found
  exact lookup_ne_ok (descend_longName long after) others

/-- A descent follows names that lead to an entry, unless that is a link to be followed. -/
theorem descend_of_leads (tree : disk.IsTree) (leads : disk.Leads directory names node)
    (stays : follow = true → ∀ target, node ≠ .link target) :
    disk.descend follow directory names = .reached (directory ++ names) := by
  induction leads with
  | @entry directory name node there =>
    have named := tree.isFileName there name List.mem_cons_self
    rw [descend.eq_4 _ _ _ _ _ named.noDots named.noDot, if_neg named.short, there]
    cases node with
    | directory changes => rfl
    | file content modified => rfl
    | link target =>
      have unfollowed : follow = false := by
        simpa using fun following => stays following target rfl
      rw [unfollowed]
      rfl
  | @inside directory name rest node within _ ih =>
    obtain ⟨changes, there⟩ := within
    have named := tree.isFileName there name List.mem_cons_self
    rw [descend.eq_4 _ _ _ _ _ named.noDots named.noDot, if_neg named.short, there]
    simpa using ih stays

end Disk

section Workspace

variable {w : Workspace} {directory : Path} {real : RealPath} {names : List String} {node : Node}
  {follow : Bool}

theorem short_of_locate (located : w.locate directory = .ok real) :
    ∀ name ∈ directory.parts, ¬ IsLongName name := by
  rw [Workspace.locate] at located
  split at located
  · cases located
  · split at located
    · cases located
    · exact Disk.short_of_lookup located

/-- Below a directory a path is looked up from there, unless its text is too long. -/
theorem locate_join (located : w.locate directory = .ok real) (holder : w.disk.IsDirectory real)
    (below : names ≠ []) (named : ∀ name ∈ names, '\x00' ∉ name.toList) :
    ∃ n, w.locate (directory.join ⟨.relative, names⟩) follow =
      if Disk.maxPathBytes < (directory.join ⟨.relative, names⟩).text.utf8ByteSize then
        .error .nameTooLong
      else w.disk.lookup follow n real names := by
  have accepted : IsAccepted (directory.join ⟨.relative, names⟩) := by
    intro name mem
    rcases List.mem_append.1 mem with mem | mem
    · exact isAccepted_of_locate located name mem
    · exact named name mem
  have usable : (directory.join ⟨.relative, names⟩).parts.any (·.toList.contains '\x00') =
      false := by
    simpa [IsAccepted] using accepted
  rw [Workspace.locate] at located
  split at located
  · cases located
  · split at located
    · cases located
    · obtain ⟨n, onward⟩ := Disk.lookup_below follow located holder below
      refine ⟨n, ?_⟩
      rw [Workspace.locate, usable, if_neg Bool.false_ne_true, ← onward]
      rfl

theorem locate_of_longText (located : w.locate directory = .ok real)
    (holder : w.disk.IsDirectory real) (below : names ≠ [])
    (named : ∀ name ∈ names, '\x00' ∉ name.toList)
    (long : Disk.maxPathBytes < (directory.join ⟨.relative, names⟩).text.utf8ByteSize) :
    w.locate (directory.join ⟨.relative, names⟩) follow = .error .nameTooLong := by
  obtain ⟨n, onward⟩ := locate_join located holder below named
  rw [onward, if_pos long]

/-- A path that is not too long leads to the entry that its names lead to, which is followed only if
it is no link. -/
theorem locate_of_leads (follow : Bool) (tree : w.disk.IsTree)
    (located : w.locate directory = .ok real) (holder : w.disk.IsDirectory real)
    (leads : w.disk.Leads real names node)
    (stays : follow = true → ∀ target, node ≠ .link target)
    (usable : w.locate (directory.join ⟨.relative, names⟩) ≠ .error .nameTooLong) :
    w.locate (directory.join ⟨.relative, names⟩) follow = .ok (real ++ names) := by
  have named := fun name mem => (tree.isFileName_of_leads leads name mem).noNul
  obtain ⟨n, onward⟩ := locate_join located holder leads.ne_nil named
  rw [onward, if_neg fun long => usable
    (locate_of_longText located holder leads.ne_nil named long)]
  exact Disk.lookup_eq_ok.2 (.inl (Disk.descend_of_leads tree leads stays))

/-- Such a path leads nowhere if its name stands for no entry. -/
theorem locate_of_absent (follow : Bool) {name : String} (located : w.locate directory = .ok real)
    (holder : w.disk.IsDirectory real) (named : IsFileName name)
    (absent : w.disk.node? (real ++ [name]) = none)
    (usable : w.locate (directory.join ⟨.relative, [name]⟩) ≠ .error .nameTooLong) :
    w.locate (directory.join ⟨.relative, [name]⟩) follow = .error .missing := by
  have below : [name] ≠ [] := List.cons_ne_nil _ _
  have noNul : ∀ other ∈ [name], '\x00' ∉ other.toList := by simpa using named.noNul
  obtain ⟨n, onward⟩ := locate_join located holder below noNul
  have stop : w.disk.descend follow real [name] = .failed .missing := by
    rw [Disk.descend.eq_4 _ _ _ _ _ named.noDots named.noDot, if_neg named.short, absent]
  rw [onward, if_neg fun long => usable (locate_of_longText located holder below noNul long)]
  cases n <;> rw [Disk.lookup, stop]

/-- Below a directory a path of short names is too long only because of its text or of a link. -/
theorem locate_join_tooLong (located : w.locate directory = .ok real)
    (short : ∀ name ∈ names, ¬ IsLongName name)
    (failed : w.locate (directory.join ⟨.relative, names⟩) = .error .nameTooLong) :
    Disk.maxPathBytes < (directory.join ⟨.relative, names⟩).text.utf8ByteSize ∨
      ∃ link target, (link, .link target) ∈ w.disk.nodes ∧
        ∃ name ∈ target.parts, IsLongName name := by
  rcases locate_tooLong failed with long | ⟨name, mem, long⟩ | linked
  · exact .inl long
  · rcases List.mem_append.1 mem with mem | mem
    · exact absurd long (short_of_locate located name mem)
    · exact absurd long (short name mem)
  · exact .inr linked

end Workspace

/-- A path that can be looked up resolves to the same place. -/
theorem resolve_of_locate {w : Workspace} {p : Path} {real : RealPath} (tree : w.disk.IsTree)
    (located : w.locate p = .ok real) : w.resolve p = .ok ⟨.root, real⟩ := by
  rw [Workspace.locate] at located
  split at located
  · cases located
  · split at located
    · cases located
    · have resolved : w.disk.resolve w.current p = .ok (.reached real) :=
        Disk.resolveWithin_of_lookup tree ⟨List.nodup_nil, List.forall_mem_nil _⟩
          (Nat.le_refl _) located
      rw [Workspace.resolve, resolved]
      rfl

end MessageLens
