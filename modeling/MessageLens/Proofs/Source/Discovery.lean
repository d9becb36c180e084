import MessageLens.Proofs.File.Resolution
import MessageLens.Proofs.Project.Loading
import MessageLens.Proofs.Text.Lines
import MessageLens.Source.Discovery

/-!
# The source files below a directory

On a tree of files the listing of a directory is exact: it has each source file once, in the order
of the relative paths, and nothing else. No entry leads out of the directory, since a link is none
of its source files and what is reached without one stays below it. What does get into the way is a
path that is too long to be looked up, because every entry is looked up first. For a link that is so
already where its target has too long a name.
-/

namespace MessageLens
set_option autoImplicit false

/-! ## Suffixes -/

/-- The name consists of a stem and one of the suffixes, in capitals or small letters. -/
def HasSourceSuffix (name : String) : Prop :=
  ∃ stem suffix : List Char, stem ≠ [] ∧ name.toList = stem ++ suffix ∧
    String.ofList (suffix.map Char.toLower) ∈ sourceSuffixes

theorem suffix_of_split {p : Path} {stem extension : List Char}
    (split : p.name.toList = stem ++ '.' :: extension) (last : '.' ∉ extension) :
    p.suffix = if extension = [] ∨ stem = [] then "" else String.ofList ('.' :: extension) := by
  have reversed : p.name.toList.reverse = extension.reverse ++ '.' :: stem.reverse := by
    rw [split]
    simp
  have taken : (extension.reverse ++ '.' :: stem.reverse).takeWhile (· != '.') =
      extension.reverse := by
    rw [List.takeWhile_append_of_pos (by simpa using fun c mem => ne_of_mem_of_not_mem mem last),
      List.takeWhile_cons_of_neg (by simp), List.append_nil]
  rw [Path.suffix]
  simp only [reversed, taken, List.drop_left, List.drop_succ_cons, List.drop_zero,
    List.isEmpty_reverse, List.isEmpty_iff, List.reverse_reverse]

theorem suffix_of_undotted {p : Path} (undotted : '.' ∉ p.name.toList) : p.suffix = "" := by
  have taken : p.name.toList.reverse.takeWhile (· != '.') = p.name.toList.reverse := by
    rw [List.takeWhile_eq_self_iff]
    simpa using fun c mem => ne_of_mem_of_not_mem mem undotted
  rw [Path.suffix]
  simp [taken]

theorem toLower_eq_dot {c : Char} (lowered : c.toLower = '.') : c = '.' := by
  rw [Char.toLower] at lowered
  split at lowered
  next capital =>
    -- a capital is lowered to a letter
    obtain ⟨low, high⟩ := capital
    have code := congrArg (fun c : Char => c.val.toNat) lowered
    have low' : 65 ≤ c.val.toNat := low
    have high' : c.val.toNat ≤ 90 := high
    have sum : (c.val.toNat + 32) % 2 ^ 32 = 46 := code
    omega
  · exact lowered

theorem sourceSuffixes_dotted : ∀ suffix ∈ sourceSuffixes,
    ∃ extension, suffix.toList = '.' :: extension ∧ extension ≠ [] ∧ '.' ∉ extension := by
  have dotted : ∀ suffix ∈ sourceSuffixes, suffix.toList.head? = some '.' ∧
      suffix.toList.tail ≠ [] ∧ '.' ∉ suffix.toList.tail := by decide
  intro suffix mem
  obtain ⟨first, nonempty, undotted⟩ := dotted suffix mem
  exact ⟨suffix.toList.tail, List.eq_cons_of_mem_head? first, nonempty, undotted⟩

theorem map_ofList (f : Char → Char) (cs : List Char) :
    (String.ofList cs).map f = String.ofList (cs.map f) := by
  rw [← String.toList_inj, String.toList_map, String.toList_ofList, String.toList_ofList]

/-- Whether a path is one of a source file depends on the end of its last name. -/
theorem isSourcePath_iff {p : Path} : isSourcePath p = true ↔ HasSourceSuffix p.name := by
  rw [isSourcePath, decide_eq_true_iff]
  constructor
  · intro listed
    have nonempty : p.suffix ≠ "" := by
      intro none
      rw [none] at listed
      exact absurd listed (by decide +kernel)
    by_cases dotted : '.' ∈ p.name.toList
    · obtain ⟨after, before, split, last⟩ :=
        List.eq_append_cons_of_mem (List.mem_reverse.2 dotted)
      have split' : p.name.toList = before.reverse ++ '.' :: after.reverse := by
        rw [← List.reverse_reverse p.name.toList, split]
        simp
      have suffix := suffix_of_split split' (by simpa using last)
      split at suffix
      · exact absurd suffix nonempty
      next proper =>
        refine ⟨before.reverse, '.' :: after.reverse, fun none => proper (.inr none), split', ?_⟩
        rwa [suffix, map_ofList] at listed
    · exact absurd (suffix_of_undotted dotted) nonempty
  · rintro ⟨stem, suffix, nonempty, split, listed⟩
    obtain ⟨extension, lowered, some, undotted⟩ := sourceSuffixes_dotted _ listed
    rw [String.toList_ofList] at lowered
    obtain ⟨c, rest, rfl, dot, same⟩ := List.map_eq_cons_iff.1 lowered
    cases toLower_eq_dot dot
    have last : '.' ∉ rest := fun mem => undotted (same ▸ List.mem_map_of_mem mem)
    have proper : ¬ (rest = [] ∨ stem = []) := by
      rintro (rfl | none)
      · exact some same.symm
      · exact nonempty none
    rwa [suffix_of_split split last, if_neg proper, map_ofList]

/-! ## Entries -/

variable {w : Workspace} {directory : Path} {real : RealPath} {names : List String} {node : Node}
  {rules : List Ignore.Rule} {ignored : String → Bool}

theorem below_eq_some {path : RealPath} :
    (if real.isPrefixOf path && real.length < path.length then some (path.drop real.length)
      else none) = some names ↔ path = real ++ names ∧ names ≠ [] := by
  rw [Option.ite_none_right_eq_some, Bool.and_eq_true, List.isPrefixOf_iff_prefix,
    decide_eq_true_iff]
  constructor
  · rintro ⟨⟨⟨rest, rfl⟩, longer⟩, same⟩
    rw [List.drop_left, Option.some.injEq] at same
    subst same
    refine ⟨rfl, fun none => ?_⟩
    simp [none] at longer
  · rintro ⟨rfl, nonempty⟩
    refine ⟨⟨List.prefix_append _ _, ?_⟩, by rw [List.drop_left]⟩
    simpa using List.length_pos_iff.2 nonempty

/-- On a tree the entries below a directory are those that names lead to. -/
theorem mem_entriesBelow {disk : Disk} (tree : disk.IsTree) :
    names ∈ entriesBelow disk real ↔ ∃ node, disk.Leads real names node := by
  simp only [tree.leads_iff]
  constructor
  · intro mem
    obtain ⟨⟨path, node⟩, listed, below⟩ := List.mem_filterMap.1 mem
    obtain ⟨rfl, nonempty⟩ := below_eq_some.1 below
    exact ⟨node, nonempty, (tree.node?_eq_some nonempty).2 listed⟩
  · rintro ⟨node, nonempty, there⟩
    exact List.mem_filterMap.2
      ⟨_, (tree.node?_eq_some nonempty).1 there, below_eq_some.2 ⟨rfl, nonempty⟩⟩

theorem nodup_entriesBelow {disk : Disk} (tree : disk.IsTree) :
    (entriesBelow disk real).Nodup := by
  have once := tree.unique.filterMap (f := fun path : RealPath =>
    if real.isPrefixOf path && real.length < path.length then some (path.drop real.length)
    else none) ?_
  · rwa [List.filterMap_map] at once
  · intro path path' names below below'
    rw [(below_eq_some.1 below).1, (below_eq_some.1 below').1]

theorem relativeText_injective {names' : List String} (named : ∀ name ∈ names, IsFileName name)
    (named' : ∀ name ∈ names', IsFileName name) (nonempty : names ≠ []) (nonempty' : names' ≠ [])
    (same : relativeText names = relativeText names') : names = names' :=
  Text.intercalate_injective rfl (fun name mem => (named name mem).noSlash)
    (fun name mem => (named' name mem).noSlash) nonempty nonempty' same

/-! ## Testing an entry -/

/-- The names lead from a directory to one of its source files, which are not left out. -/
structure IsSource (disk : Disk) (real : RealPath) (ignored : String → Bool)
    (names : List String) : Prop where
  file : ∃ content modified, disk.Leads real names (.file content modified)
  suffix : ∃ name, names.getLast? = some name ∧ HasSourceSuffix name
  entered : ∀ parent ∈ names.dropLast, parent ∉ skippedDirectories
  kept : ignored (relativeText names) = false

/-- Whether an entry is a file. -/
def Node.isFile : Node → Bool
  | .file _ _ => true
  | _ => false

/-- Whether an entry is a link. -/
def Node.isLink : Node → Bool
  | .link _ => true
  | _ => false

theorem name_join {name : String} (last : names.getLast? = some name) :
    (directory.join ⟨.relative, names⟩).name = name := by
  show (directory.parts ++ names).getLast?.getD "" = name
  rw [List.getLast?_append, last]
  rfl

section Listing

variable (tree : w.disk.IsTree) (located : w.locate directory = .ok real)
  (holder : w.disk.IsDirectory real)

include tree located holder

theorem isFile_of_leads (leads : w.disk.Leads real names node)
    (stays : ∀ target, node ≠ .link target)
    (usable : w.locate (directory.join ⟨.relative, names⟩) ≠ .error .nameTooLong) :
    w.isFile (directory.join ⟨.relative, names⟩) = .ok node.isFile := by
  have found := locate_of_leads true tree located holder leads (fun _ => stays) usable
  rw [Workspace.isFile, test_of_locate found leads.node?]
  cases node <;> rfl

theorem isLink_of_leads (leads : w.disk.Leads real names node)
    (usable : w.locate (directory.join ⟨.relative, names⟩) ≠ .error .nameTooLong) :
    w.isLink (directory.join ⟨.relative, names⟩) = .ok node.isLink := by
  have found := locate_of_leads false tree located holder leads nofun usable
  rw [Workspace.isLink, test_of_locate found leads.node?]
  cases node <;> rfl

/-- What is reached through no link is within the directory. -/
theorem isWithin_of_leads (leads : w.disk.Leads real names node)
    (stays : ∀ target, node ≠ .link target)
    (usable : w.locate (directory.join ⟨.relative, names⟩) ≠ .error .nameTooLong) :
    isWithin w (directory.join ⟨.relative, names⟩) directory = .ok true := by
  have outer := resolve_of_locate tree located
  have inner := resolve_of_locate tree
    (locate_of_leads true tree located holder leads (fun _ => stays) usable)
  rw [isWithin, outer, inner]
  show Except.ok (real.isPrefixOf (real ++ names)) = _
  rw [List.isPrefixOf_iff_prefix.2 (List.prefix_append _ _)]

/-- An entry that can be looked up is listed if it is a source file. -/
theorem isListed_ok (leads : w.disk.Leads real names node)
    (usable : w.locate (directory.join ⟨.relative, names⟩) ≠ .error .nameTooLong)
    (total : ∀ path : String, Ignore.ignores rules path.toList = .ok (ignored path)) :
    ∃ listed, isListed w directory rules names = .ok listed ∧
      (listed = true ↔ IsSource w.disk real ignored names) := by
  have notSource (other : ∀ content modified, node ≠ .file content modified) :
      ¬ IsSource w.disk real ignored names := by
    rintro ⟨⟨content, modified, file⟩, -⟩
    exact other content modified (Option.some.inj (leads.node?.symm.trans file.node?))
  have link := isLink_of_leads tree located holder leads usable
  cases node with
  | link target =>
    -- where the link leads to does not matter
    refine ⟨false, ?_, iff_of_false Bool.false_ne_true (notSource fun _ _ => nofun)⟩
    cases followed : w.isFile (directory.join ⟨.relative, names⟩) with
    | error e => exact absurd (isFile_fails.1 ⟨e, followed⟩) usable
    | ok file =>
      rw [isListed, followed, link]
      cases file <;> rfl
  | directory changes =>
    refine ⟨false, ?_, iff_of_false Bool.false_ne_true (notSource fun _ _ => nofun)⟩
    rw [isListed, isFile_of_leads tree located holder leads (fun _ => nofun) usable]
    rfl
  | file content modified =>
    have stays : ∀ target, Node.file content modified ≠ .link target := fun _ => nofun
    refine ⟨isSourcePath (directory.join ⟨.relative, names⟩) &&
      (!names.dropLast.any (· ∈ skippedDirectories) && !ignored (relativeText names)), ?_, ?_⟩
    · rw [isListed, isFile_of_leads tree located holder leads stays usable, link,
        isWithin_of_leads tree located holder leads stays usable, total]
      cases isSourcePath (directory.join ⟨.relative, names⟩) with
      | false => rfl
      | true => cases names.dropLast.any (· ∈ skippedDirectories) <;> rfl
    · obtain ⟨name, last⟩ :=
        Option.ne_none_iff_exists'.1 (mt List.getLast?_eq_none_iff.1 leads.ne_nil)
      rw [Bool.and_eq_true, isSourcePath_iff, name_join last, Bool.and_eq_true, Bool.not_eq_true',
        Bool.not_eq_true', List.any_eq_false]
      constructor
      · rintro ⟨suffix, entered, kept⟩
        exact ⟨⟨content, modified, leads⟩, ⟨name, last, suffix⟩, by simpa using entered, kept⟩
      · rintro ⟨-, ⟨_, last', suffix⟩, entered, kept⟩
        cases last.symm.trans last'
        exact ⟨suffix, by simpa using entered, kept⟩

end Listing

/-- An entry whose path is too long cannot be tested. -/
theorem isListed_fails
    (failed : w.locate (directory.join ⟨.relative, names⟩) = .error .nameTooLong) :
    Fails (isListed w directory rules names) := by
  obtain ⟨e, failed⟩ := isFile_fails.2 failed
  rw [isListed, failed]
  exact ⟨.file e, rfl⟩

/-! ## Going through the entries -/

theorem keepListed_ok (entries : List (List String)) {Kept : List String → Prop}
    (decided : ∀ names ∈ entries, ∃ listed, isListed w directory rules names = .ok listed ∧
      (listed = true ↔ Kept names)) :
    ∃ kept, keepListed w directory rules entries = .ok kept ∧ kept.Sublist entries ∧
      ∀ names, names ∈ kept ↔ names ∈ entries ∧ Kept names := by
  induction entries with
  | nil => exact ⟨[], rfl, List.Sublist.refl _, by simp⟩
  | cons first rest ih =>
    obtain ⟨⟨listed, tested, holds⟩, others⟩ := List.forall_mem_cons.1 decided
    obtain ⟨kept, went, part, exact⟩ := ih others
    cases listed with
    | true =>
      refine ⟨first :: kept, by rw [keepListed, tested, went]; rfl, part.cons_cons first, ?_⟩
      intro names
      rw [List.mem_cons, List.mem_cons, exact]
      have listed : Kept first := holds.1 rfl
      grind
    | false =>
      refine ⟨kept, by rw [keepListed, tested]; exact went, part.cons first, ?_⟩
      intro names
      rw [List.mem_cons, exact]
      have unlisted : ¬ Kept first := fun kept => Bool.false_ne_true (holds.2 kept)
      grind

theorem keepListed_fails {entries : List (List String)} (mem : names ∈ entries)
    (failed : Fails (isListed w directory rules names)) :
    Fails (keepListed w directory rules entries) := by
  induction entries with
  | nil => cases mem
  | cons first rest ih =>
    rw [keepListed, fails_bind]
    rcases List.mem_cons.1 mem with rfl | mem
    · exact .inl failed
    · cases tested : isListed w directory rules first with
      | error e => exact .inl fails_error
      | ok listed =>
        refine .inr ⟨listed, rfl, ?_⟩
        cases listed with
        | true => exact fails_bind.2 (.inl (ih mem))
        | false => exact ih mem

/-! ## The order -/

/-- Different relative paths are put in strict order. -/
theorem pairwise_mergeSort_precedes {entries : List (List String)} (once : entries.Nodup)
    (told : ∀ a ∈ entries, ∀ b ∈ entries, relativeText a = relativeText b → a = b) :
    (entries.mergeSort precedes).Pairwise fun a b => relativeText a < relativeText b := by
  have ordered : (entries.mergeSort precedes).Pairwise fun a b => precedes a b = true := by
    refine List.pairwise_mergeSort (fun a b c first second => ?_) (fun a b => ?_) entries
    · simp only [precedes, Bool.not_eq_true', decide_eq_false_iff_not, not_lt] at first second ⊢
      exact first.trans second
    · simp only [precedes, Bool.or_eq_true, Bool.not_eq_true', decide_eq_false_iff_not, not_lt]
      exact le_total _ _
  have different : (entries.mergeSort precedes).Nodup :=
    (List.mergeSort_perm entries precedes).nodup_iff.2 once
  refine (ordered.and different).imp_of_mem fun {a b} mem mem' ⟨before, differ⟩ => ?_
  rw [precedes, Bool.not_eq_true', decide_eq_false_iff_not, not_lt] at before
  refine lt_of_le_of_ne before fun same => differ ?_
  exact told a (List.mem_mergeSort.1 mem) b (List.mem_mergeSort.1 mem') same

/-! ## The ignore file -/

/-- `ignored` tells which paths the ignore file of a directory leaves out, and whether it does is
always settled. Without a file of this name, or where it is a link, no path is left out. -/
def OwnIgnores (disk : Disk) (real : RealPath) (ignored : String → Bool) : Prop :=
  match disk.node? (real ++ [".gitignore"]) with
  | some (.file content _) => ∃ rules, Ignore.rulesOfBytes content = .ok rules ∧
      ∀ path : String, Ignore.ignores rules path.toList = .ok (ignored path)
  | _ => ∀ path, ignored path = false

/-- What rules leave out. -/
def Ignore.leavesOut (rules : List Ignore.Rule) (path : String) : Bool :=
  (Ignore.ignores rules path.toList).toOption.getD false

theorem Ignore.firstSpeaking_ok (formed : ∀ rule ∈ rules, rule.expression.isSome)
    (path : List Char) : ∃ rule, Ignore.firstSpeaking path rules = .ok rule := by
  induction rules with
  | nil => exact ⟨none, rfl⟩
  | cons rule rules ih =>
    obtain ⟨⟨expression, made⟩, others⟩ :=
      (List.forall_mem_cons.1 formed).imp_left Option.isSome_iff_exists.1
    obtain ⟨found, searched⟩ := ih others
    rw [firstSpeaking, Rule.speaksOf, made]
    cases spoken : expression.search path with
    | true => exact ⟨some rule, by simp only [bind, Except.bind, spoken]; rfl⟩
    | false => exact ⟨found, by simp only [bind, Except.bind, spoken]; exact searched⟩

/-- Rules whose patterns make regular expressions settle for each path whether it is left out. -/
theorem Ignore.ignores_of_formed (formed : ∀ rule ∈ rules, rule.expression.isSome)
    (path : String) : Ignore.ignores rules path.toList = .ok (Ignore.leavesOut rules path) := by
  obtain ⟨first, forwards⟩ := firstSpeaking_ok formed path.toList
  have formed' : ∀ rule ∈ rules.reverse, rule.expression.isSome :=
    fun rule mem => formed rule (List.mem_reverse.1 mem)
  obtain ⟨last, backwards⟩ := firstSpeaking_ok formed' path.toList
  rw [leavesOut, ignores, forwards, backwards]
  cases rules.any (·.negated) <;> rfl

theorem ignoreRules_fails
    (failed : w.locate (directory.join ⟨.relative, [".gitignore"]⟩) = .error .nameTooLong) :
    Fails (ignoreRules w directory) := by
  obtain ⟨e, failed⟩ := isFile_fails.2 failed
  refine ⟨.file e, ?_⟩
  rw [ignoreRules, show directory.child ".gitignore" = directory.join ⟨.relative, [".gitignore"]⟩
    from rfl, failed]
  rfl

theorem ignoreRules_ok (tree : w.disk.IsTree) (located : w.locate directory = .ok real)
    (holder : w.disk.IsDirectory real) (own : OwnIgnores w.disk real ignored)
    (usable : w.locate (directory.join ⟨.relative, [".gitignore"]⟩) ≠ .error .nameTooLong) :
    ∃ rules, ignoreRules w directory = .ok rules ∧
      ∀ path : String, Ignore.ignores rules path.toList = .ok (ignored path) := by
  have noRules (none : ∀ path, ignored path = false) (path : String) :
      Ignore.ignores [] path.toList = .ok (ignored path) := by
    rw [none]
    rfl
  rw [ignoreRules, show directory.child ".gitignore" = directory.join ⟨.relative, [".gitignore"]⟩
    from rfl]
  rw [OwnIgnores] at own
  cases there : w.disk.node? (real ++ [".gitignore"]) with
  | none =>
    rw [there] at own
    have named : IsFileName ".gitignore" := by decide
    refine ⟨[], ?_, noRules own⟩
    rw [Workspace.isFile, test_of_absent (locate_of_absent true located holder named there usable),
      Workspace.isLink, test_of_absent (locate_of_absent false located holder named there usable)]
    rfl
  | some node =>
    rw [there] at own
    have leads : w.disk.Leads real [".gitignore"] node := .entry there
    have link := isLink_of_leads tree located holder leads usable
    cases node with
    | link target =>
      refine ⟨[], ?_, noRules own⟩
      cases followed : w.isFile (directory.join ⟨.relative, [".gitignore"]⟩) with
      | error e => exact absurd (isFile_fails.1 ⟨e, followed⟩) usable
      | ok file =>
        rw [link]
        cases file <;> rfl
    | directory changes =>
      refine ⟨[], ?_, noRules own⟩
      rw [isFile_of_leads tree located holder leads (fun _ => nofun) usable, link]
      rfl
    | file content modified =>
      obtain ⟨rules, parsed, total⟩ := own
      have stays : ∀ target, Node.file content modified ≠ .link target := fun _ => nofun
      have read : w.read (directory.join ⟨.relative, [".gitignore"]⟩) = .ok content := by
        rw [Workspace.read, Workspace.node,
          locate_of_leads true tree located holder leads (fun _ => stays) usable]
        simp only [bind, Except.bind, leads.node?]
        rfl
      refine ⟨rules, ?_, total⟩
      rw [isFile_of_leads tree located holder leads stays usable, link, read]
      show (Ignore.rulesOfBytes content).mapError DiscoveryError.ignore = _
      rw [parsed]
      rfl

/-! ## The listing -/

theorem sourceNames_eq (known : ignoreRules w directory = .ok rules)
    (isDirectory : w.isDirectory directory = .ok true) (located : w.locate directory = .ok real) :
    sourceNames w directory =
      (keepListed w directory rules (entriesBelow w.disk real)).map (·.mergeSort precedes) := by
  rw [sourceNames, known, isDirectory, located]
  rfl

/-- The source files below a directory are known if those that count stand in order already. -/
theorem sourceFiles_of_sorted {sources : List (List String)}
    (known : ignoreRules w directory = .ok rules)
    (isDirectory : w.isDirectory directory = .ok true) (located : w.locate directory = .ok real)
    (kept : keepListed w directory rules (entriesBelow w.disk real) = .ok sources)
    (sorted : sources.Pairwise fun a b => precedes a b = true) :
    sourceFiles w directory =
      .ok (sources.map fun names => directory.join ⟨.relative, names⟩) := by
  rw [sourceFiles, sourceNames_eq known isDirectory located, kept]
  simp only [Except.map, List.mergeSort_of_pairwise sorted]
  rfl

/-- The listing of a directory looks at the path of these names from there: that of the ignore file,
whether there is one or not, and that of each entry. -/
def IsLookedAt (disk : Disk) (real : RealPath) (names : List String) : Prop :=
  names = [".gitignore"] ∨ ∃ node, disk.Leads real names node

theorem IsLookedAt.short {disk : Disk} (tree : disk.IsTree) (way : IsLookedAt disk real names) :
    ∀ name ∈ names, ¬ IsLongName name := by
  rcases way with rfl | ⟨node, leads⟩
  · simpa using (by decide : ¬ IsLongName ".gitignore")
  · exact fun name mem => (tree.isFileName_of_leads leads name mem).short

/-- The listing of a directory comes to a path that is too long to be looked up. -/
def MeetsLongPath (w : Workspace) (directory : Path) (real : RealPath) : Prop :=
  ∃ names, IsLookedAt w.disk real names ∧
    w.locate (directory.join ⟨.relative, names⟩) = .error .nameTooLong

theorem sourceNames_fails (tree : w.disk.IsTree) (located : w.locate directory = .ok real)
    (holder : w.disk.IsDirectory real) (met : MeetsLongPath w directory real) :
    Fails (sourceNames w directory) := by
  obtain ⟨names, way, failed⟩ := met
  cases known : ignoreRules w directory with
  | error e =>
    rw [sourceNames, known]
    exact fails_error
  | ok rules =>
    rcases way with rfl | ⟨node, leads⟩
    · obtain ⟨e, unknown⟩ := ignoreRules_fails failed
      cases known.symm.trans unknown
    · obtain ⟨changes, there⟩ := holder
      rw [sourceNames_eq known (test_of_locate located there) located, fails_map]
      exact keepListed_fails ((mem_entriesBelow tree).2 ⟨node, leads⟩) (isListed_fails failed)

theorem sourceNames_ok (tree : w.disk.IsTree) (located : w.locate directory = .ok real)
    (holder : w.disk.IsDirectory real) (own : OwnIgnores w.disk real ignored)
    (usable : ¬ MeetsLongPath w directory real) :
    ∃ sources, sourceNames w directory = .ok sources ∧
      sources.Pairwise (fun a b => relativeText a < relativeText b) ∧
      ∀ names, names ∈ sources ↔ IsSource w.disk real ignored names := by
  obtain ⟨rules, known, total⟩ := ignoreRules_ok tree located holder own
    fun failed => usable ⟨_, .inl rfl, failed⟩
  obtain ⟨kept, went, part, exact⟩ := keepListed_ok (entriesBelow w.disk real)
    fun names mem => by
      obtain ⟨node, leads⟩ := (mem_entriesBelow tree).1 mem
      exact isListed_ok tree located holder leads
        (fun failed => usable ⟨names, .inr ⟨node, leads⟩, failed⟩) total
  have told : ∀ a ∈ kept, ∀ b ∈ kept, relativeText a = relativeText b → a = b := by
    intro a mem b mem' same
    obtain ⟨_, leads⟩ := (mem_entriesBelow tree).1 (part.subset mem)
    obtain ⟨_, leads'⟩ := (mem_entriesBelow tree).1 (part.subset mem')
    exact relativeText_injective (tree.isFileName_of_leads leads)
      (tree.isFileName_of_leads leads') leads.ne_nil leads'.ne_nil same
  obtain ⟨changes, there⟩ := holder
  refine ⟨kept.mergeSort precedes, ?_,
    pairwise_mergeSort_precedes ((nodup_entriesBelow tree).sublist part) told, ?_⟩
  · rw [sourceNames_eq known (test_of_locate located there) located, went]
    rfl
  · intro names
    rw [List.mem_mergeSort, exact]
    refine and_iff_right_of_imp fun source => ?_
    obtain ⟨content, modified, leads⟩ := source.file
    exact (mem_entriesBelow tree).2 ⟨_, leads⟩

/-- The source files below a directory of a tree are listed, each once and in the order of their
relative paths, unless a path is met that is too long to be looked up. That takes a path whose text
is too long, or a link on the disk whose target has too long a name. -/
theorem sourceFiles_exact (tree : w.disk.IsTree) (located : w.locate directory = .ok real)
    (holder : w.disk.IsDirectory real) (own : OwnIgnores w.disk real ignored) :
    (Fails (sourceFiles w directory) ↔ MeetsLongPath w directory real) ∧
    (¬ MeetsLongPath w directory real →
      ∃ sources : List (List String),
        sourceFiles w directory =
          .ok (sources.map fun names => directory.join ⟨.relative, names⟩) ∧
        sources.Pairwise (fun a b => relativeText a < relativeText b) ∧
        ∀ names, names ∈ sources ↔ IsSource w.disk real ignored names) ∧
    (MeetsLongPath w directory real →
      (∃ names, IsLookedAt w.disk real names ∧
        Disk.maxPathBytes < (directory.join ⟨.relative, names⟩).text.utf8ByteSize) ∨
      ∃ link target, (link, .link target) ∈ w.disk.nodes ∧
        ∃ name ∈ target.parts, IsLongName name) := by
  refine ⟨⟨fun failed => ?_, fun met => ?_⟩, fun usable => ?_, ?_⟩
  · by_contra usable
    obtain ⟨sources, listed, -⟩ := sourceNames_ok tree located holder own usable
    rw [sourceFiles, listed] at failed
    exact not_fails_ok failed
  · rw [sourceFiles, fails_bind]
    exact .inl (sourceNames_fails tree located holder met)
  · obtain ⟨sources, listed, ordered, exact⟩ := sourceNames_ok tree located holder own usable
    exact ⟨sources, by rw [sourceFiles, listed]; rfl, ordered, exact⟩
  · rintro ⟨names, way, failed⟩
    exact (locate_join_tooLong located (way.short tree) failed).imp_left fun long =>
      ⟨names, way, long⟩

/-- Rules for a directory. -/
def generatedContent : Bytes := "gen.ts\n".toUTF8.toList

/-- A directory that a link leads to, with what could be taken for a source file. -/
def linkedDisk : Disk :=
  ⟨[(["here"], .link ⟨.relative, ["app"]⟩), (["app"], .directory 0),
    (["app", ".gitignore"], .file generatedContent 0), (["app", ".ts"], .file [] 0),
    (["app", "a-b.ts"], .file [] 0), (["app", "a"], .directory 0),
    (["app", "a", "dist"], .directory 0), (["app", "a", "dist", "y.ts"], .file [] 0),
    (["app", "a", "x.TS"], .file [] 0), (["app", "gen.ts"], .file [] 0),
    (["app", "link.ts"], .link ⟨.relative, ["a-b.ts"]⟩),
    (["app", "out"], .link ⟨.root, ["out"]⟩), (["out"], .directory 0),
    (["out", "z.ts"], .file [] 0)]⟩

/-- The rules of its ignore file. -/
def generatedRules : List Ignore.Rule :=
  (Ignore.rulesOfBytes generatedContent).toOption.getD []

theorem sourceFiles_exact_linked :
    let w : Workspace := { disk := linkedDisk }
    w.disk.IsTree ∧ w.locate ⟨.root, ["here"]⟩ = .ok ["app"] ∧ w.disk.IsDirectory ["app"] ∧
    OwnIgnores w.disk ["app"] (Ignore.leavesOut generatedRules) ∧
    ∀ names, IsSource w.disk ["app"] (Ignore.leavesOut generatedRules) names ↔
      names = ["a-b.ts"] ∨ names = ["a", "x.TS"] := by
  intro w
  have tree : w.disk.IsTree := by decide +kernel
  have located : w.locate ⟨.root, ["here"]⟩ = .ok ["app"] := by decide +kernel
  have holder : w.disk.IsDirectory ["app"] := ⟨0, rfl⟩
  have parsed : Ignore.rulesOfBytes generatedContent = .ok generatedRules := by
    have made : (Ignore.rulesOfBytes generatedContent).toOption.isSome := by decide +kernel
    obtain ⟨rules, found⟩ := Option.isSome_iff_exists.1 made
    rw [generatedRules, found]
    exact eq_ok_of_toOption found
  have formed : ∀ rule ∈ generatedRules, rule.expression.isSome := by
    rw [← List.all_eq_true]
    decide +kernel
  have own : OwnIgnores w.disk ["app"] (Ignore.leavesOut generatedRules) :=
    ⟨generatedRules, parsed, Ignore.ignores_of_formed formed⟩
  refine ⟨tree, located, holder, own, ?_⟩
  obtain ⟨failing, listing, -⟩ := sourceFiles_exact tree located holder own
  have known : ignoreRules w ⟨.root, ["here"]⟩ = .ok generatedRules := by
    have isFile : w.isFile ((⟨.root, ["here"]⟩ : Path).child ".gitignore") = .ok true := by
      decide +kernel
    have isLink : w.isLink ((⟨.root, ["here"]⟩ : Path).child ".gitignore") = .ok false := by
      decide +kernel
    have read : w.read ((⟨.root, ["here"]⟩ : Path).child ".gitignore") = .ok generatedContent := by
      decide +kernel
    rw [ignoreRules, isFile, isLink, read]
    show (Ignore.rulesOfBytes generatedContent).mapError DiscoveryError.ignore = _
    rw [parsed]
    rfl
  have kept : keepListed w ⟨.root, ["here"]⟩ generatedRules (entriesBelow w.disk ["app"]) =
      .ok [["a-b.ts"], ["a", "x.TS"]] := eq_ok_of_toOption (by decide +kernel)
  have listed := sourceFiles_of_sorted known (by decide +kernel) located kept (by decide +kernel)
  obtain ⟨sources, found, -, exact⟩ := listing fun met => by
    obtain ⟨e, failed⟩ := failing.2 met
    cases listed.symm.trans failed
  have same : sources = [["a-b.ts"], ["a", "x.TS"]] := by
    refine List.map_injective_iff.2 ?_ (Except.ok.inj (found.symm.trans listed))
    intro a b joined
    simpa [Path.join] using joined
  intro names
  rw [← exact, same]
  simp

/-- A directory with a source file and with a link whose target is a name of 256 letters. -/
def longTargetDisk : Disk :=
  ⟨[(["a.ts"], .file [] 0),
    (["b.ts"], .link ⟨.relative, [String.ofList (List.replicate 256 'a')]⟩)]⟩

/-- The link is none of the source files, but it keeps the other entry from being listed. -/
theorem longTarget_unlisted :
    let w : Workspace := { disk := longTargetDisk }
    w.disk.IsTree ∧ w.locate ⟨.root, []⟩ = .ok [] ∧ w.disk.IsDirectory [] ∧
    OwnIgnores w.disk [] (fun _ => false) ∧
    (∀ names, IsSource w.disk [] (fun _ => false) names → names = ["a.ts"]) ∧
    IsSource w.disk [] (fun _ => false) ["a.ts"] ∧ Fails (sourceFiles w ⟨.root, []⟩) := by
  intro w
  have tree : w.disk.IsTree := by decide +kernel
  have located : w.locate ⟨.root, []⟩ = .ok [] := by decide +kernel
  have holder : w.disk.IsDirectory [] := ⟨0, rfl⟩
  have met : MeetsLongPath w ⟨.root, []⟩ [] :=
    ⟨["b.ts"], .inr ⟨_, .entry rfl⟩, by decide +kernel⟩
  have suffix : HasSourceSuffix (⟨.relative, ["a.ts"]⟩ : Path).name :=
    isSourcePath_iff.1 (by decide +kernel)
  refine ⟨tree, located, holder, fun _ => rfl, ?_,
    ⟨⟨[], 0, .entry rfl⟩, ⟨"a.ts", rfl, suffix⟩, by simp, rfl⟩,
    fails_bind.2 (.inl (sourceNames_fails tree located holder met))⟩
  intro names source
  obtain ⟨content, modified, leads⟩ := source.file
  have entries : entriesBelow w.disk [] = [["a.ts"], ["b.ts"]] := by decide +kernel
  have mem := (mem_entriesBelow tree).2 ⟨_, leads⟩
  rw [entries] at mem
  rcases List.mem_pair.1 mem with rfl | rfl
  · rfl
  · cases leads.node?

end MessageLens
