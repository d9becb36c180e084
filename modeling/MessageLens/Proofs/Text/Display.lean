import Mathlib.Data.List.DropRight
import MessageLens.Proofs.Options.Accepted
import MessageLens.Text.Display

/-!
# Text on one line

What is displayed of a text are its words with a space between them. Such a text is displayed as it
is, and so is one that has been cut: the ellipsis keeps a space before it from ending the text.
-/

namespace MessageLens
set_option autoImplicit false

namespace Text

variable {cs ys : List Char} {c : Char} {inRun : Bool}

/-! ## Words -/

/-- The words of a text: the pieces between blanks that are not empty. -/
def words (cs : List Char) : List (List Char) := (cs.splitOnP isBlank).filter (· ≠ [])

/-- A blank parts the words before it from those behind it. -/
theorem words_append_blank (blank : isBlank c = true) (xs ys : List Char) :
    words (xs ++ c :: ys) = words xs ++ words ys := by
  rw [words, List.splitOnP_append_cons xs ys blank, List.filter_append]
  rfl

theorem words_cons_blank (blank : isBlank c = true) (ys : List Char) :
    words (c :: ys) = words ys :=
  words_append_blank blank [] ys

theorem words_concat_blank (blank : isBlank c = true) (xs : List Char) :
    words (xs ++ [c]) = words xs := by
  rw [words_append_blank blank]
  exact List.append_nil _

/-- What blanks are replaced by does not matter as long as it is blank. -/
theorem words_map {f : Char → Char} (blanks : ∀ c, isBlank (f c) = isBlank c)
    (others : ∀ c, isBlank c = false → f c = c) (cs : List Char) : words (cs.map f) = words cs := by
  have pieces : (cs.map f).splitOnP isBlank = cs.splitOnP isBlank := by
    induction cs with
    | nil => rfl
    | cons c cs ih =>
      rw [List.map_cons, List.splitOnP_cons_eq_if_modifyHead,
        List.splitOnP_cons_eq_if_modifyHead, blanks, ih]
      cases blank : isBlank c with
      | true => rfl
      | false => rw [others c blank]
  rw [words, pieces]
  rfl

/-! ## Displaying keeps the words -/

theorem words_joinLines (cs : List Char) :
    words (joinLines cs) = words (cs.filter (· != '\r')) := by
  refine words_map (fun c => ?_) (fun c solid => ?_) _
  · by_cases feed : c = '\n'
    · rw [if_pos feed, feed]
      decide
    · rw [if_neg feed]
  · rw [if_neg]
    rintro rfl
    exact absurd solid (by decide)

/-- The text before what is squeezed does not end in a run of blanks, so it may be any text where
none has been written. -/
theorem words_append_squeezeFrom (inRun : Bool) (xs cs : List Char)
    (outside : inRun = true → xs = []) :
    words (xs ++ squeezeFrom inRun cs) = words (xs ++ cs) := by
  induction cs generalizing xs inRun with
  | nil => rfl
  | cons c cs ih =>
    rw [squeezeFrom]
    by_cases blank : isBlank c = true
    · have behind : words (squeezeFrom true cs) = words cs := ih true [] fun _ => rfl
      rw [if_pos blank, words_append_blank blank]
      cases inRun with
      | true => rw [if_pos rfl, outside rfl, List.nil_append, behind]; rfl
      | false => rw [if_neg Bool.false_ne_true, words_append_blank (by decide), behind]
    · have regrouped := ih false (xs ++ [c]) fun run => absurd run Bool.false_ne_true
      rw [if_neg blank]
      simpa using regrouped

theorem words_squeeze (cs : List Char) : words (squeeze cs) = words cs :=
  words_append_squeezeFrom false [] cs fun _ => rfl

theorem words_trimFront (cs : List Char) : words (trimFront cs) = words cs := by
  induction cs with
  | nil => rfl
  | cons c cs ih =>
    rw [trimFront, List.dropWhile_cons]
    by_cases blank : isBlank c = true
    · rw [if_pos blank, words_cons_blank blank]
      exact ih
    · rw [if_neg blank]

theorem trimBack_eq (cs : List Char) : trimBack cs = cs.rdropWhile isBlank := rfl

theorem words_trimBack (cs : List Char) : words (trimBack cs) = words cs := by
  rw [trimBack_eq]
  induction cs using List.reverseRecOn with
  | nil => rfl
  | append_singleton cs c ih =>
    by_cases blank : isBlank c = true
    · rw [List.rdropWhile_concat_pos _ _ _ blank, words_concat_blank blank, ih]
    · rw [List.rdropWhile_concat_neg _ _ _ blank]

theorem words_normalize (cs : List Char) :
    words (normalize cs) = words (cs.filter (· != '\r')) := by
  rw [normalize, trim, words_trimBack, words_trimFront, words_squeeze, words_joinLines]

/-! ## Tidy text -/

/-- Text with single spaces inside of it as its only blanks. -/
structure IsTidy (cs : List Char) : Prop where
  spaces : ∀ c ∈ cs, isBlank c = true → c = ' '
  head : cs.head? ≠ some ' '
  last : cs.getLast? ≠ some ' '
  single : ¬ [' ', ' '] <:+: cs

theorem intercalate_append {sep : List Char} {before after : List (List Char)}
    (nonempty : before ≠ []) (nonempty' : after ≠ []) :
    sep.intercalate (before ++ after) =
      sep.intercalate before ++ (sep ++ sep.intercalate after) := by
  induction before with
  | nil => exact absurd rfl nonempty
  | cons piece before ih =>
    by_cases none : before = []
    · rw [none, List.singleton_append, List.intercalate_cons_of_ne_nil nonempty',
        List.intercalate_singleton, List.append_assoc]
    · rw [List.cons_append, List.intercalate_cons_of_ne_nil (by simp [none]), ih none,
        List.intercalate_cons_of_ne_nil none]
      simp only [List.append_assoc]

theorem splitOnP_congr {p q : Char → Bool} (same : ∀ c ∈ cs, p c = q c) :
    cs.splitOnP p = cs.splitOnP q := by
  induction cs with
  | nil => rfl
  | cons c cs ih =>
    rw [List.splitOnP_cons_eq_if_modifyHead, List.splitOnP_cons_eq_if_modifyHead,
      same c List.mem_cons_self, ih fun c mem => same c (List.mem_cons_of_mem _ mem)]

/-- A piece between spaces is empty only next to an end of the text or to another space. -/
theorem IsTidy.pieces (tidy : IsTidy cs) (nonempty : cs ≠ []) : [] ∉ cs.splitOn ' ' := by
  intro hole
  obtain ⟨before, after, split⟩ := List.append_of_mem hole
  have joined : [' '].intercalate (before ++ [] :: after) = cs := by
    rw [← split, List.intercalate_splitOn]
  by_cases first : before = [] <;> by_cases final : after = []
  · subst first final
    exact nonempty joined.symm
  · subst first
    rw [List.nil_append, List.intercalate_cons_of_ne_nil final] at joined
    exact tidy.head (by rw [← joined]; rfl)
  · subst final
    rw [intercalate_append first (List.cons_ne_nil _ _), List.intercalate_singleton] at joined
    exact tidy.last (by rw [← joined]; simp)
  · rw [intercalate_append first (List.cons_ne_nil _ _),
      List.intercalate_cons_of_ne_nil final] at joined
    refine tidy.single ⟨[' '].intercalate before, [' '].intercalate after, ?_⟩
    rw [← joined]
    simp only [List.append_assoc, List.nil_append, List.cons_append]

/-- A tidy text consists of its words with a space between them. -/
theorem IsTidy.intercalate_words (tidy : IsTidy cs) : [' '].intercalate (words cs) = cs := by
  by_cases empty : cs = []
  · rw [empty]
    rfl
  · have spaces : cs.splitOnP isBlank = cs.splitOn ' ' := by
      rw [List.splitOn_eq_splitOnP]
      refine splitOnP_congr fun c mem => Bool.eq_iff_iff.2 ?_
      rw [beq_iff_eq]
      refine ⟨tidy.spaces c mem, ?_⟩
      rintro rfl
      decide
    have whole : words cs = cs.splitOn ' ' := by
      rw [words, spaces]
      exact List.filter_eq_self.2 fun piece mem => decide_eq_true fun hole =>
        tidy.pieces empty (hole ▸ mem)
    rw [whole, List.intercalate_splitOn]

/-! ## Displayed text is tidy -/

/-- Where a space has just been written no other one follows. -/
structure Squeezed (inRun : Bool) (cs : List Char) : Prop where
  spaces : ∀ c ∈ cs, isBlank c = true → c = ' '
  head : inRun = true → cs.head? ≠ some ' '
  single : ¬ [' ', ' '] <:+: cs

theorem Squeezed.space (squeezed : Squeezed true cs) : Squeezed false (' ' :: cs) := by
  refine ⟨?_, fun run => absurd run Bool.false_ne_true, ?_⟩
  · rintro c mem blank
    rcases List.mem_cons.1 mem with rfl | mem
    · rfl
    · exact squeezed.spaces c mem blank
  · intro doubled
    rcases List.infix_cons_iff.1 doubled with front | inside
    · obtain ⟨rest, split⟩ := (List.cons_prefix_cons.1 front).2
      exact squeezed.head rfl (by rw [← split]; rfl)
    · exact squeezed.single inside

theorem Squeezed.solid (solid : isBlank c = false) (squeezed : Squeezed false cs) :
    Squeezed inRun (c :: cs) := by
  have other : c ≠ ' ' := by
    rintro rfl
    exact absurd solid (by decide)
  refine ⟨?_, fun _ => by simpa using other, ?_⟩
  · rintro d mem blank
    rcases List.mem_cons.1 mem with rfl | mem
    · rw [solid] at blank
      cases blank
    · exact squeezed.spaces d mem blank
  · intro doubled
    rcases List.infix_cons_iff.1 doubled with front | inside
    · exact other (List.cons_prefix_cons.1 front).1.symm
    · exact squeezed.single inside

theorem squeezeFrom_squeezed (inRun : Bool) (cs : List Char) :
    Squeezed inRun (squeezeFrom inRun cs) := by
  induction cs generalizing inRun with
  | nil => exact ⟨fun c mem => absurd mem List.not_mem_nil, fun _ => by simp [squeezeFrom],
      by simp [squeezeFrom]⟩
  | cons c cs ih =>
    rw [squeezeFrom]
    by_cases blank : isBlank c = true
    · rw [if_pos blank]
      cases inRun with
      | true => exact ih true
      | false => exact (ih true).space
    · rw [if_neg blank]
      exact (ih false).solid (Bool.eq_false_iff.2 blank)

theorem trim_eq (cs : List Char) : trim cs = (cs.dropWhile isBlank).rdropWhile isBlank := rfl

theorem trim_isInfix (cs : List Char) : trim cs <:+: cs := by
  have front := List.dropWhile_suffix (l := cs) isBlank
  have back := List.rdropWhile_prefix isBlank (cs.dropWhile isBlank)
  exact back.isInfix.trans front.isInfix

theorem trim_head (cs : List Char) : (trim cs).head? ≠ some ' ' := by
  intro front
  have kept : (cs.dropWhile isBlank).head? = some ' ' := by
    obtain ⟨rest, split⟩ := List.rdropWhile_prefix isBlank (cs.dropWhile isBlank)
    rw [← split, ← trim_eq, List.head?_append, front]
    rfl
  have solid := List.head?_dropWhile_not isBlank cs
  rw [kept] at solid
  exact absurd solid (by decide)

theorem trim_last (cs : List Char) : (trim cs).getLast? ≠ some ' ' := by
  intro back
  have nonempty : trim cs ≠ [] := by
    intro nothing
    rw [nothing] at back
    cases back
  have solid := List.rdropWhile_last_not isBlank (cs.dropWhile isBlank) nonempty
  rw [List.getLast?_eq_getLast_of_ne_nil nonempty] at back
  exact solid ((congrArg isBlank (Option.some.inj back)).trans (by decide))

theorem normalize_tidy (cs : List Char) : IsTidy (normalize cs) where
  spaces c mem := (squeezeFrom_squeezed false _).spaces c ((trim_isInfix _).subset mem)
  head := trim_head _
  last := trim_last _
  single doubled := (squeezeFrom_squeezed false _).single (doubled.trans (trim_isInfix _))

/-- A tidy text is displayed as it is. -/
theorem IsTidy.normalize_eq (tidy : IsTidy cs) : normalize cs = cs := by
  have unreturned : cs.filter (· != '\r') = cs := by
    refine List.filter_eq_self.2 fun c mem => bne_iff_ne.2 ?_
    rintro rfl
    exact absurd (tidy.spaces _ mem (by decide)) (by decide)
  rw [← (normalize_tidy cs).intercalate_words, words_normalize, unreturned, tidy.intercalate_words]

/-! ## Cutting -/

theorem doubled_append {xs : List Char} (spaceless : ' ' ∉ ys)
    (doubled : [' ', ' '] <:+: xs ++ ys) : [' ', ' '] <:+: xs := by
  induction xs with
  | nil => exact absurd (doubled.subset List.mem_cons_self) spaceless
  | cons x xs ih =>
    rw [List.cons_append, List.infix_cons_iff] at doubled
    rcases doubled with front | inside
    · obtain ⟨rfl, second⟩ := List.cons_prefix_cons.1 front
      cases xs with
      | nil => exact absurd (second.subset List.mem_cons_self) spaceless
      | cons y xs =>
        obtain ⟨rfl, -⟩ := List.cons_prefix_cons.1 second
        exact ⟨[], xs, rfl⟩
    · exact List.infix_cons (ih inside)

/-- Behind a cut the ellipsis keeps a space from ending the text. -/
theorem IsTidy.cut (tidy : IsTidy cs) (n : Nat) : IsTidy (cs.take n ++ ellipsis) where
  spaces c mem blank := by
    rcases List.mem_append.1 mem with kept | mark
    · exact tidy.spaces c (List.mem_of_mem_take kept) blank
    · obtain rfl : c = '.' := by simpa [ellipsis] using mark
      exact absurd blank (by decide)
  head := by
    rw [List.head?_append]
    cases cs with
    | nil => simp [ellipsis]
    | cons c cs =>
      cases n with
      | zero => simp [ellipsis]
      | succ n => exact tidy.head
  last := by simp [ellipsis]
  single doubled := by
    have kept := List.take_prefix n cs
    exact tidy.single ((doubled_append (by decide) doubled).trans kept.isInfix)

theorem truncate_short {limit : Int} (short : (normalize cs).length ≤ limit) :
    truncate cs limit = normalize cs :=
  if_neg (Int.not_lt.2 short)

theorem truncate_long {limit : Int} (long : limit < (normalize cs).length) :
    truncate cs limit = (normalize cs).take (limit - 3).toNat ++ ellipsis :=
  if_pos long

/-- Text that has been cut is tidy. -/
theorem truncate_tidy (cs : List Char) (limit : Int) : IsTidy (truncate cs limit) := by
  by_cases long : limit < (normalize cs).length
  · rw [truncate_long long]
    exact (normalize_tidy cs).cut _
  · rw [truncate_short (Int.not_lt.1 long)]
    exact normalize_tidy cs

/-- Cutting again removes nothing. -/
theorem truncate_truncate (cs : List Char) (limit : Int) :
    truncate (truncate cs limit) limit = truncate cs limit := by
  have shown : normalize (truncate cs limit) = truncate cs limit :=
    (truncate_tidy cs limit).normalize_eq
  by_cases long : limit < (normalize cs).length
  · by_cases still : limit < (normalize (truncate cs limit)).length
    · have kept : (limit - 3).toNat ≤ (normalize cs).length := by omega
      rw [truncate_long still, shown, truncate_long long, List.take_append_of_le_length]
      · rw [List.take_take, Nat.min_self]
      · rw [List.length_take, Nat.min_eq_left kept]
    · rw [truncate_short (Int.not_lt.1 still), shown]
  · rw [truncate_short (Int.not_lt.1 long), truncate_short, (normalize_tidy cs).normalize_eq]
    rw [(normalize_tidy cs).normalize_eq]
    exact Int.not_lt.1 long

theorem length_truncate (cs : List Char) (limit : Int) :
    ((truncate cs limit).length : Int) ≤ max limit 3 := by
  by_cases long : limit < (normalize cs).length
  · have mark : ellipsis.length = 3 := rfl
    rw [truncate_long long, List.length_append, List.length_take, mark]
    omega
  · rw [truncate_short (Int.not_lt.1 long)]
    omega

end Text

/-! ## Display text as a whole -/

/-- The words of a text. -/
def wordsOf (text : String) : List String := (Text.words text.toList).map String.ofList

/-- A text without its carriage returns. -/
def withoutReturns (text : String) : String := String.ofList (text.toList.filter (· != '\r'))

theorem displayText_eq (text : String) :
    displayText text = " ".intercalate (wordsOf (withoutReturns text)) := by
  apply String.toList_injective
  have tidy := (Text.normalize_tidy text.toList).intercalate_words
  rw [Text.words_normalize] at tidy
  rw [displayText, String.toList_ofList, String.toList_intercalate, wordsOf, withoutReturns,
    String.toList_ofList, List.map_map, ← tidy]
  simp [Function.comp_def]

theorem length_displayText (text : String) :
    (displayText text).length = (Text.normalize text.toList).length := by
  rw [displayText, String.length_ofList]

theorem shortText_short {text : String} {limit : Int} (short : (displayText text).length ≤ limit) :
    shortText text limit = displayText text := by
  rw [length_displayText] at short
  rw [shortText, Text.truncate_short short, displayText]

theorem shortText_long {text : String} {limit : Int} (long : limit < (displayText text).length) :
    shortText text limit =
      String.ofList ((displayText text).toList.take (limit - 3).toNat) ++ "..." := by
  rw [length_displayText] at long
  rw [shortText, Text.truncate_long long, String.ofList_append, displayText, String.toList_ofList]
  rfl

/-- Displayed text consists of the words of the text with a space between them. A text that is cut
ends in the ellipsis and is no longer than the limit, unless the ellipsis itself is, which no limit
from accepted options allows. Displaying or cutting a result again changes nothing. -/
theorem display_settles (text : String) (limit : Int) :
    displayText text = " ".intercalate (wordsOf (withoutReturns text)) ∧
    Text.IsTidy (displayText text).toList ∧
    shortText text limit =
      (if (displayText text).length ≤ limit then displayText text
        else String.ofList ((displayText text).toList.take (max (limit - 3) 0).toNat) ++ "...") ∧
    ((shortText text limit).length : Int) ≤ max limit 3 ∧
    (∀ members options, PreviewOptions.validateMembers members = .valid options →
      ((shortText text options.virtualText.maxLength).length : Int) ≤
        options.virtualText.maxLength) ∧
    displayText (displayText text) = displayText text ∧
    displayText (shortText text limit) = shortText text limit ∧
    shortText (shortText text limit) limit = shortText text limit := by
  have bounded (limit : Int) : ((shortText text limit).length : Int) ≤ max limit 3 := by
    simpa [shortText] using Text.length_truncate text.toList limit
  refine ⟨displayText_eq text, ?_, ?_, bounded limit, ?_, ?_, ?_, ?_⟩
  · simpa [displayText] using Text.normalize_tidy text.toList
  · split
    next short => exact shortText_short short
    next long =>
      have kept : (max (limit - 3) 0).toNat = (limit - 3).toNat := by omega
      rw [shortText_long (Int.not_le.1 long), kept]
  · intro members options valid
    have enough := (PreviewOptions.accepts_of_valid valid).maxLength
    have fits := bounded options.virtualText.maxLength
    omega
  · simpa [displayText] using congrArg String.ofList (Text.normalize_tidy text.toList).normalize_eq
  · simpa [displayText, shortText] using
      congrArg String.ofList (Text.truncate_tidy text.toList limit).normalize_eq
  · simpa [shortText] using congrArg String.ofList (Text.truncate_truncate text.toList limit)

/-- A cut right behind a word keeps the space after it, also under a limit from options. -/
theorem display_settles_cutBehindWord :
    let members : List (String × OptionValue) := [("virtualText", .table [("maxLength", .int 7)])]
    ∃ options, PreviewOptions.validateMembers members = .valid options ∧
      ((shortText "\tone two\r\n  three" options.virtualText.maxLength).length : Int) ≤
        options.virtualText.maxLength ∧
      shortText "\tone two\r\n  three" 7 = "one ..." := by
  intro members
  have valid : PreviewOptions.validateMembers members =
      .valid { virtualText := { maxLength := 7 } } := rfl
  obtain ⟨-, -, -, -, allowed, -⟩ := display_settles "\tone two\r\n  three" 7
  exact ⟨_, valid, allowed members _ valid, by decide +kernel⟩

end MessageLens
