import Mathlib.Data.List.TakeWhile
import TarnBuild.File.Path
import TarnBuild.Proofs.Text.Bytes

/-!
# Names in paths

A path that is joined with names has the pieces of the path and then the names.
Only a slash at the end of the path makes a difference: the empty piece after
it gives way to the first name.  So joined paths are ordered as the names that
are joined.  A name itself is a stem, a point and an extension without points,
unless nothing stands before its last point.
-/

namespace TarnBuild.Path

variable {path name : String} {names : List String}

/-! ## Pieces -/

/-- A slash separates the pieces before it from those after it. -/
theorem pieces_of_toList_eq
    {first second : List Char}
    (parts : path.toList = first ++ '/' :: second) :
    pieces path = pieces (String.ofList first) ++ pieces (String.ofList second) := by
  simp only [pieces, List.splitOn, parts, String.toList_ofList]
  rw [List.splitOnP_append_cons (p := (· == '/')) _ _ rfl, List.map_append]

theorem pieces_of_notMem_slash (noSlash : '/' ∉ name.toList) : pieces name = [name] := by
  have whole : name.toList.splitOnP (· == '/') = [name.toList] := by
    refine List.splitOnP_eq_singleton fun character isMember => ?_
    simp only [beq_eq_false_iff_ne]
    rintro rfl
    exact noSlash isMember
  rw [pieces, List.splitOn, whole, List.map_singleton, String.ofList_toList]

/-! ## Joined paths -/

/-- What is joined to a path comes after the slash at its end, or else after a
new one. -/
theorem join_cases (nonempty : path ≠ "") (name : String) :
    (∃ front, path.toList = front ++ ['/'] ∧
        (join path name).toList = front ++ '/' :: name.toList) ∨
      (join path name).toList = path.toList ++ '/' :: name.toList := by
  unfold join
  rw [if_neg (by simpa using nonempty)]
  split
  · next endsWithSlash =>
      rcases List.getLast?_eq_some_iff.1 (by simpa using endsWithSlash) with ⟨front, same⟩
      exact .inl ⟨front, same, by simp [same]⟩
  · exact .inr (by simp)

theorem join_ne_empty (nonempty : path ≠ "") (name : String) : join path name ≠ "" := by
  intro isEmpty
  rcases join_cases nonempty name with ⟨_, _, joined⟩ | joined <;> simp [isEmpty] at joined

/-- A joined path starts where the path does. -/
theorem isAbsolute_join (nonempty : path ≠ "") (name : String) :
    isAbsolute (join path name) = isAbsolute path := by
  unfold isAbsolute
  rcases join_cases nonempty name with ⟨front, parts, joined⟩ | joined
  · rw [parts, joined]
    cases front <;> rfl
  · rcases List.exists_cons_of_ne_nil (by simpa using nonempty : path.toList ≠ []) with
      ⟨first, rest, same⟩
    rw [joined, same]
    rfl

theorem mem_toList_join
    {character : Char}
    (nonempty : path ≠ "")
    (notSlash : character ≠ '/') :
    character ∈ (join path name).toList ↔
      character ∈ path.toList ∨ character ∈ name.toList := by
  rcases join_cases nonempty name with ⟨front, parts, joined⟩ | joined
  · simp [parts, joined, notSlash]
  · simp [joined, notSlash]

/-! A path that is joined with names one after the other is like the path where
joining keeps what is said of it. -/

theorem foldl_join_ne_empty (nonempty : path ≠ "") (names : List String) :
    names.foldl join path ≠ "" := by
  induction names generalizing path with
  | nil => exact nonempty
  | cons name names ih => exact ih (join_ne_empty nonempty name)

theorem isAbsolute_foldl_join (nonempty : path ≠ "") (names : List String) :
    isAbsolute (names.foldl join path) = isAbsolute path := by
  induction names generalizing path with
  | nil => rfl
  | cons name names ih =>
      rw [List.foldl_cons, ih (join_ne_empty nonempty name), isAbsolute_join nonempty]

theorem mem_toList_foldl_join
    {character : Char}
    (nonempty : path ≠ "")
    (notSlash : character ≠ '/')
    (names : List String) :
    character ∈ (names.foldl join path).toList ↔
      character ∈ path.toList ∨ ∃ name ∈ names, character ∈ name.toList := by
  induction names generalizing path with
  | nil => simp
  | cons name names ih =>
      rw [List.foldl_cons, ih (join_ne_empty nonempty name), mem_toList_join nonempty notSlash]
      simp [or_assoc]

/-- The name takes the place of the empty piece after a slash at the end. -/
theorem exists_pieces_join (nonempty : path ≠ "") (noSlash : '/' ∉ name.toList) :
    ∃ front, (pieces path = front ∨ pieces path = front ++ [""]) ∧
      pieces (join path name) = front ++ [name] := by
  rcases join_cases nonempty name with ⟨front, parts, joined⟩ | joined
  · refine ⟨pieces (String.ofList front), .inr ?_, ?_⟩
    · rw [pieces_of_toList_eq parts]
      rfl
    · rw [pieces_of_toList_eq joined, String.ofList_toList, pieces_of_notMem_slash noSlash]
  · refine ⟨pieces path, .inl rfl, ?_⟩
    rw [pieces_of_toList_eq joined, String.ofList_toList, String.ofList_toList,
      pieces_of_notMem_slash noSlash]

/-- After a first name the further ones are put at the end. -/
theorem pieces_foldl_join
    {front : List String}
    (nonempty : path ≠ "")
    (endsWithName : pieces path = front ++ [name])
    (isName : name ≠ "")
    (areNames : ∀ other ∈ names, other ≠ "" ∧ '/' ∉ other.toList) :
    pieces (names.foldl join path) = pieces path ++ names := by
  induction names generalizing path name front with
  | nil => simp
  | cons other names ih =>
      rcases List.forall_mem_cons.1 areNames with ⟨⟨otherNonempty, noSlash⟩, areOthers⟩
      have joined : pieces (join path other) = pieces path ++ [other] := by
        rcases exists_pieces_join nonempty noSlash with ⟨kept, same | emptyEnd, joined⟩
        · rw [joined, same]
        · rw [endsWithName] at emptyEnd
          exact (isName (by simpa using congrArg List.getLast? emptyEnd)).elim
      rw [List.foldl_cons, ih (join_ne_empty nonempty other) joined otherNonempty areOthers,
        joined, List.append_assoc]
      rfl

theorem exists_pieces_foldl_join
    (nonempty : path ≠ "")
    (isName : name ≠ "" ∧ '/' ∉ name.toList)
    (areNames : ∀ other ∈ names, other ≠ "" ∧ '/' ∉ other.toList) :
    ∃ front, (pieces path = front ∨ pieces path = front ++ [""]) ∧
      pieces ((name :: names).foldl join path) = front ++ name :: names := by
  rcases exists_pieces_join nonempty isName.2 with ⟨front, pathPieces, joined⟩
  refine ⟨front, pathPieces, ?_⟩
  rw [List.foldl_cons, pieces_foldl_join (join_ne_empty nonempty name) joined isName.1 areNames,
    joined, List.append_assoc]
  rfl

/-! ## Stems and extensions -/

theorem ne_point_of_notMem {text : List Char} (noPoint : '.' ∉ text) :
    ∀ character ∈ text, (character != '.') = true := by
  intro character isMember
  rw [bne_iff_ne]
  rintro rfl
  exact noPoint isMember

theorem splitName_of_toList_eq
    {before after : List Char}
    (parts : name.toList = before ++ '.' :: after)
    (isLast : '.' ∉ after) :
    splitName name =
      if before.isEmpty then (name, none)
      else (String.ofList before, some (String.ofList after)) := by
  have reversed : name.toList.reverse = after.reverse ++ '.' :: before.reverse := by simp [parts]
  have notPoint := ne_point_of_notMem (mt List.mem_reverse.1 isLast)
  unfold splitName
  rw [reversed]
  dsimp only
  rw [List.takeWhile_append_of_pos notPoint, List.dropWhile_append_of_pos notPoint,
    List.takeWhile_cons_of_neg (by simp), List.dropWhile_cons_of_neg (by simp)]
  simp

/-- A name is split at its last point, unless that stands at the front. -/
theorem splitName_eq_iff {stem extension : String} :
    splitName name = (stem, some extension) ↔
      stem ≠ "" ∧ '.' ∉ extension.toList ∧ name = stem ++ "." ++ extension := by
  constructor
  · intro parts
    by_cases hasPoint : '.' ∈ name.toList
    · rcases List.eq_append_cons_of_mem (List.mem_reverse.2 hasPoint) with
        ⟨after, before, reversed, isLast⟩
      have whole : name.toList = before.reverse ++ '.' :: after.reverse := by
        simpa using congrArg List.reverse reversed
      rw [splitName_of_toList_eq whole (by simpa using isLast)] at parts
      split_ifs at parts with isFront
      · cases parts
      · rcases Prod.mk.inj parts with ⟨rfl, isExtension⟩
        rcases Option.some.inj isExtension with rfl
        refine ⟨by simpa using isFront, by simpa using isLast, ?_⟩
        exact String.toList_injective (by simp [whole])
    · have noPoint := ne_point_of_notMem (mt List.mem_reverse.1 hasPoint)
      simp [splitName, List.dropWhile_eq_nil_iff.2 noPoint] at parts
  · rintro ⟨nonempty, noPoint, rfl⟩
    have whole : (stem ++ "." ++ extension).toList = stem.toList ++ '.' :: extension.toList := by
      simp
    rw [splitName_of_toList_eq whole noPoint, if_neg (by simpa using nonempty)]
    simp

/-- A name is its stem and its extension with a point between them, where the
stem is not empty. -/
theorem extension?_eq_some_iff {extension : String} :
    extension? name = some extension ↔
      stem name ≠ "" ∧ '.' ∉ extension.toList ∧ name = stem name ++ "." ++ extension := by
  rw [← splitName_eq_iff, Prod.ext_iff]
  exact (and_iff_right rfl).symm

/-! ## The order of paths -/

/-- The names in a path, without the pieces that say nothing. -/
def components (path : String) : List String :=
  (pieces path).filter fun piece => !isVoid piece

/-- The names below a path are its last components. -/
theorem components_foldl_join
    (nonempty : path ≠ "")
    (areNames : ∀ name ∈ names, isVoid name = false ∧ '/' ∉ name.toList) :
    components (names.foldl join path) = components path ++ names := by
  cases names with
  | nil => simp
  | cons name rest =>
      have arePieces : ∀ other ∈ name :: rest, other ≠ "" ∧ '/' ∉ other.toList := by
        intro other isMember
        rcases areNames other isMember with ⟨notVoid, noSlash⟩
        refine ⟨?_, noSlash⟩
        rintro rfl
        cases notVoid
      rcases List.forall_mem_cons.1 arePieces with ⟨isPiece, restPieces⟩
      rcases exists_pieces_foldl_join nonempty isPiece restPieces with ⟨front, ending, joined⟩
      have kept : (name :: rest).filter (fun piece => !isVoid piece) = name :: rest :=
        List.filter_eq_self.2 fun other isMember => by simp [(areNames other isMember).1]
      have frontKept : components path = front.filter fun piece => !isVoid piece := by
        rcases ending with same | same
        · rw [components, same]
        · rw [components, same, List.filter_append]
          exact List.append_nil _
      rw [components, joined, List.filter_append, kept, frontKept]

/-- One path comes before another when their names do, compared one by one by
their bytes. -/
def Precedes (first second : String) : Prop :=
  (components first).map Text.bytes < (components second).map Text.bytes

/-- Paths below one directory are ordered as the names are that lead there. -/
theorem precedes_foldl_join
    {others : List String}
    (nonempty : path ≠ "")
    (areNames : ∀ name ∈ names, isVoid name = false ∧ '/' ∉ name.toList)
    (areOthers : ∀ name ∈ others, isVoid name = false ∧ '/' ∉ name.toList)
    (less : names < others) :
    Precedes (names.foldl join path) (others.foldl join path) := by
  rw [Precedes, Text.map_bytes_lt_map_bytes_iff, components_foldl_join nonempty areNames,
    components_foldl_join nonempty areOthers]
  exact List.append_left_lt less

end TarnBuild.Path
