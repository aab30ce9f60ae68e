import Mathlib.Data.List.DropRight
import TarnBuild.Proofs.File.System

/-!
# The directory of a file

A path that ends with a name splits before it: the pieces in front lead to the
directory in which the name stands for what the path leads to.  The parent of
the path is the same path without that name and without what says nothing
before it.  A name alone has an empty parent, although it stands in the working
directory.
-/

namespace TarnBuild

namespace Path

variable {path name piece : String} {front : List String}

/-! ## Pieces -/

theorem intercalate_pieces (path : String) : "/".intercalate (pieces path) = path := by
  have toLists : (pieces path).map String.toList = path.toList.splitOn '/' := by
    simp [pieces, Function.comp_def]
  refine String.toList_injective ?_
  rw [String.toList_intercalate, toLists]
  exact List.intercalate_splitOn '/'

theorem notMem_of_mem_splitOn
    {Item : Type} [DecidableEq Item] {mark : Item} {items part : List Item}
    (isPart : part ∈ items.splitOn mark) :
    mark ∉ part := by
  induction items generalizing part with
  | nil =>
      rw [List.splitOn_nil, List.mem_singleton] at isPart
      simp [isPart]
  | cons item rest ih =>
      rw [List.splitOn_cons_eq_if_modifyHead] at isPart
      split at isPart
      · rcases List.mem_cons.1 isPart with rfl | isLater
        · exact List.not_mem_nil
        · exact ih isLater
      · next different =>
          rcases List.exists_cons_of_ne_nil (List.splitOn_ne_nil mark rest) with
            ⟨first, others, parts⟩
          rw [parts] at isPart ih
          rcases List.mem_cons.1 isPart with rfl | isLater
          · rw [List.mem_cons, not_or]
            exact ⟨fun same => different (beq_iff_eq.2 same.symm), ih List.mem_cons_self⟩
          · exact ih (List.mem_cons_of_mem _ isLater)

theorem slash_notMem_of_mem_pieces (isPiece : piece ∈ pieces path) : '/' ∉ piece.toList := by
  rcases List.mem_map.1 isPiece with ⟨part, isPart, rfl⟩
  rw [String.toList_ofList]
  exact notMem_of_mem_splitOn isPart

theorem pieces_ne_nil (path : String) : pieces path ≠ [] := by
  simp [pieces]

/-- Texts without slashes are the pieces of the path that they make up. -/
theorem pieces_intercalate
    {parts : List String}
    (nonempty : parts ≠ [])
    (noSlash : ∀ part ∈ parts, '/' ∉ part.toList) :
    pieces ("/".intercalate parts) = parts := by
  have split : ("/".intercalate parts).toList.splitOn '/' = parts.map String.toList := by
    rw [String.toList_intercalate]
    exact List.splitOn_intercalate '/' (List.forall_mem_map.2 noSlash)
      (mt List.map_eq_nil_iff.1 nonempty)
  rw [pieces, split, List.map_map]
  simp [Function.comp_def]

theorem eq_of_pieces_eq_singleton (isAlone : pieces path = [name]) : path = name := by
  rw [← intercalate_pieces path, isAlone]
  exact String.intercalate_singleton

theorem slash_notMem_of_name (isAlone : pieces path = [name]) : '/' ∉ path.toList := by
  have isPiece : name ∈ pieces path := isAlone ▸ List.mem_singleton_self name
  exact eq_of_pieces_eq_singleton isAlone ▸ slash_notMem_of_mem_pieces isPiece

/-- Only a name alone is a path without a slash. -/
theorem slash_mem_iff_of_pieces (parts : pieces path = front ++ [name]) :
    '/' ∈ path.toList ↔ front ≠ [] := by
  constructor
  · rintro hasSlash rfl
    exact slash_notMem_of_name parts hasSlash
  · intro nonempty
    by_contra noSlash
    rw [pieces_of_notMem_slash noSlash] at parts
    have lengths := congrArg List.length parts
    have positive := List.length_pos_of_ne_nil nonempty
    simp only [List.length_append, List.length_singleton] at lengths
    omega

/-! ## Parents -/

/-- The pieces at the end that say nothing, apart from the first piece, are left out. -/
theorem exists_withoutVoidEnd_append (nonempty : front ≠ []) :
    ∃ void, front = withoutVoidEnd front ++ void ∧ withoutVoidEnd front ≠ [] ∧
      ∀ piece ∈ void, isVoid piece = true := by
  rcases List.exists_cons_of_ne_nil nonempty with ⟨first, rest, rfl⟩
  refine ⟨rest.rtakeWhile isVoid, ?_, List.cons_ne_nil _ _, fun piece => List.mem_rtakeWhile_imp⟩
  exact congrArg (first :: ·) List.rdropWhile_append_rtakeWhile.symm

theorem withoutVoidEnd_append_name (notVoid : isVoid name = false) :
    withoutVoidEnd (front ++ [name]) = front ++ [name] := by
  cases front with
  | nil => rfl
  | cons first rest =>
      simp [withoutVoidEnd, List.dropWhile_cons_of_neg, notVoid]

theorem getLast?_meaningful
    (parts : pieces path = front ++ [name])
    (notVoid : isVoid name = false) :
    (meaningful path).getLast? = some name := by
  have isLast : (front ++ [name]).getLast? = some name := List.getLast?_concat
  unfold meaningful
  rw [parts, withoutVoidEnd_append_name notVoid]
  split
  · next rest same =>
      rw [same, List.getLast?_cons] at isLast
      cases rest with
      | nil =>
          cases isLast
          cases notVoid
      | cons => exact isLast
  · exact isLast

theorem parent?_eq_of_pieces
    (parts : pieces path = front ++ [name])
    (notVoid : isVoid name = false) :
    parent? path =
      match withoutVoidEnd front with
      | [] => some ""
      | [""] => some "/"
      | kept => some ("/".intercalate kept) := by
  have notEmpty : (meaningful path).isEmpty = false := by
    rw [List.isEmpty_eq_false_iff]
    intro isEmpty
    have isLast := getLast?_meaningful parts notVoid
    rw [isEmpty] at isLast
    cases isLast
  rw [parent?, notEmpty, parts, withoutVoidEnd_append_name notVoid, List.dropLast_concat]
  rfl

/-- What stands before the name at the end of a path leads where its parent does:
the parent is the front of the path, without pieces that say nothing. -/
theorem exists_parent?_of_ne_nil
    (parts : pieces path = front ++ [name])
    (notVoid : isVoid name = false)
    (nonempty : front ≠ []) :
    ∃ parent rest kept void, parent? path = some parent ∧ parent ≠ "" ∧
      path = parent ++ rest ∧ front = kept ++ void ∧
      (∀ piece ∈ void, isVoid piece = true) ∧
      (pieces parent = kept ∨ pieces parent = kept ++ [""]) := by
  have isParent := parent?_eq_of_pieces parts notVoid
  rcases exists_withoutVoidEnd_append nonempty with ⟨void, split, keptNonempty, areVoid⟩
  generalize withoutVoidEnd front = kept at isParent split keptNonempty
  have noSlash : ∀ piece ∈ kept, '/' ∉ piece.toList := by
    intro piece isKept
    have isPiece : piece ∈ pieces path := by simp [parts, split, isKept]
    exact slash_notMem_of_mem_pieces isPiece
  have whole : path = "/".intercalate kept ++ "/" ++ "/".intercalate (void ++ [name]) := by
    rw [← intercalate_pieces path, parts, split, List.append_assoc,
      String.intercalate_append_of_ne_nil keptNonempty (by simp)]
  have keptPieces := pieces_intercalate keptNonempty noSlash
  by_cases isRoot : kept = [""]
  · subst isRoot
    exact ⟨"/", _, [""], void, isParent, by decide,
      whole.trans (congrArg (· ++ _) (by decide)), split, areVoid, .inr (by decide)⟩
  · have isKept : parent? path = some ("/".intercalate kept) := by
      rw [isParent]
      split
      · exact (keptNonempty rfl).elim
      · exact (isRoot rfl).elim
      · rfl
    refine ⟨_, _, kept, void, isKept, fun isEmpty => ?_, whole.trans (String.append_assoc ..),
      split, areVoid, .inl keptPieces⟩
    rw [isEmpty] at keptPieces
    exact isRoot (keptPieces.symm.trans (by decide))

/-- The directory that contains the file at a path: the parent of the path, or the
working directory where the parent is empty. -/
def directoryOf (path : String) : String :=
  match parent? path with
  | some parent => if parent = "" then "." else parent
  | none => "."

theorem directoryOf_of_parent? {parent : String}
    (isParent : parent? path = some parent)
    (nonempty : parent ≠ "") :
    directoryOf path = parent := by
  simp [directoryOf, isParent, nonempty]

theorem parent?_of_name (isAlone : pieces path = [name]) (notVoid : isVoid name = false) :
    parent? path = some "" := by
  have parts : pieces path = [] ++ [name] := isAlone
  exact parent?_eq_of_pieces parts notVoid

/-- A name alone stands in the working directory. -/
theorem directoryOf_of_name (isAlone : pieces path = [name]) (notVoid : isVoid name = false) :
    directoryOf path = "." := by
  simp [directoryOf, parent?_of_name isAlone notVoid]

/-- After a point and a slash, a name has two pieces. -/
theorem pieces_point_of_name (isAlone : pieces path = [name]) :
    pieces ("./" ++ path) = ["."] ++ [name] := by
  have characters : ("./" ++ path).toList = ['.'] ++ '/' :: path.toList := by simp
  rw [pieces_of_toList_eq characters, String.ofList_toList, isAlone]
  rfl

theorem isAbsolute_of_name (isAlone : pieces path = [name]) : isAbsolute path = false := by
  rw [isAbsolute, beq_eq_false_iff_ne]
  exact fun isFirst => slash_notMem_of_name isAlone (List.mem_of_mem_head? isFirst)

theorem fileName?_eq_some
    (parts : pieces path = front ++ [name])
    (notVoid : isVoid name = false)
    (notParent : name ≠ "..") :
    fileName? path = some name := by
  have notPoint : name ≠ "." := by
    rintro rfl
    cases notVoid
  simp [fileName?, getLast?_meaningful parts notVoid, notPoint, notParent]

end Path

namespace FileSystem

variable {root : Node} {links : Nat} {place reached : List String} {name : String}
  {content : ByteArray} {entries : List (String × Node)} {system : FileSystem} {path : String}

/-! ## The last name -/

/-- Above a directory there are only directories. -/
theorem exists_directory_dropLast
    (isDirectory : root.at? place = some (.directory entries)) :
    ∃ others, root.at? place.dropLast = some (.directory others) := by
  rcases List.eq_nil_or_concat place with rfl | ⟨front, last, rfl⟩
  · exact ⟨entries, isDirectory⟩
  · rw [List.concat_eq_append, Node.at?_append] at isDirectory
    rcases Option.bind_eq_some_iff.1 isDirectory with ⟨above, isAbove, leads⟩
    rw [List.concat_eq_append, List.dropLast_concat, isAbove]
    cases above with
    | directory others => exact ⟨others, rfl⟩
    | _ => cases leads

/-- One piece that leads to a file is the name of an entry of the directory in which
it is followed. -/
theorem exists_entry_of_follow_singleton
    (found : follow root links place [name] = .ok (reached, some (.file content))) :
    ∃ entries, root.at? place = some (.directory entries) ∧
      IsPlain name ∧ (entries.lookup name).isSome := by
  rw [follow] at found
  split at found
  · cases found
  · cases found
  · cases found
  · next entries isDirectory =>
      refine ⟨entries, isDirectory, ?_⟩
      split at found
      · rw [follow_nil, isDirectory] at found
        cases found
      · next notVoid =>
          split at found
          · rcases exists_directory_dropLast isDirectory with ⟨others, isAbove⟩
            rw [follow_nil, isAbove] at found
            cases found
          · next notParent =>
              split at found
              · cases found
              · next short =>
                  refine ⟨⟨by simpa using notVoid, by simpa using notParent, short⟩, ?_⟩
                  split at found
                  · cases found
                  · next isEntry => simp [isEntry]
                  · next isEntry => simp [isEntry]

/-! ## The directory before the last name -/

/-- A path that leads to a file ends with the name of an entry of a directory, and the
pieces before that name lead to the directory. -/
theorem exists_entry_of_find
    (found : system.find path = .ok (reached, some (.file content))) :
    ∃ front name place entries,
      Path.pieces path = front ++ [name] ∧ IsPlain name ∧ (entries.lookup name).isSome ∧
        system.followFrom path front = .ok (place, some (.directory entries)) := by
  rcases followFrom_eq_ok_iff.1 found with ⟨noNul, nonempty, short, followed⟩
  have parts := List.dropLast_concat_getLast (Path.pieces_ne_nil path)
  rw [← parts] at followed
  rcases followedApart followed with ⟨linksLeft, place, sameAs, followedName⟩
  rcases exists_entry_of_follow_singleton followedName with
    ⟨entries, isDirectory, isPlain, isEntry⟩
  refine ⟨_, _, place, entries, parts.symm, isPlain, isEntry,
    followFrom_eq_ok_iff.2 ⟨noNul, nonempty, short, ?_⟩⟩
  have followedFront := sameAs []
  rwa [List.append_nil, follow_nil, isDirectory] at followedFront

/-- The point leads to the working directory. -/
theorem find_point
    (isDirectory : system.root.at? system.workingDirectory = some (.directory entries)) :
    system.find "." = .ok (system.workingDirectory, some (.directory entries)) := by
  have pieces : Path.pieces "." = ["."] := by decide
  have notAbsolute : Path.isAbsolute "." = false := by decide
  refine followFrom_eq_ok_iff.2 ⟨by decide, by decide, by decide, ?_⟩
  rw [pieces, notAbsolute, if_neg Bool.false_ne_true,
    follow_cons_void isDirectory (by decide), follow_nil, isDirectory]

/-- A directory that a front of a path leads to is found by a path with the same
pieces, apart from some that say nothing. -/
theorem find_of_followFrom
    {front kept void : List String} {parent rest : String}
    (followed : system.followFrom path front = .ok (place, some (.directory entries)))
    (nonempty : parent ≠ "")
    (isFront : path = parent ++ rest)
    (split : front = kept ++ void)
    (areVoid : ∀ piece ∈ void, Path.isVoid piece = true)
    (ending : Path.pieces parent = kept ∨ Path.pieces parent = kept ++ [""]) :
    system.find parent = .ok (place, some (.directory entries)) := by
  rcases followFrom_eq_ok_iff.1 followed with ⟨noNul, _, short, followed⟩
  rw [split] at followed
  rcases exists_follow_append_of_void areVoid followed with ⟨linksLeft, sameAs, isDirectory⟩
  have sameStart : Path.isAbsolute path = Path.isAbsolute parent := by
    rcases List.exists_cons_of_ne_nil (by simpa using nonempty : parent.toList ≠ []) with
      ⟨first, others, characters⟩
    simp [Path.isAbsolute, isFront, characters]
  refine followFrom_eq_ok_iff.2 ⟨fun hasNul => noNul ?_, nonempty, fun long => short ?_, ?_⟩
  · simp [isFront, hasNul]
  · rw [isFront, String.utf8ByteSize_append]
    omega
  · rw [← sameStart]
    rcases ending with same | same
    · rw [same, ← List.append_nil kept, sameAs, follow_nil, isDirectory]
    · rw [same, sameAs, follow_cons_void isDirectory (by decide), follow_nil, isDirectory]

theorem isFile_eq_true_iff :
    system.isFile path = true ↔
      ∃ reached content, system.find path = .ok (reached, some (.file content)) := by
  unfold isFile node?
  cases system.find path with
  | error fault => simp
  | ok result =>
      rcases result with ⟨reached, _ | node⟩
      · simp
      · cases node <;> simp

/-- The directory that contains the file at a path is found by its own path. -/
theorem exists_find_directoryOf
    (leads : system.isFile path = true) :
    ∃ front name place entries,
      Path.pieces path = front ++ [name] ∧ IsPlain name ∧ (entries.lookup name).isSome ∧
        system.find (Path.directoryOf path) = .ok (place, some (.directory entries)) := by
  rcases isFile_eq_true_iff.1 leads with ⟨reached, content, found⟩
  rcases exists_entry_of_find found with
    ⟨front, name, place, entries, parts, isPlain, isEntry, followed⟩
  refine ⟨front, name, place, entries, parts, isPlain, isEntry, ?_⟩
  by_cases isBare : front = []
  · subst isBare
    rw [Path.directoryOf_of_name parts isPlain.1]
    rcases followFrom_eq_ok_iff.1 followed with ⟨_, _, _, followed⟩
    have notAbsolute := Path.isAbsolute_of_name parts
    rw [notAbsolute, if_neg Bool.false_ne_true, follow_nil] at followed
    rcases Prod.mk.inj (Except.ok.inj followed) with ⟨rfl, isDirectory⟩
    exact find_point isDirectory
  · rcases Path.exists_parent?_of_ne_nil parts isPlain.1 isBare with
      ⟨parent, rest, kept, void, isParent, nonempty, isFront, split, areVoid, ending⟩
    rw [Path.directoryOf_of_parent? isParent nonempty]
    exact find_of_followFrom followed nonempty isFront split areVoid ending

/-! ## One more name -/

/-- Where a path leads to a directory, that path joined with a name leads to what the
name stands for there, or to nothing, unless it is too long. -/
theorem find_join_of_lookup
    (found : system.find path = .ok (reached, some (.directory entries)))
    (isName : Node.IsName name)
    (notLink : ∀ target, entries.lookup name ≠ some (.link target)) :
    system.find (Path.join path name) =
      if pathLimit < (Path.join path name).utf8ByteSize then
        .error .nameTooLong
      else
        .ok (reached ++ [name], entries.lookup name) := by
  rcases followFrom_eq_ok_iff.1 found with ⟨noNul, nonempty, _, followed⟩
  have joinedNoNul : '\x00' ∉ (Path.join path name).toList := by
    rw [Path.mem_toList_join nonempty (by decide)]
    exact not_or.2 ⟨noNul, isName.noNul⟩
  have isPlain := isPlain_of_isName isName
  rcases Path.exists_pieces_join nonempty isName.noSlash with ⟨front, ending, pieces⟩
  rcases exists_follow_append_of_end ending followed with ⟨linksLeft, sameAs, isDirectory⟩
  rw [find_eq_follow joinedNoNul (Path.join_ne_empty nonempty name),
    Path.isAbsolute_join nonempty, pieces, sameAs]
  congr 1
  cases isEntry : entries.lookup name with
  | none =>
      rw [follow]
      simp [isDirectory, isPlain.1, isPlain.2, isEntry]
  | some node =>
      have next : system.root.at? (reached ++ [name]) = some node := by
        rw [Node.at?_append, isDirectory, Option.bind_some, Node.at?, isEntry]
        rfl
      rw [follow_cons_entry isDirectory isPlain isEntry
        fun target isLink => notLink target (isLink ▸ isEntry), follow_nil, next]

/-- The point before the name of a file makes no difference. -/
theorem find_point_of_name
    (isAlone : Path.pieces path = [name])
    (leads : system.isFile path = true) :
    system.find ("./" ++ path) = system.find path := by
  rcases isFile_eq_true_iff.1 leads with ⟨reached, content, found⟩
  rcases followFrom_eq_ok_iff.1 found with ⟨noNul, _, _, followed⟩
  have notAbsolute := Path.isAbsolute_of_name isAlone
  rw [isAlone, notAbsolute, if_neg Bool.false_ne_true] at followed
  rcases exists_entry_of_follow_singleton followed with ⟨entries, isDirectory, isPlain, _⟩
  have isName : path = name := Path.eq_of_pieces_eq_singleton isAlone
  rw [found]
  refine followFrom_eq_ok_iff.2 ⟨?_, ?_, ?_, ?_⟩
  · simpa using noNul
  · exact mt (congrArg String.toList) (by simp)
  · have short := isPlain.2.2
    have pointSize : "./".utf8ByteSize = 2 := by decide
    rw [String.utf8ByteSize_append, pointSize, isName]
    unfold nameLimit at short
    unfold pathLimit
    omega
  · have stillNotAbsolute : Path.isAbsolute ("./" ++ path) = false := by
      simp [Path.isAbsolute]
    rw [stillNotAbsolute, if_neg Bool.false_ne_true, Path.pieces_point_of_name isAlone,
      List.singleton_append, follow_cons_void isDirectory (by decide), followed]

end FileSystem

end TarnBuild
