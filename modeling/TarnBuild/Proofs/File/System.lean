import TarnBuild.File.System
import TarnBuild.Proofs.File.Path
import TarnBuild.Proofs.Listing

/-!
# Files below a directory

A disk holds trees in which each directory gives each of its entries a name of
its own.  In such a tree the names that lead to files are found by the walk
over it, each once and in the order of their names, and a file that is found can
be read by the path of the directory, joined with these names.
-/

namespace TarnBuild

/-! ## Trees -/

namespace Node

/-- What can be the name of an entry of a directory. -/
structure IsName (name : String) : Prop where
  nonempty : name ≠ ""
  notPoint : name ≠ "."
  notPoints : name ≠ ".."
  noSlash : '/' ∉ name.toList
  noNul : '\x00' ∉ name.toList
  short : name.utf8ByteSize ≤ FileSystem.nameLimit

/-- A node as a disk holds it: the entries of each directory have names, and no
two of them have the same. -/
inductive IsTree : Node → Prop where
  | file (content : ByteArray) : IsTree (file content)
  | link (target : String) : IsTree (link target)
  | directory (entries : List (String × Node))
      (distinct : (entries.map Prod.fst).Nodup)
      (named : ∀ entry ∈ entries, IsName entry.1)
      (trees : ∀ entry ∈ entries, IsTree entry.2) :
      IsTree (directory entries)

variable {node below : Node} {names : List String} {entries : List (String × Node)}

theorem at?_append (node : Node) (first second : List String) :
    node.at? (first ++ second) = (node.at? first).bind (·.at? second) := by
  fun_induction at? node first with
  | case1 node => rfl
  | case2 name rest entries inner found ih => simpa [at?, found] using ih
  | case3 name rest entries missing => simp [at?, missing]
  | case4 => simp [at?]

/-- What lies in a tree is a tree, and only names lead to it. -/
theorem IsTree.at?
    (isTree : node.IsTree)
    (found : node.at? names = some below) :
    below.IsTree ∧ ∀ name ∈ names, IsName name := by
  induction isTree generalizing names with
  | file content =>
      cases names with
      | nil =>
          cases found
          exact ⟨.file content, nofun⟩
      | cons => cases found
  | link target =>
      cases names with
      | nil =>
          cases found
          exact ⟨.link target, nofun⟩
      | cons => cases found
  | directory entries distinct named trees ih =>
      cases names with
      | nil =>
          cases found
          exact ⟨.directory entries distinct named trees, nofun⟩
      | cons name rest =>
          rw [Node.at?] at found
          split at found
          · next inner isEntry =>
              have isMember := (lookup_eq_some_iff_mem distinct).1 isEntry
              rcases ih _ isMember found with ⟨isBelowTree, areNames⟩
              exact ⟨isBelowTree, List.forall_mem_cons.2 ⟨named _ isMember, areNames⟩⟩
          · cases found

/-! ## The files of a tree -/

/-- The files that a node is or holds, each as the list of names that leads to
it. -/
def leaves : Node → List (List String)
  | file _ => [[]]
  | node => node.files

@[simp]
theorem leaves_directory (entries : List (String × Node)) :
    (directory entries).leaves = (directory entries).files :=
  rfl

theorem filesOfEntries_eq (entries : List (String × Node)) :
    filesOfEntries entries =
      entries.map fun entry => (entry.1, entry.2.leaves.map (entry.1 :: ·)) := by
  induction entries with
  | nil => rfl
  | cons entry rest ih =>
      rcases entry with ⟨name, node⟩
      cases node <;> simp [filesOfEntries, leaves, ih]

/-- The entries of a directory in the order of their names. -/
def byName (entries : List (String × Node)) : List (String × Node) :=
  entries.mergeSort fun first second => decide (first.1 ≤ second.1)

theorem byName_perm (entries : List (String × Node)) : (byName entries).Perm entries :=
  List.mergeSort_perm entries _

theorem pairwise_byName (distinct : (entries.map Prod.fst).Nodup) :
    (byName entries).Pairwise fun first second => first.1 < second.1 := by
  have apart : (byName entries).Pairwise fun first second => first.1 ≠ second.1 :=
    List.pairwise_map.1 (((byName_perm entries).map Prod.fst).nodup_iff.2 distinct)
  exact ((pairwise_mergeSort_key Prod.fst entries).and apart).imp fun both =>
    Std.lt_of_le_of_ne both.1 both.2

/-- The walk over a directory goes through its entries in the order of their names. -/
theorem files_directory_eq (entries : List (String × Node)) :
    (directory entries).files =
      (byName entries).flatMap fun entry => entry.2.leaves.map (entry.1 :: ·) := by
  have sorted := List.map_mergeSort
    (r := fun first second : String × Node => decide (first.1 ≤ second.1))
    (s := fun first second : String × List (List String) => decide (first.1 ≤ second.1))
    (f := fun entry => (entry.1, entry.2.leaves.map (entry.1 :: ·)))
    (l := entries) fun _ _ _ _ => rfl
  rw [files, filesOfEntries_eq, ← sorted, List.flatMap_map, byName]

theorem files_directory_perm (entries : List (String × Node)) :
    (directory entries).files.Perm
      (entries.flatMap fun entry => entry.2.leaves.map (entry.1 :: ·)) := by
  rw [files_directory_eq]
  exact (byName_perm entries).flatMap_right _

@[simp]
theorem leaves_file (content : ByteArray) : (file content).leaves = [[]] :=
  rfl

@[simp]
theorem leaves_link (target : String) : (link target).leaves = [] := by
  simp [leaves, files]

theorem mem_files_directory :
    names ∈ (directory entries).files ↔
      ∃ entry ∈ entries, ∃ rest ∈ entry.2.leaves, entry.1 :: rest = names := by
  simp [(files_directory_perm entries).mem_iff]

/-- The walk over a tree finds exactly the names that lead to files. -/
theorem IsTree.mem_leaves_iff (isTree : node.IsTree) :
    names ∈ node.leaves ↔ ∃ content, node.at? names = some (.file content) := by
  induction isTree generalizing names with
  | file content => cases names <;> simp [Node.at?]
  | link target => cases names <;> simp [Node.at?]
  | directory entries distinct named trees ih =>
      rw [leaves_directory, mem_files_directory]
      constructor
      · rintro ⟨⟨name, inner⟩, isEntry, rest, isInner, rfl⟩
        have found := (lookup_eq_some_iff_mem distinct).2 isEntry
        simpa [Node.at?, found] using (ih _ isEntry).1 isInner
      · rintro ⟨content, found⟩
        cases names with
        | nil => cases found
        | cons name rest =>
            rw [Node.at?] at found
            split at found
            · next inner isFound =>
                have isEntry := (lookup_eq_some_iff_mem distinct).1 isFound
                exact ⟨_, isEntry, rest, (ih _ isEntry).2 ⟨content, found⟩, rfl⟩
            · cases found

/-- The walk over a tree comes to the files in the order of their names, compared
one by one. -/
theorem IsTree.pairwise_leaves (isTree : node.IsTree) : node.leaves.Pairwise (· < ·) := by
  induction isTree with
  | file content => simp
  | link target => simp
  | directory entries distinct named trees ih =>
      rw [leaves_directory, files_directory_eq, List.pairwise_flatMap]
      constructor
      · intro entry isEntry
        rw [List.pairwise_map]
        refine (ih entry ((byName_perm entries).mem_iff.1 isEntry)).imp fun less => ?_
        exact List.cons_lt_cons_iff.2 (.inr ⟨rfl, less⟩)
      · refine (pairwise_byName distinct).imp fun less names isFirst others isSecond => ?_
        rcases List.mem_map.1 isFirst with ⟨_, _, rfl⟩
        rcases List.mem_map.1 isSecond with ⟨_, _, rfl⟩
        exact List.cons_lt_cons_iff.2 (.inl less)

theorem IsTree.nodup_leaves (isTree : node.IsTree) : node.leaves.Nodup := by
  refine isTree.pairwise_leaves.imp fun less same => ?_
  rw [same] at less
  exact List.lt_irrefl _ less

end Node

namespace FileSystem

variable {root node : Node} {links : Nat} {place names reached : List String}
  {name : String} {entries : List (String × Node)}

/-! ## Following names -/

/-- A name stands for an entry of the directory in which it is followed. -/
def IsPlain (name : String) : Prop :=
  Path.isVoid name = false ∧ name ≠ ".." ∧ ¬ nameLimit < name.utf8ByteSize

theorem isPlain_of_isName (isName : Node.IsName name) : IsPlain name :=
  ⟨by simp [Path.isVoid, isName.nonempty, isName.notPoint], isName.notPoints,
    Nat.not_lt.2 isName.short⟩

@[simp]
theorem follow_nil (root : Node) (links : Nat) (place : List String) :
    follow root links place [] = .ok (place, root.at? place) := by
  rw [follow]

theorem follow_cons_void
    (isDirectory : root.at? place = some (.directory entries))
    (isVoid : Path.isVoid name = true)
    (rest : List String) :
    follow root links place (name :: rest) = follow root links place rest := by
  rw [follow]
  simp [isDirectory, isVoid]

theorem follow_cons_parent
    (isDirectory : root.at? place = some (.directory entries))
    (rest : List String) :
    follow root links place (".." :: rest) = follow root links place.dropLast rest := by
  rw [follow]
  simp [isDirectory, Path.isVoid]

theorem follow_cons_link
    {target : String}
    (isDirectory : root.at? place = some (.directory entries))
    (isPlain : IsPlain name)
    (isLink : entries.lookup name = some (.link target))
    (rest : List String) :
    follow root (links + 1) place (name :: rest) =
      follow root links (if Path.isAbsolute target then [] else place)
        (Path.pieces target ++ rest) := by
  rw [follow]
  simp [isDirectory, isPlain.1, isPlain.2, isLink]

theorem follow_cons_entry
    (isDirectory : root.at? place = some (.directory entries))
    (isPlain : IsPlain name)
    (isEntry : entries.lookup name = some node)
    (notLink : ∀ target, node ≠ .link target)
    (rest : List String) :
    follow root links place (name :: rest) =
      follow root links (place ++ [name]) rest := by
  rw [follow]
  cases node with
  | link target => exact (notLink target rfl).elim
  | _ => simp [isDirectory, isPlain.1, isPlain.2, isEntry]

/-- Names that lead to a node are followed in two parts: first some of them to
a place on the way, as before any others, and then the rest from there. -/
def FollowedApart (root : Node) (links : Nat) (place first second : List String)
    (reached : List String) (node : Node) : Prop :=
  ∃ linksLeft middle,
    (∀ more, follow root links place (first ++ more) =
      follow root linksLeft middle more) ∧
    follow root linksLeft middle second = .ok (reached, some node)

/-- Where the first name gives way to other names from another place, it is
followed apart if what takes its place is. -/
theorem followedApart_of_step
    {first second rest next : List String} {linksNext : Nat}
    (before : List String)
    (step : ∀ more, follow root links place (name :: more) =
      follow root linksNext next (before ++ more))
    (apart : ∀ front, front ++ second = before ++ rest →
      follow root linksNext next (before ++ rest) = .ok (reached, some node) →
      FollowedApart root linksNext next front second reached node)
    (parts : first ++ second = name :: rest)
    (found : follow root links place (name :: rest) = .ok (reached, some node)) :
    FollowedApart root links place first second reached node := by
  rcases List.append_eq_cons_iff.1 parts with ⟨rfl, rfl⟩ | ⟨front, rfl, rfl⟩
  · exact ⟨links, place, fun _ => rfl, found⟩
  · rw [step] at found
    rcases apart (before ++ front) (List.append_assoc ..) found with
      ⟨linksLeft, middle, sameAs, foundSecond⟩
    refine ⟨linksLeft, middle, fun more => ?_, foundSecond⟩
    rw [List.cons_append, step, ← List.append_assoc, sameAs]

theorem followedApart
    {first second : List String}
    (found : follow root links place (first ++ second) = .ok (reached, some node)) :
    FollowedApart root links place first second reached node := by
  generalize parts : first ++ second = all at found
  induction links, place, all using follow.induct root generalizing first with
  | case1 links place =>
      rcases List.append_eq_nil_iff.1 parts with ⟨rfl, rfl⟩
      exact ⟨links, place, fun _ => rfl, found⟩
  | case5 links place name rest entries isDirectory isVoid ih =>
      exact followedApart_of_step [] (follow_cons_void isDirectory isVoid)
        (fun _ => ih) parts found
  | case6 links place name rest entries isDirectory notVoid isParent ih =>
      cases eq_of_beq isParent
      exact followedApart_of_step [] (follow_cons_parent isDirectory) (fun _ => ih) parts found
  | case11 place name rest entries isDirectory notVoid notParent short target isLink links ih =>
      have isPlain : IsPlain name :=
        ⟨by simpa using notVoid, by simpa using notParent, short⟩
      exact followedApart_of_step _ (follow_cons_link isDirectory isPlain isLink)
        (fun _ => ih) parts found
  | case12 links place name rest entries isDirectory notVoid notParent short inner notLink
      isEntry ih =>
      have isPlain : IsPlain name :=
        ⟨by simpa using notVoid, by simpa using notParent, short⟩
      exact followedApart_of_step [] (follow_cons_entry isDirectory isPlain isEntry notLink)
        (fun _ => ih) parts found
  | _ =>
      -- Names that stop on the way do not lead to a node.
      rw [follow] at found
      simp [*] at found

/-- What says nothing leads from a node only to itself. -/
theorem eq_of_follow_void
    {void : List String}
    (areVoid : ∀ piece ∈ void, Path.isVoid piece = true)
    (found : follow root links place void = .ok (reached, some node)) :
    place = reached ∧ root.at? reached = some node := by
  induction void with
  | nil =>
      rw [follow_nil] at found
      rcases Prod.mk.inj (Except.ok.inj found) with ⟨rfl, isNode⟩
      exact ⟨rfl, isNode⟩
  | cons piece void ih =>
      rcases List.forall_mem_cons.1 areVoid with ⟨isVoid, areVoid⟩
      rw [follow] at found
      split at found
      · cases found
      · cases found
      · cases found
      · simp only [isVoid, if_true] at found
        exact ih areVoid found

/-- What says nothing at the end makes no difference to what is followed to a
node. -/
theorem exists_follow_append_of_void
    {front void : List String}
    (areVoid : ∀ piece ∈ void, Path.isVoid piece = true)
    (found : follow root links place (front ++ void) = .ok (reached, some node)) :
    ∃ linksLeft,
      (∀ more, follow root links place (front ++ more) =
        follow root linksLeft reached more) ∧
      root.at? reached = some node := by
  rcases followedApart found with ⟨linksLeft, middle, sameAs, foundVoid⟩
  rcases eq_of_follow_void areVoid foundVoid with ⟨rfl, isNode⟩
  exact ⟨linksLeft, sameAs, isNode⟩

/-- A slash at the end makes no difference to what is followed to a node. -/
theorem exists_follow_append_of_end
    {front : List String}
    (ending : names = front ∨ names = front ++ [""])
    (found : follow root links place names = .ok (reached, some node)) :
    ∃ linksLeft,
      (∀ more, follow root links place (front ++ more) =
        follow root linksLeft reached more) ∧
      root.at? reached = some node := by
  rcases ending with rfl | rfl
  · have noVoid : ∀ piece ∈ ([] : List String), Path.isVoid piece = true := nofun
    rw [← List.append_nil names] at found
    exact exists_follow_append_of_void noVoid found
  · exact exists_follow_append_of_void (by simp [Path.isVoid]) found

/-- Names that lead to a file without links are followed to it. -/
theorem follow_of_at?
    {content : ByteArray}
    (isTree : root.IsTree)
    (starts : root.at? place = some node)
    (leads : node.at? names = some (.file content)) :
    follow root links place names = .ok (place ++ names, some (.file content)) := by
  induction names generalizing place node with
  | nil =>
      rw [follow_nil, List.append_nil, starts]
      exact congrArg (fun found => Except.ok (place, found)) leads
  | cons name rest ih =>
      have isName := ((isTree.at? starts).1.at? leads).2 name List.mem_cons_self
      cases node with
      | file | link => cases leads
      | directory entries =>
          rw [Node.at?] at leads
          split at leads
          · next inner isEntry =>
              have notLink : ∀ target, inner ≠ .link target := by
                rintro target rfl
                cases rest <;> cases leads
              have next : root.at? (place ++ [name]) = some inner := by
                rw [Node.at?_append, starts, Option.bind_some, Node.at?, isEntry]
                rfl
              rw [follow_cons_entry starts (isPlain_of_isName isName) isEntry notLink,
                ih next leads, List.append_assoc]
              rfl
          · cases leads

/-! ## Reading files -/

variable {system : FileSystem} {path : String}

theorem followFrom_eq_ok_iff {result : List String × Option Node} :
    system.followFrom path names = .ok result ↔
      '\x00' ∉ path.toList ∧ path ≠ "" ∧ ¬ pathLimit < path.utf8ByteSize ∧
        follow system.root linkLimit
          (if Path.isAbsolute path then [] else system.workingDirectory) names =
            .ok result := by
  simp only [followFrom, List.contains_iff_mem, beq_iff_eq]
  split
  · simp [*]
  · split
    · simp [*]
    · split <;> simp [*]

/-- A path without NUL that is not empty is followed, unless it is too long. -/
theorem find_eq_follow (noNul : '\x00' ∉ path.toList) (nonempty : path ≠ "") :
    system.find path =
      if pathLimit < path.utf8ByteSize then
        .error .nameTooLong
      else
        follow system.root linkLimit
          (if Path.isAbsolute path then [] else system.workingDirectory) (Path.pieces path) := by
  simp [find, followFrom, noNul, nonempty]

theorem node?_eq_some_iff :
    system.node? path = some node ↔
      ∃ reached, system.find path = .ok (reached, some node) := by
  unfold node?
  split
  · next reached result found => simp [found]
  · next fault failed => simp [failed]

theorem ne_empty_of_node? (found : system.node? path = some node) : path ≠ "" := by
  rcases node?_eq_some_iff.1 found with ⟨_, followed⟩
  exact (followFrom_eq_ok_iff.1 followed).2.1

/-- The path of the root leads to it. -/
theorem node?_slash (isDirectory : system.root = .directory entries) :
    system.node? "/" = some (.directory entries) := by
  have isRoot : system.root.at? [] = some (.directory entries) := congrArg some isDirectory
  have isVoid : Path.isVoid "" = true := by decide
  have isAbsolute : Path.isAbsolute "/" = true := by decide
  have pieces : Path.pieces "/" = ["", ""] := by decide
  refine node?_eq_some_iff.2 ⟨[], followFrom_eq_ok_iff.2
    ⟨by decide, by decide, by decide, ?_⟩⟩
  rw [pieces, if_pos isAbsolute, follow_cons_void isRoot isVoid, follow_cons_void isRoot isVoid,
    follow_nil, isRoot]

theorem isTree_of_node?
    (isTree : system.root.IsTree)
    (found : system.node? path = some node) :
    node.IsTree := by
  rcases node?_eq_some_iff.1 found with ⟨reached, followed⟩
  rcases followFrom_eq_ok_iff.1 followed with ⟨_, _, _, followed⟩
  rcases exists_follow_append_of_end (.inl rfl) followed with ⟨_, _, isReached⟩
  exact (isTree.at? isReached).1

/-- Where a path leads to a directory, the names that it is joined with lead on
from there. -/
theorem follow_pieces_foldl_join
    {content : ByteArray}
    (isTree : root.IsTree)
    (nonempty : path ≠ "")
    (followed : follow root links place (Path.pieces path) =
      .ok (reached, some (.directory entries)))
    (leads : (Node.directory entries).at? names = some (.file content)) :
    follow root links place (Path.pieces (names.foldl Path.join path)) =
      .ok (reached ++ names, some (.file content)) := by
  rcases exists_follow_append_of_end (.inl rfl) followed with ⟨_, _, isReached⟩
  have areNames := ((isTree.at? isReached).1.at? leads).2
  cases names with
  | nil => cases leads
  | cons name rest =>
      have arePieces : ∀ other ∈ name :: rest, other ≠ "" ∧ '/' ∉ other.toList :=
        fun other isMember =>
          ⟨(areNames other isMember).nonempty, (areNames other isMember).noSlash⟩
      rcases List.forall_mem_cons.1 arePieces with ⟨isPiece, restPieces⟩
      rcases Path.exists_pieces_foldl_join nonempty isPiece restPieces with
        ⟨front, ending, pieces⟩
      rcases exists_follow_append_of_end ending followed with ⟨linksLeft, sameAs, _⟩
      rw [pieces, sameAs]
      exact follow_of_at? isTree isReached leads

/-- Where a path leads to a directory, that path joined with the names that lead to
a file below it leads to the file, unless it is too long. -/
theorem find_foldl_join
    {content : ByteArray}
    (isTree : system.root.IsTree)
    (found : system.find path = .ok (reached, some (.directory entries)))
    (leads : (Node.directory entries).at? names = some (.file content)) :
    system.find (names.foldl Path.join path) =
      if pathLimit < (names.foldl Path.join path).utf8ByteSize then
        .error .nameTooLong
      else
        .ok (reached ++ names, some (.file content)) := by
  have isDirectory : system.node? path = some (.directory entries) :=
    node?_eq_some_iff.2 ⟨reached, found⟩
  have areNames := ((isTree_of_node? isTree isDirectory).at? leads).2
  rcases followFrom_eq_ok_iff.1 found with ⟨noNul, nonempty, _, followed⟩
  have joinedNoNul : '\x00' ∉ (names.foldl Path.join path).toList := by
    rw [Path.mem_toList_foldl_join nonempty (by decide)]
    rintro (inPath | ⟨name, isMember, inName⟩)
    · exact noNul inPath
    · exact (areNames name isMember).noNul inName
  rw [find_eq_follow joinedNoNul (Path.foldl_join_ne_empty nonempty names),
    Path.isAbsolute_foldl_join nonempty,
    follow_pieces_foldl_join isTree nonempty followed leads]

/-- A file below a directory is read by the path of the directory, joined with
the names that lead to the file, unless that path is too long. -/
theorem readText_of_at?
    {content : ByteArray}
    (isTree : system.root.IsTree)
    (isDirectory : system.node? path = some (.directory entries))
    (leads : (Node.directory entries).at? names = some (.file content)) :
    system.readText (names.foldl Path.join path) =
      if pathLimit < (names.foldl Path.join path).utf8ByteSize then
        .error .nameTooLong
      else
        match String.fromUTF8? content with
        | some text => .ok text
        | none => .error .notText := by
  rcases node?_eq_some_iff.1 isDirectory with ⟨reached, found⟩
  have joined := find_foldl_join isTree found leads
  split at joined
  · next tooLong => simp only [readText, joined, if_pos tooLong]
  · next shortEnough =>
      cases isText : String.fromUTF8? content <;>
        simp only [readText, joined, isText, if_neg shortEnough]

end FileSystem

end TarnBuild
