import TarnBuild.Build.Dot
import TarnBuild.Proofs.Build.Assembly
import Mathlib.Data.List.Sort

/-!
# What a drawing shows

The drawing of an import graph is a layout written down: the names of the units and
of all that they import, numbered in increasing order, and every import as a pair
of numbers, in increasing order too.  It is the same layout however the graph lists
the units and their imports.

A layout can be read back from its text.  A number ends at a space, a label at the
first quotation mark that is not escaped, and the lines end at the closing brace, so
that no label can pass for another line.  Two drawings are therefore equal only if
they show the same names and the same imports.
-/

namespace TarnBuild

namespace Units

/-- A name is that of a unit or of something that a unit imports. -/
def Mentions (units : Units) (name : String) : Prop :=
  name ∈ units.keys ∨ ∃ importer, units.Imports importer name

theorem Imports.mem_keys
    {units : Units} {importer imported : String}
    (imports : units.Imports importer imported) :
    importer ∈ units.keys := by
  rcases imports with ⟨unit, found, _⟩
  exact NameMap.mem_keys_iff.2 ⟨unit, found⟩

end Units

namespace Dot

/-! ## Texts that are read in one way -/

section PrefixFree

variable {Item : Type} {write : Item → List Char}

/-- What is written for an item shows where the item ends, whatever follows it. -/
def PrefixFree (write : Item → List Char) : Prop :=
  ∀ first second rest others,
    write first ++ rest = write second ++ others → first = second ∧ rest = others

/-- Items written one after the other are read in one way if a character follows
them with which none of them begins. -/
theorem PrefixFree.flatMap_append_cons_inj
    (free : PrefixFree write) {stop : Char}
    (begins : ∀ item, ∃ head tail, write item = head :: tail ∧ head ≠ stop)
    {items others : List Item} {rest remainder : List Char}
    (same : items.flatMap write ++ stop :: rest =
      others.flatMap write ++ stop :: remainder) :
    items = others ∧ rest = remainder := by
  induction items generalizing others with
  | nil =>
      cases others with
      | nil => exact ⟨rfl, (List.cons.inj same).2⟩
      | cons other others =>
          rcases begins other with ⟨head, tail, written, different⟩
          rw [List.flatMap_cons, written] at same
          exact absurd (List.cons.inj same).1.symm different
  | cons item items ih =>
      cases others with
      | nil =>
          rcases begins item with ⟨head, tail, written, different⟩
          rw [List.flatMap_cons, written] at same
          exact absurd (List.cons.inj same).1 different
      | cons other others =>
          rw [List.flatMap_cons, List.flatMap_cons, List.append_assoc,
            List.append_assoc] at same
          rcases free _ _ _ _ same with ⟨rfl, sameRest⟩
          rcases ih sameRest with ⟨rfl, rfl⟩
          exact ⟨rfl, rfl⟩

end PrefixFree

theorem prefixFree_escapeChar : PrefixFree escapeChar := by
  intro first second rest others same
  unfold escapeChar at same
  -- A character that stands for itself is no backslash, with which the others begin.
  split at same <;> split at same <;> grind

theorem escapeChar_begins (character : Char) :
    ∃ head tail, escapeChar character = head :: tail ∧ head ≠ '"' := by
  unfold escapeChar
  split
  · exact ⟨_, _, rfl, by decide⟩
  · exact ⟨_, _, rfl, by decide⟩
  · exact ⟨_, _, rfl, by decide⟩
  · exact ⟨_, _, rfl, by assumption⟩

/-- The first space after a number is where the number ends. -/
theorem toDigits_append_space_inj
    {number other : Nat} {rest remainder : List Char}
    (same : Nat.toDigits 10 number ++ ' ' :: rest =
      Nat.toDigits 10 other ++ ' ' :: remainder) :
    number = other ∧ rest = remainder := by
  have digits (value : Nat) (tail : List Char) :
      (Nat.toDigits 10 value ++ ' ' :: tail).takeWhile Char.isDigit =
        Nat.toDigits 10 value := by
    rw [List.takeWhile_append_of_pos, List.takeWhile_cons_of_neg (by decide),
      List.append_nil]
    exact fun digit isDigit =>
      Nat.isDigit_of_mem_toDigits (by decide) (by decide) isDigit
  have sameDigits := congrArg (List.takeWhile Char.isDigit) same
  rw [digits, digits] at sameDigits
  have sameNumber : number = other := by
    simpa using congrArg (fun digits => Nat.ofDigitChars 10 digits 0) sameDigits
  subst sameNumber
  exact ⟨rfl, (List.cons.inj (List.append_cancel_left same)).2⟩

/-! ## Lines -/

/-- A line of a drawing, between the first and the last. -/
inductive Line where
  | vertex (number : Nat) (name : String)
  | edge (source target : Nat)

namespace Line

/-- The line as it is drawn. -/
def text : Line → String
  | vertex number name => vertexLine number name
  | edge source target => edgeLine source target

/-- The name that a line gives to a number. -/
def name? : Line → Option String
  | vertex _ name => some name
  | edge _ _ => none

/-- The numbers that a line joins. -/
def edge? : Line → Option (Nat × Nat)
  | vertex _ _ => none
  | edge source target => some (source, target)

theorem toList_text_vertex (number : Nat) (name : String) :
    (vertex number name).text.toList =
      "    ".toList ++ (Nat.toDigits 10 number ++ ' ' :: ("[ label = \"".toList ++
        (name.toList.flatMap escapeChar ++ '"' :: " ]\n".toList))) := by
  simp [text, vertexLine]

theorem toList_text_edge (source target : Nat) :
    (edge source target).text.toList =
      "    ".toList ++ (Nat.toDigits 10 source ++ ' ' :: ("-> ".toList ++
        (Nat.toDigits 10 target ++ ' ' :: "[ ]\n".toList))) := by
  simp [text, edgeLine]

theorem text_begins (line : Line) :
    ∃ head tail, line.text.toList = head :: tail ∧ head ≠ '\x7d' := by
  cases line with
  | vertex number name => exact ⟨' ', _, toList_text_vertex number name, by decide⟩
  | edge source target => exact ⟨' ', _, toList_text_edge source target, by decide⟩

/-- After the number a vertex goes on with a bracket and an edge with an arrow. -/
theorem text_vertex_append_ne
    {number source target : Nat} {name : String} {rest others : List Char} :
    (vertex number name).text.toList ++ rest ≠ (edge source target).text.toList ++ others := by
  intro same
  simp only [toList_text_vertex, toList_text_edge, List.append_assoc, List.cons_append] at same
  have sameMark := (toDigits_append_space_inj (List.append_cancel_left same)).2
  exact absurd (List.cons.inj sameMark).1 (by decide)

theorem prefixFree_text : PrefixFree fun line : Line => line.text.toList := by
  intro first second rest others same
  cases first with
  | vertex number name =>
      cases second with
      | vertex otherNumber otherName =>
          simp only [toList_text_vertex, List.append_assoc, List.cons_append] at same
          rcases toDigits_append_space_inj (List.append_cancel_left same) with
            ⟨rfl, sameLabel⟩
          rcases prefixFree_escapeChar.flatMap_append_cons_inj escapeChar_begins
            (List.append_cancel_left sameLabel) with ⟨sameName, sameRest⟩
          rw [String.toList_inj] at sameName
          exact ⟨by rw [sameName], List.append_cancel_left sameRest⟩
      | edge source target => exact absurd same text_vertex_append_ne
  | edge source target =>
      cases second with
      | vertex number name => exact absurd same.symm text_vertex_append_ne
      | edge otherSource otherTarget =>
          simp only [toList_text_edge, List.append_assoc, List.cons_append] at same
          rcases toDigits_append_space_inj (List.append_cancel_left same) with
            ⟨rfl, sameTarget⟩
          rcases toDigits_append_space_inj (List.append_cancel_left sameTarget) with
            ⟨rfl, sameRest⟩
          exact ⟨rfl, List.append_cancel_left sameRest⟩

end Line

/-! ## Layouts -/

/-- Names, of which each has its place among them as its number, and pairs of
numbers. -/
@[ext]
structure Layout where
  names : NameSet
  edges : List (Nat × Nat)
  increasing : edges.Pairwise (Prod.Lex (· < ·) (· < ·))

namespace Layout

/-- A line for each name and then a line for each pair. -/
def lines (layout : Layout) : List Line :=
  layout.names.toList.mapIdx Line.vertex ++
    layout.edges.map fun edge => Line.edge edge.1 edge.2

/-- The drawing with a layout. -/
def text (layout : Layout) : String :=
  "digraph \x7b\n" ++ String.join (layout.lines.map Line.text) ++ "\x7d\n"

theorem filterMap_name?_lines (layout : Layout) :
    layout.lines.filterMap Line.name? = layout.names.toList := by
  rw [lines, List.filterMap_append, List.mapIdx_eq_zipIdx_map, List.filterMap_map,
    List.filterMap_map]
  simp [Function.comp_def, Line.name?]

theorem filterMap_edge?_lines (layout : Layout) :
    layout.lines.filterMap Line.edge? = layout.edges := by
  rw [lines, List.filterMap_append, List.mapIdx_eq_zipIdx_map, List.filterMap_map,
    List.filterMap_map]
  simp [Function.comp_def, Line.edge?]

theorem toList_text (layout : Layout) :
    layout.text.toList =
      "digraph \x7b\n".toList ++
        (layout.lines.flatMap (fun line => line.text.toList) ++ '\x7d' :: ['\n']) := by
  simp [text, String.toList_join, List.flatMap_map]

/-- A layout can be read back from its text. -/
theorem text_inj {layout other : Layout} : layout.text = other.text ↔ layout = other := by
  refine ⟨fun same => ?_, fun same => same ▸ rfl⟩
  rw [← String.toList_inj, toList_text, toList_text] at same
  have sameLines : layout.lines = other.lines :=
    (Line.prefixFree_text.flatMap_append_cons_inj Line.text_begins
      (List.append_cancel_left same)).1
  have sameNames := congrArg (List.filterMap Line.name?) sameLines
  have sameEdges := congrArg (List.filterMap Line.edge?) sameLines
  rw [filterMap_name?_lines, filterMap_name?_lines] at sameNames
  rw [filterMap_edge?_lines, filterMap_edge?_lines] at sameEdges
  exact Layout.ext (NameSet.eq_of_toList_eq sameNames) sameEdges

/-! ## The layout of units -/

/-- A layout shows the names that units mention and what they import. -/
structure Shows (layout : Layout) (units : Units) : Prop where
  mem_names : ∀ name, name ∈ layout.names ↔ units.Mentions name
  mem_edges : ∀ source target, (source, target) ∈ layout.edges ↔
    ∃ importer imported,
      layout.names.toList[source]? = some importer ∧
        layout.names.toList[target]? = some imported ∧
        units.Imports importer imported

variable {layout other : Layout} {units others : Units}

theorem Shows.exists_number
    {name : String}
    (shows : layout.Shows units)
    (mentioned : units.Mentions name) :
    ∃ number : Nat, layout.names.toList[number]? = some name :=
  List.mem_iff_getElem?.1 (NameSet.mem_toList.2 ((shows.mem_names name).2 mentioned))

/-- An import is shown by the pair of the two numbers. -/
theorem Shows.imports_iff
    {source target : Nat} {importer imported : String}
    (shows : layout.Shows units)
    (sourceName : layout.names.toList[source]? = some importer)
    (targetName : layout.names.toList[target]? = some imported) :
    units.Imports importer imported ↔ (source, target) ∈ layout.edges := by
  rw [shows.mem_edges, sourceName, targetName]
  simp

/-- Units that are shown by one layout have the same imports. -/
theorem Shows.imports_of_imports
    {importer imported : String}
    (shows : layout.Shows units) (othersShows : layout.Shows others)
    (imports : units.Imports importer imported) :
    others.Imports importer imported := by
  rcases shows.exists_number (.inl imports.mem_keys) with ⟨source, sourceName⟩
  rcases shows.exists_number (.inr ⟨importer, imports⟩) with ⟨target, targetName⟩
  exact (othersShows.imports_iff sourceName targetName).2
    ((shows.imports_iff sourceName targetName).1 imports)

/-- Two layouts are equal exactly when they show the same names and imports. -/
theorem Shows.eq_iff
    (shows : layout.Shows units) (otherShows : other.Shows others) :
    layout = other ↔
      (∀ name, units.Mentions name ↔ others.Mentions name) ∧
        ∀ importer imported,
          units.Imports importer imported ↔ others.Imports importer imported := by
  constructor
  · rintro rfl
    refine ⟨fun name => ?_, fun importer imported =>
      ⟨shows.imports_of_imports otherShows, otherShows.imports_of_imports shows⟩⟩
    rw [← shows.mem_names, ← otherShows.mem_names]
  · rintro ⟨sameNames, sameImports⟩
    have namesEq : layout.names = other.names := NameSet.ext_mem fun name => by
      rw [shows.mem_names, otherShows.mem_names, sameNames]
    have edgesEq : layout.edges = other.edges := by
      refine layout.increasing.eq_of_mem_iff other.increasing fun edge => ?_
      rw [shows.mem_edges, otherShows.mem_edges, namesEq]
      simp only [sameImports]
    exact Layout.ext namesEq edgesEq

end Layout

/-! ## Numbers of names -/

section Number

variable {names : NameSet}

theorem getElem?_eq_some_iff_idxOf_eq {number : Nat} {name : String} :
    names.toList[number]? = some name ↔ name ∈ names ∧ names.toList.idxOf name = number := by
  constructor
  · intro isNumber
    rcases List.getElem?_eq_some_iff.1 isNumber with ⟨inRange, rfl⟩
    exact ⟨List.getElem_mem inRange, names.nodup_toList.idxOf_getElem number inRange⟩
  · rintro ⟨isName, rfl⟩
    exact List.getElem?_idxOf isName

/-- The smaller of two names has the smaller number. -/
theorem idxOf_lt_idxOf
    {first second : String}
    (isFirst : first ∈ names) (isSecond : second ∈ names)
    (less : first < second) :
    names.toList.idxOf first < names.toList.idxOf second := by
  have increasing : [first, second].Pairwise (· < ·) := List.pairwise_pair.2 less
  have subset : [first, second] ⊆ names.toList := by
    simpa using ⟨isFirst, isSecond⟩
  have stands : StandsBefore names.toList first second :=
    List.sublist_of_subperm_of_pairwise
      (List.subperm_of_subset increasing.nodup subset) increasing names.increasing
  exact stands.idxOf_lt names.nodup_toList

end Number

/-! ## Along a graph -/

theorem mem_names {graph : Graph String} {name : String} :
    name ∈ names graph ↔
      name ∈ graph.vertices ∨ ∃ source, graph.DependsOn source name := by
  simp only [names, NameSet.mem_ofList, List.mem_flatMap, List.mem_cons, Graph.vertices,
    List.mem_map, Graph.DependsOn, Graph.successors?_eq_some_iff]
  constructor
  · rintro ⟨entry, isEntry, rfl | isTarget⟩
    · exact .inl ⟨entry, isEntry, rfl⟩
    · exact .inr ⟨entry.1, entry.2, isEntry, isTarget⟩
  · rintro (⟨entry, isEntry, rfl⟩ | ⟨source, targets, isEntry, isTarget⟩)
    · exact ⟨entry, isEntry, .inl rfl⟩
    · exact ⟨(source, targets), isEntry, .inr isTarget⟩

/-- What a unit imports, in increasing order. -/
def importsOf (units : Units) (importer : String) : List String :=
  ((units.get? importer).map fun unit => unit.imports.toList).getD []

theorem mem_importsOf {units : Units} {importer imported : String} :
    imported ∈ importsOf units importer ↔ units.Imports importer imported := by
  cases found : units.get? importer with
  | none => simp [importsOf, Units.Imports, found]
  | some unit => simp [importsOf, Units.Imports, found]

theorem pairwise_importsOf (units : Units) (importer : String) :
    (importsOf units importer).Pairwise (· < ·) := by
  cases found : units.get? importer with
  | none => simp [importsOf, found]
  | some unit => simpa [importsOf, found] using unit.imports.increasing

theorem mergeSort_eq_of_perm
    {items sorted : List String}
    (perm : items.Perm sorted) (increasing : sorted.Pairwise (· < ·)) :
    (items.mergeSort fun first second => decide (first ≤ second)) = sorted := by
  have ordered := pairwise_mergeSort_key (fun name => name) items
  exact ((List.mergeSort_perm _ _).trans perm).eq_of_pairwise
    (fun _ _ _ _ => String.le_antisymm) ordered (increasing.imp Std.le_of_lt)

section ListedBy

variable {units : Units} {graph : Graph String}

/-- Sorting the successors of a unit undoes the order in which a graph lists them. -/
theorem sort_successors?
    (listed : units.ListedBy graph) (importer : String) :
    (((graph.successors? importer).getD []).mergeSort
      fun first second => decide (first ≤ second)) = importsOf units importer := by
  cases found : units.get? importer with
  | none =>
      have notVertex : importer ∉ graph.vertices := by
        rw [listed.vertices.mem_iff]
        exact NameMap.get?_eq_none_iff.1 found
      have unlisted : graph.successors? importer = none :=
        lookup_eq_none_iff_notMem.2 notVertex
      simp [importsOf, found, unlisted]
  | some unit =>
      rcases listed.successors importer unit found with ⟨imports, importsListed, perm⟩
      simpa [importsOf, found, importsListed] using
        mergeSort_eq_of_perm perm unit.imports.increasing

theorem edges_eq
    (listed : units.ListedBy graph) :
    edges graph = (names graph).toList.flatMap fun importer =>
      (importsOf units importer).map fun imported =>
        ((names graph).toList.idxOf importer, (names graph).toList.idxOf imported) := by
  simp only [edges, sort_successors? listed]

theorem mem_names_iff_mentions
    {name : String}
    (listed : units.ListedBy graph) :
    name ∈ names graph ↔ units.Mentions name := by
  rw [mem_names, listed.vertices.mem_iff, listed.dependsOn_eq, Units.Mentions]

theorem mem_names_of_mem_importsOf
    {importer imported : String}
    (listed : units.ListedBy graph)
    (isImport : imported ∈ importsOf units importer) :
    imported ∈ names graph :=
  (mem_names_iff_mentions listed).2 (.inr ⟨importer, mem_importsOf.1 isImport⟩)

/-- Edges come in the order of their numbers, since names do. -/
theorem pairwise_edges
    (listed : units.ListedBy graph) :
    (edges graph).Pairwise (Prod.Lex (· < ·) (· < ·)) := by
  rw [edges_eq listed, List.pairwise_flatMap]
  constructor
  · intro importer _
    rw [List.pairwise_map]
    refine (pairwise_importsOf units importer).imp_of_mem fun isFirst isSecond less => ?_
    exact .right _ (idxOf_lt_idxOf (mem_names_of_mem_importsOf listed isFirst)
      (mem_names_of_mem_importsOf listed isSecond) less)
  · refine (names graph).increasing.imp_of_mem fun isFirst isSecond less => ?_
    intro edge isEdge other isOther
    rcases List.mem_map.1 isEdge with ⟨imported, _, rfl⟩
    rcases List.mem_map.1 isOther with ⟨otherImported, _, rfl⟩
    exact .left _ _ (idxOf_lt_idxOf isFirst isSecond less)

theorem mem_edges_iff
    {source target : Nat}
    (listed : units.ListedBy graph) :
    (source, target) ∈ edges graph ↔
      ∃ importer imported,
        (names graph).toList[source]? = some importer ∧
          (names graph).toList[target]? = some imported ∧
          units.Imports importer imported := by
  simp only [edges_eq listed, List.mem_flatMap, List.mem_map, mem_importsOf, Prod.mk.injEq,
    getElem?_eq_some_iff_idxOf_eq]
  constructor
  · rintro ⟨importer, isName, imported, imports, isSource, isTarget⟩
    have importedIsName := mem_names_of_mem_importsOf listed (mem_importsOf.2 imports)
    exact ⟨importer, imported, ⟨isName, isSource⟩, ⟨importedIsName, isTarget⟩, imports⟩
  · rintro ⟨importer, imported, ⟨isName, isSource⟩, ⟨_, isTarget⟩, imports⟩
    exact ⟨importer, isName, imported, imports, isSource, isTarget⟩

/-- A drawing is the text of the layout of the units. -/
theorem exists_layout
    (listed : units.ListedBy graph) :
    ∃ layout : Layout, layout.Shows units ∧ renderAlong graph = layout.text := by
  refine ⟨⟨names graph, edges graph, pairwise_edges listed⟩, ⟨?_, ?_⟩, ?_⟩
  · exact fun name => mem_names_iff_mentions listed
  · exact fun source target => mem_edges_iff listed
  · simp [Layout.text, Layout.lines, renderAlong, List.mapIdx_eq_zipIdx_map,
      Function.comp_def, Line.text, String.append_assoc]

end ListedBy

/-- The drawing of the imports of units is the text of the layout that shows them,
however a graph lists the imports.  Two drawings are equal exactly when they show
the same names and the same imports. -/
theorem exists_layout_and_renderAlong_eq_iff
    (first second : Units) (firstGraph secondGraph : Graph String)
    (firstListed : first.ListedBy firstGraph)
    (secondListed : second.ListedBy secondGraph) :
    (∃ layout : Layout, layout.Shows first ∧ renderAlong firstGraph = layout.text) ∧
      (renderAlong firstGraph = renderAlong secondGraph ↔
        (∀ name, first.Mentions name ↔ second.Mentions name) ∧
          ∀ importer imported,
            first.Imports importer imported ↔ second.Imports importer imported) := by
  rcases exists_layout firstListed with ⟨layout, shows, drawn⟩
  rcases exists_layout secondListed with ⟨other, otherShows, otherDrawn⟩
  refine ⟨⟨layout, shows, drawn⟩, ?_⟩
  rw [drawn, otherDrawn, Layout.text_inj]
  exact shows.eq_iff otherShows

/-- Two units that import nothing. -/
def twoUnits : Units :=
  ⟨[("A", ⟨.empty, .bare "A" .moduleKind⟩), ("B", ⟨.empty, .bare "B" .moduleKind⟩)],
    by decide⟩

/-- One unit, in whose name the rest of the first line for the two units and all of
the second one stand. -/
def imitation : Units :=
  ⟨[("A\" ]\n    1 [ label = \"B", ⟨.empty, .bare "A" .moduleKind⟩)], by decide⟩

theorem imitation_is_drawn_otherwise :
    imitation.ListedBy imitation.importGraph ∧ twoUnits.ListedBy twoUnits.importGraph ∧
      renderAlong imitation.importGraph ≠ renderAlong twoUnits.importGraph := by
  have imitationListed := Units.listedBy_importGraph imitation
  have twoUnitsListed := Units.listedBy_importGraph twoUnits
  refine ⟨imitationListed, twoUnitsListed, fun same => ?_⟩
  rcases (exists_layout_and_renderAlong_eq_iff _ _ _ _ imitationListed
    twoUnitsListed).2.1 same with ⟨sameNames, _⟩
  rcases (sameNames "A").2 (.inl (by decide)) with isKey | ⟨importer, unit, found, isImport⟩
  · exact absurd isKey (by decide)
  · have isEntry := NameMap.get?_eq_some_iff.1 found
    simp only [imitation, List.mem_singleton, Prod.mk.injEq] at isEntry
    rw [isEntry.2] at isImport
    exact NameSet.not_mem_empty isImport

end Dot

end TarnBuild
