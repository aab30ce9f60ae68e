import TarnBuild.Host.Library
import TarnBuild.Proofs.Except
import TarnBuild.Proofs.Listing

/-!
# Which functions a library has

The functions that a host declares make a library exactly when all types of the
exposed ones have counterparts and no two of the exposed ones have one name.  The
library then has the exposed functions in their order.  Otherwise the fault is that
of the first exposed function that has one; a type without a counterpart goes before
a name that is taken.  Functions that are not exposed make no difference.
-/

namespace TarnBuild

namespace RuntimeFunction

variable {function : RuntimeFunction} {signature : Signature} {fault : LibraryFault}

/-! ## Types of a function -/

/-- The types of the parameters from left to right, then the one that is returned. -/
def types (function : RuntimeFunction) : List HostType :=
  function.parameters ++ [function.returns]

/-- All types of a function have counterparts. -/
def IsAllowed (function : RuntimeFunction) : Prop :=
  ∀ type ∈ function.types, ∃ primitive, type.primitive? = some primitive

/-- The first type of a function that has no counterpart. -/
def IsFirstUnmapped (function : RuntimeFunction) (type : HostType) : Prop :=
  ∃ before after, function.types = before ++ type :: after ∧
    (∀ other ∈ before, ∃ primitive, other.primitive? = some primitive) ∧
    type.primitive? = none

/-- A signature has the counterparts of the types of a function, each in its place. -/
structure HasSignature (function : RuntimeFunction) (signature : Signature) : Prop where
  parameters : List.Forall₂ (fun type primitive => type.primitive? = some primitive)
    function.parameters signature.parameters
  result : function.returns.primitive? = some signature.result

theorem counterpart_eq_ok_iff {type : HostType} {primitive : Primitive} :
    function.counterpart type = .ok primitive ↔ type.primitive? = some primitive := by
  unfold counterpart
  split <;> simp [*]

theorem counterpart_eq_error_iff {type : HostType} :
    function.counterpart type = .error fault ↔
      type.primitive? = none ∧ fault = .disallowed function.name type := by
  unfold counterpart
  split <;> simp [*, eq_comm]

theorem signature_eq_ok_iff :
    function.signature = .ok signature ↔ function.HasSignature signature := by
  simp only [RuntimeFunction.signature, Except.bind_eq_ok_iff, Except.mapM_eq_ok_iff,
    counterpart_eq_ok_iff]
  constructor
  · rintro ⟨parameters, areCounterparts, result, isCounterpart, same⟩
    cases same
    exact ⟨areCounterparts, isCounterpart⟩
  · rintro ⟨areCounterparts, isCounterpart⟩
    exact ⟨_, areCounterparts, _, isCounterpart, rfl⟩

theorem HasSignature.unique
    {other : Signature}
    (has : function.HasSignature signature) (hasOther : function.HasSignature other) :
    signature = other := by
  have same := (signature_eq_ok_iff.2 has).symm.trans (signature_eq_ok_iff.2 hasOther)
  exact Except.ok.inj same

/-- The signature fails as the types do when they are gone through in one list. -/
theorem signature_eq_error_iff_mapM :
    function.signature = .error fault ↔
      function.types.mapM function.counterpart = .error fault := by
  rw [types, List.mapM_append, List.mapM_cons, List.mapM_nil]
  simp [RuntimeFunction.signature, Except.bind_eq_error_iff, pure, Except.pure]

/-- The type that is reported is the first one without a counterpart, parameters
before the result. -/
theorem signature_eq_error_iff :
    function.signature = .error fault ↔
      ∃ type, function.IsFirstUnmapped type ∧ fault = .disallowed function.name type := by
  simp only [signature_eq_error_iff_mapM, Except.mapM_eq_error_iff, counterpart_eq_ok_iff,
    counterpart_eq_error_iff]
  constructor
  · rintro ⟨before, type, after, split, mapped, unmapped, rfl⟩
    exact ⟨type, ⟨before, after, split, mapped, unmapped⟩, rfl⟩
  · rintro ⟨type, ⟨before, after, split, mapped, unmapped⟩, rfl⟩
    exact ⟨before, type, after, split, mapped, unmapped, rfl⟩

theorem IsFirstUnmapped.not_isAllowed
    {type : HostType}
    (first : function.IsFirstUnmapped type) :
    ¬ function.IsAllowed := by
  rcases first with ⟨before, after, split, _, unmapped⟩
  intro allowed
  rcases allowed type (by simp [split]) with ⟨primitive, mapped⟩
  simp [unmapped] at mapped

/-- A function has a signature exactly if all its types have counterparts. -/
theorem exists_hasSignature_iff :
    (∃ signature, function.HasSignature signature) ↔ function.IsAllowed := by
  constructor
  · rintro ⟨signature, has⟩ type isType
    rcases List.mem_append.1 isType with isParameter | isResult
    · rcases exists_of_forall₂_of_mem has.parameters isParameter with ⟨primitive, _, mapped⟩
      exact ⟨primitive, mapped⟩
    · rw [List.mem_singleton.1 isResult]
      exact ⟨_, has.result⟩
  · intro allowed
    cases computed : function.signature with
    | ok signature => exact ⟨signature, signature_eq_ok_iff.1 computed⟩
    | error fault =>
        rcases signature_eq_error_iff.1 computed with ⟨type, first, _⟩
        exact absurd allowed first.not_isAllowed

/-! ## Faults -/

/-- What is wrong with a function that comes after others.  A type without a
counterpart goes before a repeated name. -/
inductive HasFault (earlier : List RuntimeFunction) (function : RuntimeFunction) :
    LibraryFault → Prop where
  | disallowed (type : HostType) (first : function.IsFirstUnmapped type) :
      HasFault earlier function (.disallowed function.name type)
  | duplicate (allowed : function.IsAllowed)
      (taken : function.name ∈ earlier.map RuntimeFunction.name) :
      HasFault earlier function (.duplicate function.name)

/-- All types of some functions have counterparts, and no name is repeated. -/
structure AreFaultless (functions : List RuntimeFunction) : Prop where
  allowed : ∀ function ∈ functions, function.IsAllowed
  distinct : (functions.map RuntimeFunction.name).Nodup

/-- The fault of the first function of a list that has one. -/
def IsFirstFault (functions : List RuntimeFunction) (fault : LibraryFault) : Prop :=
  ∃ before function after, functions = before ++ function :: after ∧
    AreFaultless before ∧ function.HasFault before fault

/-- The functions that programs can use, in their order. -/
def exposed (functions : List RuntimeFunction) : List RuntimeFunction :=
  functions.filter RuntimeFunction.isExposed

/-- The entry of a library for a function. -/
def HasEntry (function : RuntimeFunction) (entry : String × Signature) : Prop :=
  entry.1 = function.name ∧ function.HasSignature entry.2

end RuntimeFunction

namespace RuntimeLibrary

open RuntimeFunction

variable {library : RuntimeLibrary} {function : RuntimeFunction}
  {functions : List RuntimeFunction} {fault : LibraryFault}

/-! ## One declaration -/

theorem get?_eq_none_iff {name : String} :
    library.get? name = none ↔ name ∉ library.signatures.map Prod.fst :=
  lookup_eq_none_iff_notMem

theorem declare_eq_ok_iff
    {next : RuntimeLibrary}
    (isExposed : function.isExposed = true) :
    library.declare function = .ok next ↔
      function.name ∉ library.signatures.map Prod.fst ∧
        ∃ signature, function.HasSignature signature ∧
          next = ⟨library.signatures ++ [(function.name, signature)]⟩ := by
  rw [declare, if_pos isExposed, ← get?_eq_none_iff]
  simp only [Except.bind_eq_ok_iff, signature_eq_ok_iff]
  cases library.get? function.name with
  | none => simp [pure, Except.pure, eq_comm]
  | some signature => simp

/-- A function that cannot be declared has a fault among those declared before
it. -/
theorem declare_eq_error_iff
    {earlier : List RuntimeFunction}
    (isExposed : function.isExposed = true)
    (names : library.signatures.map Prod.fst = earlier.map RuntimeFunction.name) :
    library.declare function = .error fault ↔ function.HasFault earlier fault := by
  have nameTaken : (∃ signature, library.get? function.name = some signature) ↔
      function.name ∈ earlier.map RuntimeFunction.name := by
    rw [← names, ← not_iff_not, ← get?_eq_none_iff, ← Option.isSome_iff_exists]
    exact Option.not_isSome_iff_eq_none
  rw [declare, if_pos isExposed, Except.bind_eq_error_iff, signature_eq_error_iff]
  simp only [signature_eq_ok_iff]
  constructor
  · rintro (⟨type, first, rfl⟩ | ⟨signature, has, refused⟩)
    · exact .disallowed type first
    · split at refused
      · next found =>
        cases refused
        exact .duplicate (exists_hasSignature_iff.1 ⟨signature, has⟩) (nameTaken.1 ⟨_, found⟩)
      · cases refused
  · rintro (⟨type, first⟩ | ⟨allowed, taken⟩)
    · exact .inl ⟨type, first, rfl⟩
    · rcases exists_hasSignature_iff.2 allowed with ⟨signature, has⟩
      rcases nameTaken.2 taken with ⟨other, found⟩
      exact .inr ⟨signature, has, by rw [found]⟩

/-! ## All declarations -/

/-- Declaring exposed functions adds an entry for each of them, if it succeeds. -/
theorem foldlM_declare_eq_ok_iff
    {result : RuntimeLibrary}
    (areExposed : ∀ function ∈ functions, function.isExposed = true)
    (distinct : (library.signatures.map Prod.fst).Nodup) :
    functions.foldlM declare library = .ok result ↔
      ∃ entries, result.signatures = library.signatures ++ entries ∧
        List.Forall₂ HasEntry functions entries ∧
        (library.signatures.map Prod.fst ++ functions.map RuntimeFunction.name).Nodup := by
  induction functions generalizing library with
  | nil =>
      simp only [List.forall₂_nil_left_iff, List.foldlM_nil, List.map_nil, List.append_nil]
      constructor
      · intro same
        cases same
        exact ⟨[], by simp, rfl, distinct⟩
      · rintro ⟨_, same, rfl, _⟩
        cases result
        cases same
        simp [pure, Except.pure]
  | cons function rest ih =>
      rcases List.forall_mem_cons.1 areExposed with ⟨isExposed, restExposed⟩
      have nextDistinct (signature : Signature)
          (notTaken : function.name ∉ library.signatures.map Prod.fst) :
          ((library.signatures ++ [(function.name, signature)]).map Prod.fst).Nodup := by
        rw [List.map_append]
        exact distinct.append (List.nodup_singleton _) (by simpa using notTaken)
      rw [List.foldlM_cons, Except.bind_eq_ok_iff]
      simp only [declare_eq_ok_iff isExposed]
      constructor
      · rintro ⟨_, ⟨notTaken, signature, has, rfl⟩, declared⟩
        rcases (ih restExposed (nextDistinct signature notTaken)).1 declared with
          ⟨entries, same, areEntries, allDistinct⟩
        exact ⟨(function.name, signature) :: entries, by simpa using same,
          .cons ⟨rfl, has⟩ areEntries, by simpa using allDistinct⟩
      · rintro ⟨_, same, areEntries, allDistinct⟩
        rcases List.forall₂_cons_left_iff.1 areEntries with
          ⟨⟨_, signature⟩, entries, ⟨rfl, has⟩, restEntries, rfl⟩
        have notTaken : function.name ∉ library.signatures.map Prod.fst := fun isTaken =>
          (List.nodup_append.1 allDistinct).2.2 _ isTaken _ List.mem_cons_self rfl
        refine ⟨_, ⟨notTaken, signature, has, rfl⟩, ?_⟩
        exact (ih restExposed (nextDistinct signature notTaken)).2
          ⟨entries, by simpa using same, restEntries, by simpa using allDistinct⟩

/-- Functions are declared without a fault when none of them has one. -/
theorem ofDeclarations_eq_ok_iff
    (areExposed : ∀ function ∈ functions, function.isExposed = true) :
    ofDeclarations functions = .ok library ↔
      List.Forall₂ HasEntry functions library.signatures ∧
        (functions.map RuntimeFunction.name).Nodup := by
  rw [ofDeclarations, foldlM_declare_eq_ok_iff areExposed (by simp [empty])]
  simp [empty]

theorem names_of_hasEntry
    {entries : List (String × Signature)}
    (areEntries : List.Forall₂ HasEntry functions entries) :
    entries.map Prod.fst = functions.map RuntimeFunction.name := by
  induction areEntries with
  | nil => rfl
  | cons isEntry _ ih => rw [List.map_cons, List.map_cons, isEntry.1, ih]

theorem exists_hasEntry_iff :
    (∃ entries, List.Forall₂ HasEntry functions entries) ↔
      ∀ function ∈ functions, function.IsAllowed := by
  constructor
  · rintro ⟨entries, areEntries⟩ function isMember
    rcases exists_of_forall₂_of_mem areEntries isMember with ⟨entry, _, _, has⟩
    exact exists_hasSignature_iff.1 ⟨entry.2, has⟩
  · intro allowed
    induction functions with
    | nil => exact ⟨[], .nil⟩
    | cons function rest ih =>
        rcases List.forall_mem_cons.1 allowed with ⟨isAllowed, restAllowed⟩
        rcases exists_hasSignature_iff.2 isAllowed with ⟨signature, has⟩
        rcases ih restAllowed with ⟨entries, areEntries⟩
        exact ⟨(function.name, signature) :: entries, .cons ⟨rfl, has⟩ areEntries⟩

/-- Exposed functions make a library exactly if none of them has a fault. -/
theorem exists_ofDeclarations_eq_ok_iff
    (areExposed : ∀ function ∈ functions, function.isExposed = true) :
    (∃ library, ofDeclarations functions = .ok library) ↔ AreFaultless functions := by
  simp only [ofDeclarations_eq_ok_iff areExposed]
  constructor
  · rintro ⟨library, areEntries, distinct⟩
    exact ⟨exists_hasEntry_iff.1 ⟨_, areEntries⟩, distinct⟩
  · intro faultless
    rcases exists_hasEntry_iff.2 faultless.allowed with ⟨entries, areEntries⟩
    exact ⟨⟨entries⟩, areEntries, faultless.distinct⟩

/-- The fault that is reported is that of the first function at fault. -/
theorem ofDeclarations_eq_error_iff
    (areExposed : ∀ function ∈ functions, function.isExposed = true) :
    ofDeclarations functions = .error fault ↔ IsFirstFault functions fault := by
  rw [ofDeclarations, Except.foldlM_eq_error_iff]
  constructor
  · rintro ⟨before, function, after, library, rfl, declared, refused⟩
    rcases List.forall_mem_append.1 areExposed with ⟨beforeExposed, afterExposed⟩
    have areEntries := ((ofDeclarations_eq_ok_iff beforeExposed).1 declared).1
    exact ⟨before, function, after, rfl,
      (exists_ofDeclarations_eq_ok_iff beforeExposed).1 ⟨library, declared⟩,
      (declare_eq_error_iff (afterExposed function List.mem_cons_self)
        (names_of_hasEntry areEntries)).1 refused⟩
  · rintro ⟨before, function, after, rfl, faultless, hasFault⟩
    rcases List.forall_mem_append.1 areExposed with ⟨beforeExposed, afterExposed⟩
    rcases (exists_ofDeclarations_eq_ok_iff beforeExposed).2 faultless with
      ⟨library, declared⟩
    have areEntries := ((ofDeclarations_eq_ok_iff beforeExposed).1 declared).1
    exact ⟨before, function, after, library, rfl, declared,
      (declare_eq_error_iff (afterExposed function List.mem_cons_self)
        (names_of_hasEntry areEntries)).2 hasFault⟩

/-! ## Functions that are not exposed -/

/-- Only what is exposed is declared. -/
theorem ofDeclarations_exposed (functions : List RuntimeFunction) :
    ofDeclarations (exposed functions) = ofDeclarations functions := by
  rw [ofDeclarations, ofDeclarations, exposed, List.foldlM_filter]
  congr 1
  funext library function
  split
  · rfl
  · next hidden => rw [declare, if_neg hidden]

theorem isExposed_of_mem_exposed (isMember : function ∈ exposed functions) :
    function.isExposed = true :=
  (List.mem_filter.1 isMember).2

/-! ## The library -/

theorem mem_entries_iff
    {entries : List (String × Signature)} {name : String} {signature : Signature}
    (areEntries : List.Forall₂ HasEntry functions entries) :
    (name, signature) ∈ entries ↔
      ∃ function ∈ functions, function.name = name ∧ function.HasSignature signature := by
  constructor
  · intro isEntry
    rcases exists_of_forall₂_of_mem areEntries.flip isEntry with ⟨function, isMember, same, has⟩
    exact ⟨function, isMember, same.symm, has⟩
  · rintro ⟨function, isMember, rfl, has⟩
    rcases exists_of_forall₂_of_mem areEntries isMember with ⟨⟨_, other⟩, isEntry, rfl, hasOther⟩
    rw [has.unique hasOther]
    exact isEntry

/-- A library has some functions: an entry for each in their order and, under its
name, which no other of them has, its signature. -/
structure IsOf (library : RuntimeLibrary) (functions : List RuntimeFunction) : Prop where
  entries : List.Forall₂ HasEntry functions library.signatures
  get?_some : ∀ name signature, library.get? name = some signature ↔
    ∃ function, functions.filter (fun other => other.name = name) = [function] ∧
      function.HasSignature signature
  get?_none : ∀ name, library.get? name = none ↔
    ∀ function ∈ functions, function.name ≠ name
  size_eq : library.size = functions.length

/-- Entries that belong to the functions, one to each, make the library of those
functions. -/
theorem isOf_of_hasEntry
    (areEntries : List.Forall₂ HasEntry functions library.signatures)
    (distinct : (functions.map RuntimeFunction.name).Nodup) :
    library.IsOf functions where
  entries := areEntries
  get?_some name signature := by
    have distinctKeys : (library.signatures.map Prod.fst).Nodup := by
      rwa [names_of_hasEntry areEntries]
    rw [get?, lookup_eq_some_iff_mem distinctKeys, mem_entries_iff areEntries]
    simp only [filter_key_eq_singleton_iff distinct, and_assoc]
  get?_none name := by
    rw [get?_eq_none_iff, names_of_hasEntry areEntries]
    simp
  size_eq := areEntries.length_eq.symm

/-- The declared functions make a library exactly when the exposed ones have no
fault.  It is then the library of the exposed functions; otherwise their first fault
is reported.  What is not exposed makes no difference. -/
theorem ofDeclarations_isOf_exposed_or_isFirstFault (functions : List RuntimeFunction) :
    ((∃ library, ofDeclarations functions = .ok library) ↔
        AreFaultless (exposed functions)) ∧
      (∀ library, ofDeclarations functions = .ok library →
        library.IsOf (exposed functions)) ∧
      (∀ fault, ofDeclarations functions = .error fault ↔
        IsFirstFault (exposed functions) fault) ∧
      ∀ others, exposed others = exposed functions →
        ofDeclarations others = ofDeclarations functions := by
  have areExposed : ∀ function ∈ exposed functions, function.isExposed = true :=
    fun _ => isExposed_of_mem_exposed
  rw [← ofDeclarations_exposed functions]
  refine ⟨exists_ofDeclarations_eq_ok_iff areExposed, fun library declared => ?_,
    fun fault => ofDeclarations_eq_error_iff areExposed, fun others same => ?_⟩
  · rcases (ofDeclarations_eq_ok_iff areExposed).1 declared with ⟨areEntries, distinct⟩
    exact isOf_of_hasEntry areEntries distinct
  · rw [← ofDeclarations_exposed others, same]

/-- An exposed function. -/
def printer : RuntimeFunction :=
  ⟨"print", true, true, [.string], .void⟩

/-- Functions of one name, of which one is exposed. -/
def printers : List RuntimeFunction :=
  [⟨"print", false, true, [.other "Path"], .void⟩, printer, ⟨"print", true, false, [], .int⟩]

/-- One more exposed function of that name. -/
def pathPrinter : RuntimeFunction :=
  ⟨"print", true, true, [.int, .other "Path"], .other "File"⟩

theorem printers_make_library_and_pathPrinter_is_disallowed :
    (∃ library, ofDeclarations printers = .ok library ∧ library.IsOf [printer]) ∧
      ofDeclarations (printers ++ [pathPrinter]) =
        .error (.disallowed "print" (.other "Path")) := by
  have faultless : AreFaultless [printer] := by
    refine ⟨fun function isMember type isType => ?_, by decide⟩
    rw [List.mem_singleton.1 isMember] at isType
    rcases List.mem_pair.1 isType with rfl | rfl
    · exact ⟨_, rfl⟩
    · exact ⟨_, rfl⟩
  have first : pathPrinter.IsFirstUnmapped (.other "Path") := by
    refine ⟨[.int], [.other "File"], rfl, fun other isBefore => ?_, rfl⟩
    rw [List.mem_singleton.1 isBefore]
    exact ⟨_, rfl⟩
  constructor
  · rcases (ofDeclarations_isOf_exposed_or_isFirstFault printers).1.2 faultless with
      ⟨library, declared⟩
    exact ⟨library, declared,
      (ofDeclarations_isOf_exposed_or_isFirstFault printers).2.1 library declared⟩
  · exact ((ofDeclarations_isOf_exposed_or_isFirstFault (printers ++ [pathPrinter])).2.2.1 _).2
      ⟨[printer], pathPrinter, [], rfl, faultless, .disallowed _ first⟩

end RuntimeLibrary

end TarnBuild
