import TarnBuild.Config.Data
import TarnBuild.Proofs.Except
import TarnBuild.Proofs.Host.HostType
import TarnBuild.Proofs.Listing

/-!
# Configurations read back from their data

Reading a host type from data trims its name, writing it does not.  Still, every
function and every configuration that was read from data is read back from the
data that it is written as, in whatever format, because the types in it are those
that their own names name.
-/

namespace TarnBuild

variable {Item : Type} {format : DataFormat}

/-! ## Lists and fields -/

/-- Everything that is read has some property. -/
def YieldsOnly (read : Value → Except ShapeFault Item) (property : Item → Prop) : Prop :=
  ∀ value item, read value = .ok item → property item

section Yields

variable {read : Value → Except ShapeFault Item} {property : Item → Prop}

theorem YieldsOnly.readList (yields : YieldsOnly read property) :
    YieldsOnly (readList read) fun items => ∀ item ∈ items, property item := by
  intro value items isRead
  cases value with
  | list values =>
      intro item isItem
      rcases exists_of_forall₂_of_mem (Except.mapM_eq_ok_iff.1 isRead).flip isItem with
        ⟨value, _, itemRead⟩
      exact yields value item itemRead
  | _ => cases isRead

/-- A field is read from what is given, or has the value that stands for it when
it is missing. -/
theorem YieldsOnly.readField
    {given : GivenFields} {name : String} {missing : Except ShapeFault Item} {item : Item}
    (yields : YieldsOnly read property)
    (ofMissing : ∀ item, missing = .ok item → property item)
    (isRead : readField given name read missing = .ok item) :
    property item := by
  unfold TarnBuild.readField at isRead
  split at isRead
  · exact yields _ item isRead
  · exact ofMissing item isRead

/-- Items that are each read back are read back as a list. -/
theorem readList_list_map
    {write : Item → Value} {items : List Item}
    (readBack : ∀ item ∈ items, read (write item) = .ok item) :
    readList read (.list (items.map write)) = .ok items := by
  show (items.map write).mapM read = .ok items
  rw [Except.mapM_eq_ok_iff, List.forall₂_map_left_iff, List.forall₂_same]
  exact readBack

end Yields

/-! ## Host types and functions -/

/-- Every type that is read is one that is read back. -/
theorem HostType.yieldsOnly_read : YieldsOnly read IsReadBack := by
  intro value type isRead
  cases value with
  | text text =>
      have same : ofText text = type := Except.ok.inj isRead
      exact same ▸ isReadBack_ofText text
  | _ => cases isRead

theorem HostType.IsReadBack.read_toValue {type : HostType} (isReadBack : type.IsReadBack) :
    read type.toValue = .ok type :=
  congrArg Except.ok isReadBack

theorem Surface.read_toValue (surface : Surface) :
    read format surface.toValue = .ok surface := by
  cases surface <;> rfl

namespace RuntimeFunction

variable {function : RuntimeFunction}

/-- Each type of a function is the one that its name names. -/
def IsReadBack (function : RuntimeFunction) : Prop :=
  ∀ type ∈ function.returns :: function.parameters, type.IsReadBack

theorem yieldsOnly_read : YieldsOnly (read format) IsReadBack := by
  intro value function isRead
  simp only [read, Except.bind_eq_ok_iff] at isRead
  rcases isRead with ⟨given, _, _, _, name, _, isPublic, _, isExternal, _, parameters,
    parametersRead, returns, returnsRead, ⟨⟩⟩
  refine List.forall_mem_cons.2 ⟨?_, ?_⟩
  · refine HostType.yieldsOnly_read.readField ?_ returnsRead
    rintro _ ⟨⟩
  · refine HostType.yieldsOnly_read.readList.readField ?_ parametersRead
    rintro _ ⟨⟩
    exact nofun

theorem IsReadBack.read_toValue (isReadBack : function.IsReadBack) :
    read format function.toValue = .ok function := by
  rcases List.forall_mem_cons.1 isReadBack with ⟨returns, parameters⟩
  have parametersBack := readList_list_map fun type isParameter =>
    (parameters type isParameter).read_toValue
  have returnsBack := returns.read_toValue
  simp only [read, toValue, RecordShape.given, Except.bind_eq_ok_iff]
  refine ⟨_, rfl, (), Except.forM_eq_ok_iff.2 ?_, _, rfl, _, rfl, _, rfl, _, parametersBack,
    _, returnsBack, rfl⟩
  simp only [List.forall_mem_cons]
  exact ⟨rfl, rfl, rfl, congrArg discard parametersBack, congrArg discard returnsBack, nofun⟩

end RuntimeFunction

/-! ## Settings and configurations -/

theorem BuildSettings.read_toValue (settings : BuildSettings) :
    read format settings.toValue = .ok settings := by
  have surfaceBack : Surface.read format settings.surface.toValue = .ok settings.surface :=
    Surface.read_toValue settings.surface
  simp only [read, toValue, RecordShape.given, Except.bind_eq_ok_iff]
  refine ⟨_, rfl, (), Except.forM_eq_ok_iff.2 ?_, _, rfl, _, rfl, _, surfaceBack, _, rfl, rfl⟩
  simp only [List.forall_mem_cons]
  exact ⟨rfl, rfl, congrArg discard surfaceBack, rfl, nofun⟩

namespace RuntimeSettings

variable {settings : RuntimeSettings}

/-- All types of the functions of a host are those that their names name. -/
def IsReadBack (settings : RuntimeSettings) : Prop :=
  ∀ function ∈ settings.functions, function.IsReadBack

theorem yieldsOnly_read : YieldsOnly (read format) IsReadBack := by
  intro value settings isRead
  simp only [read, Except.bind_eq_ok_iff] at isRead
  rcases isRead with ⟨given, _, functions, functionsRead, ⟨⟩⟩
  refine RuntimeFunction.yieldsOnly_read.readList.readField ?_ functionsRead
  rintro _ ⟨⟩
  exact nofun

theorem IsReadBack.read_toValue (isReadBack : settings.IsReadBack) :
    read format settings.toValue = .ok settings := by
  have functionsBack :
      readList (RuntimeFunction.read format)
        (.list (settings.functions.map RuntimeFunction.toValue)) = .ok settings.functions :=
    readList_list_map fun function isMember => (isReadBack function isMember).read_toValue
  simp only [read, toValue, RecordShape.given, Except.bind_eq_ok_iff]
  exact ⟨_, rfl, _, functionsBack, rfl⟩

end RuntimeSettings

namespace BuildConfig

variable {config : BuildConfig}

theorem yieldsOnly_read :
    YieldsOnly (read format) fun config => config.runtime.IsReadBack := by
  intro value config isRead
  simp only [read, Except.bind_eq_ok_iff] at isRead
  rcases isRead with ⟨given, _, _, _, build, _, runtime, runtimeRead, ⟨⟩⟩
  refine RuntimeSettings.yieldsOnly_read.readField ?_ runtimeRead
  rintro _ ⟨⟩
  exact nofun

theorem read_toValue (isReadBack : config.runtime.IsReadBack) :
    read format config.toValue = .ok config := by
  have buildBack : BuildSettings.read format config.build.toValue = .ok config.build :=
    BuildSettings.read_toValue config.build
  have runtimeBack : RuntimeSettings.read format config.runtime.toValue = .ok config.runtime :=
    isReadBack.read_toValue
  simp only [read, toValue, RecordShape.given, Except.bind_eq_ok_iff]
  refine ⟨_, rfl, (), Except.forM_eq_ok_iff.2 ?_, _, buildBack, _, runtimeBack, rfl⟩
  simp only [List.forall_mem_cons]
  exact ⟨congrArg discard buildBack, congrArg discard runtimeBack, nofun⟩

end BuildConfig

/-! ## What has been read -/

end TarnBuild
