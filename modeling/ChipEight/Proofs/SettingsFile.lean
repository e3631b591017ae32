/-
This file proves that settings written to a file one to a line are read back, by any reader that
takes such a file as what it says.

What is left then is the meaning of the entries. Settings are put in one after the other, and as
none is put in twice, what a setting is at the end depends only on its own line, or on the
default if it has none. So the order of the lines does not matter.
-/

import ChipEight.Proofs.YamlReader
import Mathlib.Data.List.Nodup

namespace ChipEight

theorem bind_eq_ok_iff {Cause Value Result : Type} {first : Except Cause Value}
    {next : Value → Except Cause Result} {result : Result} :
    (first >>= next) = .ok result ↔ ∃ value, first = .ok value ∧ next value = .ok result := by
  cases first <;> simp [bind, Except.bind]

namespace Settings

/-! ### Settings -/

/-- The settings with one of them given a number. -/
def put (settings : Settings) (field : Field) (number : UInt64) : Settings :=
  match field with
  | .tickrate => { settings with tickrate := number }
  | .cyclesPerTick => { settings with cyclesPerTick := number }
  | .timerFrequency => { settings with timerFrequency := number }
  | .seed => { settings with seed := some number }

/-- The number of a setting. -/
def get (settings : Settings) : Field → Option UInt64
  | .tickrate => some settings.tickrate
  | .cyclesPerTick => some settings.cyclesPerTick
  | .timerFrequency => some settings.timerFrequency
  | .seed => settings.seed

theorem get_put (settings : Settings) (field other : Field) (number : UInt64) :
    (settings.put field number).get other =
      if other = field then some number else settings.get other := by
  cases field <;> cases other <;> rfl

theorem ext_get {settings other : Settings} (same : ∀ field, settings.get field = other.get field) :
    settings = other := by
  obtain ⟨tickrate, cyclesPerTick, timerFrequency, seed⟩ := settings
  obtain rfl := Option.some.inj (same .tickrate)
  obtain rfl := Option.some.inj (same .cyclesPerTick)
  obtain rfl := Option.some.inj (same .timerFrequency)
  obtain rfl := same .seed
  rfl

/-- The settings with the number of a line put in. -/
def Line.putInto (settings : Settings) (line : Line) : Settings :=
  settings.put line.1 (UInt64.ofNat line.2.toNat)

/-! ### Lines -/

/-- The number that lines give a setting. -/
def valueOf (lines : List Line) (field : Field) : Option UInt64 :=
  (lines.lookup field).map fun number => UInt64.ofNat number.toNat

/-- The settings that lines give, with the default of each setting that they do not mention. -/
def given (lines : List Line) : Settings where
  tickrate := (valueOf lines .tickrate).getD 0
  cyclesPerTick := (valueOf lines .cyclesPerTick).getD 10
  timerFrequency := (valueOf lines .timerFrequency).getD 60
  seed := valueOf lines .seed

theorem valueOf_cons (line : Line) (rest : List Line) (field : Field) :
    valueOf (line :: rest) field =
      if field = line.1 then some (UInt64.ofNat line.2.toNat) else valueOf rest field := by
  obtain ⟨other, number⟩ := line
  rw [valueOf, List.lookup_cons]
  by_cases same : field = other
  · simp [same]
  · rw [beq_false_of_ne same, if_neg same]
    rfl

theorem valueOf_eq_none_of_not_mem {lines : List Line} {field : Field}
    (absent : field ∉ lines.map Prod.fst) : valueOf lines field = none := by
  rw [valueOf, Option.map_eq_none_iff, List.lookup_eq_none_iff]
  intro line member
  have other : field ≠ line.1 := fun same => absent (same ▸ List.mem_map_of_mem member)
  simp [other]

/-- A setting has the number of its line at the end. -/
theorem get_foldl_putInto {lines : List Line} (once : (lines.map Prod.fst).Nodup)
    (settings : Settings) (field : Field) :
    (lines.foldl Line.putInto settings).get field =
      (valueOf lines field).or (settings.get field) := by
  induction lines generalizing settings with
  | nil => simp [valueOf]
  | cons line rest previous =>
    obtain ⟨absent, later⟩ := List.nodup_cons.mp once
    rw [List.foldl_cons, previous later, Line.putInto, get_put, valueOf_cons]
    by_cases same : field = line.1
    · subst same
      rw [valueOf_eq_none_of_not_mem absent, if_pos rfl, if_pos rfl]
      rfl
    · rw [if_neg same, if_neg same]

theorem foldl_putInto_eq_given {lines : List Line} (once : (lines.map Prod.fst).Nodup) :
    lines.foldl Line.putInto {} = given lines := by
  refine ext_get fun field => ?_
  rw [get_foldl_putInto once]
  cases field with
  | tickrate => cases held : valueOf lines .tickrate <;> simp [get, given, held]
  | cyclesPerTick => cases held : valueOf lines .cyclesPerTick <;> simp [get, given, held]
  | timerFrequency => cases held : valueOf lines .timerFrequency <;> simp [get, given, held]
  | seed => cases held : valueOf lines .seed <;> simp [get, given, held]

/-! ### Entries -/

section Reading

variable {reader : Reader} {plain : String → reader.Value} (assumed : reader.ReadsLines plain)
  {settings changed : Settings} {field : Field} {number : Int}

include assumed

theorem allow_eq_ok_iff {given : List String} :
    reader.allow given field.name = .ok () ↔ field.name ∉ given := by
  constructor
  · intro allowed again
    obtain ⟨words, refused⟩ := assumed.repeats given field again
    rw [refused] at allowed
    contradiction
  · exact assumed.allows given field

/-- A setting is given the number that is written, and the seed is no exception. -/
theorem set_plain : settings.set reader field (plain (toString number)) =
    (reader.unsigned (plain (toString number))).map (settings.put field) := by
  cases field with
  | tickrate => rfl
  | cyclesPerTick => rfl
  | timerFrequency => rfl
  | seed =>
    rw [set, assumed.optional]
    cases reader.unsigned (plain (toString number)) <;> rfl

theorem setNamed_eq_ok_iff :
    settings.setNamed reader field.name (plain (toString number)) = .ok changed ↔
      Fits number ∧ changed = settings.put field (UInt64.ofNat number.toNat) := by
  rw [setNamed, Field.ofName?_name]
  show settings.set reader field (plain (toString number)) = .ok changed ↔ _
  rw [set_plain assumed]
  by_cases fits : Fits number
  · rw [assumed.unsigned number fits]
    simp [Except.map, fits, eq_comm]
  · obtain ⟨words, refused⟩ := assumed.outside number fits
    rw [refused]
    simp [Except.map, fits]

/-- The lines of a file are accepted if none gives a setting that was given before, and if all
numbers fit. Then their numbers are put in one after the other. -/
theorem setAll_eq_ok_iff {before : List String} {settings result : Settings}
    {lines : List Line} :
    setAll reader before settings
        (lines.map fun line => (line.1.name, plain (toString line.2))) = .ok result ↔
      (∀ line ∈ lines, line.1.name ∉ before) ∧ (lines.map Prod.fst).Nodup ∧
        (∀ line ∈ lines, Fits line.2) ∧ result = lines.foldl Line.putInto settings := by
  induction lines generalizing before settings with
  | nil => simp [setAll, eq_comm]
  | cons line rest previous =>
    have step : setAll reader before settings
        ((line :: rest).map fun line => (line.1.name, plain (toString line.2))) = .ok result ↔
          line.1.name ∉ before ∧ Fits line.2 ∧
            setAll reader (line.1.name :: before) (line.putInto settings)
              (rest.map fun line => (line.1.name, plain (toString line.2))) = .ok result := by
      rw [List.map_cons, setAll, bind_eq_ok_iff]
      simp only [bind_eq_ok_iff, setNamed_eq_ok_iff assumed, allow_eq_ok_iff assumed]
      constructor
      · rintro ⟨_, first, changed, ⟨fits, rfl⟩, later⟩
        exact ⟨first, fits, later⟩
      · rintro ⟨first, fits, later⟩
        exact ⟨(), first, _, ⟨fits, rfl⟩, later⟩
    have apart : (∀ other ∈ rest, other.1.name ∉ line.1.name :: before) ↔
        line.1 ∉ rest.map Prod.fst ∧ ∀ other ∈ rest, other.1.name ∉ before := by
      simp only [List.mem_cons, not_or, List.mem_map, not_exists, not_and,
        Field.name_injective.eq_iff]
      exact forall₂_and.trans (and_congr_left' ⟨fun other later member same =>
        other later member same, fun other later member same => other later member same⟩)
    rw [step, previous, apart, List.forall_mem_cons, List.forall_mem_cons, List.map_cons,
      List.nodup_cons, List.foldl_cons]
    tauto

/-- Whether lines make a file that is accepted. -/
structure Acceptable (lines : List Line) : Prop where
  once : (lines.map Prod.fst).Nodup
  fit : ∀ line ∈ lines, Fits line.2

theorem ofText_fileText_eq_ok_iff {lines : List Line} {ended : Bool} :
    ofText reader (fileText lines ended) = .ok settings ↔
      Acceptable lines ∧ settings = given lines := by
  rw [ofText, assumed.entries]
  show setAll reader [] {} _ = .ok settings ↔ _
  rw [setAll_eq_ok_iff assumed]
  constructor
  · rintro ⟨-, once, fit, rfl⟩
    exact ⟨⟨once, fit⟩, foldl_putInto_eq_given once⟩
  · rintro ⟨⟨once, fit⟩, rfl⟩
    exact ⟨fun _ _ => List.not_mem_nil, once, fit, (foldl_putInto_eq_given once).symm⟩

end Reading

/-! ### The order of the lines -/

theorem Acceptable.of_perm {lines other : List Line} (same : other.Perm lines)
    (acceptable : Acceptable lines) : Acceptable other where
  once := (same.map Prod.fst).nodup_iff.mpr acceptable.once
  fit line member := acceptable.fit line (same.mem_iff.mp member)

theorem lookup_eq_some_iff_mem {lines : List Line} (once : (lines.map Prod.fst).Nodup)
    {field : Field} {number : Int} :
    lines.lookup field = some number ↔ (field, number) ∈ lines := by
  induction lines with
  | nil => simp
  | cons line rest previous =>
    obtain ⟨absent, later⟩ := List.nodup_cons.mp once
    obtain ⟨other, here⟩ := line
    rw [List.lookup_cons, List.mem_cons, Prod.mk.injEq]
    by_cases same : field = other
    · subst same
      have noOther : (field, number) ∉ rest := fun member =>
        absent (List.mem_map.mpr ⟨_, member, rfl⟩)
      simp [noOther, eq_comm]
    · rw [beq_false_of_ne same, previous later]
      simp [same]

theorem given_of_perm {lines other : List Line} (same : other.Perm lines)
    (once : (lines.map Prod.fst).Nodup) : given other = given lines := by
  have values (field : Field) : valueOf other field = valueOf lines field := by
    rw [valueOf, valueOf]
    refine congrArg _ (Option.ext fun number => ?_)
    rw [lookup_eq_some_iff_mem once, lookup_eq_some_iff_mem ((same.map _).nodup_iff.mpr once)]
    exact same.mem_iff
  simp only [given, values]

/-- A file means the same whatever the order of its lines. -/
theorem toOption_ofText_of_perm {reader : Reader} {plain : String → reader.Value}
    (assumed : reader.ReadsLines plain) {lines other : List Line} (same : other.Perm lines)
    (ended ending : Bool) :
    (ofText reader (fileText other ending)).toOption =
      (ofText reader (fileText lines ended)).toOption := by
  have accepted (text : String) (settings : Settings) :
      (ofText reader text).toOption = some settings ↔ ofText reader text = .ok settings := by
    cases ofText reader text <;> simp [Except.toOption]
  refine Option.ext fun settings => ?_
  rw [accepted, accepted, ofText_fileText_eq_ok_iff assumed, ofText_fileText_eq_ok_iff assumed]
  constructor
  · rintro ⟨acceptable, rfl⟩
    exact ⟨acceptable.of_perm same.symm, given_of_perm same (acceptable.of_perm same.symm).once⟩
  · rintro ⟨acceptable, rfl⟩
    exact ⟨acceptable.of_perm same, (given_of_perm same acceptable.once).symm⟩

/-! ### Files -/

/-- A line for each setting. -/
def written (settings : Settings) (seed : UInt64) : List Line :=
  [(.tickrate, settings.tickrate.toNat), (.cyclesPerTick, settings.cyclesPerTick.toNat),
    (.timerFrequency, settings.timerFrequency.toNat), (.seed, seed.toNat)]

theorem acceptable_written (settings : Settings) (seed : UInt64) :
    Acceptable (written settings seed) where
  once := by
    show [Field.tickrate, .cyclesPerTick, .timerFrequency, .seed].Nodup
    decide
  fit line member := by
    have fits (number : UInt64) : Fits number.toNat :=
      ⟨Int.natCast_nonneg _, Int.ofNat_lt.mpr number.toNat_lt⟩
    simp only [written, List.mem_cons, List.not_mem_nil, or_false] at member
    rcases member with rfl | rfl | rfl | rfl <;> exact fits _

theorem given_written {settings : Settings} {seed : UInt64} (seeded : settings.seed = some seed) :
    given (written settings seed) = settings := by
  obtain ⟨tickrate, cyclesPerTick, timerFrequency, _⟩ := settings
  obtain rfl := seeded
  simp [given, written, valueOf_cons]

/-- For a file with a line for each setting it gives, in any order, and a reader that takes it as
what it says: it is accepted if and only if it gives no setting twice and all its numbers are
unsigned numbers of 64 bits. Then the settings are those it gives, with the defaults for the
others. The order of the lines neither changes whether the file is accepted nor what it gives. A
number that is negative or too large makes the file an error. Settings with a seed that are
written line by line, in any order, are read back. An empty file gives the defaults. -/
theorem settings_files_read_back (reader : Reader) (plain : String → reader.Value)
    (assumed : reader.ReadsLines plain) (lines : List Line) (ended : Bool) :
    (∀ settings, ofText reader (fileText lines ended) = .ok settings ↔
      ((lines.map Prod.fst).Nodup ∧ ∀ line ∈ lines, 0 ≤ line.2 ∧ line.2 < 2 ^ 64) ∧
        settings = given lines) ∧
    ((∃ line ∈ lines, line.2 < 0 ∨ 2 ^ 64 ≤ line.2) →
      ∃ words, ofText reader (fileText lines ended) = .error words) ∧
    (∀ other ending, other.Perm lines →
      (ofText reader (fileText other ending)).toOption =
        (ofText reader (fileText lines ended)).toOption) ∧
    (∀ settings seed, settings.seed = some seed → lines.Perm (written settings seed) →
      ofText reader (fileText lines ended) = .ok settings) ∧
    ofText reader "" = .ok ⟨0, 10, 60, none⟩ := by
  refine ⟨fun settings => ?_, fun ⟨line, member, outside⟩ => ?_,
    fun other ending same => toOption_ofText_of_perm assumed same ended ending,
    fun settings seed seeded same => ?_, ?_⟩
  · rw [ofText_fileText_eq_ok_iff assumed]
    exact and_congr_left' ⟨fun ⟨once, fit⟩ => ⟨once, fit⟩, fun ⟨once, fit⟩ => ⟨once, fit⟩⟩
  · cases result : ofText reader (fileText lines ended) with
    | error words => exact ⟨words, rfl⟩
    | ok settings =>
      have acceptable := ((ofText_fileText_eq_ok_iff assumed).mp result).1
      obtain ⟨positive, small⟩ := acceptable.fit line member
      omega
  · have acceptable := (acceptable_written settings seed).of_perm same
    have whole := given_of_perm same (acceptable_written settings seed).once
    exact (ofText_fileText_eq_ok_iff assumed).mpr
      ⟨acceptable, by rw [whole, given_written seeded]⟩
  · have empty : fileText [] false = "" := rfl
    have accepted : Acceptable [] := ⟨.nil, nofun⟩
    rw [← empty]
    exact (ofText_fileText_eq_ok_iff assumed).mpr ⟨accepted, rfl⟩

/-- With the reader that the program comes with: a file with two of the settings in either order,
one with a number that is refused, and one with all settings in reverse. -/
theorem settings_files_read_back_reversed :
    let reader := Yaml.reader
    let lines : List Line := [(.seed, 7), (.tickrate, 2)]
    let settings : Settings := ⟨1, 2, 3, some 4⟩
    reader.ReadsLines (Yaml.Node.scalar .plain) ∧
    ofText reader (fileText lines true) = .ok ⟨2, 10, 60, some 7⟩ ∧
    (ofText reader (fileText lines.reverse false)).toOption = some ⟨2, 10, 60, some 7⟩ ∧
    (∃ words, ofText reader (fileText [(.seed, 2 ^ 64)] false) = .error words) ∧
    ofText reader (fileText (written settings 4).reverse true) = .ok settings := by
  intro reader lines settings
  have assumed : reader.ReadsLines (Yaml.Node.scalar .plain) := Yaml.readsLines
  obtain ⟨accepted, -, ordered, -⟩ := settings_files_read_back reader _ assumed lines true
  obtain ⟨-, refused, -⟩ :=
    settings_files_read_back reader _ assumed [(.seed, 2 ^ 64)] false
  obtain ⟨-, -, -, back, -⟩ :=
    settings_files_read_back reader _ assumed (written settings 4).reverse true
  have given : ofText reader (fileText lines true) = .ok ⟨2, 10, 60, some 7⟩ :=
    (accepted _).mpr ⟨⟨by decide, by decide⟩, by decide⟩
  refine ⟨assumed, given, ?_, refused ⟨_, List.mem_singleton_self _, .inr (Int.le_refl _)⟩,
    back settings 4 rfl (List.reverse_perm _)⟩
  rw [ordered _ false lines.reverse_perm, given]
  rfl

end Settings

end ChipEight
