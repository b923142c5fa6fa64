import RiscvImage.Proofs.Loading.Footprint
import RiscvImage.Proofs.Loading.Interruption

/-!
# Loading programs of either format

The first four bytes of a file decide how it is loaded.  With the magic bytes of images it
is loaded as an image and as nothing else, so it is never turned down for its magic.  Other
files are raw binaries, and a raw binary is either mapped as a whole, or turned down for its
length or its place before anything has changed.
-/

namespace RiscvImage

/-- The bytes `7f 45 4c 46` that images begin with. -/
def ByteString.HasMagic (file : ByteString) : Prop :=
  file.bytes.take 4 = [0x7f, 0x45, 0x4c, 0x46]

instance (file : ByteString) : Decidable file.HasMagic :=
  inferInstanceAs (Decidable (_ = _))

namespace ByteString.HasMagic

variable {file : ByteString}

theorem four_le_length (magic : file.HasMagic) : 4 ≤ file.length := by
  have length := congrArg List.length magic
  simp only [List.length_take, length_bytes, List.length_cons, List.length_nil] at length
  omega

theorem magic_ofFile (magic : file.HasMagic) :
    (FileHeader.ofFile file).magic = FileHeader.elfMagic := by
  change LittleEndian.wordAt (file.window 0 FileHeader.size).bytes 0 = _
  rw [LittleEndian.wordAt_window (by decide), bytes_window, List.drop_zero, magic]
  rfl

end ByteString.HasMagic

theorem FileHeader.validate_ne_invalidMagic {header : FileHeader} (magic : header.magic = elfMagic) :
    header.validate ≠ .error (.format .invalidMagic) := by
  rw [validate, fault?, if_neg (not_not_intro magic)]
  grind

theorem readHeader_ne_invalidMagic {file : ByteString} (magic : file.HasMagic) :
    readHeader file ≠ .error (.format .invalidMagic) := by
  have other := FileHeader.validate_ne_invalidMagic magic.magic_ofFile
  intro refused
  rw [readHeader_eq] at refused
  by_cases long : FileHeader.size ≤ file.length
  · rw [if_pos long] at refused
    cases validated : (FileHeader.ofFile file).validate with
    | error fault =>
        rw [validated] at other refused
        cases fault with
        | format error =>
            obtain rfl : error = .invalidMagic := LoadError.format.inj (Except.error.inj refused)
            exact other rfl
        | architecture machine => cases refused
    | ok _ =>
        rw [validated] at refused
        by_cases stride : (FileHeader.ofFile file).StrideSuffices .programHeader
        · simp [stride] at refused
        · simp [stride] at refused
  · rw [if_neg long] at refused
    cases refused

namespace Memory

variable {memory : Memory} {base size : UInt32} {contents : ByteString}

/-- A mapping is rejected for the reason of its refusal. -/
theorem answer_map_eq_error_iff {error : MemoryError} :
    (memory.map base size contents).answer = .error error ↔
      memory.refusal? base size = some error := by
  rw [map]
  cases memory.refusal? base size <;> simp

theorem answer_map_eq_ok_iff :
    (memory.map base size contents).answer = .ok () ↔ memory.refusal? base size = none := by
  rw [map]
  cases memory.refusal? base size <;> simp

end Memory

/-- A regular file of four bytes or more has a format, which its magic decides. -/
theorem ProgramFormat.detect_regular (file : ByteString) :
    detect (.ok (.regular file)) =
      if file.length < 4 then .error (.detection .unexpectedEnd)
      else .ok (if file.HasMagic then elf else raw) := by
  have front : File.frontExact (.regular file) 4 =
      if file.length < 4 then .error .unexpectedEnd else .ok (file.take 4) := by
    have complete : (file.take 4).length = 4 ↔ ¬ file.length < 4 := by
      rw [ByteString.length_take]
      omega
    simp only [File.frontExact, File.front, File.contents, Except.map, complete, ite_not]
  have magic : LittleEndian.word FileHeader.elfMagic = [0x7f, 0x45, 0x4c, 0x46] := by decide
  rw [detect, Except.bind, front]
  by_cases short : file.length < 4
  · simp only [short, if_true]
  · simp only [short, if_false, ByteString.bytes_take, magic]
    rfl

namespace Machine

variable {machine : Machine}

/-- An opened image is loaded as its contents are. -/
theorem loadImageFile_regular (machine : Machine) (file : ByteString) :
    machine.loadImageFile (.ok (.regular file)) = machine.loadImage (.file file) := by
  have front := readHeader_take (Nat.le_refl FileHeader.size) file
  have delivered {α : Type} (value : α) :
      (Except.ok value : Except IoFault α).mapError LoadError.io = .ok value := rfl
  cases read : readHeader file with
  | error fault =>
      have contents : (ImageSource.file file).contents = file := rfl
      rw [loadImage_of_readHeader_error (contents ▸ read)]
      simp only [loadImageFile, delivered, File.front, File.contents, Except.map, front, read, bind,
        Except.bind]
  | ok header =>
      simp only [loadImageFile, delivered, File.front, File.contents, Except.map, front, read, bind,
        Except.bind]

/-- A raw binary is turned down for its length, then for its place. -/
theorem loadRaw_regular (machine : Machine) (file : ByteString) (base entry : UInt32)
    (maxSize : Nat) :
    machine.loadRaw (.ok (.regular file)) base entry maxSize =
      if min maxSize 0xffffffff < file.length then ⟨.error (.tooLarge file.length maxSize), machine⟩
      else if file.length = 0 then ⟨.ok (), machine.reset entry⟩
      else
        match machine.memory.refusal? base (.ofNat file.length) with
        | some error => ⟨.error (.memory error), machine⟩
        | none =>
          ⟨.ok (), { machine with memory := machine.memory.insert ⟨base, file⟩ }.reset entry⟩ := by
  have long : (maxSize < file.length ∨ addressSpace ≤ file.length) ↔
      min maxSize 0xffffffff < file.length := by
    have space : addressSpace = 0x100000000 := rfl
    omega
  simp only [loadRaw, File.length, long]
  by_cases tooLarge : min maxSize 0xffffffff < file.length
  · simp only [tooLarge, if_true]
  · by_cases empty : file.length = 0
    · simp only [empty, if_true, Outcome.andThen_ok, Nat.not_lt_zero, if_false]
    · simp only [tooLarge, empty, if_false, mapFile, File.length, File.contents]
      cases machine.memory.refusal? base (.ofNat file.length) <;> rfl

/-- A regular file is dispatched by its first bytes. -/
theorem loadProgram_regular (machine : Machine) (file : ByteString) (options : LoadOptions) :
    machine.loadProgram (.ok (.regular file)) options =
      if file.length < 4 then ⟨.error (.detection .unexpectedEnd), machine⟩
      else if file.HasMagic then (machine.loadImage (.file file)).map (⟨.elf, ·⟩)
      else
        (machine.loadRaw (.ok (.regular file)) options.rawBase options.rawEntry
          options.maxRawSize).map fun _ => ⟨.raw, options.rawEntry⟩ := by
  rw [loadProgram, ProgramFormat.detect_regular]
  by_cases short : file.length < 4
  · simp only [short, if_true]
  · by_cases magic : file.HasMagic
    · simp only [short, magic, if_true, if_false, loadImageFile_regular]
    · simp only [short, magic, if_false]

/-- What comes of loading a raw binary, where `value` is the answer of success. -/
structure LoadsRaw {α : Type} (machine : Machine) (file : ByteString) (base entry : UInt32)
    (maxSize : Nat) (value : α) (outcome : Outcome LoadError Machine α) : Prop where
  tooLarge : min maxSize 0xffffffff < file.length →
    outcome = ⟨.error (.tooLarge file.length maxSize), machine⟩
  rejected : file.length ≤ min maxSize 0xffffffff → file.length ≠ 0 → ∀ error,
    (machine.memory.map base (.ofNat file.length) .empty).answer = .error error →
      outcome = ⟨.error (.memory error), machine⟩
  mapped : file.length ≤ min maxSize 0xffffffff → file.length ≠ 0 →
    (machine.memory.map base (.ofNat file.length) .empty).answer = .ok () →
      outcome.answer = .ok value ∧
        outcome.state.registers = .replicate registerCount 0 ∧ outcome.state.pc = entry ∧
        outcome.state.memory.regions.Perm (machine.memory.regions ++ [⟨base, file⟩]) ∧
        outcome.state.memory.regions.Pairwise Region.Before ∧
        outcome.state.memory.mapped.toNat = machine.memory.mapped.toNat + file.length ∧
        outcome.state.memory.limit = machine.memory.limit
  /-- An empty file maps nothing. -/
  empty : file.length = 0 → outcome = ⟨.ok value, machine.reset entry⟩

namespace LoadsRaw

variable {α β : Type} {file : ByteString} {base entry : UInt32} {maxSize : Nat} {value : α}
  {outcome : Outcome LoadError Machine α}

theorem map (loads : machine.LoadsRaw file base entry maxSize value outcome) (f : α → β) :
    machine.LoadsRaw file base entry maxSize (f value) (outcome.map f) where
  tooLarge long := by
    rw [loads.tooLarge long]
    rfl
  rejected short nonempty error rejected := by
    rw [loads.rejected short nonempty error rejected]
    rfl
  mapped short nonempty accepted := by
    obtain ⟨answer, state⟩ := loads.mapped short nonempty accepted
    rw [Outcome.answer_map, answer]
    exact ⟨rfl, state⟩
  empty none := by
    rw [loads.empty none]
    rfl

/-- A raw binary is never turned down for what it holds. -/
theorem answer_ne_format (loads : machine.LoadsRaw file base entry maxSize value outcome)
    (error : FormatError) : outcome.answer ≠ .error (.format error) := by
  intro failed
  by_cases long : min maxSize 0xffffffff < file.length
  · simp [loads.tooLarge long] at failed
  · by_cases none : file.length = 0
    · simp [loads.empty none] at failed
    · have short := Nat.le_of_not_lt long
      cases attempt : (machine.memory.map base (.ofNat file.length) .empty).answer with
      | error refusal => simp [loads.rejected short none refusal attempt] at failed
      | ok _ => simp [(loads.mapped short none attempt).1] at failed

end LoadsRaw

theorem loadsRaw_loadRaw (wellFormed : machine.memory.WellFormed) (file : ByteString)
    (base entry : UInt32) (maxSize : Nat) :
    machine.LoadsRaw file base entry maxSize ()
      (machine.loadRaw (.ok (.regular file)) base entry maxSize) where
  tooLarge long := by rw [loadRaw_regular, if_pos long]
  rejected short nonempty error rejected := by
    rw [Memory.answer_map_eq_error_iff] at rejected
    rw [loadRaw_regular, if_neg (Nat.not_lt.mpr short), if_neg nonempty, rejected]
  mapped short nonempty accepted := by
    rw [Memory.answer_map_eq_ok_iff] at accepted
    have fits : file.length < UInt32.size := by
      rw [UInt32.size]
      omega
    have size : (UInt32.ofNat file.length).toNat = file.length := UInt32.toNat_ofNat_of_lt fits
    have after : (machine.memory.insert ⟨base, file⟩).WellFormed :=
      wellFormed.insert_of_refusal? size.symm accepted
    have counted : (machine.memory.insert ⟨base, file⟩).mapped.toNat =
        machine.memory.mapped.toNat + file.length :=
      (wellFormed.toNat_mapped_add (.ofNat file.length)).trans (congrArg _ size)
    rw [loadRaw_regular, if_neg (Nat.not_lt.mpr short), if_neg nonempty, accepted]
    exact ⟨rfl, rfl, rfl, machine.memory.regions_insert_perm _, after.ordered, counted, rfl⟩
  empty none := by rw [loadRaw_regular, none, if_neg (Nat.not_lt_zero _), if_pos rfl]

/-- An image with the right magic is not turned down for its magic. -/
theorem loadImage_ne_invalidMagic {source : ImageSource} (magic : source.contents.HasMagic) :
    (machine.loadImage source).answer ≠ .error (.format .invalidMagic) := by
  intro failed
  cases read : readHeader source.contents with
  | error fault =>
      rw [loadImage_of_readHeader_error read] at failed
      obtain rfl := Except.error.inj failed
      exact readHeader_ne_invalidMagic magic read
  | ok header =>
      have stopped := walk_eq_error_of_loadImage read failed
      obtain ⟨index, -, interrupted⟩ := Memory.interrupted_of_walk_eq_error stopped
      cases interrupted.fault

/-- No file is loaded as an image without the magic of images. -/
theorem loadProgram_ne_invalidMagic (wellFormed : machine.memory.WellFormed)
    (opened : Except IoFault File) (options : LoadOptions) :
    (machine.loadProgram opened options).answer ≠ .error (.format .invalidMagic) := by
  cases opened with
  | error fault => exact nofun
  | ok file =>
      cases file with
      | directory length => exact nofun
      | regular file =>
          rw [loadProgram_regular]
          by_cases short : file.length < 4
          · rw [if_pos short]
            exact nofun
          · rw [if_neg short]
            by_cases magic : file.HasMagic
            · rw [if_pos magic, ne_eq, Outcome.answer_map_eq_error_iff]
              exact loadImage_ne_invalidMagic magic
            · rw [if_neg magic]
              exact ((loadsRaw_loadRaw wellFormed file _ _ _).map _).answer_ne_format .invalidMagic

/-- A program is loaded in the format that its first four bytes tell.  A shorter file has no
format, and what has the magic of images is loaded as an image, whether or not that succeeds.
All other files are raw binaries, which are turned down for their length or their place with
nothing changed, or mapped in one piece.  A raw binary that is loaded as such is treated in
the same way, whatever it holds. -/
theorem loadProgram_dispatches {machine : Machine} (reachable : machine.Reachable) :
    (∀ (file : ByteString) (options : LoadOptions),
      let entry := options.rawEntry?.getD options.rawBase
      let outcome := machine.loadProgram (.ok (.regular file)) options
      (file.length < 4 → outcome = ⟨.error (.detection .unexpectedEnd), machine⟩) ∧
      (file.HasMagic → outcome = (machine.loadImage (.file file)).map (⟨.elf, ·⟩)) ∧
      (4 ≤ file.length → ¬ file.HasMagic →
        machine.LoadsRaw file options.rawBase entry options.maxRawSize ⟨.raw, entry⟩ outcome)) ∧
    (∀ opened options,
      (machine.loadProgram opened options).answer ≠ .error (.format .invalidMagic)) ∧
    ∀ file base entry maxSize,
      machine.LoadsRaw file base entry maxSize ()
        (machine.loadRaw (.ok (.regular file)) base entry maxSize) := by
  have wellFormed := reachable.wellFormed
  refine ⟨?program, loadProgram_ne_invalidMagic wellFormed, loadsRaw_loadRaw wellFormed⟩
  intro file options entry outcome
  have dispatched : outcome = _ := machine.loadProgram_regular file options
  refine ⟨?short, ?image, ?raw⟩
  case short =>
    intro short
    rw [dispatched, if_pos short]
  case image =>
    intro magic
    rw [dispatched, if_neg (Nat.not_lt.mpr magic.four_le_length), if_pos magic]
  case raw =>
    intro long noMagic
    rw [dispatched, if_neg (Nat.not_lt.mpr long), if_neg noMagic]
    exact (loadsRaw_loadRaw wellFormed file options.rawBase entry options.maxRawSize).map
      fun _ => LoadedProgram.mk .raw entry

/-- A machine that has something mapped is given a file without a format, an image, and raw
binaries: one that has its place, one that has not, one that is too long and an empty one. -/
theorem loadProgram_dispatches_busy :
    let options : LoadOptions := ⟨0x3000, none, 0x100⟩
    let binary : ByteString := .ofList [1, 2, 3, 4, 5]
    busy.Reachable ∧
      busy.loadProgram (.ok (.regular (.ofList [0x7f, 0x45, 0x4c]))) options =
        ⟨.error (.detection .unexpectedEnd), busy⟩ ∧
      busy.loadProgram (.ok (.regular sampleImage)) options =
        (busy.loadImage (.file sampleImage)).map (⟨.elf, ·⟩) ∧
      (busy.loadProgram (.ok (.regular binary)) options).answer = .ok ⟨.raw, 0x3000⟩ ∧
      (busy.loadProgram (.ok (.regular binary)) options).state.memory.regions.Perm
        (busy.memory.regions ++ [⟨0x3000, binary⟩]) ∧
      busy.loadRaw (.ok (.regular binary)) 0x2008 0 5 =
        ⟨.error (.memory (.overlap 0x2008 5 0x2000)), busy⟩ ∧
      busy.loadRaw (.ok (.regular sampleImage)) 0x3000 0 5 = ⟨.error (.tooLarge 88 5), busy⟩ ∧
      busy.loadRaw (.ok (.regular .empty)) 0x2008 7 0 = ⟨.ok (), busy.reset 7⟩ := by
  intro options binary
  have reachable : busy.Reachable := (reachable_withMemory_empty 0x100).run _
  obtain ⟨program, -, raw⟩ := loadProgram_dispatches reachable
  obtain ⟨answer, -, -, regions, -⟩ :=
    ((program binary options).2.2 (by decide) (by decide)).mapped (by decide) (by decide) rfl
  exact ⟨reachable, (program _ options).1 (by decide), (program _ options).2.1 (by decide), answer,
    regions, (raw binary 0x2008 0 5).rejected (by decide) (by decide) _ rfl,
    (raw sampleImage 0x3000 0 5).tooLarge (by decide), (raw .empty 0x2008 7 0).empty rfl⟩

end Machine

end RiscvImage
