import RiscvImage.Host.FileSystem

/-!
# What is stored is found again

A path that accepts contents leads to a location that holds no directory.  So storing
something there changes nothing on the way to it or elsewhere: the path leads to the same
location afterwards, what is read from it is what was stored last, and it accepts other
contents as before.
-/

namespace RiscvImage.FileSystem

variable {files : FileSystem} {location other : List String} {file : File}

/-- Only the location at which something is put changes. -/
theorem lookup?_put (notBase : isBase location = false) (files : FileSystem) (file : File)
    (other : List String) :
    (files.put location file).lookup? other =
      if other = location then some file else files.lookup? other := by
  have kept (entries : List (List String × File)) (different : other ≠ location) :
      (entries.filter fun entry => entry.1 != location).lookup other = entries.lookup other := by
    induction entries with
    | nil => rfl
    | cons entry rest ih =>
        by_cases here : entry.1 = location
        · have miss : (other == entry.1) = false := beq_false_of_ne (here ▸ different)
          rw [List.filter_cons_of_neg (by simp [here]), ih, List.lookup_cons, miss]
        · rw [List.filter_cons_of_pos (by simp [here]), List.lookup_cons, List.lookup_cons, ih]
  by_cases same : other = location
  · rw [if_pos same, same, lookup?, notBase]
    simp [put]
  · rw [if_neg same, lookup?, lookup?]
    have miss : (other == location) = false := beq_false_of_ne same
    simp only [put, List.lookup_cons, miss, kept files.entries same]

theorem put_put (files : FileSystem) (location : List String) (first second : File) :
    (files.put location first).put location second = files.put location second := by
  simp [put]

theorem requireAdmissible_of_short {path : String} (noZero : path.contains '\x00' = false)
    (short : path.utf8ByteSize < pathSizeLimit) : requireAdmissible path = .ok () := by
  rw [requireAdmissible, noZero, if_neg Bool.false_ne_true, if_neg (Nat.not_le_of_lt short)]

/-- What a path leads to is read. -/
theorem read_of_lookup? {path : String} (admissible : requireAdmissible path = .ok ())
    (located : files.locate path = .ok location) (there : files.lookup? location = some file) :
    files.read path = .ok file := by
  rw [read, admissible, located]
  simp only [bind, Except.bind, there]
  rfl

/-- A plain name leads to the entry of that name. -/
theorem locate_name {name : String} (single : name.splitOn "/" = [name]) (some : name ≠ "")
    (notHere : name ≠ ".") (notUp : name ≠ "..") (files : FileSystem) :
    files.locate name = .ok [name] := by
  have directory : files.requireDirectory [] = .ok () := rfl
  rw [locate, single]
  simp [walk, directory, some, notHere, notUp, bind, Except.bind]

/-- What is a directory without being held by one is always there. -/
theorem isBase_of_free (free : ∀ length, files.lookup? location ≠ some (.directory length)) :
    isBase location = false := by
  rw [lookup?] at free
  by_cases base : isBase location = true
  · rw [if_pos base] at free
    exact absurd rfl (free _)
  · exact Bool.eq_false_iff.mpr base

/-- A directory stays one when something is put elsewhere. -/
theorem requireDirectory_put (free : ∀ length, files.lookup? location ≠ some (.directory length))
    (directory : files.requireDirectory other = .ok ()) (file : File) :
    (files.put location file).requireDirectory other = .ok () := by
  have elsewhere : other ≠ location := by
    rintro rfl
    rw [requireDirectory] at directory
    grind
  rwa [requireDirectory, lookup?_put (isBase_of_free free), if_neg elsewhere]

/-- The way along a path does not change when something is put at a location that holds no
directory. -/
theorem walk_put (free : ∀ length, files.lookup? location ≠ some (.directory length))
    (file : File) {start found : List String} {components : List String}
    (walked : files.walk start components = .ok found) :
    (files.put location file).walk start components = .ok found := by
  induction components generalizing start with
  | nil => exact walked
  | cons component rest ih =>
      rw [walk] at walked ⊢
      cases directory : files.requireDirectory start with
      | error fault =>
          rw [directory] at walked
          contradiction
      | ok _ =>
          rw [directory] at walked
          rw [requireDirectory_put free directory]
          simp only [bind, Except.bind] at walked ⊢
          split at walked
          case isTrue stay =>
            rw [if_pos stay]
            exact ih walked
          case isFalse moves =>
            rw [if_neg moves]
            split at walked
            case isTrue up =>
              rw [if_pos up]
              exact ih walked
            case isFalse down =>
              rw [if_neg down]
              exact ih walked

theorem locate_put (free : ∀ length, files.lookup? location ≠ some (.directory length))
    (file : File) {path : String} {found : List String}
    (located : files.locate path = .ok found) :
    (files.put location file).locate path = .ok found := by
  rw [locate] at located ⊢
  split at located
  · exact walk_put free file located
  · exact walk_put free file located

/-- The path leads to a location that can hold a regular file. -/
structure Accepts (files : FileSystem) (path : String) (location : List String) : Prop where
  admissible : requireAdmissible path = .ok ()
  bare : withoutFinalSlashes path = path
  located : files.locate path = .ok location
  free : ∀ length, files.lookup? location ≠ some (.directory length)
  nameable : isUnnameable location = false

/-- A file can be created at the path, or replaced. -/
def Creatable (files : FileSystem) (path : String) : Prop :=
  ∃ created, files.write path .empty = .ok created

theorem write_eq_ok_iff {path : String} {contents : ByteString} {written : FileSystem} :
    files.write path contents = .ok written ↔
      ∃ location, files.Accepts path location ∧
        written = files.put location (.regular contents) := by
  rw [write]
  constructor
  case mp =>
    intro stored
    cases admissible : requireAdmissible path with
    | error fault =>
        rw [admissible] at stored
        contradiction
    | ok _ =>
        cases located : files.locate (withoutFinalSlashes path) with
        | error fault =>
            simp only [admissible, located, bind, Except.bind] at stored
            contradiction
        | ok location =>
            simp only [admissible, located, bind, Except.bind] at stored
            split at stored
            case h_1 => contradiction
            case h_2 free =>
              split at stored
              case isTrue => contradiction
              case isFalse bare =>
                have bare := Decidable.of_not_not bare
                split at stored
                case isTrue => contradiction
                case isFalse nameable =>
                  refine ⟨location, ⟨admissible, bare, bare ▸ located, free, ?_⟩, ?_⟩
                  · exact Bool.eq_false_iff.mpr nameable
                  · exact (Except.ok.inj stored).symm
  case mpr =>
    rintro ⟨location, accepts, rfl⟩
    simp only [accepts.admissible, accepts.bare, accepts.located, bind, Except.bind]
    split
    case h_1 length directory => exact absurd directory (accepts.free length)
    case h_2 =>
      rw [if_neg (not_not_intro rfl), accepts.nameable]
      rfl

namespace Accepts

variable {path : String}

theorem write (accepts : files.Accepts path location) (contents : ByteString) :
    files.write path contents = .ok (files.put location (.regular contents)) :=
  write_eq_ok_iff.mpr ⟨location, accepts, rfl⟩

/-- A path that accepts contents accepts others afterwards. -/
theorem put (accepts : files.Accepts path location) (contents : ByteString) :
    (files.put location (.regular contents)).Accepts path location where
  admissible := accepts.admissible
  bare := accepts.bare
  located := locate_put accepts.free _ accepts.located
  free := by
    rw [lookup?_put (isBase_of_free accepts.free), if_pos rfl]
    exact nofun
  nameable := accepts.nameable

/-- What is stored replaces what was stored before. -/
theorem write_put (accepts : files.Accepts path location) (first second : ByteString) :
    (files.put location (.regular first)).write path second =
      .ok (files.put location (.regular second)) := by
  rw [(accepts.put first).write, put_put]

/-- What is stored is read. -/
theorem read_put (accepts : files.Accepts path location) (contents : ByteString) :
    (files.put location (.regular contents)).read path = .ok (.regular contents) := by
  refine read_of_lookup? accepts.admissible (locate_put accepts.free _ accepts.located) ?_
  rw [lookup?_put (isBase_of_free accepts.free), if_pos rfl]

end Accepts

end RiscvImage.FileSystem
