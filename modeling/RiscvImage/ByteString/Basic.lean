import RiscvImage.ByteString.Run

/-!
# Byte strings

The contents of files, images and memory are byte strings.  A byte string is kept
in runs, so a gigabyte of padding takes no room, but how it is cut into runs
cannot be told from outside: byte strings with the same bytes are equal.  Each
operation comes with what it does to the list of bytes, and nothing else needs to
be known about it.
-/

namespace RiscvImage

universe u

/-- Lists of runs are alike if they stand for the same bytes. -/
def sameBytes : Setoid ByteRuns where
  r first second := ByteRuns.bytes first = ByteRuns.bytes second
  iseqv := ⟨fun _ => rfl, Eq.symm, Eq.trans⟩

/-- A finite sequence of bytes. -/
def ByteString : Type :=
  Quotient sameBytes

namespace ByteString

/-- The bytes of a list of runs. -/
def ofRuns (runs : ByteRuns) : ByteString :=
  Quotient.mk sameBytes runs

/-- A function of the runs whose value depends on the bytes alone. -/
def lift {α : Sort u} (f : ByteRuns → α)
    (respects : ∀ first second, ByteRuns.bytes first = ByteRuns.bytes second → f first = f second)
    (s : ByteString) : α :=
  @Quotient.lift _ _ sameBytes f respects s

/-- A change of the runs that is a change of the bytes. -/
def change (f : ByteRuns → ByteRuns) (g : List UInt8 → List UInt8)
    (bytes_eq : ∀ runs, ByteRuns.bytes (f runs) = g (ByteRuns.bytes runs)) (s : ByteString) :
    ByteString :=
  s.lift (fun runs => ofRuns (f runs)) fun first second same =>
    Quotient.sound (show ByteRuns.bytes (f first) = ByteRuns.bytes (f second) by
      rw [bytes_eq, bytes_eq, same])

/-- All bytes. -/
def bytes (s : ByteString) : List UInt8 :=
  s.lift ByteRuns.bytes fun _ _ => id

/-- The number of bytes. -/
def length (s : ByteString) : Nat :=
  s.lift ByteRuns.length fun first second same => by
    rw [← ByteRuns.length_bytes, ← ByteRuns.length_bytes, same]

/-- The byte string of a list. -/
def ofList (bytes : List UInt8) : ByteString :=
  ofRuns (ByteRuns.link (.repeated bytes 1) [])

/-- A pattern, repeated some number of times. -/
def repeated (pattern : List UInt8) (count : Nat) : ByteString :=
  ofRuns (ByteRuns.link (.repeated pattern count) [])

/-- The byte string without bytes. -/
def empty : ByteString :=
  ofRuns []

/-- Zero bytes. -/
def zero (count : Nat) : ByteString :=
  repeated [0] count

/-- The bytes of both, one after the other. -/
def append (front rest : ByteString) : ByteString :=
  front.lift
    (fun runs => rest.change (ByteRuns.append runs) (ByteRuns.bytes runs ++ ·)
      (ByteRuns.bytes_append runs))
    fun first second same => by
      induction rest using Quotient.ind
      exact Quotient.sound (show ByteRuns.bytes (ByteRuns.append first _) =
        ByteRuns.bytes (ByteRuns.append second _) by
          rw [ByteRuns.bytes_append, ByteRuns.bytes_append, same])

instance : Append ByteString :=
  ⟨append⟩

/-- The bytes of several, one after the other. -/
def concat (parts : List ByteString) : ByteString :=
  parts.foldr (· ++ ·) empty

/-- The first `count` bytes, or all if there are not as many. -/
def take (s : ByteString) (count : Nat) : ByteString :=
  s.change (ByteRuns.take · count) (·.take count) (ByteRuns.bytes_take · count)

/-- All but the first `count` bytes. -/
def drop (s : ByteString) (count : Nat) : ByteString :=
  s.change (ByteRuns.drop · count) (·.drop count) (ByteRuns.bytes_drop · count)

/-- The bytes before the first one that fails a test. -/
def takeWhile (s : ByteString) (test : UInt8 → Bool) : ByteString :=
  s.change (ByteRuns.takeWhile test) (·.takeWhile test) (ByteRuns.bytes_takeWhile test)

/-- The bytes in the opposite order. -/
def reverse (s : ByteString) : ByteString :=
  s.change ByteRuns.reverse List.reverse ByteRuns.bytes_reverse

/-- Go through all bytes from the front, a run at a time.  A run has to lead where its
bytes lead one after the other. -/
def foldRuns {σ : Type} (step : σ → UInt8 → σ) (leap : σ → ByteRun → σ)
    (leap_eq : ∀ state run, leap state run = run.bytes.foldl step state) (start : σ)
    (s : ByteString) : σ :=
  s.lift (·.foldl leap start) fun first second same => by
    rw [ByteRuns.foldl_eq leap_eq, ByteRuns.foldl_eq leap_eq, same]

/-- Go through all bytes from the front. -/
def foldl {σ : Type} (step : σ → UInt8 → σ) (start : σ) (s : ByteString) : σ :=
  s.foldRuns step (fun state run => run.foldl step state)
    (fun state run => run.foldl_eq step state) start

/-- Byte strings are equal if their bytes are. -/
@[ext]
theorem ext {first second : ByteString} (same : first.bytes = second.bytes) : first = second := by
  induction first using Quotient.ind
  induction second using Quotient.ind
  exact Quotient.sound same

instance : DecidableEq ByteString := fun first second =>
  decidable_of_iff (first.bytes = second.bytes) ⟨ext, congrArg bytes⟩

instance : Repr ByteString :=
  ⟨fun s precedence => reprPrec s.bytes precedence⟩

instance : Inhabited ByteString :=
  ⟨empty⟩

theorem bytes_change (f : ByteRuns → ByteRuns) (g : List UInt8 → List UInt8)
    (bytes_eq : ∀ runs, ByteRuns.bytes (f runs) = g (ByteRuns.bytes runs)) (s : ByteString) :
    (s.change f g bytes_eq).bytes = g s.bytes := by
  induction s using Quotient.ind
  exact bytes_eq _

@[simp]
theorem length_bytes (s : ByteString) : s.bytes.length = s.length := by
  induction s using Quotient.ind
  exact ByteRuns.length_bytes _

@[simp]
theorem bytes_ofList (bytes : List UInt8) : (ofList bytes).bytes = bytes :=
  (ByteRuns.bytes_link _ _).trans (by simp)

@[simp]
theorem ofList_bytes (s : ByteString) : ofList s.bytes = s :=
  ext (bytes_ofList _)

@[simp]
theorem bytes_repeated (pattern : List UInt8) (count : Nat) :
    (repeated pattern count).bytes = (List.replicate count pattern).flatten :=
  (ByteRuns.bytes_link _ _).trans (by simp)

@[simp]
theorem bytes_empty : empty.bytes = [] :=
  rfl

@[simp]
theorem bytes_zero (count : Nat) : (zero count).bytes = List.replicate count 0 := by
  simp [zero]

@[simp]
theorem bytes_append (front rest : ByteString) :
    (front ++ rest).bytes = front.bytes ++ rest.bytes := by
  induction front using Quotient.ind
  exact bytes_change _ _ (ByteRuns.bytes_append _) rest

@[simp]
theorem bytes_concat (parts : List ByteString) :
    (concat parts).bytes = parts.flatMap bytes := by
  induction parts with
  | nil => rfl
  | cons part parts ih =>
    rw [concat, List.foldr_cons, bytes_append, List.flatMap_cons]
    exact congrArg _ ih

@[simp]
theorem bytes_take (s : ByteString) (count : Nat) : (s.take count).bytes = s.bytes.take count :=
  bytes_change _ _ _ s

@[simp]
theorem bytes_drop (s : ByteString) (count : Nat) : (s.drop count).bytes = s.bytes.drop count :=
  bytes_change _ _ _ s

@[simp]
theorem bytes_takeWhile (s : ByteString) (test : UInt8 → Bool) :
    (s.takeWhile test).bytes = s.bytes.takeWhile test :=
  bytes_change _ _ _ s

@[simp]
theorem bytes_reverse (s : ByteString) : s.reverse.bytes = s.bytes.reverse :=
  bytes_change _ _ _ s

theorem foldRuns_eq {σ : Type} {step : σ → UInt8 → σ} {leap : σ → ByteRun → σ}
    (leap_eq : ∀ state run, leap state run = run.bytes.foldl step state) (start : σ)
    (s : ByteString) : s.foldRuns step leap leap_eq start = s.bytes.foldl step start := by
  induction s using Quotient.ind
  exact ByteRuns.foldl_eq leap_eq start _

theorem foldl_eq {σ : Type} (step : σ → UInt8 → σ) (start : σ) (s : ByteString) :
    s.foldl step start = s.bytes.foldl step start :=
  foldRuns_eq _ start s

theorem length_eq (s : ByteString) : s.length = s.bytes.length :=
  s.length_bytes.symm

@[simp]
theorem length_ofList (bytes : List UInt8) : (ofList bytes).length = bytes.length := by
  simp [length_eq, -length_bytes]

@[simp]
theorem length_empty : empty.length = 0 :=
  rfl

@[simp]
theorem length_zero (count : Nat) : (zero count).length = count := by
  simp [length_eq, -length_bytes]

@[simp]
theorem length_repeated (pattern : List UInt8) (count : Nat) :
    (repeated pattern count).length = count * pattern.length := by
  simp [length_eq, -length_bytes]

@[simp]
theorem length_append (front rest : ByteString) :
    (front ++ rest).length = front.length + rest.length := by
  simp [length_eq, -length_bytes]

@[simp]
theorem length_take (s : ByteString) (count : Nat) :
    (s.take count).length = min count s.length := by
  simp [length_eq, -length_bytes]

@[simp]
theorem length_drop (s : ByteString) (count : Nat) : (s.drop count).length = s.length - count := by
  simp [length_eq, -length_bytes]

@[simp]
theorem length_reverse (s : ByteString) : s.reverse.length = s.length := by
  simp [length_eq, -length_bytes]

theorem eq_empty_of_length_eq_zero {s : ByteString} (none : s.length = 0) : s = empty :=
  ext (List.eq_nil_of_length_eq_zero (s.length_bytes.trans none))

@[simp]
theorem empty_append (s : ByteString) : empty ++ s = s := by
  ext1
  simp

@[simp]
theorem append_empty (s : ByteString) : s ++ empty = s := by
  ext1
  simp

theorem append_assoc (first second third : ByteString) :
    first ++ second ++ third = first ++ (second ++ third) := by
  ext1
  simp

@[simp]
theorem concat_nil : concat [] = empty :=
  rfl

@[simp]
theorem concat_cons (part : ByteString) (parts : List ByteString) :
    concat (part :: parts) = part ++ concat parts :=
  rfl

@[simp]
theorem concat_append (front rest : List ByteString) :
    concat (front ++ rest) = concat front ++ concat rest := by
  ext1
  simp

theorem take_append (front rest : ByteString) (count : Nat) :
    (front ++ rest).take count = front.take count ++ rest.take (count - front.length) := by
  ext1
  simp [List.take_append]

theorem take_of_length_le {s : ByteString} {count : Nat} (short : s.length ≤ count) :
    s.take count = s := by
  ext1
  rw [bytes_take, List.take_of_length_le (by rwa [length_bytes])]

@[simp]
theorem take_zero (s : ByteString) : s.take 0 = empty := by
  ext1
  simp

end ByteString

end RiscvImage
