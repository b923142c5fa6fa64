/-!
# Runs of bytes

Images and memory are often gigabytes of the same few bytes.  A run keeps such a
stretch as a pattern and the number of its repetitions, and a list of runs stands
for the bytes of all of them.  Cutting and joining lists of runs takes time in
their number, not in the number of bytes; each operation is said on the bytes.
-/

namespace RiscvImage

/-- A pattern of bytes and how often it is repeated. -/
structure ByteRun where
  pattern : List UInt8
  /-- The length of the pattern, kept so that it is counted only once. -/
  width : Nat
  count : Nat
  width_eq : width = pattern.length

namespace ByteRun

/-- A pattern that is repeated. -/
def repeated (pattern : List UInt8) (count : Nat) : ByteRun :=
  ⟨pattern, pattern.length, count, rfl⟩

/-- The bytes of a run. -/
def bytes (run : ByteRun) : List UInt8 :=
  (List.replicate run.count run.pattern).flatten

/-- The number of bytes of a run. -/
def length (run : ByteRun) : Nat :=
  run.count * run.width

/-- The same pattern, repeated as often as told. -/
def times (run : ByteRun) (count : Nat) : ByteRun :=
  { run with count }

/-- At most the first `size` bytes of the pattern, once. -/
def patternFront (run : ByteRun) (size : Nat) : ByteRun :=
  ⟨run.pattern.take size, min size run.width, 1, by rw [run.width_eq, List.length_take]⟩

/-- The pattern without its first `size` bytes, once. -/
def patternRest (run : ByteRun) (size : Nat) : ByteRun :=
  ⟨run.pattern.drop size, run.width - size, 1, by rw [run.width_eq, List.length_drop]⟩

/-- The bytes of a run in the opposite order. -/
def reverse (run : ByteRun) : ByteRun :=
  ⟨run.pattern.reverse, run.width, run.count, by rw [run.width_eq, List.length_reverse]⟩

/-- Go through the bytes of a run from the front. -/
@[specialize]
def foldl {σ : Type} (step : σ → UInt8 → σ) (start : σ) (run : ByteRun) : σ :=
  run.count.repeat (fun state => run.pattern.foldl step state) start

@[simp]
theorem length_bytes (run : ByteRun) : run.bytes.length = run.length := by
  simp [bytes, length, run.width_eq]

@[simp]
theorem bytes_repeated (pattern : List UInt8) (count : Nat) :
    (repeated pattern count).bytes = (List.replicate count pattern).flatten :=
  rfl

@[simp]
theorem bytes_patternFront (run : ByteRun) (size : Nat) :
    (run.patternFront size).bytes = run.pattern.take size := by
  simp [bytes, patternFront]

@[simp]
theorem bytes_patternRest (run : ByteRun) (size : Nat) :
    (run.patternRest size).bytes = run.pattern.drop size := by
  simp [bytes, patternRest]

@[simp]
theorem bytes_reverse (run : ByteRun) : run.reverse.bytes = run.bytes.reverse := by
  simp [bytes, reverse, List.reverse_flatten]

theorem foldl_eq {σ : Type} (step : σ → UInt8 → σ) (start : σ) (run : ByteRun) :
    run.foldl step start = run.bytes.foldl step start := by
  rw [foldl, bytes, List.foldl_flatten]
  induction run.count generalizing start with
  | zero => rfl
  | succ count ih =>
    rw [List.replicate_succ', List.foldl_append, ← ih]
    rfl

/-- A position inside a run splits it into whole patterns, the pattern that the
position lies in, and the whole patterns after that. -/
theorem bytes_eq_of_lt {run : ByteRun} {position : Nat} (inside : position < run.length) :
    run.bytes = (run.times (position / run.width)).bytes ++
      (run.pattern ++ (run.times (run.count - position / run.width - 1)).bytes) := by
  have before : position / run.width < run.count := by
    simp only [length] at inside
    exact Nat.div_lt_of_lt_mul (by rwa [Nat.mul_comm])
  have counts : run.count =
      position / run.width + (1 + (run.count - position / run.width - 1)) := by omega
  conv => lhs; rw [bytes, counts]
  simp [← List.replicate_append_replicate, bytes, times]

theorem length_times_div (run : ByteRun) (position : Nat) :
    (run.times (position / run.width)).bytes.length = position / run.width * run.width := by
  rw [length_bytes]
  rfl

end ByteRun

/-- A list of runs, which stands for the bytes of all of them. -/
abbrev ByteRuns :=
  List ByteRun

namespace ByteRuns

/-- All bytes. -/
def bytes (runs : ByteRuns) : List UInt8 :=
  runs.flatMap ByteRun.bytes

/-- The number of all bytes. -/
def length (runs : ByteRuns) : Nat :=
  runs.foldl (fun total run => total + run.length) 0

/-- Put a run in front of others.  It becomes one with the first of them if both
repeat the same pattern, and is dropped if it is empty. -/
def link (run : ByteRun) (runs : ByteRuns) : ByteRuns :=
  if run.length = 0 then runs
  else
    match runs with
    | [] => [run]
    | next :: rest =>
      if run.pattern = next.pattern then run.times (run.count + next.count) :: rest
      else run :: next :: rest

/-- Put runs in front of others.  Only the last of them can become one with what
follows. -/
def append (front rest : ByteRuns) : ByteRuns :=
  match List.reverse front with
  | [] => rest
  | last :: before => List.reverseAux before (link last rest)

/-- The runs of the first `count` bytes after those already `taken`, the last of which
stands first. -/
def takeOnto (taken : ByteRuns) : ByteRuns → (count : Nat) → ByteRuns
  | [], _ => List.reverse taken
  | run :: rest, count =>
    if run.length ≤ count then takeOnto (run :: taken) rest (count - run.length)
    else
      List.reverse taken ++
        link (run.times (count / run.width)) (link (run.patternFront (count % run.width)) [])

/-- The runs of the first `count` bytes. -/
def take (runs : ByteRuns) (count : Nat) : ByteRuns :=
  takeOnto [] runs count

/-- The runs of all but the first `count` bytes. -/
def drop : ByteRuns → (count : Nat) → ByteRuns
  | [], _ => []
  | run :: rest, count =>
    if run.length ≤ count then drop rest (count - run.length)
    else
      link (run.patternRest (count % run.width))
        (link (run.times (run.count - count / run.width - 1)) rest)

/-- The runs of the bytes before the first one that fails a test. -/
def takeWhile (test : UInt8 → Bool) : ByteRuns → ByteRuns
  | [] => []
  | run :: rest =>
    if run.count = 0 then takeWhile test rest
    else if run.pattern.all test then run :: takeWhile test rest
    else [.repeated (run.pattern.takeWhile test) 1]

/-- The runs of the bytes in the opposite order. -/
def reverse (runs : ByteRuns) : ByteRuns :=
  List.reverse (runs.map ByteRun.reverse)

@[simp]
theorem bytes_nil : bytes [] = [] :=
  rfl

@[simp]
theorem bytes_cons (run : ByteRun) (runs : ByteRuns) :
    bytes (run :: runs) = run.bytes ++ bytes runs :=
  rfl

@[simp]
theorem bytes_concat (front rest : ByteRuns) :
    bytes (front ++ rest) = bytes front ++ bytes rest :=
  List.flatMap_append

theorem length_bytes (runs : ByteRuns) : (bytes runs).length = length runs := by
  suffices counted : ∀ (before : Nat) (runs : ByteRuns),
      runs.foldl (fun total run => total + run.length) before = before + (bytes runs).length by
    rw [length, counted, Nat.zero_add]
  intro before runs
  induction runs generalizing before with
  | nil => rfl
  | cons run runs ih =>
    rw [List.foldl_cons, ih, bytes_cons, List.length_append, ByteRun.length_bytes, Nat.add_assoc]

@[simp]
theorem bytes_link (run : ByteRun) (runs : ByteRuns) :
    bytes (link run runs) = run.bytes ++ bytes runs := by
  unfold link
  split
  case isTrue empty =>
    rw [List.eq_nil_of_length_eq_zero (run.length_bytes.trans empty), List.nil_append]
  case isFalse =>
    split
    case h_1 => rfl
    case h_2 next rest =>
      split
      case isTrue same =>
        simp [ByteRun.bytes, ByteRun.times, ← List.replicate_append_replicate, same]
      case isFalse => rfl

@[simp]
theorem bytes_append (front rest : ByteRuns) :
    bytes (append front rest) = bytes front ++ bytes rest := by
  unfold append
  split
  case h_1 none => rw [List.reverse_eq_nil_iff.1 none, bytes_nil, List.nil_append]
  case h_2 last before ends =>
    rw [List.reverse_eq_cons_iff.1 ends, List.reverseAux_eq, bytes_concat, bytes_concat, bytes_link,
      bytes_cons, bytes_nil, List.append_nil, List.append_assoc]

/-- Where a position inside a run divides its bytes. -/
theorem take_drop_of_lt {run : ByteRun} {position : Nat} (inside : position < run.length) :
    run.bytes.take position =
        (run.times (position / run.width)).bytes ++ run.pattern.take (position % run.width) ∧
      run.bytes.drop position =
        run.pattern.drop (position % run.width) ++
          (run.times (run.count - position / run.width - 1)).bytes := by
  have wide : 0 < run.width := by
    simp only [ByteRun.length] at inside
    exact Nat.pos_of_ne_zero fun none => by simp [none] at inside
  have whole : position / run.width * run.width + position % run.width = position :=
    Nat.div_add_mod' position run.width
  have part : position % run.width < run.pattern.length := run.width_eq ▸ Nat.mod_lt _ wide
  have before := ByteRun.length_times_div run position
  have excess : position - (run.times (position / run.width)).bytes.length =
      position % run.width := by omega
  rw [ByteRun.bytes_eq_of_lt inside]
  constructor
  · rw [List.take_append, List.take_of_length_le (by omega), excess, List.take_append_of_le_length
      (by omega)]
  · rw [List.drop_append, List.drop_of_length_le (by omega), excess, List.drop_append_of_le_length
      (by omega), List.nil_append]

theorem bytes_takeOnto (taken runs : ByteRuns) (count : Nat) :
    bytes (takeOnto taken runs count) = bytes (List.reverse taken) ++ (bytes runs).take count := by
  induction runs generalizing taken count with
  | nil => simp [takeOnto]
  | cons run runs ih =>
    rw [takeOnto]
    split
    case isTrue all =>
      rw [ih]
      simp [List.take_append, List.take_of_length_le, all]
    case isFalse some =>
      have inside : count < run.length := by omega
      have none : count - run.length = 0 := by omega
      simp [List.take_append, none, (take_drop_of_lt inside).1]

@[simp]
theorem bytes_take (runs : ByteRuns) (count : Nat) :
    bytes (take runs count) = (bytes runs).take count := by
  simp [take, bytes_takeOnto]

@[simp]
theorem bytes_drop (runs : ByteRuns) (count : Nat) :
    bytes (drop runs count) = (bytes runs).drop count := by
  induction runs generalizing count with
  | nil => simp [drop]
  | cons run runs ih =>
    rw [drop]
    split
    case isTrue all =>
      rw [ih]
      simp [List.drop_append, List.drop_of_length_le, all]
    case isFalse some =>
      have inside : count < run.length := by omega
      have none : count - run.length = 0 := by omega
      simp [List.drop_append, none, (take_drop_of_lt inside).2]

/-- The bytes that pass a test end in the first repetition of a pattern or not in
this run. -/
theorem takeWhile_bytes (test : UInt8 → Bool) (run : ByteRun) (rest : List UInt8)
    (some : run.count ≠ 0) :
    (run.bytes ++ rest).takeWhile test =
      if run.pattern.all test then run.bytes ++ rest.takeWhile test
      else run.pattern.takeWhile test := by
  split
  case isTrue all =>
    refine List.takeWhile_append_of_pos fun byte member => ?_
    simp only [ByteRun.bytes, List.mem_flatten, List.mem_replicate] at member
    obtain ⟨pattern, ⟨-, rfl⟩, member⟩ := member
    exact List.all_eq_true.1 all byte member
  case isFalse notAll =>
    obtain ⟨count, counts⟩ := Nat.exists_eq_succ_of_ne_zero some
    have short : (run.pattern.takeWhile test).length ≠ run.pattern.length := fun same =>
      notAll ((List.takeWhile_prefix test).eq_of_length same ▸ List.all_takeWhile)
    rw [ByteRun.bytes, counts, List.replicate_succ, List.flatten_cons, List.append_assoc,
      List.takeWhile_append, if_neg short]

@[simp]
theorem bytes_takeWhile (test : UInt8 → Bool) (runs : ByteRuns) :
    bytes (takeWhile test runs) = (bytes runs).takeWhile test := by
  induction runs with
  | nil => rfl
  | cons run runs ih =>
    rw [takeWhile]
    split
    case isTrue none => simp [ih, ByteRun.bytes, none]
    case isFalse some =>
      rw [bytes_cons, takeWhile_bytes test run _ some]
      split <;> simp [ih]

@[simp]
theorem bytes_reverse (runs : ByteRuns) : bytes (reverse runs) = (bytes runs).reverse := by
  induction runs with
  | nil => rfl
  | cons run runs ih =>
    simp only [reverse] at ih
    simp [reverse, ih]

/-- Going through a list of runs one at a time, where a run leads to what its bytes
lead to. -/
theorem foldl_eq {σ : Type} {step : σ → UInt8 → σ} {leap : σ → ByteRun → σ}
    (leap_eq : ∀ state run, leap state run = run.bytes.foldl step state) (start : σ)
    (runs : ByteRuns) : runs.foldl leap start = (bytes runs).foldl step start := by
  induction runs generalizing start with
  | nil => rfl
  | cons run runs ih => rw [List.foldl_cons, ih, leap_eq, bytes_cons, List.foldl_append]

end ByteRuns

end RiscvImage
