/-!
# Control sequences

A terminal obeys some characters instead of showing them: single control
characters, and sequences that begin with the escape character and run up to the
character that completes them.  Text from a user may hold such characters by
intent or by accident, so they are taken out of messages.

What is left is what a reader sees: printable characters, tabs and line breaks.
Text without control characters is left as it is.
-/

namespace RiscvImage.ControlSequence

/-- How far a sequence has been read. -/
inductive State
  /-- Outside of all sequences. -/
  | ground
  /-- After the escape character. -/
  | escape
  /-- After the escape character and a character that announces one more. -/
  | escapeIntermediate
  /-- In a control sequence, which begins with `ESC [`. -/
  | control
  /-- In an operating system command, which begins with `ESC ]`. -/
  | systemCommand
  /-- At the beginning of a device control string, which begins with `ESC P`. -/
  | deviceEntry
  /-- In the parameters of a device control string. -/
  | deviceParameters
  /-- After the parameters of a device control string. -/
  | deviceIntermediate
  /-- In a character string, or in the data of a device control string. -/
  | string
  deriving DecidableEq, Repr

/-- The escape character. -/
def escapeCharacter : Char :=
  '\x1b'

/-- The bell, which ends an operating system command. -/
def bell : Char :=
  '\x07'

/-- The byte that ends a string. -/
def stringTerminator : UInt8 :=
  0x9c

/-- Whether a character breaks off every sequence. -/
def isCancel (character : Char) : Bool :=
  character = '\x18' || character = '\x1a'

/-- Whether a character is a tab, a line break or a page break. -/
def isSpacing (character : Char) : Bool :=
  character = '\t' || character = '\n' || character = '\x0c' || character = '\x0d'

/-- Whether a character is seen outside of sequences. -/
def isVisible (character : Char) : Bool :=
  isSpacing character || (' ' ≤ character && character != '\x7f')

/-- Whether a character lies between two others, both included. -/
def within (first last character : Char) : Bool :=
  first ≤ character && character ≤ last

namespace State

/-- Whether a character is seen.  Strings and commands swallow everything, the
other sequences let spacing through. -/
def shows (state : State) (character : Char) : Bool :=
  match state with
  | ground => isVisible character
  | escape | escapeIntermediate | control => isSpacing character
  | _ => false

/-- What a character after the escape character begins. -/
def afterEscape (character : Char) : State :=
  if within ' ' '/' character then escapeIntermediate
  else if character = '[' then control
  else if character = ']' then systemCommand
  else if character = 'P' then deviceEntry
  else if character = 'X' || character = '^' || character = '_' then string
  else if within '0' '~' character then ground
  else escape

/-- The state in a device control string after a character.  Characters that
cannot stand where they do make the rest of it a string without meaning. -/
def inDevice (state : State) (character : Char) : State :=
  if within '@' '~' character then string
  else if within ' ' '/' character then deviceIntermediate
  else if within '0' '?' character then
    match state with
    | deviceEntry => deviceParameters
    | deviceParameters => if within '<' '?' character then string else deviceParameters
    | _ => string
  else state

/-- The state after a character that is not seen. -/
def next (state : State) (character : Char) : State :=
  if character = escapeCharacter then escape
  else if isCancel character then ground
  else
    match state with
    | ground => ground
    | escape => afterEscape character
    | escapeIntermediate => if within '0' '~' character then ground else escapeIntermediate
    | control => if within '@' '~' character then ground else control
    | systemCommand => if character = bell then ground else systemCommand
    | deviceEntry | deviceParameters | deviceIntermediate => inDevice state character
    | string =>
      if (String.utf8EncodeChar character).contains stringTerminator then ground else string

end State

/-- A reader of text in which sequences may stand. -/
structure Reader where
  state : State
  /-- Whether the last character was seen.  Spacing inside of a sequence suspends
  it: what follows is seen until the next character that cannot be. -/
  showing : Bool
  deriving DecidableEq, Repr

namespace Reader

/-- A reader outside of all sequences. -/
def start : Reader :=
  ⟨.ground, false⟩

/-- Whether the next character is seen. -/
def shows (reader : Reader) (character : Char) : Bool :=
  (if reader.showing then State.ground else reader.state).shows character

/-- The reader after a character.  A character beyond ASCII ends a sequence that
is suspended. -/
def next (reader : Reader) (character : Char) : Reader :=
  if reader.shows character then
    ⟨if within '\x00' '\x7f' character then reader.state else .ground, true⟩
  else ⟨reader.state.next character, false⟩

/-- The characters of a text that are seen, and the reader after it. -/
def read (reader : Reader) : List Char → List Char × Reader
  | [] => ([], reader)
  | character :: rest =>
    let (seen, after) := (reader.next character).read rest
    (if reader.shows character then character :: seen else seen, after)

/-- A reader outside of all sequences sees every text without control characters
as it is. -/
theorem read_eq_self {reader : Reader} {text : List Char} (outside : reader.state = .ground)
    (visible : ∀ character ∈ text, isVisible character) : (reader.read text).1 = text := by
  induction text generalizing reader with
  | nil => rfl
  | cons character rest ih =>
      have seen : reader.shows character = true := by
        simpa [shows, outside, State.shows] using visible character (by simp)
      have stays : (reader.next character).state = .ground := by
        simp [next, seen, outside]
      simp only [read, seen, if_true]
      rw [ih stays fun other member => visible other (by simp [member])]

end Reader

end RiscvImage.ControlSequence
