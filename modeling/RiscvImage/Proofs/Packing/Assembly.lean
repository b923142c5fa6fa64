import RiscvImage.Packing
import RiscvImage.Proofs.Host.Session
import RiscvImage.Proofs.Object.Reachable

/-!
# What is assembled

The object that options describe is known from the contents of the input files.  It is
assembled unless the text or the data with its reserved space leaves the address space, and
the files stay as they are in either case.  Its only label is the entry, so no label is ever
defined twice.
-/

namespace RiscvImage.PackOptions

/-- The input files can be read and are no longer than an item can be.  Without a data file
there are no data. -/
structure Supplied (options : PackOptions) (files : FileSystem) (text data : ByteString) :
    Prop where
  readText : files.read options.text = .ok (.regular text)
  readData : ∀ path, options.data? = some path → files.read path = .ok (.regular data)
  noData : options.data? = none → data.length = 0
  textShort : text.length < addressSpace
  dataShort : data.length < addressSpace

/-- The text ends within the address space. -/
def TextFits (options : PackOptions) (text : ByteString) : Prop :=
  options.textBase.toNat + text.length ≤ addressSpace

/-- The data and the space behind them end within the address space and do not fill all
of it. -/
def DataFits (options : PackOptions) (data : ByteString) : Prop :=
  data.length + options.bss.toNat < addressSpace ∧
    options.dataBase.toNat + (data.length + options.bss.toNat) ≤ addressSpace

instance (options : PackOptions) (text : ByteString) : Decidable (options.TextFits text) :=
  inferInstanceAs (Decidable (_ ≤ _))

instance (options : PackOptions) (data : ByteString) : Decidable (options.DataFits data) :=
  inferInstanceAs (Decidable (_ ∧ _))

/-- The object with the text and nothing else. -/
def withText (options : PackOptions) (text : ByteString) : Object where
  text := ⟨.text, options.textBase, .ofNat text.length, [.bytes text]⟩
  data := .empty .data options.dataBase
  labels := []

/-- The object with the contents of both input files and nothing else. -/
def initialised (options : PackOptions) (text data : ByteString) : Object :=
  { options.withText text with
    data := ⟨.data, options.dataBase, .ofNat data.length,
      options.data?.toList.map fun _ => .bytes data⟩ }

/-- The object that the options describe, given the contents of the input files. -/
def object (options : PackOptions) (text data : ByteString) : Object where
  text := (options.initialised text data).text
  data := { (options.initialised text data).data with
    size := .ofNat (data.length + options.bss.toNat)
    items := (options.initialised text data).data.items ++
      if options.bss = 0 then [] else [.zero options.bss] }
  labels := options.entry?.toList.map fun entry => (options.entrySymbol, entry)

/-- What is left to do when the contents of the input files are in place. -/
def complete (options : PackOptions) (object : Object) : ExceptT PackError Session Object := do
  let object ←
    if options.bss = 0 then pure object
    else require (object.edit .data (·.pushZero options.bss))
  match options.entry? with
  | none => return object
  | some entry => require (object.defineLabel options.entrySymbol entry)

variable {options : PackOptions} {files : FileSystem} {text data : ByteString}

theorem outcome_readInput {name path : String} {contents : ByteString}
    (readable : files.read path = .ok (.regular contents)) :
    Session.outcome (readInput name path) files = ⟨.ok contents, files⟩ := by
  have opened : (Session.openFile path).run files = ⟨.ok (.regular contents), [], files⟩ := by
    rw [Session.openFile, Session.run, readable]
    rfl
  rw [readInput, Session.outcome_bind, Session.outcome_lift, opened]
  rfl

/-- What an operation on the object leaves behind is kept only if it succeeds. -/
theorem outcome_require {α : Type} (outcome : Outcome ObjectError Object α) (files : FileSystem) :
    Session.outcome (require outcome) files =
      ⟨(outcome.answer.map fun _ => outcome.state).mapError PackError.object, files⟩ := by
  rw [require]
  cases outcome.answer <;> rfl

/-- A push has to fit, and is appended to the section then. -/
theorem outcome_require_push {object : Object} {kind : SectionKind} {item : Item} {size : Nat}
    (total : (object.get kind).size.toNat + item.length = size) (files : FileSystem) :
    Session.outcome (require (object.edit kind (·.push item))) files =
      ⟨if size < addressSpace ∧ (object.get kind).base.toNat + size ≤ addressSpace then
          .ok (object.set kind { object.get kind with
            size := .ofNat size, items := (object.get kind).items ++ [item] })
        else .error (.object (.sectionOverflow (object.get kind).kind)), files⟩ := by
  rw [outcome_require, Object.edit]
  simp only [Section.push, total]
  split <;> rfl

/-- The text is the first to be put in place. -/
theorem outcome_pushText (textShort : text.length < addressSpace) (files : FileSystem) :
    Session.outcome (require ((Object.empty options.textBase options.dataBase).edit .text
        (·.pushBytes text))) files =
      ⟨if options.TextFits text then .ok (options.withText text)
        else .error (.object (.sectionOverflow .text)), files⟩ := by
  have total : ((Object.empty options.textBase options.dataBase).get .text).size.toNat +
      (Item.bytes text).length = text.length := Nat.zero_add _
  refine (outcome_require_push total files).trans ?_
  simp only [textShort, true_and]
  rfl

/-- The data of a file follow the text. -/
theorem outcome_pushData {path : String} (given : options.data? = some path)
    (dataShort : data.length < addressSpace) (text : ByteString) (files : FileSystem) :
    Session.outcome (require ((options.withText text).edit .data (·.pushBytes data))) files =
      ⟨if options.dataBase.toNat + data.length ≤ addressSpace then
          .ok (options.initialised text data)
        else .error (.object (.sectionOverflow .data)), files⟩ := by
  have total : ((options.withText text).get .data).size.toNat + (Item.bytes data).length =
      data.length := Nat.zero_add _
  refine (outcome_require_push total files).trans ?_
  simp only [dataShort, true_and, initialised, given]
  rfl

/-- The first label of an object is never a duplicate. -/
theorem outcome_require_defineLabel {object : Object} (noLabels : object.labels = [])
    (name : String) (address : UInt32) (files : FileSystem) :
    Session.outcome (require (object.defineLabel name address)) files =
      ⟨.ok { object with labels := [(name, address)] }, files⟩ := by
  rw [outcome_require, Object.defineLabel, Object.findLabel?, noLabels]
  rfl

/-- The entry, if there is one, becomes the only label. -/
theorem outcome_bindEntry {object : Object} (noLabels : object.labels = []) (options : PackOptions)
    (files : FileSystem) :
    Session.outcome (match options.entry? with
      | none => pure object
      | some entry => require (object.defineLabel options.entrySymbol entry)) files =
      ⟨.ok { object with
          labels := options.entry?.toList.map fun entry => (options.entrySymbol, entry) },
        files⟩ := by
  cases options.entry? with
  | none => rw [Session.outcome_pure, Option.toList_none, List.map_nil, ← noLabels]
  | some entry => exact outcome_require_defineLabel noLabels _ _ _

/-- Reserving space fails if the data do not fit with it. -/
theorem outcome_complete (dataShort : data.length < addressSpace)
    (inside : options.dataBase.toNat + data.length ≤ addressSpace) (text : ByteString)
    (files : FileSystem) :
    Session.outcome (options.complete (options.initialised text data)) files =
      ⟨if options.DataFits data then .ok (options.object text data)
        else .error (.object (.sectionOverflow .data)), files⟩ := by
  rw [complete]
  by_cases none : options.bss = 0
  · have fits : options.DataFits data := by
      rw [DataFits, none]
      exact ⟨dataShort, inside⟩
    simp only [none, if_true, Session.outcome_bind, Session.outcome_pure, Outcome.andThen_ok]
    rw [outcome_bindEntry rfl, if_pos fits, object, none, if_pos rfl, List.append_nil]
    rfl
  · have total : ((options.initialised text data).get .data).size.toNat +
        (Item.zero options.bss).length = data.length + options.bss.toNat :=
      congrArg (· + _) (UInt32.toNat_ofNat_of_lt dataShort)
    have reserve (s : Section) : s.pushZero options.bss = s.push (.zero options.bss) := rfl
    simp only [if_neg none, Session.outcome_bind, reserve]
    rw [outcome_require_push total]
    split
    case isTrue fits =>
      have dataFits : options.DataFits data := fits
      rw [Outcome.andThen_ok, outcome_bindEntry rfl, if_pos dataFits, object, if_neg none]
      rfl
    case isFalse long =>
      have dataLong : ¬ options.DataFits data := long
      rw [Outcome.andThen_error, if_neg dataLong]
      rfl

/-- The object is assembled unless the text or the data do not fit, and no file changes. -/
theorem outcome_assemble (supplied : options.Supplied files text data) :
    Session.outcome options.assemble files =
      ⟨if options.TextFits text then
          if options.DataFits data then .ok (options.object text data)
          else .error (.object (.sectionOverflow .data))
        else .error (.object (.sectionOverflow .text)), files⟩ := by
  rw [assemble]
  simp only [Session.outcome_bind, outcome_readInput supplied.readText, Outcome.andThen_ok,
    outcome_pushText supplied.textShort]
  by_cases textFits : options.TextFits text
  case neg => rw [if_neg textFits, if_neg textFits, Outcome.andThen_error]
  rw [if_pos textFits, if_pos textFits, Outcome.andThen_ok]
  cases given : options.data? with
  | none =>
      have start : options.withText text = options.initialised text data := by
        rw [initialised, given, supplied.noData given]
        rfl
      have inside : options.dataBase.toNat + data.length ≤ addressSpace := by
        rw [supplied.noData given]
        exact Nat.le_of_lt options.dataBase.toNat_lt
      rw [start]
      exact outcome_complete supplied.dataShort inside text files
  | some path =>
      simp only [Session.outcome_bind, outcome_readInput (supplied.readData path given),
        Outcome.andThen_ok, outcome_pushData given supplied.dataShort]
      by_cases inside : options.dataBase.toNat + data.length ≤ addressSpace
      case neg =>
        have long : ¬ options.DataFits data := by
          intro fits
          have := fits.2
          omega
        rw [if_neg inside, if_neg long, Outcome.andThen_error]
      case pos =>
        rw [if_pos inside, Outcome.andThen_ok]
        exact outcome_complete supplied.dataShort inside text files

/-- The contents of the input files, followed by the reserved space. -/
theorem contents_data_object (supplied : options.Supplied files text data) :
    (options.object text data).data.contents = data ++ .zero options.bss.toNat := by
  have reserved : ByteString.concat ((if options.bss = 0 then [] else
      [Item.zero options.bss]).map Item.contents) = .zero options.bss.toNat := by
    split
    case isTrue none =>
      ext1
      simp [none]
    case isFalse => exact ByteString.append_empty _
  rw [Section.contents, object, initialised, List.map_append, ByteString.concat_append, reserved]
  refine congrArg (· ++ _) ?_
  cases given : options.data? with
  | none => exact (ByteString.eq_empty_of_length_eq_zero (supplied.noData given)).symm
  | some path => exact ByteString.append_empty _

theorem isWhole_object (options : PackOptions) (text data : ByteString) :
    (options.object text data).IsWhole := by
  intro kind item member
  cases item with
  | bytes contents => trivial
  | zero size => trivial
  | padding fill size => cases kind <;> simp [object, initialised, withText, Object.get] at member

theorem toNat_size_text_object (supplied : options.Supplied files text data) :
    (options.object text data).text.size.toNat = text.length :=
  UInt32.toNat_ofNat_of_lt supplied.textShort

theorem toNat_size_data_object (text : ByteString) (fits : options.DataFits data) :
    (options.object text data).data.size.toNat = data.length + options.bss.toNat :=
  UInt32.toNat_ofNat_of_lt fits.1

theorem wellFormed_object (supplied : options.Supplied files text data)
    (textFits : options.TextFits text) (dataFits : options.DataFits data) :
    (options.object text data).WellFormed where
  kinds kind := by cases kind <;> rfl
  sections kind := by
    have whole := isWhole_object options text data kind
    constructor
    case counted =>
      rw [← whole.length_contents]
      cases kind with
      | text =>
          refine (toNat_size_text_object supplied).trans ?_
          exact congrArg ByteString.length (ByteString.append_empty text).symm
      | data =>
          refine (toNat_size_data_object text dataFits).trans ?_
          rw [Object.get, contents_data_object supplied, ByteString.length_append,
            ByteString.length_zero]
    case inside =>
      cases kind with
      | text =>
          rw [Object.get, toNat_size_text_object supplied]
          exact textFits
      | data =>
          rw [Object.get, toNat_size_data_object text dataFits]
          exact dataFits.2

/-- Execution starts at the entry that is given, and with the text otherwise. -/
theorem entryOf_object (options : PackOptions) (text data : ByteString) :
    (Layout.entryOf (options.object text data) options.entrySymbol).1 =
      options.entry?.getD options.textBase := by
  rw [Layout.entryOf, Object.findLabel?, object]
  cases options.entry? with
  | none => rfl
  | some entry => simp

end RiscvImage.PackOptions
