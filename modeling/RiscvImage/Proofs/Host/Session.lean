import RiscvImage.Host.Session
import RiscvImage.Outcome

/-!
# Running sessions

A session that continues another one is run on the files that the other one leaves, with its
answer, and what both of them say is said in turn.  So of work that may fail, each step
starts where the step before has ended, and the first failure is the end of it.
-/

namespace RiscvImage.Session

variable {α β ε : Type}

/-- What is continued is run where the first session ends. -/
theorem run_bind (session : Session α) (next : α → Session β) (files : FileSystem) :
    (session >>= next).run files =
      let first := session.run files
      let rest := (next first.answer).run first.files
      ⟨rest.answer, first.messages ++ rest.messages, rest.files⟩ := by
  change (session.bind next).run files = _
  induction session generalizing files with
  | done answer => rfl
  | read path continuation ih => exact ih (files.read path) files
  | write path contents continuation ih =>
      simp only [bind, run]
      cases files.write path contents with
      | ok written => exact ih (.ok ()) written
      | error fault => exact ih (.error fault) files
  | say message continuation ih =>
      simp only [bind, run, ih]
      rfl

theorem run_tellAll (messages : List Message) (files : FileSystem) :
    (tellAll messages).run files = ⟨(), messages, files⟩ := by
  induction messages with
  | nil => rfl
  | cons message rest ih => simp only [tellAll, run, ih]

theorem run_storeFile {files written : FileSystem} {path : String} {contents : ByteString}
    (stored : files.write path contents = .ok written) :
    (storeFile path contents).run files = ⟨.ok (), [], written⟩ := by
  simp only [storeFile, run, stored]

/-- What becomes of work that may fail, but for what it says. -/
def outcome (work : ExceptT ε Session α) (files : FileSystem) : Outcome ε FileSystem α :=
  let record := work.run.run files
  ⟨record.answer, record.files⟩

@[simp]
theorem outcome_pure (value : α) (files : FileSystem) :
    outcome (pure value : ExceptT ε Session α) files = ⟨.ok value, files⟩ :=
  rfl

/-- Work is continued from the files it leaves, unless it fails. -/
theorem outcome_bind (work : ExceptT ε Session α) (next : α → ExceptT ε Session β)
    (files : FileSystem) :
    outcome (work >>= next) files =
      (outcome work files).andThen fun value files => outcome (next value) files := by
  have run : (work >>= next).run.run files = _ :=
    run_bind work.run (ExceptT.bindCont next) files
  simp only [outcome, run]
  cases (work.run.run files).answer <;> rfl

/-- A session that does not fail answers as part of work that may. -/
theorem outcome_lift (session : Session α) (files : FileSystem) :
    outcome (monadLift session : ExceptT ε Session α) files =
      ⟨.ok (session.run files).answer, (session.run files).files⟩ := by
  have run : (monadLift session : ExceptT ε Session α).run.run files = _ :=
    run_bind session (fun value => (done (.ok value) : Session (Except ε α))) files
  simp only [outcome, run]
  rfl

end RiscvImage.Session
