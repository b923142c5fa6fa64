import RiscvImage.Image.Storing
import RiscvImage.Proofs.Host.FileSystem
import RiscvImage.Proofs.Host.Session

/-!
# Storing is emitting

A file that can be created is created before anything is emitted, and what is emitted is
stored there in the end, whether or not the work succeeds.
-/

namespace RiscvImage

namespace Object

variable {files : FileSystem} {path : String} {location : List String}

/-- Storing an object answers what emitting it answers, and the file holds what a sink that
held nothing holds then. -/
theorem run_store (object : Object) (accepts : files.Accepts path location)
    (entrySymbol : String) :
    let emitted := object.emit entrySymbol .empty
    let record := (object.store entrySymbol path).run files
    record.answer = emitted.answer ∧
      record.files = files.put location (.regular emitted.state.contents) := by
  intro emitted
  have created := accepts.write .empty
  have stored := accepts.write_put .empty (object.emit entrySymbol .empty).state.contents
  simp only [store, Session.run_bind, Session.run_storeFile created, Session.run_tellAll,
    Session.run_storeFile stored, emitted]
  cases (object.emit entrySymbol .empty).answer with
  | error error => exact ⟨rfl, rfl⟩
  | ok layout =>
      simp only [Session.run_bind, Session.run_tellAll]
      exact ⟨rfl, rfl⟩

end Object

end RiscvImage
