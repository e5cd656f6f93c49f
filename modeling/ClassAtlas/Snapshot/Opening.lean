import ClassAtlas.Disk.Basic

namespace ClassAtlas

/-- Why a store cannot be opened. -/
inductive OpeningError where
  | noDirectory
  | creating (path : Text) (cause : DiskError)
  | absentStore
  | absentLogger
  deriving DecidableEq, Repr

/-- The wording of a store that cannot be opened. -/
def OpeningError.message : OpeningError → Text
  | .noDirectory => "snapshot store directory is required"
  | .creating path cause => "create snapshot directory " ++ path ++ ": " ++ cause.message
  | .absentStore => "snapshot manager: nil badger db"
  | .absentLogger => "snapshot manager: nil logger"

/-- Where a store is kept: in a directory, or in memory, where it has no directory. -/
structure StorePlace where
  dir : Text
  inMemory : Bool
  deriving DecidableEq, Repr

namespace StorePlace

/-- Opens a store; its directory is made if it is missing. -/
def openAt (d : Disk) (dir : Text) (inMemory : Bool) : Except OpeningError (StorePlace × Disk) :=
  if inMemory then .ok (⟨[], true⟩, d)
  else if dir.isEmpty then .error .noDirectory
  else
    match d.ensureDirectory dir with
    | .error cause => .error (.creating dir cause)
    | .ok d => .ok (⟨dir, false⟩, d)

/-- A pass over the garbage of a store counts if the database rewrote something. In memory there is no
garbage. -/
def collects (p : StorePlace) (rewrote : Bool) : Bool := !p.inMemory && rewrote

end StorePlace

end ClassAtlas
