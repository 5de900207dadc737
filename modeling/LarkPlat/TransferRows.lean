import Mathlib.Algebra.Order.Ring.Unbundled.Rat
import Mathlib.Data.Int.Notation
import Mathlib.Data.List.Basic
import Mathlib.Data.Rat.Defs

/-!
# Rows of Transfers

A transfer task moves the files of a package to its hosts, or fetches a file from them. Each host
has a row with its own status and one cursor, `current_offset`, and lines of a log. A value that is
compared with strings keeps them.
-/

namespace LarkPlat

/-- `file_package`. -/
structure FilePackage where
  id : ℕ
  storePath : String
  deriving DecidableEq

/-- `file_item`. -/
structure FileItem where
  id : ℕ
  packageId : ℕ
  relPath : String
  size : ℕ
  sha256 : String
  chunkSize : ℤ
  deriving DecidableEq

/-- `transfer_task`. -/
structure TransferTask where
  id : ℕ
  taskNo : String
  mode : String
  packageId : Option ℕ
  sourceHostPath : Option String
  targetPath : String
  overwrite : ℤ
  verify : ℤ
  limitMbps : Option ℤ
  status : String
  finishedAt : Option ℚ
  createdBy : Option ℕ
  version : ℕ
  deriving DecidableEq

/-- `transfer_host`. It has no column for the agent of its host. -/
structure TransferHost where
  id : ℕ
  transferTaskId : ℕ
  hostId : ℕ
  status : String
  currentOffset : ℤ
  verifySha256 : Option String
  error : Option String
  startedAt : Option ℚ
  finishedAt : Option ℚ
  deriving DecidableEq

/-- The columns of `asset_host` that transfers read. -/
structure AgentBinding where
  id : ℕ
  agentId : Option String
  deriving DecidableEq

/-- `transfer_log`. -/
structure TransferLog where
  createdAt : ℚ
  transferHostId : ℕ
  seq : ℕ
  level : String
  content : String
  deriving DecidableEq

end LarkPlat
