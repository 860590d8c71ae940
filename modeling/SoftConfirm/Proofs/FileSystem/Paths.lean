import Mathlib.Data.List.Induction
import SoftConfirm.Proofs.FileSystem

namespace SoftConfirm

namespace FileSystem

variable {fs other : FileSystem} {start place : Place} {names : List String} {s : String}

section

variable {content : Bytes} {ready written : FileSystem}

end

end FileSystem

end SoftConfirm
