import SoftConfirm.Launch
import SoftConfirm.Proofs.FileSystem.Paths
import SoftConfirm.Proofs.KeyFile.Secrets

namespace SoftConfirm

open CommandLine (KeygenSettings)

namespace KeyFile

variable {fs after : FileSystem} {path secret text : String} {overwrite : Bool}

section

variable [SignatureScheme]

end

end KeyFile

end SoftConfirm
