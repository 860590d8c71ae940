import SoftConfirm.Issuance.Interleaving
import SoftConfirm.Node

namespace SoftConfirm

-- A node whose signer set is replaced and removed while requests run. What its requests meet
-- besides the set, the chain and the devices and their signals, is a world of its own.
structure ManagedNode (ω : Type) where
  node : Node
  world : ω

namespace ManagedNode

variable {ω α : Type} [SignatureScheme]

inductive Event (ω : Type) where
  | install (set : SignerSet)
  | installFrom (fs : FileSystem) (source : KeySource) (threshold : Option UInt32)
  | disable
  | elsewhere (change : ω → ω)

def act (event : Event ω) (s : ManagedNode ω) : ManagedNode ω :=
  match event with
  | .install set => { s with node := s.node.install set }
  | .installFrom fs source threshold =>
      { s with node := (s.node.installFrom fs source threshold).2 }
  | .disable => { s with node := s.node.disable }
  | .elsewhere change => { s with world := change s.world }

-- The node hands out its active set, and the world answers everything else.
def surroundings (outside : Surroundings ω) : Surroundings (ManagedNode ω) := fun call s =>
  match call with
  | .signers => (s.node.active, s)
  | call =>
      let (a, world) := outside call s.world
      (a, { s with world })

-- Requests and those who manage the node, side by side.
abbrev Run (ω α : Type) := Interleaving (ManagedNode ω) α

def Run.after (r : Run ω α) (outside : Surroundings ω) (moves : List (Move (Event ω) α)) :
    Run ω α :=
  Interleaving.run act (surroundings outside) r moves

end ManagedNode

end SoftConfirm
