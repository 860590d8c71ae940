import SoftConfirm.Chain.Production
import SoftConfirm.Issuance.Interleaving
import SoftConfirm.Node

namespace SoftConfirm

-- A node whose producer may be in the middle of a block.
structure LiveNode where
  node : Node
  production : Production

namespace LiveNode

inductive Event where
  | push (raw : RawTx)
  | produce

def act (event : Event) (s : LiveNode) : LiveNode :=
  match event with
  | .push raw => { s with node := s.node.updateChain (·.push [raw]) }
  | .produce =>
      let (production, chain) := s.production.step s.node.decode s.node.chain
      ⟨{ s.node with chain }, production⟩

-- Programs are answered as the node answers its own requests, whatever its producer is doing.
def surroundings [SignatureScheme] : Surroundings LiveNode := fun call s => (s.node.answer call, s)

-- Programs and a producer on one node. A flag that is never raised interrupts none of them.
abbrev Run (α : Type) := Interleaving LiveNode α

def Run.ofNode (α : Type) (n : Node) : Run α := ⟨⟨n, .waiting none⟩, []⟩

def Run.after [SignatureScheme] {α : Type} (r : Run α) (moves : List (Move Event α)) : Run α :=
  Interleaving.run act surroundings r moves

end LiveNode

end SoftConfirm
